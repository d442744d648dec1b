import FleetControl.Proofs.Replay
import FleetControl.Progress.Terminal
import FleetControl.Text.Blank

namespace FleetControl.Progress

def Printable (s : String) : Prop := ∀ c ∈ s.toList, Text.isControl c = false

instance (s : String) : Decidable (Printable s) :=
  decidable_of_iff (s.toList.all fun c => !Text.isControl c) (by simp [Printable])

theorem Printable.append {s t : String} (hs : Printable s) (ht : Printable t) : Printable (s ++ t) := by
  intro c hc
  rw [String.toList_append, List.mem_append] at hc
  exact hc.elim (hs c) (ht c)

theorem printable_nat (n : Nat) : Printable (toString n) := by
  intro c hc
  rw [Nat.toString_eq_ofList_toDigits, String.toList_ofList] at hc
  obtain ⟨hlow, hhigh⟩ := Char.isDigit_iff_toNat.mp (Nat.isDigit_of_mem_toDigits (by decide) (by decide) hc)
  have hzero : '0'.toNat = 48 := rfl
  have hnine : '9'.toNat = 57 := rfl
  simp only [Text.isControl, Bool.or_eq_false_iff, Bool.and_eq_false_iff, decide_eq_false_iff_not]
  omega

theorem printable_twoDigits (n : Nat) : Printable (TimeOfDay.twoDigits n) := by
  unfold TimeOfDay.twoDigits
  split
  · exact Printable.append (by decide) (printable_nat n)
  · exact printable_nat n

theorem printable_time (t : TimeOfDay) : Printable t.render := by
  have hcolon : Printable ":" := by decide
  exact ((((printable_twoDigits _).append hcolon).append (printable_twoDigits _)).append hcolon).append
    (printable_twoDigits _)

theorem printable_durationText (d : Nat) : Printable (durationText d) := by
  simp only [durationText]
  split
  · exact (printable_nat _).append (by decide)
  · split
    · exact (printable_nat _).append (by decide)
    · exact (((printable_nat _).append (by decide)).append (printable_nat _)).append (by decide)

theorem printable_fitWidth {s : String} (h : Printable s) (columns : Nat) :
    Printable (fitWidth columns s) := by
  intro c hc
  rw [fitWidth, String.toList_ofList] at hc
  exact h c (List.mem_of_mem_take hc)

def Entry.Printable (e : Entry) : Prop :=
  Progress.Printable e.message ∧ ∀ d, e.details = some d → Progress.Printable d

theorem Entry.Printable.render {e : Entry} (h : e.Printable) : Progress.Printable e.render := by
  have hicon : Progress.Printable e.status.icon := by cases e.status <;> decide
  have hoption {α : Type} (o : Option α) (f : α → String) (ho : ∀ a, o = some a → Progress.Printable (f a)) :
      Progress.Printable ((o.map f).getD "") := by
    cases o with
    | none => exact (by decide : Progress.Printable "")
    | some a => exact ho a rfl
  refine ((((hicon.append (by decide)).append h.1).append ?_).append ?_).append ?_
  · exact hoption _ _ fun t _ => ((by decide : Progress.Printable " [").append (printable_time t)).append
      (by decide)
  · split
    · exact hoption _ _ fun d _ =>
        ((by decide : Progress.Printable " (").append (printable_durationText d)).append (by decide)
    · decide
  · exact hoption _ _ fun d hd => (by decide : Progress.Printable " - ").append (h.2 d hd)

def Note.texts : Note → List String
  | message text => [text]
  | details label text => [label, text]
  | fail reason => [reason]
  | _ => []

def Step.texts : Step → List String
  | add message => [message]
  | note _ n => n.texts

theorem Entry.Printable.change {e : Entry} (h : e.Printable) (now : Nat) {n : Note}
    (hn : ∀ text ∈ n.texts, Progress.Printable text) : (e.change now n).Printable := by
  cases n with
  | start clock => exact h
  | done => exact h
  | message text => exact ⟨hn text List.mem_cons_self, h.2⟩
  | details label text =>
    refine ⟨h.1, fun d hd => ?_⟩
    obtain rfl : label ++ text = d := Option.some.inj hd
    exact (hn label (by simp [Note.texts])).append (hn text (by simp [Note.texts]))
  | fail reason =>
    refine ⟨h.1, fun d hd => ?_⟩
    obtain rfl : "error: " ++ reason = d := Option.some.inj hd
    exact (by decide : Progress.Printable "error: ").append (hn reason (by simp [Note.texts]))

namespace Terminal

variable {t : Terminal} {above lines : List (List Char)} {line : List Char} {blanks : Nat} {c : Char}

@[simp] theorem write_append (t : Terminal) (a b : String) : t.write (a ++ b) = (t.write a).write b := by
  simp [write, List.foldl_append]

theorem size_feed (t : Terminal) (c : Char) :
    (t.feed c).width = t.width ∧ (t.feed c).height = t.height := by
  simp only [feed, control, put]
  repeat' split
  all_goals exact ⟨rfl, rfl⟩

theorem size_write (t : Terminal) (text : String) :
    (t.write text).width = t.width ∧ (t.write text).height = t.height := by
  unfold write
  generalize text.toList = cs
  induction cs generalizing t with
  | nil => exact ⟨rfl, rfl⟩
  | cons c cs ih =>
    obtain ⟨hwidth, hheight⟩ := size_feed t c
    simpa only [List.foldl_cons, hwidth, hheight] using ih (t.feed c)

/-- The cursor stands at the end of a row, and only blank rows follow. -/
structure At (t : Terminal) (above : List (List Char)) (line : List Char) (blanks : Nat) : Prop where
  rows : t.rows = above ++ line :: List.replicate blanks []
  row : t.row = above.length
  column : t.column = line.length
  reading : t.reading = .text

theorem overwrite_length (c : Char) (line : List Char) : overwrite line.length c line = line ++ [c] := by
  simp [overwrite, List.rightpad]

theorem modify_length_append {α : Type} (front back : List α) (a : α) (f : α → α) :
    (front ++ a :: back).modify front.length f = front ++ f a :: back := by
  induction front with
  | nil => rfl
  | cons b front ih => simp [ih]

theorem At.feed (h : t.At above line blanks) (hc : Text.isControl c = false)
    (hfits : line.length < t.width) : (t.feed c).At above (line ++ [c]) blanks := by
  have hnewline : c ≠ '\n' := by
    rintro rfl
    simp [Text.isControl] at hc
  have hescape : c ≠ '\x1b' := by
    rintro rfl
    simp [Text.isControl] at hc
  have hcolumn : t.column < t.width := by rw [h.column]; exact hfits
  have hput : t.feed c =
      { t with rows := t.rows.modify t.row (overwrite t.column c), column := t.column + 1 } := by
    simp only [Terminal.feed, h.reading, hnewline, hescape, if_false, put, hcolumn, if_true]
  rw [hput]
  refine ⟨?_, h.row, ?_, h.reading⟩
  · simp only [h.rows, h.row, h.column, modify_length_append, overwrite_length]
  · simp [h.column]

theorem At.newLine (h : t.At above line blanks) : (t.feed '\n').At (above ++ [line]) [] (blanks - 1) := by
  have hnewline : t.feed '\n' = t.newLine := by simp [Terminal.feed, h.reading]
  rw [hnewline]
  refine ⟨?_, ?_, rfl, h.reading⟩
  · cases blanks with
    | zero => simp [Terminal.newLine, h.rows, h.row]
    | succ blanks => simp [Terminal.newLine, h.rows, h.row, List.replicate_succ]
  · simp [Terminal.newLine, h.row]

theorem At.feeds {cs : List Char} (h : t.At above line blanks) (hcs : ∀ c ∈ cs, Text.isControl c = false)
    (hfits : line.length + cs.length ≤ t.width) : (cs.foldl Terminal.feed t).At above (line ++ cs) blanks := by
  induction cs generalizing t line with
  | nil => simpa using h
  | cons c cs ih =>
    have hlt : line.length < t.width := by
      simp only [List.length_cons] at hfits
      omega
    have hfirst := h.feed (hcs c List.mem_cons_self) hlt
    have hrest := ih hfirst (fun x hx => hcs x (List.mem_cons_of_mem _ hx)) (by
      rw [(size_feed t c).1, List.length_append]
      simpa [Nat.add_assoc, Nat.add_comm 1] using hfits)
    simpa using hrest

theorem At.writeLine {text : String} (h : t.At above [] blanks) (htext : Printable text)
    (hfits : text.toList.length ≤ t.width) :
    (t.write (text ++ "\n")).At (above ++ [text.toList]) [] (blanks - 1) := by
  have hline := h.feeds htext (by simpa using hfits)
  rw [write_append]
  exact hline.newLine

theorem At.writeLines {texts : List String} (h : t.At above [] blanks)
    (htexts : ∀ text ∈ texts, Printable text ∧ text.toList.length ≤ t.width) :
    (t.write (String.join (texts.map (· ++ "\n")))).At (above ++ texts.map String.toList) []
      (blanks - texts.length) := by
  induction texts generalizing t above blanks with
  | nil => simpa [write] using h
  | cons text texts ih =>
    obtain ⟨hprintable, hfits⟩ := htexts text List.mem_cons_self
    have hfirst := h.writeLine hprintable hfits
    have hrest := ih hfirst (by
      intro text' hmem
      rw [(size_write t _).1]
      exact htexts text' (List.mem_cons_of_mem _ hmem))
    rw [List.map_cons, String.join_cons, write_append]
    simpa [Nat.sub_sub, Nat.add_comm 1] using hrest

theorem feed_digits {digits read : List Char} (h : t.reading = .parameter read)
    (hdigits : ∀ c ∈ digits, c.isDigit) :
    digits.foldl feed t = { t with reading := .parameter (read ++ digits) } := by
  induction digits generalizing t read with
  | nil => rw [List.append_nil, ← h]; rfl
  | cons c digits ih =>
    have hc : t.feed c = { t with reading := .parameter (read ++ [c]) } := by
      simp [feed, h, hdigits c List.mem_cons_self]
    rw [List.foldl_cons, hc, ih rfl fun x hx => hdigits x (List.mem_cons_of_mem _ hx)]
    simp

theorem write_moveUp {n : Nat} (h : t.reading = .text) (hn : 0 < n) :
    t.write (Progress.moveUp n) = t.moveUp n := by
  have hdigits : ∀ c ∈ Nat.toDigits 10 n, c.isDigit := fun c hc =>
    Nat.isDigit_of_mem_toDigits (by decide) (by decide) hc
  have hstart : t.write "\x1b[" = { t with reading := .parameter [] } := by
    simp [write, feed, h]
  have hnumber : Terminal.write { t with reading := .parameter [] } (toString n) =
      { t with reading := .parameter (Nat.toDigits 10 n) } := by
    rw [Nat.toString_eq_ofList_toDigits, write, String.toList_ofList, feed_digits rfl hdigits]
    rfl
  have hend : Terminal.write { t with reading := .parameter (Nat.toDigits 10 n) } "F" = t.moveUp n := by
    have hmax : max n 1 = n := Nat.max_eq_left hn
    simp [write, feed, control, Nat.ofDigitChars_ten_toDigits, hmax, moveUp, top, h]
  calc t.write (Progress.moveUp n)
      = ((t.write "\x1b[").write (toString n)).write "F" := by
        rw [← write_append, ← write_append]
        rfl
    _ = t.moveUp n := by rw [hstart, hnumber, hend]

theorem write_clearBelow (h : t.reading = .text) : t.write clearBelow = t.eraseBelow := by
  simp [write, clearBelow, feed, control, eraseBelow, h]

theorem At.moveBack (h : t.At (above ++ lines) [] 0) (hpos : 0 < lines.length)
    (htall : lines.length < t.height) :
    (t.write (Progress.moveUp lines.length ++ clearBelow)).At above [] lines.length := by
  have hrow : (t.moveUp lines.length).row = above.length := by
    simp [moveUp, top, h.rows, h.row]
    omega
  have hrows : (t.moveUp lines.length).rows = above ++ lines ++ [[]] := h.rows
  have hreading : (t.moveUp lines.length).reading = .text := h.reading
  have hblanks : (above ++ lines ++ [[]]).length - above.length - 1 = lines.length := by
    simp only [List.length_append, List.length_singleton]
    omega
  rw [write_append, write_moveUp h.reading hpos, write_clearBelow hreading]
  refine ⟨?_, hrow, rfl, hreading⟩
  simp only [eraseBelow, hrow, hrows, hblanks]
  simp [moveUp, List.append_assoc]

end Terminal

variable {log : Log} {t : Terminal} {columns : Nat} {above : List (List Char)}

def Log.lines (columns : Nat) (log : Log) : List String :=
  log.entries.map fun e => fitWidth columns e.render

structure Pictured (columns : Nat) (above : List (List Char)) (log : Log) (t : Terminal) : Prop where
  screen : log.screen = .terminal (some columns)
  width : t.width = columns
  drawn : log.drawn = log.entries.length
  printable : ∀ e ∈ log.entries, e.Printable
  shown : t.At (above ++ (log.lines columns).map String.toList) [] 0

theorem length_fitWidth {line : String} (h : 2 ≤ columns) : (fitWidth columns line).toList.length ≤ columns := by
  rw [fitWidth, String.toList_ofList]
  have htake := List.length_take_le (max (columns - 1) 1) line.toList
  omega

theorem Pictured.redraw (h : Pictured columns above log t) (hcolumns : 2 ≤ columns) (changed : Log)
    (hscreen : changed.screen = log.screen) (hdrawn : changed.drawn = log.drawn)
    (hmore : log.entries.length ≤ changed.entries.length)
    (hprintable : ∀ e ∈ changed.entries, e.Printable) (hfew : log.entries.length ≤ farthest)
    (htall : log.entries.length < t.height) (index : Nat) :
    Pictured columns above (changed.redraw index).1 (t.write (changed.redraw index).2) := by
  have hlength : ((log.lines columns).map String.toList).length = log.entries.length := by
    simp [Log.lines]
  have hback : ((t.write (if log.drawn = 0 then "" else
      moveUp (min log.drawn farthest) ++ clearBelow))).At above [] log.entries.length := by
    rw [h.drawn]
    split
    next hzero =>
      have hnil : log.entries = [] := List.length_eq_zero_iff.mp hzero
      have hshown := h.shown
      simp only [Log.lines, hnil, List.map_nil, List.append_nil] at hshown
      rw [hzero]
      exact hshown
    next hpos =>
      rw [Nat.min_eq_left hfew, ← hlength]
      exact h.shown.moveBack (by omega) (by omega)
  have hfit : ∀ text ∈ changed.lines columns, Printable text ∧ text.toList.length ≤ t.width := by
    intro text hmem
    obtain ⟨e, he, rfl⟩ := List.mem_map.mp hmem
    rw [h.width]
    exact ⟨printable_fitWidth (hprintable e he).render columns, length_fitWidth hcolumns⟩
  have hlines := hback.writeLines (by rwa [(Terminal.size_write t _).1])
  have hnone : log.entries.length - (changed.lines columns).length = 0 := by
    simp only [Log.lines, List.length_map]
    omega
  rw [hnone] at hlines
  have hredraw : changed.redraw index = ({ changed with drawn := changed.entries.length },
      (if log.drawn = 0 then "" else moveUp (min log.drawn farthest) ++ clearBelow) ++
        String.join ((changed.lines columns).map (· ++ "\n"))) := by
    simp [Log.redraw, hscreen, h.screen, hdrawn, Log.lines, Log.fitted, Function.comp_def]
  rw [hredraw]
  refine ⟨hscreen.trans h.screen, (Terminal.size_write t _).1.trans h.width, rfl, hprintable, ?_⟩
  rw [Terminal.write_append]
  exact hlines

theorem Pictured.step (h : Pictured columns above log t) (hcolumns : 2 ≤ columns) {s : Step} (now : Nat)
    (hs : ∀ text ∈ s.texts, Printable text) (hfew : log.entries.length ≤ farthest)
    (htall : log.entries.length < t.height) :
    Pictured columns above (log.step now s).1 (t.write (log.step now s).2) := by
  cases s with
  | add message =>
    have hprintable : ∀ e ∈ log.entries ++ [.pending message], e.Printable := by
      intro e he
      rcases List.mem_append.mp he with he | he
      · exact h.printable e he
      · rw [List.mem_singleton.mp he]
        exact ⟨hs message List.mem_cons_self, by simp [Entry.pending]⟩
    exact h.redraw hcolumns { log with entries := log.entries ++ [.pending message] } rfl rfl (by simp)
      hprintable hfew htall _
  | note index n =>
    simp only [Log.step, Log.note]
    split
    next e' hbind =>
      obtain ⟨e, he, hnote⟩ := Option.bind_eq_some_iff.mp hbind
      have hchange : e' = e.change now n := by
        unfold Entry.note? at hnote
        split at hnote
        · cases hnote
        · exact (Option.some.inj hnote).symm
      have hprintable : ∀ x ∈ log.entries.set index e', x.Printable := by
        intro x hx
        rcases List.mem_or_eq_of_mem_set hx with hx | rfl
        · exact h.printable x hx
        · rw [hchange]
          exact (h.printable e (List.mem_of_getElem? he)).change now hs
      exact h.redraw hcolumns { log with entries := log.entries.set index e' } rfl rfl (by simp)
        hprintable hfew htall index
    next => simpa [Terminal.write] using h

theorem Pictured.replay {steps : List (Nat × Step)} (h : Pictured columns above log t)
    (hcolumns : 2 ≤ columns) (hsteps : ∀ s ∈ steps, ∀ text ∈ s.2.texts, Printable text)
    (hfew : log.entries.length + (created steps).length ≤ farthest)
    (htall : log.entries.length + (created steps).length < t.height) :
    Pictured columns above (log.replay steps).1 (t.write (textOf (log.replay steps).2)) := by
  induction steps generalizing log t with
  | nil => simpa [Log.replay, textOf, Terminal.write] using h
  | cons s steps ih =>
    obtain ⟨now, s⟩ := s
    obtain ⟨hlog, htext⟩ := log.replay_cons now s steps
    have hfirst := h.step hcolumns now (hsteps _ List.mem_cons_self) (by omega) (by omega)
    have hcount : (log.step now s).1.entries.length + (created steps).length =
        log.entries.length + (created ((now, s) :: steps)).length := by
      rw [← Log.length_replay, ← Log.length_replay, hlog]
    rw [hlog, htext, Terminal.write_append]
    apply ih hfirst
    · exact fun s hs => hsteps s (List.mem_cons_of_mem _ hs)
    · rwa [hcount]
    · rw [hcount, (Terminal.size_write t _).2]
      exact htall

/-- A terminal that is wide and tall enough, and has blank rows only from the cursor on, shows the log as it
is after the steps: one row for each entry, with its line cut to the width, and the cursor in the blank row
below. What was above is still there. -/
theorem terminal_shows_entries (columns : Nat) (t : Terminal) (above : List (List Char))
    (steps : List (Nat × Step)) (hcolumns : 2 ≤ columns) (hwidth : t.width = columns)
    (hstart : t.At above [] 0) (hsteps : ∀ s ∈ steps, ∀ text ∈ s.2.texts, Printable text)
    (hfew : (created steps).length ≤ farthest) (htall : (created steps).length < t.height) :
    let r := (Log.empty (.terminal (some columns))).replay steps
    let shown := t.write (textOf r.2)
    r.1.entries.length = (created steps).length ∧
      shown.rows = above ++ r.1.entries.map (fun e => (fitWidth columns e.render).toList) ++ [[]] ∧
      shown.row = above.length + r.1.entries.length ∧ shown.column = 0 ∧ shown.reading = .text ∧
      shown.top ≤ above.length := by
  intro r shown
  have hlength : r.1.entries.length = (created steps).length :=
    (Log.length_replay _ steps).trans (Nat.zero_add _)
  have hempty : Pictured columns above (Log.empty (.terminal (some columns))) t :=
    ⟨rfl, hwidth, rfl, by simp [Log.empty], by simpa [Log.lines, Log.empty] using hstart⟩
  have hzero : (Log.empty (.terminal (some columns))).entries.length = 0 := rfl
  have hshown := (hempty.replay hcolumns hsteps (by omega) (by omega)).shown
  have hrows := hshown.rows
  simp only [Log.lines, List.map_map, Function.comp_def, List.replicate_zero] at hrows
  refine ⟨hlength, hrows, ?_, hshown.column, hshown.reading, ?_⟩
  · have hrow := hshown.row
    simpa [Log.lines] using hrow
  · have hheight : shown.height = t.height := (Terminal.size_write t _).2
    have hcount : shown.rows.length = above.length + r.1.entries.length + 1 := by
      rw [hrows]
      simp only [List.length_append, List.length_map, List.length_singleton]
      rfl
    simp only [Terminal.top, hcount, hheight, hlength]
    omega

def session : List (Nat × Step) :=
  [(0, .add "Stopping server a"), (0, .add "Stopping server b"), (1, .note 0 (.message "Stopping a")),
    (2, .note 1 .done), (3, .note 1 (.message "")), (4, .note 0 (.fail "refused"))]

theorem session_is_shown :
    let shown := (Terminal.blank 12 3).write (textOf ((Log.empty (.terminal (some 12))).replay session).2)
    (∀ s ∈ session, ∀ text ∈ s.2.texts, Printable text) ∧ (created session).length = 2 ∧
      shown.rows = ["✗ Stopping ".toList, "✓ Stopping ".toList, []] ∧ shown.row = 2 ∧ shown.column = 0 := by
  intro shown
  have hprintable : ∀ s ∈ session, ∀ text ∈ s.2.texts, Printable text := by decide
  obtain ⟨_, hrows, hrow, hcolumn, _⟩ := terminal_shows_entries 12 (Terminal.blank 12 3) [] session
    (by decide) rfl ⟨rfl, rfl, rfl, rfl⟩ hprintable (by decide) (by decide)
  exact ⟨hprintable, rfl, hrows, hrow, hcolumn⟩

end FleetControl.Progress
