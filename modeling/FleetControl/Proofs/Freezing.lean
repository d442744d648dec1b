import Mathlib.Data.List.Induction
import FleetControl.Proofs.Replay

namespace FleetControl.Progress

variable {log : Log} {screen : Screen} {e : Entry} {now index i : Nat} {s : Step}
  {steps before : List (Nat × Step)}

namespace Entry

theorem after_of_isTerminal (h : e.status.isTerminal) (now : Nat) (n : Note) : e.after now n = e := by
  simp [after, note?, h]

theorem afterAll_of_isTerminal (h : e.status.isTerminal) (notes : List (Nat × Note)) :
    e.afterAll notes = e := by
  induction notes with
  | nil => rfl
  | cons note notes ih => rwa [afterAll, List.foldl_cons, after_of_isTerminal h]

theorem after_ne_pending (h : e.status ≠ .pending) (now : Nat) (n : Note) :
    (e.after now n).status ≠ .pending := by
  cases hopen : e.status.isTerminal with
  | true => rwa [after_of_isTerminal hopen]
  | false =>
    rw [after_of_open hopen]
    cases n with
    | message _ => exact h
    | details _ _ => exact h
    | _ => simp [change]

theorem afterAll_ne_pending (h : e.status ≠ .pending) (notes : List (Nat × Note)) :
    (e.afterAll notes).status ≠ .pending := by
  induction notes generalizing e with
  | nil => exact h
  | cons note notes ih => exact ih (after_ne_pending h note.1 note.2)

end Entry

def Step.subject (log : Log) : Step → Nat
  | .add _ => log.entries.length
  | .note index _ => index

namespace Log

theorem note_frozen (h : ∀ e, log.entries[index]? = some e → e.status.isTerminal) (now : Nat) (n : Note) :
    log.note now index n = (log, "") := by
  have hnone : (log.entries[index]?).bind (·.note? now n) = none := by
    cases he : log.entries[index]? with
    | none => rfl
    | some e => simp [Entry.note?, h e he]
  rw [note, hnone]

theorem note_stream (hscreen : log.screen = .stream) (he : log.entries[index]? = some e)
    (hopen : e.status.isTerminal = false) (now : Nat) (n : Note) :
    log.note now index n =
      ({ log with entries := log.entries.set index (e.change now n) }, (e.change now n).render ++ "\n") := by
  have hsome : (log.entries[index]?).bind (·.note? now n) = some (e.change now n) := by
    simp [he, Entry.note?, hopen]
  have hlt : index < log.entries.length := (List.getElem?_eq_some_iff.mp he).1
  rw [note, hsome]
  simp [redraw, hscreen, hlt]

theorem add_stream (hscreen : log.screen = .stream) (message : String) :
    log.add message = ({ log with entries := log.entries ++ [.pending message] },
      (Entry.pending message).render ++ "\n") := by
  simp [add, redraw, hscreen]

theorem redraw_screen (log : Log) (index : Nat) : (log.redraw index).1.screen = log.screen := by
  unfold redraw
  split <;> rfl

theorem step_screen (log : Log) (now : Nat) (s : Step) : (log.step now s).1.screen = log.screen := by
  cases s with
  | add message => exact redraw_screen _ _
  | note index n =>
    rw [step, note]
    split
    · exact redraw_screen _ _
    · rfl

theorem step_frame (hlt : i < log.entries.length) (hne : i ≠ s.subject log) (now : Nat) :
    (log.step now s).1.entries[i]? = log.entries[i]? := by
  cases s with
  | add message => rw [step, add_entries, List.getElem?_append_left hlt]
  | note index n =>
    have hindex : index ≠ i := Ne.symm hne
    simp [step, note_entries, hindex]

theorem entry_step_cases (hscreen : log.screen = .stream)
    (he : (log.step now s).1.entries[index]? = some e) :
    log.entries[index]? = some e ∧ (notesOf index [(now, s)] ≠ [] → e.status.isTerminal) ∨
      s.subject log = index ∧ (log.step now s).2 = e.render ++ "\n" := by
  cases s with
  | add message =>
    rw [step, add_stream hscreen] at he ⊢
    rcases Nat.lt_trichotomy index log.entries.length with hlt | rfl | hgt
    · rw [List.getElem?_append_left hlt] at he
      exact .inl ⟨he, by simp [notesOf]⟩
    · rw [List.getElem?_concat_length] at he
      cases he
      exact .inr ⟨rfl, rfl⟩
    · rw [List.getElem?_eq_none (by simpa using Nat.succ_le_of_lt hgt)] at he
      cases he
  | note i n =>
    by_cases hi : i = index
    · subst hi
      rw [step, note_entries, List.getElem?_modify_eq] at he
      obtain ⟨before, hbefore, rfl⟩ := Option.map_eq_some_iff.mp he
      cases hopen : before.status.isTerminal with
      | true =>
        rw [Entry.after_of_isTerminal hopen]
        exact .inl ⟨hbefore, fun _ => hopen⟩
      | false =>
        rw [Entry.after_of_open hopen, step, note_stream hscreen hbefore hopen]
        exact .inr ⟨rfl, rfl⟩
    · have hsame : log.entries[index]? = some e := by
        simpa [step, note_entries, List.getElem?_modify, hi] using he
      exact .inl ⟨hsame, by simp [notesOf, hi]⟩

def of (screen : Screen) (steps : List (Nat × Step)) : Log := ((empty screen).replay steps).1

def output (screen : Screen) (steps : List (Nat × Step)) : String := textOf ((empty screen).replay steps).2

theorem of_append (screen : Screen) (before after : List (Nat × Step)) :
    of screen (before ++ after) = ((of screen before).replay after).1 := replay_append _ _ _

theorem of_concat (screen : Screen) (steps : List (Nat × Step)) (now : Nat) (s : Step) :
    of screen (steps ++ [(now, s)]) = ((of screen steps).step now s).1 := replay_append _ _ _

theorem output_concat (screen : Screen) (steps : List (Nat × Step)) (now : Nat) (s : Step) :
    output screen (steps ++ [(now, s)]) = output screen steps ++ ((of screen steps).step now s).2 := by
  have hlast := (replay_cons (of screen steps) now s []).2
  simp only [replay, textOf, List.map_nil, String.join_nil, String.append_empty] at hlast
  rw [output, replay_append_snd, textOf, List.map_append, String.join_append]
  exact congrArg _ hlast

theorem of_screen (screen : Screen) (steps : List (Nat × Step)) : (of screen steps).screen = screen := by
  induction steps using List.reverseRecOn with
  | nil => rfl
  | append_singleton steps s ih => rw [of_concat, step_screen, ih]

theorem length_of (screen : Screen) (steps : List (Nat × Step)) :
    (of screen steps).entries.length = (created steps).length := by
  rw [of, length_replay]
  exact Nat.zero_add _

theorem entry_of_added (screen : Screen) (before after : List (Nat × Step)) (now : Nat) (message : String) :
    (of screen (before ++ (now, .add message) :: after)).entries[(created before).length]? =
      some ((Entry.pending message).afterAll (notesOf (created before).length after)) := by
  rw [of_append, (replay_cons ..).1]
  apply entry_replay
  rw [step, add_entries, ← length_of screen before, List.getElem?_concat_length]

theorem exists_last_line (he : (of .stream steps).entries[index]? = some e) :
    ∃ before now s after, steps = before ++ (now, s) :: after ∧ s.subject (of .stream before) = index ∧
      (of .stream (before ++ [(now, s)])).entries[index]? = some e ∧
      ((of .stream before).step now s).2 = e.render ++ "\n" ∧
      (notesOf index after ≠ [] → e.status.isTerminal) := by
  induction steps using List.reverseRecOn with
  | nil => simp [of, replay, empty] at he
  | append_singleton steps last ih =>
    obtain ⟨now, s⟩ := last
    have hstep := he
    rw [of_concat] at hstep
    -- If the last step has not written the line, the one that has is the same as before it.
    rcases entry_step_cases (of_screen _ _) hstep with ⟨hold, hnoted⟩ | ⟨hsubject, htext⟩
    · obtain ⟨before, t, first, after, rfl, hsubject, hentry, htext, hfrozen⟩ := ih hold
      refine ⟨before, t, first, after ++ [(now, s)], by simp, hsubject, hentry, htext, ?_⟩
      intro hnotes
      by_cases hnone : notesOf index after = []
      · have hsplit : notesOf index (after ++ [(now, s)]) = notesOf index after ++ notesOf index [(now, s)] :=
          List.filterMap_append
        rw [hsplit, hnone] at hnotes
        exact hnoted hnotes
      · exact hfrozen hnone
    · exact ⟨steps, now, s, [], rfl, hsubject, he, htext, by simp [notesOf]⟩

theorem entry_of_append (he : (of screen before).entries[index]? = some e) (after : List (Nat × Step)) :
    (of screen (before ++ after)).entries[index]? = some (e.afterAll (notesOf index after)) := by
  rw [of_append]
  exact entry_replay _ _ he

theorem frozen_of_append (he : (of screen before).entries[index]? = some e) (hfrozen : e.status.isTerminal)
    (after : List (Nat × Step)) : (of screen (before ++ after)).entries[index]? = some e := by
  rw [entry_of_append he, Entry.afterAll_of_isTerminal hfrozen]

theorem note_frozen_of_append (he : (of screen before).entries[index]? = some e)
    (hfrozen : e.status.isTerminal) (after : List (Nat × Step)) (now : Nat) (n : Note) :
    (of screen (before ++ after)).note now index n = (of screen (before ++ after), "") := by
  apply note_frozen
  intro e' he'
  obtain rfl := Option.some.inj ((frozen_of_append he hfrozen after).symm.trans he')
  exact hfrozen

/-- There is an entry for each one added, in that order. It changes by its own notes only and is frozen once
it is done or has failed. On a plain stream the last line of it shows how it is. -/
theorem entries_freeze_and_last_lines_show (screen : Screen) (steps : List (Nat × Step)) :
    (of screen steps).entries.length = (created steps).length ∧
    (∀ before now message after, steps = before ++ (now, .add message) :: after →
      (of screen steps).entries[(created before).length]? =
        some ((Entry.pending message).afterAll (notesOf (created before).length after))) ∧
    (∀ index e more, (of screen steps).entries[index]? = some e → ∃ e',
      (of screen (steps ++ more)).entries[index]? = some e' ∧ e' = e.afterAll (notesOf index more) ∧
      (e.status ≠ .pending → e'.status ≠ .pending) ∧
      (e.status.isTerminal → e' = e ∧
        ∀ now n, (of screen (steps ++ more)).note now index n = (of screen (steps ++ more), ""))) ∧
    (∀ now s i, i < (of screen steps).entries.length → i ≠ s.subject (of screen steps) →
      (of screen (steps ++ [(now, s)])).entries[i]? = (of screen steps).entries[i]?) ∧
    (screen = .stream →
      (∀ now message,
        (of screen (steps ++ [(now, .add message)])).entries =
          (of screen steps).entries ++ [.pending message] ∧
        output screen (steps ++ [(now, .add message)]) =
          output screen steps ++ ((Entry.pending message).render ++ "\n")) ∧
      (∀ now index n e, (of screen steps).entries[index]? = some e → e.status.isTerminal = false →
        (of screen (steps ++ [(now, .note index n)])).entries =
          (of screen steps).entries.set index (e.change now n) ∧
        output screen (steps ++ [(now, .note index n)]) =
          output screen steps ++ ((e.change now n).render ++ "\n")) ∧
      (∀ more, ∃ text, output screen (steps ++ more) = output screen steps ++ text) ∧
      ∀ index e, (of screen steps).entries[index]? = some e →
        ∃ before now s after, steps = before ++ (now, s) :: after ∧ s.subject (of screen before) = index ∧
          output screen (before ++ [(now, s)]) = output screen before ++ (e.render ++ "\n") ∧
          ∀ mid t n rest, after = mid ++ (t, .note index n) :: rest →
            (of screen (before ++ (now, s) :: mid)).note t index n =
              (of screen (before ++ (now, s) :: mid), "")) := by
  refine ⟨length_of screen steps, ?_, ?_, ?_, ?_⟩
  · rintro before now message after rfl
    exact entry_of_added screen before after now message
  · intro index e more he
    refine ⟨_, entry_of_append he more, rfl, fun h => Entry.afterAll_ne_pending h _, ?_⟩
    intro hfrozen
    exact ⟨Entry.afterAll_of_isTerminal hfrozen _, note_frozen_of_append he hfrozen more⟩
  · intro now s i hlt hne
    rw [of_concat]
    exact step_frame hlt hne now
  · rintro rfl
    have hscreen := of_screen .stream steps
    refine ⟨?_, ?_, ?_, ?_⟩
    · intro now message
      rw [of_concat, output_concat, step, add_stream hscreen]
      exact ⟨rfl, rfl⟩
    · intro now index n e he hopen
      rw [of_concat, output_concat, step, note_stream hscreen he hopen]
      exact ⟨rfl, rfl⟩
    · intro more
      refine ⟨textOf ((of .stream steps).replay more).2, ?_⟩
      rw [output, replay_append_snd, textOf, List.map_append, String.join_append]
      rfl
    · intro index e he
      obtain ⟨before, now, s, after, rfl, hsubject, hentry, htext, hfrozen⟩ := exists_last_line he
      refine ⟨before, now, s, after, rfl, hsubject, by rw [output_concat, htext], ?_⟩
      rintro mid t n rest rfl
      have hnoted : notesOf index (mid ++ (t, .note index n) :: rest) ≠ [] := by simp [notesOf]
      have hlater := note_frozen_of_append hentry (hfrozen hnoted) mid t n
      simpa using hlater

example : output .stream [(0, .add "dock a"), (0, .add "dock b"), (5, .note 1 .done),
    (7, .note 1 (.message "late")), (9, .note 0 (.fail "gone"))] =
    "◯ dock a\n◯ dock b\n✓ dock b\n✗ dock a - error: gone\n" := by decide

end Log
end FleetControl.Progress
