import FleetControl.Progress.Log

/-! What steps make of a log: entries are added at its end, and each of the others is changed by its own notes. -/
namespace FleetControl.Progress

variable {log : Log} {now index : Nat} {steps : List (Nat × Step)}

def Entry.after (e : Entry) (now : Nat) (n : Note) : Entry := (e.note? now n).getD e

theorem Entry.after_of_open {e : Entry} (h : e.status.isTerminal = false) (now : Nat) (n : Note) :
    e.after now n = e.change now n := by
  simp [after, note?, h]

namespace Log

theorem redraw_entries (log : Log) (index : Nat) : (log.redraw index).1.entries = log.entries := by
  unfold redraw
  split <;> rfl

theorem add_entries (log : Log) (message : String) :
    (log.add message).1.entries = log.entries ++ [.pending message] := redraw_entries _ _

theorem note_entries (log : Log) (now index : Nat) (n : Note) :
    (log.note now index n).1.entries = log.entries.modify index (Entry.after · now n) := by
  have hentries : (log.note now index n).1.entries =
      ((log.entries[index]?).bind (·.note? now n)).elim log.entries (log.entries.set index) := by
    unfold note
    cases (log.entries[index]?).bind (·.note? now n) with
    | some e => exact redraw_entries _ _
    | none => rfl
  rw [hentries]
  apply List.ext_getElem?
  intro i
  rw [List.getElem?_modify]
  cases he : log.entries[index]? with
  | none =>
    by_cases hi : index = i
    · subst hi
      simp [he]
    · simp [hi]
  | some e =>
    obtain ⟨hlt, rfl⟩ := List.getElem?_eq_some_iff.mp he
    by_cases hi : index = i
    · subst hi
      cases hnote : log.entries[index].note? now n <;> simp [hnote, hlt, Entry.after]
    · cases hnote : log.entries[index].note? now n <;> simp [hnote, hi]

end Log

def created (steps : List (Nat × Step)) : List String :=
  steps.filterMap fun s => match s.2 with
    | .add message => some message
    | .note _ _ => none

def notesOf (index : Nat) (steps : List (Nat × Step)) : List (Nat × Note) :=
  steps.filterMap fun s => match s.2 with
    | .add _ => none
    | .note i n => if i = index then some (s.1, n) else none

def Entry.afterAll (e : Entry) (notes : List (Nat × Note)) : Entry :=
  notes.foldl (fun e n => e.after n.1 n.2) e

def textOf (written : List (Nat × String)) : String := String.join (written.map (·.2))

namespace Log

theorem replay_cons (log : Log) (now : Nat) (s : Step) (steps : List (Nat × Step)) :
    (log.replay ((now, s) :: steps)).1 = ((log.step now s).1.replay steps).1 ∧
      textOf (log.replay ((now, s) :: steps)).2 =
        (log.step now s).2 ++ textOf ((log.step now s).1.replay steps).2 := by
  refine ⟨rfl, ?_⟩
  simp only [replay]
  split
  next h => rw [h, String.empty_append]
  next => simp [textOf]

theorem replay_append (log : Log) (before after : List (Nat × Step)) :
    (log.replay (before ++ after)).1 = ((log.replay before).1.replay after).1 := by
  induction before generalizing log with
  | nil => rfl
  | cons s before ih => exact ih (log.step s.1 s.2).1

theorem replay_append_snd (log : Log) (before after : List (Nat × Step)) :
    (log.replay (before ++ after)).2 = (log.replay before).2 ++ ((log.replay before).1.replay after).2 := by
  induction before generalizing log with
  | nil => rfl
  | cons s before ih =>
    simp only [List.cons_append, replay, ih]
    split <;> rfl

theorem length_replay (log : Log) (steps : List (Nat × Step)) :
    (log.replay steps).1.entries.length = log.entries.length + (created steps).length := by
  induction steps generalizing log with
  | nil => rfl
  | cons s steps ih =>
    obtain ⟨now, s⟩ := s
    rw [(replay_cons log now s steps).1, ih]
    cases s with
    | add message =>
      have hadd : (log.step now (.add message)).1.entries.length = log.entries.length + 1 := by
        simp [step, add_entries]
      have hcreated : created ((now, .add message) :: steps) = message :: created steps := rfl
      rw [hadd, hcreated, List.length_cons]
      omega
    | note index n =>
      have hnote : (log.step now (.note index n)).1.entries.length = log.entries.length := by
        simp [step, note_entries]
      rw [hnote]
      rfl

theorem entry_replay (log : Log) (steps : List (Nat × Step)) {index : Nat} {e : Entry}
    (h : log.entries[index]? = some e) :
    (log.replay steps).1.entries[index]? = some (e.afterAll (notesOf index steps)) := by
  induction steps generalizing log e with
  | nil => exact h
  | cons s steps ih =>
    obtain ⟨now, s⟩ := s
    rw [(replay_cons log now s steps).1]
    cases s with
    | add message =>
      apply ih
      rw [step, add_entries, List.getElem?_append_left (List.getElem?_eq_some_iff.mp h).1, h]
    | note i n =>
      have hstep : (log.step now (.note i n)).1.entries[index]? =
          some (if i = index then e.after now n else e) := by
        rw [step, note_entries, List.getElem?_modify, h]
        split <;> rfl
      rw [ih _ hstep]
      by_cases hi : i = index <;> simp [notesOf, Entry.afterAll, hi]

end Log

namespace Log

end Log
end FleetControl.Progress
