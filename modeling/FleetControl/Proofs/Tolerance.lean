import Mathlib.Data.List.Basic
import FleetControl.Proofs.Replay
import FleetControl.Proofs.Interruption
import FleetControl.Wait.Details

/-!
Polls that fail. To a wait they are the same as polls that find a state which settles nothing, and all that
is left of them is in the details of its entry.
-/
namespace FleetControl

open Progress

def Vigil.quiet (r : Vigil Ending) : Vigil Ending := { r with failures := [] }

theorem Vigil.cut_quiet (r : Vigil Ending) (cancelAt : Option Nat) :
    r.quiet.cut cancelAt = (r.cut cancelAt).quiet := by
  cases cancelAt with
  | none => rfl
  | some c => by_cases hf : r.finish < c <;> simp [cut, quiet, hf]

namespace Waiter

variable {w : Waiter} {reply? : Nat → Option Reply} {state : Nat → String} {cancelAt entry : Option Nat}
  {deadline now n start c index : Nat} {log : Log} {failure : Option ApiError} {r : Vigil Ending}

theorem told_of_failures (h : r.failures = []) (entry : Option Nat) (log : Log) :
    told entry log r = ⟨r, log, []⟩ := by
  cases entry <;> simp [told, h, details, Log.replay]

theorem tell?_of_run? (h : w.run? .checked reply? cancelAt start = some r) (entry : Option Nat) (log : Log) :
    w.tell? reply? cancelAt start entry log = some (told entry log r) := by
  rw [tell?, h, Option.map_some]

def detailsAfter (failures : List (Nat × ApiError)) (before : Option String) : Option String :=
  (failures.getLast?.map fun f => "poll failed: " ++ f.2.advice).or before

theorem afterAll_details {e : Entry} (hopen : e.status.isTerminal = false) (failures : List (Nat × ApiError)) :
    e.afterAll (failures.map fun f => (f.1, .details "poll failed: " f.2.advice)) =
      { e with details := detailsAfter failures e.details } := by
  induction failures generalizing e with
  | nil => rfl
  | cons f failures ih =>
    have hfirst : e.after f.1 (.details "poll failed: " f.2.advice) =
        { e with details := some ("poll failed: " ++ f.2.advice) } := by
      rw [Entry.after_of_open hopen]
      rfl
    have hrest := ih (e := { e with details := some ("poll failed: " ++ f.2.advice) }) hopen
    rw [List.map_cons, Entry.afterAll, List.foldl_cons, hfirst]
    refine hrest.trans ?_
    cases failures with
    | nil => rfl
    | cons g failures => simp [detailsAfter, List.getLast?_cons]

theorem replay_details (log : Log) (index : Nat) (failures : List (Nat × ApiError)) :
    (log.replay (details (some index) failures)).1.entries = log.entries.modify index
      (·.afterAll (failures.map fun f => (f.1, .details "poll failed: " f.2.advice))) := by
  induction failures generalizing log with
  | nil => exact (List.modify_id index log.entries).symm
  | cons f failures ih =>
    rw [details, List.map_cons, (Log.replay_cons ..).1]
    refine (ih _).trans ?_
    rw [Log.step, Log.note_entries, List.modify_modify_eq]
    rfl

theorem told_entries {e : Entry} (hentry : log.entries[index]? = some e)
    (hopen : e.status.isTerminal = false) :
    (told (some index) log r).log.entries =
      log.entries.set index { e with details := detailsAfter r.failures e.details } := by
  rw [← afterAll_details hopen]
  refine (replay_details log index r.failures).trans ?_
  rw [List.modify_eq_set_getElem?, hentry]
  rfl

def calmed (reply? : Nat → Option Reply) (state : Nat → String) (n : Nat) : Option Reply :=
  (reply? n).map fun a => match a.answer with
    | .error _ => ⟨a.delay, .ok (state n)⟩
    | .ok _ => a

theorem calmed_eq_some {a : Reply} (hstate : ¬ w.Settles (.ok (state n))) (h : reply? n = some a) :
    ∃ b, calmed reply? state n = some b ∧ b.delay = a.delay ∧ w.verdict b.answer = w.verdict a.answer ∧
      failure? b.answer = none := by
  obtain ⟨delay, answer⟩ := a
  cases answer with
  | ok s => exact ⟨⟨delay, .ok s⟩, by simp [calmed, h], rfl, rfl, rfl⟩
  | error e =>
    exact ⟨⟨delay, .ok (state n)⟩, by simp [calmed, h], rfl, verdict_eq_none_iff.mpr hstate, rfl⟩

theorem exists_of_calmed {b : Reply} (h : calmed reply? state n = some b) :
    ∃ a, reply? n = some a ∧ b.delay = a.delay := by
  obtain ⟨a, ha, rfl⟩ := Option.map_eq_some_iff.mp h
  refine ⟨a, ha, ?_⟩
  cases a.answer <;> rfl

theorem Waits.calmed (hstate : ∀ n, ¬ w.Settles (.ok (state n))) (h : Waits w reply? deadline n now r) :
    Waits w (calmed reply? state) deadline n now r.quiet := by
  induction h with
  | uncounted hmany => exact .uncounted hmany
  | unanswered hcount hlate =>
    apply Waits.unanswered hcount
    intro b hb
    obtain ⟨a, ha, hdelay⟩ := exists_of_calmed hb
    rw [hdelay]
    exact hlate a ha
  | settled hcount ha hle hv =>
    obtain ⟨b, hb, hdelay, hverdict, _⟩ := calmed_eq_some (hstate _) ha
    rw [← hdelay] at hle ⊢
    exact .settled hcount hb hle (hverdict.trans hv)
  | expired hcount ha heq hv =>
    obtain ⟨b, hb, hdelay, hverdict, hquiet⟩ := calmed_eq_some (hstate _) ha
    have hexpired := Waits.expired hcount hb (hdelay ▸ heq) (hverdict.trans hv)
    rw [hquiet] at hexpired
    exact hexpired
  | unwoken hcount ha hlt hv hwake =>
    obtain ⟨b, hb, hdelay, hverdict, hquiet⟩ := calmed_eq_some (hstate _) ha
    rw [← hdelay] at hlt hwake ⊢
    have hunwoken := Waits.unwoken hcount hb hlt (hverdict.trans hv) hwake
    rw [hquiet] at hunwoken
    exact hunwoken
  | again hcount ha hlt hv hwake _ ih =>
    obtain ⟨b, hb, hdelay, hverdict, hquiet⟩ := calmed_eq_some (hstate _) ha
    rw [← hdelay] at hlt hwake ih
    have hagain := Waits.again hcount hb hlt (hverdict.trans hv) hwake ih
    rw [hquiet] at hagain
    exact hagain

def failureOf? (reply? : Nat → Option Reply) (cancelAt : Option Nat) (deadline n now : Nat) :
    Option (Nat × ApiError) :=
  (reply? n).bind fun a =>
    if now + a.delay ≤ deadline ∧ ∀ c ∈ cancelAt, now + a.delay < c then
      (failure? a.answer).map (now + a.delay, ·)
    else none

def failuresOf (reply? : Nat → Option Reply) (cancelAt : Option Nat) (deadline : Nat) :
    (n : Nat) → (polls : List Nat) → List (Nat × ApiError)
  | _, [] => []
  | n, now :: polls =>
    (failureOf? reply? cancelAt deadline n now).toList ++ failuresOf reply? cancelAt deadline (n + 1) polls

end Waiter

namespace Vigil

open Waiter

variable {reply? : Nat → Option Reply} {cancelAt : Option Nat} {deadline n now : Nat} {r : Vigil Ending}

def Accounts (reply? : Nat → Option Reply) (cancelAt : Option Nat) (deadline n : Nat) (r : Vigil Ending) :
    Prop :=
  r.failures = failuresOf reply? cancelAt deadline n r.polls

theorem accounts_end (ending : Ending) (t : Nat) :
    (cut ⟨ending, t, [], []⟩ cancelAt).Accounts reply? cancelAt deadline n := by
  cases cancelAt with
  | none => rfl
  | some c => by_cases ht : t < c <;> simp [cut, ht, Accounts, failuresOf]

theorem accounts_polled (hsince : r.Since now)
    (h : cancelAt.filter (· ≤ now) = none → (r.cut cancelAt).failures =
      (failureOf? reply? cancelAt deadline n now).toList ++
        failuresOf reply? cancelAt deadline (n + 1) (r.cut cancelAt).polls) :
    ((r.polled now).cut cancelAt).Accounts reply? cancelAt deadline n := by
  cases hc : cancelAt.filter (· ≤ now) with
  | some c =>
    rw [hsince.polled.cut hc]
    rfl
  | none =>
    rw [cut_polled hc]
    exact h hc

theorem accounts_unfailed (hsince : r.Since now)
    (hnone : failureOf? reply? cancelAt deadline n now = none)
    (hrest : (r.cut cancelAt).Accounts reply? cancelAt deadline (n + 1)) :
    ((r.polled now).cut cancelAt).Accounts reply? cancelAt deadline n := by
  apply accounts_polled hsince
  intro _
  rw [hnone]
  exact hrest

theorem accounts_noted {a : Reply} (ha : reply? n = some a) (hle : now + a.delay ≤ deadline)
    (hsince : r.Since (now + a.delay))
    (hrest : (r.cut cancelAt).Accounts reply? cancelAt deadline (n + 1)) :
    (((r.noted (now + a.delay) (failure? a.answer)).polled now).cut cancelAt).Accounts reply? cancelAt
      deadline n := by
  apply accounts_polled ((hsince.noted _).mono (Nat.le_add_right _ _))
  intro _
  cases ht : cancelAt.filter (· ≤ now + a.delay) with
  | some c =>
    obtain ⟨hcancel, hcut⟩ : cancelAt = some c ∧ c ≤ now + a.delay := by
      simpa [Option.filter_eq_some_iff] using ht
    have hnone : failureOf? reply? cancelAt deadline n now = none := by
      rw [failureOf?, ha]
      refine if_neg fun h => ?_
      have := h.2 c hcancel
      omega
    rw [(hsince.noted _).cut ht, hnone]
    rfl
  | none =>
    have hfailure : failureOf? reply? cancelAt deadline n now =
        (failure? a.answer).map (now + a.delay, ·) := by
      rw [failureOf?, ha]
      exact if_pos ⟨hle, fun c hcancel => lt_of_filter ht hcancel⟩
    rw [cut_noted ht, hfailure]
    exact congrArg _ hrest

end Vigil

namespace Waiter

open Vigil

variable {w : Waiter} {reply? : Nat → Option Reply} {deadline now n start : Nat} {r : Vigil Ending}

theorem Waits.accounts (h : Waits w reply? deadline n now r) (hnow : now ≤ deadline)
    (cancelAt : Option Nat) : (r.cut cancelAt).Accounts reply? cancelAt deadline n := by
  induction h with
  | uncounted _ => exact accounts_end _ _
  | @unanswered n now _ hlate =>
    apply accounts_unfailed ((since_end _ _).mono hnow) _ (accounts_end _ _)
    rw [failureOf?, Option.bind_eq_none_iff]
    intro a ha
    have := hlate a ha
    exact if_neg (by omega)
  | @settled n now a result _ ha hle hv =>
    apply accounts_unfailed ((since_end _ _).mono (Nat.le_add_right _ _)) _ (accounts_end _ _)
    obtain ⟨delay, answer⟩ := a
    cases answer with
    | error e => cases hv
    | ok s => simp [failureOf?, ha, failure?]
  | @expired n now a _ ha heq hv =>
    rw [← heq] at hnow ⊢
    exact accounts_noted ha (Nat.le_refl _) (since_end _ _) (accounts_end _ _)
  | @unwoken n now a _ ha hlt hv _ =>
    exact accounts_noted ha (Nat.le_of_lt hlt) (since_end _ _) (accounts_end _ _)
  | @again n now a r _ ha hlt hv _ hr ih =>
    have hwake := Nat.min_le_right (now + a.delay + w.interval) deadline
    have hrest : r.Since (now + a.delay) := (hr.since hwake).mono (by omega)
    exact accounts_noted ha (Nat.le_of_lt hlt) hrest (ih hwake)

theorem accounts_of_start (h : Waits w reply? (start + w.timeout) 0 start r) (cancelAt : Option Nat) :
    (r.cut (cancelAt.map (max start))).Accounts reply? cancelAt (start + w.timeout) 0 := by
  have hstart : start ≤ start + w.timeout := Nat.le_add_right _ _
  cases hc : cancelAt.filter (· ≤ start) with
  | some c =>
    obtain ⟨rfl, hle⟩ : cancelAt = some c ∧ c ≤ start := by simpa [Option.filter_eq_some_iff] using hc
    rw [(h.since hstart).cut (c := start) (by simp [hle])]
    rfl
  | none =>
    have hmax : cancelAt.map (max start) = cancelAt := by
      cases hcancel : cancelAt with
      | none => rfl
      | some c => simp [Nat.le_of_lt (lt_of_filter hc hcancel)]
    rw [hmax]
    exact h.accounts hstart cancelAt

/-- A poll that fails is passed over like one that finds the resource in a state which settles nothing, and
a wait does the same without an entry, also if it breaks off. All that it changes in the log are the details
of its entry: they tell of the last poll that failed before the wait was over. -/
theorem failed_polls_show_in_details_only (w : Waiter) (reply? : Nat → Option Reply)
    (cancelAt : Option Nat) (start : Nat) (state : Nat → String) (log : Log) (index : Nat) (e : Entry)
    (hinterval : 0 < w.interval) (hclock : (w.deadline? start).isSome)
    (hstate : ∀ n, state n ≠ w.target ∧ state n ∉ w.failureStates)
    (hentry : log.entries[index]? = some e) (hopen : e.status.isTerminal = false) :
    ∃ told, w.tell? reply? cancelAt start (some index) log = some told ∧
      let r := told.waited
      (∀ entry, w.tell? (calmed reply? state) cancelAt start entry log =
        some ⟨⟨r.result, r.finish, r.polls, []⟩, log, []⟩) ∧
      w.tell? reply? cancelAt start none log = some ⟨r, log, []⟩ ∧
      w.run? .checked reply? cancelAt start = some r ∧
      told.log.entries = log.entries.set index
        { e with details :=
            detailsAfter (failuresOf reply? cancelAt (start + w.timeout) 0 r.polls) e.details } ∧
      (w.Fits start → ∃ result, r.result = .ok result) := by
  have hunsettled (n : Nat) : ¬ w.Settles (.ok (state n)) := by
    rintro (htarget | hfailure)
    · exact (hstate n).1 htarget
    · exact (hstate n).2 hfailure
  obtain ⟨r₀, hr, _⟩ := exists_run hinterval hclock reply?
  have hrun := run?_eq_cut hclock hr cancelAt
  have hcalm := run?_eq_cut hclock (hr.calmed hunsettled) cancelAt
  have haccounts := accounts_of_start hr cancelAt
  have hreturns (hfits : w.Fits start) := cut_returns (hfits.returns hinterval hr) (cancelAt.map (max start))
  rw [cut_quiet] at hcalm
  generalize r₀.cut (cancelAt.map (max start)) = r at hrun hcalm haccounts hreturns
  refine ⟨told (some index) log r, tell?_of_run? hrun _ log, ?_, tell?_of_run? hrun none log, hrun, ?_, hreturns⟩
  · intro entry
    rw [tell?_of_run? hcalm entry log, told_of_failures rfl]
    rfl
  · rw [told_entries hentry hopen, haccounts]
    rfl

def berthLog : Log := ⟨.stream, [⟨"Mooring", none, .inProgress, none, some 0, none⟩], 0⟩

theorem berth_tells_of_failure :
    0 < berth.interval ∧ (berth.deadline? 0).isSome ∧ "adrift" ≠ berth.target ∧
      "adrift" ∉ berth.failureStates ∧
      ∃ told, berth.tell? berthScript.reply? none 0 (some 0) berthLog = some told ∧
        told.waited.polls = [0, 8, 17] ∧
        berth.tell? (calmed berthScript.reply? fun _ => "adrift") none 0 (some 0) berthLog =
          some ⟨⟨.ok (.ok ()), 18, [0, 8, 17], []⟩, berthLog, []⟩ ∧
        told.log.entries = [⟨"Mooring",
          some "poll failed: Request failed. Check your network connection and try again.", .inProgress, none,
          some 0, none⟩] := by
  have htarget : "adrift" ≠ berth.target := by decide
  have hfailure : "adrift" ∉ berth.failureStates := by decide
  obtain ⟨told, htold, hcalm, _, hrun, hentries, _⟩ :=
    failed_polls_show_in_details_only berth berthScript.reply? none 0 (fun _ => "adrift") berthLog 0 _
      (by decide) (by decide) (fun _ => ⟨htarget, hfailure⟩) rfl rfl
  have hr := Option.some.inj (hrun.symm.trans berth_run)
  rw [hr] at hcalm hentries
  exact ⟨by decide, by decide, htarget, hfailure, told, htold, by rw [hr], hcalm (some 0), hentries⟩

end Waiter
end FleetControl
