import FleetControl.Dispatch
import FleetControl.Proofs.Attribution
import FleetControl.Proofs.Room

namespace FleetControl.Batch

open Floor

variable {command : Command} {flags : CommandLine.Flags} {settings : Settings} {s : Setup} {f : Floor}
  {position start : Nat} {token uuid : String} {record : Option FleetControl.Record} {r : Result} {w : Waiter}

theorem times_of_waiter? (h : waiter? command (flags.waitOptions settings) = some w) :
    w.timeout = settings.clientTimeout * 1000 ∧ w.interval = settings.interval := by
  obtain ⟨o, ho, h⟩ := Option.bind_eq_some_iff.mp h
  obtain ⟨e, _, h⟩ := Option.bind_eq_some_iff.mp h
  obtain rfl := Option.some.inj h
  unfold CommandLine.Flags.waitOptions at ho
  split at ho
  · obtain rfl := Option.some.inj ho
    exact ⟨rfl, rfl⟩
  · cases ho

/-- The wait of an item that has room comes to what the checked wait comes to. -/
theorem Floor.Concludes.checked {result : Except WaitError Unit}
    (h : Concludes s f position uuid start w result) (hinterval : 0 < w.interval) (hfits : w.Fits start)
    {reply? : Nat → Option Reply} (hreply : Answers s uuid (f.asked position uuid) reply?) :
    ∃ whole, w.checked? reply? (s.cancelAt position) start = some (.ok whole) ∧ whole.result = result ∧
      whole.polls = (f.asked position uuid).map (·.1) := by
  obtain ⟨whole, hwhole, hresult, hpolls⟩ := h reply? hreply
  obtain ⟨other, hother⟩ := hfits.completes hinterval reply? (s.cancelAt position)
  obtain rfl := Option.some.inj ((Waiter.wait?_of_checked? hother).symm.trans hwhole)
  exact ⟨other, hother, hresult, hpolls⟩

theorem Floor.Attributed.of_fits (h : Attributed s f position token uuid start (.ok record) r)
    (hw : s.waiter = some w) (hfits : w.Fits start) :
    r = .ok record ∨ ∃ e, r = .error (.wait token e) := by
  cases r with
  | ok v =>
    obtain ⟨hfate, _⟩ := (h.returned v).mp rfl
    cases hfate
    exact .inl rfl
  | error e =>
    cases e with
    | remote t e => cases ((h.remote t e).mp rfl).2
    | wait t e =>
      obtain ⟨rfl, _⟩ := (h.wait t e).mp rfl
      exact .inr ⟨e, rfl⟩
    | aborted t reason =>
      obtain ⟨_, hpanic⟩ | ⟨_, v, hv, hnone⟩ := h.aborted.mp ⟨t, reason, rfl⟩
      · cases hpanic
      · obtain rfl := Option.some.inj (hw.symm.trans hv)
        simp [Waiter.deadline?, hfits.deadline] at hnone

def Endures (s : Setup) (f : Floor) (w : Waiter) (position : Nat) (item : Item (Option FleetControl.Record)) :
    Prop :=
  ∃ sent call time, Requested s f position item.uuid sent call time ∧
    let change := s.cloud.change call (s.command.request item.uuid)
    ∀ record, change.fate = .ok record →
      (w.Fits (time + change.delay) →
        item.result = .ok record ∨ ∃ e, item.result = .error (.wait item.token e)) ∧
      (w.deadline? (time + change.delay) = none → ∃ t reason, item.result = .error (.aborted t reason))

theorem endures_of_attended {item : Item (Option FleetControl.Record)} (h : Attended s f position item)
    (hw : s.waiter = some w) : Endures s f w position item := by
  obtain ⟨sent, call, time, hsent, hattributed⟩ := h
  refine ⟨sent, call, time, hsent, ?_⟩
  intro change record hok
  change Attributed _ _ _ _ _ _ change.fate _ at hattributed
  rw [hok] at hattributed
  exact ⟨hattributed.of_fits hw, fun hd => hattributed.aborted.mpr (.inr ⟨⟨record, rfl⟩, w, hw, hd⟩)⟩

/-- Whatever the settings and flags are, exactly the waits with room for every script come to a result on every
script, and that is the result of the unchecked wait. With that room no item is aborted after its request has
succeeded; without an instant for the deadline every such item is. -/
theorem wait_completes_iff_fits (flags : CommandLine.Flags) (settings : Settings) (command : Command)
    (w : Waiter) (hw : waiter? command (flags.waitOptions (flags.settings settings)) = some w) :
    (w.timeout = flags.clientTimeout.getD settings.clientTimeout * 1000 ∧
      w.interval = max settings.pollInterval 1) ∧
    (∀ start, (∀ reply? cancelAt, ∃ r, w.checked? reply? cancelAt start = some (.ok r)) ↔ w.Fits start) ∧
    (∀ reply? cancelAt start r, w.checked? reply? cancelAt start = some (.ok r) →
      w.wait? reply? cancelAt start = some r) ∧
    ∀ cloud c tokens o operator clock f, o.wait = flags.waitOptions (flags.settings settings) →
      let s := setup cloud command o clock
      Reached cloud c tokens command o operator clock f → (∀ p, timer? s f p = none) →
        ∀ i item, f.outcome.items[i]? = some item → Endures s f w i item := by
  obtain ⟨htimeout, hinterval⟩ := times_of_waiter? hw
  have hpositive : 0 < w.interval := by
    rw [hinterval, Settings.interval]
    exact Nat.lt_of_lt_of_le Nat.one_pos (Nat.le_max_right _ _)
  refine ⟨⟨htimeout, hinterval⟩, ?_, fun _ _ _ _ h => Waiter.wait?_of_checked? h, ?_⟩
  · intro start
    exact ⟨Waiter.fits_of_completes hpositive, fun h => h.completes hpositive⟩
  · intro cloud c tokens o operator clock f ho s hreached hidle i item hitem
    have hwaiter : s.waiter = some w := (congrArg (waiter? command) ho).trans hw
    exact endures_of_attended (attended_of_reached hreached hidle i item hitem) hwaiter

def patient : CommandLine.Flags := ⟨none, .info, .human, true, false, none, none⟩

def patientOptions : Options := patient.batchOptions (patient.settings Settings.usual) none

def patientSetup : Setup := setup yard.cloud .startServer patientOptions ⟨0⟩

def patientFloor (n : Nat) : Floor := Floor.after patientSetup n (Floor.opening patientSetup 10 0 [("a", "a")])

theorem usual_wait_completes :
    ∃ w item, waiter? .startServer (patient.waitOptions (patient.settings Settings.usual)) = some w ∧
      w.Fits 20 ∧ (∃ r, w.checked? (Waiter.refusing 7) none 20 = some (.ok r)) ∧
      (patientFloor 5).outcome.items[0]? = some item ∧ (∃ record, item.result = .ok record) ∧
      Endures patientSetup (patientFloor 5) w 0 item := by
  have hw : waiter? .startServer (patient.waitOptions (patient.settings Settings.usual)) =
      some ⟨"started", ["error"], 2000, 120000⟩ := rfl
  have hrun : Floor.run patientSetup 10 0 [("a", "a")] = some (patientFloor 5) :=
    loop_eq_some_iff.mpr ⟨5, rfl, rfl⟩
  have hsend : send yard.cloud Catalog.empty ["a"] .startServer patientOptions yardOperator ⟨0⟩ = some _ :=
    send_eq_some_iff.mpr (.inr ⟨_, _, rfl, hrun, rfl⟩)
  have hfits : Waiter.Fits ⟨"started", ["error"], 2000, 120000⟩ 20 :=
    ⟨by decide, by decide, by rw [Nat.ceilDiv_eq_add_pred_div]; decide⟩
  have hitem : (patientFloor 5).outcome.items[0]? = some ⟨"a", "a", .ok _⟩ := rfl
  obtain ⟨_, hiff, _, hendures⟩ := wait_completes_iff_fits patient Settings.usual .startServer _ hw
  refine ⟨_, _, hw, hfits, (hiff 20).mpr hfits _ _, hitem, ⟨_, rfl⟩, ?_⟩
  exact hendures _ _ _ _ _ _ _ rfl (send_reached hsend rfl) (loop_reaches hrun).2 0 _ hitem

def endless : CommandLine.Flags := { patient with clientTimeout := some (Nat.pow 2 64 - 1) }

def endlessOptions : Options := endless.batchOptions (endless.settings Settings.usual) none

theorem longest_timeout_aborts :
    ∃ w record r outcome,
      waiter? .startServer (endless.waitOptions (endless.settings Settings.usual)) = some w ∧
      (∀ reply? cancelAt start, w.checked? reply? cancelAt start = some (.error .deadline)) ∧
      (yard.cloud.change 0 (.start "a")).fate = .ok record ∧
      send yard.cloud Catalog.empty ["a"] .startServer endlessOptions yardOperator ⟨0⟩ = some r ∧
      r.requests = [(0, .start "a")] ∧ r.result = .ok outcome ∧
      outcome.items.map (·.result) =
        [.error (.aborted "a" (panicText 0 "overflow when adding duration to instant"))] := by
  have hw : waiter? .startServer (endless.waitOptions (endless.settings Settings.usual)) =
      some ⟨"started", ["error"], 2000, (Nat.pow 2 64 - 1) * 1000⟩ := rfl
  have hrun : Floor.run (setup yard.cloud .startServer endlessOptions ⟨0⟩) 10 0 [("a", "a")] = some _ :=
    loop_eq_some_iff.mpr ⟨1, rfl, rfl⟩
  have hsend : send yard.cloud Catalog.empty ["a"] .startServer endlessOptions yardOperator ⟨0⟩ = some _ :=
    send_eq_some_iff.mpr (.inr ⟨_, _, rfl, hrun, rfl⟩)
  have hlong : clockEnd ≤ (Nat.pow 2 64 - 1) * 1000 := by decide
  exact ⟨_, _, _, _, hw, Waiter.checked?_endless hlong, rfl, hsend, rfl, rfl, rfl⟩

end FleetControl.Batch
