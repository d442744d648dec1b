import FleetControl.Http.Client
import FleetControl.Proofs.Attribution
import FleetControl.Proofs.ResourceUrls

namespace FleetControl

inductive Request.Deletes : Request → Prop
  | server (uuid : String) (withStorages : Bool) : Deletes (.deleteServer uuid withStorages)
  | storage (uuid : String) : Deletes (.deleteStorage uuid)
  | network (uuid : String) : Deletes (.deleteNetwork uuid)
  | router (uuid : String) : Deletes (.deleteRouter uuid)

namespace Http.Client

open Request (Deletes)

variable {c : Client} {net : Network} {count delay : Nat} {r : Request}

def Bodiless (c : Client) (net : Network) (count : Nat) (r : Request) (delay : Nat) : Prop :=
  ∃ call status, c.call (.change r) = .ok call ∧ (shown call).2 ∧ 200 ≤ status ∧ status < 300 ∧
    net call count = (delay, .answered status "")

def noRecord (kind : Kind) : ApiError :=
  .decode s!"invalid type: null, expected struct {Envelope.typeName kind}Envelope"

theorem perform_bodiless (h : Bodiless c net count r delay) :
    c.perform net count (.change r) r.readAnswer = (delay, decoded r.readAnswer .null) := by
  obtain ⟨call, status, hcall, husable, hlow, hhigh, hnet⟩ := h
  simp only [perform, hcall, send, husable, hnet, answer, if_true, if_pos (And.intro hlow hhigh)]
  rfl

theorem decoded_null_of_deletes (h : Deletes r) : decoded r.readAnswer .null = .ok none := by
  cases h <;> rfl

theorem decoded_null_of_not_deletes (h : ¬ Deletes r) :
    decoded r.readAnswer .null = .error (noRecord r.kind) := by
  cases r with
  | deleteServer uuid withStorages => exact absurd (.server uuid withStorages) h
  | deleteStorage uuid => exact absurd (.storage uuid) h
  | deleteNetwork uuid => exact absurd (.network uuid) h
  | deleteRouter uuid => exact absurd (.router uuid) h
  | start | stop | restart | load | eject | modifyStorage | modifyNetwork | modifyRouter => rfl

theorem change_of_deletes (h : Bodiless c net count r delay) (hr : Deletes r) :
    (c.cloud net).change count r = ⟨delay, .ok none⟩ := by
  simp only [cloud, perform_bodiless h, decoded_null_of_deletes hr]

theorem change_of_not_deletes (h : Bodiless c net count r delay) (hr : ¬ Deletes r) :
    (c.cloud net).change count r = ⟨delay, .error (noRecord r.kind)⟩ := by
  simp only [cloud, perform_bodiless h, decoded_null_of_not_deletes hr]

end Http.Client

namespace Batch

open Floor Http.Client
open Request (Deletes)

variable {client : Http.Client} {net : Http.Network} {c : Catalog} {tokens : List String} {command : Command}
  {o : Options} {operator : Operator} {clock : Progress.TimeOfDay} {s : Setup} {f : Floor}
  {i sent call time delay : Nat} {item : Item (Option FleetControl.Record)} {uuid : String}

theorem expectation?_of_deletes (h : Deletes (command.request uuid)) : command.expectation? = none := by
  cases command with
  | deleteServer | deleteStorage | deleteNetwork | deleteRouter | loadCdrom | ejectCdrom | modifyNetwork
  | modifyRouter => rfl
  | startServer | stopServer | restartServer | modifyStorage => cases h

theorem Floor.Requested.call_eq {sent' call' time' : Nat} (h : Requested s f i uuid sent call time)
    (h' : Requested s f i uuid sent' call' time') : call = call' := by
  obtain rfl : sent = sent' := h'.only sent _ h.event rfl rfl
  exact h.call.symm.trans h'.call

theorem result_of_bodiless (hreached : Reached (client.cloud net) c tokens command o operator clock f)
    (hidle : ∀ p, timer? (setup (client.cloud net) command o clock) f p = none)
    (hitem : f.outcome.items[i]? = some item)
    (hsent : Requested (setup (client.cloud net) command o clock) f i item.uuid sent call time)
    (h : Bodiless client net call (command.request item.uuid) delay) :
    (Deletes (command.request item.uuid) → item.result = .ok none) ∧
      (¬ Deletes (command.request item.uuid) →
        item.result = .error (.remote item.token (noRecord (command.request item.uuid).kind))) := by
  obtain ⟨sent', call', time', hsent', hattributed⟩ := attended_of_reached hreached hidle i item hitem
  obtain rfl := hsent.call_eq hsent'
  constructor
  · intro hr
    refine (hattributed.returned none).mpr ⟨congrArg Change.fate (change_of_deletes h hr), ?_⟩
    intro w hw
    have hnone : waiter? command o.wait = none := waiter?_eq_none_iff.mpr (.inr (expectation?_of_deletes hr))
    cases hnone.symm.trans hw
  · intro hr
    exact (hattributed.remote _ _).mpr ⟨rfl, congrArg Change.fate (change_of_not_deletes h hr)⟩

/-- A change that the API accepts without a body is a success if it is a deletion. Any other one is a failure to its
caller, and its item is reported as failed. -/
theorem bodiless_success_iff_deletes (client : Http.Client) (net : Http.Network) :
    (∀ count r delay, Bodiless client net count r delay →
      ((∃ record, client.perform net count (.change r) r.readAnswer = (delay, .ok record)) ↔ Deletes r) ∧
        (¬ Deletes r →
          client.perform net count (.change r) r.readAnswer = (delay, .error (noRecord r.kind)))) ∧
      ∀ c tokens command o operator clock f, let s := setup (client.cloud net) command o clock
        Reached (client.cloud net) c tokens command o operator clock f → (∀ p, timer? s f p = none) →
          ∀ i item sent call time delay, f.outcome.items[i]? = some item →
            Requested s f i item.uuid sent call time →
            Bodiless client net call (command.request item.uuid) delay →
            (Deletes (command.request item.uuid) → item.result = .ok none) ∧
              (¬ Deletes (command.request item.uuid) →
                item.result = .error (.remote item.token (noRecord (command.request item.uuid).kind))) := by
  constructor
  · intro count r delay h
    rw [perform_bodiless h]
    refine ⟨⟨?_, fun hr => ⟨none, by rw [decoded_null_of_deletes hr]⟩⟩, fun hr => by
      rw [decoded_null_of_not_deletes hr]⟩
    rintro ⟨record, hrecord⟩
    by_contra hr
    rw [decoded_null_of_not_deletes hr] at hrecord
    cases hrecord
  · intro c tokens command o operator clock f s hreached hidle i item sent call time delay hitem hsent h
    exact result_of_bodiless hreached hidle hitem hsent h

def silent : Http.Network := fun _ _ => (5, .answered 204 "")

theorem accepted_start_fails : Bodiless usual silent 0 (.start "x") 5 ∧
    usual.perform silent 0 (.change (.start "x")) (Request.start "x").readAnswer =
      (5, .error (.decode "invalid type: null, expected struct ServerEnvelope")) := by
  have hu : usual.resourceUrl Kind.server.name "x" (some "start") =
      .ok { usual.base with path := .rooted ["1.3", "server", "x", "start"] } := by cbv
  have hsilent : Bodiless usual silent 0 (.start "x") 5 :=
    ⟨_, 204, call_change hu, by cbv, by decide, by decide, rfl⟩
  refine ⟨hsilent, ?_⟩
  rw [perform_bodiless hsilent, decoded_null_of_not_deletes (by rintro ⟨⟩)]
  rfl

end Batch
end FleetControl
