import FleetControl.Proofs.Abreast
import FleetControl.Proofs.Clearance

namespace FleetControl.Batch

open Floor

variable {cloud : Cloud} {c : Catalog} {tokens uuids : List String} {command : Command} {o : Options}
  {operator : Operator} {clock : Progress.TimeOfDay} {outcome : Outcome (Option FleetControl.Record)}
  {token uuid : String}

structure Undisturbed (cloud : Cloud) (c : Catalog) (tokens : List String) (command : Command)
    (o : Options) (operator : Operator) (clock : Progress.TimeOfDay) (uuids : List String) : Prop where
  admissible : refusal? tokens o = none
  resolved : (c.resolve cloud command.kind tokens).2 = .ok uuids
  distinct : uuids.Nodup
  agreed : needsConfirmation o tokens.length → operator.reply = .answers true
  uncancelled : o.cancelAt = none ∧ o.itemCancels = []
  scripted : ∀ call request, cloud.change call request = cloud.change 0 request
  calm : ∀ uuid ∈ uuids, ∀ text, (cloud.change 0 (command.request uuid)).fate ≠ .panic text
  represented : ∀ f, Passed cloud c tokens command o operator clock f →
    ∀ j ∈ f.jobs, (setup cloud command o clock).Represents j.phase

namespace Undisturbed

theorem cleared (h : Undisturbed cloud c tokens command o operator clock uuids) :
    Cleared cloud c tokens command o operator uuids :=
  ⟨h.admissible, h.resolved, fun hn => ⟨h.agreed hn, by simp [h.uncancelled.1]⟩⟩

end Undisturbed

end FleetControl.Batch
