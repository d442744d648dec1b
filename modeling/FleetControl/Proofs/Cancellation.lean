import FleetControl.Proofs.Completion
import FleetControl.Proofs.InOrder
import FleetControl.Proofs.Isolation
import FleetControl.Proofs.Slots

namespace FleetControl.Batch

open Floor

variable {cloud : Cloud} {c : Catalog} {tokens uuids : List String} {command : Command} {o : Options}
  {operator : Operator} {clock : Progress.TimeOfDay}

namespace Setup

variable {s : Setup} {start call : Nat} {token uuid : String}

end Setup

namespace Floor

variable {s : Setup} {items : List (String × String)} {start limit position : Nat}
  {moves moves₀ : Nat → Nat} {f f₀ : Floor} {w : Waiter}

theorem Separate.steady (h : Separate s items) : Separate s.steady items :=
  ⟨h.calm, h.distinct⟩

variable {j j₀ : Job} {n n₀ d d₀ : Nat} {r r₀ : Result}

end Floor

section Unasked

variable {cancelAt : Option Nat} {itemCancels : List (Nat × Nat)} {f : Floor}

variable (hn : ¬ needsConfirmation o tokens.length)
  (hsame : ∀ p < tokens.length, { o with cancelAt, itemCancels }.cancelOf p = o.cancelOf p)

include hn hsame

end Unasked

namespace Interruptible

variable {f f₀ : Floor}

end Interruptible

end FleetControl.Batch
