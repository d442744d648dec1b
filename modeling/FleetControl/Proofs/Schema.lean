import Mathlib.Data.List.Forall2
import FleetControl.Json.Shape
import FleetControl.Proofs.Resolution

/-!
What reading a value looks at. A schema names the fields of the objects that are read as records; values that
agree in these are read alike, whatever further fields they have and in whatever order.
-/
namespace FleetControl.Json

inductive Schema
  | whole
  | list (item : Schema)
  | record (keys : List String) (below : String → Schema)

namespace Schema

def only (key : String) (s : Schema) : String → Schema := fun k => if k = key then s else whole

/-- Agreement of two values in all that is read of them: fields of unknown keys may stand anywhere. -/
def Agree : Schema → Json → Json → Prop
  | whole, v, w => v = w
  | list item, v, w => v = w ∨ ∃ vs ws, v = .list vs ∧ w = .list ws ∧ List.Forall₂ item.Agree vs ws
  | record keys below, v, w => v = w ∨ ∃ fields others, v = .object fields ∧ w = .object others ∧
      ∀ key ∈ keys, Option.Rel (below key).Agree (Fields.get? fields key) (Fields.get? others key)

end Schema

variable {α β : Type} {s item : Schema} {keys : List String} {below : String → Schema} {shape : Shaped α}
  {v w : Json} {fields others : Fields} {key k name : String} {a : α}
  {ofFields : Fields → Except ShapeFault α} {ofItems : Shape.Items α}

def Respects (s : Schema) (shape : Shaped α) : Prop := ∀ v w, s.Agree v w → shape v = shape w

def Known (keys : List String) (below : String → Schema) (fields others : Fields) : Prop :=
  ∀ key ∈ keys, Option.Rel (below key).Agree (Fields.get? fields key) (Fields.get? others key)

theorem respects_whole (shape : Shaped α) : Respects .whole shape := by
  rintro v w rfl
  rfl

theorem mapM_congr {ε : Type} {g : α → Except ε β} {as bs : List α}
    (h : List.Forall₂ (fun a b => g a = g b) as bs) : as.mapM g = bs.mapM g := by
  induction h with
  | nil => rfl
  | cons hab _ ih => rw [List.mapM_cons, List.mapM_cons, hab, ih]

theorem Respects.list (h : Respects item shape) : Respects (.list item) (Shape.list shape) := by
  rintro v w (rfl | ⟨vs, ws, rfl, rfl, hall⟩)
  · rfl
  · apply mapM_congr
    exact hall.imp fun v w => h v w

theorem Respects.map (h : Respects s shape) (g : α → β) : Respects s fun v => (shape v).map g := by
  intro v w hvw
  exact congrArg (Except.map g) (h v w hvw)

theorem Respects.record
    (h : ∀ fields others, Known keys below fields others → ofFields fields = ofFields others) :
    Respects (.record keys below) (Shape.record name ofFields ofItems) := by
  rintro v w (rfl | ⟨fields, others, rfl, rfl, hknown⟩)
  · rfl
  · exact h fields others hknown

theorem Known.field? (h : Known keys below fields others) (hkey : key ∈ keys)
    (hshape : Respects (below key) shape) :
    Shape.field? fields key shape = Shape.field? others key shape := by
  have hrel := h key hkey
  unfold Shape.field?
  generalize Fields.get? fields key = v? at hrel
  generalize Fields.get? others key = w? at hrel
  cases hrel with
  | none => rfl
  | some hvw => exact congrArg (Except.map some) (hshape _ _ hvw)

theorem Known.field (h : Known keys below fields others) (hkey : key ∈ keys)
    (hshape : Respects (below key) shape) (absent : α) :
    Shape.field fields key shape absent = Shape.field others key shape absent := by
  rw [Shape.field, Shape.field, h.field? hkey hshape]

theorem get?_nil (key : String) : Fields.get? [] key = none := rfl

theorem get?_cons_self (key : String) (v : Json) (fields : Fields) :
    Fields.get? ((key, v) :: fields) key = some v := by simp [Fields.get?]

theorem get?_cons_ne (h : k ≠ key) (v : Json) (fields : Fields) :
    Fields.get? ((k, v) :: fields) key = Fields.get? fields key := by simp [Fields.get?, h]

theorem get?_append (fields others : Fields) (key : String) :
    Fields.get? (fields ++ others) key = (fields.get? key).or (others.get? key) := by
  simp only [Fields.get?, List.find?_append]
  cases fields.find? fun field => field.1 == key <;> rfl

theorem get?_toList (key : String) (v? : Option Json) (k : String) :
    Fields.get? (v?.map fun v => (key, v)).toList k = if key = k then v? else none := by
  cases v? <;> simp [Fields.get?]

theorem map_ok (h : shape v = .ok a) (g : α → β) : (shape v).map g = .ok (g a) := by
  rw [h]
  rfl

theorem ok_bind {ε : Type} (a : α) (g : α → Except ε β) : (Except.ok a >>= g) = g a := rfl

theorem field?_some (hget : fields.get? key = some v) (shape : Shaped α) :
    Shape.field? fields key shape = (shape v).map some := by
  rw [Shape.field?, hget]

theorem field_some (hget : fields.get? key = some v) (shape : Shaped α) (absent : α) :
    Shape.field fields key shape absent = shape v := by
  rw [Shape.field, field?_some hget]
  cases shape v <;> rfl

theorem field_none (hget : fields.get? key = none) (shape : Shaped α) (absent : α) :
    Shape.field fields key shape absent = .ok absent := by
  rw [Shape.field, Shape.field?, hget]
  rfl

theorem field_option {a? : Option α} {write : α → Json} (hget : fields.get? key = a?.map write)
    (hnull : ∀ a, write a ≠ .null) (h : ∀ a, shape (write a) = .ok a) :
    Shape.field fields key (Shape.option shape) none = .ok a? := by
  cases a? with
  | none => exact field_none hget _ _
  | some a =>
    rw [field_some hget, Shape.option, h]
    · rfl
    · exact hnull a

theorem list_map {as : List α} {write : α → Json} (h : ∀ a ∈ as, shape (write a) = .ok a) :
    Shape.list shape (.list (as.map write)) = .ok as := by
  apply Catalog.mapM_ok_iff.mpr
  rw [List.forall₂_map_left_iff, List.forall₂_same]
  exact h

theorem nat32_nat {n : Nat} (h : n < Nat.pow 2 32) : Shape.nat32 (.nat n) = .ok n := by
  have hn : (n : Int) < (Nat.pow 2 32 : Nat) := Int.ofNat_lt.mpr h
  simp only [Json.nat, whole, Shape.nat32]
  rw [if_pos ⟨Int.natCast_nonneg n, hn⟩]
  rfl

end FleetControl.Json
