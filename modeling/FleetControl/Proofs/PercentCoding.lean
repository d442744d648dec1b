import Mathlib.Logic.Function.Basic
import FleetControl.Url.Percent

/-!
Percent-encoding loses nothing, and leaves marks of its own only where a character may not stand for itself.
-/
namespace FleetControl.Url.Percent

variable {keep : Char → Bool} {c : Char} {cs rest : List Char} {b : UInt8}

theorem hexValue?_hexDigit : ∀ n < 16, hexValue? (hexDigit n) = some n := by decide

theorem isAlphanum_hexDigit : ∀ n < 16, (hexDigit n).isAlphanum := by decide

theorem decode_cons (hc : c ≠ '%') (rest : List Char) :
    decode (c :: rest) = String.utf8EncodeChar c ++ decode rest := by
  rw [decode]
  intro a b rest h
  exact absurd h hc

theorem decode_byte (b : UInt8) (rest : List Char) : decode (byte b ++ rest) = b :: decode rest := by
  have hb := b.toNat_lt
  have hhigh := hexValue?_hexDigit (b.toNat / 16) (by omega)
  have hlow := hexValue?_hexDigit (b.toNat % 16) (by omega)
  have hsum : 16 * (b.toNat / 16) + b.toNat % 16 = b.toNat := Nat.div_add_mod _ _
  simp [byte, decode, hhigh, hlow, hsum]

theorem decode_bytes (bs : List UInt8) (rest : List Char) :
    decode (bs.flatMap byte ++ rest) = bs ++ decode rest := by
  induction bs with
  | nil => rfl
  | cons b bs ih => rw [List.flatMap_cons, List.append_assoc, decode_byte, ih, List.cons_append]

theorem decode_encodeChars (h : keep '%' = false) (cs : List Char) :
    decode (encodeChars keep cs) = cs.flatMap String.utf8EncodeChar := by
  induction cs with
  | nil => rfl
  | cons c cs ih =>
    rw [encodeChars, List.flatMap_cons, List.flatMap_cons, ← ih, ← encodeChars]
    by_cases hc : keep c
    · have hne : c ≠ '%' := by
        rintro rfl
        simp [h] at hc
      rw [encodeChar, if_pos hc]
      exact decode_cons hne _
    · rw [encodeChar, if_neg hc]
      exact decode_bytes _ _

theorem encodeChars_injective (h : keep '%' = false) : Function.Injective (encodeChars keep) := by
  intro cs ds hcs
  have hbytes := congrArg decode hcs
  rw [decode_encodeChars h, decode_encodeChars h] at hbytes
  have htext : String.ofList cs = String.ofList ds := by
    apply String.toByteArray_inj.mp
    rw [String.toByteArray_ofList, String.toByteArray_ofList]
    exact congrArg List.toByteArray hbytes
  simpa using congrArg String.toList htext

theorem mem_byte (hc : c ∈ byte b) : c = '%' ∨ c.isAlphanum := by
  have hb := b.toNat_lt
  rw [byte, List.mem_cons, List.mem_cons, List.mem_singleton] at hc
  rcases hc with rfl | rfl | rfl
  · exact .inl rfl
  · exact .inr (isAlphanum_hexDigit _ (by omega))
  · exact .inr (isAlphanum_hexDigit _ (by omega))

theorem mem_encodeChars (hc : c ∈ encodeChars keep cs) : (keep c ∧ c ∈ cs) ∨ c = '%' ∨ c.isAlphanum := by
  obtain ⟨d, hd, hc⟩ := List.mem_flatMap.mp hc
  rw [encodeChar] at hc
  split at hc
  next hkeep =>
    rw [List.mem_singleton] at hc
    exact .inl ⟨hc ▸ hkeep, hc ▸ hd⟩
  next =>
    obtain ⟨b, _, hc⟩ := List.mem_flatMap.mp hc
    exact .inr (mem_byte hc)

theorem encodeChars_of_kept (h : ∀ c ∈ cs, keep c) : encodeChars keep cs = cs := by
  induction cs with
  | nil => rfl
  | cons c cs ih =>
    have hcs := ih fun d hd => h d (List.mem_cons_of_mem c hd)
    rw [encodeChars, List.flatMap_cons, ← encodeChars, hcs, encodeChar, if_pos (h c List.mem_cons_self)]
    rfl

theorem mem_utf8EncodeChar (hb : b ∈ String.utf8EncodeChar c) : b.toNat = c.toNat ∨ 128 ≤ b.toNat := by
  have hself : c.val.toNat = c.toNat := rfl
  have hhigh {n : Nat} (hn : 128 ≤ n) (hlt : n < 256) : 128 ≤ (UInt8.ofNat n).toNat := by
    rwa [UInt8.toNat_ofNat', Nat.mod_eq_of_lt hlt]
  simp only [String.utf8EncodeChar] at hb
  split at hb
  next hc =>
    rw [List.mem_singleton] at hb
    subst hb
    rw [UInt8.toNat_ofNat']
    omega
  next =>
    right
    split at hb
    · simp only [List.mem_cons, List.not_mem_nil, or_false] at hb
      rcases hb with rfl | rfl <;> exact hhigh (by omega) (by omega)
    · split at hb
      · simp only [List.mem_cons, List.not_mem_nil, or_false] at hb
        rcases hb with rfl | rfl | rfl <;> exact hhigh (by omega) (by omega)
      · simp only [List.mem_cons, List.not_mem_nil, or_false] at hb
        rcases hb with rfl | rfl | rfl | rfl <;> exact hhigh (by omega) (by omega)

end FleetControl.Url.Percent
