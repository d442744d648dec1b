import Mathlib.Data.List.Basic
import FleetControl.ApiError

namespace FleetControl

namespace Text

variable {s t : String}

def Plain (s : String) : Prop := ∀ c ∈ s.toList, isPlain c

instance (s : String) : Decidable (Plain s) :=
  decidable_of_iff (s.toList.all isPlain) List.all_eq_true

theorem plain_append_iff : Plain (s ++ t) ↔ Plain s ∧ Plain t := by
  rw [Plain, String.toList_append, List.forall_mem_append]
  rfl

end Text

namespace ApiError

open Text (Plain plain_append_iff)

variable {s : Nat} {code m body : String}

def Quoted (s : Nat) : Prop := s ∉ [401, 403, 404, 429] ∧ s < 500

theorem plain_abridged (m : String) : Plain (abridged m) := by
  intro c hc
  rw [abridged, String.toList_ofList] at hc
  exact (List.mem_filter.mp (List.mem_of_mem_take hc)).2

theorem exists_excerpt (code m : String) : ∃ front, Plain front ∧ excerpt code m = front ++ code ++ ")" := by
  simp only [excerpt]
  split
  · exact ⟨abridged m ++ "... (", plain_append_iff.mpr ⟨plain_abridged m, by decide⟩, rfl⟩
  · exact ⟨abridged m ++ " (", plain_append_iff.mpr ⟨plain_abridged m, by decide⟩, rfl⟩

theorem advice_of_quoted (h : Quoted s) : (status s code m).advice = excerpt code m := by
  obtain ⟨hown, hserver⟩ := h
  simp only [List.mem_cons, List.not_mem_nil, or_false, not_or] at hown
  obtain ⟨h₁, h₂, h₃, h₄⟩ := hown
  rw [advice, if_neg h₁, if_neg h₂, if_neg h₃, if_neg h₄, if_neg (Nat.not_le.mpr hserver)]

theorem plain_advice_of_not_quoted (h : ¬ Quoted s) : Plain (status s code m).advice := by
  simp only [advice]
  split_ifs
  case neg h₁ h₂ h₃ h₄ hserver => exact absurd ⟨by simp [h₁, h₂, h₃, h₄], Nat.lt_of_not_le hserver⟩ h
  all_goals decide

theorem plain_status_iff : Plain (status s code m).advice ↔ (Quoted s → Plain code) := by
  by_cases h : Quoted s
  · obtain ⟨front, hfront, hexcerpt⟩ := exists_excerpt code m
    have hclose : Plain ")" := by decide
    rw [advice_of_quoted h, hexcerpt, plain_append_iff, plain_append_iff]
    simp [h, hfront, hclose]
  · exact iff_of_true (plain_advice_of_not_quoted h) fun hq => absurd hq h

theorem plain_advice_iff (e : ApiError) :
    Plain e.advice ↔ ∀ s code m, e = .status s code m → Quoted s → Plain code := by
  cases e with
  | status s code m =>
    rw [plain_status_iff]
    constructor
    · rintro h _ _ _ ⟨⟩
      exact h
    · exact fun h => h s code m rfl
  | transport reason | decode reason =>
    refine iff_of_true ?_ (by simp)
    simp only [advice]
    decide

def Names (body code : String) : Prop :=
  ∃ v error, Json.read body = .ok v ∧ v.get? "error" = some error ∧ error.get? "error_code" = some (.text code)

theorem names_iff : Names body code ↔ ((((Json.read body).toOption.bind fun v => v.get? "error").bind
    fun e => (e.get? "error_code").bind Json.text?) = some code) := by
  have hread {v : Json} : (Json.read body).toOption = some v ↔ Json.read body = .ok v := by
    cases Json.read body <;> simp [Except.toOption]
  have htext {v : Json} : v.text? = some code ↔ v = .text code := by
    cases v <;> simp [Json.text?]
  simp only [Option.bind_eq_some_iff, hread, htext]
  constructor
  · rintro ⟨v, error, hv, herror, hcode⟩
    exact ⟨error, ⟨v, hv, herror⟩, _, hcode, rfl⟩
  · rintro ⟨error, ⟨v, hv, herror⟩, _, hcode, rfl⟩
    exact ⟨v, error, hv, herror, hcode⟩

theorem plain_ofAnswer_iff (s : Nat) (body : String) :
    Plain (ofAnswer s body).advice ↔ (Quoted s → ∀ code, Names body code → Plain code) := by
  simp only [ofAnswer, plain_status_iff, names_iff]
  apply imp_congr_right
  intro _
  cases (((Json.read body).toOption.bind fun v => v.get? "error").bind
    fun e => (e.get? "error_code").bind Json.text?) with
  | none => exact iff_of_true (by decide) (by simp)
  | some code => simp

/-- Whatever is shown of a failure is one plain line, but for the code that is quoted with the message: the text
is plain exactly if that code is, also where the code comes out of the body of an answer. -/
theorem advice_plain_unless_code (e : ApiError) :
    (Plain e.advice ↔ ∀ s code m, e = .status s code m → Quoted s → Plain code) ∧
      (∀ s code m, Quoted s → ∃ front, Plain front ∧ (status s code m).advice = front ++ code ++ ")") ∧
      ∀ s body, Plain (ofAnswer s body).advice ↔ (Quoted s → ∀ code, Names body code → Plain code) := by
  refine ⟨plain_advice_iff e, fun s code m h => ?_, plain_ofAnswer_iff⟩
  rw [advice_of_quoted h]
  exact exists_excerpt code m

theorem code_breaks_line :
    let e := ofAnswer 400 "\x7b\"error\":\x7b\"error_code\":\"A\\nB\",\"error_message\":\"y\"\x7d\x7d"
    e = .status 400 "A\nB" "y" ∧ e.advice = "y (A\nB)" ∧ ¬ Plain e.advice := by
  have he : ofAnswer 400 "\x7b\"error\":\x7b\"error_code\":\"A\\nB\",\"error_message\":\"y\"\x7d\x7d" =
      .status 400 "A\nB" "y" := by decide +kernel
  rw [he]
  exact ⟨rfl, by decide, by decide⟩

end ApiError
end FleetControl
