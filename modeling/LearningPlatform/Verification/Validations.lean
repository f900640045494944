import LearningPlatform.Model.HelpRequest
import LearningPlatform.Model.Learning

/-! # What the shared lookups and validations accept and an update writes -/

namespace LearningPlatform

open Shared

variable {errors : List String} {label : String}

theorem saveUnless_eq_ok {ρ : Type*} {record saved : ρ} :
    saveUnless errors record = .ok saved ↔ errors = [] ∧ record = saved := by
  cases errors <;> simp [saveUnless]

theorem saveUnique_eq_ok {ρ : Type*} {index : String} {taken : Bool} {record saved : ρ} :
    saveUnique errors index taken record = .ok saved ↔
      errors = [] ∧ taken = false ∧ record = saved := by
  cases errors <;> cases taken <;> simp [saveUnique, saveUnless]

theorem presenceErrors_eq_nil {text : Option String} :
    presenceErrors label text = [] ↔ (presence text).isSome = true := by
  cases h : presence text <;> simp [presenceErrors, h]

theorem countErrors_eq_nil {value : Option ℤ} :
    countErrors label value = [] ↔ ∃ n, value = some n ∧ 0 ≤ n := by
  cases value with
  | none => simp [countErrors]
  | some n => simp [countErrors]

theorem lengthErrors_eq_nil {maximum : ℕ} {text : Option String} :
    lengthErrors label maximum text = [] ↔ ∀ t, text = some t → t.length ≤ maximum := by
  cases text with
  | none => simp [lengthErrors]
  | some t => simp [lengthErrors]

theorem staffErrors_eq_nil {user : User} : staffErrors label user = [] ↔ user.staff? = true := by
  simp [staffErrors]

theorem errorsIf_eq_nil {condition : Bool} :
    errorsIf condition errors = [] ↔ (condition = true → errors = []) := by
  cases condition <;> simp [errorsIf]

theorem requiredErrors_eq_nil {present : Bool} :
    requiredErrors label present = [] ↔ present = true := by
  cases present <;> simp [requiredErrors]

theorem orNotFound_eq_ok {α : Type*} {record : Option α} {a : α} :
    orNotFound record = .ok a ↔ record = some a := by
  cases record <;> simp [orNotFound]

theorem orNotFound_bind_eq_ok {α β : Type} {record : Option α} {f : α → Except Failure β} {b : β} :
    orNotFound record >>= f = .ok b ↔ ∃ a, record = some a ∧ f a = .ok b := by
  simp only [bind_eq_ok, orNotFound_eq_ok]

/-! ## Changed columns -/

@[simp] theorem changedColumn_self {α : Type*} [DecidableEq α] (loaded current : α) :
    changedColumn loaded loaded current = current :=
  if_pos rfl

theorem isSome_changedColumn {α : Type*} [DecidableEq α] {loaded changed current : Option α}
    (hchanged : changed.isSome = true) (hcurrent : loaded = none ∨ current.isSome = true) :
    (changedColumn loaded changed current).isSome = true := by
  unfold changedColumn
  split
  · rename_i heq
    rcases hcurrent with rfl | hcurrent
    · cases heq ▸ hchanged
    · exact hcurrent
  · exact hchanged

/-! ## Times of a column -/

/-- Every time of the first column is followed by one of the second. -/
def NotAfter (first second : Option Time) : Prop :=
  ∀ time ∈ first, ∃ later ∈ second, time ≤ later

theorem NotAfter.refl (time : Option Time) : NotAfter time time :=
  fun time h => ⟨time, h, le_rfl⟩

theorem NotAfter.trans {first second third : Option Time} (h : NotAfter first second)
    (h' : NotAfter second third) : NotAfter first third := by
  intro time htime
  obtain ⟨later, hlater, hle⟩ := h time htime
  obtain ⟨last, hlast, hle'⟩ := h' later hlater
  exact ⟨last, hlast, hle.trans hle'⟩

end LearningPlatform
