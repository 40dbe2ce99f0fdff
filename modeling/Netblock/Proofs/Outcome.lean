import Mathlib.Data.List.Forall2
/-!
# Outcomes of chained steps

A chain of steps succeeds when each of them does.
-/

set_option autoImplicit false

namespace Netblock

variable {ε α β : Type}

theorem bind_eq_ok_iff {first : Except ε α} {next : α → Except ε β} {result : β} :
    first >>= next = .ok result ↔ ∃ value, first = .ok value ∧ next value = .ok result := by
  constructor
  · intro accepted
    cases first with
    | error error => cases accepted
    | ok value => exact ⟨value, rfl, accepted⟩
  · intro steps
    obtain ⟨value, rfl, accepted⟩ := steps
    exact accepted

theorem mapError_eq_ok_iff {δ : Type} {result : Except ε α} {explain : ε → δ} {value : α} :
    result.mapError explain = .ok value ↔ result = .ok value := by
  cases result with
  | error error => exact ⟨nofun, nofun⟩
  | ok accepted => exact ⟨fun same => by cases same; rfl, fun same => by cases same; rfl⟩

theorem bind_eq_error_iff {first : Except ε α} {next : α → Except ε β} {error : ε} :
    first >>= next = .error error ↔
      first = .error error ∨ ∃ value, first = .ok value ∧ next value = .error error := by
  cases first with
  | error found =>
      constructor
      · intro refused
        cases refused
        exact .inl rfl
      · rintro (refused | ⟨_, accepted, _⟩)
        · cases refused
          rfl
        · cases accepted
  | ok value =>
      constructor
      · intro refused
        exact .inr ⟨value, rfl, refused⟩
      · rintro (refused | ⟨_, accepted, refused⟩)
        · cases refused
        · cases accepted
          exact refused

theorem mapError_eq_error_iff {δ : Type} {result : Except ε α} {explain : ε → δ} {error : δ} :
    result.mapError explain = .error error ↔
      ∃ reason, result = .error reason ∧ explain reason = error := by
  cases result with
  | error reason => simp [Except.mapError]
  | ok value => simp [Except.mapError]

theorem mapM_eq_ok_iff {step : α → Except ε β} {values : List α} {results : List β} :
    values.mapM step = .ok results ↔
      List.Forall₂ (fun value result => step value = .ok result) values results := by
  induction values generalizing results with
  | nil =>
      rw [List.mapM_nil, List.forall₂_nil_left_iff]
      constructor
      · intro accepted
        cases accepted
        rfl
      · intro empty
        rw [empty]
        rfl
  | cons value values ih =>
      rw [List.mapM_cons, bind_eq_ok_iff, List.forall₂_cons_left_iff]
      constructor
      · intro accepted
        obtain ⟨result, stepped, rest⟩ := accepted
        obtain ⟨others, followed, gathered⟩ := bind_eq_ok_iff.mp rest
        cases gathered
        exact ⟨result, others, stepped, ih.mp followed, rfl⟩
      · intro accepted
        obtain ⟨result, others, stepped, followed, rfl⟩ := accepted
        exact ⟨result, stepped, bind_eq_ok_iff.mpr ⟨others, ih.mpr followed, rfl⟩⟩

theorem exists_mapM_eq_ok {step : α → Except ε β} {values : List α}
    (steps : ∀ value ∈ values, ∃ result, step value = .ok result) :
    ∃ results, values.mapM step = .ok results := by
  induction values with
  | nil => exact ⟨[], rfl⟩
  | cons value values ih =>
      obtain ⟨result, stepped⟩ := steps value List.mem_cons_self
      obtain ⟨results, followed⟩ := ih fun other member => steps other (List.mem_cons_of_mem _ member)
      refine ⟨result :: results, mapM_eq_ok_iff.mpr ?_⟩
      exact .cons stepped (mapM_eq_ok_iff.mp followed)

end Netblock
