import Zynum.Api.MatrixVectorCalls

set_option autoImplicit false

/- When matrixVectorMultiply and matrixVectorMultiplyWithWorkspace keep their equation.
   gemv returns at once for a matrix without columns, and its vectors are counted
   from the last element it uses, not from the end of a longer view. -/
namespace Zynum.Api

open ArrayProgram
open Element (width parts whole)
open LevelOne
open MatrixVectorArguments

section Equation

variable {R T : Type} [CommRing R] [LinearOrder R] [IsStrictOrderedRing R] [CommRing T] [Element R T] [LawfulElement R T]
  {arguments : MatrixVectorArguments T} {phases : List (Phase R)} {hidden : Set Nat} {value : (Nat → R) → Nat → T}

omit [CommRing R] [LinearOrder R] [IsStrictOrderedRing R] [LawfulElement R T] in
theorem idle_combination (scale : arguments.resultScale = 1) (idle : arguments.columns = 0 ∨ arguments.productScale = 0)
    (memory : Nat → R) (x y : Operand Nat) (i : Nat) : arguments.combined memory x y i = whole (y.element memory i) := by
  have product : arguments.productScale * arguments.rowProduct memory x i = 0 := by
    rcases idle with empty | nothing
    · rw [rowProduct, empty, toUsize, Int.toNat_zero, Finset.range_zero, Finset.sum_empty, mul_zero]
    · rw [nothing, zero_mul]
  rw [combined, product, scale, zero_add, one_mul]

theorem promised_iff [NoZeroDivisors T] (shaped : arguments.Shaped) (several : 0 < arguments.rows)
    (clear : ∀ slot, slot ∈ slots (width T) (Set.Iio (toUsize arguments.rows)) →
      slotAddress (arguments.resultVector.elements T) slot ∉ hidden)
    (leaves : arguments.Leaves phases hidden value)
    (formula : 0 < arguments.columns → ∀ memory i,
      value memory i = arguments.combined memory arguments.inputElements arguments.resultElements i)
    (own : arguments.columns = 0 → ∀ memory i, value memory i = whole (arguments.resultElements.element memory i)) :
    arguments.Promised phases hidden ↔ arguments.KeepsEquation := by
  have nonneg := shaped.columns_nonneg
  constructor
  · intro promised
    by_cases columns : 0 < arguments.columns
    · exact formula_keeps_equation shaped several columns clear leaves (fun memory i _ => formula columns memory i) promised
    · exact unchanged_keeps_equation shaped several clear leaves (fun memory i _ => own (by omega) memory i) promised
  · rintro (empty | ⟨scale, idle⟩ | ⟨columns, result, input⟩)
    · omega
    · refine promised_unchanged leaves clear (fun memory i _ => ?_)
        (fun memory i _ => idle_combination scale idle memory _ _ i)
      by_cases columns : 0 < arguments.columns
      · rw [formula columns, idle_combination scale idle]
      · exact own (by omega) memory i
    · exact promised_combined leaves (fun memory i _ => formula columns memory i) result input

-- What the call leaves outside its workspace depends on nothing in the workspace.
def Phase.Steady (phases : List (Phase R)) (hidden : Set Nat) : Prop :=
  ∀ memory memory' final final', (∀ place, place ∉ hidden → memory place = memory' place) →
    Phase.Outcomes phases memory final → Phase.Outcomes phases memory' final' →
    ∀ place, place ∉ hidden → final place = final' place

variable {workspace : Slice}

omit [LinearOrder R] [IsStrictOrderedRing R] in
theorem promised_steady (shaped : arguments.Shaped) (apart : WorkspaceApart arguments workspace) (several : 0 < arguments.rows)
    (promised : arguments.Promised phases (workspace.cells T arguments.rows)) :
    Phase.Steady phases (workspace.cells T arguments.rows) := by
  intro memory memory' final final' agree ran ran' place seen
  by_cases claimed : ∀ slot, slot ∈ slots (width T) (Set.Iio (toUsize arguments.rows)) →
      slotAddress (arguments.resultVector.elements T) slot ≠ place
  · rw [promised.kept memory final ran place seen claimed, promised.kept memory' final' ran' place seen claimed,
      agree place seen]
  · simp only [not_forall, not_not] at claimed
    obtain ⟨slot, member, here⟩ := claimed
    have inside : slot.1 < toUsize arguments.resultVector.length := by
      have small : slot.1 < toUsize arguments.rows := member.2
      have fit := shaped.rows_fit
      simp only [toUsize] at small ⊢
      omega
    rw [← here, promised.written memory final ran slot member, promised.written memory' final' ran' slot member,
      MatrixVectorArguments.promised, MatrixVectorArguments.promised, combined, combined]
    refine congrArg (fun value : T => parts value slot.2) (congrArg₂ (· + ·) (congrArg _ ?_) (congrArg _ ?_))
    · exact row_product_steady apart several agree (Int.le_refl _) shaped.columns_fit slot.1 member.2
    · exact LawfulElement.whole_congr _ _ (fun part small => agree _
        (apart_not_hidden several (apart.result several) (Int.le_refl _) slot.1 part inside small))

theorem matrix_vector_keeps_equation [NoZeroDivisors T] (leaves : ExactGemvLeaves T) (machine : VectorMachine) (site : Site)
    (arguments : MatrixVectorArguments T) :
    (∀ phases : List (Phase R), matrixVectorMultiply true leaves.toGemvLeaves machine site arguments = .ok phases →
      (arguments.Promised phases ∅ ↔ arguments.KeepsEquation)) ∧
    ∀ (workspace : Slice) (phases : List (Phase R)),
      matrixVectorMultiplyWithWorkspace true leaves.toGemvLeaves machine site arguments workspace = .ok phases →
      (arguments.Promised phases (workspace.cells T arguments.rows) ∧ Phase.Steady phases (workspace.cells T arguments.rows) ↔
        arguments.KeepsEquation) := by
  constructor
  · intro phases accepted
    obtain ⟨shaped, rfl⟩ := direct_accepted accepted
    have left := direct_leaves leaves machine site shaped
    by_cases several : 0 < arguments.rows
    · refine promised_iff shaped several (fun _ _ => id) left (fun columns memory i => ?_) (fun empty memory i => ?_)
      · rw [directValue, if_pos columns]
      · rw [directValue, if_neg (by omega)]
    · have nonneg := shaped.rows_nonneg
      exact ⟨fun _ => .inl (by omega), fun _ => promised_of_no_rows left (Int.not_lt.mp several)⟩
  · intro workspace phases accepted
    obtain ⟨shaped, apart, rfl⟩ := workspace_accepted accepted
    by_cases several : 0 < arguments.rows
    · have left := workspace_leaves leaves machine site shaped apart several
      have clear : ∀ slot, slot ∈ slots (width T) (Set.Iio (toUsize arguments.rows)) →
          slotAddress (arguments.resultVector.elements T) slot ∉ workspace.cells T arguments.rows := by
        intro slot member
        have small : slot.1 < toUsize arguments.rows := member.2
        have fit := shaped.rows_fit
        refine apart_not_hidden several (apart.result several) (Int.le_refl _) slot.1 slot.2 ?_ member.1
        simp only [toUsize] at small ⊢
        omega
      by_cases stale : arguments.columns = 0 ∧ isZero arguments.resultScale = true
      · have nothing := (LawfulScalar.isZero_iff _).mp stale.2
        refine iff_of_false (fun both => ?_) ?_
        · refine stale_breaks_promise several stale.1 nothing (workspaceElements T workspace arguments.rows)
            (workspace_element_hidden 0 0 (by simp only [toUsize]; omega) LawfulElement.width_pos)
            (fun slot member => apart_not_hidden several (apart.result several) shaped.rows_fit slot.1 slot.2 member.2
              member.1) left (fun memory i => ?_) both.1
          rw [workspaceValue, if_neg (by omega), if_pos stale.2]
        · have columns := stale.1
          rintro (empty | ⟨scale, _⟩ | ⟨some, _⟩)
          · omega
          · refine unit_powers_nonzero (R := R) (T := T) ?_
            rw [← one_mul (unitPowers R T), ← scale, nothing, zero_mul]
          · omega
      · have iff := promised_iff shaped several clear left
          (fun columns memory i => by rw [workspaceValue, if_pos columns])
          (fun empty memory i => by rw [workspaceValue, if_neg (by omega), if_neg (fun zero => stale ⟨empty, zero⟩)])
        exact ⟨fun both => iff.mp both.1, fun keeps => ⟨iff.mpr keeps, promised_steady shaped apart several (iff.mpr keeps)⟩⟩
    · have empty := Int.not_lt.mp several
      have nonneg := shaped.rows_nonneg
      have idle : ∀ memory final : Nat → R, Phase.Outcomes (executeMatrixVectorWithWorkspace leaves.toGemvLeaves machine site
          arguments workspace arguments.rows) memory final → final = memory :=
        fun memory final ran => workspace_idle empty memory final ran
      refine ⟨fun _ => .inl (by omega), fun _ => ⟨⟨fun memory final ran slot member => ?_, fun memory final ran place _ _ => ?_⟩,
        fun memory memory' final final' agree ran ran' place seen => ?_⟩⟩
      · exact absurd member.2 (no_indices empty slot.1)
      · rw [idle memory final ran]
      · rw [idle memory final ran, idle memory' final' ran', agree place seen]

end Equation

section Witnesses

-- The adjoint of two by three complex numbers, an input from its end and every second element of a result.
def adjointArguments (resultStart : Nat) : MatrixVectorArguments (Cplx ℤ) where
  matrix := ⟨⟨⟨0, 12⟩, 2, 3, 2⟩, .adjoint⟩
  inputVector := ⟨⟨12, 4⟩, 2, -1⟩
  resultVector := ⟨⟨resultStart, 10⟩, 3, 2⟩
  productScale := ⟨3, 1⟩
  resultScale := ⟨2, 0⟩

-- Two rows, no columns and no scales given: the result should be cleared.
def emptyArguments : MatrixVectorArguments ℤ where
  matrix := ⟨⟨⟨0, 0⟩, 2, 0, 2⟩, .normal⟩
  inputVector := ⟨⟨0, 0⟩, 0, 1⟩
  resultVector := ⟨⟨0, 2⟩, 2, 1⟩

theorem adjoint_keeps_equation (start : Nat) : (adjointArguments start).KeepsEquation :=
  .inr (.inr ⟨zero_lt_two, .inl zero_lt_two, .inr (.inr rfl)⟩)

-- The second call stores the result over its own input.
theorem matrix_vector_keeps_equation_adjoint :
    let _ := complexElement ℤ .double
    (∃ phases : List (Phase ℤ),
      matrixVectorMultiply true (ExactGemvLeaves.portable (Cplx ℤ)).toGemvLeaves portableMachine [] (adjointArguments 16) =
        .ok phases ∧ (adjointArguments 16).Promised phases ∅) ∧
    ∃ phases : List (Phase ℤ),
      matrixVectorMultiplyWithWorkspace true (ExactGemvLeaves.portable (Cplx ℤ)).toGemvLeaves portableMachine []
        (adjointArguments 12) ⟨26, 3⟩ = .ok phases ∧
      (adjointArguments 12).Promised phases (Slice.cells (Cplx ℤ) ⟨26, 3⟩ 3) ∧
        Phase.Steady phases (Slice.cells (Cplx ℤ) ⟨26, 3⟩ 3) := by
  let _ := complexElement ℤ .double
  have lawful : LawfulElement ℤ (Cplx ℤ) := complex_element_lawful ℤ .double
  have direct := (matrix_vector_keeps_equation (R := ℤ) (ExactGemvLeaves.portable (Cplx ℤ)) portableMachine []
    (adjointArguments 16)).1 _ rfl
  have scratch := (matrix_vector_keeps_equation (R := ℤ) (ExactGemvLeaves.portable (Cplx ℤ)) portableMachine []
    (adjointArguments 12)).2 ⟨26, 3⟩ _ rfl
  exact ⟨⟨_, rfl, direct.mpr (adjoint_keeps_equation 16)⟩, ⟨_, rfl, scratch.mpr (adjoint_keeps_equation 12)⟩⟩

-- gemv returns before it scales, and the workspace call copies out what its workspace held.
theorem empty_product_keeps_result :
    let _ := realElement ℤ .double
    (∃ phases : List (Phase ℤ),
      matrixVectorMultiply true (ExactGemvLeaves.portable ℤ).toGemvLeaves portableMachine [] emptyArguments = .ok phases ∧
        ¬ emptyArguments.Promised phases ∅) ∧
    ∃ phases : List (Phase ℤ),
      matrixVectorMultiplyWithWorkspace true (ExactGemvLeaves.portable ℤ).toGemvLeaves portableMachine [] emptyArguments
        ⟨2, 2⟩ = .ok phases ∧ ¬ emptyArguments.Promised phases (Slice.cells ℤ ⟨2, 2⟩ 2) := by
  let _ := realElement ℤ .double
  have lawful : LawfulElement ℤ ℤ := real_element_lawful ℤ .double
  refine ⟨⟨_, rfl, fun promised => ?_⟩, ⟨_, rfl, fun promised => ?_⟩⟩
  · have written := promised.written (fun _ => 5) _ ⟨_, rfl, rfl⟩ (0, 0) ⟨Nat.one_pos, Nat.two_pos⟩
    exact absurd written (by decide)
  · have written := promised.written (fun _ => 5) _ ⟨_, rfl, _, rfl, rfl⟩ (0, 0) ⟨Nat.one_pos, Nat.two_pos⟩
    exact absurd written (by decide)

end Witnesses

end Zynum.Api
