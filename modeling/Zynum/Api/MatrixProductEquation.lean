import Zynum.Api.MatrixProductExact
import Zynum.MatrixMatrix.X86Kernels

set_option autoImplicit false

/- matrixMultiply and matrixMultiplyWithWorkspace, as they are called. -/
namespace Zynum.Api

open ArrayProgram
open Element (width parts whole)
open MatrixProductArguments

section Calls

variable {R T : Type} [CommRing R] [CommRing T] [Element R T] [LawfulElement R T]

-- What a refused call and an accepted one do, directly and through a workspace.
structure KeepsProduct (core : ProductCore T) (rt : Runtime) (site : Site) (arguments : MatrixProductArguments T) :
    Prop where
  refused : ∀ checked (memory final : Nat → R) problem,
    CallOutcome (matrixMultiply checked core rt site arguments) memory (.error problem) final → final = memory
  accepted : ∀ phases : List (Phase R), matrixMultiply true core rt site arguments = .ok phases →
    arguments.Stored ∧ arguments.Keeps phases ∅ ∧
      Disjoint (arguments.resultMatrix.storage T) (arguments.leftMatrix.storage T) ∧
      Disjoint (arguments.resultMatrix.storage T) (arguments.rightMatrix.storage T)
  workspace_refused : ∀ checked workspace (memory final : Nat → R) problem,
    CallOutcome (matrixMultiplyWithWorkspace checked core rt site arguments workspace) memory (.error problem) final →
      final = memory
  workspace_accepted : ∀ workspace (phases : List (Phase R)),
    matrixMultiplyWithWorkspace true core rt site arguments workspace = .ok phases →
    arguments.Stored ∧ arguments.Keeps phases (arguments.workspaceCells workspace) ∧
      arguments.workspaceCells workspace ⊆ storageCells T workspace.start workspace.len ∧
      Disjoint (arguments.workspaceCells workspace) (arguments.leftMatrix.storage T) ∧
      Disjoint (arguments.workspaceCells workspace) (arguments.rightMatrix.storage T) ∧
      Disjoint (arguments.workspaceCells workspace) (arguments.resultMatrix.storage T)

omit [CommRing R] [CommRing T] [Element R T] [LawfulElement R T] in
theorem refused_keeps {answer : Except Error (List (Phase R))} {memory final : Nat → R} {problem : Error}
    (outcome : CallOutcome answer memory (.error problem) final) : final = memory := by
  cases answer with
  | error _ => exact outcome.2
  | ok phases => cases outcome.1

variable {core : ProductCore T} {rt : Runtime} {site : Site} {arguments : MatrixProductArguments T}

theorem product_accepted {phases : List (Phase R)} (accepted : matrixMultiply true core rt site arguments = .ok phases) :
    arguments.Shaped ∧ Disjoint (arguments.resultMatrix.storage T) (arguments.leftMatrix.storage T) ∧
      Disjoint (arguments.resultMatrix.storage T) (arguments.rightMatrix.storage T) ∧
      phases = executeMatrixProductNoAlias core rt site arguments := by
  obtain ⟨_, left, accepted⟩ := bind_ok accepted
  obtain ⟨_, right, accepted⟩ := bind_ok accepted
  obtain ⟨_, result, accepted⟩ := bind_ok accepted
  obtain ⟨_, shapes, accepted⟩ := bind_ok accepted
  obtain ⟨_, apartLeft, accepted⟩ := bind_ok accepted
  obtain ⟨_, apartRight, accepted⟩ := bind_ok accepted
  exact ⟨product_shaped left right result shapes, matrices_disjoint apartLeft, matrices_disjoint apartRight,
    (Except.ok.inj accepted).symm⟩

theorem element_count {result : MatrixView} {count : Nat} (accepted : matrixProductElementCount result = .ok count) :
    count = toUsize result.rowCount * toUsize result.columnCount := by
  obtain ⟨rows, known, accepted⟩ := bind_ok accepted
  obtain ⟨columns, known', accepted⟩ := bind_ok accepted
  have plain : ∀ {length : Int} {answer : Nat}, checkedNonNegativeLength length = .ok answer → answer = toUsize length := by
    intro length answer same
    rw [checkedNonNegativeLength] at same
    split at same
    · cases same
    · exact (Except.ok.inj same).symm
  split at accepted
  · cases accepted
  · rw [← Except.ok.inj accepted, plain known, plain known']

omit [CommRing R] [CommRing T] [LawfulElement R T] in
-- The storage of the packed workspace view is the whole part the product uses.
theorem workspace_matrix_storage (start count : Nat) (result : MatrixView) :
    (workspaceMatrixView ⟨start, count⟩ result).storage T =
      storageCells T start (toUsize result.rowCount * toUsize result.columnCount) := by
  rw [MatrixView.storage, MatrixView.required, workspaceMatrixView]
  refine congrArg (storageCells T start) ?_
  by_cases empty : result.rowCount ≤ 0 ∨ result.columnCount ≤ 0
  · rw [if_pos empty]
    rcases empty with rows | columns
    · rw [show toUsize result.rowCount = 0 from Int.toNat_of_nonpos rows, Nat.zero_mul]
    · rw [show toUsize result.columnCount = 0 from Int.toNat_of_nonpos columns, Nat.mul_zero]
  · rw [if_neg empty]
    have rest : toUsize result.columnCount = toUsize (result.columnCount - 1) + 1 := by
      simp only [toUsize]
      omega
    rw [rest]
    ring

theorem workspace_product_accepted {workspace : Slice} {phases : List (Phase R)}
    (accepted : matrixMultiplyWithWorkspace true core rt site arguments workspace = .ok phases) :
    arguments.Shaped ∧ toUsize arguments.resultMatrix.rowCount * toUsize arguments.resultMatrix.columnCount ≤ workspace.len ∧
      Disjoint (arguments.workspaceCells workspace) (arguments.leftMatrix.storage T) ∧
      Disjoint (arguments.workspaceCells workspace) (arguments.rightMatrix.storage T) ∧
      Disjoint (arguments.workspaceCells workspace) (arguments.resultMatrix.storage T) ∧
      ∃ count, phases = executeMatrixProductWithWorkspace core rt site arguments ⟨workspace.start, count⟩ := by
  obtain ⟨_, left, accepted⟩ := bind_ok accepted
  obtain ⟨_, right, accepted⟩ := bind_ok accepted
  obtain ⟨_, result, accepted⟩ := bind_ok accepted
  obtain ⟨_, shapes, accepted⟩ := bind_ok accepted
  obtain ⟨count, counted, accepted⟩ := bind_ok accepted
  obtain ⟨_, enough, accepted⟩ := bind_ok accepted
  obtain ⟨_, apart, accepted⟩ := bind_ok accepted
  rw [ensureWorkspaceLength] at enough
  split at enough
  · cases enough
  rename_i long
  rw [ensureMatrixWorkspaceApart, Bool.not_true, if_neg Bool.false_ne_true] at apart
  obtain ⟨_, _, apart⟩ := bind_ok apart
  obtain ⟨_, clearLeft, apart⟩ := bind_ok apart
  obtain ⟨_, clearRight, clearResult⟩ := bind_ok apart
  have leftDisjoint := matrices_disjoint clearLeft
  have rightDisjoint := matrices_disjoint clearRight
  have resultDisjoint := matrices_disjoint clearResult
  rw [workspace_matrix_storage] at leftDisjoint rightDisjoint resultDisjoint
  exact ⟨product_shaped left right result shapes, element_count counted ▸ Nat.not_lt.mp long, leftDisjoint, rightDisjoint,
    resultDisjoint, count, (Except.ok.inj accepted).symm⟩

theorem keeps_product (core : ProductCore T) (rt : Runtime) (site : Site) (arguments : MatrixProductArguments T) :
    KeepsProduct core rt site arguments := by
  refine ⟨fun _ _ _ _ outcome => refused_keeps outcome, fun phases known => ?_, fun _ _ _ _ _ outcome => refused_keeps outcome,
    fun workspace phases known => ?_⟩
  · obtain ⟨shaped, left, right, rfl⟩ := product_accepted known
    exact ⟨shaped.stored, direct_product_keeps core rt site shaped, left, right⟩
  · obtain ⟨shaped, long, left, right, result, count, rfl⟩ := workspace_product_accepted known
    refine ⟨shaped.stored, workspace_product_keeps core rt site ⟨workspace.start, count⟩ shaped left right result,
      fun place inside => ⟨inside.1, inside.2.trans_le (Nat.add_le_add_left (Nat.mul_le_mul_left _ long) _)⟩,
      left, right, result⟩

-- The real gemm as it is written, and any gemm that keeps its contract.
theorem matrix_products_keep_equation (real : RealGemmEnv T) (core : ProductCore T) (rt : Runtime) (site : Site)
    (arguments : MatrixProductArguments T) :
    KeepsProduct (realProductCore real) rt site arguments ∧ KeepsProduct core rt site arguments :=
  ⟨keeps_product _ rt site arguments, keeps_product core rt site arguments⟩

end Calls

section Witness

-- Two by three times the transpose of two by three, both with room between their columns or none.
def productArguments (resultStart : Nat) : MatrixProductArguments ℤ where
  leftMatrix := ⟨⟨⟨0, 10⟩, 2, 3, 4⟩, .normal⟩
  rightMatrix := ⟨⟨⟨10, 6⟩, 2, 3, 2⟩, .transposed⟩
  resultMatrix := ⟨⟨resultStart, 5⟩, 2, 2, 3⟩
  productScale := 3
  resultScale := 2

-- On the AVX2 core: a result apart, one over the left matrix, which is refused, and that one through a workspace.
theorem matrix_products_keep_equation_small :
    let _ := realElement ℤ .double
    let _ := real_kind_lawful ℤ .double
    let avx2 := PackedSimd.x86Core .double .avx2Fma (fun _ => true) rfl ⟨fun _ => true, fun _ _ => 0, 0⟩
      (RealGemmEnv.portable ℤ).profile
    let core := realProductCore avx2
    (∃ phases : List (Phase ℤ), matrixMultiply true core Runtime.sequential [] (productArguments 16) = .ok phases ∧
      (productArguments 16).Keeps phases ∅) ∧
    (∃ memory final : Nat → ℤ, CallOutcome (matrixMultiply true core Runtime.sequential [] (productArguments 5)) memory
      (.error .aliasingNotAllowed) final ∧ final = memory) ∧
    ∃ phases : List (Phase ℤ), matrixMultiplyWithWorkspace true core Runtime.sequential [] (productArguments 0) ⟨21, 4⟩ =
      .ok phases ∧ (productArguments 0).Keeps phases ((productArguments 0).workspaceCells ⟨21, 4⟩) := by
  intro element kind avx2 core
  have lawful : LawfulElement ℤ ℤ := real_element_lawful ℤ .double
  have every := fun start => (matrix_products_keep_equation (R := ℤ) avx2 core Runtime.sequential [] (productArguments start)).1
  refine ⟨⟨_, rfl, ((every 16).accepted _ rfl).2.1⟩, ⟨fun _ => 5, fun _ => 5, ⟨rfl, rfl⟩, ?_⟩,
    ⟨_, rfl, ((every 0).workspace_accepted ⟨21, 4⟩ _ rfl).2.1⟩⟩
  exact (every 5).refused true _ _ .aliasingNotAllowed ⟨rfl, rfl⟩

end Witness

end Zynum.Api
