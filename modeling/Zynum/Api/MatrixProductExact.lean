import Zynum.Api.MatrixProduct
import Zynum.Api.MatrixViewsExact

set_option autoImplicit false

/- The checked matrix products keep their equation, write nothing when they refuse,
   and neither reach outside the storage they checked nor read their workspace. -/
namespace Zynum.Api

open ArrayProgram
open Element (width parts whole)

/- The real gemm is a core for the checked products: an empty product only scales. -/
section RealCore

variable {T : Type} [CommRing T] [Scalar T]

theorem gemm_real_no_depth (env : RealGemmEnv T) (rt : Runtime) (site : Site) (transa transb : TransposeMode) (m n k : Int)
    (alpha : T) (a : Mem T) (lda : Int) (b : Mem T) (ldb : Int) (beta : T) (c : Mem T) (ldc : Int) (rows : 0 < m)
    (columns : 0 < n) (empty : k ≤ 0) :
    gemmReal env rt site transa transb m n k alpha a lda b ldb beta c ldc = scaleMatrix (toUsize m) (toUsize n) beta c ldc := by
  have some : ¬ (m ≤ 0 ∨ n ≤ 0) := by omega
  have none : toUsize k = 0 := Int.toNat_of_nonpos empty
  rw [gemmReal, if_neg some]
  split
  · rw [gemmNoTransReal, if_neg some, if_pos (.inl empty)]
  · have turnedB : tryGemmNoTransTransposedBReal env rt site m n k alpha a lda b ldb beta c ldc =
        Option.some (scaleMatrix (toUsize m) (toUsize n) beta c ldc) := by
      rw [tryGemmNoTransTransposedBReal, if_neg (by omega), if_neg (by omega), noTransTransposedBReal,
        noTransRealWithBLayout, if_neg some, if_pos (.inl none)]
    have turnedA : tryGemmTransposedAReal env rt site transb m n k alpha a lda b ldb beta c ldc = Option.none := by
      rw [tryGemmTransposedAReal, transposedAReal, if_neg some, if_pos (.inl empty)]
    simp only [turnedB, turnedA]
    split
    · rename_i done
      split at done
      · exact (Option.some.inj done).symm
      · split at done
        · cases done
        · cases done
    · rw [if_pos (.inl none)]

variable [LawfulScalar T]

theorem gemm_real_exact (env : RealGemmEnv T) (rt : Runtime) (site : Site) (transa transb : TransposeMode) (m n k : Int)
    (alpha : T) (a : Mem T) (lda : Int) (b : Mem T) (ldb : Int) (beta : T) (ldc : Int)
    (leading : 0 < m → 0 < n → 0 < k → 0 < lda ∧ 0 < ldb) (bound : 0 < m → 0 < n → m ≤ ldc) :
    Updates (matrixCells (toUsize m) (toUsize n)) (cellAddress ldc)
      (gemmTarget transa transb (toUsize k) alpha a lda b ldb beta)
      (fun c => gemmReal env rt site transa transb m n k alpha a lda b ldb beta c ldc) := by
  by_cases nothing : m ≤ 0 ∨ n ≤ 0
  · rw [matrix_cells_empty m n nothing]
    exact (updates_nothing _ _).congr_run (fun c => by rw [gemmReal, if_pos nothing])
  have rows : 0 < m := by omega
  have columns : 0 < n := by omega
  have fit := bound rows columns
  by_cases depth : 0 < k
  · have steps := leading rows columns depth
    exact gemm_real_updates env rt site transa transb m n k alpha a lda b ldb beta ldc steps.1 steps.2 (by omega) fit
  · have empty : k ≤ 0 := Int.not_lt.mp depth
    have none : toUsize k = 0 := Int.toNat_of_nonpos empty
    refine ((scale_matrix_updates (toUsize m) (toUsize n) beta ldc (Int.toNat_le_toNat fit)).congr rfl
      (fun cell old _ => (gemm_value_empty _ _ _ _ _ _ _ (.inl none)).symm)).congr_run (fun c => ?_)
    exact gemm_real_no_depth env rt site transa transb m n k alpha a lda b ldb beta c ldc rows columns empty

def realProductCore (env : RealGemmEnv T) : ProductCore T := ⟨gemmReal env, gemm_real_exact env⟩

end RealCore

/- What an accepted product promises. -/
section Promise

variable {R T : Type} [CommRing R] [CommRing T] [Element R T]

-- The call wrote nothing and reported the error, or ran its phases.
def CallOutcome (answer : Except Error (List (Phase R))) (memory : Nat → R) (result : Except Error Unit)
    (final : Nat → R) : Prop :=
  match answer with
  | .error problem => result = .error problem ∧ final = memory
  | .ok phases => result = .ok () ∧ Phase.Outcomes phases memory final

variable (T) in
def elementPlace (start : Nat) (leadingDimension : Int) (slot : (Nat × Nat) × Nat) : Nat :=
  start + (width T * matIndex leadingDimension slot.1.1 slot.1.2 + slot.2)

namespace MatrixProductArguments

-- The parts of the elements of the result.
def slots (arguments : MatrixProductArguments T) : Set ((Nat × Nat) × Nat) :=
  {slot | slot.2 < width T ∧
    slot.1 ∈ matrixCells (toUsize arguments.resultMatrix.rowCount) (toUsize arguments.resultMatrix.columnCount)}

def place (arguments : MatrixProductArguments T) (slot : (Nat × Nat) × Nat) : Nat :=
  elementPlace T arguments.resultMatrix.values.start arguments.resultMatrix.leadingDimension slot

-- product_scale * op(left) * op(right) + result_scale * result; an empty sum is zero.
def promised (arguments : MatrixProductArguments T) (memory : Nat → R) (cell : Nat × Nat) : T :=
  gemmValue arguments.productScale
    (opEntry (toCoreTranspose arguments.leftMatrix.operation)
      (denseEntry (elementsAt T arguments.leftMatrix.values.start memory) arguments.leftMatrix.leadingDimension))
    (opEntry (toCoreTranspose arguments.rightMatrix.operation)
      (denseEntry (elementsAt T arguments.rightMatrix.values.start memory) arguments.rightMatrix.leadingDimension))
    (toUsize arguments.leftMatrix.effectiveColumnCount) arguments.resultScale cell
    (elementsAt T arguments.resultMatrix.values.start memory
      (matIndex arguments.resultMatrix.leadingDimension cell.1 cell.2))

structure Keeps (arguments : MatrixProductArguments T) (phases : List (Phase R)) (hidden : Set Nat) : Prop where
  written : ∀ memory final, Phase.Outcomes phases memory final → ∀ slot, slot ∈ arguments.slots →
    final (arguments.place slot) = parts (arguments.promised memory slot.1) slot.2
  kept : ∀ memory final, Phase.Outcomes phases memory final → ∀ place, place ∉ hidden →
    (∀ slot, slot ∈ arguments.slots → arguments.place slot ≠ place) → final place = memory place
  writes_inside : ∀ slot, slot ∈ arguments.slots → arguments.place slot ∈ arguments.resultMatrix.storage T
  reads_inside : ∀ memory memory' final final',
    (∀ place, place ∈ arguments.leftMatrix.storage T ∪ arguments.rightMatrix.storage T ∪ arguments.resultMatrix.storage T →
      memory place = memory' place) →
    Phase.Outcomes phases memory final → Phase.Outcomes phases memory' final' →
    ∀ place, place ∈ arguments.resultMatrix.storage T → final place = final' place

-- The storage the checks measured lies in the slices.
def Stored (arguments : MatrixProductArguments T) : Prop :=
  arguments.leftMatrix.required ≤ arguments.leftMatrix.values.len ∧
    arguments.rightMatrix.required ≤ arguments.rightMatrix.values.len ∧
    arguments.resultMatrix.required ≤ arguments.resultMatrix.values.len

def workspaceCells (arguments : MatrixProductArguments T) (workspace : Slice) : Set Nat :=
  storageCells T workspace.start (toUsize arguments.resultMatrix.rowCount * toUsize arguments.resultMatrix.columnCount)

-- What the checks of either call leave of the shapes.
structure Shaped (arguments : MatrixProductArguments T) : Prop where
  stored : arguments.Stored
  rows : arguments.leftMatrix.effectiveRowCount = arguments.resultMatrix.rowCount
  columns : arguments.rightMatrix.effectiveColumnCount = arguments.resultMatrix.columnCount
  inner : arguments.leftMatrix.effectiveColumnCount = arguments.rightMatrix.effectiveRowCount
  rows_nonneg : 0 ≤ arguments.resultMatrix.rowCount
  columns_nonneg : 0 ≤ arguments.resultMatrix.columnCount
  leading : 0 < arguments.resultMatrix.rowCount → 0 < arguments.resultMatrix.columnCount →
    0 < arguments.leftMatrix.effectiveColumnCount →
    0 < arguments.leftMatrix.leadingDimension ∧ 0 < arguments.rightMatrix.leadingDimension
  fits : 0 < arguments.resultMatrix.rowCount → 0 < arguments.resultMatrix.columnCount →
    arguments.resultMatrix.rowCount ≤ arguments.resultMatrix.leadingDimension

end MatrixProductArguments

end Promise

section Accepted

open MatrixProductArguments

variable {R T : Type} [CommRing R] [CommRing T] [Element R T] {arguments : MatrixProductArguments T}

theorem operand_sides {view : OperandView} (rows : 0 < view.effectiveRowCount) (columns : 0 < view.effectiveColumnCount) :
    0 < view.rowCount ∧ 0 < view.columnCount := by
  rw [OperandView.effectiveRowCount] at rows
  rw [OperandView.effectiveColumnCount] at columns
  cases kind : view.operation with
  | normal =>
    rw [kind] at rows columns
    exact ⟨rows, columns⟩
  | transposed =>
    rw [kind] at rows columns
    exact ⟨columns, rows⟩
  | adjoint =>
    rw [kind] at rows columns
    exact ⟨columns, rows⟩

theorem product_shaped (left : arguments.leftMatrix.check true = .ok ()) (right : arguments.rightMatrix.check true = .ok ())
    (result : arguments.resultMatrix.check true = .ok ())
    (shapes : checkMatrixProductShapes arguments.leftMatrix arguments.rightMatrix arguments.resultMatrix = .ok ()) :
    arguments.Shaped := by
  have leftView := checked_matrix left
  have rightView := checked_matrix right
  have resultView := checked_matrix result
  rw [checkMatrixProductShapes] at shapes
  split at shapes
  · cases shapes
  split at shapes
  · cases shapes
  split at shapes
  · cases shapes
  · rename_i inner rows columns
    rw [Decidable.not_not] at inner rows columns
    refine ⟨⟨leftView.2.2.1, rightView.2.2.1, resultView.2.2.1⟩, rows.symm, columns.symm, inner, resultView.1, resultView.2.1,
      fun someRows someColumns depth => ?_, fun someRows someColumns => (resultView.2.2.2 someRows someColumns).2⟩
    have leftSides := operand_sides (rows ▸ someRows) depth
    have rightSides := operand_sides (inner ▸ depth) (columns ▸ someColumns)
    exact ⟨(leftView.2.2.2 leftSides.1 leftSides.2).1, (rightView.2.2.2 rightSides.1 rightSides.2).1⟩

omit [CommRing R] in
theorem slot_inside {slot : (Nat × Nat) × Nat} (member : slot ∈ arguments.slots) :
    arguments.place slot ∈ arguments.resultMatrix.storage T := by
  obtain ⟨small, inRows, inColumns⟩ := member
  refine element_stored T (entry_inside ?_ ?_) small
  · simp only [toUsize] at inRows
    omega
  · simp only [toUsize] at inColumns
    omega

variable [LawfulElement R T]

-- The promised elements depend on nothing outside the three storages.
theorem promised_agree (shaped : arguments.Shaped) {memory memory' : Nat → R}
    (agree : ∀ place, place ∈ arguments.leftMatrix.storage T ∪ arguments.rightMatrix.storage T ∪
      arguments.resultMatrix.storage T → memory place = memory' place) {cell : Nat × Nat}
    (inside : cell ∈ matrixCells (toUsize arguments.resultMatrix.rowCount) (toUsize arguments.resultMatrix.columnCount)) :
    arguments.promised memory cell = arguments.promised memory' cell := by
  have rowInside : (cell.1 : Int) < arguments.resultMatrix.rowCount := by
    have small := inside.1
    simp only [toUsize] at small
    omega
  have columnInside : (cell.2 : Int) < arguments.resultMatrix.columnCount := by
    have small := inside.2
    simp only [toUsize] at small
    omega
  have old : elementsAt T arguments.resultMatrix.values.start memory
        (matIndex arguments.resultMatrix.leadingDimension cell.1 cell.2) =
      elementsAt T arguments.resultMatrix.values.start memory'
        (matIndex arguments.resultMatrix.leadingDimension cell.1 cell.2) :=
    element_agree (fun place stored => agree place (.inr stored)) (entry_inside rowInside columnInside)
  rw [promised, promised, gemmValue, gemmValue, old]
  refine congrArg (· + _) (congrArg _ (Finset.sum_congr rfl (fun p member => ?_)))
  have depth : (p : Int) < arguments.leftMatrix.effectiveColumnCount := by
    have small := Finset.mem_range.mp member
    simp only [toUsize] at small
    omega
  have left := operand_entry_agree (fun place stored => agree place (.inl (.inl stored)))
    (shaped.rows.symm ▸ rowInside : (cell.1 : Int) < _) depth
  have right := operand_entry_agree (fun place stored => agree place (.inl (.inr stored)))
    (shaped.inner ▸ depth : (p : Int) < _) (shaped.columns.symm ▸ columnInside : (cell.2 : Int) < _)
  rw [left, right]

theorem keeps_of_writes (shaped : arguments.Shaped) {phases : List (Phase R)} {hidden : Set Nat}
    (clear : Disjoint hidden (arguments.resultMatrix.storage T))
    (written : ∀ memory final, Phase.Outcomes phases memory final → ∀ slot, slot ∈ arguments.slots →
      final (arguments.place slot) = parts (arguments.promised memory slot.1) slot.2)
    (kept : ∀ memory final, Phase.Outcomes phases memory final → ∀ place, place ∉ hidden →
      (∀ slot, slot ∈ arguments.slots → arguments.place slot ≠ place) → final place = memory place) :
    arguments.Keeps phases hidden := by
  refine ⟨written, kept, fun slot member => slot_inside member, fun memory memory' final final' agree ran ran' place stored => ?_⟩
  by_cases claimed : ∀ slot, slot ∈ arguments.slots → arguments.place slot ≠ place
  · have seen : place ∉ hidden := fun inside => Set.disjoint_left.mp clear inside stored
    rw [kept memory final ran place seen claimed, kept memory' final' ran' place seen claimed, agree place (.inr stored)]
  · simp only [not_forall, not_not] at claimed
    obtain ⟨slot, member, here⟩ := claimed
    rw [← here, written memory final ran slot member, written memory' final' ran' slot member,
      promised_agree shaped agree member.2]

end Accepted

section Runs

open MatrixProductArguments

variable {R T : Type} [CommRing R] [CommRing T] [Element R T] [LawfulElement R T] {arguments : MatrixProductArguments T}
  (core : ProductCore T) (rt : Runtime) (site : Site)

-- gemm with the operands of the call into any output of the size of the result.
theorem multiply_matrices_overwrites (shaped : arguments.Shaped) (start : Nat) (leadingDimension : Int)
    (fits : 0 < arguments.resultMatrix.rowCount → 0 < arguments.resultMatrix.columnCount →
      arguments.resultMatrix.rowCount ≤ leadingDimension) (memory : Nat → R) :
    Overwrites arguments.slots (elementPlace T start leadingDimension)
      (fun slot => parts (gemmValue arguments.productScale
        (opEntry (toCoreTranspose arguments.leftMatrix.operation)
          (denseEntry (elementsAt T arguments.leftMatrix.values.start memory) arguments.leftMatrix.leadingDimension))
        (opEntry (toCoreTranspose arguments.rightMatrix.operation)
          (denseEntry (elementsAt T arguments.rightMatrix.values.start memory) arguments.rightMatrix.leadingDimension))
        (toUsize arguments.leftMatrix.effectiveColumnCount) arguments.resultScale slot.1
        (elementsAt T start memory (matIndex leadingDimension slot.1.1 slot.1.2))) slot.2) memory
      (Core.multiplyMatrices core rt site arguments.leftMatrix.core arguments.rightMatrix.core
        ⟨start, arguments.resultMatrix.rowCount, arguments.resultMatrix.columnCount, leadingDimension⟩
        arguments.productScale arguments.resultScale memory) := by
  have depth : arguments.leftMatrix.core.effectiveColumnCount = arguments.leftMatrix.effectiveColumnCount := by
    rw [Core.ConstMatrix.effectiveColumnCount, OperandView.effectiveColumnCount, OperandView.core]
    cases arguments.leftMatrix.operation <;> rfl
  have updates := core.exact rt site (toCoreTranspose arguments.leftMatrix.operation)
    (toCoreTranspose arguments.rightMatrix.operation) arguments.resultMatrix.rowCount arguments.resultMatrix.columnCount
    arguments.leftMatrix.effectiveColumnCount arguments.productScale
    (elementsAt T arguments.leftMatrix.values.start memory) arguments.leftMatrix.leadingDimension
    (elementsAt T arguments.rightMatrix.values.start memory) arguments.rightMatrix.leadingDimension arguments.resultScale
    leadingDimension shaped.leading fits
  rw [Core.multiplyMatrices, depth]
  exact store_overwrites updates start memory

theorem direct_product_keeps (shaped : arguments.Shaped) :
    arguments.Keeps (R := R) (executeMatrixProductNoAlias core rt site arguments) ∅ := by
  have runs : ∀ memory final : Nat → R,
      Phase.Outcomes (executeMatrixProductNoAlias core rt site arguments) memory final →
      Overwrites arguments.slots arguments.place (fun slot => parts (arguments.promised memory slot.1) slot.2) memory final := by
    rintro memory final ⟨middle, ran, last⟩
    rw [last, show middle = _ from ran]
    exact multiply_matrices_overwrites core rt site shaped arguments.resultMatrix.values.start
      arguments.resultMatrix.leadingDimension shaped.fits memory
  exact keeps_of_writes shaped (Set.empty_disjoint _) (fun memory final ran => (runs memory final ran).written)
    (fun memory final ran place _ => (runs memory final ran).kept place)

variable (workspace : Slice)

-- The workspace holds the elements of the result column after column.
def MatrixProductArguments.workspacePlace (arguments : MatrixProductArguments T) (workspace : Slice) :
    (Nat × Nat) × Nat → Nat := elementPlace T workspace.start arguments.resultMatrix.rowCount

omit [CommRing R] [LawfulElement R T] in
theorem workspace_place_hidden {slot : (Nat × Nat) × Nat} (member : slot ∈ arguments.slots) :
    arguments.workspacePlace workspace slot ∈ arguments.workspaceCells workspace := by
  obtain ⟨small, inRows, inColumns⟩ := member
  refine element_stored T ?_ small
  have grown : (slot.1.2 + 1) * toUsize arguments.resultMatrix.rowCount ≤
      toUsize arguments.resultMatrix.columnCount * toUsize arguments.resultMatrix.rowCount :=
    Nat.mul_le_mul_right _ inColumns
  rw [Nat.succ_mul] at grown
  rw [matIndex, Nat.mul_comm (toUsize arguments.resultMatrix.rowCount)]
  omega

theorem copied_elements (rows columns start : Nat) (leadingDimension : Int)
    (injective : Set.InjOn (cellAddress leadingDimension) (matrixCells rows columns)) (value : Nat → Nat → T) (memory : Nat → R) :
    Overwrites {slot : (Nat × Nat) × Nat | slot.2 < width T ∧ slot.1 ∈ matrixCells rows columns}
      (elementPlace T start leadingDimension) (fun slot => parts (value slot.1.1 slot.1.2) slot.2) memory
      (storeElements start (loop columns (fun col values => loop rows (fun row values =>
        Function.update values (matIndex leadingDimension row col) (value row col)) values)
        (elementsAt T start memory)) memory) :=
  store_overwrites (updates_grid rows columns (cellAddress leadingDimension) (fun cell _ => value cell.1 cell.2)
    injective) start memory

variable (arguments) in
theorem copy_matrix_in (memory : Nat → R) :
    Overwrites arguments.slots (arguments.workspacePlace workspace)
      (fun slot => parts (elementsAt T arguments.resultMatrix.values.start memory
        (matIndex arguments.resultMatrix.leadingDimension slot.1.1 slot.1.2)) slot.2) memory
      (copyMatrixToWorkspace T arguments.resultMatrix workspace memory) := by
  have copied := copied_elements (T := T) (toUsize arguments.resultMatrix.rowCount) (toUsize arguments.resultMatrix.columnCount)
    workspace.start arguments.resultMatrix.rowCount (matrix_cells_injective _ _ _ (Nat.le_refl _))
    (fun row col => elementsAt T arguments.resultMatrix.values.start memory
      (matIndex arguments.resultMatrix.leadingDimension row col)) memory
  have order : ∀ row col, toUsize arguments.resultMatrix.leadingDimension * col + row =
      matIndex arguments.resultMatrix.leadingDimension row col := fun row col => by rw [matIndex, Nat.mul_comm, Nat.add_comm]
  rw [copyMatrixToWorkspace]
  simp only [order]
  exact copied

theorem copy_matrix_out (shaped : arguments.Shaped) (memory : Nat → R) :
    Overwrites arguments.slots arguments.place
      (fun slot => parts (elementsAt T workspace.start memory
        (matIndex arguments.resultMatrix.rowCount slot.1.1 slot.1.2)) slot.2) memory
      (copyWorkspaceToMatrix T workspace arguments.resultMatrix memory) := by
  have order : ∀ row col, toUsize arguments.resultMatrix.leadingDimension * col + row =
      matIndex arguments.resultMatrix.leadingDimension row col := fun row col => by rw [matIndex, Nat.mul_comm, Nat.add_comm]
  rw [copyWorkspaceToMatrix]
  simp only [order]
  refine copied_elements (T := T) _ _ _ _ ?_
    (fun row col => elementsAt T workspace.start memory (matIndex arguments.resultMatrix.rowCount row col)) memory
  by_cases empty : arguments.resultMatrix.rowCount ≤ 0 ∨ arguments.resultMatrix.columnCount ≤ 0
  · rw [matrix_cells_empty _ _ empty]
    exact Set.injOn_empty _
  · exact matrix_cells_injective _ _ _ (Int.toNat_le_toNat (shaped.fits (by omega) (by omega)))

-- After the copy in, the workspace holds the elements of the result.
theorem workspace_holds (memory : Nat → R) {cell : Nat × Nat}
    (inside : cell ∈ matrixCells (toUsize arguments.resultMatrix.rowCount) (toUsize arguments.resultMatrix.columnCount)) :
    elementsAt T workspace.start (copyMatrixToWorkspace T arguments.resultMatrix workspace memory)
        (matIndex arguments.resultMatrix.rowCount cell.1 cell.2) =
      elementsAt T arguments.resultMatrix.values.start memory
        (matIndex arguments.resultMatrix.leadingDimension cell.1 cell.2) := by
  have copied := copy_matrix_in arguments workspace memory
  refine (LawfulElement.whole_congr _ _ (fun part small => ?_)).trans (LawfulElement.whole_parts _)
  exact copied.written (cell, part) ⟨small, inside⟩

theorem workspace_product_keeps (shaped : arguments.Shaped)
    (clearLeft : Disjoint (arguments.workspaceCells workspace) (arguments.leftMatrix.storage T))
    (clearRight : Disjoint (arguments.workspaceCells workspace) (arguments.rightMatrix.storage T))
    (clearResult : Disjoint (arguments.workspaceCells workspace) (arguments.resultMatrix.storage T)) :
    arguments.Keeps (R := R) (executeMatrixProductWithWorkspace core rt site arguments workspace)
      (arguments.workspaceCells workspace) := by
  have runs : ∀ memory final : Nat → R,
      Phase.Outcomes (executeMatrixProductWithWorkspace core rt site arguments workspace) memory final →
      ∃ middle : Nat → R, (isZero arguments.resultScale = true ∧ middle = memory ∨
          isZero arguments.resultScale = false ∧ middle = copyMatrixToWorkspace T arguments.resultMatrix workspace memory) ∧
        final = copyWorkspaceToMatrix T workspace arguments.resultMatrix
          (Core.multiplyMatrices core rt site arguments.leftMatrix.core arguments.rightMatrix.core
            (workspaceMatrix workspace arguments.resultMatrix.rowCount arguments.resultMatrix.columnCount)
            arguments.productScale arguments.resultScale middle) := by
    intro memory final ran
    rw [executeMatrixProductWithWorkspace] at ran
    cases nothing : isZero arguments.resultScale with
    | true =>
      rw [nothing, if_pos rfl] at ran
      obtain ⟨product, multiplied, copied, out, last⟩ := ran
      refine ⟨memory, .inl ⟨rfl, rfl⟩, ?_⟩
      rw [last, show copied = _ from out, show product = _ from multiplied]
    | false =>
      rw [nothing, if_neg Bool.false_ne_true] at ran
      obtain ⟨middle, copiedIn, product, multiplied, copied, out, last⟩ := ran
      refine ⟨middle, .inr ⟨rfl, copiedIn⟩, ?_⟩
      rw [last, show copied = _ from out, show product = _ from multiplied]
  have seenMiddle : ∀ memory middle : Nat → R, (isZero arguments.resultScale = true ∧ middle = memory ∨
      isZero arguments.resultScale = false ∧ middle = copyMatrixToWorkspace T arguments.resultMatrix workspace memory) →
      ∀ place, place ∉ arguments.workspaceCells workspace → middle place = memory place := by
    rintro memory middle (⟨_, rfl⟩ | ⟨_, rfl⟩) place seen
    · rfl
    · exact (copy_matrix_in arguments workspace memory).kept place
        (fun slot member here => seen (here ▸ workspace_place_hidden workspace member))
  refine keeps_of_writes shaped clearResult (fun memory final ran slot member => ?_) (fun memory final ran place seen outside => ?_)
  · obtain ⟨middle, before, rfl⟩ := runs memory final ran
    have out := (copy_matrix_out workspace shaped
      (Core.multiplyMatrices core rt site arguments.leftMatrix.core arguments.rightMatrix.core
        (workspaceMatrix workspace arguments.resultMatrix.rowCount arguments.resultMatrix.columnCount)
        arguments.productScale arguments.resultScale middle)).written slot member
    have product := (multiply_matrices_overwrites core rt site shaped workspace.start arguments.resultMatrix.rowCount
      (fun _ _ => Int.le_refl _) middle).written slot member
    rw [out, elementsAt, LawfulElement.parts_whole _ _ member.1]
    refine product.trans (congrArg (fun value : T => parts value slot.2) ?_)
    have storedAgree : ∀ place, place ∈ arguments.leftMatrix.storage T ∪ arguments.rightMatrix.storage T ∪
        arguments.resultMatrix.storage T → middle place = memory place := by
      refine fun place stored => seenMiddle memory middle before place (fun hidden => ?_)
      rcases stored with (left | right) | result
      · exact Set.disjoint_left.mp clearLeft hidden left
      · exact Set.disjoint_left.mp clearRight hidden right
      · exact Set.disjoint_left.mp clearResult hidden result
    have same := promised_agree shaped storedAgree member.2
    rw [← same, promised, gemmValue, gemmValue]
    refine congrArg₂ (· + ·) rfl ?_
    rcases before with ⟨zero, _⟩ | ⟨_, copied⟩
    · rw [(LawfulScalar.isZero_iff _).mp zero, zero_mul, zero_mul]
    · have slotStored : ∀ part, part < width T → middle (arguments.place (slot.1, part)) = memory (arguments.place (slot.1, part)) :=
        fun part small => storedAgree _ (.inr (slot_inside (show (slot.1, part) ∈ arguments.slots from ⟨small, member.2⟩)))
      have old : elementsAt T arguments.resultMatrix.values.start middle
          (matIndex arguments.resultMatrix.leadingDimension slot.1.1 slot.1.2) =
          elementsAt T arguments.resultMatrix.values.start memory
            (matIndex arguments.resultMatrix.leadingDimension slot.1.1 slot.1.2) :=
        LawfulElement.whole_congr _ _ slotStored
      rw [old, copied, workspace_holds workspace memory member.2]
  · obtain ⟨middle, before, rfl⟩ := runs memory final ran
    rw [(copy_matrix_out workspace shaped _).kept place outside]
    have product := (multiply_matrices_overwrites core rt site shaped workspace.start arguments.resultMatrix.rowCount
      (fun _ _ => Int.le_refl _) middle).kept place
        (fun slot member here => seen (here ▸ workspace_place_hidden workspace member))
    exact product.trans (seenMiddle memory middle before place seen)

end Runs

end Zynum.Api
