import Zynum.Api.MatrixVectorExact

set_option autoImplicit false

/- Accepted matrix-vector calls, run to their end. -/
namespace Zynum.Api

open ArrayProgram
open Element (width parts whole)
open LevelOne

section Accepted

variable {R T : Type} [CommRing R] [CommRing T] [Element R T]

namespace MatrixVectorArguments

theorem output_rows (arguments : MatrixVectorArguments T) :
    outputLength (toCoreTranspose arguments.matrix.operation) arguments.matrix.rowCount arguments.matrix.columnCount =
      arguments.rows := by
  rw [rows, OperandView.effectiveRowCount, outputLength]
  cases arguments.matrix.operation <;> rfl

theorem input_columns (arguments : MatrixVectorArguments T) :
    (if toCoreTranspose arguments.matrix.operation = .noTrans then arguments.matrix.columnCount
      else arguments.matrix.rowCount) = arguments.columns := by
  rw [columns, OperandView.effectiveColumnCount]
  cases arguments.matrix.operation <;> rfl

theorem sides_positive (arguments : MatrixVectorArguments T) :
    0 < arguments.rows ∧ 0 < arguments.columns ↔ 0 < arguments.matrix.rowCount ∧ 0 < arguments.matrix.columnCount := by
  rw [rows, columns, OperandView.effectiveRowCount, OperandView.effectiveColumnCount]
  cases arguments.matrix.operation with
  | normal => exact Iff.rfl
  | transposed => exact And.comm
  | adjoint => exact And.comm

end MatrixVectorArguments

theorem shapes_accepted {matrix : OperandView} {input result : VectorView} {length : Int}
    (accepted : checkMatrixVectorShapes matrix input result = .ok length) :
    length = matrix.effectiveRowCount ∧ 0 ≤ matrix.effectiveRowCount ∧ 0 ≤ matrix.effectiveColumnCount ∧
      matrix.effectiveRowCount ≤ result.length ∧ matrix.effectiveColumnCount ≤ input.length := by
  rw [checkMatrixVectorShapes] at accepted
  split at accepted
  · cases accepted
  split at accepted
  · cases accepted
  · exact ⟨(Except.ok.inj accepted).symm, by omega, by omega, by omega, by omega⟩

theorem shaped_of_checks {arguments : MatrixVectorArguments T} {length : Int}
    (input : arguments.inputVector.check true = .ok ()) (result : arguments.resultVector.check true = .ok ())
    (shapes : checkMatrixVectorShapes arguments.matrix arguments.inputVector arguments.resultVector = .ok length) :
    arguments.Shaped := by
  obtain ⟨_, rows, columns, fitRows, fitColumns⟩ := shapes_accepted shapes
  exact ⟨rows, columns, fitRows, fitColumns,
    fun some => ((checked_vector result).2 (some.trans_le fitRows)).1,
    fun some => ((checked_vector input).2 (some.trans_le fitColumns)).1⟩

end Accepted

section Direct

variable {R T : Type} [CommRing R] [LinearOrder R] [CommRing T] [Element R T] [LawfulElement R T]
  {arguments : MatrixVectorArguments T} (leaves : ExactGemvLeaves T) (machine : VectorMachine) (site : Site)

omit [LinearOrder R] in
-- gemv over the operands of a call whose matrix is not empty.
theorem multiply_combines (shaped : arguments.Shaped) (rows : 0 < arguments.rows) (columns : 0 < arguments.columns)
    (output : Core.Vector) (step : output.stride ≠ 0) (memory : Nat → R) :
    Overwrites (slots (width T) (Set.Iio (toUsize arguments.rows)))
      (slotAddress (Operand.strided (width T) arguments.rows output.stride (cellsFrom output.values)))
      (fun slot => parts (arguments.combined memory arguments.inputElements
        (Operand.strided (width T) arguments.rows output.stride (cellsFrom output.values)) slot.1) slot.2)
      memory (Core.multiplyMatrixVector leaves.toGemvLeaves machine site arguments.matrix.core arguments.inputVector.core
        output arguments.productScale arguments.resultScale memory) := by
  have sides := arguments.sides_positive.mp ⟨rows, columns⟩
  have whole := multiply_overwrites leaves machine site arguments.matrix.core arguments.inputVector.core output
    arguments.productScale arguments.resultScale memory sides.1 sides.2 (shaped.input_stride columns) step
  have output := arguments.output_rows
  have input := arguments.input_columns
  simp only [OperandView.core] at whole
  rw [output] at whole
  simp only [gemvTarget, input] at whole
  exact whole

def MatrixVectorArguments.directValue (arguments : MatrixVectorArguments T) (memory : Nat → R) (i : Nat) : T :=
  if 0 < arguments.columns then arguments.combined memory arguments.inputElements arguments.resultElements i
  else whole (arguments.resultElements.element memory i)

omit [LinearOrder R] in
theorem direct_leaves (shaped : arguments.Shaped) :
    arguments.Leaves (executeMatrixVectorNoAlias leaves.toGemvLeaves machine site arguments) ∅
      (arguments.directValue (R := R)) := by
  have ends : ∀ memory final : Nat → R,
      Phase.Outcomes (executeMatrixVectorNoAlias leaves.toGemvLeaves machine site arguments) memory final →
      final = Core.multiplyMatrixVector leaves.toGemvLeaves machine site arguments.matrix.core arguments.inputVector.core
        arguments.resultVector.core arguments.productScale arguments.resultScale memory := by
    rintro memory final ⟨middle, ran, last⟩
    exact last.trans ran
  by_cases sides : 0 < arguments.rows ∧ 0 < arguments.columns
  · have routine := fun memory : Nat → R => multiply_combines leaves machine site shaped sides.1 sides.2
      arguments.resultVector.core (shaped.result_stride sides.1) memory
    refine ⟨fun memory final ran slot member => ?_, fun memory final ran place _ outside => ?_⟩
    · rw [ends memory final ran, MatrixVectorArguments.directValue, if_pos sides.2]
      exact (routine memory).written slot member
    · rw [ends memory final ran]
      exact (routine memory).kept place outside
  · have idle : ∀ memory final : Nat → R,
        Phase.Outcomes (executeMatrixVectorNoAlias leaves.toGemvLeaves machine site arguments) memory final →
        final = memory := by
      intro memory final ran
      rw [ends memory final ran]
      refine multiply_nothing leaves machine site _ _ _ _ _ memory ?_
      have empty : ¬ (0 < arguments.matrix.rowCount ∧ 0 < arguments.matrix.columnCount) :=
        fun both => sides (arguments.sides_positive.mpr both)
      change arguments.matrix.rowCount ≤ 0 ∨ arguments.matrix.columnCount ≤ 0
      omega
    refine ⟨fun memory final ran slot member => ?_, fun memory final ran place _ _ => by rw [idle memory final ran]⟩
    have some : 0 < arguments.rows := by
      have inside : slot.1 < toUsize arguments.rows := member.2
      simp only [toUsize] at inside
      omega
    rw [idle memory final ran, MatrixVectorArguments.directValue, if_neg (fun several => sides ⟨some, several⟩),
      LawfulElement.parts_whole _ _ member.1]
    rfl

end Direct

section Workspace

variable {R T : Type} [CommRing R] [LinearOrder R] [CommRing T] [Element R T] [LawfulElement R T]
  {arguments : MatrixVectorArguments T} {workspace : Slice} (leaves : ExactGemvLeaves T) (machine : VectorMachine)
  (site : Site)

variable (T) in
def Slice.cells (slice : Slice) (count : Int) : Set Nat := storageCells T slice.start (toUsize count)

variable (T) in
def workspaceElements (workspace : Slice) (count : Int) : Operand Nat :=
  Operand.strided (width T) count 1 (cellsFrom workspace.start)

omit [CommRing R] [LinearOrder R] [CommRing T] [LawfulElement R T] in
theorem workspace_element_hidden {count : Int} (i part : Nat) (inside : i < toUsize count) (small : part < width T) :
    (workspaceElements T workspace count).address i part ∈ workspace.cells T count := by
  have stored : workspace.start + (width T * i + part) ∈ storageCells T workspace.start (toUsize count) :=
    element_stored T inside small
  rw [workspaceElements, unit_strided]
  exact stored

-- What the checks of a call with a workspace leave apart from it.
structure WorkspaceApart (arguments : MatrixVectorArguments T) (workspace : Slice) : Prop where
  result : 0 < arguments.rows → (workspaceView workspace arguments.rows).Apart T arguments.resultVector
  input : 0 < arguments.rows → 0 < arguments.columns → (workspaceView workspace arguments.rows).Apart T arguments.inputVector
  matrix : 0 < arguments.rows → Disjoint (workspace.cells T arguments.rows) (arguments.matrix.storage T)

omit [CommRing R] [LinearOrder R] [CommRing T] [LawfulElement R T] in
theorem workspace_span (workspace : Slice) {count : Int} (some : 0 < count) :
    (workspaceView workspace count).span = toUsize count := by
  change 1 + (toUsize count - 1) * Int.natAbs 1 = toUsize count
  rw [Int.natAbs_one, Nat.mul_one]
  simp only [toUsize]
  omega

omit [CommRing R] [LinearOrder R] [CommRing T] [LawfulElement R T] in
theorem apart_not_hidden {view : VectorView} {count shared : Int} (some : 0 < count)
    (apart : (workspaceView workspace count).Apart T view) (small : shared ≤ view.length) (i part : Nat)
    (inside : i < toUsize shared) (narrow : part < width T) :
    (Operand.strided (width T) shared view.stride (cellsFrom view.values.start)).address i part ∉
      workspace.cells T count := by
  have bounds := element_bounds (T := T) small i part inside narrow
  rw [VectorView.Apart, workspace_span workspace some] at apart
  rintro ⟨lower, upper⟩
  rcases apart with before | behind
  · exact absurd (before.trans bounds.1) (Nat.not_le.mpr upper)
  · exact absurd (bounds.2.trans_le behind) (Nat.not_lt.mpr lower)

omit [LinearOrder R] in
-- The matrix and the input are the same in two memories that only differ in the workspace.
theorem row_product_steady (apart : WorkspaceApart arguments workspace) (rows : 0 < arguments.rows) {memory middle : Nat → R}
    (agree : ∀ place, place ∉ workspace.cells T arguments.rows → middle place = memory place) {length : Int}
    (fit : length ≤ arguments.inputVector.length) (enough : arguments.columns ≤ length) (i : Nat)
    (inside : i < toUsize arguments.rows) :
    arguments.rowProduct middle (Operand.strided (width T) length arguments.inputVector.stride
        (cellsFrom arguments.inputVector.values.start)) i =
      arguments.rowProduct memory (Operand.strided (width T) length arguments.inputVector.stride
        (cellsFrom arguments.inputVector.values.start)) i := by
  refine Finset.sum_congr rfl (fun j member => ?_)
  have small := Finset.mem_range.mp member
  have columns : 0 < arguments.columns := by
    simp only [toUsize] at small
    omega
  have element : (whole ((Operand.strided (width T) length arguments.inputVector.stride
      (cellsFrom arguments.inputVector.values.start)).element middle j) : T) =
      whole ((Operand.strided (width T) length arguments.inputVector.stride
        (cellsFrom arguments.inputVector.values.start)).element memory j) := by
    refine LawfulElement.whole_congr _ _ (fun part narrow => agree _ ?_)
    refine apart_not_hidden rows (apart.input rows columns) fit j part ?_ narrow
    simp only [toUsize] at small ⊢
    omega
  rw [element]
  refine congrArg (· * _) ?_
  have rowBound : (i : Int) < arguments.matrix.effectiveRowCount := by
    have known : i < toUsize arguments.matrix.effectiveRowCount := inside
    simp only [toUsize] at known
    omega
  have columnBound : (j : Int) < arguments.matrix.effectiveColumnCount := by
    have known : j < toUsize arguments.matrix.effectiveColumnCount := small
    simp only [toUsize] at known
    omega
  exact operand_entry_agree (fun place stored => agree place (fun hidden =>
    Set.disjoint_left.mp (apart.matrix rows) hidden stored)) rowBound columnBound

omit [LinearOrder R] [LawfulElement R T] in
theorem workspace_runs {memory final : Nat → R}
    (ran : Phase.Outcomes (executeMatrixVectorWithWorkspace leaves.toGemvLeaves machine site arguments workspace
      arguments.rows) memory final) :
    ∃ middle, (isZero arguments.resultScale = true ∧ middle = memory ∨
        isZero arguments.resultScale = false ∧ (Core.copyVector T machine (0 :: site) arguments.resultVector.core
          (workspaceVector workspace arguments.rows)).Outcome memory () middle) ∧
      (Core.copyVector T machine (2 :: site) (workspaceVector workspace arguments.rows)
        (arguments.resultVector.shared arguments.rows)).Outcome
        (Core.multiplyMatrixVector leaves.toGemvLeaves machine (1 :: site) arguments.matrix.core arguments.inputVector.core
          (workspaceVector workspace arguments.rows) arguments.productScale arguments.resultScale middle) () final := by
  rw [executeMatrixVectorWithWorkspace] at ran
  cases nothing : isZero arguments.resultScale with
  | true =>
    rw [nothing, if_pos rfl] at ran
    obtain ⟨product, multiplied, copied, out, last⟩ := ran
    refine ⟨memory, .inl ⟨rfl, rfl⟩, ?_⟩
    rw [← show product = _ from multiplied, last]
    exact out
  | false =>
    rw [nothing, if_neg Bool.false_ne_true] at ran
    obtain ⟨middle, copiedIn, product, multiplied, copied, out, last⟩ := ran
    refine ⟨middle, .inr ⟨rfl, copiedIn⟩, ?_⟩
    rw [← show product = _ from multiplied, last]
    exact out

omit [LinearOrder R] in
theorem copy_in (shaped : arguments.Shaped) (apart : WorkspaceApart arguments workspace) (rows : 0 < arguments.rows)
    {memory middle : Nat → R}
    (ran : (Core.copyVector T machine site arguments.resultVector.core
      (workspaceVector workspace arguments.rows)).Outcome memory () middle) :
    Overwrites (slots (width T) (Set.Iio (toUsize arguments.rows))) (slotAddress (workspaceElements T workspace arguments.rows))
      (pairValue (fun x _ => x) arguments.resultElements (workspaceElements T workspace arguments.rows) memory) memory
      middle := by
  have disjoint := (apart.result rows).swap.disjoint shaped.rows_fit (Int.le_refl arguments.rows)
  have shared : min arguments.resultVector.length arguments.rows = arguments.rows := min_eq_right shaped.rows_fit
  have routine := copy_rewrites (R := R) machine site (shaped.result_stride rows) one_ne_zero disjoint.aligned
  simp only [Core.copyVector, Core.sharedLength, VectorView.core, workspaceVector, shared] at ran
  exact routine memory () middle ran

omit [LinearOrder R] in
theorem copy_out (shaped : arguments.Shaped) (apart : WorkspaceApart arguments workspace) (rows : 0 < arguments.rows)
    {memory final : Nat → R}
    (ran : (Core.copyVector T machine site (workspaceVector workspace arguments.rows)
      (arguments.resultVector.shared arguments.rows)).Outcome memory () final) :
    Overwrites (slots (width T) (Set.Iio (toUsize arguments.rows))) (slotAddress arguments.resultElements)
      (pairValue (fun x _ => x) (workspaceElements T workspace arguments.rows) arguments.resultElements memory) memory
      final := by
  have disjoint := (apart.result rows).disjoint (Int.le_refl arguments.rows) shaped.rows_fit
  have routine := copy_rewrites (R := R) machine site one_ne_zero (shaped.result_stride rows) disjoint.aligned
  simp only [Core.copyVector, Core.sharedLength, VectorView.shared, workspaceVector, min_self] at ran
  exact routine memory () final ran

-- With no columns a zero result scale leaves what the workspace held.
def MatrixVectorArguments.workspaceValue (arguments : MatrixVectorArguments T) (workspace : Slice) (memory : Nat → R)
    (i : Nat) : T :=
  if 0 < arguments.columns then arguments.combined memory arguments.inputElements arguments.resultElements i
  else if isZero arguments.resultScale then whole ((workspaceElements T workspace arguments.rows).element memory i)
  else whole (arguments.resultElements.element memory i)

omit [LinearOrder R] in
theorem workspace_leaves (shaped : arguments.Shaped) (apart : WorkspaceApart arguments workspace)
    (rows : 0 < arguments.rows) :
    arguments.Leaves
      (executeMatrixVectorWithWorkspace leaves.toGemvLeaves machine site arguments workspace arguments.rows)
      (workspace.cells T arguments.rows) (arguments.workspaceValue (R := R) workspace) := by
  have hiddenSlot : ∀ slot, slot ∈ slots (width T) (Set.Iio (toUsize arguments.rows)) →
      slotAddress (workspaceElements T workspace arguments.rows) slot ∈ workspace.cells T arguments.rows :=
    fun slot member => workspace_element_hidden slot.1 slot.2 member.2 member.1
  have pieces : ∀ memory final : Nat → R, Phase.Outcomes
      (executeMatrixVectorWithWorkspace leaves.toGemvLeaves machine site arguments workspace arguments.rows) memory final →
      (∀ slot, slot ∈ slots (width T) (Set.Iio (toUsize arguments.rows)) →
        final (slotAddress arguments.resultElements slot) = parts (arguments.workspaceValue workspace memory slot.1) slot.2) ∧
      ∀ place, place ∉ workspace.cells T arguments.rows →
        (∀ slot, slot ∈ slots (width T) (Set.Iio (toUsize arguments.rows)) →
          slotAddress arguments.resultElements slot ≠ place) → final place = memory place := by
    intro memory final ran
    obtain ⟨middle, before, out⟩ := workspace_runs leaves machine site ran
    have late := copy_out machine (2 :: site) shaped apart rows out
    have early : ∀ place, place ∉ workspace.cells T arguments.rows → middle place = memory place := by
      intro place seen
      rcases before with ⟨_, same⟩ | ⟨_, copied⟩
      · rw [same]
      · exact (copy_in machine (0 :: site) shaped apart rows copied).kept place
          (fun slot member here => seen (here ▸ hiddenSlot slot member))
    have held : isZero arguments.resultScale = false → ∀ i, i < toUsize arguments.rows →
        (whole ((workspaceElements T workspace arguments.rows).element middle i) : T) =
          whole (arguments.resultElements.element memory i) := by
      intro nonzero i inside
      rcases before with ⟨zero, _⟩ | ⟨_, copied⟩
      · exact Bool.noConfusion (nonzero.symm.trans zero)
      · exact LawfulElement.whole_congr _ _ (fun part small =>
          (copy_in machine (0 :: site) shaped apart rows copied).written (i, part) ⟨small, inside⟩)
    by_cases columns : 0 < arguments.columns
    · have product := multiply_combines leaves machine (1 :: site) shaped rows columns
        (workspaceVector workspace arguments.rows) one_ne_zero middle
      refine ⟨fun slot member => ?_, fun place seen outside => ?_⟩
      · have written := product.written slot member
        have result := late.written slot member
        rw [result, MatrixVectorArguments.workspaceValue, if_pos columns]
        refine written.trans (congrArg (fun value : T => parts value slot.2) ?_)
        rw [MatrixVectorArguments.combined, MatrixVectorArguments.combined]
        refine congrArg₂ (· + ·) (congrArg _ (row_product_steady apart rows early shaped.columns_fit (Int.le_refl _) slot.1
          member.2)) ?_
        cases nothing : isZero arguments.resultScale with
        | true => rw [(LawfulScalar.isZero_iff _).mp nothing, zero_mul, zero_mul]
        | false => exact congrArg _ (held nothing slot.1 member.2)
      · rw [late.kept place outside, product.kept place (fun slot member here => seen (here ▸ hiddenSlot slot member)),
          early place seen]
    · have same : Core.multiplyMatrixVector leaves.toGemvLeaves machine (1 :: site) arguments.matrix.core
          arguments.inputVector.core (workspaceVector workspace arguments.rows) arguments.productScale arguments.resultScale
          middle = middle := by
        refine multiply_nothing leaves machine (1 :: site) _ _ _ _ _ middle ?_
        have empty : ¬ (0 < arguments.matrix.rowCount ∧ 0 < arguments.matrix.columnCount) :=
          fun both => columns (arguments.sides_positive.mpr both).2
        change arguments.matrix.rowCount ≤ 0 ∨ arguments.matrix.columnCount ≤ 0
        omega
      rw [same] at late
      refine ⟨fun slot member => ?_, fun place seen outside => by rw [late.kept place outside, early place seen]⟩
      rw [late.written slot member, MatrixVectorArguments.workspaceValue, if_neg columns]
      cases nothing : isZero arguments.resultScale with
      | true =>
        rw [if_pos rfl, LawfulElement.parts_whole _ _ member.1]
        rcases before with ⟨_, still⟩ | ⟨nonzero, _⟩
        · rw [still]
          rfl
        · exact Bool.noConfusion (nonzero.symm.trans nothing)
      | false =>
        rw [if_neg Bool.false_ne_true, ← held nothing slot.1 member.2, LawfulElement.parts_whole _ _ member.1]
        rfl
  exact ⟨fun memory final ran => (pieces memory final ran).1, fun memory final ran => (pieces memory final ran).2⟩

end Workspace

/- The calls as they are accepted. -/
section Calls

variable {R T : Type} [CommRing R] [LinearOrder R] [CommRing T] [Element R T] [LawfulElement R T]
  {arguments : MatrixVectorArguments T} {workspace : Slice} {phases : List (Phase R)} {leaves : ExactGemvLeaves T}
  {machine : VectorMachine} {site : Site}

omit [CommRing R] [LinearOrder R] [LawfulElement R T] in
theorem direct_accepted
    (accepted : matrixVectorMultiply true leaves.toGemvLeaves machine site arguments = .ok phases) :
    arguments.Shaped ∧ phases = executeMatrixVectorNoAlias leaves.toGemvLeaves machine site arguments := by
  obtain ⟨_, _, accepted⟩ := bind_ok accepted
  obtain ⟨_, input, accepted⟩ := bind_ok accepted
  obtain ⟨_, result, accepted⟩ := bind_ok accepted
  obtain ⟨_, shapes, accepted⟩ := bind_ok accepted
  obtain ⟨_, _, accepted⟩ := bind_ok accepted
  obtain ⟨_, _, accepted⟩ := bind_ok accepted
  exact ⟨shaped_of_checks input result shapes, (Except.ok.inj accepted).symm⟩

omit [LinearOrder R] in
theorem workspace_apart {view : VectorView} (shaped : arguments.Shaped)
    (sized : view = workspaceView workspace arguments.rows)
    (accepted : ensureWorkspaceApart T true view arguments.inputVector arguments.resultVector
      arguments.matrix.toMatrixView = .ok ()) : WorkspaceApart arguments workspace := by
  subst sized
  rw [ensureWorkspaceApart, Bool.not_true, if_neg Bool.false_ne_true] at accepted
  obtain ⟨_, _, accepted⟩ := bind_ok accepted
  obtain ⟨_, input, accepted⟩ := bind_ok accepted
  obtain ⟨_, result, matrix⟩ := bind_ok accepted
  have fitRows := shaped.rows_fit
  have fitColumns := shaped.columns_fit
  refine ⟨fun rows => no_overlap result rows (by omega), fun rows columns => no_overlap input rows (by omega),
    fun rows => ?_⟩
  have clear := vector_matrix_disjoint matrix rows
  rw [workspace_span workspace rows] at clear
  exact clear

omit [LinearOrder R] in
theorem workspace_accepted
    (accepted : matrixVectorMultiplyWithWorkspace true leaves.toGemvLeaves machine site arguments workspace = .ok phases) :
    arguments.Shaped ∧ WorkspaceApart arguments workspace ∧
      phases = executeMatrixVectorWithWorkspace leaves.toGemvLeaves machine site arguments workspace arguments.rows := by
  obtain ⟨_, _, accepted⟩ := bind_ok accepted
  obtain ⟨_, input, accepted⟩ := bind_ok accepted
  obtain ⟨_, result, accepted⟩ := bind_ok accepted
  obtain ⟨length, shapes, accepted⟩ := bind_ok accepted
  obtain ⟨required, _, accepted⟩ := bind_ok accepted
  obtain ⟨_, _, accepted⟩ := bind_ok accepted
  obtain ⟨_, apart, accepted⟩ := bind_ok accepted
  have shaped := shaped_of_checks input result shapes
  have rows : length = arguments.rows := (shapes_accepted shapes).1
  subst rows
  exact ⟨shaped, workspace_apart shaped rfl apart, (Except.ok.inj accepted).symm⟩

omit [LinearOrder R] in
theorem workspace_idle (empty : arguments.rows ≤ 0) (memory final : Nat → R)
    (ran : Phase.Outcomes (executeMatrixVectorWithWorkspace leaves.toGemvLeaves machine site arguments workspace
      arguments.rows) memory final) : final = memory := by
  obtain ⟨middle, before, out⟩ := workspace_runs leaves machine site ran
  have nothing : ∀ source destination : Core.Vector, min source.length destination.length ≤ 0 →
      ∀ place (first last : Nat → R), (Core.copyVector T machine place source destination).Outcome first () last →
        last = first := by
    intro source destination short place first last copied
    rw [Core.copyVector, Core.sharedLength, LevelOne.copy, if_pos (.inl short)] at copied
    exact (congrArg Prod.snd (show ((), first) = ((), last) from copied)).symm
  have early : middle = memory := by
    rcases before with ⟨_, same⟩ | ⟨_, copied⟩
    · exact same
    · exact nothing _ _ ((min_le_right _ _).trans empty) _ _ _ copied
  rw [nothing _ _ ((min_le_left _ _).trans empty) _ _ _ out, early]
  refine multiply_nothing leaves machine (1 :: site) _ _ _ _ _ memory ?_
  have sides : ¬ (0 < arguments.matrix.rowCount ∧ 0 < arguments.matrix.columnCount) :=
    fun both => absurd (arguments.sides_positive.mpr both).1 (Int.not_lt.mpr empty)
  change arguments.matrix.rowCount ≤ 0 ∨ arguments.matrix.columnCount ≤ 0
  omega

end Calls

end Zynum.Api
