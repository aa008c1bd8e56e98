import Zynum.Api.MatrixViews
import Zynum.Api.ViewsExact
import Zynum.MatrixVector.GeneralExact
import Zynum.Vector.LevelOneExact

set_option autoImplicit false

/- The storage of accepted matrix views, and an array of elements in the memory it lies in. -/
namespace Zynum.Api

open ArrayProgram
open Element (width parts whole)
open LevelOne

namespace Phase

variable {R : Type}

theorem outcomes_exist (phases : List (Phase R)) (memory : Nat → R) : ∃ final, Outcomes phases memory final := by
  induction phases generalizing memory with
  | nil => exact ⟨memory, rfl⟩
  | cons phase rest ih =>
    have first : ∃ middle, phase.Outcome memory middle := by
      cases phase with
      | routine execution =>
        obtain ⟨_, middle, ends⟩ := execution.outcome_exists memory
        exact ⟨middle, ends⟩
      | product run => exact ⟨run memory, rfl⟩
    obtain ⟨middle, ends⟩ := first
    obtain ⟨final, later⟩ := ih middle
    exact ⟨final, middle, ends, later⟩

end Phase

section Storage

variable {R : Type} (T : Type) [Element R T]

-- The cells of count elements.
def storageCells (start count : Nat) : Set Nat := {place | start ≤ place ∧ place < start + width T * count}

theorem element_stored {start count i part : Nat} (inside : i < count) (small : part < width T) :
    start + (width T * i + part) ∈ storageCells T start count := by
  have row : width T * (i + 1) ≤ width T * count := Nat.mul_le_mul_left _ inside
  rw [Nat.mul_succ] at row
  change start ≤ start + (width T * i + part) ∧ start + (width T * i + part) < start + width T * count
  omega

-- What requiredMatrixStorageLength answers.
def MatrixView.required (view : MatrixView) : Nat :=
  if view.rowCount ≤ 0 ∨ view.columnCount ≤ 0 then 0
  else toUsize view.rowCount + toUsize (view.columnCount - 1) * toUsize view.leadingDimension

def MatrixView.storage (view : MatrixView) : Set Nat := storageCells T view.values.start view.required

theorem required_matrix {view : MatrixView} {required : Nat}
    (accepted : requiredMatrixStorageLength view.rowCount view.columnCount view.leadingDimension = .ok required) :
    0 ≤ view.rowCount ∧ 0 ≤ view.columnCount ∧ required = view.required ∧
      (0 < view.rowCount → 0 < view.columnCount → 0 < view.leadingDimension ∧ view.rowCount ≤ view.leadingDimension) := by
  rw [requiredMatrixStorageLength] at accepted
  split at accepted
  · cases accepted
  split at accepted
  · refine ⟨by omega, by omega, ?_, by omega⟩
    rw [MatrixView.required, if_pos (by omega), Except.ok.inj accepted]
  split at accepted
  · cases accepted
  · refine ⟨by omega, by omega, ?_, fun _ _ => by omega⟩
    rw [MatrixView.required, if_neg (by omega), Except.ok.inj accepted]

theorem checked_matrix {view : MatrixView} (accepted : view.check true = .ok ()) :
    0 ≤ view.rowCount ∧ 0 ≤ view.columnCount ∧ view.required ≤ view.values.len ∧
      (0 < view.rowCount → 0 < view.columnCount → 0 < view.leadingDimension ∧ view.rowCount ≤ view.leadingDimension) := by
  rw [MatrixView.check, validateMatrixStorage] at accepted
  obtain ⟨required, known, capacity⟩ := bind_ok accepted
  obtain ⟨rows, columns, same, leading⟩ := required_matrix known
  exact ⟨rows, columns, same ▸ ensure_capacity capacity, leading⟩

theorem entry_inside {view : MatrixView} {row col : Nat} (rows : (row : Int) < view.rowCount)
    (columns : (col : Int) < view.columnCount) : matIndex view.leadingDimension row col < view.required := by
  have rest : col ≤ toUsize (view.columnCount - 1) := by
    simp only [toUsize]
    omega
  have grown : col * toUsize view.leadingDimension ≤ toUsize (view.columnCount - 1) * toUsize view.leadingDimension :=
    Nat.mul_le_mul_right _ rest
  rw [matIndex, MatrixView.required, if_neg (by omega)]
  simp only [toUsize] at grown ⊢
  omega

variable {T}

theorem matrix_range {view : MatrixView} {range : ByteRange} (accepted : matrixRange T view = .ok range) :
    range = ⟨view.values.start * realBytes (Scalar.precision T),
      view.values.start * realBytes (Scalar.precision T) + view.required * elementBytes T⟩ := by
  obtain ⟨required, known, ranged⟩ := bind_ok accepted
  have same := (required_matrix known).2.2.1
  rw [byteRange] at ranged
  split at ranged
  · cases ranged
  split at ranged
  · cases ranged
  · rw [← Except.ok.inj ranged, same]

theorem no_cells (start : Nat) : storageCells T start 0 = ∅ := by
  refine Set.eq_empty_of_forall_notMem (fun place member => ?_)
  have upper := member.2
  rw [Nat.mul_zero, Nat.add_zero] at upper
  exact absurd member.1 (Nat.not_le.mpr upper)

end Storage

section Apart

variable {R T : Type} [CommRing R] [CommRing T] [Element R T] [LawfulElement R T]

theorem ranges_disjoint {start start' count count' : Nat}
    (clear : ¬ ByteRange.overlap
      ⟨start * realBytes (Scalar.precision T), start * realBytes (Scalar.precision T) + count * elementBytes T⟩
      ⟨start' * realBytes (Scalar.precision T), start' * realBytes (Scalar.precision T) + count' * elementBytes T⟩) :
    Disjoint (storageCells T start count) (storageCells T start' count') := by
  rcases Nat.eq_zero_or_pos count with rfl | some
  · rw [no_cells]
    exact Set.empty_disjoint _
  rcases Nat.eq_zero_or_pos count' with rfl | some'
  · rw [no_cells]
    exact Set.disjoint_empty _
  refine Set.disjoint_left.mpr (fun place inside inside' => ?_)
  rcases ranges_leave_apart some some' clear with before | behind
  · exact absurd (before.trans inside'.1) (Nat.not_le.mpr inside.2)
  · exact absurd (behind.trans inside.1) (Nat.not_le.mpr inside'.2)

theorem vector_matrix_disjoint {vector : VectorView} {matrix : MatrixView}
    (accepted : ensureNoVectorMatrixOverlap T true vector matrix = .ok ()) (several : 0 < vector.length) :
    Disjoint (storageCells T vector.values.start vector.span) (matrix.storage T) := by
  rw [ensureNoVectorMatrixOverlap, Bool.not_true, if_neg Bool.false_ne_true] at accepted
  obtain ⟨left, known, accepted⟩ := bind_ok accepted
  obtain ⟨right, known', accepted⟩ := bind_ok accepted
  rw [vector_range known several, matrix_range known'] at accepted
  split at accepted
  · cases accepted
  · rename_i clear
    exact ranges_disjoint clear

theorem matrices_disjoint {first second : MatrixView} (accepted : ensureNoMatrixOverlap T true first second = .ok ()) :
    Disjoint (first.storage T) (second.storage T) := by
  rw [ensureNoMatrixOverlap, Bool.not_true, if_neg Bool.false_ne_true] at accepted
  obtain ⟨left, known, accepted⟩ := bind_ok accepted
  obtain ⟨right, known', accepted⟩ := bind_ok accepted
  rw [matrix_range known, matrix_range known'] at accepted
  split at accepted
  · cases accepted
  · rename_i clear
    exact ranges_disjoint clear

end Apart

section Stored

variable {R T : Type} [CommRing R] [CommRing T] [Element R T] [LawfulElement R T]

theorem store_elements_at (start : Nat) (values : Mem T) (memory : Nat → R) (i part : Nat) (small : part < width T) :
    storeElements start values memory (start + (width T * i + part)) = parts (values i) part := by
  have some : 0 < width T := LawfulElement.width_pos
  rw [storeElements, if_neg (by omega), Nat.add_sub_cancel_left, Nat.mul_add_div some, Nat.div_eq_of_lt small, Nat.add_zero,
    Nat.mul_add_mod, Nat.mod_eq_of_lt small]

theorem store_elements_kept {start : Nat} {values : Mem T} {memory : Nat → R} {place : Nat}
    (same : start ≤ place → values ((place - start) / width T) = elementsAt T start memory ((place - start) / width T)) :
    storeElements start values memory place = memory place := by
  have some : 0 < width T := LawfulElement.width_pos
  rw [storeElements]
  split
  · rfl
  · rename_i behind
    have position : start + (width T * ((place - start) / width T) + (place - start) % width T) = place := by
      rw [Nat.div_add_mod]
      omega
    rw [same (Nat.not_lt.mp behind), elementsAt, LawfulElement.parts_whole _ _ (Nat.mod_lt _ some), position]

theorem store_elements_same (start : Nat) (memory : Nat → R) :
    storeElements start (elementsAt T start memory) memory = memory :=
  funext fun _ => store_elements_kept (fun _ => rfl)

-- A run over the elements of an array overwrites their cells.
theorem store_overwrites {ι : Type} {cells : Set ι} {address : ι → Nat} {value : ι → T → T} {run : Mem T → Mem T}
    (updates : Updates cells address value run) (start : Nat) (memory : Nat → R) :
    Overwrites {slot : ι × Nat | slot.2 < width T ∧ slot.1 ∈ cells}
      (fun slot => start + (width T * address slot.1 + slot.2))
      (fun slot => parts (value slot.1 (elementsAt T start memory (address slot.1))) slot.2) memory
      (storeElements start (run (elementsAt T start memory)) memory) := by
  constructor
  · rintro ⟨i, part⟩ ⟨small, inside⟩
    rw [store_elements_at _ _ _ _ _ small, updates.written _ i inside]
  · intro place outside
    refine store_elements_kept (fun behind => updates.kept _ _ (fun i inside same => ?_))
    have some : 0 < width T := LawfulElement.width_pos
    refine outside (i, (place - start) % width T) ⟨Nat.mod_lt _ some, inside⟩ ?_
    change start + (width T * address i + (place - start) % width T) = place
    rw [same, Nat.div_add_mod]
    omega

theorem element_agree {start count i : Nat} {memory memory' : Nat → R}
    (agree : ∀ place, place ∈ storageCells T start count → memory place = memory' place) (inside : i < count) :
    elementsAt T start memory i = elementsAt T start memory' i :=
  LawfulElement.whole_congr _ _ (fun _ small => agree _ (element_stored T inside small))

-- An entry of op(matrix) only depends on the storage of the view.
theorem operand_entry_agree {view : OperandView} {memory memory' : Nat → R}
    (agree : ∀ place, place ∈ view.storage T → memory place = memory' place) {i j : Nat}
    (rows : (i : Int) < view.effectiveRowCount) (columns : (j : Int) < view.effectiveColumnCount) :
    opEntry (toCoreTranspose view.operation) (denseEntry (elementsAt T view.values.start memory) view.leadingDimension) i j =
      opEntry (toCoreTranspose view.operation) (denseEntry (elementsAt T view.values.start memory') view.leadingDimension)
        i j := by
  have entry : ∀ row col : Nat, (row : Int) < view.rowCount → (col : Int) < view.columnCount →
      denseEntry (elementsAt T view.values.start memory) view.leadingDimension row col =
        denseEntry (elementsAt T view.values.start memory') view.leadingDimension row col :=
    fun row col inRows inColumns => element_agree agree (entry_inside inRows inColumns)
  rw [OperandView.effectiveRowCount] at rows
  rw [OperandView.effectiveColumnCount] at columns
  cases kind : view.operation with
  | normal =>
    rw [kind] at rows columns
    exact entry i j rows columns
  | transposed =>
    rw [kind] at rows columns
    exact entry j i columns rows
  | adjoint =>
    rw [kind] at rows columns
    exact congrArg conj (entry j i columns rows)

end Stored

end Zynum.Api
