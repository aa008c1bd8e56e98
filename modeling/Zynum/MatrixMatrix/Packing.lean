import Zynum.MatrixMatrix.Routine
import Zynum.MatrixVector.Access

set_option autoImplicit false

/- The block packers of kernels/shared/matrix_matrix/structured_packing.zig. -/
namespace Zynum

open ArrayProgram

section Packers

variable {T : Type} [Scalar T]

def packGeneralOpBlock (mode : TransposeMode) (source : Mem T) (ld : Int) (row0 col0 rows cols : Nat) (buffer : Mem T) :
    Mem T :=
  if rows = 0 ∨ cols = 0 then buffer
  else if mode = .noTrans then
    loop cols (fun j buffer => loop rows (fun i buffer =>
      Function.update buffer (i + j * rows) (source (matIndex ld row0 (col0 + j) + i))) buffer) buffer
  else
    loop cols (fun j buffer => loop rows (fun i buffer =>
      let item := source (matIndex ld (col0 + j) (row0 + i))
      Function.update buffer (i + j * rows) (if mode = .conjTrans then conj item else item)) buffer) buffer

def packedSymmetricValue (triangle : Triangle) (hermitian : Bool) (source : Mem T) (ld : Int) (globalRow globalCol : Nat) : T :=
  let direct := stored triangle globalRow globalCol
  let value := if direct then source (matIndex ld globalRow globalCol) else source (matIndex ld globalCol globalRow)
  let value := if hermitian && !direct then conj value else value
  if hermitian ∧ globalRow = globalCol then realOnly value else value

def packSymmetricBlock (triangle : Triangle) (hermitian : Bool) (source : Mem T) (ld : Int) (row0 col0 rows cols : Nat)
    (buffer : Mem T) : Mem T :=
  loop cols (fun j buffer => loop rows (fun i buffer =>
    Function.update buffer (i + j * rows)
      (packedSymmetricValue triangle hermitian source ld (row0 + i) (col0 + j))) buffer) buffer

-- Unit diagonals are synthesized before touching source storage.
def packedTriangularValue [Zero T] [One T] (triangle : Triangle) (mode : TransposeMode) (diagonal : Diagonal)
    (source : Mem T) (ld : Int) (opRow opCol : Nat) : T :=
  let sourceRow := if mode = .noTrans then opRow else opCol
  let sourceCol := if mode = .noTrans then opCol else opRow
  let kept := stored triangle sourceRow sourceCol
  let value := if !kept then 0 else if sourceRow = sourceCol ∧ diagonal = .unit then 1
    else source (matIndex ld sourceRow sourceCol)
  if kept ∧ mode = .conjTrans then conj value else value

def packTriangularOpBlock [Zero T] [One T] (triangle : Triangle) (mode : TransposeMode) (diagonal : Diagonal)
    (source : Mem T) (ld : Int) (row0 col0 rows cols : Nat) (buffer : Mem T) : Mem T :=
  loop cols (fun j buffer => loop rows (fun i buffer =>
    Function.update buffer (i + j * rows)
      (packedTriangularValue triangle mode diagonal source ld (row0 + i) (col0 + j))) buffer) buffer

def effectiveTriangle (triangle : Triangle) (mode : TransposeMode) : Triangle :=
  if mode = .noTrans then triangle else if triangle = .upper then .lower else .upper

omit [Scalar T] in
theorem block_fill_updates (rows cols : Nat) (value : Nat → Nat → T) :
    Updates (matrixCells rows cols) (cellAddress rows) (fun cell _ => value cell.1 cell.2)
      (loop cols (fun j buffer => loop rows (fun i buffer =>
        Function.update buffer (i + j * rows) (value i j)) buffer)) := by
  have filled := updates_grid rows cols (cellAddress (rows : Int)) (fun cell _ => value cell.1 cell.2)
    (matrix_cells_injective rows cols rows (by rw [toUsize, Int.toNat_natCast]))
  simp only [cellAddress, mat_index_natural] at filled
  exact filled

theorem packed_symmetric_value (triangle : Triangle) (hermitian : Bool) (source : Mem T) (ld : Int) (row col : Nat) :
    packedSymmetricValue triangle hermitian source ld row col = symValue triangle source ld row col hermitian := by
  simp only [packedSymmetricValue, symValue, ← stored_iff]
  cases inside : stored triangle row col with
  | true =>
    rw [if_pos rfl, if_pos rfl]
    simp only [Bool.not_true, Bool.and_false, Bool.false_eq_true, if_false]
  | false =>
    have apart : row ≠ col := by
      rintro rfl
      rw [stored_diagonal] at inside
      cases inside
    rw [if_neg Bool.false_ne_true, if_neg (fun both => apart both.2), if_neg Bool.false_ne_true]
    simp only [Bool.not_false, Bool.and_true]

theorem pack_symmetric_block_updates (triangle : Triangle) (hermitian : Bool) (source : Mem T) (ld : Int)
    (row0 col0 rows cols : Nat) :
    Updates (matrixCells rows cols) (cellAddress rows)
      (fun cell _ => symValue triangle source ld (row0 + cell.1) (col0 + cell.2) hermitian)
      (packSymmetricBlock triangle hermitian source ld row0 col0 rows cols) :=
  (block_fill_updates rows cols (fun i j => packedSymmetricValue triangle hermitian source ld (row0 + i) (col0 + j))).congr rfl
    (fun _ _ _ => packed_symmetric_value _ _ _ _ _ _)

theorem pack_symmetric_block_entry (triangle : Triangle) (hermitian : Bool) (source : Mem T) (ld : Int)
    (row0 col0 rows cols : Nat) (buffer : Mem T) (i j : Nat) (inRows : i < rows) (inColumns : j < cols) :
    packSymmetricBlock triangle hermitian source ld row0 col0 rows cols buffer (matIndex rows i j) =
      symValue triangle source ld (row0 + i) (col0 + j) hermitian :=
  (pack_symmetric_block_updates triangle hermitian source ld row0 col0 rows cols).written buffer (i, j) ⟨inRows, inColumns⟩

theorem pack_general_op_block_entry (mode : TransposeMode) (source : Mem T) (ld : Int) (row0 col0 rows cols : Nat)
    (buffer : Mem T) (i j : Nat) (inRows : i < rows) (inColumns : j < cols) :
    packGeneralOpBlock mode source ld row0 col0 rows cols buffer (matIndex rows i j) =
      opEntry mode (denseEntry source ld) (row0 + i) (col0 + j) := by
  have some : ¬ (rows = 0 ∨ cols = 0) := by omega
  rw [packGeneralOpBlock, if_neg some]
  by_cases straight : mode = .noTrans
  · rw [if_pos straight]
    have filled := (block_fill_updates rows cols (fun i j => source (matIndex ld row0 (col0 + j) + i))).written buffer (i, j)
      ⟨inRows, inColumns⟩
    refine filled.trans ?_
    subst straight
    simp only [opEntry, denseEntry, matIndex]
    congr 1
    omega
  · rw [if_neg straight]
    have filled := (block_fill_updates rows cols (fun i j =>
      if mode = .conjTrans then conj (source (matIndex ld (col0 + j) (row0 + i))) else source
      (matIndex ld (col0 + j) (row0 + i)))).written
      buffer (i, j) ⟨inRows, inColumns⟩
    refine filled.trans ?_
    cases mode with
    | noTrans => exact absurd rfl straight
    | trans => rfl
    | conjTrans => rfl

end Packers

section TriangularPackers

variable {T : Type} [CommRing T] [Scalar T] [LawfulScalar T]

theorem packed_triangular_value (triangle : Triangle) (mode : TransposeMode) (diagonal : Diagonal) (source : Mem T)
    (ld : Int) (row col : Nat) :
    packedTriangularValue triangle mode diagonal source ld row col = triValue triangle diagonal mode source ld row col := by
  simp only [packedTriangularValue, triValue]
  generalize (if mode = .noTrans then row else col) = ar
  generalize (if mode = .noTrans then col else row) = ac
  by_cases unit : ar = ac ∧ diagonal = .unit
  · obtain ⟨rfl, rfl⟩ := unit
    rw [stored_diagonal]
    simp only [Bool.not_true, Bool.false_eq_true, if_false, true_and, if_true, and_self]
    split
    · exact LawfulScalar.conj_one
    · rfl
  · rw [if_neg unit]
    cases triangle with
    | upper =>
      by_cases kept : ar ≤ ac
      · simp only [stored, kept, decide_true, Bool.not_true, Bool.false_eq_true, if_false, unit, true_and, reduceCtorEq,
          false_and, Nat.not_lt.mpr kept]
      · simp only [stored, kept, decide_false, Bool.not_false, if_true, Bool.false_eq_true, false_and, if_false, true_and, unit,
          Nat.lt_of_not_le kept]
    | lower =>
      by_cases kept : ar ≥ ac
      · simp only [stored, kept, decide_true, Bool.not_true, Bool.false_eq_true, if_false, unit, true_and, reduceCtorEq,
          false_and, Nat.not_lt.mpr kept]
      · simp only [stored, kept, decide_false, Bool.not_false, if_true, Bool.false_eq_true, false_and, if_false, true_and, unit,
          reduceCtorEq, Nat.lt_of_not_le kept]

theorem pack_triangular_op_block_entry (triangle : Triangle) (mode : TransposeMode) (diagonal : Diagonal) (source : Mem T)
    (ld : Int) (row0 col0 rows cols : Nat) (buffer : Mem T) (i j : Nat) (inRows : i < rows) (inColumns : j < cols) :
    packTriangularOpBlock triangle mode diagonal source ld row0 col0 rows cols buffer (matIndex rows i j) =
      triValue triangle diagonal mode source ld (row0 + i) (col0 + j) :=
  ((block_fill_updates rows cols (fun i j =>
    packedTriangularValue triangle mode diagonal source ld (row0 + i) (col0 + j))).written buffer (i, j)
      ⟨inRows, inColumns⟩).trans (packed_triangular_value _ _ _ _ _ _ _)

end TriangularPackers

end Zynum
