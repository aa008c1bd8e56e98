import Zynum.MatrixMatrix.SymmetricExact
import Zynum.MatrixMatrix.Triangular
import Zynum.MatrixVector.TriangularExact

set_option autoImplicit false

/- Both sides of a triangular operand in the same coordinates: place d of the
   triangular dimension and right-hand side r. A product on the right of B is one
   with the transposed matrix on the left. -/
namespace Zynum

open ArrayProgram

section Addresses

def sideAddress (side : OperandSide) (ld : Int) (cell : Nat × Nat) : Nat := sideIndex side ld cell.1 cell.2

def sideMatrix {T : Type} (side : OperandSide) (M : Nat → Nat → T) (d p : Nat) : T :=
  match side with
  | .left => M d p
  | .right => M p d

def sideCell (side : OperandSide) (cell : Nat × Nat) : Nat × Nat :=
  match side with
  | .left => cell
  | .right => (cell.2, cell.1)

variable (side : OperandSide)

theorem side_cell_twice (cell : Nat × Nat) : sideCell side (sideCell side cell) = cell := by
  cases side <;> rfl

theorem side_address_cell (ld : Int) (cell : Nat × Nat) : sideAddress side ld cell = cellAddress ld (sideCell side cell) := by
  cases side <;> rfl

theorem side_row (cell : Nat × Nat) : (sideCell side cell).1 = sideRows side cell.1 cell.2 := by
  cases side <;> rfl

theorem side_address_offset (ld : Int) (d0 r0 d r : Nat) :
    sideAddress side ld (d0, r0) + sideAddress side ld (d, r) = sideAddress side ld (d0 + d, r0 + r) := by
  cases side with
  | left => exact mat_index_offset ld d0 r0 d r
  | right => exact mat_index_offset ld r0 d0 r d

theorem side_injective (ld : Int) (m : Nat) (bound : m ≤ toUsize ld) :
    Set.InjOn (sideAddress side ld) {cell | sideRows side cell.1 cell.2 < m} := by
  intro first inFirst second inSecond same
  rw [side_address_cell, side_address_cell] at same
  have cells := cell_address_injective ld m bound (show (sideCell side first).1 < m by rw [side_row]; exact inFirst)
    (show (sideCell side second).1 < m by rw [side_row]; exact inSecond) same
  rw [← side_cell_twice side first, cells, side_cell_twice]

variable {T : Type}

theorem side_updates {cells : Set (Nat × Nat)} {ld : Int} {value : Nat × Nat → T → T} {run : Mem T → Mem T}
    (updates : Updates cells (cellAddress ld) value run) (cells' : Set (Nat × Nat)) (value' : Nat × Nat → T → T)
    (same : ∀ cell, sideCell side cell ∈ cells ↔ cell ∈ cells')
    (equal : ∀ cell, cell ∈ cells' → ∀ old, value (sideCell side cell) old = value' cell old) :
    Updates cells' (sideAddress side ld) value' run := by
  constructor
  · intro before cell member
    rw [side_address_cell, updates.written before _ ((same cell).mpr member), equal cell member]
  · intro before place apart
    refine updates.kept before place (fun cell member => ?_)
    have inside := (same (sideCell side cell)).mp (by rw [side_cell_twice]; exact member)
    have other := apart (sideCell side cell) inside
    rw [side_address_cell, side_cell_twice] at other
    exact other

theorem mem_side_matrix (length width : Nat) (cell : Nat × Nat) :
    sideCell side cell ∈ matrixCells (sideRows side length width) (sideColumns side length width) ↔
      cell ∈ matrixCells length width := by
  cases side with
  | left => exact Iff.rfl
  | right => exact and_comm

theorem tile_image (d0 length r0 width : Nat) :
    (fun cell : Nat × Nat => (d0 + cell.1, r0 + cell.2)) '' matrixCells length width = tileCells d0 length r0 width := by
  ext ⟨d, r⟩
  simp only [Set.mem_image, matrixCells, tileCells, Set.mem_ofPred_eq, Prod.mk.injEq, Prod.exists]
  constructor
  · rintro ⟨d', r', inside, rfl, rfl⟩
    omega
  · intro inside
    exact ⟨d - d0, r - r0, by omega, by omega, by omega⟩

theorem side_tile_updates {value : Nat × Nat → T → T} {run : Mem T → Mem T} {length width : Nat} {ld : Int}
    (updates : Updates (matrixCells length width) (sideAddress side ld) value run) (d0 r0 : Nat) (value' : Nat × Nat → T → T)
    (same : ∀ d r old, d < length → r < width → value (d, r) old = value' (d0 + d, r0 + r) old) :
    Updates (tileCells d0 length r0 width) (sideAddress side ld) value' (onTail (sideIndex side ld d0 r0) run) := by
  have moved : Updates (matrixCells length width) (fun cell => sideAddress side ld (d0 + cell.1, r0 + cell.2))
      (fun cell => value' (d0 + cell.1, r0 + cell.2)) (onTail (sideIndex side ld d0 r0) run) := by
    refine ((updates.on_tail (sideIndex side ld d0 r0)).congr rfl (fun cell old inside => ?_)).congr_address (fun cell _ => ?_)
    · exact same cell.1 cell.2 old inside.1 inside.2
    · exact (side_address_offset side ld d0 r0 cell.1 cell.2).symm
  exact (Updates.reindex (fun cell : Nat × Nat => (d0 + cell.1, r0 + cell.2)) moved).congr (tile_image d0 length r0 width)
    (fun _ _ _ => rfl)

theorem side_corner_updates {value : Nat × Nat → T → T} {run : Mem T → Mem T} {length width d0 r0 : Nat} {ld : Int}
    (updates : Updates (matrixCells (sideRows side length width) (sideColumns side length width))
      (fun cell => cellAddress ld (sideRows side d0 r0 + cell.1, sideColumns side d0 r0 + cell.2)) value run)
    (value' : Nat × Nat → T → T)
    (same : ∀ d r old, d < length → r < width → value (sideCell side (d, r)) old = value' (d0 + d, r0 + r) old) :
    Updates (tileCells d0 length r0 width) (sideAddress side ld) value' run := by
  have moved : Updates (matrixCells length width) (fun cell => sideAddress side ld (d0 + cell.1, r0 + cell.2))
      (fun cell => value' (d0 + cell.1, r0 + cell.2)) run := by
    have place : ∀ cell : Nat × Nat, cellAddress ld (sideRows side d0 r0 + (sideCell side cell).1,
        sideColumns side d0 r0 + (sideCell side cell).2) = sideAddress side ld (d0 + cell.1, r0 + cell.2) := by
      intro cell
      cases side <;> rfl
    constructor
    · intro before cell member
      have written := updates.written before (sideCell side cell) ((mem_side_matrix side length width cell).mpr member)
      rw [place] at written
      exact written.trans (same cell.1 cell.2 _ member.1 member.2)
    · intro before location apart
      refine updates.kept before location (fun cell member => ?_)
      have other := apart (sideCell side cell) ((mem_side_matrix side length width _).mp (by rw [side_cell_twice]; exact member))
      rw [← place, side_cell_twice] at other
      exact other
  refine (Updates.reindex (fun cell : Nat × Nat => (d0 + cell.1, r0 + cell.2)) moved).congr (tile_image d0 length r0 width)
    (fun _ _ _ => rfl)

end Addresses

section Products

variable {T : Type} [CommRing T] [Scalar T]

theorem side_gemm_updates (env : TriangularEnv T) (rt : Runtime) (site : Site) (side : OperandSide) (mode : TransposeMode)
    (length width count : Nat) (alpha : T) (panel : Mem T) (ldPanel : Int) (rhs : Mem T) (ldRhs : Int) (beta : T) (ldOut : Int)
    (stepPanel : 0 < ldPanel) (stepRhs : 0 < ldRhs) (stepOut : 0 < ldOut) (bound : (sideRows side length width : Int) ≤ ldOut)
    (left right : Nat → Nat → T)
    (sameLeft : ∀ d p, d < length → p < count → sideMatrix side (opEntry mode (denseEntry panel ldPanel)) d p = left d p)
    (sameRight : ∀ p r, p < count → r < width → rhs (sideIndex side ldRhs p r) = right p r) :
    Updates (matrixCells length width) (sideAddress side ldOut) (gemmValue alpha left right count beta)
      (fun out => sideGemm env rt site side mode length width count alpha panel ldPanel rhs ldRhs beta out ldOut) := by
  cases side with
  | left =>
    exact env.gemm.product_updates rt site mode .noTrans length width count alpha panel ldPanel rhs ldRhs beta ldOut stepPanel
      stepRhs stepOut bound left right sameLeft sameRight
  | right =>
    have product := env.gemm.product_updates rt site .noTrans mode width length count alpha rhs ldRhs panel ldPanel beta ldOut
      stepRhs stepPanel stepOut bound (fun r p => right p r) (fun p d => left d p)
      (fun r p inWidth inCount => sameRight p r inCount inWidth) (fun p d inCount inLength => sameLeft d p inLength inCount)
    refine side_updates .right product _ _ (mem_side_matrix .right length width) (fun cell _ old => ?_)
    simp only [gemmValue, sideCell]
    congr 2
    exact Finset.sum_congr rfl (fun p _ => mul_comm _ _)

end Products

section Panels

variable {T : Type} [CommRing T] [Scalar T]

def TriangularCall.matrix (call : TriangularCall T) (d p : Nat) : T :=
  sideMatrix call.side (triangle call.uplo call.diag call.mode (denseEntry call.a call.lda)) d p

theorem effective_upper (uplo : Triangle) (mode : TransposeMode) :
    decide (effectiveTriangle uplo mode = .upper) = opIsUpper uplo mode := by
  cases uplo <;> cases mode <;> rfl

theorem effective_lower (uplo : Triangle) (mode : TransposeMode) :
    decide (effectiveTriangle uplo mode = .lower) = !opIsUpper uplo mode := by
  cases uplo <;> cases mode <;> rfl

omit [CommRing T] [Scalar T] in
theorem reaches_forward_side (call : TriangularCall T) :
    reachesForward call = if call.side = .left then opIsUpper call.uplo call.mode else !opIsUpper call.uplo call.mode := by
  rw [reachesForward]
  cases call.side with
  | left =>
    rw [if_pos rfl]
    simp only [if_true]
    exact effective_upper call.uplo call.mode
  | right =>
    have other : ¬ OperandSide.right = OperandSide.left := nofun
    rw [if_neg other]
    simp only [if_neg other]
    exact effective_lower call.uplo call.mode

theorem matrix_triangular (call : TriangularCall T) (n : Nat) : TriangularTo (reachesForward call) n call.matrix := by
  intro d p inRow inColumn outside
  have shape := triangle_to call.uplo call.diag call.mode (denseEntry call.a call.lda) n
  rw [reaches_forward_side] at outside
  rw [TriangularCall.matrix]
  cases side : call.side with
  | left =>
    simp only [side, if_true] at outside
    exact shape d p inRow inColumn outside
  | right =>
    simp only [side, reduceCtorEq, if_false] at outside
    refine shape p d inColumn inRow ?_
    cases upper : opIsUpper call.uplo call.mode with
    | true =>
      simp only [upper, Bool.not_true, Bool.false_eq_true, if_false] at outside
      rwa [if_pos rfl]
    | false =>
      simp only [upper, Bool.not_false, if_true] at outside
      rwa [if_neg Bool.false_ne_true]

theorem operand_panel_entry (call : TriangularCall T) (d0 p0 d p : Nat)
    (inside : if reachesForward call then d0 + d < p0 + p else p0 + p < d0 + d) :
    sideMatrix call.side (opEntry call.mode (denseEntry (operandPanel call d0 p0) call.lda)) d p = call.matrix (d0 + d) (p0 + p) := by
  have shifted : ∀ i0 j0 i j, opEntry call.mode (denseEntry (view call.a
      (if call.mode = .noTrans then matIndex call.lda i0 j0 else matIndex call.lda j0 i0)) call.lda) i j =
      opEntry call.mode (denseEntry call.a call.lda) (i0 + i) (j0 + j) := by
    intro i0 j0 i j
    cases call.mode with
    | noTrans => simp only [opEntry, denseEntry, view_apply, if_true, mat_index_offset]
    | trans => simp only [opEntry, denseEntry, view_apply, reduceCtorEq, if_false, mat_index_offset]
    | conjTrans => simp only [opEntry, denseEntry, view_apply, reduceCtorEq, if_false, mat_index_offset]
  rw [reaches_forward_side] at inside
  rw [TriangularCall.matrix, operandPanel]
  cases side : call.side with
  | left =>
    simp only [side, if_true] at inside
    simp only [sideMatrix, shifted]
    exact (triangle_inside call.uplo call.diag call.mode _ _ _ inside).symm
  | right =>
    simp only [side, reduceCtorEq, if_false] at inside
    simp only [sideMatrix, shifted]
    refine (triangle_inside call.uplo call.diag call.mode _ _ _ ?_).symm
    cases upper : opIsUpper call.uplo call.mode with
    | true =>
      simp only [upper, Bool.not_true, Bool.false_eq_true, if_false] at inside
      rwa [if_pos rfl]
    | false =>
      simp only [upper, Bool.not_false, if_true] at inside
      rwa [if_neg Bool.false_ne_true]

variable [LawfulScalar T]

theorem packed_panel_entry (call : TriangularCall T) (d0 p0 length depth : Nat) (buffer : Mem T) (d p : Nat) (inLength : d < length)
    (inDepth : p < depth) :
    sideMatrix call.side (opEntry .noTrans (denseEntry (packedPanel call d0 p0 length depth buffer)
      (packedRows call.side length depth : Nat))) d p = call.matrix (d0 + d) (p0 + p) := by
  rw [TriangularCall.matrix, packedPanel, packedRows, ← tri_value_triangle]
  cases side : call.side with
  | left =>
      exact pack_triangular_op_block_entry call.uplo call.mode call.diag call.a call.lda d0 p0 length depth buffer d p
        inLength inDepth
  | right =>
      exact pack_triangular_op_block_entry call.uplo call.mode call.diag call.a call.lda p0 d0 depth length buffer p d
        inDepth inLength

omit [LawfulScalar T] in
theorem packed_diagonal (call : TriangularCall T) (start len : Nat) (buffer : Mem T) :
    packTriangularOpBlock call.uplo call.mode call.diag call.a call.lda start start len len buffer =
      packedPanel call start start len len buffer := by
  rw [packedPanel]
  cases call.side <;> rfl

end Panels

end Zynum
