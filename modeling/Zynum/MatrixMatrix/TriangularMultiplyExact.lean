import Zynum.MatrixMatrix.TriangularRoutes

set_option autoImplicit false

/- TRMM in place. A block is multiplied into a tile of its own, and the blocks are
   stored in an order that leaves every row alone until its last use. -/
namespace Zynum

open ArrayProgram

variable {T : Type} [CommRing T] [Scalar T] [LawfulScalar T]

section Tiles

theorem store_scaled_tile (side : OperandSide) (length width : Nat) (alpha : T) (tile : Mem T) (ldb : Int) (d0 r0 : Nat)
    (value : Nat → Nat → T)
    (holds : ∀ d r, d < length → r < width → tile (sideIndex side (sideRows side length width : Nat) d r) = value (d0 + d) (r0 + r))
    (bound : sideRows side d0 r0 + sideRows side length width ≤ toUsize ldb) :
    Updates (tileCells d0 length r0 width) (sideAddress side ldb) (fun cell _ => alpha * value cell.1 cell.2)
      (storeScaledTile (sideRows side length width) (sideColumns side length width) alpha tile ldb (sideRows side d0 r0)
        (sideColumns side d0 r0)) := by
  have injective := cell_address_injective ldb _ bound
  have stored : Updates (matrixCells (sideRows side length width) (sideColumns side length width))
      (fun cell => cellAddress ldb (sideRows side d0 r0 + cell.1, sideColumns side d0 r0 + cell.2))
      (fun cell _ => alpha * tile (matIndex (sideRows side length width : Nat) cell.1 cell.2))
      (storeScaledTile (sideRows side length width) (sideColumns side length width) alpha tile ldb (sideRows side d0 r0)
        (sideColumns side d0 r0)) := by
    generalize sideRows side length width = rows at injective ⊢
    generalize sideColumns side length width = cols
    generalize sideRows side d0 r0 = row0 at injective ⊢
    generalize sideColumns side d0 r0 = col0
    have grid := updates_grid rows cols (fun cell => cellAddress ldb (row0 + cell.1, col0 + cell.2))
      (fun cell (_ : T) => alpha * tile (matIndex (rows : Nat) cell.1 cell.2)) (by
        intro first inFirst second inSecond same
        have cells := injective (show row0 + first.1 < row0 + rows from Nat.add_lt_add_left inFirst.1 row0)
          (show row0 + second.1 < row0 + rows from Nat.add_lt_add_left inSecond.1 row0) same
        rw [Prod.mk.injEq] at cells
        exact Prod.ext (Nat.add_left_cancel cells.1) (Nat.add_left_cancel cells.2))
    refine grid.congr_run (fun b => ?_)
    have source : ∀ i j, matIndex (rows : Nat) i j = j * rows + i := fun i j => (mat_index_natural rows i j).trans (Nat.add_comm _ _)
    rw [storeScaledTile]
    split
    case isTrue one =>
      have unit := (LawfulScalar.isOne_iff alpha).mp one
      refine loop_congr _ _ _ b (fun j current _ => loop_congr _ _ _ current (fun i current _ => ?_))
      have place : matIndex ldb row0 (col0 + j) + i = cellAddress ldb (row0 + i, col0 + j) := by
        simp only [cellAddress, matIndex]
        omega
      simp only [source, unit, one_mul, place]
    case isFalse =>
      refine loop_congr _ _ _ b (fun j current _ => loop_congr _ _ _ current (fun i current _ => ?_))
      simp only [cellAddress, mat_index_natural]
  refine side_corner_updates side stored _ (fun d r _ inLength inWidth => ?_)
  have entry := holds d r inLength inWidth
  cases side with
  | left => exact congrArg (alpha * ·) entry
  | right => exact congrArg (alpha * ·) entry

omit [Scalar T] [LawfulScalar T] in
theorem triangular_row_product (forward : Bool) (diag : Diagonal) (len : Nat) (M : Nat → Nat → T) (x : Nat → T) (d : Nat)
    (inside : d < len) (shape : TriangularTo forward len M) (unit : diag = .unit → M d d = 1) :
    loopRange (if forward then d else 0) (if forward then len else d + 1)
        (fun p sum => if diag = .unit ∧ p = d then sum else sum + M d p * x p) (if diag = .unit then x d else 0) =
      ∑ p ∈ Finset.range len, M d p * x p := by
  have bounds : (if forward then d else 0) ≤ d ∧ d < (if forward then len else d + 1) ∧ (if forward then len else d + 1) ≤ len := by
    cases forward <;> simp only [Bool.false_eq_true, if_true, if_false] <;> omega
  have accumulated := loop_range_accumulate (if forward then d else 0) (if forward then len else d + 1)
    (fun p => if diag = .unit ∧ p = d then 0 else M d p * x p) (if diag = .unit then x d else 0)
  have same : ∀ p (sum : T), (if diag = .unit ∧ p = d then sum else sum + M d p * x p) =
      sum + if diag = .unit ∧ p = d then 0 else M d p * x p := by
    intro p sum
    by_cases pivot : diag = .unit ∧ p = d
    · rw [if_pos pivot, if_pos pivot, add_zero]
    · rw [if_neg pivot, if_neg pivot]
  simp only [same]
  rw [accumulated]
  have whole : ∑ p ∈ Finset.Ico (if forward then d else 0) (if forward then len else d + 1), M d p * x p =
      ∑ p ∈ Finset.range len, M d p * x p := by
    refine Finset.sum_subset (fun p member => ?_) (fun p member skipped => ?_)
    · rw [Finset.mem_Ico] at member
      exact Finset.mem_range.mpr (lt_of_lt_of_le member.2 bounds.2.2)
    · rw [Finset.mem_range] at member
      rw [Finset.mem_Ico] at skipped
      rw [shape d p inside member, zero_mul]
      cases forward <;> simp only [Bool.false_eq_true, if_true, if_false] at skipped ⊢ <;> omega
  rw [← whole]
  by_cases one : diag = .unit
  · have pivot : d ∈ Finset.Ico (if forward then d else 0) (if forward then len else d + 1) :=
      Finset.mem_Ico.mpr ⟨bounds.1, bounds.2.1⟩
    rw [if_pos one, ← Finset.add_sum_erase _ _ pivot, ← Finset.add_sum_erase _ (fun p => M d p * x p) pivot, unit one, one_mul,
      if_pos ⟨one, rfl⟩, zero_add]
    congr 1
    refine Finset.sum_congr rfl (fun p member => ?_)
    rw [if_neg (fun same => Finset.ne_of_mem_erase member same.2)]
  · rw [if_neg one, zero_add]
    exact Finset.sum_congr rfl (fun p _ => if_neg (fun same => one same.1))

-- Which way the rows of the operand reach, from its triangle and its side.
def tileForward (side : OperandSide) (triangle : Triangle) : Bool := if side = .left then triangle = .upper else triangle = .lower

omit [LawfulScalar T] in
theorem diagonal_nonfinite (env : TriangularEnv T) (side : OperandSide) (triangle : Triangle) (diag : Diagonal) (len width : Nat)
    (diagonal input : Mem T) (ldb : Int) (accumulate : Bool) (M x : Nat → Nat → T)
    (shape : TriangularTo (tileForward side triangle) len M) (unit : diag = .unit → ∀ d, d < len → M d d = 1)
    (holds : ∀ d p, d < len → p < len → sideMatrix side (denseEntry diagonal (len : Nat)) d p = M d p)
    (reads : ∀ p r, p < len → r < width → input (sideIndex side ldb p r) = x p r) :
    Attempts (matrixCells len width) (sideAddress side (sideRows side len width : Nat))
      (gemmValue 1 M x len (if accumulate then 1 else 0))
      (trmmDiagonalNonfinite env side triangle diag (sideRows side len width) (sideColumns side len width) diagonal input ldb
        accumulate) := by
  refine attempts_guard _ (fun _ => attempts_decline _ _ _) (fun _ => Updates.attempts ?_)
  have product : ∀ d r, d < len → r < width → ∀ first last, first = (if tileForward side triangle then d else 0) →
      last = (if tileForward side triangle then len else d + 1) →
      loopRange first last (fun p sum => if diag = .unit ∧ p = d then sum
        else sum + sideMatrix side (denseEntry diagonal (len : Nat)) d p * input (sideIndex side ldb p r))
        (if diag = .unit then input (sideIndex side ldb d r) else 0) = ∑ p ∈ Finset.range len, M d p * x p r := by
    intro d r inLength inWidth first last start finish
    rw [start, finish, reads d r inLength inWidth,
      ← triangular_row_product (tileForward side triangle) diag len M (fun p => x p r) d inLength shape
      (fun one => unit one d inLength)]
    refine loop_congr _ _ _ _ (fun step sum small => ?_)
    have below : (if tileForward side triangle then d else 0) + step < len := by
      cases forward : tileForward side triangle <;>
        simp only [forward, Bool.false_eq_true, if_true, if_false] at small ⊢ <;> omega
    simp only [holds d _ inLength below, reads _ r below inWidth]
  have value : ∀ (old sum : T), (if accumulate then old + sum else sum) = 1 * sum + (if accumulate then 1 else 0) * old := by
    intro old sum
    cases accumulate with
    | true =>
      rw [if_pos rfl, if_pos rfl]
      ring
    | false =>
      rw [if_neg Bool.false_ne_true, if_neg Bool.false_ne_true]
      ring
  have injective : ∀ rows : Nat, Set.InjOn (cellAddress (rows : Nat)) {cell | cell.1 < rows} := fun rows =>
    cell_address_injective (rows : Nat) rows (Nat.le_of_eq (Int.toNat_natCast rows).symm)
  cases side with
  | left =>
    refine (updates_grid len width (cellAddress (len : Nat)) _ ((injective len).mono (fun _ member => member.1))).congr_run
      (fun output => loop_congr _ _ _ output (fun j current inWidth => loop_congr _ _ _ current (fun i current inLength => ?_)))
    have row := product i j inLength inWidth _ _ rfl rfl
    cases triangle <;>
      simp only [tileForward, sideMatrix, denseEntry, sideIndex, mat_index_natural, if_true, decide_true, decide_false, reduceCtorEq,
        Bool.false_eq_true, if_false] at row <;>
      simp only [sideRows, if_true, reduceCtorEq, true_and, false_and, or_false, if_false, cellAddress, mat_index_natural,
        gemmValue, value, row]
  | right =>
    have grid := updates_grid width len (cellAddress (width : Nat))
      (fun cell => gemmValue 1 M x len (if accumulate then 1 else 0) (cell.2, cell.1))
      ((injective width).mono (fun _ member => member.1))
    refine side_updates .right (grid.congr_run (fun output => loop_congr _ _ _ output (fun j current inLength =>
      loop_congr _ _ _ current (fun i current inWidth => ?_)))) _ _ (mem_side_matrix .right len width) (fun _ _ _ => rfl)
    have row := product j i inLength inWidth _ _ rfl rfl
    cases triangle <;>
      simp only [tileForward, sideMatrix, denseEntry, sideIndex, mat_index_natural, if_true, decide_true, decide_false, reduceCtorEq,
        Bool.false_eq_true, if_false] at row <;>
      simp only [sideRows, sideColumns, if_true, reduceCtorEq, true_and, false_and, or_false, false_or, if_false, cellAddress,
        mat_index_natural, gemmValue, value, row]

end Tiles

section Blocks

theorem row_of_block {R : Type} [AddCommMonoid R] (forward : Bool) (order start len : Nat) (term : Nat → R)
    (fits : start + len ≤ order)
    (zero : ∀ p, p < order → (if forward then p < start else start + len ≤ p) → term p = 0) :
    ∑ p ∈ Finset.range len, term (start + p) + ∑ p ∈ Finset.range (if forward then order - (start + len) else start),
        term ((if forward then start + len else 0) + p) = ∑ p ∈ Finset.range order, term p := by
  have piece : ∀ first last, first ≤ last → ∑ p ∈ Finset.range (last - first), term (first + p) = ∑ p ∈ Finset.Ico first
    last, term p :=
    fun first last _ => (Finset.sum_Ico_eq_sum_range term first last).symm
  have block : ∑ p ∈ Finset.range len, term (start + p) = ∑ p ∈ Finset.Ico start (start + len), term p := by
    rw [← piece start (start + len) (Nat.le_add_right _ _), Nat.add_sub_cancel_left]
  rw [block]
  simp only [Finset.range_eq_Ico] at piece ⊢
  cases forward with
  | true =>
    simp only [if_true] at zero ⊢
    rw [← Finset.sum_Ico_consecutive term (Nat.zero_le start) (by omega : start ≤ order),
      Finset.sum_eq_zero (fun p member => zero p (by have := (Finset.mem_Ico.mp member).2; omega)
        (Finset.mem_Ico.mp member).2), zero_add,
      ← Finset.sum_Ico_consecutive term (Nat.le_add_right start len) fits, ← piece (start + len) order fits]
  | false =>
    simp only [Bool.false_eq_true, if_false, Nat.zero_add] at zero ⊢
    rw [add_comm, ← Finset.sum_Ico_consecutive term (Nat.zero_le (start + len)) fits,
      ← Finset.sum_Ico_consecutive term (Nat.zero_le start) (Nat.le_add_right start len)]
    have beyond : ∑ p ∈ Finset.Ico (start + len) order, term p = 0 :=
      Finset.sum_eq_zero (fun p member => zero p (Finset.mem_Ico.mp member).2 (Finset.mem_Ico.mp member).1)
    rw [beyond, add_zero]

variable (env : TriangularEnv T) (rt : Runtime) (site : Site) (call : TriangularCall T)

theorem diagonal_product (start len width r0 : Nat) (buffer b : Mem T) (first : Prop) [Decidable first] (length : 0 < len)
    (wide : 0 < width) (stepb : 0 < call.ldb) :
    Updates (matrixCells len width) (sideAddress call.side (sideRows call.side len width : Nat))
      (gemmValue 1 (fun d p => call.matrix (start + d) (start + p))
        (fun p r => b (sideAddress call.side call.ldb (start + p, r0 + r))) len
        (if first then 0 else 1))
      (fun output => orElse
        (trmmDiagonalNonfinite env call.side (effectiveTriangle call.uplo call.mode) call.diag (sideRows call.side len width)
          (sideColumns call.side len width) (packedPanel call start start len len buffer)
          (view b (sideIndex call.side call.ldb start r0)) call.ldb (decide (¬ first)) output)
        (fun output => sideGemm env rt site call.side .noTrans len width len 1 (packedPanel call start start len len buffer)
          (packedRows call.side len len) (view b (sideIndex call.side call.ldb start r0)) call.ldb (if first then 0 else 1) output
          (sideRows call.side len width))) := by
  have square : packedRows call.side len len = len := by
    rw [packedRows]
    split <;> rfl
  have packed := packed_panel_entry call start start len len buffer
  have reads : ∀ p r, p < len → r < width → view b (sideIndex call.side call.ldb start r0) (sideIndex call.side call.ldb p r) =
      b (sideAddress call.side call.ldb (start + p, r0 + r)) := fun p r _ _ =>
    congrArg b (side_address_offset call.side call.ldb start r0 p r)
  have shape : TriangularTo (tileForward call.side (effectiveTriangle call.uplo call.mode)) len
      (fun d p => call.matrix (start + d) (start + p)) := by
    intro d p inRow inColumn outside
    refine matrix_triangular call (start + len) (start + d) (start + p) (by omega) (by omega) ?_
    have same : reachesForward call = tileForward call.side (effectiveTriangle call.uplo call.mode) := rfl
    rw [same]
    cases forward : tileForward call.side (effectiveTriangle call.uplo call.mode) <;>
      simp only [forward, Bool.false_eq_true, if_true, if_false] at outside ⊢ <;> omega
  have unit : call.diag = .unit → ∀ d, d < len → call.matrix (start + d) (start + d) = 1 := by
    intro one d _
    have diagonal := triangle_unit call.uplo call.diag call.mode (denseEntry call.a call.lda) (start + d) one
    rw [TriangularCall.matrix]
    cases call.side <;> exact diagonal
  have beta : (if decide (¬ first) = true then (1 : T) else 0) = if first then 0 else 1 := by
    by_cases early : first
    · simp only [early, not_true_eq_false, decide_false, Bool.false_eq_true, if_false, if_true]
    · simp only [early, not_false_eq_true, decide_true, if_true, if_false]
  have serial := diagonal_nonfinite env call.side (effectiveTriangle call.uplo call.mode) call.diag len width
    (packedPanel call start start len len buffer) (view b (sideIndex call.side call.ldb start r0)) call.ldb (decide (¬ first))
    (fun d p => call.matrix (start + d) (start + p)) (fun p r => b (sideAddress call.side call.ldb (start + p, r0 + r))) shape unit
    (fun d p inRow inColumn => by
      rw [← packed d p inRow inColumn, square]
      rfl) reads
  rw [beta] at serial
  refine serial.or_else ?_
  exact side_gemm_updates env rt site call.side .noTrans len width len 1 _ _ _ call.ldb _ _ (by rw [square]; omega) stepb
    (by have := side_rows_pos call.side length wide; omega) (le_refl _) _ _ packed reads

omit [LawfulScalar T] in
theorem off_diagonal_product (order start len width r0 : Nat) (b : Mem T) (length : 0 < len) (wide : 0 < width)
    (stepa : 0 < call.lda) (stepb : 0 < call.ldb) (first count : Nat)
    (beyond : first = if reachesForward call then start + len else 0)
    (rest : count = if reachesForward call then order - first else start) :
    Updates (matrixCells len width) (sideAddress call.side (sideRows call.side len width : Nat))
      (gemmValue 1 (fun d p => call.matrix (start + d) (first + p))
        (fun p r => b (sideAddress call.side call.ldb (first + p, r0 + r)))
        count 0)
      (fun output => sideGemm env rt site call.side call.mode len width count 1 (operandPanel call start first) call.lda
        (view b (sideIndex call.side call.ldb first r0)) call.ldb 0 output (sideRows call.side len width)) := by
  refine side_gemm_updates env rt site call.side call.mode len width count 1 _ _ _ call.ldb 0 _ stepa stepb
    (by have := side_rows_pos call.side length wide; omega) (le_refl _) _ _ (fun d p inLength inCount => ?_)
    (fun p r _ _ => congrArg b (side_address_offset call.side call.ldb first r0 p r))
  refine operand_panel_entry call start first d p ?_
  cases forward : reachesForward call <;>
    simp only [forward, Bool.false_eq_true, if_true, if_false] at beyond rest ⊢ <;> omega

theorem wide_block (bs order width r0 step : Nat) (some : 0 < bs) (inside : step < blockCount order bs) (wide : 0 < width)
    (stepa : 0 < call.lda) (stepb : 0 < call.ldb) (fits : sideRows call.side order (r0 + width) ≤ toUsize call.ldb) (b : Mem T) :
    Wrote (tileCells (sweep (reachesForward call) (blockCount order bs) step * bs)
        (min bs (order - sweep (reachesForward call) (blockCount order bs) step * bs)) r0 width) (sideAddress call.side call.ldb)
      (fun cell _ => call.alpha * ∑ p ∈ Finset.range order, call.matrix cell.1 p * b (sideAddress call.side call.ldb (p, cell.2))) b
      (trmmWideBlock env rt site call bs order width r0 step b) := by
  have bounds := block_bounds bs order _ some (sweep_inside (reachesForward call) _ step inside)
  have index : (if reachesForward call = true then step else blockCount order bs - 1 - step) =
      sweep (reachesForward call) (blockCount order bs) step := rfl
  simp only [trmmWideBlock, index, packed_diagonal]
  generalize sweep (reachesForward call) (blockCount order bs) step * bs = start at bounds ⊢
  generalize min bs (order - start) = len at bounds ⊢
  obtain ⟨started, length, reach⟩ := bounds
  generalize beyond : (if reachesForward call = true then start + len else 0) = first
  generalize rest : (if reachesForward call = true then order - first else start) = count
  have off := off_diagonal_product env rt (1 :: site) call order start len width r0 b length wide stepa stepb first count beyond.symm
    rest.symm
  have diagonal := diagonal_product env rt (3 :: site) call start len width r0 (env.scratch (2 :: site)) b (count = 0)
    length wide stepb
  have square : packedRows call.side len len = len := by
    rw [packedRows]
    split <;> rfl
  rw [square] at diagonal
  refine (store_scaled_tile call.side len width call.alpha _ call.ldb start r0 (fun d r => ∑ p ∈ Finset.range order,
    call.matrix d p * b (sideAddress call.side call.ldb (p, r))) (fun d r inLength inWidth => ?_) ?_).wrote b
  · refine (diagonal.written _ (d, r) ⟨inLength, inWidth⟩).trans ?_
    have row := row_of_block (reachesForward call) order start len
      (fun p => call.matrix (start + d) p * b (sideAddress call.side call.ldb (p, r0 + r))) reach (fun p below outside => by
        rw [matrix_triangular call order (start + d) p (by omega) below (by
          cases forward : reachesForward call <;> simp only [forward, Bool.false_eq_true, if_true, if_false] at outside ⊢ <;> omega),
          zero_mul])
    have sizes : (if reachesForward call = true then order - (start + len) else start) = count := by
      rw [← rest, ← beyond]
      cases reachesForward call <;> rfl
    rw [beyond, sizes] at row
    rw [← row, gemmValue, one_mul]
    congr 1
    by_cases none : count = 0
    · rw [none, if_pos rfl, zero_mul, Finset.range_zero, Finset.sum_empty]
    · rw [if_neg none, if_pos (Nat.pos_of_ne_zero none), one_mul, off.written _ (d, r) ⟨inLength, inWidth⟩, gemmValue, one_mul,
        zero_mul, add_zero]
  · rw [side_rows_add]
    exact (side_rows_fit call.side reach (le_refl _)).trans fits

omit [Scalar T] [LawfulScalar T] in
-- The same row taken block by block; the blocks on the far side of the diagonal are zero.
theorem row_of_blocks (forward : Bool) (bs order block : Nat) (some : 0 < bs) (inside : block < blockCount order bs) (d : Nat)
    (owned : d / bs = block) (M : Nat → Nat → T) (shape : TriangularTo forward order M) (below : d < order) (x : Nat → T) (old : T) :
    loop ((if forward then blockCount order bs else block + 1) - (if forward then block else 0)) (fun step value =>
        1 * ∑ q ∈ Finset.range (blockLength order bs (((if forward then block else 0) + step) * bs)),
          M d (((if forward then block else 0) + step) * bs + q) * x (((if forward then block else 0) + step) * bs + q) +
        (if (if forward then block else 0) + step = (if forward then block else 0) then 0 else 1) * value) old =
      ∑ p ∈ Finset.range order, M d p * x p := by
  generalize start : (if forward then block else 0) = first
  generalize finish : (if forward then blockCount order bs else block + 1) = last
  have bounds : first ≤ block ∧ block < last ∧ last ≤ blockCount order bs := by
    cases forward <;> simp only [Bool.false_eq_true, if_true, if_false] at start finish <;> omega
  have turns : 0 < last - first := by omega
  have early : ∀ step, first + step = first ↔ step = 0 := fun step => by omega
  simp only [early]
  rw [scaled_accumulate _ turns, one_mul, zero_mul, add_zero]
  have whole := block_sum order bs some (fun p => M d p * x p)
  rw [← whole, ← Finset.sum_Ico_eq_sum_range (fun pi => ∑ q ∈ Finset.range (blockLength order bs (pi * bs)),
    M d (pi * bs + q) * x (pi * bs + q)) first last]
  refine Finset.sum_subset (fun pi member => ?_) (fun pi member skipped => Finset.sum_eq_zero (fun q small => ?_))
  · exact Finset.mem_range.mpr (lt_of_lt_of_le (Finset.mem_Ico.mp member).2 bounds.2.2)
  · have count : pi < blockCount order bs := Finset.mem_range.mp member
    have within := Finset.mem_range.mp small
    rw [Finset.mem_Ico] at skipped
    rw [blockLength] at within
    have place := (div_block d bs block some).mp owned
    have short := (block_bounds bs order pi some count).2.2
    have column : pi * bs + q < order := lt_of_lt_of_le (Nat.add_lt_add_left within _) short
    rw [shape d (pi * bs + q) below column, zero_mul]
    cases forward with
    | true =>
      simp only [if_true] at start finish ⊢
      have earlier : (pi + 1) * bs ≤ block * bs := Nat.mul_le_mul_right bs (by omega)
      rw [Nat.succ_mul] at earlier
      omega
    | false =>
      simp only [Bool.false_eq_true, if_false] at start finish ⊢
      have later : (block + 1) * bs ≤ pi * bs := Nat.mul_le_mul_right bs (by omega)
      rw [Nat.succ_mul] at later
      omega

theorem panel_block (bs order width r0 step : Nat) (some : 0 < bs) (inside : step < blockCount order bs) (wide : 0 < width)
    (stepb : 0 < call.ldb) (fits : sideRows call.side order (r0 + width) ≤ toUsize call.ldb) (b : Mem T) :
    Wrote (tileCells (sweep (reachesForward call) (blockCount order bs) step * bs)
        (min bs (order - sweep (reachesForward call) (blockCount order bs) step * bs)) r0 width) (sideAddress call.side call.ldb)
      (fun cell _ => call.alpha * ∑ p ∈ Finset.range order, call.matrix cell.1 p * b (sideAddress call.side call.ldb (p, cell.2))) b
      (trmmPanelBlock env rt site call bs order width r0 step b) := by
  have among := sweep_inside (reachesForward call) (blockCount order bs) step inside
  have bounds := block_bounds bs order _ some among
  have index : (if reachesForward call = true then step else blockCount order bs - 1 - step) =
      sweep (reachesForward call) (blockCount order bs) step := rfl
  simp only [trmmPanelBlock, index]
  generalize sweep (reachesForward call) (blockCount order bs) step = block at among bounds ⊢
  obtain ⟨started, length, reach⟩ := bounds
  generalize start : (if reachesForward call = true then block else 0) = first
  generalize finish : (if reachesForward call = true then blockCount order bs else block + 1) = last
  generalize len : min bs (order - block * bs) = height at length reach ⊢
  have each : ∀ pi, pi < blockCount order bs → Updates (matrixCells height width)
      (sideAddress call.side (sideRows call.side height width : Nat))
      (gemmValue 1 (fun d p => call.matrix (block * bs + d) (pi * bs + p))
        (fun p r => b (sideAddress call.side call.ldb (pi * bs + p, r0 + r))) (blockLength order bs (pi * bs))
        (if pi = first then 0 else 1))
      (fun output => orElse
        (if pi = block then trmmDiagonalNonfinite env call.side (effectiveTriangle call.uplo call.mode) call.diag
            (sideRows call.side height width) (sideColumns call.side height width)
            (packedPanel call (block * bs) (pi * bs) height (min bs (order - pi * bs)) (env.scratch (pi :: 0 :: site)))
            (view b (sideIndex call.side call.ldb (block * bs) r0)) call.ldb (decide (pi ≠ first)) output
          else (false, output))
        (fun output => sideGemm env rt (pi :: 1 :: site) call.side .noTrans height width (min bs (order - pi * bs)) 1
          (packedPanel call (block * bs) (pi * bs) height (min bs (order - pi * bs)) (env.scratch (pi :: 0 :: site)))
          (packedRows call.side height (min bs (order - pi * bs))) (view b (sideIndex call.side call.ldb (pi * bs) r0)) call.ldb
          (if pi = first then 0 else 1) output (sideRows call.side height width))) := by
    intro pi small
    by_cases here : pi = block
    · subst here
      simp only [if_true, len]
      have diagonal := diagonal_product env rt (pi :: 1 :: site) call (pi * bs) height width r0 (env.scratch (pi :: 0 :: site)) b
        (pi = first) length wide stepb
      have size : blockLength order bs (pi * bs) = height := len
      rw [size]
      exact diagonal
    · simp only [if_neg here, orElse, Bool.false_eq_true, if_false]
      have depth := block_bounds bs order pi some small
      refine side_gemm_updates env rt (pi :: 1 :: site) call.side .noTrans height width _ 1 _ _ _ call.ldb _ _ ?_ stepb
        (by have := side_rows_pos call.side length wide; omega) (le_refl _) _ _
        (packed_panel_entry call (block * bs) (pi * bs) height (min bs (order - pi * bs)) (env.scratch (pi :: 0 :: site)))
        (fun p r _ _ => congrArg b (side_address_offset call.side call.ldb (pi * bs) r0 p r))
      rw [packedRows]
      split <;> omega
  have finished : last ≤ blockCount order bs := by
    rw [← finish]
    split <;> omega
  have whole := Updates.repeat (last - first) _ _ (fun step small => each (first + step) (by omega))
  refine (store_scaled_tile call.side height width call.alpha _ call.ldb (block * bs) r0 (fun d r => ∑ p ∈ Finset.range order,
    call.matrix d p * b (sideAddress call.side call.ldb (p, r))) (fun d r inLength inWidth => ?_) ?_).wrote b
  · refine (whole.written _ (d, r) ⟨inLength, inWidth⟩).trans ?_
    have owned : (block * bs + d) / bs = block := (div_block _ bs block some).mpr (by omega)
    have row := row_of_blocks (reachesForward call) bs order block some among (block * bs + d) owned call.matrix
      (matrix_triangular call order) (by omega) (fun p => b (sideAddress call.side call.ldb (p, r0 + r)))
      (env.scratch (2 :: site) (sideAddress call.side (sideRows call.side height width : Nat) (d, r)))
    rw [start, finish] at row
    exact row
  · rw [side_rows_add]
    exact (side_rows_fit call.side reach (le_refl _)).trans fits

end Blocks

section Routes

variable (env : TriangularEnv T) (rt : Runtime) (site : Site) (call : TriangularCall T)

-- What every route of TRMM leaves in the lanes it is given.
def Multiplied (call : TriangularCall T) (m n : Nat) (lanes : Set Nat) : Mem T → Mem T → Prop :=
  Product (Finset.range (dimension call.side m n)) lanes (sideAddress call.side call.ldb) call.matrix call.alpha

omit [LawfulScalar T] in
theorem multiplied_lane_wise (m n : Nat) (bound : m ≤ toUsize call.ldb) :
    LaneWise (Multiplied call m n) (Set.Iio (rhsCount call.side m n)) :=
  product_lane_wise _ _ _ _ _ (side_lanes_injective call.side m n call.ldb bound)

theorem trmm_workspace (bs m n : Nat) (some : 0 < bs) (stepa : 0 < call.lda) (stepb : 0 < call.ldb) (bound : m ≤ toUsize call.ldb) :
    Meets (Multiplied call m n (Set.Iio (rhsCount call.side m n))) (trmmWorkspace env rt site bs call m n) := by
  refine Meets.congr_run ((multiplied_lane_wise call m n bound).blocks (rhsCount call.side m n) bs (fun r0 b =>
    loop (blockCount (dimension call.side m n) bs) (fun step =>
      (if rt.arch = .x86_64 ∧ rt.maxThreads (0 :: site) > 1 then trmmWideBlock (T := T) else trmmPanelBlock) env rt
        (step :: r0 :: 1 :: site) call bs (dimension call.side m n) (min bs (rhsCount call.side m n - r0)) r0 step) b) some subset_rfl
    (fun block small => ?_)) (fun b => rfl)
  have panel := block_bounds bs (rhsCount call.side m n) block some small
  have width : blockLength (rhsCount call.side m n) bs (block * bs) = min bs (rhsCount call.side m n - block * bs) := rfl
  rw [width]
  generalize block * bs = r0 at panel ⊢
  generalize min bs (rhsCount call.side m n - r0) = width at panel ⊢
  obtain ⟨_, wide, reach⟩ := panel
  have lanes : Set.Ico r0 (r0 + width) ⊆ Set.Iio (rhsCount call.side m n) := fun lane inside => lt_of_lt_of_le inside.2 reach
  have cells : laneCells (Finset.range (dimension call.side m n)) (Set.Ico r0 (r0 + width)) ⊆
      laneCells (Finset.range (dimension call.side m n)) (Set.Iio (rhsCount call.side m n)) := fun _ member =>
      ⟨member.1, lanes member.2⟩
  have fits : sideRows call.side (dimension call.side m n) (r0 + width) ≤ toUsize call.ldb :=
    ((side_rows_fit call.side (le_refl _) reach).trans (dimension_rows call.side m n).le).trans bound
  refine product_by_steps (dimension call.side m n) (Set.Ico r0 (r0 + width)) (sideAddress call.side call.ldb) call.matrix call.alpha
    (blockCount (dimension call.side m n) bs) (blockStep (reachesForward call) (dimension call.side m n) bs) _
    (fun d inside => block_step_inside _ _ bs d some inside)
    ((side_lanes_injective call.side m n call.ldb bound).mono cells)
    (fun d p inRow inColumn earlier => matrix_triangular call (dimension call.side m n) d p inRow inColumn
      (block_step_before _ _ bs d p some inRow inColumn earlier)) (fun t below current => ?_)
  rw [block_step_cells _ _ bs r0 width t some below]
  by_cases threaded : rt.arch = .x86_64 ∧ rt.maxThreads (0 :: site) > 1
  · rw [if_pos threaded]
    exact wide_block env rt _ call bs _ width r0 t some below wide stepa stepb fits current
  · rw [if_neg threaded]
    exact panel_block env rt _ call bs _ width r0 t some below wide stepb fits current

omit [LawfulScalar T] in
theorem multiplied_on_tail (m n first width : Nat) (run : Mem T → Mem T)
    (meets : Meets (Multiplied call (sideRows call.side (dimension call.side m n) width)
      (sideColumns call.side (dimension call.side m n) width)
      (Set.Iio width)) run) :
    Meets (Multiplied call m n (Set.Ico first (first + width))) (onTail (sideIndex call.side call.ldb 0 first) run) := by
  have order : dimension call.side (sideRows call.side (dimension call.side m n) width)
      (sideColumns call.side (dimension call.side m n) width) = dimension call.side m n := by
    cases call.side <;> rfl
  rw [Multiplied, order] at meets
  rw [Multiplied, ← lanes_shifted first width]
  refine meets.product_carried _ (fun lane => first + lane) (sideAddress call.side call.ldb) (fun cell _ => ?_)
  have moved := side_address_offset call.side call.ldb 0 first cell.1 cell.2
  rw [Nat.zero_add] at moved
  exact moved.symm

theorem trmm_queued (perJob : Nat) (options : Options) (m n : Nat) (stepa : 0 < call.lda) (stepb : 0 < call.ldb)
    (bound : m ≤ toUsize call.ldb) :
    Tries (Multiplied call m n (Set.Iio (rhsCount call.side m n)))
      (tryQueuedTriangular rt site perJob options call m n (fun site => trmmWorkspace env rt site)) := by
  refine queued_tries rt site perJob options call m n _ (multiplied_lane_wise call m n bound) (fun site first width wide reach => ?_)
  refine multiplied_on_tail call m n first width _ ?_
  have rows : sideRows call.side (dimension call.side m n) width ≤ m :=
    (side_rows_fit call.side (le_refl _) (by omega)).trans (dimension_rows call.side m n).le
  have panel := trmm_workspace env rt site call 64 (sideRows call.side (dimension call.side m n) width)
    (sideColumns call.side (dimension call.side m n) width) (by omega) stepa stepb (rows.trans bound)
  have lanes : rhsCount call.side (sideRows call.side (dimension call.side m n) width)
      (sideColumns call.side (dimension call.side m n) width) = width := by
    cases call.side <;> rfl
  rw [lanes] at panel
  exact panel

omit [LawfulScalar T] in
theorem multiplied_nothing (m_ n_ : Int) (empty : m_ ≤ 0 ∨ n_ ≤ 0) :
    Meets (Multiplied call (toUsize m_) (toUsize n_) (Set.Iio (rhsCount call.side (toUsize m_) (toUsize n_)))) (fun b => b) := by
  have none := lanes_empty call.side (toUsize m_) (toUsize n_) (empty.imp Int.toNat_of_nonpos Int.toNat_of_nonpos)
  rw [Multiplied]
  exact fun before => ⟨fun cell member => absurd (none ▸ member) (Set.notMem_empty cell), fun _ _ => rfl⟩

theorem trmm_cleared (m n : Nat) (zero : isZero call.alpha = true) (bound : m ≤ toUsize call.ldb) :
    Meets (Multiplied call m n (Set.Iio (rhsCount call.side m n))) (fun b => clearDenseMatrix m n b call.ldb) := by
  have cleared := side_whole call.side m n call.ldb (fun _ => (0 : T)) (clear_updates m n call.ldb bound)
  refine fun before => (cleared.wrote before).congr_at (fun cell _ => ?_)
  rw [(LawfulScalar.isZero_iff call.alpha).mp zero, zero_mul]

theorem blocked_trmm_tries (options : Options) (m_ n_ : Int) (stepa : 0 < call.lda) (stepb : 0 < call.ldb) (bound : m_ ≤ call.ldb) :
    Tries (Multiplied call (toUsize m_) (toUsize n_) (Set.Iio (rhsCount call.side (toUsize m_) (toUsize n_))))
      (blockedTryTrmm env rt site options call m_ n_) := by
  have rows : toUsize m_ ≤ toUsize call.ldb := Int.toNat_le_toNat bound
  refine tries_guard _ (fun empty => (multiplied_nothing call m_ n_ empty).tries) (fun _ => ?_)
  refine tries_guard _ (fun zero => (trmm_cleared call _ _ zero rows).tries) (fun _ => ?_)
  refine (trmm_queued env rt (0 :: site) call _ options _ _ stepa stepb rows).or_try ?_
  refine tries_guard _ (fun _ => tries_decline _) (fun acquired => Meets.tries ?_)
  have valid := acquired_options rt (1 :: site) options 2 (Bool.of_not_eq_false acquired)
  exact trmm_workspace env rt (2 :: site) call options.blockSize _ _ valid.1 stepa stepb rows

end Routes

section Serial

variable (env : TriangularEnv T) (rt : Runtime) (site : Site) (call : TriangularCall T)

omit [LawfulScalar T] in
theorem multiply_right_row (m n row : Nat) (right : call.side = .right) (inside : row < m) (bound : m ≤ toUsize call.ldb) :
    Meets (Multiplied call m n {row}) (multiplyRightRow call n row) := by
  have lanes : laneCells (Finset.range n) {row} ⊆ laneCells (Finset.range n) (Set.Iio m) :=
    fun cell member => ⟨member.1, (member.2 : cell.2 = row) ▸ inside⟩
  have injective := side_lanes_injective .right m n call.ldb bound
  have forward : reachesForward call = !opIsUpper call.uplo call.mode := by
    rw [reaches_forward_side, if_neg (by rw [right]; exact nofun)]
  have shape := matrix_triangular call n
  rw [forward] at shape
  have rows := product_by_steps n {row} (sideAddress .right call.ldb) call.matrix call.alpha n
    (sweep (!opIsUpper call.uplo call.mode) n)
    (fun t b => Function.update b (sideAddress .right call.ldb (sweep (!opIsUpper call.uplo call.mode) n t, row))
      (call.alpha * ∑ p ∈ Finset.range n, call.matrix (sweep (!opIsUpper call.uplo call.mode) n t) p *
        b (sideAddress .right call.ldb (p, row)))) (sweep_inside _ n) (injective.mono lanes) shape.product (fun t below current => by
      refine (wrote_place n (sideAddress .right call.ldb) _ t below row _ current).congr_at (fun cell member => ?_)
      rw [step_cells_sweep n {row} _ t below] at member
      obtain ⟨here, lane⟩ := member
      simp only [Set.mem_singleton_iff] at lane
      rw [here, lane])
  have dims : dimension call.side m n = n := by rw [right]; rfl
  rw [Multiplied, dims, right]
  refine rows.congr_run (fun b => ?_)
  have column : ∀ j (b : Mem T), Function.update b (matIndex call.ldb row j) (call.alpha * loop n (fun p sum =>
      sum + b (matIndex call.ldb row p) * triValue call.uplo call.diag call.mode call.a call.lda p j) 0) =
      Function.update b (sideAddress .right call.ldb (j, row)) (call.alpha * ∑ p ∈ Finset.range n, call.matrix j p *
        b (sideAddress .right call.ldb (p, row))) := by
    intro j b
    rw [loop_accumulate, zero_add, tri_value_triangle]
    refine congrArg (fun value => Function.update b (matIndex call.ldb row j) (call.alpha * value)) ?_
    refine Finset.sum_congr rfl (fun p _ => ?_)
    rw [TriangularCall.matrix, right, mul_comm]
    rfl
  simp only [multiplyRightRow, column]
  cases opIsUpper call.uplo call.mode <;> rfl

omit [LawfulScalar T] in
theorem right_rows_multiplied (m n : Nat) (right : call.side = .right) (bound : m ≤ toUsize call.ldb) (first last : Nat)
    (inside : last ≤ m) : Meets (Multiplied call m n (Set.Ico first last))
    (loopRange first last (fun i => multiplyRightRow call n i)) := by
  have lanes : rhsCount call.side m n = m := by rw [right]; rfl
  have laneWise := multiplied_lane_wise call m n bound
  rw [lanes] at laneWise
  exact laneWise.one_by_one first last _ (fun lane member => lt_of_lt_of_le member.2 inside)
    (fun row _ below => multiply_right_row call m n row right (lt_of_lt_of_le below inside) bound)

theorem left_column_multiplied (m n j : Nat) (left : call.side = .left) (bound : m ≤ toUsize call.ldb) :
    Meets (Multiplied call m n {j}) (fun b => scaleDenseColumns m j (j + 1) call.alpha
      (onTail (matIndex call.ldb 0 j) (fun x => trmv env.vector rt site call.uplo call.mode call.diag m call.a call.lda x 1) b)
      call.ldb) := by
  have product := trmv_product env.vector rt site call.uplo call.mode call.diag m call.a call.lda 1 one_ne_zero
  rw [stride_address_unit, tri_value_triangle, toUsize, Int.toNat_natCast] at product
  have column := product.product_carried (matIndex call.ldb 0 j) (fun _ => j) (sideAddress .left call.ldb) (fun cell _ => by
    simp only [sideAddress, sideIndex, matIndex]
    omega)
  rw [Set.image_singleton] at column
  have scaled := scale_columns_updates m j (j + 1) call.alpha call.ldb bound
  rw [lane_alone] at scaled
  have dims : dimension call.side m n = m := by rw [left]; rfl
  have matrix : call.matrix = triangle call.uplo call.diag call.mode (denseEntry call.a call.lda) := by
    funext d p
    rw [TriangularCall.matrix, left]
    rfl
  rw [Multiplied, dims, left, matrix]
  exact column.product_scaled scaled

variable [Div T]

theorem left_columns_multiplied (m n : Nat) (left : call.side = .left) (bound : m ≤ toUsize call.ldb) (first last : Nat)
    (inside : last ≤ n) : Meets (Multiplied call m n (Set.Ico first last))
    (runLeftColumns env rt site .multiply call m first last) := by
  have lanes : rhsCount call.side m n = n := by rw [left]; rfl
  have laneWise := multiplied_lane_wise call m n bound
  rw [lanes] at laneWise
  exact laneWise.one_by_one first last _ (fun lane member => lt_of_lt_of_le member.2 inside)
    (fun j _ _ => left_column_multiplied env rt (j :: site) call m n j left bound)

theorem run_left_multiplied (m n : Nat) (left : call.side = .left) (bound : m ≤ toUsize call.ldb) :
    Meets (Multiplied call m n (Set.Iio n)) (runLeft env rt site .multiply call m n) := by
  have lanes : rhsCount call.side m n = n := by rw [left]; rfl
  have laneWise := multiplied_lane_wise call m n bound
  rw [lanes] at laneWise
  have serial := left_columns_multiplied env rt (1 :: site) call m n left bound 0 n (le_refl n)
  rw [Ico_from_zero] at serial
  refine meets_guard _ (fun several => ?_) (fun _ => serial)
  generalize (if satMul (satMul m m) n ≥ 8 * 1024 * 1024 then min (rt.taskCount (0 :: site) n) 32 else 1) = count at several ⊢
  have shared : 0 < count := by omega
  exact meets_attempt (fun before after accepted => shares_dispatched n laneWise rt (2 :: site) count shared _ (fun task small =>
    left_columns_multiplied env rt (task :: 3 :: site) call m n left bound _ _ (shared_inside n count task shared small))
    before after accepted) serial

omit [LawfulScalar T] in
-- The dispatch of triangular_right_parallel.zig, and the one of the isolated object.
theorem right_parallel_multiplied (m n : Nat) (right : call.side = .right) (bound : m ≤ toUsize call.ldb) :
    Tries (Multiplied call m n (Set.Iio m)) (rightParallelTryDispatch env rt site .multiply call m n) := by
  have lanes : rhsCount call.side m n = m := by rw [right]; rfl
  have laneWise := multiplied_lane_wise call m n bound
  rw [lanes] at laneWise
  refine tries_guard _ (fun _ => tries_decline _) (fun several => ?_)
  generalize (if rt.arch ≠ .x86_64 then 1 else if satMul (satMul m n) n < 8 * 1024 * 1024 then 1
    else min (rt.taskCount (0 :: site) m) 32) = count at several ⊢
  have shared : 0 < count := by omega
  exact tries_answered (fun before after accepted => shares_dispatched m laneWise rt (1 :: site) count shared _ (fun task small =>
    right_rows_multiplied call m n right bound _ _ (shared_inside m count task shared small)) before after accepted)

omit [LawfulScalar T] in
theorem isolated_multiplied (m_ n_ : Int) (right : call.side = .right) (bound : m_ ≤ call.ldb) :
    Tries (Multiplied call (toUsize m_) (toUsize n_) (Set.Iio (toUsize m_))) (isolatedTryRight env rt site .multiply call m_ n_) := by
  have rows : toUsize m_ ≤ toUsize call.ldb := Int.toNat_le_toNat bound
  have lanes : rhsCount call.side (toUsize m_) (toUsize n_) = toUsize m_ := by rw [right]; rfl
  have laneWise := multiplied_lane_wise call (toUsize m_) (toUsize n_) rows
  rw [lanes] at laneWise
  refine tries_guard _ (fun _ => tries_decline _) (fun _ => ?_)
  refine tries_guard _ (fun _ => tries_decline _) (fun _ => ?_)
  refine tries_guard _ (fun _ => tries_decline _) (fun several => ?_)
  generalize min (rt.taskCount (0 :: site) (toUsize m_)) 32 = count at several ⊢
  have shared : 0 < count := by omega
  exact tries_answered (fun before after accepted => shares_dispatched _ laneWise rt (1 :: site) count shared _ (fun task small =>
    right_rows_multiplied call _ _ right rows _ _ (shared_inside _ count task shared small)) before after accepted)

theorem trmm_serial_multiplied (m n : Nat) (bound : m ≤ toUsize call.ldb) :
    Meets (Multiplied call m n (Set.Iio (rhsCount call.side m n))) (trmmSerial env rt site call m n) := by
  cases side : call.side with
  | left =>
    refine (run_left_multiplied env rt site call m n side bound).congr_run (fun b => ?_)
    rw [trmmSerial, side]
  | right =>
    have rows := right_rows_multiplied call m n side bound 0 m (le_refl m)
    rw [Ico_from_zero] at rows
    refine rows.congr_run (fun b => ?_)
    simp only [trmmSerial, side, loopRange, Nat.sub_zero, Nat.zero_add]

theorem trmm_multiplied (m_ n_ : Int) (stepa : 0 < call.lda) (stepb : 0 < call.ldb) (bound : m_ ≤ call.ldb) :
    Meets (Multiplied call (toUsize m_) (toUsize n_) (Set.Iio (rhsCount call.side (toUsize m_) (toUsize n_))))
      (trmm env rt site call m_ n_) := by
  have rows : toUsize m_ ≤ toUsize call.ldb := Int.toNat_le_toNat bound
  refine meets_guard _ (fun empty => multiplied_nothing call m_ n_ empty) (fun _ => ?_)
  refine meets_guard _ (fun zero => trmm_cleared call _ _ zero rows) (fun _ => ?_)
  refine Tries.or_else ?_ (trmm_serial_multiplied env rt (5 :: site) call _ _ rows)
  have blocked : ∀ site options, Tries (Multiplied call (toUsize m_) (toUsize n_)
      (Set.Iio (rhsCount call.side (toUsize m_) (toUsize n_)))) (blockedTryTrmm env rt site options call m_ n_) :=
    fun site options => blocked_trmm_tries env rt site call options m_ n_ stepa stepb bound
  refine Tries.or_try (Tries.or_try ?_ ?_) ?_
  · exact tries_guard _ (fun _ => blocked _ _) (fun _ => tries_decline _)
  · exact tries_guard _ (fun _ => blocked _ _) (fun _ => tries_decline _)
  · refine tries_guard _ (fun taken => ?_) (fun _ => tries_decline _)
    have lanes : rhsCount call.side (toUsize m_) (toUsize n_) = toUsize m_ := by rw [taken.2.1]; rfl
    rw [lanes]
    exact isolated_multiplied env rt (4 :: site) call m_ n_ taken.2.1 bound

end Serial

end Zynum
