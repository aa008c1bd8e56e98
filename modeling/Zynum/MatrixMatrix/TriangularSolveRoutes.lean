import Zynum.MatrixMatrix.TriangularSolveExact

set_option autoImplicit false

/- The routes of TRSM: blocks solved and taken out of the rest, panels that first
   gather what is solved, rows and columns solved by themselves. -/
namespace Zynum

open ArrayProgram

variable {T : Type} [CommRing T] [Scalar T] [LawfulScalar T] [Div T] [ExactDivision T]

section Blocks

variable (env : TriangularEnv T) (rt : Runtime) (site : Site) (call : TriangularCall T)

omit [LawfulScalar T] [Div T] [ExactDivision T] in
theorem subtract_product (mode : TransposeMode) (d0 length r0 width count : Nat) (panel : Mem T) (ldPanel : Int) (rhs : Mem T)
    (stepPanel : 0 < ldPanel) (stepb : 0 < call.ldb) (bound : (sideRows call.side length width : Int) ≤ call.ldb)
    (left right : Nat → Nat → T)
    (sameLeft : ∀ d p, d < length → p < count → sideMatrix call.side (opEntry mode (denseEntry panel ldPanel)) d p = left d p)
    (sameRight : ∀ p r, p < count → r < width → rhs (sideIndex call.side call.ldb p r) = right p r) :
    Updates (tileCells d0 length r0 width) (sideAddress call.side call.ldb)
      (fun cell old => old - ∑ p ∈ Finset.range count, left (cell.1 - d0) p * right p (cell.2 - r0))
      (onTail (sideIndex call.side call.ldb d0 r0) (fun c => sideGemm env rt site call.side mode length width count (-1) panel ldPanel
        rhs call.ldb 1 c call.ldb)) := by
  have product := side_gemm_updates env rt site call.side mode length width count (-1) panel ldPanel rhs call.ldb 1 call.ldb stepPanel
    stepb stepb bound left right sameLeft sameRight
  refine side_tile_updates call.side product d0 r0 _ (fun d r old _ _ => ?_)
  simp only [gemmValue, Nat.add_sub_cancel_left]
  ring

omit [Scalar T] [LawfulScalar T] [Div T] [ExactDivision T] in
theorem Regular.block {diag : Diagonal} {M : Nat → Nat → T} {order : Nat} (regular : Regular diag order M) (start len : Nat)
    (reach : start + len ≤ order) : Regular diag len (fun d p => M (start + d) (start + p)) :=
  ⟨fun kind d inside => regular.nonzero kind (start + d) (by omega), fun kind d inside => regular.one kind (start + d) (by omega)⟩

theorem side_lane_row (side : OperandSide) {d r order lanes : Nat} (place : d < order) (lane : r < lanes) :
    (d, r) ∈ {cell : Nat × Nat | sideRows side cell.1 cell.2 < sideRows side order lanes} := by
  cases side with
  | left => exact place
  | right => exact lane

theorem solved_block (forward : Bool) (bs order t r0 width : Nat) (some : 0 < bs) (below : t < blockCount order bs) (buffer : Mem T)
    (regular : Regular call.diag order call.matrix) (bound : sideRows call.side order (r0 + width) ≤ toUsize call.ldb)
    (stepb : 0 < call.ldb) (current : Mem T) (X : Nat → Nat → T)
    (solves : ∀ d, d < order → blockStep forward order bs d = t → ∀ r, r ∈ Set.Ico r0 (r0 + width) →
      ∑ p ∈ (Finset.range order).filter (fun p => blockStep forward order bs p = t), call.matrix d p * X p r =
        current (sideAddress call.side call.ldb (d, r))) :
    Wrote (tileCells (sweep forward (blockCount order bs) t * bs)
        (min bs (order - sweep forward (blockCount order bs) t * bs)) r0 width) (sideAddress call.side call.ldb)
      (fun cell _ => X cell.1 cell.2) current
      (solvePacked env rt site call (min bs (order - sweep forward (blockCount order bs) t * bs)) width
        (packedPanel call (sweep forward (blockCount order bs) t * bs) (sweep forward (blockCount order bs) t * bs)
          (min bs (order - sweep forward (blockCount order bs) t * bs)) (min bs (order - sweep forward (blockCount order bs) t * bs))
          buffer) (sweep forward (blockCount order bs) t * bs) r0 current) := by
  have sums := fun term : Nat → T => block_step_sum forward order bs t some below term
  have owned : ∀ d, d < min bs (order - sweep forward (blockCount order bs) t * bs) →
      blockStep forward order bs (sweep forward (blockCount order bs) t * bs + d) = t := fun d inside => by
    rw [block_step_of forward order bs _ d inside, sweep_sweep forward _ t below]
  obtain ⟨started, length, reach⟩ := block_bounds bs order _ some (sweep_inside forward _ t below)
  generalize sweep forward (blockCount order bs) t * bs = start at *
  generalize min bs (order - start) = len at *
  have solved := solve_packed env rt site call start len width r0 buffer (regular.block start len reach)
    ((side_rows_fit call.side reach (le_refl _)).trans bound) stepb current (fun p r => X (start + p) (r0 + r))
    (fun d inPlaces r inLanes => by
      have inside := Finset.mem_range.mp inPlaces
      have small : r < width := inLanes
      have equation := solves (start + d) (by omega) (owned d inside) (r0 + r) ⟨Nat.le_add_right _ _, Nat.add_lt_add_left small r0⟩
      rw [sums] at equation
      exact equation.trans (one_mul _).symm)
  have moved : Wrote _ (sideAddress call.side call.ldb) (fun cell _ => X cell.1 cell.2) current _ :=
    Wrote.reindex (fun cell : Nat × Nat => (start + cell.1, r0 + cell.2)) solved
  rw [← matrix_lanes, tile_image] at moved
  exact moved

theorem trsm_wide_block (bs order rhs t : Nat) (some : 0 < bs) (below : t < blockCount order bs)
    (regular : Regular call.diag order call.matrix) (bound : sideRows call.side order rhs ≤ toUsize call.ldb) (stepa : 0 < call.lda)
    (stepb : 0 < call.ldb) (current : Mem T) (X : Nat → Nat → T)
    (solves : ∀ d, d < order → blockStep (!reachesForward call) order bs d = t → ∀ r, r ∈ Set.Iio rhs →
      ∑ p ∈ (Finset.range order).filter (fun p => blockStep (!reachesForward call) order bs p = t), call.matrix d p * X p r =
        current (sideAddress call.side call.ldb (d, r))) :
    Wrote {cell | cell ∈ laneCells (Finset.range order) (Set.Iio rhs) ∧ t ≤ blockStep (!reachesForward call) order bs cell.1}
      (sideAddress call.side call.ldb)
      (fun cell old => if blockStep (!reachesForward call) order bs cell.1 = t then X cell.1 cell.2
        else old - ∑ p ∈ (Finset.range order).filter (fun p => blockStep (!reachesForward call) order bs p = t),
          call.matrix cell.1 p * X p cell.2)
      current (trsmWideBlock env rt site call bs order rhs t current) := by
  have solved := solved_block env rt (1 :: site) call (!reachesForward call) bs order t 0 rhs some below (env.scratch (0 :: site))
    regular (by rw [Nat.zero_add]; exact bound) stepb current X (by simpa only [Nat.zero_add, Ico_from_zero] using solves)
  have own := block_step_cells (!reachesForward call) order bs 0 rhs t some below
  have rest := fun d inside => block_rest (!reachesForward call) order bs t d some below inside
  have sums := fun term : Nat → T => block_step_sum (!reachesForward call) order bs t some below term
  have index : (if (!reachesForward call) = true then t else blockCount order bs - 1 - t) =
      sweep (!reachesForward call) (blockCount order bs) t := rfl
  obtain ⟨started, length, reach⟩ := block_bounds bs order _ some (sweep_inside (!reachesForward call) _ t below)
  simp only [trsmWideBlock, index, packed_diagonal]
  generalize sweep (!reachesForward call) (blockCount order bs) t * bs = start at *
  generalize min bs (order - start) = len at *
  generalize solvePacked env rt (1 :: site) call len rhs (packedPanel call start start len len (env.scratch (0 :: site))) start 0
    current = between at *
  generalize beyond : (if (!reachesForward call) = true then start + len else 0) = first
  generalize left : (if (!reachesForward call) = true then order - first else start) = count
  have within : first + count ≤ order := by
    cases forward : reachesForward call <;>
      simp only [forward, Bool.not_true, Bool.not_false, Bool.false_eq_true, if_true, if_false] at beyond left <;> omega
  have reached : ∀ d, d < order → (t < blockStep (!reachesForward call) order bs d ↔ first ≤ d ∧ d < first + count) := by
    intro d inside
    rw [rest d inside]
    cases forward : reachesForward call <;>
      simp only [forward, Bool.not_true, Bool.not_false, Bool.false_eq_true, if_true, if_false] at beyond left ⊢ <;> omega
  have injective := side_injective call.side call.ldb (sideRows call.side order rhs) bound
  have inside : ∀ cell, cell ∈ laneCells (Finset.range order) (Set.Iio rhs) →
      cell ∈ {cell : Nat × Nat | sideRows call.side cell.1 cell.2 < sideRows call.side order rhs} := by
    rintro ⟨d, r⟩ ⟨inPlaces, inLanes⟩
    have place := Finset.mem_range.mp inPlaces
    have lane : r < rhs := inLanes
    exact side_lane_row call.side place lane
  have apart := injective.mono inside
  rw [Nat.zero_add, Ico_from_zero] at own
  rw [← own] at solved
  have subtracted : Wrote (tileCells first count 0 rhs) (sideAddress call.side call.ldb)
      (fun cell old => old - ∑ p ∈ Finset.range len, call.matrix cell.1 (start + p) * X (start + p) cell.2) between
      (if count > 0 then onTail (sideIndex call.side call.ldb first 0)
        (fun c => sideGemm env rt (2 :: site) call.side call.mode count rhs
        len (-1) (operandPanel call first start) call.lda (view between (sideIndex call.side call.ldb start 0)) call.ldb 1 c call.ldb)
        between else between) := by
    by_cases none : count = 0
    · rw [none, if_neg (Nat.lt_irrefl 0)]
      exact ⟨fun cell member => absurd member.1 (by omega), fun _ _ => rfl⟩
    rw [if_pos (Nat.pos_of_ne_zero none)]
    have rows : sideRows call.side count rhs ≤ toUsize call.ldb :=
      (side_rows_fit call.side ((Nat.le_add_left count first).trans within) (le_refl rhs)).trans bound
    have product := subtract_product env rt (2 :: site) call call.mode first count 0 rhs len (operandPanel call first start) call.lda
      (view between (sideIndex call.side call.ldb start 0)) stepa stepb (by simp only [toUsize] at rows; omega)
      (fun d p => call.matrix (first + d) (start + p)) (fun p r => X (start + p) r) (fun d p inCount inLength => ?_)
      (fun p r inLength inWidth => ?_)
    · refine (product.wrote between).congr (fun cell old member => ?_)
      rw [Nat.add_sub_cancel' member.1.1, Nat.sub_zero]
    · refine operand_panel_entry call first start d p ?_
      cases forward : reachesForward call <;>
        simp only [forward, Bool.not_true, Bool.not_false, Bool.false_eq_true, if_true, if_false] at beyond left ⊢ <;> omega
    · have place := congrArg between (side_address_offset call.side call.ldb start 0 p r)
      rw [Nat.zero_add] at place
      refine place.trans (solved.written (start + p, r) ?_)
      rw [own]
      exact ⟨⟨Nat.le_add_right _ _, Nat.add_lt_add_left inLength start⟩, Nat.zero_le r, by rw [Nat.zero_add]; exact inWidth⟩
  have taken : ∀ cell, cell ∈ tileCells first count 0 rhs → cell ∈ laneCells (Finset.range order) (Set.Iio rhs) ∧
      t < blockStep (!reachesForward call) order bs cell.1 := fun cell member => by
    have place : cell.1 < order := lt_of_lt_of_le member.1.2 within
    have lane : cell.2 < 0 + rhs := member.2.2
    rw [Nat.zero_add] at lane
    exact ⟨⟨Finset.mem_range.mpr place, lane⟩, (reached cell.1 place).mpr member.1⟩
  constructor
  · rintro ⟨d, r⟩ ⟨⟨inPlaces, inLanes⟩, touched⟩
    have place := Finset.mem_range.mp inPlaces
    by_cases here : blockStep (!reachesForward call) order bs d = t
    · rw [if_pos here, subtracted.untouched apart (fun cell member => (taken cell member).1) (d, r) ⟨inPlaces, inLanes⟩
        (fun member => by
        have later := (taken (d, r) member).2
        rw [here] at later
        exact Nat.lt_irrefl t later)]
      exact solved.written (d, r) ⟨⟨inPlaces, inLanes⟩, here⟩
    · have later := (reached d place).mp (Nat.lt_of_le_of_ne touched (Ne.symm here))
      have lane : r < rhs := inLanes
      rw [if_neg here, subtracted.written (d, r) ⟨later, Nat.zero_le r, by rw [Nat.zero_add]; exact lane⟩,
        solved.untouched apart (fun cell member => member.1) (d, r) ⟨inPlaces, inLanes⟩ (fun member => here member.2), sums]
  · intro location outside
    rw [subtracted.kept location (fun cell member => outside cell ⟨(taken cell member).1, (taken cell member).2.le⟩),
      solved.kept location (fun cell member => outside cell ⟨member.1, member.2.ge⟩)]

omit [Div T] [ExactDivision T] in
theorem gathered_blocks (forward : Bool) (bs order t r0 width : Nat) (some : 0 < bs) (below : t < blockCount order bs)
    (bound : sideRows call.side order (r0 + width) ≤ toUsize call.ldb)
    (stepb : 0 < call.ldb) (first last : Nat) (start : first = if forward then 0 else sweep forward (blockCount order bs) t + 1)
    (finish : last = if forward then sweep forward (blockCount order bs) t else blockCount order bs) (current : Mem T) :
    Wrote (tileCells (sweep forward (blockCount order bs) t * bs)
        (min bs (order - sweep forward (blockCount order bs) t * bs)) r0 width) (sideAddress call.side call.ldb)
      (fun cell old => old - ∑ p ∈ (Finset.range order).filter (fun p => blockStep forward order bs p < t),
        call.matrix cell.1 p * current (sideAddress call.side call.ldb (p, cell.2))) current
      (loopRange first last (fun pi b => onTail (sideIndex call.side call.ldb (sweep forward (blockCount order bs) t * bs) r0)
        (fun c => sideGemm env rt (pi :: 1 :: site) call.side .noTrans
          (min bs (order - sweep forward (blockCount order bs) t * bs)) width
          (min bs (order - pi * bs)) (-1) (packedPanel call (sweep forward (blockCount order bs) t * bs) (pi * bs)
            (min bs (order - sweep forward (blockCount order bs) t * bs)) (min bs (order - pi * bs)) (env.scratch (pi :: 0 :: site)))
          (packedRows call.side (min bs (order - sweep forward (blockCount order bs) t * bs)) (min bs (order - pi * bs)))
          (view b (sideIndex call.side call.ldb (pi * bs) r0)) call.ldb 1 c call.ldb) b) current) := by
  have sums := fun term : Nat → T => block_before_sum forward order bs t some below term
  rw [← start, ← finish] at sums
  have bounds := block_bounds bs order _ some (sweep_inside forward _ t below)
  have other : ∀ pi, first ≤ pi → pi < last → pi < blockCount order bs ∧ pi ≠ sweep forward (blockCount order bs) t := by
    intro pi lower upper
    have inside := sweep_inside forward _ t below
    cases forward <;> simp only [Bool.false_eq_true, if_true, if_false] at start finish <;> omega
  have injective := side_injective call.side call.ldb (sideRows call.side order (r0 + width)) bound
  generalize sweep forward (blockCount order bs) t = block at *
  have height : min bs (order - block * bs) = blockLength order bs (block * bs) := rfl
  simp only [sums]
  have progress := loop_invariant (last - first) (fun step b => onTail (sideIndex call.side call.ldb (block * bs) r0)
      (fun c => sideGemm env rt ((first + step) :: 1 :: site) call.side .noTrans (min bs (order - block * bs)) width
        (min bs (order - (first + step) * bs)) (-1) (packedPanel call (block * bs) ((first + step) * bs) (min bs (order - block * bs))
          (min bs (order - (first + step) * bs)) (env.scratch ((first + step) :: 0 :: site)))
        (packedRows call.side (min bs (order - block * bs)) (min bs (order - (first + step) * bs)))
        (view b (sideIndex call.side call.ldb ((first + step) * bs) r0)) call.ldb 1 c call.ldb) b) current
    (fun done b => Wrote (tileCells (block * bs) (min bs (order - block * bs)) r0 width) (sideAddress call.side call.ldb)
      (fun cell old => old - ∑ pi ∈ Finset.Ico first (first + done), ∑ q ∈ Finset.range (blockLength order bs (pi * bs)),
        call.matrix cell.1 (pi * bs + q) * current (sideAddress call.side call.ldb (pi * bs + q, cell.2))) current b) ?_ ?_
  · by_cases idle : first ≤ last
    · rw [Nat.add_sub_cancel' idle] at progress
      exact progress
    · have none : last - first = 0 := by omega
      have empty : Finset.Ico first last = ∅ := Finset.Ico_eq_empty_of_le (by omega)
      rw [none, Nat.add_zero, Finset.Ico_self] at progress
      rw [loopRange, none, empty]
      exact progress
  · exact ⟨fun cell _ => by rw [Nat.add_zero, Finset.Ico_self, Finset.sum_empty, sub_zero], fun _ _ => rfl⟩
  · intro done b small wrote
    obtain ⟨inBlocks, different⟩ := other (first + done) (Nat.le_add_right _ _) (by omega)
    have lower := Nat.le_add_right first done
    rw [← Nat.add_assoc]
    generalize first + done = pi at *
    have depth := block_bounds bs order pi some inBlocks
    have panel := packed_panel_entry call (block * bs) (pi * bs) (min bs (order - block * bs))
      (min bs (order - pi * bs)) (env.scratch (pi :: 0 :: site))
    have unread : ∀ p r, p < min bs (order - pi * bs) → r < width →
        b (sideAddress call.side call.ldb (pi * bs + p, r0 + r)) =
          current (sideAddress call.side call.ldb (pi * bs + p, r0 + r)) := by
      intro p r inLength inWidth
      refine wrote.kept _ (fun cell member same => ?_)
      have cells := injective (side_lane_row call.side (lt_of_lt_of_le member.1.2 bounds.2.2) member.2.2)
        (side_lane_row call.side (by omega) (by omega)) same
      have place := congrArg Prod.fst cells
      have mine := (div_block cell.1 bs block some).mpr ⟨member.1.1,
        lt_of_lt_of_le member.1.2 (Nat.add_le_add_left (Nat.min_le_left _ _) _)⟩
      have theirs := (div_block (pi * bs + p) bs pi some).mpr (by omega)
      exact different (by rw [← theirs, ← mine, place])
    have square : 0 < packedRows call.side (min bs (order - block * bs)) (min bs (order - pi * bs)) := by
      rw [packedRows]
      split <;> omega
    have rows : sideRows call.side (min bs (order - block * bs)) width ≤ toUsize call.ldb :=
      (side_rows_fit call.side (by omega) (Nat.le_add_left width r0)).trans bound
    have turn := subtract_product env rt (pi :: 1 :: site) call .noTrans (block * bs) (min bs (order - block * bs)) r0 width
      (min bs (order - pi * bs)) _ _ (view b (sideIndex call.side call.ldb (pi * bs) r0))
      (by omega) stepb (by simp only [toUsize] at rows; omega)
      (fun d p => call.matrix (block * bs + d) (pi * bs + p))
      (fun p r => current (sideAddress call.side call.ldb (pi * bs + p, r0 + r))) panel
      (fun p r inLength inWidth => (congrArg b (side_address_offset call.side call.ldb (pi * bs) r0 p r)).trans
        (unread p r inLength inWidth))
    constructor
    · intro cell member
      rw [turn.written b cell member, wrote.written cell member, Finset.sum_Ico_succ_top lower,
        sub_sub]
      simp only [Nat.add_sub_cancel' member.1.1, Nat.add_sub_cancel' member.2.1]
      rfl
    · intro location outside
      rw [turn.kept b location outside, wrote.kept location outside]

theorem trsm_panel_block (bs order t r0 width : Nat) (some : 0 < bs) (below : t < blockCount order bs)
    (regular : Regular call.diag order call.matrix) (bound : sideRows call.side order (r0 + width) ≤ toUsize call.ldb)
    (stepb : 0 < call.ldb) (current : Mem T) (X : Nat → Nat → T)
    (solves : ∀ d, d < order → blockStep (!reachesForward call) order bs d = t → ∀ r, r ∈ Set.Ico r0 (r0 + width) →
      ∑ p ∈ (Finset.range order).filter (fun p => blockStep (!reachesForward call) order bs p = t), call.matrix d p * X p r =
        current (sideAddress call.side call.ldb (d, r)) -
          ∑ p ∈ (Finset.range order).filter (fun p => blockStep (!reachesForward call) order bs p < t),
            call.matrix d p * current (sideAddress call.side call.ldb (p, r))) :
    Wrote (stepCells order (Set.Ico r0 (r0 + width)) (blockStep (!reachesForward call) order bs) t) (sideAddress call.side call.ldb)
      (fun cell _ => X cell.1 cell.2) current (trsmPanelBlock env rt site call bs order width r0 t current) := by
  have gathered := gathered_blocks env rt site call (!reachesForward call) bs order t r0 width some below bound stepb _ _
    rfl rfl current
  have own := block_step_cells (!reachesForward call) order bs r0 width t some below
  have index : (if (!reachesForward call) = true then t else blockCount order bs - 1 - t) =
      sweep (!reachesForward call) (blockCount order bs) t := rfl
  simp only [trsmPanelBlock, index, packed_diagonal]
  generalize loopRange _ _ _ current = between at gathered ⊢
  have solved := solved_block env rt (3 :: site) call (!reachesForward call) bs order t r0 width some below (env.scratch (2 :: site))
    regular bound stepb between X (fun d inside same r inLanes => by
      rw [gathered.written (d, r) (own ▸ ⟨⟨Finset.mem_range.mpr inside, inLanes⟩, same⟩)]
      exact solves d inside same r inLanes)
  rw [own]
  exact ⟨solved.written, fun location outside => (solved.kept location outside).trans (gathered.kept location outside)⟩

end Blocks

section Routes

variable (env : TriangularEnv T) (rt : Runtime) (site : Site) (call : TriangularCall T)

def Solved (call : TriangularCall T) (alpha : T) (m n : Nat) (lanes : Set Nat) : Mem T → Mem T → Prop :=
  Solution (Finset.range (dimension call.side m n)) lanes (sideAddress call.side call.ldb) call.matrix alpha

omit [LawfulScalar T] [Div T] [ExactDivision T] in
theorem solved_lane_wise (alpha : T) (m n : Nat) (bound : m ≤ toUsize call.ldb) :
    LaneWise (Solved call alpha m n) (Set.Iio (rhsCount call.side m n)) :=
  solution_lane_wise _ _ _ _ _ (side_lanes_injective call.side m n call.ldb bound)

omit [Div T] [ExactDivision T] in
theorem solved_after_scale (m n : Nat) (bound : m ≤ toUsize call.ldb) {run : Mem T → Mem T}
    (meets : Meets (Solved call 1 m n (Set.Iio (rhsCount call.side m n))) run) :
    Meets (Solved call call.alpha m n (Set.Iio (rhsCount call.side m n))) (fun b => run (scaleGeneral m n call.alpha b call.ldb)) :=
  Meets.solution_scaled meets (side_whole call.side m n call.ldb _ (scale_general_updates m n call.alpha call.ldb bound))

theorem trsm_workspace (bs m n : Nat) (some : 0 < bs) (regular : Regular call.diag (dimension call.side m n) call.matrix)
    (stepa : 0 < call.lda) (stepb : 0 < call.ldb) (bound : m ≤ toUsize call.ldb) :
    Meets (Solved call call.alpha m n (Set.Iio (rhsCount call.side m n))) (trsmWorkspace env rt site bs call m n) := by
  have injective := side_lanes_injective call.side m n call.ldb bound
  have fits : sideRows call.side (dimension call.side m n) (rhsCount call.side m n) ≤ toUsize call.ldb :=
    (dimension_rows call.side m n).le.trans bound
  have steps := fun d inside => block_step_inside (!reachesForward call) (dimension call.side m n) bs d some inside
  have ordered : ∀ d p, d < dimension call.side m n → p < dimension call.side m n →
      blockStep (!reachesForward call) (dimension call.side m n) bs d < blockStep (!reachesForward call)
      (dimension call.side m n) bs p →
      call.matrix d p = 0 := by
    intro d p inRow inColumn earlier
    refine matrix_triangular call (dimension call.side m n) d p inRow inColumn ?_
    have before := block_step_before _ _ bs p d some inColumn inRow earlier
    cases forward : reachesForward call <;>
      simp only [forward, Bool.not_true, Bool.not_false, Bool.false_eq_true, if_true, if_false] at before ⊢ <;> exact before
  have wide : Meets (Solved call 1 m n (Set.Iio (rhsCount call.side m n))) (loop (blockCount (dimension call.side m n) bs)
      (fun step => trsmWideBlock env rt (step :: 0 :: site) call bs (dimension call.side m n) (rhsCount call.side m n) step)) :=
    solution_right_looking _ _ _ _ _ _ _ steps injective ordered (fun t below current X solves =>
      trsm_wide_block env rt _ call bs _ _ t some below regular fits stepa stepb current X solves)
  have panels : Meets (Solved call 1 m n (Set.Iio (rhsCount call.side m n))) (strideLoop 0 (rhsCount call.side m n) bs (fun r0 b =>
      loop (blockCount (dimension call.side m n) bs) (fun step => trsmPanelBlock env rt (step :: r0 :: 1 :: site) call bs
        (dimension call.side m n) (min bs (rhsCount call.side m n - r0)) r0 step) b)) := by
    refine (solved_lane_wise call 1 m n bound).blocks (rhsCount call.side m n) bs _ some subset_rfl (fun block small => ?_)
    have panel := block_bounds bs (rhsCount call.side m n) block some small
    have width : blockLength (rhsCount call.side m n) bs (block * bs) = min bs (rhsCount call.side m n - block * bs) := rfl
    rw [width]
    generalize block * bs = r0 at panel ⊢
    generalize min bs (rhsCount call.side m n - r0) = width at panel ⊢
    obtain ⟨_, _, reach⟩ := panel
    have lanes : Set.Ico r0 (r0 + width) ⊆ Set.Iio (rhsCount call.side m n) := fun lane inside => lt_of_lt_of_le inside.2 reach
    have cells : laneCells (Finset.range (dimension call.side m n)) (Set.Ico r0 (r0 + width)) ⊆
        laneCells (Finset.range (dimension call.side m n)) (Set.Iio (rhsCount call.side m n)) := fun _ member =>
        ⟨member.1, lanes member.2⟩
    exact solution_left_looking _ _ _ _ _ _ _ steps (injective.mono cells) ordered (fun t below current X solves =>
      trsm_panel_block env rt _ call bs _ t r0 width some below regular ((side_rows_fit call.side (le_refl _) reach).trans fits) stepb
        current X solves)
  exact (solved_after_scale call m n bound (meets_guard (rt.arch = .x86_64) (fun _ => wide) (fun _ => panels))).congr_run
    (fun b => rfl)

omit [LawfulScalar T] [Div T] [ExactDivision T] in
theorem solved_on_tail (m n first width : Nat) (run : Mem T → Mem T)
    (meets : Meets (Solved call call.alpha (sideRows call.side (dimension call.side m n) width)
      (sideColumns call.side (dimension call.side m n) width) (Set.Iio width)) run) :
    Meets (Solved call call.alpha m n (Set.Ico first (first + width))) (onTail (sideIndex call.side call.ldb 0 first) run) := by
  have order : dimension call.side (sideRows call.side (dimension call.side m n) width)
      (sideColumns call.side (dimension call.side m n) width) = dimension call.side m n := by
    cases call.side <;> rfl
  rw [Solved, order] at meets
  rw [Solved, ← lanes_shifted first width]
  refine meets.solution_carried _ (fun lane => first + lane) (sideAddress call.side call.ldb) (fun cell _ => ?_)
  have moved := side_address_offset call.side call.ldb 0 first cell.1 cell.2
  rw [Nat.zero_add] at moved
  exact moved.symm

theorem trsm_queued (perJob : Nat) (options : Options) (m n : Nat) (regular : Regular call.diag (dimension call.side m n) call.matrix)
    (stepa : 0 < call.lda) (stepb : 0 < call.ldb) (bound : m ≤ toUsize call.ldb) :
    Tries (Solved call call.alpha m n (Set.Iio (rhsCount call.side m n)))
      (tryQueuedTriangular rt site perJob options call m n (fun site => trsmWorkspace env rt site)) := by
  refine queued_tries rt site perJob options call m n _ (solved_lane_wise call call.alpha m n bound)
    (fun site first width wide reach => ?_)
  refine solved_on_tail call m n first width _ ?_
  have rows : sideRows call.side (dimension call.side m n) width ≤ m :=
    (side_rows_fit call.side (le_refl _) (by omega)).trans (dimension_rows call.side m n).le
  have order : dimension call.side (sideRows call.side (dimension call.side m n) width)
      (sideColumns call.side (dimension call.side m n) width) = dimension call.side m n := by
    cases call.side <;> rfl
  have lanes : rhsCount call.side (sideRows call.side (dimension call.side m n) width)
      (sideColumns call.side (dimension call.side m n) width) = width := by
    cases call.side <;> rfl
  have panel := trsm_workspace env rt site call 64 (sideRows call.side (dimension call.side m n) width)
    (sideColumns call.side (dimension call.side m n) width) (by omega) (by rw [order]; exact regular) stepa stepb (rows.trans bound)
  rw [lanes] at panel
  exact panel

theorem trsm_cleared (m n : Nat) (zero : isZero call.alpha = true) (regular : Regular call.diag (dimension call.side m n) call.matrix)
    (bound : m ≤ toUsize call.ldb) :
    Meets (Solved call call.alpha m n (Set.Iio (rhsCount call.side m n))) (fun b => clearDenseMatrix m n b call.ldb) := by
  have nothing := (LawfulScalar.isZero_iff call.alpha).mp zero
  have cleared := side_whole call.side m n call.ldb (fun _ => (0 : T)) (clear_updates m n call.ldb bound)
  intro before X solves
  refine (cleared.wrote before).congr_at (fun cell member => ?_)
  refine triangular_solution_unique _ call.matrix (reachesForward call) (matrix_triangular call _) regular.units _ _ (fun _ _ => 0) X
    (fun d _ r _ => ?_) solves cell.1 cell.2 (Finset.mem_range.mp member.1) member.2
  simp only [mul_zero, Finset.sum_const_zero, nothing, zero_mul]

omit [LawfulScalar T] [Div T] [ExactDivision T] in
theorem solved_nothing (m_ n_ : Int) (empty : m_ ≤ 0 ∨ n_ ≤ 0) :
    Meets (Solved call call.alpha (toUsize m_) (toUsize n_) (Set.Iio (rhsCount call.side (toUsize m_) (toUsize n_))))
    (fun b => b) := by
  have none := lanes_empty call.side (toUsize m_) (toUsize n_) (empty.imp Int.toNat_of_nonpos Int.toNat_of_nonpos)
  rw [Solved]
  exact fun before X _ => ⟨fun cell member => absurd (none ▸ member) (Set.notMem_empty cell), fun _ _ => rfl⟩

theorem blocked_trsm_tries (options : Options) (m_ n_ : Int)
    (regular : Regular call.diag (dimension call.side (toUsize m_) (toUsize n_)) call.matrix) (stepa : 0 < call.lda)
    (stepb : 0 < call.ldb) (bound : m_ ≤ call.ldb) :
    Tries (Solved call call.alpha (toUsize m_) (toUsize n_) (Set.Iio (rhsCount call.side (toUsize m_) (toUsize n_))))
      (blockedTryTrsm env rt site options call m_ n_) := by
  have rows : toUsize m_ ≤ toUsize call.ldb := Int.toNat_le_toNat bound
  refine tries_guard _ (fun empty => (solved_nothing call m_ n_ empty).tries) (fun _ => ?_)
  refine tries_guard _ (fun zero => (trsm_cleared call _ _ zero regular rows).tries) (fun _ => ?_)
  refine (trsm_queued env rt (0 :: site) call _ options _ _ regular stepa stepb rows).or_try ?_
  refine tries_guard _ (fun _ => tries_decline _) (fun acquired => Meets.tries ?_)
  have valid := acquired_options rt (1 :: site) options 1 (Bool.of_not_eq_false acquired)
  exact trsm_workspace env rt (2 :: site) call options.blockSize _ _ valid.1 regular stepa stepb rows

end Routes

section Serial

variable (env : TriangularEnv T) (rt : Runtime) (site : Site) (call : TriangularCall T)

omit [LawfulScalar T] [Div T] [ExactDivision T] in
theorem triangle_turned (uplo : Triangle) (diag : Diagonal) (entry : Nat → Nat → T) (d p : Nat) :
    triangle uplo diag .trans entry d p = triangle uplo diag .noTrans entry p d := by
  simp only [triangle, reduceCtorEq, if_true, if_false]

omit [Div T] [ExactDivision T] in
theorem triangle_conjugate (uplo : Triangle) (diag : Diagonal) (entry : Nat → Nat → T) (d p : Nat) :
    triangle uplo diag .conjTrans entry d p = conj (triangle uplo diag .noTrans entry p d) := by
  simp only [triangle, reduceCtorEq, if_true, if_false]
  split
  · exact LawfulScalar.conj_one.symm
  · split
    · rfl
    · exact conj_zero.symm

omit [LawfulScalar T] [Div T] [ExactDivision T] in
theorem call_matrix_right (call : TriangularCall T) (right : call.side = .right) (d p : Nat) :
    call.matrix d p = triangle call.uplo call.diag call.mode (denseEntry call.a call.lda) p d := by
  rw [TriangularCall.matrix, right]
  rfl

-- A solver of one row of B with the stored triangle, in place.
def SolvesRow (call : TriangularCall T) (n : Nat) (solve : TransposeMode → Mem T → Mem T) : Prop :=
  ∀ mode, mode ≠ .conjTrans → Meets (Solution (Finset.range n) {0} (strideAddress n call.ldb)
    (triangle call.uplo call.diag mode (denseEntry call.a call.lda)) 1) (solve mode)

omit [Scalar T] [LawfulScalar T] [Div T] [ExactDivision T] in
theorem row_solved (call : TriangularCall T) (n row : Nat) (stepb : 0 < call.ldb) {M : Nat → Nat → T} {run : Mem T → Mem T}
    (meets : Meets (Solution (Finset.range n) {0} (strideAddress n call.ldb) M 1) run) :
    Meets (Solution (Finset.range n) {row} (sideAddress .right call.ldb) M 1) (onTail (matIndex call.ldb row 0) run) := by
  have carried := meets.solution_carried (matIndex call.ldb row 0) (fun _ => row) (sideAddress .right call.ldb) (fun cell member => by
    have lane : cell.2 = 0 := member.2
    obtain ⟨d, r⟩ := cell
    simp only at lane
    rw [lane, stride_address_forward (n : Int) call.ldb stepb]
    simp only [sideAddress, sideIndex, matIndex]
    omega)
  rwa [Set.image_singleton] at carried

omit [CommRing T] [LawfulScalar T] [Div T] [ExactDivision T] in
theorem conjugate_row_updates (call : TriangularCall T) (m n row : Nat) (inside : row < m) (bound : m ≤ toUsize call.ldb) :
    Updates (laneCells (Finset.range n) {row}) (sideAddress .right call.ldb) (fun _ (old : T) => conj old)
      (fun b => conjugateDenseRow n row b call.ldb) := by
  have injective := side_injective .right call.ldb m bound
  have elementwise := updates_elementwise n (fun j => sideAddress .right call.ldb (j, row)) (fun _ (old : T) => conj old)
    (fun j _ j' _ same => by
      have cells := injective (show (j, row) ∈ {cell : Nat × Nat | sideRows .right cell.1 cell.2 < m} from inside)
        (show (j', row) ∈ {cell : Nat × Nat | sideRows .right cell.1 cell.2 < m} from inside) same
      exact congrArg Prod.fst cells)
  have moved : Updates _ (sideAddress .right call.ldb) (fun _ (old : T) => conj old) _ :=
    Updates.reindex (fun j : Nat => (j, row)) elementwise
  refine moved.congr ?_ (fun _ _ _ => rfl)
  ext ⟨d, r⟩
  simp only [Set.mem_image, Set.mem_Iio, Prod.mk.injEq, laneCells, Set.mem_ofPred_eq, Finset.mem_range, Set.mem_singleton_iff]
  constructor
  · rintro ⟨j, small, rfl, rfl⟩
    exact ⟨small, rfl⟩
  · rintro ⟨small, rfl⟩
    exact ⟨d, small, rfl, rfl⟩

omit [Div T] [ExactDivision T] in
theorem solve_right_row (solve : TransposeMode → Mem T → Mem T) (m n row : Nat) (right : call.side = .right) (inside : row < m)
    (bound : m ≤ toUsize call.ldb) (stepb : 0 < call.ldb) (solves : SolvesRow call n solve) :
    Meets (Solved call 1 m n {row}) (solveRightRow solve call n row) := by
  have dims : dimension call.side m n = n := by rw [right]; rfl
  rw [Solved, dims, right]
  have straight := row_solved call n row stepb (solves .noTrans (by exact nofun))
  cases mode : call.mode with
  | noTrans =>
    refine ((row_solved call n row stepb (solves .trans (by exact nofun))).solution_congr (fun d p _ _ => ?_)).congr_run (fun b => ?_)
    · rw [call_matrix_right call right, mode, triangle_turned]
    · rw [solveRightRow, mode]
  | trans =>
    refine (straight.solution_congr (fun d p _ _ => ?_)).congr_run (fun b => ?_)
    · rw [call_matrix_right call right, mode, triangle_turned]
    · rw [solveRightRow, mode]
  | conjTrans =>
    have matrix : ∀ d p, call.matrix d p = conj (triangle call.uplo call.diag .noTrans (denseEntry call.a call.lda) d
      p) := fun d p => by
      rw [call_matrix_right call right, mode, triangle_conjugate]
    cases complex : Scalar.isComplex T with
    | false =>
      refine (straight.solution_congr (fun d p _ _ => ?_)).congr_run (fun b => ?_)
      · rw [matrix, LawfulScalar.conj_real complex]
      · simp only [solveRightRow, mode, complex, Bool.false_eq_true, if_false]
    | true =>
      have conjugated := conjugate_row_updates call m n row inside bound
      have conjugating : ∀ b, solveRightRow solve call n row b = conjugateDenseRow n row
        (onTail (matIndex call.ldb row 0) (solve .noTrans)
          (conjugateDenseRow n row b call.ldb)) call.ldb := fun b => by
        simp only [solveRightRow, mode, complex, if_true]
      refine Meets.congr_run ?_ conjugating
      intro before X equations
      have solved := straight (conjugateDenseRow n row before call.ldb) (fun p r => conj (X p r)) (fun d inPlaces r inLanes => by
        have equation := congrArg conj (equations d inPlaces r inLanes)
        rw [conj_sum] at equation
        simp only [one_mul, matrix, LawfulScalar.conj_mul, LawfulScalar.conj_conj] at equation
        refine equation.trans ((one_mul _).trans ?_).symm
        exact conjugated.written before (d, r) ⟨inPlaces, inLanes⟩)
      constructor
      · intro cell member
        change conjugateDenseRow n row _ call.ldb (sideAddress .right call.ldb cell) = X cell.1 cell.2
        rw [conjugated.written _ cell member, solved.written cell member, LawfulScalar.conj_conj]
      · intro location apart
        change conjugateDenseRow n row _ call.ldb location = before location
        rw [conjugated.kept _ location apart, solved.kept location apart, conjugated.kept before location apart]

omit [Div T] [ExactDivision T] in
theorem right_rows_solved (m n first last : Nat) (right : call.side = .right) (inside : last ≤ m) (bound : m ≤ toUsize call.ldb)
    (stepb : 0 < call.ldb) (solve : Nat → TransposeMode → Mem T → Mem T) (solves : ∀ i, SolvesRow call n (solve i)) :
    Meets (Solved call 1 m n (Set.Ico first last)) (loopRange first last (fun i => solveRightRow (solve i) call n i)) := by
  have lanes : rhsCount call.side m n = m := by rw [right]; rfl
  have laneWise := solved_lane_wise call 1 m n bound
  rw [lanes] at laneWise
  exact laneWise.one_by_one first last _ (fun lane member => lt_of_lt_of_le member.2 inside)
    (fun i _ below => solve_right_row call (solve i) m n i right (lt_of_lt_of_le below inside) bound stepb (solves i))

omit [LawfulScalar T] [Div T] [ExactDivision T] in
theorem call_matrix_left (call : TriangularCall T) (left : call.side = .left) :
    call.matrix = triangle call.uplo call.diag call.mode (denseEntry call.a call.lda) := by
  funext d p
  rw [TriangularCall.matrix, left]
  rfl

-- No stored diagonal entry is zero, unless the diagonal is taken as one.
def TriangularCall.Solvable (call : TriangularCall T) (m n : Nat) : Prop :=
  NonzeroDiagonal call.diag (dimension call.side m n : Nat) (denseEntry call.a call.lda)

omit [Div T] [ExactDivision T] in
theorem solvable_regular (m n : Nat) (solvable : call.Solvable m n) (mode : TransposeMode) :
    Regular call.diag (dimension call.side m n) (triangle call.uplo call.diag mode (denseEntry call.a call.lda)) := by
  have regular : Regular call.diag (toUsize (dimension call.side m n : Nat))
      (triangle call.uplo call.diag mode (denseEntry call.a call.lda)) := NonzeroDiagonal.regular solvable
  rwa [toUsize, Int.toNat_natCast] at regular

omit [Div T] [ExactDivision T] in
theorem solvable_matrix (m n : Nat) (solvable : call.Solvable m n) :
    Regular call.diag (dimension call.side m n) call.matrix := by
  have regular := solvable_regular call m n solvable call.mode
  have diagonal : ∀ d, call.matrix d d = triangle call.uplo call.diag call.mode (denseEntry call.a call.lda) d d := fun d => by
    rw [TriangularCall.matrix]
    cases call.side <;> rfl
  exact ⟨fun kind d inside => by rw [diagonal]; exact regular.nonzero kind d inside,
    fun kind d inside => by rw [diagonal]; exact regular.one kind d inside⟩

theorem trsv_solves_row (m n : Nat) (right : call.side = .right) (solvable : call.Solvable m n) (stepb : 0 < call.ldb) :
    SolvesRow call n (fun mode x => trsv env.vector rt site call.uplo mode call.diag n call.a call.lda x call.ldb) := by
  intro mode _
  have dims : dimension call.side m n = n := by rw [right]; rfl
  have regular := solvable_regular call m n solvable mode
  rw [dims] at regular
  have usable : Regular call.diag (toUsize (n : Int)) (triValue call.uplo call.diag mode call.a call.lda) := by
    rw [tri_value_triangle, toUsize, Int.toNat_natCast]
    exact regular
  have solved := trsv_solution env.vector rt site (n : Int) call.lda call.ldb stepb.ne' usable
  rwa [tri_value_triangle, toUsize, Int.toNat_natCast] at solved

theorem fallback_solves_row (m n : Nat) (right : call.side = .right) (solvable : call.Solvable m n) (stepb : 0 < call.ldb) :
    SolvesRow call n (fun mode x => trsvFallback call.uplo mode call.diag n call.a call.lda x call.ldb) := by
  intro mode _
  have dims : dimension call.side m n = n := by rw [right]; rfl
  have regular := solvable_regular call m n solvable mode
  rw [dims] at regular
  have shape := triangle_to call.uplo call.diag mode (denseEntry call.a call.lda) (toUsize (n : Int))
  have solved := solve_rows_solution _ (opIsUpper call.uplo mode) (n : Int) call.ldb stepb.ne' shape
    (by rw [toUsize, Int.toNat_natCast]; exact regular)
  rw [toUsize, Int.toNat_natCast] at solved
  rw [← tri_value_triangle] at solved ⊢
  exact solved

theorem left_columns_solved (m n first last : Nat) (left : call.side = .left) (solvable : call.Solvable m n) (inside : last ≤ n)
    (bound : m ≤ toUsize call.ldb) :
    Meets (Solved call call.alpha m n (Set.Ico first last)) (runLeftColumns env rt site .solve call m first last) := by
  have lanes : rhsCount call.side m n = n := by rw [left]; rfl
  have dims : dimension call.side m n = m := by rw [left]; rfl
  have laneWise := solved_lane_wise call 1 m n bound
  rw [lanes] at laneWise
  have regular := solvable_regular call m n solvable call.mode
  rw [dims] at regular
  have usable : Regular call.diag (toUsize (m : Int)) (triValue call.uplo call.diag call.mode call.a call.lda) := by
    rw [tri_value_triangle, toUsize, Int.toNat_natCast]
    exact regular
  have columns := laneWise.one_by_one first last (fun j => onTail (matIndex call.ldb 0 j)
    (fun x => trsv env.vector rt (j :: site) call.uplo call.mode call.diag m call.a call.lda x 1))
    (fun lane member => lt_of_lt_of_le member.2 inside) (fun j _ _ => by
      have solved := trsv_solution env.vector rt (j :: site) (m : Int) call.lda 1 one_ne_zero usable
      rw [stride_address_unit, tri_value_triangle, toUsize, Int.toNat_natCast, ← call_matrix_left call left] at solved
      have column := solved.solution_carried (matIndex call.ldb 0 j) (fun _ => j) (sideAddress .left call.ldb) (fun cell _ => by
        simp only [sideAddress, sideIndex, matIndex]
        omega)
      rw [Set.image_singleton] at column
      rw [Solved, dims, left]
      exact column)
  have scaled := scale_columns_updates m first last call.alpha call.ldb bound
  rw [Solved, dims, left] at columns ⊢
  exact columns.solution_scaled scaled

theorem run_left_solved (m n : Nat) (left : call.side = .left) (solvable : call.Solvable m n) (bound : m ≤ toUsize call.ldb) :
    Meets (Solved call call.alpha m n (Set.Iio n)) (runLeft env rt site .solve call m n) := by
  have lanes : rhsCount call.side m n = n := by rw [left]; rfl
  have laneWise := solved_lane_wise call call.alpha m n bound
  rw [lanes] at laneWise
  have serial := left_columns_solved env rt (1 :: site) call m n 0 n left solvable (le_refl n) bound
  rw [Ico_from_zero] at serial
  refine meets_guard _ (fun several => ?_) (fun _ => serial)
  generalize (if satMul (satMul m m) n ≥ 8 * 1024 * 1024 then min (rt.taskCount (0 :: site) n) 32 else 1) = count at several ⊢
  have shared : 0 < count := by omega
  exact meets_attempt (fun before after accepted => shares_dispatched n laneWise rt (2 :: site) count shared _ (fun task small =>
    left_columns_solved env rt (task :: 3 :: site) call m n _ _ left solvable (shared_inside n count task shared small) bound)
    before after accepted) serial

theorem run_right_rows_solved (m n first last : Nat) (right : call.side = .right) (solvable : call.Solvable m n) (inside : last ≤ m)
    (bound : m ≤ toUsize call.ldb) (stepb : 0 < call.ldb) :
    Meets (Solved call call.alpha m n (Set.Ico first last)) (runRightRows env rt site .solve call n first last) := by
  have dims : dimension call.side m n = n := by rw [right]; rfl
  have rows := right_rows_solved call m n first last right inside bound stepb
    (fun i mode x => trsv env.vector rt (i :: site) call.uplo mode call.diag n call.a call.lda x call.ldb)
    (fun i => trsv_solves_row env rt (i :: site) call m n right solvable stepb)
  have scaled := scale_rows_updates n first last m call.alpha call.ldb bound inside
  rw [Solved, dims, right] at rows ⊢
  exact rows.solution_scaled scaled

theorem right_parallel_solved (m n : Nat) (right : call.side = .right) (solvable : call.Solvable m n) (bound : m ≤ toUsize call.ldb)
    (stepb : 0 < call.ldb) :
    Tries (Solved call call.alpha m n (Set.Iio m)) (rightParallelTryDispatch env rt site .solve call m n) := by
  have lanes : rhsCount call.side m n = m := by rw [right]; rfl
  have laneWise := solved_lane_wise call call.alpha m n bound
  rw [lanes] at laneWise
  refine tries_guard _ (fun _ => tries_decline _) (fun several => ?_)
  generalize (if rt.arch ≠ .x86_64 then 1 else if satMul (satMul m n) n < 8 * 1024 * 1024 then 1
    else min (rt.taskCount (0 :: site) m) 32) = count at several ⊢
  have shared : 0 < count := by omega
  exact tries_answered (fun before after accepted => shares_dispatched m laneWise rt (1 :: site) count shared _ (fun task small =>
    run_right_rows_solved env rt (task :: 2 :: site) call m n _ _ right solvable (shared_inside m count task shared small)
    bound stepb)
    before after accepted)

theorem isolated_rows_solved (m n first last : Nat) (right : call.side = .right) (solvable : call.Solvable m n) (inside : last ≤ m)
    (bound : m ≤ toUsize call.ldb) (stepb : 0 < call.ldb) :
    Meets (Solved call call.alpha m n (Set.Ico first last)) (isolatedRightRows .solve call n first last) := by
  have lanes : rhsCount call.side m n = m := by rw [right]; rfl
  have dims : dimension call.side m n = n := by rw [right]; rfl
  have laneWise := solved_lane_wise call call.alpha m n bound
  rw [lanes] at laneWise
  refine Meets.congr_run (laneWise.one_by_one first last (fun i b => solveRightRow
    (fun mode x => trsvFallback call.uplo mode call.diag n call.a call.lda x call.ldb) call n i
    (scaleDenseRows n i (i + 1) call.alpha b call.ldb)) (fun lane member => lt_of_lt_of_le member.2 inside) (fun i _ below => ?_))
    (fun b => rfl)
  have row := solve_right_row call _ m n i right (lt_of_lt_of_le below inside) bound stepb
    (fallback_solves_row call m n right solvable stepb)
  have scaled := scale_rows_updates n i (i + 1) m call.alpha call.ldb bound (lt_of_lt_of_le below inside)
  rw [lane_alone] at scaled
  rw [Solved, dims, right] at row ⊢
  exact row.solution_scaled scaled

theorem isolated_solved (m_ n_ : Int) (right : call.side = .right) (solvable : call.Solvable (toUsize m_) (toUsize n_))
    (bound : m_ ≤ call.ldb) (stepb : 0 < call.ldb) :
    Tries (Solved call call.alpha (toUsize m_) (toUsize n_) (Set.Iio (toUsize m_)))
    (isolatedTryRight env rt site .solve call m_ n_) := by
  have rows : toUsize m_ ≤ toUsize call.ldb := Int.toNat_le_toNat bound
  have lanes : rhsCount call.side (toUsize m_) (toUsize n_) = toUsize m_ := by rw [right]; rfl
  have laneWise := solved_lane_wise call call.alpha (toUsize m_) (toUsize n_) rows
  rw [lanes] at laneWise
  refine tries_guard _ (fun _ => tries_decline _) (fun _ => ?_)
  refine tries_guard _ (fun _ => tries_decline _) (fun _ => ?_)
  refine tries_guard _ (fun _ => tries_decline _) (fun several => ?_)
  generalize min (rt.taskCount (0 :: site) (toUsize m_)) 32 = count at several ⊢
  have shared : 0 < count := by omega
  exact tries_answered (fun before after accepted => shares_dispatched _ laneWise rt (1 :: site) count shared _ (fun task small =>
    isolated_rows_solved call _ _ _ _ right solvable (shared_inside _ count task shared small) rows stepb) before after accepted)

theorem trsm_serial_solved (m n : Nat) (solvable : call.Solvable m n) (bound : m ≤ toUsize call.ldb) (stepb : 0 < call.ldb) :
    Meets (Solved call call.alpha m n (Set.Iio (rhsCount call.side m n))) (trsmSerial env rt site call m n) := by
  cases side : call.side with
  | left =>
    refine (run_left_solved env rt site call m n side solvable bound).congr_run (fun b => ?_)
    rw [trsmSerial, side]
  | right =>
    have dims : dimension call.side m n = n := by rw [side]; rfl
    have rows := right_rows_solved call m n 0 m side (le_refl m) bound stepb
      (fun i mode x => trsv env.vector rt (i :: site) call.uplo mode call.diag n call.a call.lda x call.ldb)
      (fun i => trsv_solves_row env rt (i :: site) call m n side solvable stepb)
    have columns := scale_columns_updates m 0 n call.alpha call.ldb bound
    rw [Ico_from_zero, ← matrix_lanes] at columns
    have scaled := side_whole .right m n call.ldb (fun old => call.alpha * old) columns
    rw [Ico_from_zero] at rows
    rw [Solved, dims, side] at rows ⊢
    refine (rows.solution_scaled scaled).congr_run (fun b => ?_)
    simp only [trsmSerial, side, loopRange, Nat.sub_zero, Nat.zero_add]

theorem trsm_solved (m_ n_ : Int) (solvable : call.Solvable (toUsize m_) (toUsize n_)) (stepa : 0 < call.lda) (stepb : 0 < call.ldb)
    (bound : m_ ≤ call.ldb) :
    Meets (Solved call call.alpha (toUsize m_) (toUsize n_) (Set.Iio (rhsCount call.side (toUsize m_) (toUsize n_))))
      (trsm env rt site call m_ n_) := by
  have rows : toUsize m_ ≤ toUsize call.ldb := Int.toNat_le_toNat bound
  have regular := solvable_matrix call _ _ solvable
  refine meets_guard _ (fun empty => solved_nothing call m_ n_ empty) (fun _ => ?_)
  refine meets_guard _ (fun zero => trsm_cleared call _ _ zero regular rows) (fun _ => ?_)
  refine Tries.or_else ?_ (trsm_serial_solved env rt (5 :: site) call _ _ solvable rows stepb)
  have blocked : ∀ site options, Tries (Solved call call.alpha (toUsize m_) (toUsize n_)
      (Set.Iio (rhsCount call.side (toUsize m_) (toUsize n_)))) (blockedTryTrsm env rt site options call m_ n_) :=
    fun site options => blocked_trsm_tries env rt site call options m_ n_ regular stepa stepb bound
  refine Tries.or_try (Tries.or_try ?_ ?_) ?_
  · exact tries_guard _ (fun _ => blocked _ _) (fun _ => tries_decline _)
  · exact tries_guard _ (fun _ => blocked _ _) (fun _ => tries_decline _)
  · refine tries_guard _ (fun taken => ?_) (fun _ => tries_decline _)
    have lanes : rhsCount call.side (toUsize m_) (toUsize n_) = toUsize m_ := by rw [taken.2.1]; rfl
    rw [lanes]
    exact isolated_solved env rt (4 :: site) call m_ n_ taken.2.1 solvable bound stepb

end Serial

end Zynum
