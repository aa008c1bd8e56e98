import Zynum.Foundation.Lanes
import Zynum.MatrixMatrix.TriangularSides

set_option autoImplicit false

/- How TRMM and TRSM cut the right-hand sides among tasks: panels of 32, shares of
   rows or columns, one column or row at a time. -/
namespace Zynum

open ArrayProgram

section Dimensions

variable (side : OperandSide)

theorem dimension_rows (m n : Nat) : sideRows side (dimension side m n) (rhsCount side m n) = m := by
  cases side <;> rfl

theorem dimension_columns (m n : Nat) : sideColumns side (dimension side m n) (rhsCount side m n) = n := by
  cases side <;> rfl

theorem side_rows_fit {d r d' r' : Nat} (places : d ≤ d') (lanes : r ≤ r') : sideRows side d r ≤ sideRows side d' r' := by
  cases side with
  | left => exact places
  | right => exact lanes

theorem side_rows_add (d r d' r' : Nat) :
    sideRows side d r + sideRows side d' r' = sideRows side (d + d') (r + r') := by
  cases side <;> rfl

theorem side_rows_pos {d r : Nat} (places : 0 < d) (lanes : 0 < r) : 0 < sideRows side d r := by
  cases side with
  | left => exact places
  | right => exact lanes

theorem side_lanes_injective (m n : Nat) (ld : Int) (bound : m ≤ toUsize ld) :
    Set.InjOn (sideAddress side ld) (laneCells (Finset.range (dimension side m n)) (Set.Iio (rhsCount side m n))) := by
  refine (side_injective side ld m bound).mono (fun cell member => ?_)
  have place := Finset.mem_range.mp member.1
  have lane : cell.2 < rhsCount side m n := member.2
  cases side with
  | left => exact place
  | right => exact lane

theorem lanes_empty (m n : Nat) (empty : m = 0 ∨ n = 0) :
    laneCells (Finset.range (dimension side m n)) (Set.Iio (rhsCount side m n)) = ∅ := by
  refine Set.eq_empty_iff_forall_notMem.mpr (fun cell member => ?_)
  have place := Finset.mem_range.mp member.1
  have lane : cell.2 < rhsCount side m n := member.2
  cases side with
  | left => exact empty.elim (fun none => Nat.not_lt_zero _ (none ▸ place)) (fun none => Nat.not_lt_zero _ (none ▸ lane))
  | right => exact empty.elim (fun none => Nat.not_lt_zero _ (none ▸ lane)) (fun none => Nat.not_lt_zero _ (none ▸ place))

theorem shared_splits (total count : Nat) (some : 0 < count) : Splits count (sharedBound total count) 0 total := by
  refine ⟨?_, ?_, fun task _ => ?_⟩
  · rw [sharedBound, Nat.zero_mul, Nat.zero_min, Nat.add_zero]
  · have whole := Nat.div_add_mod total count
    have rest := Nat.mod_lt total some
    rw [sharedBound, Nat.min_eq_right rest.le]
    exact whole
  · have next : (task + 1) * (total / count) = task * (total / count) + total / count := Nat.succ_mul _ _
    simp only [sharedBound, next]
    generalize total / count = share
    omega

theorem shared_inside (total count task : Nat) (shared : 0 < count) (small : task < count) :
    sharedBound total count (task + 1) ≤ total := by
  have splits := shared_splits total count shared
  have reach := splits.mono (task + 1) count small (le_refl count)
  rwa [splits.finish] at reach

end Dimensions

theorem lane_alone (lane : Nat) : Set.Ico lane (lane + 1) = {lane} := by
  ext other
  simp only [Set.mem_Ico, Set.mem_singleton_iff]
  omega

section Blocks

-- The block that a place belongs to, in the order of the sweep.
def blockStep (forward : Bool) (order bs d : Nat) : Nat := sweep forward (blockCount order bs) (d / bs)

theorem block_bounds (bs order block : Nat) (some : 0 < bs) (inside : block < blockCount order bs) :
    block * bs < order ∧ 0 < min bs (order - block * bs) ∧ block * bs + min bs (order - block * bs) ≤ order := by
  have below := (stride_count_iff 0 order bs block some).mp inside
  rw [Nat.zero_add] at below
  omega

theorem block_step_inside (forward : Bool) (order bs d : Nat) (some : 0 < bs) (inside : d < order) :
    blockStep forward order bs d < blockCount order bs := sweep_inside forward _ _ (block_inside d order bs some inside)

theorem block_step_cells (forward : Bool) (order bs r0 width t : Nat) (some : 0 < bs) (below : t < blockCount order bs) :
    stepCells order (Set.Ico r0 (r0 + width)) (blockStep forward order bs) t =
      tileCells (sweep forward (blockCount order bs) t * bs) (min bs (order - sweep forward (blockCount order bs) t * bs))
      r0 width := by
  ext ⟨d, r⟩
  have owned : d < order → (blockStep forward order bs d = t ↔ d / bs = sweep forward (blockCount order bs) t) := fun inside =>
    sweep_iff forward _ _ t (block_inside d order bs some inside) below
  have member := block_member d order bs (sweep forward (blockCount order bs) t) some
  rw [blockLength] at member
  simp only [stepCells, laneCells, tileCells, Set.mem_ofPred_eq, Finset.mem_range, Set.mem_Ico]
  constructor
  · rintro ⟨⟨inside, lanes⟩, same⟩
    have place := member.mp ⟨inside, (owned inside).mp same⟩
    exact ⟨place, lanes⟩
  · rintro ⟨reached, lanes⟩
    have place := member.mpr reached
    exact ⟨⟨place.1, lanes⟩, (owned place.1).mpr place.2⟩

theorem block_step_before (forward : Bool) (order bs d p : Nat) (some : 0 < bs) (inRow : d < order) (inColumn : p < order)
    (earlier : blockStep forward order bs p < blockStep forward order bs d) : if forward then p < d else d < p := by
  have row := block_inside d order bs some inRow
  have column := block_inside p order bs some inColumn
  have monotone : ∀ i j, i / bs < j / bs → i < j := fun i j less => by
    by_contra large
    exact absurd (Nat.div_le_div_right (Nat.le_of_not_lt large)) (Nat.not_le_of_lt less)
  cases forward with
  | true =>
    rw [if_pos rfl]
    exact monotone p d earlier
  | false =>
    simp only [blockStep, sweep, Bool.false_eq_true, if_false] at earlier
    rw [if_neg Bool.false_ne_true]
    refine monotone d p ?_
    have same : blockCount order bs = strideCount 0 order bs := rfl
    omega

theorem block_step_of (forward : Bool) (order bs block q : Nat) (inBlock : q < blockLength order bs (block * bs)) :
    blockStep forward order bs (block * bs + q) = sweep forward (blockCount order bs) block := by
  have width : blockLength order bs (block * bs) ≤ bs := Nat.min_le_left _ _
  have owner : (block * bs + q) / bs = block := (div_block _ bs block (by omega)).mpr (by omega)
  rw [blockStep, owner]

theorem block_class_sum {M : Type} [AddCommMonoid M] (forward : Bool) (order bs : Nat) (some : 0 < bs) (chosen : Nat → Prop)
    [DecidablePred chosen] (term : Nat → M) :
    ∑ p ∈ (Finset.range order).filter (fun p => chosen (blockStep forward order bs p)), term p =
      ∑ block ∈ (Finset.range (blockCount order bs)).filter (fun block => chosen (sweep forward (blockCount order bs) block)),
        ∑ q ∈ Finset.range (blockLength order bs (block * bs)), term (block * bs + q) := by
  rw [Finset.sum_filter, ← block_sum order bs some, Finset.sum_filter]
  refine Finset.sum_congr rfl (fun block _ => ?_)
  by_cases taken : chosen (sweep forward (blockCount order bs) block)
  · rw [if_pos taken]
    exact Finset.sum_congr rfl (fun q member => if_pos (by rw [block_step_of _ _ _ _ _ (Finset.mem_range.mp member)]; exact taken))
  · rw [if_neg taken]
    exact Finset.sum_eq_zero (fun q member => if_neg (by rw [block_step_of _ _ _ _ _ (Finset.mem_range.mp member)]; exact taken))

theorem block_step_sum {M : Type} [AddCommMonoid M] (forward : Bool) (order bs t : Nat) (some : 0 < bs)
    (below : t < blockCount order bs) (term : Nat → M) :
    ∑ p ∈ (Finset.range order).filter (fun p => blockStep forward order bs p = t), term p =
      ∑ q ∈ Finset.range (min bs (order - sweep forward (blockCount order bs) t * bs)),
        term (sweep forward (blockCount order bs) t * bs + q) := by
  rw [block_class_sum forward order bs some (fun step => step = t), sweep_filter forward _ t below, Finset.sum_singleton]
  rfl

theorem block_before_sum {M : Type} [AddCommMonoid M] (forward : Bool) (order bs t : Nat) (some : 0 < bs)
    (below : t < blockCount order bs) (term : Nat → M) :
    ∑ p ∈ (Finset.range order).filter (fun p => blockStep forward order bs p < t), term p =
      ∑ block ∈ Finset.Ico (if forward then 0 else sweep forward (blockCount order bs) t + 1)
          (if forward then sweep forward (blockCount order bs) t else blockCount order bs),
        ∑ q ∈ Finset.range (blockLength order bs (block * bs)), term (block * bs + q) := by
  rw [block_class_sum forward order bs some (fun step => step < t)]
  cases forward with
  | true =>
    rw [sweep_forward_filter _ t below.le, Finset.range_eq_Ico]
    rfl
  | false =>
    have start : blockCount order bs - 1 - t + 1 = blockCount order bs - t := by omega
    rw [sweep_backward_filter _ t below.le]
    simp only [sweep, Bool.false_eq_true, if_false, start]

theorem block_rest (forward : Bool) (order bs t d : Nat) (some : 0 < bs) (below : t < blockCount order bs) (inside : d < order) :
    t < blockStep forward order bs d ↔
      (if forward then sweep forward (blockCount order bs) t * bs + min bs (order - sweep forward (blockCount order bs) t * bs) ≤ d
        else d < sweep forward (blockCount order bs) t * bs) := by
  have owner := block_inside d order bs some inside
  cases forward with
  | true =>
    have next : (t + 1) * bs = t * bs + bs := Nat.succ_mul t bs
    simp only [blockStep, sweep, if_true]
    rw [← Nat.succ_le_iff, Nat.le_div_iff_mul_le some, next]
    omega
  | false =>
    have count : blockCount order bs = strideCount 0 order bs := rfl
    simp only [blockStep, sweep, Bool.false_eq_true, if_false]
    rw [← Nat.div_lt_iff_lt_mul some]
    omega

end Blocks

section Dispatch

variable {T : Type} [CommRing T] [Scalar T] {post : Set Nat → Mem T → Mem T → Prop}

omit [CommRing T] [Scalar T] in
theorem shares_dispatched (total : Nat) (laneWise : LaneWise post (Set.Iio total)) (rt : Runtime) (site : Site) (count : Nat)
    (shared : 0 < count) (run : Nat → Mem T → Mem T)
    (each : ∀ task, task < count → Meets (post (pieceOf (sharedBound total count) task)) (run task)) (before after : Mem T)
    (accepted : rt.runTasks site count run before = some after) : post (Set.Iio total) before after := by
  obtain ⟨order, complete, rfl⟩ := run_tasks_accepted accepted
  have joined := laneWise.split_dispatch order count 0 total _ run (shared_splits total count shared) complete
    (Ico_from_zero total ▸ subset_rfl) each
  rw [Ico_from_zero] at joined
  exact joined before

omit [CommRing T] [Scalar T] in
theorem queued_tries (rt : Runtime) (site : Site) (perJob : Nat) (options : Options) (call : TriangularCall T) (m n : Nat)
    (operation : Site → Nat → TriangularCall T → Nat → Nat → Mem T → Mem T)
    (laneWise : LaneWise post (Set.Iio (rhsCount call.side m n)))
    (each : ∀ site first width, 0 < width → first + width ≤ rhsCount call.side m n → Meets (post (Set.Ico first (first + width)))
      (onTail (sideIndex call.side call.ldb 0 first) (operation site 64 call (sideRows call.side (dimension call.side m n) width)
        (sideColumns call.side (dimension call.side m n) width)))) :
    Tries (post (Set.Iio (rhsCount call.side m n))) (tryQueuedTriangular rt site perJob options call m n operation) := by
  refine tries_guard _ (fun _ => tries_decline _) (fun _ => ?_)
  refine tries_guard _ (fun _ => tries_decline _) (fun _ => ?_)
  refine tries_guard _ (fun _ => tries_decline _) (fun _ => ?_)
  refine tries_guard _ (fun _ => tries_decline _) (fun _ => ?_)
  refine tries_answered (fun before after accepted => ?_)
  obtain ⟨order, complete, rfl⟩ := run_tasks_accepted accepted
  refine laneWise.blocks_dispatch order _ 32 _ (by omega) complete subset_rfl (fun index small => ?_) before
  have reached := (stride_count_iff 0 (rhsCount call.side m n) 32 index (by omega)).mp small
  rw [Nat.zero_add] at reached
  have turn := each (index :: 3 :: site) (index * 32) (blockLength (rhsCount call.side m n) 32 (index * 32))
    (by rw [blockLength]; omega) (by rw [blockLength]; omega)
  cases side : call.side with
  | left =>
    simp only [side] at turn ⊢
    exact turn
  | right =>
    simp only [side] at turn ⊢
    exact turn

end Dispatch

section Scaling

variable {T : Type} [CommRing T] [Scalar T] [LawfulScalar T]

omit [CommRing T] [Scalar T] [LawfulScalar T] in
theorem matrix_lanes (order width : Nat) : matrixCells order width = laneCells (Finset.range order) (Set.Iio width) := by
  ext cell
  simp only [matrixCells, laneCells, Set.mem_ofPred_eq, Finset.mem_range, Set.mem_Iio]

omit [CommRing T] [Scalar T] [LawfulScalar T] in
theorem side_whole (side : OperandSide) (m n : Nat) (ld : Int) (value : T → T) {run : Mem T → Mem T}
    (updates : Updates (matrixCells m n) (cellAddress ld) (fun _ => value) run) :
    Updates (laneCells (Finset.range (dimension side m n)) (Set.Iio (rhsCount side m n))) (sideAddress side ld)
    (fun _ => value) run := by
  refine side_updates side updates _ _ (fun cell => ?_) (fun _ _ _ => rfl)
  rw [← matrix_lanes]
  have matched := mem_side_matrix side (dimension side m n) (rhsCount side m n) cell
  rw [dimension_rows, dimension_columns] at matched
  exact matched

theorem scale_lanes_updates (side : OperandSide) (order first last m : Nat) (alpha : T) (ldb : Int) (bound : m ≤ toUsize ldb)
    (fits : ∀ d r, d < order → r < last → sideRows side d r < m) :
    Updates (laneCells (Finset.range order) (Set.Ico first last)) (sideAddress side ldb) (fun _ old => alpha * old)
      (fun b => if isOne alpha then b else loopRange first last (fun r b => loop order (fun d b =>
        Function.update b (sideIndex side ldb d r) (alpha * b (sideIndex side ldb d r))) b) b) := by
  refine updates_guard _ (fun one => ?_) (fun _ => ?_)
  · refine (updates_same _ _).congr rfl (fun cell old _ => ?_)
    rw [(LawfulScalar.isOne_iff alpha).mp one, one_mul]
  have injective := side_injective side ldb m bound
  have grid := updates_grid order (last - first) (fun cell => sideAddress side ldb (cell.1, first + cell.2))
    (fun _ (old : T) => alpha * old) (by
      intro cell inside other inOther same
      have equal := injective (show (cell.1, first + cell.2) ∈ {cell | sideRows side cell.1 cell.2 < m} from
          fits _ _ inside.1 (Nat.add_lt_of_lt_sub' inside.2))
        (show (other.1, first + other.2) ∈ {cell | sideRows side cell.1 cell.2 < m} from
          fits _ _ inOther.1 (Nat.add_lt_of_lt_sub' inOther.2)) same
      rw [Prod.mk.injEq] at equal
      exact Prod.ext equal.1 (Nat.add_left_cancel equal.2))
  have moved : Updates _ (sideAddress side ldb) (fun _ old => alpha * old) _ :=
    Updates.reindex (fun cell : Nat × Nat => (cell.1, first + cell.2)) grid
  refine moved.congr ?_ (fun _ _ _ => rfl)
  ext ⟨d, r⟩
  simp only [Set.mem_image, laneCells, Set.mem_ofPred_eq, Prod.mk.injEq, Prod.exists, Finset.mem_range, Set.mem_Ico]
  constructor
  · rintro ⟨d', r', inside, rfl, rfl⟩
    omega
  · intro inside
    exact ⟨d, r - first, by omega, rfl, by omega⟩

theorem scale_columns_updates (m first last : Nat) (alpha : T) (ldb : Int) (bound : m ≤ toUsize ldb) :
    Updates (laneCells (Finset.range m) (Set.Ico first last)) (sideAddress .left ldb) (fun _ old => alpha * old)
      (fun b => scaleDenseColumns m first last alpha b ldb) :=
  scale_lanes_updates .left m first last m alpha ldb bound (fun _ _ inside _ => inside)

theorem scale_rows_updates (n first last m : Nat) (alpha : T) (ldb : Int) (bound : m ≤ toUsize ldb) (fits : last ≤ m) :
    Updates (laneCells (Finset.range n) (Set.Ico first last)) (sideAddress .right ldb) (fun _ old => alpha * old)
      (fun b => scaleDenseRows n first last alpha b ldb) :=
  scale_lanes_updates .right n first last m alpha ldb bound (fun _ _ _ inside => lt_of_lt_of_le inside fits)

omit [Scalar T] [LawfulScalar T] in
theorem clear_updates (m n : Nat) (ldb : Int) (bound : m ≤ toUsize ldb) :
    Updates (matrixCells m n) (cellAddress ldb) (fun _ (_ : T) => 0) (fun b => clearDenseMatrix m n b ldb) := by
  refine (updates_grid m n (cellAddress ldb) (fun _ _ => 0)
    ((cell_address_injective ldb m bound).mono (fun _ inside => inside.1))).congr_run (fun b => ?_)
  refine loop_congr _ _ _ b (fun j current _ => loop_congr _ _ _ current (fun i current _ => ?_))
  have place : matIndex ldb 0 j + i = cellAddress ldb (i, j) := by
    simp only [cellAddress, matIndex]
    omega
  rw [place]

end Scaling

end Zynum
