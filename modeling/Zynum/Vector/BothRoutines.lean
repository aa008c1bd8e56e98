import Zynum.Vector.SecondRoutines

set_option autoImplicit false

/- swap, rot and rotm load blocks of both vectors and store both. On the unit
   and scalar routes, and on the stride-2 blocks of stride2_parallel.zig, every
   element gets its new value; the stride-2 blocks of operations.zig store the
   gap of one vector over an element of the other. -/
namespace Zynum.LevelOne

open ArrayProgram
open Element (width parts whole fromReal)

section Rows

variable {R A B : Type} {width n xStart yStart : Nat} {rule rule' : PairRule R}

theorem Rewrites.both_row {execution : Execution Nat R B A}
    (rewrites : Rewrites execution (cells 1 (Set.Iio (width * n)))
      (cellAddress (Operand.unit 1 (cellsFrom xStart)) (Operand.unit 1 (cellsFrom yStart)))
      (ruleValue rule (Operand.unit 1 (cellsFrom xStart)) (Operand.unit 1 (cellsFrom yStart))))
    (first : ∀ (x y x' y' : Nat → R) (part : Nat), part < width → x' 0 = x part → y' 0 = y part →
      rule'.first x y part = rule.first x' y' 0)
    (second : ∀ (x y x' y' : Nat → R) (part : Nat), part < width → x' 0 = x part → y' 0 = y part →
      rule'.second x y part = rule.second x' y' 0) :
    Rewrites execution (cells width (Set.Iio n))
      (cellAddress (Operand.unit width (cellsFrom xStart)) (Operand.unit width (cellsFrom yStart)))
      (ruleValue rule' (Operand.unit width (cellsFrom xStart)) (Operand.unit width (cellsFrom yStart))) := by
  refine rewrites.rename (fun cell => ⟨cell.second, width * cell.index + cell.component, 0⟩) ?_ ?_ ?_ ?_
  · exact fun cell member => row_slots (cell.index, cell.component) member
  · rintro ⟨side, lane, part⟩ member
    obtain ⟨slot, inside, named⟩ := slots_row (lane, part) member
    obtain ⟨rfl, rfl⟩ := Prod.mk.inj named
    exact ⟨⟨side, slot.1, slot.2⟩, inside, rfl⟩
  · rintro ⟨side, i, part⟩ _
    cases side with
    | true =>
      change yStart + (width * i + part) = yStart + (1 * (width * i + part) + 0)
      omega
    | false =>
      change xStart + (width * i + part) = xStart + (1 * (width * i + part) + 0)
      omega
  · rintro memory ⟨side, i, part⟩ member
    have x := row_element memory width xStart i part
    have y := row_element memory width yStart i part
    cases side with
    | true => exact second _ _ _ _ part member.1 x y
    | false => exact first _ _ _ _ part member.1 x y

end Rows

section Loops

variable {R : Type} [CommRing R] {width n xStart yStart : Nat} {rule : PairRule R}

theorem both_strided {N incx incy : Int} (some : 0 < width) (elementwise : PairMaps width rule) (nonzeroX : incx ≠ 0)
    (nonzeroY : incy ≠ 0)
    (disjoint : Disjoint2 (Operand.strided width N incx (cellsFrom xStart)) (Operand.strided width N incy (cellsFrom yStart))
      (Set.Iio (toUsize N))) :
    Rewrites (bothStrided width N rule (cellsFrom xStart) incx (cellsFrom yStart) incy : Execution Nat R Unit Unit)
      (cells width (Set.Iio (toUsize N)))
      (cellAddress (Operand.strided width N incx (cellsFrom xStart)) (Operand.strided width N incy (cellsFrom yStart)))
      (ruleValue rule (Operand.strided width N incx (cellsFrom xStart))
        (Operand.strided width N incy (cellsFrom yStart))) := by
  have task := both_task rule (x := Operand.strided width N incx (cellsFrom xStart))
    (y := Operand.strided width N incy (cellsFrom yStart)) (fun _ first last => singles first last) some rfl
    (cells_from_injective xStart) (cells_from_injective yStart) elementwise
    (strided_separate width xStart N incx nonzeroX) (strided_separate width yStart N incy nonzeroY) disjoint
    (fun _ _ _ ordered => singles_consecutive ordered) (fun _ first last => walkable_singles _ first last)
    (fun _ first last => walkable_singles _ first last)
    (fun _ first last _ _ piece place member gap => by
      have single := singles_step first last piece member
      rw [no_gaps single, no_gaps single, Set.empty_union] at gap
      exact absurd gap (Set.notMem_empty place))
  exact task.serial []

-- The bound is strict, or no vector starts behind the other.
theorem both_stride2_task (strict : Bool) (lanes : Nat) (some : 0 < width) (elementwise : PairMaps width rule)
    (apart : SpansApart width n xStart yStart)
    (clear : strict = false → ¬ (StartsInGap width n xStart yStart ∨ StartsInGap width n yStart xStart))
    (disjoint : Disjoint2 (Operand.stride2 width (cellsFrom xStart)) (Operand.stride2 width (cellsFrom yStart))
      (Set.Iio n)) :
    RangeTask (bothStride2 strict lanes width rule (cellsFrom xStart) (cellsFrom yStart)) Cell.index
      (fun cell => cell.component < width)
      (cellAddress (Operand.stride2 width (cellsFrom xStart)) (Operand.stride2 width (cellsFrom yStart)))
      (ruleValue rule (Operand.stride2 width (cellsFrom xStart)) (Operand.stride2 width (cellsFrom yStart))) n :=
  both_task rule (x := Operand.stride2 width (cellsFrom xStart)) (y := Operand.stride2 width (cellsFrom yStart))
    (fun _ => stride2Plan strict lanes) some rfl (cells_from_injective xStart) (cells_from_injective yStart) elementwise
    (stride2_separate width xStart _) (stride2_separate width yStart _) disjoint
    (fun _ first last ordered => stride2_plan_consecutive strict lanes first last ordered)
    (fun _ first last => walkable_stride2 strict lanes first last width _)
    (fun _ first last => walkable_stride2 strict lanes first last width _)
    (fun _ _ _ ordered bounded => strided_gaps_free some apart ordered bounded (fun _ loose _ => clear loose))

end Loops

section Units

variable {R : Type} [CommRing R] {reals xStart yStart : Nat} {rule : PairRule R}

theorem both_unit_real (machine : VectorMachine) (site : Site) (precision : Precision) (elementwise : PairMaps 1 rule)
    (disjoint : Disjoint2 (Operand.unit 1 (cellsFrom xStart)) (Operand.unit 1 (cellsFrom yStart)) (Set.Iio reals)) :
    Rewrites (bothUnitReal machine site precision rule reals xStart yStart (cellsFrom xStart) (cellsFrom yStart))
      (cells 1 (Set.Iio reals))
      (cellAddress (Operand.unit 1 (cellsFrom xStart)) (Operand.unit 1 (cellsFrom yStart)))
      (ruleValue rule (Operand.unit 1 (cellsFrom xStart)) (Operand.unit 1 (cellsFrom yStart))) := by
  have task := both_unit_task machine (realLaneCounts machine precision) Nat.one_pos elementwise disjoint
  refine rewrites_get_d (fun execution accepted => ?_) (task.serial site)
  obtain ⟨_, accepted⟩ := Option.ite_none_left_eq_some.mp accepted
  exact task.even accepted

theorem streaming_splits (n count : Nat) (some : 0 < count) : Splits count (streamingBound n count) 0 n := by
  refine ⟨?_, ?_, ?_⟩
  · rw [streamingBound, if_neg (Nat.ne_of_lt some), Nat.mul_zero, Nat.zero_div, Nat.zero_mul]
  · rw [streamingBound, if_pos rfl]
  · intro task small
    rw [streamingBound, streamingBound, if_neg (Nat.ne_of_lt small)]
    split
    · have whole : n / 256 * task / count ≤ n / 256 := by
        refine Nat.div_le_of_le_mul ?_
        rw [Nat.mul_comm count]
        exact Nat.mul_le_mul_left _ (Nat.le_of_lt small)
      exact (Nat.mul_le_mul_right 256 whole).trans (Nat.div_mul_le_self n 256)
    · exact Nat.mul_le_mul_right _ (Nat.div_le_div_right (Nat.mul_le_mul_left _ (Nat.le_succ task)))

theorem parallel_streaming {machine : VectorMachine} {site : Site} {execution : Execution Nat R Unit Unit}
    (elementwise : PairMaps 1 rule)
    (disjoint : Disjoint2 (Operand.unit 1 (cellsFrom xStart)) (Operand.unit 1 (cellsFrom yStart)) (Set.Iio reals))
    (accepted : parallelStreaming machine site rule reals xStart yStart (cellsFrom xStart) (cellsFrom yStart) =
      some execution) :
    Rewrites execution (cells 1 (Set.Iio reals))
      (cellAddress (Operand.unit 1 (cellsFrom xStart)) (Operand.unit 1 (cellsFrom yStart)))
      (ruleValue rule (Operand.unit 1 (cellsFrom xStart)) (Operand.unit 1 (cellsFrom yStart))) := by
  rw [parallelStreaming] at accepted
  obtain ⟨_, accepted⟩ := Option.ite_none_right_eq_some.mp accepted
  have task := both_unit_task machine (realLaneCounts machine .single) Nat.one_pos elementwise disjoint
  exact task.dispatched (fun some => streaming_splits _ _ some) accepted

omit [CommRing R] in
theorem swap_rule_maps (width : Nat) : PairMaps width (swapRule : PairRule R) :=
  ⟨fun _ _ _ _ _ sameRight part small => sameRight part small, fun _ _ _ _ sameLeft _ part small => sameLeft part small⟩

theorem swap_task_splits (grain reals count : Nat) (some : 0 < count) :
    Splits count (swapTaskBound grain reals count) 0 reals := by
  refine ⟨?_, ?_, ?_⟩
  · rw [swapTaskBound, if_neg (Nat.ne_of_lt some), Nat.zero_mul, Nat.zero_div, Nat.zero_div, Nat.zero_mul]
  · rw [swapTaskBound, if_pos rfl]
  · intro task small
    rw [swapTaskBound, swapTaskBound, if_neg (Nat.ne_of_lt small)]
    split
    · have whole : task * reals / count ≤ reals :=
        Nat.div_le_of_le_mul (Nat.mul_le_mul_right _ (Nat.le_of_lt small))
      exact (Nat.div_mul_le_self _ grain).trans whole
    · exact Nat.mul_le_mul_right _
        (Nat.div_le_div_right (Nat.div_le_div_right (Nat.mul_le_mul_right _ (Nat.le_succ task))))

theorem swap_unit_rows (machine : VectorMachine) (site : Site) (precision : Precision)
    (disjoint : Disjoint2 (Operand.unit 1 (cellsFrom xStart)) (Operand.unit 1 (cellsFrom yStart)) (Set.Iio reals)) :
    Rewrites ((parallelSwapUnitReal machine site precision reals xStart yStart (cellsFrom xStart) (cellsFrom yStart)).getD
        (.single (swapUnit machine (1 :: site) precision reals xStart yStart (cellsFrom xStart) (cellsFrom yStart))))
      (cells 1 (Set.Iio reals))
      (cellAddress (Operand.unit 1 (cellsFrom xStart)) (Operand.unit 1 (cellsFrom yStart)))
      (ruleValue (R := R) swapRule (Operand.unit 1 (cellsFrom xStart)) (Operand.unit 1 (cellsFrom yStart))) := by
  have task := both_unit_task (R := R) machine (realLaneCounts machine precision) Nat.one_pos (swap_rule_maps 1) disjoint
  refine rewrites_get_d (fun execution accepted => ?_) ?_
  · rw [parallelSwapUnitReal] at accepted
    obtain ⟨_, accepted⟩ := Option.ite_none_left_eq_some.mp accepted
    obtain ⟨_, accepted⟩ := Option.ite_none_left_eq_some.mp accepted
    exact task.dispatched (fun some => swap_task_splits _ _ _ some) accepted
  · rw [swapUnit]
    split
    · -- the SIMD loop itself, without an architecture kernel
      have plain := both_task (swapRule : PairRule R) (x := Operand.unit 1 (cellsFrom xStart))
        (y := Operand.unit 1 (cellsFrom yStart)) (fun _ => unitPlan (realLaneCounts machine precision)) Nat.one_pos rfl
        (cells_from_injective xStart) (cells_from_injective yStart) (swap_rule_maps 1) (unit_separate 1 xStart _)
        (unit_separate 1 yStart _) disjoint (fun _ first last ordered => unit_plan_consecutive _ first last ordered)
        (fun _ first last => walkable_unit 1 _ (unit_plan_step _ first last))
        (fun _ first last => walkable_unit 1 _ (unit_plan_step _ first last))
        (fun _ first last _ _ piece place member gap => by
          have single := unit_plan_step _ first last piece member
          rw [no_gaps single, no_gaps single, Set.empty_union] at gap
          exact absurd gap (Set.notMem_empty place))
      exact plain.serial []
    · exact task.serial _

end Units

/- A vector swapped with itself is stored back as it was. -/
section Itself

variable {R : Type} {x : Operand Nat} {piece : Piece}

theorem select_loaded (lanes : Nat → R) (lane : Nat) (small : lane < piece.size x.width) :
    piece.select x.width lanes (fun i => piece.element x.width lanes i) lane = lanes lane := by
  rw [Piece.select]
  split
  · rename_i active
    have whole := (lane_of_active lane small active).2
    change lanes (lane / (piece.step * x.width) * (piece.step * x.width) + lane % x.width) = lanes lane
    rw [← whole]
  · rfl

variable [CommRing R]

theorem respects_swap_itself (injective : Function.Injective x.place) (memory : Nat → R) :
    (updateBoth swapRule.first swapRule.second x x piece).Respects ∅ Set.univ memory := by
  have loaded : ((loadBlock x piece).run memory).2 = memory := by rw [loadBlock, run_load_cells]
  have reads : (loadBlock x piece : Program Nat R _).Respects ∅ Set.univ memory :=
    respects_load_cells _ _ memory (fun _ _ => .inr (Set.mem_univ _))
  have stores : (storeBlock x piece ((loadBlock x piece).run memory).1
      (fun i => piece.element x.width ((loadBlock x piece).run memory).1 i)).Respects ∅ Set.univ memory := by
    refine respects_store_cells _ _ (window_injective injective piece) _ memory (fun lane small => .inr ⟨Set.mem_univ _, ?_⟩)
    exact (select_loaded _ lane small).trans (load_block_lanes memory lane small)
  refine Program.respects_bind reads ?_
  rw [loaded]
  refine Program.respects_bind reads ?_
  rw [loaded]
  refine Program.respects_bind stores ?_
  have same := Program.run_idle stores
  rw [show ((storeBlock x piece ((loadBlock x piece).run memory).1
    (fun i => swapRule.first (piece.element x.width ((loadBlock x piece).run memory).1 i)
      (piece.element x.width ((loadBlock x piece).run memory).1 i))).run memory).2 = memory from same]
  exact stores

theorem swap_items_itself {B : Type} {n : Nat} (pieces : List Piece) (injective : Function.Injective x.place) :
    Rewrites (.single (Program.eachItem pieces (updateBoth swapRule.first swapRule.second x x)) : Execution Nat R B Unit)
      (cells x.width (Set.Iio n)) (cellAddress x x) (ruleValue swapRule x x) := by
  refine rewrites_single (fun memory => ?_)
  rw [Program.run_idle (respects_items pieces _ memory (fun _ current _ => respects_swap_itself injective current))]
  refine ⟨fun cell _ => ?_, fun _ _ => rfl⟩
  obtain ⟨second, i, c⟩ := cell
  cases second with
  | true => rfl
  | false => rfl

variable {T : Type} [LinearOrder R] [CommRing T] [Element R T] [LawfulElement R T] {n inc : Int}

omit [LinearOrder R] in
theorem swap_itself (machine : VectorMachine) (site : Site) (start : Nat) (nonzero : inc ≠ 0) :
    Rewrites (swap T machine site n start start (cellsFrom start) inc (cellsFrom start) inc)
      (cells (width T) (Set.Iio (toUsize n)))
      (cellAddress (Operand.strided (width T) n inc (cellsFrom start)) (Operand.strided (width T) n inc (cellsFrom start)))
      (ruleValue (R := R) swapRule (Operand.strided (width T) n inc (cellsFrom start))
        (Operand.strided (width T) n inc (cellsFrom start))) := by
  have some : 0 < width T := LawfulElement.width_pos
  have injective := cells_from_injective start
  have overlap : ∀ count, 0 < count → rangesOverlap start start count = true := by
    intro count several
    rw [rangesOverlap, if_neg (Nat.ne_of_gt several), if_pos rfl]
  rw [swap]
  split
  · refine rewrites_finished (fun memory cell member => ?_)
    exact absurd member.2 (no_indices (by omega) cell.index)
  rename_i known
  have several : 0 < toUsize n := by simp only [toUsize]; omega
  split
  · rename_i unit
    have reals := overlap (width T * toUsize n) (Nat.mul_pos some several)
    have serial : parallelSwapUnitReal machine site (Scalar.precision T) (width T * toUsize n) start start (cellsFrom start)
        (cellsFrom start) = (none : Option (Execution Nat R Unit Unit)) := by
      rw [parallelSwapUnitReal, if_pos reals]
    dsimp only
    rw [serial, Option.getD_none, swapUnit, if_pos reals, unit.1, unit_strided]
    have rows := swap_items_itself (R := R) (B := Unit) (x := Operand.unit 1 (cellsFrom start)) (n := width T * toUsize n)
      (unitPlan (realLaneCounts machine (Scalar.precision T)) 0 (width T * toUsize n)) injective
    exact Rewrites.both_row rows (fun x y x' y' part _ _ sameY => sameY.symm)
      (fun x y x' y' part _ sameX _ => sameX.symm)
  split
  · rename_i blocks
    have far := blocks.2.2.2
    rw [stride2Overlap, overlap _ (Nat.mul_pos some (by omega))] at far
    exact absurd far (by decide)
  · exact swap_items_itself (x := Operand.strided (width T) n inc (cellsFrom start)) _ injective

end Itself

end Zynum.LevelOne
