import Zynum.Foundation.InPlace
import Mathlib.LinearAlgebra.Matrix.Block
import Mathlib.LinearAlgebra.Matrix.NonsingularInverse

set_option autoImplicit false

/- Products and systems with a triangular matrix, done in place on lanes of a
   store. A cell is a place in the order of the matrix and a lane; the class of a
   place is the step at which a sweep reaches it. -/
namespace ArrayProgram

universe w
variable {α : Type w} {R : Type} [CommRing R]

def laneCells (places : Finset Nat) (lanes : Set Nat) : Set (Nat × Nat) := {cell | cell.1 ∈ places ∧ cell.2 ∈ lanes}

def Product (places : Finset Nat) (lanes : Set Nat) (address : Nat × Nat → α) (M : Nat → Nat → R) (alpha : R)
    (before after : α → R) : Prop :=
  Wrote (laneCells places lanes) address
    (fun cell _ => alpha * ∑ p ∈ places, M cell.1 p * before (address (p, cell.2))) before after

def IsSolution (places : Finset Nat) (lanes : Set Nat) (M : Nat → Nat → R) (X rhs : Nat → Nat → R) : Prop :=
  ∀ d, d ∈ places → ∀ r, r ∈ lanes → ∑ p ∈ places, M d p * X p r = rhs d r

-- Whatever solves the system, the run stores it: there is no second solution.
def Solution (places : Finset Nat) (lanes : Set Nat) (address : Nat × Nat → α) (M : Nat → Nat → R) (alpha : R)
    (before after : α → R) : Prop :=
  ∀ X : Nat → Nat → R, IsSolution places lanes M X (fun d r => alpha * before (address (d, r))) →
    Wrote (laneCells places lanes) address (fun cell _ => X cell.1 cell.2) before after

section Lanes

theorem lane_cells_union {τ : Type} (places : Finset Nat) (order : List τ) (lanes : τ → Set Nat) :
    {cell | ∃ task, task ∈ order ∧ cell ∈ laneCells places (lanes task)} =
      laneCells places {lane | ∃ task, task ∈ order ∧ lane ∈ lanes task} := by
  ext cell
  constructor
  · rintro ⟨task, member, inPlaces, inLanes⟩
    exact ⟨inPlaces, task, member, inLanes⟩
  · rintro ⟨inPlaces, task, member, inLanes⟩
    exact ⟨task, member, inPlaces, inLanes⟩

theorem lane_cells_apart (places : Finset Nat) (first second : Set Nat) (apart : Disjoint first second) :
    Disjoint (laneCells places first) (laneCells places second) := by
  rw [Set.disjoint_left] at apart ⊢
  exact fun cell left right => apart left.2 right.2

variable {τ : Type} (places : Finset Nat) (order : List τ) (lanes : τ → Set Nat) (address : Nat × Nat → α)
  (M : Nat → Nat → R) (alpha : R) (run : τ → (α → R) → α → R)

theorem product_lanes (distinct : order.Nodup)
    (injective : Set.InjOn address (laneCells places {lane | ∃ task, task ∈ order ∧ lane ∈ lanes task}))
    (apart : ∀ first second, first ∈ order → second ∈ order → first ≠ second → Disjoint (lanes first) (lanes second))
    (each : ∀ task, task ∈ order → Meets (Product places (lanes task) address M alpha) (run task)) :
    Meets (Product places {lane | ∃ task, task ∈ order ∧ lane ∈ lanes task} address M alpha)
      (fun store => order.foldl (fun current task => run task current) store) := by
  intro before
  have whole := wrote_independent order (fun task => laneCells places (lanes task)) address
    (fun cell => alpha * ∑ p ∈ places, M cell.1 p * before (address (p, cell.2))) run before distinct
    (by rw [lane_cells_union]; exact injective)
    (fun first second inFirst inSecond different => lane_cells_apart places _ _ (apart first second inFirst inSecond different))
    (fun task member current same => (each task member current).congr (fun cell _ inside => by
      congr 1
      exact Finset.sum_congr rfl (fun p inPlaces => by rw [same (p, cell.2) ⟨inPlaces, inside.2⟩])))
  exact whole.congr_cells (lane_cells_union places order lanes)

theorem solution_lanes (distinct : order.Nodup)
    (injective : Set.InjOn address (laneCells places {lane | ∃ task, task ∈ order ∧ lane ∈ lanes task}))
    (apart : ∀ first second, first ∈ order → second ∈ order → first ≠ second → Disjoint (lanes first) (lanes second))
    (each : ∀ task, task ∈ order → Meets (Solution places (lanes task) address M alpha) (run task)) :
    Meets (Solution places {lane | ∃ task, task ∈ order ∧ lane ∈ lanes task} address M alpha)
      (fun store => order.foldl (fun current task => run task current) store) := by
  intro before X solves
  have whole := wrote_independent order (fun task => laneCells places (lanes task)) address
    (fun cell => X cell.1 cell.2) run before distinct (by rw [lane_cells_union]; exact injective)
    (fun first second inFirst inSecond different => lane_cells_apart places _ _ (apart first second inFirst inSecond different))
    (fun task member current same => each task member current X (fun d inPlaces r inLanes => by
      change _ = alpha * current (address (d, r))
      rw [same (d, r) ⟨inPlaces, inLanes⟩]
      exact solves d inPlaces r ⟨task, member, inLanes⟩))
  exact whole.congr_cells (lane_cells_union places order lanes)

end Lanes

section Moves

theorem lane_cells_image (places : Finset Nat) (lanes : Set Nat) (place lane : Nat → Nat) :
    (fun cell : Nat × Nat => (place cell.1, lane cell.2)) '' laneCells places lanes =
      laneCells (places.image place) (lane '' lanes) := by
  ext ⟨d, r⟩
  simp only [laneCells, Set.mem_image, Set.mem_ofPred_eq, Finset.mem_image, Prod.mk.injEq, Prod.exists]
  constructor
  · rintro ⟨d', r', ⟨inPlaces, inLanes⟩, samePlace, sameLane⟩
    exact ⟨⟨d', inPlaces, samePlace⟩, r', inLanes, sameLane⟩
  · rintro ⟨⟨d', inPlaces, samePlace⟩, r', inLanes, sameLane⟩
    exact ⟨d', r', ⟨inPlaces, inLanes⟩, samePlace, sameLane⟩

variable {places : Finset Nat} {lanes : Set Nat} {address : Nat × Nat → α} {M : Nat → Nat → R} {alpha : R}
  {run : (α → R) → α → R}

theorem Meets.product_moved (place lane : Nat → Nat) (address' : Nat × Nat → α) (M' : Nat → Nat → R)
    (meets : Meets (Product places lanes address M alpha) run) (injective : Set.InjOn place places)
    (samePlace : ∀ cell, cell ∈ laneCells places lanes → address' (place cell.1, lane cell.2) = address cell)
    (sameEntry : ∀ d p, d ∈ places → p ∈ places → M' (place d) (place p) = M d p) :
    Meets (Product (places.image place) (lane '' lanes) address' M' alpha) run := by
  intro before
  have wrote := meets before
  have moved : Wrote (laneCells places lanes) (fun cell => address' (place cell.1, lane cell.2))
      (fun cell _ => alpha * ∑ p ∈ places.image place, M' (place cell.1) p * before (address' (p, lane cell.2))) before
      (run before) := by
    constructor
    · intro cell member
      rw [samePlace cell member, wrote.written cell member, Finset.sum_image injective]
      congr 1
      exact Finset.sum_congr rfl (fun p inPlaces => by
        rw [sameEntry _ _ member.1 inPlaces, samePlace (p, cell.2) ⟨inPlaces, member.2⟩])
    · intro location apart
      exact wrote.kept location (fun cell member same => apart cell member (by rw [samePlace cell member, same]))
  exact (Wrote.reindex (fun cell : Nat × Nat => (place cell.1, lane cell.2)) moved).congr_cells
    (lane_cells_image places lanes place lane)

theorem Meets.solution_moved (place lane : Nat → Nat) (address' : Nat × Nat → α) (M' : Nat → Nat → R)
    (meets : Meets (Solution places lanes address M alpha) run) (injective : Set.InjOn place places)
    (samePlace : ∀ cell, cell ∈ laneCells places lanes → address' (place cell.1, lane cell.2) = address cell)
    (sameEntry : ∀ d p, d ∈ places → p ∈ places → M' (place d) (place p) = M d p) :
    Meets (Solution (places.image place) (lane '' lanes) address' M' alpha) run := by
  intro before X solves
  have wrote := meets before (fun p r => X (place p) (lane r)) (fun d inPlaces r inLanes => by
    have moved : ∑ p ∈ places.image place, M' (place d) p * X p (lane r) = alpha * before (address' (place d, lane r)) :=
      solves (place d) (Finset.mem_image_of_mem place inPlaces) (lane r) ⟨r, inLanes, rfl⟩
    rw [Finset.sum_image injective, samePlace (d, r) ⟨inPlaces, inLanes⟩] at moved
    refine Eq.trans ?_ moved
    exact Finset.sum_congr rfl (fun p inside => by rw [sameEntry d p inPlaces inside]))
  have shifted : Wrote (laneCells places lanes) (fun cell => address' (place cell.1, lane cell.2))
      (fun cell _ => X (place cell.1) (lane cell.2)) before (run before) := by
    constructor
    · intro cell member
      rw [samePlace cell member]
      exact wrote.written cell member
    · intro location apart
      exact wrote.kept location (fun cell member same => apart cell member (by rw [samePlace cell member, same]))
  exact (Wrote.reindex (fun cell : Nat × Nat => (place cell.1, lane cell.2)) shifted).congr_cells
    (lane_cells_image places lanes place lane)

theorem Meets.product_tail {address : Nat × Nat → Nat} {run : (Nat → R) → Nat → R}
    (meets : Meets (Product places lanes address M alpha) run) (offset : Nat) :
    Meets (Product places lanes (fun cell => offset + address cell) M alpha) (onTail offset run) :=
  fun before => Wrote.on_tail offset (meets (fun rest => before (offset + rest)))

theorem Meets.solution_tail {address : Nat × Nat → Nat} {run : (Nat → R) → Nat → R}
    (meets : Meets (Solution places lanes address M alpha) run) (offset : Nat) :
    Meets (Solution places lanes (fun cell => offset + address cell) M alpha) (onTail offset run) :=
  fun before X solves => Wrote.on_tail offset (meets (fun rest => before (offset + rest)) X solves)

theorem Meets.product_congr {M' : Nat → Nat → R} (meets : Meets (Product places lanes address M alpha) run)
    (same : ∀ d p, d ∈ places → p ∈ places → M d p = M' d p) : Meets (Product places lanes address M' alpha) run :=
  fun before => (meets before).congr (fun _ _ member => by
    congr 1
    exact Finset.sum_congr rfl (fun p inside => by rw [same _ p member.1 inside]))

theorem Meets.solution_congr {M' : Nat → Nat → R} (meets : Meets (Solution places lanes address M alpha) run)
    (same : ∀ d p, d ∈ places → p ∈ places → M d p = M' d p) : Meets (Solution places lanes address M' alpha) run :=
  fun before X solves => meets before X (fun d inside r inLanes => by
    refine Eq.trans ?_ (solves d inside r inLanes)
    exact Finset.sum_congr rfl (fun p member => by rw [same d p inside member]))

theorem Meets.product_scaled {scale : (α → R) → α → R} (meets : Meets (Product places lanes address M 1) run)
    (scaled : Updates (laneCells places lanes) address (fun _ old => alpha * old) scale) :
    Meets (Product places lanes address M alpha) (fun store => scale (run store)) := by
  intro before
  have wrote := meets before
  constructor
  · intro cell member
    change scale (run before) (address cell) = _
    rw [scaled.written _ cell member, wrote.written cell member, one_mul]
  · intro location apart
    change scale (run before) location = _
    rw [scaled.kept _ location apart, wrote.kept location apart]

theorem Meets.solution_scaled {scale : (α → R) → α → R} (meets : Meets (Solution places lanes address M 1) run)
    (scaled : Updates (laneCells places lanes) address (fun _ old => alpha * old) scale) :
    Meets (Solution places lanes address M alpha) (fun store => run (scale store)) := by
  intro before X solves
  have wrote := meets (scale before) X (fun d inPlaces r inLanes => by
    change _ = 1 * scale before (address (d, r))
    rw [one_mul, scaled.written before (d, r) ⟨inPlaces, inLanes⟩]
    exact solves d inPlaces r inLanes)
  refine ⟨wrote.written, fun location apart => ?_⟩
  change run (scale before) location = _
  rw [wrote.kept location apart, scaled.kept before location apart]

end Moves

section Sweeps

def sweep (forward : Bool) (count index : Nat) : Nat := if forward then index else count - 1 - index

theorem sweep_inside (forward : Bool) (count index : Nat) (inside : index < count) : sweep forward count index < count := by
  rw [sweep]
  split <;> omega

theorem sweep_sweep (forward : Bool) (count index : Nat) (inside : index < count) :
    sweep forward count (sweep forward count index) = index := by
  simp only [sweep]
  split <;> omega

theorem sweep_iff (forward : Bool) (count index step : Nat) (inside : index < count) (below : step < count) :
    sweep forward count index = step ↔ index = sweep forward count step := by
  constructor
  · rintro rfl
    exact (sweep_sweep forward count index inside).symm
  · rintro rfl
    exact sweep_sweep forward count step below

theorem sweep_filter (forward : Bool) (count step : Nat) (below : step < count) :
    (Finset.range count).filter (fun p => sweep forward count p = step) = {sweep forward count step} := by
  ext index
  simp only [Finset.mem_filter, Finset.mem_range, Finset.mem_singleton]
  constructor
  · rintro ⟨inside, same⟩
    exact (sweep_iff forward count index step inside below).mp same
  · rintro rfl
    exact ⟨sweep_inside forward count step below, sweep_sweep forward count step below⟩

theorem sweep_forward_filter (count step : Nat) (below : step ≤ count) :
    (Finset.range count).filter (fun p => sweep true count p < step) = Finset.range step := by
  ext index
  simp only [Finset.mem_filter, Finset.mem_range, sweep, if_true]
  omega

theorem sweep_backward_filter (count step : Nat) (below : step ≤ count) :
    (Finset.range count).filter (fun p => sweep false count p < step) = Finset.Ico (count - step) count := by
  ext index
  simp only [Finset.mem_filter, Finset.mem_range, Finset.mem_Ico, sweep, Bool.false_eq_true, if_false]
  omega

theorem row_sum_to_diagonal (count index : Nat) (inside : index < count) (term : Nat → R)
    (after : ∀ p, index < p → p < count → term p = 0) :
    ∑ p ∈ Finset.range count, term p = ∑ p ∈ Finset.range index, term p + term index := by
  rw [← Finset.sum_range_succ]
  refine (Finset.sum_subset (Finset.range_subset_range.mpr inside) (fun p member skipped => ?_)).symm
  rw [Finset.mem_range] at member skipped
  exact after p (by omega) member

theorem row_sum_from_diagonal (count index : Nat) (inside : index < count) (term : Nat → R)
    (before : ∀ p, p < index → term p = 0) :
    ∑ p ∈ Finset.range count, term p = term index + ∑ p ∈ Finset.Ico (index + 1) count, term p := by
  rw [← Finset.sum_range_add_sum_Ico term inside.le, Finset.sum_eq_zero (fun p member => before p (Finset.mem_range.mp member)),
    zero_add, Finset.sum_eq_sum_Ico_succ_bot inside]

variable (order : Nat) (lanes : Set Nat) (address : Nat × Nat → α) (M : Nat → Nat → R) (alpha : R) (steps : Nat)
  (cls : Nat → Nat) (run : Nat → (α → R) → α → R)

def stepCells (t : Nat) : Set (Nat × Nat) := {cell | cell ∈ laneCells (Finset.range order) lanes ∧ cls cell.1 = t}

def earlierCells (t : Nat) : Set (Nat × Nat) := {cell | cell ∈ laneCells (Finset.range order) lanes ∧ cls cell.1 < t}

theorem earlier_cells_succ (t : Nat) :
    earlierCells order lanes cls t ∪ stepCells order lanes cls t = earlierCells order lanes cls (t + 1) := by
  ext cell
  simp only [earlierCells, stepCells, Set.mem_union, Set.mem_ofPred_eq, Nat.lt_succ_iff_lt_or_eq]
  tauto

theorem earlier_cells_all (small : ∀ d, d < order → cls d < steps) :
    earlierCells order lanes cls steps = laneCells (Finset.range order) lanes := by
  ext cell
  constructor
  · exact fun member => member.1
  · exact fun member => ⟨member, small cell.1 (Finset.mem_range.mp member.1)⟩

omit [CommRing R] in
theorem wrote_by_steps (target : Nat × Nat → R) (before : α → R) (small : ∀ d, d < order → cls d < steps)
    (injective : Set.InjOn address (laneCells (Finset.range order) lanes))
    (each : ∀ t, t < steps → ∀ current,
      Wrote (earlierCells order lanes cls t) address (fun cell _ => target cell) before current →
      Wrote (stepCells order lanes cls t) address (fun cell _ => target cell) current (run t current)) :
    Wrote (laneCells (Finset.range order) lanes) address (fun cell _ => target cell) before (loop steps run before) := by
  have whole := loop_invariant steps run before
    (fun t current => Wrote (earlierCells order lanes cls t) address (fun cell _ => target cell) before current)
    ⟨fun cell member => absurd member.2 (Nat.not_lt_zero _), fun _ _ => rfl⟩
    (fun t current below wrote => by
      have next := wrote.then_same_target (each t below current wrote) (injective.mono (by
        rintro cell (member | member) <;> exact member.1))
      exact next.congr_cells (earlier_cells_succ order lanes cls t))
  exact whole.congr_cells (earlier_cells_all order lanes steps cls small)

theorem product_by_steps (small : ∀ d, d < order → cls d < steps)
    (injective : Set.InjOn address (laneCells (Finset.range order) lanes))
    (ordered : ∀ d p, d < order → p < order → cls p < cls d → M d p = 0)
    (each : ∀ t, t < steps → ∀ current, Wrote (stepCells order lanes cls t) address
      (fun cell _ => alpha * ∑ p ∈ Finset.range order, M cell.1 p * current (address (p, cell.2))) current (run t current)) :
    Meets (Product (Finset.range order) lanes address M alpha) (loop steps run) := by
  intro before
  refine wrote_by_steps order lanes address steps cls run _ before small injective (fun t below current wrote => ?_)
  refine (each t below current).congr (fun cell _ member => ?_)
  congr 1
  refine Finset.sum_congr rfl (fun p inside => ?_)
  by_cases earlier : cls p < t
  · rw [ordered cell.1 p (Finset.mem_range.mp member.1.1) (Finset.mem_range.mp inside) (by rw [member.2]; exact earlier),
      zero_mul, zero_mul]
  · rw [wrote.untouched injective (fun _ inEarlier => inEarlier.1) (p, cell.2) ⟨inside, member.1.2⟩
      (fun inEarlier => earlier inEarlier.2)]

theorem filter_lt_succ (t : Nat) (term : Nat → R) :
    ∑ p ∈ (Finset.range order).filter (fun p => cls p < t + 1), term p =
      ∑ p ∈ (Finset.range order).filter (fun p => cls p < t), term p +
        ∑ p ∈ (Finset.range order).filter (fun p => cls p = t), term p := by
  rw [← Finset.sum_union]
  · congr 1
    ext p
    simp only [Finset.mem_union, Finset.mem_filter, Nat.lt_succ_iff_lt_or_eq]
    tauto
  · rw [Finset.disjoint_filter]
    exact fun p _ below same => absurd same (Nat.ne_of_lt below)

-- The row of a place at step t only has entries of steps up to t.
theorem row_sum_split (ordered : ∀ d p, d < order → p < order → cls d < cls p → M d p = 0) (X : Nat → R) (d : Nat)
    (inside : d < order) :
    ∑ p ∈ Finset.range order, M d p * X p =
      ∑ p ∈ (Finset.range order).filter (fun p => cls p < cls d), M d p * X p +
        ∑ p ∈ (Finset.range order).filter (fun p => cls p = cls d), M d p * X p := by
  rw [← filter_lt_succ order cls (cls d) (fun p => M d p * X p)]
  refine (Finset.sum_subset (Finset.filter_subset _ _) (fun p member skipped => ?_)).symm
  have later : ¬ cls p < cls d + 1 := fun below => skipped (Finset.mem_filter.mpr ⟨member, below⟩)
  rw [ordered d p inside (Finset.mem_range.mp member) (by omega), zero_mul]

-- Left-looking: a step gathers what the solved places contribute, then solves.
theorem solution_left_looking (small : ∀ d, d < order → cls d < steps)
    (injective : Set.InjOn address (laneCells (Finset.range order) lanes))
    (ordered : ∀ d p, d < order → p < order → cls d < cls p → M d p = 0)
    (each : ∀ t, t < steps → ∀ (current : α → R) (X : Nat → Nat → R),
      (∀ d, d < order → cls d = t → ∀ r, r ∈ lanes →
        ∑ p ∈ (Finset.range order).filter (fun p => cls p = t), M d p * X p r = current (address (d, r)) -
          ∑ p ∈ (Finset.range order).filter (fun p => cls p < t), M d p * current (address (p, r))) →
      Wrote (stepCells order lanes cls t) address (fun cell _ => X cell.1 cell.2) current (run t current)) :
    Meets (Solution (Finset.range order) lanes address M 1) (loop steps run) := by
  intro before X solves
  refine wrote_by_steps order lanes address steps cls run (fun cell => X cell.1 cell.2) before small injective
    (fun t below current wrote => each t below current X (fun d inside same r inLanes => ?_))
  have whole : ∑ p ∈ Finset.range order, M d p * X p r = 1 * before (address (d, r)) :=
    solves d (Finset.mem_range.mpr inside) r inLanes
  rw [one_mul, row_sum_split order M cls ordered (fun p => X p r) d inside, same] at whole
  have kept : current (address (d, r)) = before (address (d, r)) :=
    wrote.untouched injective (fun _ member => member.1) (d, r) ⟨Finset.mem_range.mpr inside, inLanes⟩
      (fun member => Nat.lt_irrefl t (by simpa only [same] using member.2))
  have solved : ∑ p ∈ (Finset.range order).filter (fun p => cls p < t), M d p * current (address (p, r)) =
      ∑ p ∈ (Finset.range order).filter (fun p => cls p < t), M d p * X p r := by
    refine Finset.sum_congr rfl (fun p member => ?_)
    rw [Finset.mem_filter] at member
    rw [wrote.written (p, r) ⟨⟨member.1, inLanes⟩, member.2⟩]
  rw [kept, solved, ← whole]
  exact (add_sub_cancel_left _ _).symm

def residual (before : α → R) (X : Nat → Nat → R) (t : Nat) (cell : Nat × Nat) : R :=
  if cls cell.1 < t then X cell.1 cell.2
  else before (address cell) - ∑ p ∈ (Finset.range order).filter (fun p => cls p < t), M cell.1 p * X p cell.2

-- Right-looking: a step solves its class and takes it out of all later ones.
theorem solution_right_looking (small : ∀ d, d < order → cls d < steps)
    (injective : Set.InjOn address (laneCells (Finset.range order) lanes))
    (ordered : ∀ d p, d < order → p < order → cls d < cls p → M d p = 0)
    (each : ∀ t, t < steps → ∀ (current : α → R) (X : Nat → Nat → R),
      (∀ d, d < order → cls d = t → ∀ r, r ∈ lanes →
        ∑ p ∈ (Finset.range order).filter (fun p => cls p = t), M d p * X p r = current (address (d, r))) →
      Wrote {cell | cell ∈ laneCells (Finset.range order) lanes ∧ t ≤ cls cell.1} address
        (fun cell old => if cls cell.1 = t then X cell.1 cell.2
          else old - ∑ p ∈ (Finset.range order).filter (fun p => cls p = t), M cell.1 p * X p cell.2)
        current (run t current)) :
    Meets (Solution (Finset.range order) lanes address M 1) (loop steps run) := by
  intro before X solves
  have whole := loop_invariant steps run before
    (fun t current => Wrote (laneCells (Finset.range order) lanes) address
      (fun cell _ => residual order address M cls before X t cell) before current)
    ⟨fun cell _ => by
      simp only [residual, Nat.not_lt_zero, if_false, Finset.filter_false, Finset.sum_empty, sub_zero], fun _ _ => rfl⟩
    (fun t current below wrote => ?_)
  · refine whole.congr (fun cell _ member => ?_)
    rw [residual, if_pos (small cell.1 (Finset.mem_range.mp member.1))]
  · have turn := each t below current X (fun d inside same r inLanes => by
      have row : ∑ p ∈ Finset.range order, M d p * X p r = 1 * before (address (d, r)) :=
        solves d (Finset.mem_range.mpr inside) r inLanes
      rw [one_mul, row_sum_split order M cls ordered (fun p => X p r) d inside, same] at row
      rw [wrote.written (d, r) ⟨Finset.mem_range.mpr inside, inLanes⟩, residual, if_neg (by simp only [same]; omega), ← row]
      exact (add_sub_cancel_left _ _).symm)
    constructor
    · intro cell member
      by_cases done : cls cell.1 < t
      · rw [turn.untouched injective (fun _ inside => inside.1) cell member (fun inside => by
            have reached := inside.2
            omega),
          wrote.written cell member, residual, residual, if_pos done, if_pos (Nat.lt_succ_of_lt done)]
      · rw [turn.written cell ⟨member, Nat.le_of_not_lt done⟩, wrote.written cell member, residual, residual, if_neg done]
        by_cases same : cls cell.1 = t
        · rw [if_pos same, if_pos (by omega)]
        · rw [if_neg same, if_neg (by omega), filter_lt_succ]
          ring
    · intro location apart
      rw [turn.kept location (fun cell member => apart cell member.1), wrote.kept location apart]

omit [CommRing R] in
theorem step_cells_sweep (forward : Bool) (t : Nat) (below : t < order) :
    stepCells order lanes (sweep forward order) t = {cell | cell.1 = sweep forward order t ∧ cell.2 ∈ lanes} := by
  ext cell
  simp only [stepCells, laneCells, Set.mem_ofPred_eq, Finset.mem_range]
  constructor
  · rintro ⟨⟨inside, inLanes⟩, same⟩
    exact ⟨(sweep_iff forward order cell.1 t inside below).mp same, inLanes⟩
  · rintro ⟨same, inLanes⟩
    rw [same]
    exact ⟨⟨sweep_inside forward order t below, inLanes⟩, sweep_sweep forward order t below⟩

omit [CommRing R] in
theorem wrote_place [DecidableEq α] (forward : Bool) (t : Nat) (below : t < order) (lane : Nat) (value : R) (store : α → R) :
    Wrote (stepCells order {lane} (sweep forward order) t) address (fun _ _ => value) store
      (Function.update store (address (sweep forward order t, lane)) value) := by
  rw [step_cells_sweep order {lane} forward t below]
  constructor
  · rintro ⟨d, r⟩ ⟨place, inLanes⟩
    simp only [Set.mem_singleton_iff] at place inLanes
    rw [place, inLanes, Function.update_self]
  · intro location apart
    exact Function.update_of_ne (fun same => apart (sweep forward order t, lane) ⟨rfl, rfl⟩ same.symm) _ _

theorem product_right_looking (forward : Bool)
    (injective : Set.InjOn address (laneCells (Finset.range order) lanes))
    (ordered : ∀ d p, d < order → p < order → sweep forward order p < sweep forward order d → M d p = 0)
    (each : ∀ t, t < order → ∀ current, Wrote {cell | cell ∈ laneCells (Finset.range order) lanes ∧
        sweep forward order cell.1 ≤ t} address
      (fun cell old => if sweep forward order cell.1 = t then M cell.1 cell.1 * old
        else old + M cell.1 (sweep forward order t) * current (address (sweep forward order t, cell.2)))
      current (run t current)) :
    Meets (Product (Finset.range order) lanes address M 1) (loop order run) := by
  intro before
  let cls := sweep forward order
  have whole := loop_invariant order run before
    (fun t current => Wrote (laneCells (Finset.range order) lanes) address
      (fun cell _ => if cls cell.1 < t then
          ∑ p ∈ (Finset.range order).filter (fun p => cls p < t), M cell.1 p * before (address (p, cell.2))
        else before (address cell)) before current)
    ⟨fun cell _ => by simp only [Nat.not_lt_zero, if_false], fun _ _ => rfl⟩
    (fun t current below wrote => ?_)
  · refine whole.congr (fun cell _ member => ?_)
    rw [if_pos (sweep_inside forward order cell.1 (Finset.mem_range.mp member.1)), one_mul]
    refine Finset.sum_congr (Finset.filter_true_of_mem (fun p inside => ?_)) (fun _ _ => rfl)
    exact sweep_inside forward order p (Finset.mem_range.mp inside)
  · have turn := each t below current
    have pivot : ∀ r, r ∈ lanes → current (address (sweep forward order t, r)) = before (address (sweep forward order t, r)) := by
      intro r inLanes
      rw [wrote.written (sweep forward order t, r) ⟨Finset.mem_range.mpr (sweep_inside forward order t below), inLanes⟩]
      exact if_neg (by simp only [cls, sweep_sweep forward order t below]; omega)
    constructor
    · intro cell member
      have inside := Finset.mem_range.mp member.1
      by_cases later : t < cls cell.1
      · rw [turn.untouched injective (fun _ inTurn => inTurn.1) cell member (fun inTurn => by
            have reached := inTurn.2
            simp only [cls] at later
            omega),
          wrote.written cell member, if_neg (by omega), if_neg (by omega)]
      · rw [turn.written cell ⟨member, Nat.le_of_not_lt later⟩, wrote.written cell member, if_pos (show cls cell.1 < t + 1 by omega),
          filter_lt_succ, sweep_filter forward order t below, Finset.sum_singleton]
        by_cases same : sweep forward order cell.1 = t
        · have none : ∑ p ∈ (Finset.range order).filter (fun p => cls p < t), M cell.1 p * before (address (p, cell.2)) = 0 := by
            refine Finset.sum_eq_zero (fun p small => ?_)
            rw [Finset.mem_filter] at small
            rw [ordered cell.1 p inside (Finset.mem_range.mp small.1) (by rw [same]; exact small.2), zero_mul]
          have place : sweep forward order t = cell.1 := ((sweep_iff forward order cell.1 t inside below).mp same).symm
          rw [if_pos same, if_neg (by simp only [cls, same]; omega), none, zero_add, place]
        · rw [if_neg same, if_pos (show cls cell.1 < t by simp only [cls] at later ⊢; omega), pivot cell.2 member.2]
    · intro location apart
      rw [turn.kept location (fun cell member => apart cell member.1), wrote.kept location apart]

end Sweeps

section Division

-- Division as in a field, for a ring that brings its own quotient.
class ExactDivision (R : Type) [CommRing R] [Div R] : Prop where
  div_mul : ∀ a b : R, b ≠ 0 → a / b * b = a

instance {K : Type} [Field K] : ExactDivision K := ⟨fun a _ nonzero => div_mul_cancel₀ a nonzero⟩

variable [Div R] [ExactDivision R]

theorem exact_unit (b : R) (nonzero : b ≠ 0) : IsUnit b := by
  have inverse : b * (1 / b) = 1 := by rw [mul_comm]; exact ExactDivision.div_mul 1 b nonzero
  exact IsUnit.of_mul_eq_one _ inverse

theorem quotient_unique (a b x : R) (nonzero : b ≠ 0) (product : b * x = a) : a / b = x := by
  refine (exact_unit b nonzero).mul_left_cancel ?_
  rw [product, mul_comm]
  exact ExactDivision.div_mul a b nonzero

theorem reciprocal_mul (a b : R) (nonzero : b ≠ 0) : a * (1 / b) = a / b := by
  refine (quotient_unique a b (a * (1 / b)) nonzero ?_).symm
  rw [mul_left_comm, mul_comm b, ExactDivision.div_mul 1 b nonzero, mul_one]

end Division

section Inverse

variable {places : Finset Nat} {lanes : Set Nat} {address : Nat × Nat → α} {M : Nat → Nat → R}
    {multiply multiply' solve solve' : (α → R) → α → R}

omit [CommRing R] in
theorem same_store (address : Nat × Nat → α) (cells : Set (Nat × Nat)) (first second : α → R)
    (inside : ∀ cell, cell ∈ cells → first (address cell) = second (address cell))
    (outside : ∀ location, (∀ cell, cell ∈ cells → address cell ≠ location) → first location = second location) : first = second := by
  funext location
  by_cases reached : ∃ cell, cell ∈ cells ∧ address cell = location
  · obtain ⟨cell, member, rfl⟩ := reached
    exact inside cell member
  · exact outside location (fun cell member same => reached ⟨cell, member, same⟩)

theorem solve_after_multiply (multiplies : Meets (Product places lanes address M 1) multiply)
    (solves : Meets (Solution places lanes address M 1) solve) (store : α → R) : solve (multiply store) = store := by
  have product := multiplies store
  have solution := solves (multiply store) (fun d r => store (address (d, r))) (fun d inside r lane => by
    change _ = 1 * multiply store (address (d, r))
    rw [product.written (d, r) ⟨inside, lane⟩, one_mul, one_mul])
  refine same_store address (laneCells places lanes) _ _ (fun cell member => solution.written cell member) (fun location apart => ?_)
  rw [solution.kept location apart, product.kept location apart]

theorem multiply_after_solve (multiplies : Meets (Product places lanes address M 1) multiply)
    (solves : Meets (Solution places lanes address M 1) solve) (store : α → R)
    (solvable : ∃ X, IsSolution places lanes M X (fun d r => store (address (d, r)))) : multiply (solve store) = store := by
  obtain ⟨X, equations⟩ := solvable
  have solution := solves store X (fun d inside r lane => by
    change _ = 1 * store (address (d, r))
    rw [one_mul]
    exact equations d inside r lane)
  have product := multiplies (solve store)
  refine same_store address (laneCells places lanes) _ _ (fun cell member => ?_) (fun location apart => ?_)
  · rw [product.written cell member, one_mul]
    refine Eq.trans ?_ (equations cell.1 member.1 cell.2 member.2)
    exact Finset.sum_congr rfl (fun p inside => by rw [solution.written (p, cell.2) ⟨inside, member.2⟩])
  · rw [product.kept location apart, solution.kept location apart]

theorem same_product (first : Meets (Product places lanes address M 1) multiply)
    (second : Meets (Product places lanes address M 1) multiply') (store : α → R) : multiply store = multiply' store :=
  same_store address (laneCells places lanes) _ _
    (fun cell member => by rw [(first store).written cell member, (second store).written cell member])
    (fun location apart => by rw [(first store).kept location apart, (second store).kept location apart])

theorem same_solution (first : Meets (Solution places lanes address M 1) solve)
    (second : Meets (Solution places lanes address M 1) solve') (store : α → R)
    (solvable : ∃ X, IsSolution places lanes M X (fun d r => store (address (d, r)))) : solve store = solve' store := by
  obtain ⟨X, equations⟩ := solvable
  have same : IsSolution places lanes M X (fun d r => 1 * store (address (d, r))) := by
    simpa only [one_mul] using equations
  have left := first store X same
  have right := second store X same
  exact same_store address (laneCells places lanes) _ _
    (fun cell member => by rw [left.written cell member, right.written cell member])
    (fun location apart => by rw [left.kept location apart, right.kept location apart])

end Inverse

section Existence

variable (order : Nat) (M : Nat → Nat → R)

def squareMatrix : Matrix (Fin order) (Fin order) R := fun d p => M d p

theorem square_row (X : Nat → R) (d : Fin order) :
    (squareMatrix order M).mulVec (fun p => X p) d = ∑ p ∈ Finset.range order, M d p * X p := by
  rw [Finset.sum_range]
  rfl

theorem triangular_determinant (upper : Bool)
    (ordered : ∀ d p, d < order → p < order → (if upper then p < d else d < p) → M d p = 0)
    (units : ∀ d, d < order → IsUnit (M d d)) : IsUnit (squareMatrix order M).det := by
  have determinant : (squareMatrix order M).det = ∏ d : Fin order, M d d := by
    cases upper with
    | true => exact Matrix.det_of_isUpperTriangular (fun d p below => ordered d p d.isLt p.isLt below)
    | false => exact Matrix.det_of_isLowerTriangular (squareMatrix order M) (fun d p below => ordered d p d.isLt p.isLt below)
  rw [determinant]
  exact IsUnit.prod_univ_iff.mpr (fun d => units d d.isLt)

-- So it has a solution for every right-hand side.
theorem triangular_solution_exists (upper : Bool)
    (ordered : ∀ d p, d < order → p < order → (if upper then p < d else d < p) → M d p = 0)
    (units : ∀ d, d < order → IsUnit (M d d)) (lanes : Set Nat) (rhs : Nat → Nat → R) :
    ∃ X : Nat → Nat → R, IsSolution (Finset.range order) lanes M X rhs := by
  have invertible := triangular_determinant order M upper ordered units
  let column : Nat → Fin order → R := fun r => (squareMatrix order M)⁻¹.mulVec (fun d => rhs d r)
  refine ⟨fun p r => if inside : p < order then column r ⟨p, inside⟩ else 0, fun d inside r _ => ?_⟩
  have member := Finset.mem_range.mp inside
  have solved : (squareMatrix order M).mulVec (column r) = fun d : Fin order => rhs d r := by
    rw [Matrix.mulVec_mulVec, Matrix.mul_nonsing_inv (squareMatrix order M) invertible, Matrix.one_mulVec]
  have row := congrFun solved ⟨d, member⟩
  rw [← row, Finset.sum_range]
  refine Finset.sum_congr rfl (fun p _ => ?_)
  exact congrArg (fun value => M d p * value) (dif_pos p.isLt)

-- And no second one.
theorem triangular_solution_unique (upper : Bool)
    (ordered : ∀ d p, d < order → p < order → (if upper then p < d else d < p) → M d p = 0)
    (units : ∀ d, d < order → IsUnit (M d d)) (lanes : Set Nat) (rhs X Y : Nat → Nat → R)
    (first : IsSolution (Finset.range order) lanes M X rhs) (second : IsSolution (Finset.range order) lanes M Y rhs) (p r : Nat)
    (inside : p < order) (lane : r ∈ lanes) : X p r = Y p r := by
  have invertible := triangular_determinant order M upper ordered units
  have injective := Matrix.mulVec_injective_of_isUnit ((Matrix.isUnit_iff_isUnit_det _).mpr invertible)
  have columns : (fun p : Fin order => X p r) = fun p : Fin order => Y p r := by
    refine injective (funext (fun d => ?_))
    rw [square_row order M (fun p => X p r), square_row order M (fun p => Y p r),
      first d (Finset.mem_range.mpr d.isLt) r lane, second d (Finset.mem_range.mpr d.isLt) r lane]
  exact congrFun columns ⟨p, inside⟩

end Existence

end ArrayProgram
