import Zynum.Vector.Footprint

set_option autoImplicit false

/- Stride-2 routines against the storage their callers have to provide. -/
namespace Zynum.LevelOne

open ArrayProgram
open Element (width parts whole fromReal)

section Routes

variable {R A B : Type} {cellWidth n lanes : Nat} {strict : Bool}

-- Nothing behind the required storage is touched, on any run of the tasks.
def InStorage (execution : Execution (Bool × Nat) R B A) (cellWidth n : Nat) : Prop :=
  ∀ memory place, execution.Reaches memory place → place ∈ storage cellWidth n

theorem in_storage {execution : Execution (Bool × Nat) R B A} (inside : execution.Within (storage cellWidth n)) :
    InStorage execution cellWidth n :=
  fun _ _ reaches => Execution.reaches_within inside reaches

theorem single_overruns {program : Program (Bool × Nat) R A} {second : Bool} [Zero R] (some : 0 < cellWidth)
    (several : 0 < n) (touches : Touches program (second, cellWidth * (2 * n) - 1)) :
    ¬ InStorage (.single program : Execution (Bool × Nat) R B A) cellWidth n :=
  fun inside => overrun_cell second some several (inside (fun _ => 0) _ (touches _))

theorem fork_overruns {count index : Nat} {tasks : Nat → Program (Bool × Nat) R B}
    {next : (Nat → B) → Execution (Bool × Nat) R B A} {second : Bool} [Zero R] (some : 0 < cellWidth)
    (several : 0 < n) (small : index < count) (touches : Touches (tasks index) (second, cellWidth * (2 * n) - 1)) :
    ¬ InStorage (.fork count tasks next) cellWidth n :=
  fun inside => overrun_cell second some several
    (inside (fun _ => 0) _ (.inl (Pool.touched_reaches count index small tasks _ _ (touches _))))

-- A loop of stride-2 blocks that may be given any part of the vector.
structure BlockRoute (task : Site → Nat → Nat → Program (Bool × Nat) R B) (strict : Bool) (lanes cellWidth n : Nat) :
    Prop where
  inside : ∀ site first last, first ≤ last → last ≤ n → (last = n → strict = false → ¬ lanes ∣ n - first) →
    (task site first last).Within (storage cellWidth n) (fun _ => True)
  overruns : ∀ site first, first < n → lanes ∣ n - first → strict = false →
    ∃ second, Touches (task site first n) (second, cellWidth * (2 * n) - 1)

theorem block_route {body : Piece → B → Program (Bool × Nat) R B} {initial : B} (strict : Bool) (lanes : Nat)
    (second : Bool) (some : 0 < cellWidth)
    (inside : ∀ piece state,
      (∀ side, WindowInside (Operand.stride2 cellWidth (cellsOf side)) (storage cellWidth n) piece) →
      (body piece state).Within (storage cellWidth n) (fun _ => True))
    (touches : ∀ piece state lane, lane < piece.size cellWidth →
      Touches (body piece state) ((Operand.stride2 cellWidth (cellsOf second)).window piece lane)) :
    BlockRoute (fun _ first last => Program.foldItems (stride2Plan strict lanes first last) body initial) strict lanes
      cellWidth n := by
  constructor
  · intro _ first last ordered bounded clear
    exact within_items _ body initial (fun piece state member =>
      inside piece state (fun side => plan_inside bounded ordered clear piece member))
  · intro _ first below divides loose
    subst loose
    obtain ⟨early, last, plan, two, _, ends, filled⟩ := last_block below divides
    obtain ⟨lane, small, same⟩ := last_lane second some two ends filled
    refine ⟨second, touches_items last ?_ (fun state => same ▸ touches last state lane small)⟩
    rw [plan]
    exact List.mem_append_right _ List.mem_cons_self

theorem even_bound_last {count task : Nat} (several : 0 < n) (small : task < count) (ends : evenBound n count (task + 1) = n) :
    task = count - 1 := by
  by_contra early
  have fewer : (task + 1) * n < count * n := Nat.mul_lt_mul_of_pos_right (by omega) several
  have below : evenBound n count (task + 1) < n := Nat.div_lt_of_lt_mul fewer
  omega

theorem even_bound_below (count : Nat) (several : 0 < n) (some : 0 < count) : evenBound n count (count - 1) < n := by
  refine Nat.div_lt_of_lt_mul ?_
  exact Nat.mul_lt_mul_of_pos_right (by omega) several

variable {task : Site → Nat → Nat → Program (Bool × Nat) R B}

theorem BlockRoute.fork_inside (law : BlockRoute task strict lanes cellWidth n) (several : 0 < n) (site : Site)
    (count : Nat) (some : 0 < count) (next : (Nat → B) → A)
    (clear : strict = false → ¬ lanes ∣ n - evenBound n count (count - 1)) :
    InStorage (.fork count (fun index => task (index :: site) (evenBound n count index) (evenBound n count (index + 1)))
      (fun results => .single (.done (next results)))) cellWidth n := by
  have splits := even_splits n count some
  refine in_storage ⟨fun _ _ => True, fun index small => ?_, fun _ _ => trivial⟩
  refine law.inside _ _ _ (splits.ordered index small) ?_ (fun ends loose => ?_)
  · exact (splits.mono (index + 1) count small (Nat.le_refl count)).trans (Nat.le_of_eq splits.finish)
  · rw [even_bound_last several small ends]
    exact clear loose

variable [Zero R]

def lastChunk (mayFork : Prop) [Decidable mayFork] (rt : Runtime) (site : Site) (n count : Nat) : Nat :=
  if mayFork ∧ forks rt site count then evenBound n count (count - 1) else 0

theorem BlockRoute.route_iff {task : Site → Nat → Nat → Program (Bool × Nat) R B}
    (law : BlockRoute task false lanes cellWidth n) (some : 0 < cellWidth) (several : 0 < n) (mayFork : Prop)
    [Decidable mayFork] (machine : VectorMachine) (site : Site) (count : Nat) (next : (Nat → B) → B) :
    InStorage ((if mayFork then forkCount machine site n count task next else none).getD (.single (task site 0 n)))
      cellWidth n ↔ ¬ lanes ∣ n - lastChunk mayFork machine.runtime site n count := by
  have serial : InStorage (.single (task site 0 n) : Execution (Bool × Nat) R B B) cellWidth n ↔ ¬ lanes ∣ n - 0 := by
    constructor
    · intro inside divides
      obtain ⟨second, touches⟩ := law.overruns site 0 several divides rfl
      exact single_overruns some several touches inside
    · exact fun clear => in_storage (law.inside site 0 n (Nat.zero_le n) (Nat.le_refl n) (fun _ _ => clear))
  rw [lastChunk]
  by_cases may : mayFork
  · rw [if_pos may, forkCount, fork_tasks_forks]
    cases taken : forks machine.runtime site count with
    | false =>
      rw [if_neg Bool.false_ne_true, if_neg (fun both => Bool.false_ne_true both.2)]
      exact serial
    | true =>
      rw [if_pos rfl, if_pos ⟨may, rfl⟩]
      have many := of_decide_eq_true (Bool.and_eq_true_iff.mp taken).1
      constructor
      · intro inside divides
        obtain ⟨second, touches⟩ := law.overruns ((count - 1) :: site) _ (even_bound_below count several (by omega)) divides rfl
        have finish : evenBound n count (count - 1 + 1) = n := by
          rw [Nat.sub_add_cancel (by omega)]
          exact (even_splits n count (by omega)).finish
        have last : Touches (task ((count - 1) :: site) (evenBound n count (count - 1)) (evenBound n count (count - 1 + 1)))
            (second, cellWidth * (2 * n) - 1) := by
          rw [finish]
          exact touches
        exact fork_overruns some several (show count - 1 < count by omega) last inside
      · exact fun clear => law.fork_inside several site count (by omega) next (fun _ => clear)
  · rw [if_neg may, if_neg (fun both => may both.1)]
    exact serial

theorem BlockRoute.serial_iff {task : Site → Nat → Nat → Program (Bool × Nat) R A}
    (law : BlockRoute task false lanes cellWidth n) (some : 0 < cellWidth) (several : 0 < n) (site : Site) :
    InStorage (.single (task site 0 n) : Execution (Bool × Nat) R B A) cellWidth n ↔ ¬ lanes ∣ n := by
  constructor
  · intro inside divides
    obtain ⟨second, touches⟩ := law.overruns site 0 several divides rfl
    exact single_overruns some several touches inside
  · exact fun clear => in_storage (law.inside site 0 n (Nat.zero_le n) (Nat.le_refl n) (fun _ _ => clear))

end Routes

section Loops

variable {R : Type} [CommRing R] {cellWidth n : Nat}

theorem update_block_route (strict : Bool) (lanes : Nat) (second : Bool) (some : 0 < cellWidth)
    (apply : (Nat → R) → Nat → R) :
    BlockRoute (updateStride2 strict lanes cellWidth apply (cellsOf second)) strict lanes cellWidth n :=
  block_route strict lanes second some (fun _ _ inside => within_update_one apply (inside second))
    (fun _ _ lane small => touches_first _ (touches_load_cells lane small))

theorem second_block_route (strict : Bool) (lanes : Nat) (some : 0 < cellWidth)
    (apply : (Nat → R) → (Nat → R) → Nat → R) :
    BlockRoute (secondStride2 strict lanes cellWidth apply (cellsOf false) (cellsOf true)) strict lanes cellWidth n :=
  block_route strict lanes false some
    (fun _ _ inside => within_update_second apply (inside false) (inside true))
    (fun _ _ lane small => touches_first _ (touches_load_active lane small))

theorem both_block_route (strict : Bool) (lanes : Nat) (some : 0 < cellWidth) (rule : PairRule R) :
    BlockRoute (bothStride2 strict lanes cellWidth rule (cellsOf false) (cellsOf true)) strict lanes cellWidth n :=
  block_route strict lanes false some
    (fun _ _ inside => within_update_both rule.first rule.second (inside false) (inside true))
    (fun _ _ lane small => touches_first _ (touches_load_cells lane small))

theorem asum_block_route [LinearOrder R] (strict : Bool) (lanes : Nat) (some : 0 < cellWidth) :
    BlockRoute (asumStride2 (R := R) strict lanes cellWidth (cellsOf false)) strict lanes cellWidth n :=
  block_route strict lanes false some (fun _ sum inside => within_sum_one _ sum (inside false))
    (fun _ _ lane small => touches_first _ (touches_load_active lane small))

variable {T : Type} [CommRing T] [Element R T]

theorem dot_block_route (strict : Bool) (lanes : Nat) (conjx : Bool) (some : 0 < width T) :
    BlockRoute (dotStride2 (R := R) (T := T) strict lanes conjx (cellsOf false) (cellsOf true)) strict lanes (width T) n :=
  block_route strict lanes false some (fun _ sum inside => within_sum_two _ sum (inside false) (inside true))
    (fun _ _ lane small => touches_first _ (touches_load_active lane small))

omit [CommRing T] [Element R T] in
theorem acc_block_route (strict : Bool) :
    BlockRoute (dotF32AccF64Stride2 (R := R) strict (cellsOf false) (cellsOf true)) strict 4 1 n :=
  block_route strict 4 false Nat.one_pos (fun _ sum inside => within_sum_two _ sum (inside false) (inside true))
    (fun _ _ lane small => touches_first _ (touches_load_active lane small))

omit [CommRing R] in
theorem singles_within {B : Type} {n : Int} {body : Piece → B → Program (Bool × Nat) R B} {initial : B}
    (inside : ∀ piece state,
      (∀ side, WindowInside (Operand.strided cellWidth n 2 (cellsOf side)) (storage cellWidth (toUsize n)) piece) →
      (body piece state).Within (storage cellWidth (toUsize n)) (fun _ => True)) :
    (Program.foldItems (singles 0 (toUsize n)) body initial).Within (storage cellWidth (toUsize n)) (fun _ => True) := by
  refine within_items _ body initial (fun piece state member => inside piece state (fun side => ?_))
  rw [stride2_strided]
  obtain ⟨block, small, rfl⟩ := mem_blocks.mp member
  exact single_inside _ rfl rfl (show 0 + block * 1 < toUsize n by omega)

end Loops

section Calls

variable {R T : Type} [CommRing R] [LinearOrder R] [CommRing T] [Element R T] {n : Int} {xStart yStart : Nat}

omit [CommRing R] [LinearOrder R] in
theorem fork_even_forks {α A B : Type} (machine : VectorMachine) (site : Site) (n : Nat)
    (task : Site → Nat → Nat → Program α R B) (next : Nat → (Nat → B) → A) :
    forkEven machine site n task next =
      if forks machine.runtime site (machine.runtime.taskCount site n) then
        some (.fork (machine.runtime.taskCount site n)
          (fun index => task (index :: site) (evenBound n (machine.runtime.taskCount site n) index)
            (evenBound n (machine.runtime.taskCount site n) (index + 1)))
          (fun results => .single (.done (next (machine.runtime.taskCount site n) results))))
      else none := by
  rw [forkEven, forkCount, fork_tasks_forks]

-- The tasks of a strict loop stop short of the last element of the vector.
omit [CommRing R] [LinearOrder R] [CommRing T] [Element R T] in
theorem strict_inside {A B : Type} {cellWidth lanes : Nat} {machine : VectorMachine} {site : Site} {target : Bool}
    {task : Site → Nat → Nat → Program (Bool × Nat) R B} {next : Nat → (Nat → B) → A}
    (law : BlockRoute task true lanes cellWidth (toUsize n)) (several : 0 < toUsize n)
    (execution : Execution (Bool × Nat) R B A)
    (accepted : (if target then forkEven machine site (toUsize n) task next else none) = some execution) :
    InStorage execution cellWidth (toUsize n) := by
  obtain ⟨_, accepted⟩ := Option.ite_none_right_eq_some.mp accepted
  rw [fork_even_forks] at accepted
  obtain ⟨taken, same⟩ := Option.ite_none_right_eq_some.mp accepted
  have many := of_decide_eq_true (Bool.and_eq_true_iff.mp taken).1
  rw [← Option.some.inj same]
  exact law.fork_inside several site _ (by omega) _ (fun loose => Bool.noConfusion loose)

omit [CommRing R] [LinearOrder R] in
theorem finished_in_storage {cellWidth size : Nat} :
    InStorage (finished : Execution (Bool × Nat) R Unit Unit) cellWidth size :=
  in_storage trivial

variable (T) in
def scalOverruns (machine : VectorMachine) (site : Site) (n : Int) (alpha : T) : Prop :=
  isOne alpha = false ∧ isReal T = false ∧ stride2Lanes machine T ∣ toUsize n -
    lastChunk (Scalar.precision T = .double ∧ machine.runtime.arch = .aarch64) machine.runtime site (toUsize n)
      (machine.runtime.taskCount site (toUsize n))

variable [LawfulElement R T]

omit [LinearOrder R] in
theorem scal_in_storage (machine : VectorMachine) (site : Site) (alpha : T) (second : Bool) (positive : 1 ≤ n) :
    InStorage (scal machine site n alpha (cellsOf second) 2) (width T) (toUsize n) ↔
      ¬ scalOverruns T machine site n alpha := by
  have some : 0 < width T := LawfulElement.width_pos
  have several : 0 < toUsize n := by simp only [toUsize]; omega
  rw [scal, if_neg (by omega), scalOverruns]
  cases one : isOne alpha with
  | true => exact ⟨fun _ bad => Bool.noConfusion bad.1, fun _ => finished_in_storage⟩
  | false =>
    rw [if_neg Bool.false_ne_true, if_neg (by decide)]
    cases kind : isReal T with
    | true =>
      refine ⟨fun _ bad => Bool.noConfusion bad.2.1, fun _ => in_storage ?_⟩
      exact singles_within (fun _ _ inside => within_update_one _ (inside second))
    | false =>
      rw [if_pos (by decide)]
      have route := (update_block_route (n := toUsize n) false (stride2Lanes machine T) second some
        (scalRule (R := R) alpha)).route_iff some several
        (Scalar.precision T = .double ∧ machine.runtime.arch = .aarch64) machine site
        (machine.runtime.taskCount site (toUsize n)) (fun _ => ())
      exact route.trans ⟨fun clear bad => clear bad.2.2, fun clear divides => clear ⟨rfl, rfl, divides⟩⟩

theorem rscal_in_storage (machine : VectorMachine) (site : Site) (alpha : R) (positive : 1 ≤ n) :
    InStorage (rscal T machine site n alpha (cellsOf false) 2) (width T) (toUsize n) ↔
      ¬ (alpha ≠ 1 ∧ scalOverruns T machine site n (fromReal alpha)) := by
  rw [rscal]
  by_cases one : alpha = 1
  · rw [if_pos one]
    exact ⟨fun _ bad => bad.1 one, fun _ => finished_in_storage⟩
  · rw [if_neg one, if_neg (by omega), if_neg (fun unit => absurd unit.2 (by decide))]
    refine (scal_in_storage machine site (fromReal alpha) false positive).trans ?_
    exact ⟨fun clear bad => clear bad.2, fun clear bad => clear ⟨one, bad⟩⟩

variable (T) in
def swapOverruns (machine : VectorMachine) (site : Site) (n : Int) (xStart yStart : Nat) : Prop :=
  (isReal T || decide (Scalar.precision T = .single)) = true ∧ stride2Overlap T (toUsize n) xStart yStart = false ∧
    stride2Lanes machine T ∣ toUsize n -
      lastChunk (machine.runtime.arch = .aarch64 ∧ ((isReal T : Bool) ↔ Scalar.precision T = .double) ∧
          512 * 1024 ≤ toUsize n) machine.runtime site (toUsize n) (min (machine.runtime.taskCount site (toUsize n)) 2)

omit [LinearOrder R] [CommRing T] [LawfulElement R T] in
theorem both_strided_inside (rule : PairRule R) :
    InStorage (bothStrided (width T) n rule (cellsOf false) 2 (cellsOf true) 2 : Execution (Bool × Nat) R Unit Unit)
      (width T) (toUsize n) :=
  in_storage (singles_within (fun _ _ inside => within_update_both _ _ (inside false) (inside true)))

omit [LinearOrder R] in
theorem swap_in_storage (machine : VectorMachine) (site : Site) (positive : 1 ≤ n) :
    InStorage (swap (R := R) T machine site n xStart yStart (cellsOf false) 2 (cellsOf true) 2) (width T) (toUsize n) ↔
      ¬ swapOverruns T machine site n xStart yStart := by
  have some : 0 < width T := LawfulElement.width_pos
  have several : 0 < toUsize n := by simp only [toUsize]; omega
  rw [swap, if_neg (by omega), if_neg (by omega), swapOverruns]
  split
  · rename_i blocks
    obtain ⟨_, _, kind, far⟩ := blocks
    rw [Bool.not_eq_true'] at far
    have route := (both_block_route (n := toUsize n) false (stride2Lanes machine T) some (swapRule : PairRule R)).route_iff
      some several (machine.runtime.arch = .aarch64 ∧ ((isReal T : Bool) ↔ Scalar.precision T = .double) ∧
        512 * 1024 ≤ toUsize n) machine site (min (machine.runtime.taskCount site (toUsize n)) 2) (fun _ => ())
    exact route.trans ⟨fun clear bad => clear bad.2.2, fun clear divides => clear ⟨kind, far, divides⟩⟩
  · rename_i other
    refine ⟨fun _ bad => other ⟨rfl, rfl, bad.1, ?_⟩, fun _ => both_strided_inside swapRule⟩
    rw [bad.2.1]
    rfl

variable (T) in
def axpyOverruns (machine : VectorMachine) (site : Site) (n : Int) (xStart yStart : Nat) : Prop :=
  stride2Overlap T (toUsize n) xStart yStart = false ∧ stride2Lanes machine T ∣ toUsize n -
    lastChunk (machine.runtime.arch = .aarch64) machine.runtime site (toUsize n)
      (machine.runtime.taskCount site (toUsize n))

omit [LinearOrder R] in
theorem axpy_in_storage (xStart yStart : Nat) (machine : VectorMachine) (site : Site) (alpha : T) (positive : 1 ≤ n) :
    InStorage (axpy machine site n alpha xStart yStart (cellsOf false) 2 (cellsOf true) 2) (width T) (toUsize n) ↔
      ¬ (isZero alpha = false ∧ axpyOverruns T machine site n xStart yStart) := by
  have some : 0 < width T := LawfulElement.width_pos
  have several : 0 < toUsize n := by simp only [toUsize]; omega
  rw [axpy, axpyOverruns]
  split
  · rename_i nothing
    refine ⟨fun _ bad => ?_, fun _ => finished_in_storage⟩
    rcases nothing with empty | noX | noY | noAlpha
    · omega
    · omega
    · omega
    · exact Bool.noConfusion (bad.1.symm.trans noAlpha)
  rename_i known
  have turned : isZero alpha = false := by
    cases noAlpha : isZero alpha with
    | false => rfl
    | true => exact absurd (.inr (.inr (.inr noAlpha))) known
  rw [if_neg (by omega)]
  split
  · rename_i blocks
    obtain ⟨_, _, far⟩ := blocks
    rw [Bool.not_eq_true'] at far
    have route := (second_block_route (n := toUsize n) false (stride2Lanes machine T) some (axpyRule (R := R) alpha)).route_iff
      some several (machine.runtime.arch = .aarch64) machine site (machine.runtime.taskCount site (toUsize n)) (fun _ => ())
    exact route.trans ⟨fun clear bad => clear bad.2.2, fun clear divides => clear ⟨turned, far, divides⟩⟩
  · rename_i other
    refine ⟨fun _ bad => other ⟨rfl, rfl, ?_⟩, fun _ => in_storage ?_⟩
    · rw [bad.2.1]
      rfl
    · exact singles_within (fun _ _ inside => within_update_second _ (inside false) (inside true))

end Calls

end Zynum.LevelOne
