import Zynum.Vector.StaleStores
import Zynum.Vector.Sums

set_option autoImplicit false

/- Level 1 calls on two vectors in one memory, and when every route of a call is
   its definition element by element. -/
namespace Zynum.LevelOne

open ArrayProgram
open Element (width parts whole fromReal)

section Routines

variable {R T : Type} [CommRing R] [CommRing T] [Element R T] [LawfulElement R T] {n : Int}
  {incx incy : Int} {xStart yStart : Nat}

def forks (rt : Runtime) (site : Site) (count : Nat) : Bool := decide (1 < count) && (rt.dispatch site count).isSome

omit [CommRing R] [CommRing T] [Element R T] [LawfulElement R T] in
theorem fork_tasks_forks {α A B : Type} (rt : Runtime) (site : Site) (count : Nat) (tasks : Nat → Program α R B)
    (next : (Nat → B) → A) :
    forkTasks rt site count tasks next =
      if forks rt site count then some (.fork count tasks (fun results => .single (.done (next results)))) else none := by
  rw [forkTasks, forks]
  by_cases several : count ≤ 1
  · rw [if_pos several, decide_eq_false (by omega), Bool.false_and, if_neg Bool.false_ne_true]
  · rw [if_neg several, decide_eq_true (by omega), Bool.true_and]

variable (T) in
-- The call runs in stride2_parallel.zig.
def isolated (machine : VectorMachine) (site : Site) (n : Int) (xStart : Nat) (incx : Int) (yStart : Nat) (incy : Int) :
    Bool :=
  targetNonOverlappingBinary machine T n xStart incx yStart incy &&
    forks machine.runtime site (machine.runtime.taskCount site (toUsize n))

theorem target_apart {machine : VectorMachine} (target : targetNonOverlappingBinary machine T n xStart incx yStart incy = true) :
    0 < toUsize n ∧ SpansApart (width T) (toUsize n) xStart yStart := by
  simp only [targetNonOverlappingBinary, targetUnary, Bool.and_eq_true, Bool.not_eq_true'] at target
  have several : 0 < toUsize n := by
    have positive := of_decide_eq_true target.1.2.1.1.2
    simp only [toUsize]
    omega
  have some : 0 < width T * (2 * toUsize n - 1) :=
    Nat.mul_pos LawfulElement.width_pos (by omega)
  exact ⟨several, ranges_apart some target.2⟩

theorem stride2_both_rewrites {machine : VectorMachine} {site : Site} {rule : PairRule R}
    {execution : Execution Nat R Unit Unit} (elementwise : PairMaps (width T) rule)
    (disjoint : Disjoint2 (Operand.strided (width T) n incx (cellsFrom xStart))
      (Operand.strided (width T) n incy (cellsFrom yStart)) (Set.Iio (toUsize n)))
    (accepted : stride2Both T machine site n rule xStart yStart (cellsFrom xStart) incx (cellsFrom yStart) incy =
      some execution) :
    Rewrites execution (cells (width T) (Set.Iio (toUsize n)))
      (cellAddress (Operand.strided (width T) n incx (cellsFrom xStart))
        (Operand.strided (width T) n incy (cellsFrom yStart)))
      (ruleValue rule (Operand.strided (width T) n incx (cellsFrom xStart))
        (Operand.strided (width T) n incy (cellsFrom yStart))) := by
  rw [stride2Both] at accepted
  obtain ⟨target, accepted⟩ := Option.ite_none_right_eq_some.mp accepted
  obtain ⟨twoX, twoY⟩ := target_binary_two target
  rw [twoX, twoY, stride2_strided, stride2_strided] at disjoint ⊢
  have task := both_stride2_task true (stride2Lanes machine T) LawfulElement.width_pos elementwise (target_apart target).2
    (fun loose => Bool.noConfusion loose) disjoint
  exact task.even accepted

omit [CommRing T] [LawfulElement R T] in
theorem stride2_both_declines (machine : VectorMachine) (site : Site) (rule : PairRule R) :
    stride2Both T machine site n rule xStart yStart (cellsFrom xStart) incx (cellsFrom yStart) incy = none ↔
      isolated T machine site n xStart incx yStart incy = false := by
  rw [stride2Both, isolated, forkEven, forkCount, fork_tasks_forks]
  cases targetNonOverlappingBinary machine T n xStart incx yStart incy with
  | false => exact ⟨fun _ => rfl, fun _ => rfl⟩
  | true =>
    rw [if_pos rfl, Bool.true_and]
    cases forks machine.runtime site (machine.runtime.taskCount site (toUsize n)) with
    | false => exact ⟨fun _ => rfl, fun _ => rfl⟩
    | true => exact iff_of_false (by simp) (by decide)

variable (T) in
-- parallelSwapStride2F64 and parallelSwapStride2C32 hand out two chunks.
def swapForked (machine : VectorMachine) (site : Site) (n : Nat) : Bool :=
  decide (machine.runtime.arch = .aarch64 ∧ ((isReal T : Bool) ↔ Scalar.precision T = .double) ∧ 512 * 1024 ≤ n) &&
    forks machine.runtime site (min (machine.runtime.taskCount site n) 2)

variable (T) in
def swapStale (machine : VectorMachine) (site : Site) (n xStart yStart : Nat) : Prop :=
  (isReal T || decide (Scalar.precision T = .single)) = true ∧
    if swapForked T machine site n then PairedStale (stride2Lanes machine T) (width T) n xStart yStart
    else SerialStale (stride2Lanes machine T) (width T) n xStart yStart

omit [CommRing T] [LawfulElement R T] in
theorem parallel_swap_stride2 (machine : VectorMachine) (site : Site) (n : Nat) :
    parallelSwapStride2 (R := R) T machine site n (cellsFrom xStart) (cellsFrom yStart) =
      if swapForked T machine site n then
        some (.fork 2 (fun t => bothStride2 false (stride2Lanes machine T) (width T) swapRule (cellsFrom xStart)
          (cellsFrom yStart) (t :: site) (evenBound n 2 t) (evenBound n 2 (t + 1))) (fun _ => .single (.done ())))
      else none := by
  rw [parallelSwapStride2, swapForked, forkCount, fork_tasks_forks]
  by_cases large : machine.runtime.arch = .aarch64 ∧ ((isReal T : Bool) ↔ Scalar.precision T = .double) ∧ 512 * 1024 ≤ n
  · rw [if_pos large, decide_eq_true large, Bool.true_and]
    cases taken : forks machine.runtime site (min (machine.runtime.taskCount site n) 2) with
    | false => rfl
    | true =>
      have several := of_decide_eq_true (Bool.and_eq_true_iff.mp taken).1
      have two : min (machine.runtime.taskCount site n) 2 = 2 := by omega
      rw [if_pos rfl, if_pos rfl, two]
  · rw [if_neg large, decide_eq_false large, Bool.false_and, if_neg Bool.false_ne_true]

theorem swap_rewrites (machine : VectorMachine) (site : Site) (nonzeroX : incx ≠ 0) (nonzeroY : incy ≠ 0)
    (disjoint : Disjoint2 (Operand.strided (width T) n incx (cellsFrom xStart))
      (Operand.strided (width T) n incy (cellsFrom yStart)) (Set.Iio (toUsize n)))
    (fresh : incx = 2 → incy = 2 → 0 < n → ¬ swapStale T machine site (toUsize n) xStart yStart) :
    Rewrites (swap T machine site n xStart yStart (cellsFrom xStart) incx (cellsFrom yStart) incy)
      (cells (width T) (Set.Iio (toUsize n)))
      (cellAddress (Operand.strided (width T) n incx (cellsFrom xStart))
        (Operand.strided (width T) n incy (cellsFrom yStart)))
      (ruleValue (R := R) swapRule (Operand.strided (width T) n incx (cellsFrom xStart))
        (Operand.strided (width T) n incy (cellsFrom yStart))) := by
  have some : 0 < width T := LawfulElement.width_pos
  rw [swap]
  split
  · refine rewrites_finished (fun memory cell member => ?_)
    exact absurd member.2 (no_indices (by omega) cell.index)
  rename_i known
  split
  · rename_i unit
    rw [unit.1, unit.2, unit_strided, unit_strided] at disjoint ⊢
    exact Rewrites.both_row (swap_unit_rows machine site _ (row_disjoint disjoint))
      (fun x y x' y' part _ _ sameY => sameY.symm) (fun x y x' y' part _ sameX _ => sameX.symm)
  split
  · rename_i blocks
    obtain ⟨twoX, twoY, kind, far⟩ := blocks
    have clear := fresh twoX twoY (by omega)
    have several : 0 < toUsize n := by simp only [toUsize]; omega
    have apart : SpansApart (width T) (toUsize n) xStart yStart :=
      ranges_apart (Nat.mul_pos some (by omega)) (Bool.not_eq_true' _ ▸ far)
    rw [twoX, twoY, stride2_strided, stride2_strided] at disjoint ⊢
    rw [parallel_swap_stride2]
    rw [swapStale] at clear
    cases taken : swapForked T machine site (toUsize n) with
    | true =>
      rw [taken, if_pos rfl] at clear
      have large := of_decide_eq_true (Bool.and_eq_true_iff.mp taken).1
      exact paired_fresh some (swap_rule_maps _) apart disjoint site (by omega) (fun stale => clear ⟨kind, stale⟩)
    | false =>
      rw [taken, if_neg Bool.false_ne_true] at clear
      exact serial_fresh some (swap_rule_maps _) apart disjoint site (fun stale => absurd ⟨kind, stale⟩ clear)
  · exact both_strided some (swap_rule_maps _) nonzeroX nonzeroY disjoint

omit [CommRing R] [CommRing T] [Element R T] [LawfulElement R T] in
theorem stride2_first (width start part : Nat) :
    (Operand.stride2 width (cellsFrom start)).address 0 part = start + part := by
  change start + (width * (2 * 0) + part) = start + part
  omega

-- One thread: the first element of x differs from its new value in some memory.
theorem stale_blocks (machine : VectorMachine) (site : Site) {rule : PairRule R} (positive : 0 < n)
    (elementwise : PairMaps (width T) rule)
    (disjoint : Disjoint2 (Operand.strided (width T) n 2 (cellsFrom xStart))
      (Operand.strided (width T) n 2 (cellsFrom yStart)) (Set.Iio (toUsize n)))
    (stale : SerialStale (stride2Lanes machine T) (width T) (toUsize n) xStart yStart)
    (changes : ∃ x y : Nat → R, rule.first x y 0 ≠ x 0) :
    ¬ Rewrites (.single (bothStride2 false (stride2Lanes machine T) (width T) rule (cellsFrom xStart) (cellsFrom yStart)
        site 0 (toUsize n)) : Execution Nat R Unit Unit) (cells (width T) (Set.Iio (toUsize n)))
      (cellAddress (Operand.strided (width T) n 2 (cellsFrom xStart)) (Operand.strided (width T) n 2 (cellsFrom yStart)))
      (ruleValue rule (Operand.strided (width T) n 2 (cellsFrom xStart))
        (Operand.strided (width T) n 2 (cellsFrom yStart))) := by
  have some : 0 < width T := LawfulElement.width_pos
  have several : 0 < toUsize n := by simp only [toUsize]; omega
  rw [stride2_strided, stride2_strided] at disjoint ⊢
  obtain ⟨x, y, changed⟩ := changes
  -- a memory that holds x and y as the first elements
  have starts : xStart + width T ≤ yStart ∨ yStart + width T ≤ xStart := by
    have far := stale.2.1
    have span : width T * 1 ≤ width T * (2 * toUsize n - 1) := Nat.mul_le_mul_left _ (by omega)
    omega
  let memory : Nat → R := fun place =>
    if xStart ≤ place ∧ place < xStart + width T then x (place - xStart) else y (place - yStart)
  have readX : ∀ part, part < width T → (Operand.stride2 (width T) (cellsFrom xStart)).element memory 0 part = x part := by
    intro part small
    refine (congrArg memory (stride2_first _ xStart part)).trans ?_
    change (if xStart ≤ xStart + part ∧ xStart + part < xStart + width T then x _ else y _) = x part
    rw [if_pos ⟨Nat.le_add_right _ _, by omega⟩, Nat.add_sub_cancel_left]
  have readY : ∀ part, part < width T → (Operand.stride2 (width T) (cellsFrom yStart)).element memory 0 part = y part := by
    intro part small
    refine (congrArg memory (stride2_first _ yStart part)).trans ?_
    change (if xStart ≤ yStart + part ∧ yStart + part < xStart + width T then x _ else y _) = y part
    rw [if_neg (by omega), Nat.add_sub_cancel_left]
  refine serial_stale_store some several elementwise disjoint site stale memory ?_
  change rule.first ((Operand.stride2 (width T) (cellsFrom xStart)).element memory 0)
    ((Operand.stride2 (width T) (cellsFrom yStart)).element memory 0) 0 ≠ memory xStart
  have held : memory xStart = x 0 := (congrArg memory (stride2_first (width T) xStart 0)).symm.trans (readX 0 some)
  rw [elementwise.first _ x _ y readX readY 0 some, held]
  exact changed

theorem swap_stale (machine : VectorMachine) (site : Site) [Nontrivial R] (positive : 0 < n)
    (disjoint : Disjoint2 (Operand.strided (width T) n 2 (cellsFrom xStart))
      (Operand.strided (width T) n 2 (cellsFrom yStart)) (Set.Iio (toUsize n)))
    (stale : swapStale T machine site (toUsize n) xStart yStart) :
    ¬ Rewrites (swap T machine site n xStart yStart (cellsFrom xStart) 2 (cellsFrom yStart) 2)
      (cells (width T) (Set.Iio (toUsize n)))
      (cellAddress (Operand.strided (width T) n 2 (cellsFrom xStart)) (Operand.strided (width T) n 2 (cellsFrom yStart)))
      (ruleValue (R := R) swapRule (Operand.strided (width T) n 2 (cellsFrom xStart))
        (Operand.strided (width T) n 2 (cellsFrom yStart))) := by
  have some : 0 < width T := LawfulElement.width_pos
  have several : 0 < toUsize n := by simp only [toUsize]; omega
  obtain ⟨kind, stale⟩ := stale
  have apart : stride2Overlap T (toUsize n) xStart yStart = false := by
    refine apart_ranges (Nat.mul_pos some (by omega)) ?_
    have starts : StartsInGap (width T) (toUsize n) xStart yStart ∨ StartsInGap (width T) (toUsize n) yStart xStart := by
      split at stale
      · exact stale.2
      · exact .inr stale.2
    rcases starts with yBehind | xBehind
    · exact .inl yBehind.1
    · exact .inr xBehind.1
  rw [swap, if_neg (by omega), if_neg (by omega), if_pos ⟨rfl, rfl, kind, by rw [apart]; rfl⟩, parallel_swap_stride2]
  cases taken : swapForked T machine site (toUsize n) with
  | true =>
    rw [taken, if_pos rfl] at stale
    have large := of_decide_eq_true (Bool.and_eq_true_iff.mp taken).1
    rw [stride2_strided, stride2_strided] at disjoint ⊢
    refine paired_stale_store some (swap_rule_maps _) disjoint site (by omega) stale (fun second => ?_)
    have different : xStart ≠ yStart := by
      intro same
      subst same
      exact disjoint 0 0 0 0 several several some some rfl
    have placeX : xStart + (width T * (2 * 0) + 0) = xStart := by omega
    have placeY : yStart + (width T * (2 * 0) + 0) = yStart := by omega
    refine ⟨fun place => if place = (if second then yStart else xStart) then 1 else 0, ?_⟩
    cases second with
    | true =>
      change (if xStart + (width T * (2 * 0) + 0) = yStart then (1 : R) else 0) ≠
        if yStart + (width T * (2 * 0) + 0) = yStart then 1 else 0
      rw [placeX, placeY, if_neg different, if_pos rfl]
      exact zero_ne_one
    | false =>
      change (if yStart + (width T * (2 * 0) + 0) = xStart then (1 : R) else 0) ≠
        if xStart + (width T * (2 * 0) + 0) = xStart then 1 else 0
      rw [placeX, placeY, if_neg (Ne.symm different), if_pos rfl]
      exact zero_ne_one
  | false =>
    rw [taken, if_neg Bool.false_ne_true] at stale
    exact stale_blocks machine site positive (swap_rule_maps _) disjoint stale
      ⟨fun _ => 0, fun _ => 1, one_ne_zero⟩

theorem rot_rule_map (c : R) (s : T) : PairMaps (width T) (rotRule c s) := by
  constructor
  · intro left left' right right' sameLeft sameRight part _
    rw [rotRule]
    change parts (fromReal c * whole left + s * whole right) part = parts (fromReal c * whole left' + s * whole right') part
    rw [LawfulElement.whole_congr (T := T) left left' sameLeft, LawfulElement.whole_congr (T := T) right right' sameRight]
  · intro left left' right right' sameLeft sameRight part _
    rw [rotRule]
    change parts (fromReal c * whole right - s * whole left) part = parts (fromReal c * whole right' - s * whole left') part
    rw [LawfulElement.whole_congr (T := T) left left' sameLeft, LawfulElement.whole_congr (T := T) right right' sameRight]

omit [CommRing T] [Element R T] [LawfulElement R T] in
theorem real_rot_rule_map (c s : R) (width : Nat) : PairMaps width (realRotRule c s) := by
  constructor
  · intro left left' right right' sameLeft sameRight part small
    simp only [realRotRule, sameLeft part small, sameRight part small]
  · intro left left' right right' sameLeft sameRight part small
    simp only [realRotRule, sameLeft part small, sameRight part small]

theorem rot_first (c : R) (s : T) (flat : (isReal T || Scalar.imagIsZero s) = true) (x y x' y' : Nat → R) (part : Nat)
    (small : part < width T) (part' : Nat) (sameX : x' part' = x part) (sameY : y' part' = y part) :
    (rotRule c s).first x y part = (realRotRule c (parts s 0)).first x' y' part' := by
  change parts (fromReal c * whole x + s * whole y) part = x' part' * c + y' part' * parts s 0
  rw [LawfulElement.parts_add, LawfulElement.parts_from_real _ _ _ small, LawfulElement.parts_real_mul _ _ _ small flat,
    LawfulElement.parts_whole _ _ small, LawfulElement.parts_whole _ _ small, sameX, sameY, mul_comm c, mul_comm (parts s 0)]

theorem rot_second (c : R) (s : T) (flat : (isReal T || Scalar.imagIsZero s) = true) (x y x' y' : Nat → R) (part : Nat)
    (small : part < width T) (part' : Nat) (sameX : x' part' = x part) (sameY : y' part' = y part) :
    (rotRule c s).second x y part = (realRotRule c (parts s 0)).second x' y' part' := by
  change parts (fromReal c * whole y - s * whole x) part = -x' part' * parts s 0 + y' part' * c
  rw [LawfulElement.parts_sub, LawfulElement.parts_from_real _ _ _ small, LawfulElement.parts_real_mul _ _ _ small flat,
    LawfulElement.parts_whole _ _ small, LawfulElement.parts_whole _ _ small, sameX, sameY]
  ring

theorem rot_value (c : R) (s : T) (flat : (isReal T || Scalar.imagIsZero s) = true) (x y : Operand Nat)
    (memory : Nat → R) (cell : Cell) (small : cell.component < width T) :
    ruleValue (realRotRule c (parts s 0)) x y memory cell = ruleValue (rotRule c s) x y memory cell := by
  rw [ruleValue, ruleValue]
  split
  · exact (rot_second c s flat _ _ _ _ _ small _ rfl rfl).symm
  · exact (rot_first c s flat _ _ _ _ _ small _ rfl rfl).symm

theorem rot_rewrites (machine : VectorMachine) (site : Site) (c : R) (s : T) (nonzeroX : incx ≠ 0) (nonzeroY : incy ≠ 0)
    (disjoint : Disjoint2 (Operand.strided (width T) n incx (cellsFrom xStart))
      (Operand.strided (width T) n incy (cellsFrom yStart)) (Set.Iio (toUsize n)))
    (fresh : incx = 2 → incy = 2 → 0 < n → (isReal T || Scalar.imagIsZero s) = true →
      SerialStale (stride2Lanes machine T) (width T) (toUsize n) xStart yStart → c = 1 ∧ parts s 0 = 0) :
    Rewrites (rot machine site n xStart yStart (cellsFrom xStart) incx (cellsFrom yStart) incy c s)
      (cells (width T) (Set.Iio (toUsize n)))
      (cellAddress (Operand.strided (width T) n incx (cellsFrom xStart))
        (Operand.strided (width T) n incy (cellsFrom yStart)))
      (ruleValue (rotRule c s) (Operand.strided (width T) n incx (cellsFrom xStart))
        (Operand.strided (width T) n incy (cellsFrom yStart))) := by
  have some : 0 < width T := LawfulElement.width_pos
  rw [rot]
  split
  · refine rewrites_finished (fun memory cell member => ?_)
    exact absurd member.2 (no_indices (by omega) cell.index)
  rename_i known
  split
  · rename_i unit
    obtain ⟨oneX, oneY, flat⟩ := unit
    rw [oneX, oneY, unit_strided, unit_strided] at disjoint ⊢
    have row := row_disjoint disjoint
    have realMap := real_rot_rule_map c (parts s 0) 1
    refine Rewrites.both_row (rewrites_get_d (fun execution accepted => ?_) (both_unit_real machine _ _ realMap row))
      (fun x y x' y' part small sameX sameY => rot_first c s flat x y x' y' part small 0 sameX sameY)
      (fun x y x' y' part small sameX sameY => rot_second c s flat x y x' y' part small 0 sameX sameY)
    obtain ⟨_, accepted⟩ := Option.ite_none_right_eq_some.mp accepted
    exact parallel_streaming realMap row accepted
  split
  · rename_i blocks
    obtain ⟨twoX, twoY, flat, far⟩ := blocks
    have clear := fresh twoX twoY (by omega) flat
    have several : 0 < toUsize n := by simp only [toUsize]; omega
    have apart : SpansApart (width T) (toUsize n) xStart yStart :=
      ranges_apart (Nat.mul_pos some (by omega)) (Bool.not_eq_true' _ ▸ far)
    rw [twoX, twoY, stride2_strided, stride2_strided] at disjoint ⊢
    have serial := serial_fresh some (real_rot_rule_map c (parts s 0) _) apart disjoint site (fun stale x y part _ => by
      obtain ⟨oneC, noS⟩ := clear stale
      change x part * c + y part * parts s 0 = x part
      rw [oneC, noS, mul_one, mul_zero, add_zero])
    exact serial.congr rfl (fun memory cell member => rot_value c s flat _ _ memory cell member.1)
  · exact both_strided some (rot_rule_map c s) nonzeroX nonzeroY disjoint

theorem rot_stale (machine : VectorMachine) (site : Site) (c : R) (s : T) [Nontrivial R] (positive : 0 < n)
    (disjoint : Disjoint2 (Operand.strided (width T) n 2 (cellsFrom xStart))
      (Operand.strided (width T) n 2 (cellsFrom yStart)) (Set.Iio (toUsize n)))
    (flat : (isReal T || Scalar.imagIsZero s) = true) (turns : ¬ (c = 1 ∧ parts s 0 = 0))
    (stale : SerialStale (stride2Lanes machine T) (width T) (toUsize n) xStart yStart) :
    ¬ Rewrites (rot machine site n xStart yStart (cellsFrom xStart) 2 (cellsFrom yStart) 2 c s)
      (cells (width T) (Set.Iio (toUsize n)))
      (cellAddress (Operand.strided (width T) n 2 (cellsFrom xStart)) (Operand.strided (width T) n 2 (cellsFrom yStart)))
      (ruleValue (rotRule c s) (Operand.strided (width T) n 2 (cellsFrom xStart))
        (Operand.strided (width T) n 2 (cellsFrom yStart))) := by
  have some : 0 < width T := LawfulElement.width_pos
  have several : 0 < toUsize n := by simp only [toUsize]; omega
  have apart : stride2Overlap T (toUsize n) xStart yStart = false :=
    apart_ranges (Nat.mul_pos some (by omega)) (.inr stale.2.1)
  rw [rot, if_neg (by omega), if_neg (by omega), if_pos ⟨rfl, rfl, flat, by rw [apart]; rfl⟩]
  intro rewrites
  have changes : ∃ x y : Nat → R, (realRotRule c (parts s 0)).first x y 0 ≠ x 0 := by
    by_cases one : c = 1
    · refine ⟨fun _ => 0, fun _ => 1, fun same => turns ⟨one, ?_⟩⟩
      change 0 * c + 1 * parts s 0 = 0 at same
      rwa [zero_mul, zero_add, one_mul] at same
    · refine ⟨fun _ => 1, fun _ => 0, fun same => one ?_⟩
      change 1 * c + 0 * parts s 0 = 1 at same
      rwa [zero_mul, add_zero, one_mul] at same
  refine stale_blocks machine site positive (real_rot_rule_map c (parts s 0) _) disjoint stale changes ?_
  exact rewrites.congr rfl (fun memory cell member => (rot_value c s flat _ _ memory cell member.1).symm)

end Routines

section Modified

variable {R T : Type} [CommRing R] [LinearOrder R] [CommRing T] [Element R T] [LawfulElement R T] {n : Int}
  {incx incy : Int} {xStart yStart : Nat}

def modifiedRotation (param : Nat → R) : ModifiedRotation R :=
  if param 0 = -2 then ⟨-2, 1, 0, 0, 1⟩
  else if param 0 < 0 then ⟨param 0, param 1, param 2, param 3, param 4⟩
  else if param 0 = 0 then ⟨param 0, 1, param 2, param 3, 1⟩
  else ⟨param 0, param 1, -1, 1, param 4⟩

def applyRotation (h : ModifiedRotation R) : PairRule R :=
  ⟨fun w z part => h.h11 * w part + h.h12 * z part, fun w z part => h.h21 * w part + h.h22 * z part⟩

omit [LinearOrder R] in
theorem apply_rotation_maps (h : ModifiedRotation R) (width : Nat) : PairMaps width (applyRotation h) := by
  constructor
  · intro left left' right right' sameLeft sameRight part small
    simp only [applyRotation, sameLeft part small, sameRight part small]
  · intro left left' right right' sameLeft sameRight part small
    simp only [applyRotation, sameLeft part small, sameRight part small]

theorem rotm_rule (param : Nat → R) (turns : param 0 ≠ -2) :
    rotmRule (readParam param) = applyRotation (modifiedRotation param) := by
  rw [rotmRule, applyRotation, modifiedRotation, if_neg turns, readParam]
  rcases lt_trichotomy (param 0) 0 with negative | same | positive
  · simp only [negative, negative.le, true_or, if_true, mul_comm]
  · simp only [same, lt_self_iff_false, if_false, le_refl, if_true, mul_one, mul_comm, add_comm]
  · simp only [positive, positive.not_gt, positive.not_ge, ne_of_gt positive, or_true, if_false, if_true, mul_one,
      mul_neg, mul_comm, neg_add_eq_sub]

omit [CommRing T] [LawfulElement R T] in
theorem rotm_rewrites (machine : VectorMachine) (site : Site) (param : Nat → R) (some : 0 < width T)
    (nonzeroX : incx ≠ 0) (nonzeroY : incy ≠ 0)
    (disjoint : Disjoint2 (Operand.strided (width T) n incx (cellsFrom xStart))
      (Operand.strided (width T) n incy (cellsFrom yStart)) (Set.Iio (toUsize n)))
    (real : isReal T = true → width T = 1)
    (fresh : incx = 2 → incy = 2 → 0 < n → isReal T = true →
      SerialStale (stride2Lanes machine T) (width T) (toUsize n) xStart yStart →
      (modifiedRotation param).h11 = 1 ∧ (modifiedRotation param).h12 = 0) :
    Rewrites (rotm T machine site n xStart yStart (cellsFrom xStart) incx (cellsFrom yStart) incy param)
      (cells (width T) (Set.Iio (toUsize n)))
      (cellAddress (Operand.strided (width T) n incx (cellsFrom xStart))
        (Operand.strided (width T) n incy (cellsFrom yStart)))
      (ruleValue (applyRotation (modifiedRotation param)) (Operand.strided (width T) n incx (cellsFrom xStart))
        (Operand.strided (width T) n incy (cellsFrom yStart))) := by
  rw [rotm]
  split
  · refine rewrites_finished (fun memory cell member => ?_)
    exact absurd member.2 (no_indices (by omega) cell.index)
  rename_i known
  split
  · rename_i still
    refine rewrites_finished (fun memory cell _ => ?_)
    obtain ⟨side, i, part⟩ := cell
    rw [ruleValue, modifiedRotation, if_pos still]
    cases side with
    | true =>
      change 0 * _ + 1 * _ = memory _
      rw [zero_mul, zero_add, one_mul]
      rfl
    | false =>
      change 1 * _ + 0 * _ = memory _
      rw [zero_mul, add_zero, one_mul]
      rfl
  rename_i turns
  simp only [rotm_rule param turns]
  have maps := apply_rotation_maps (modifiedRotation param)
  split
  · rename_i unit
    obtain ⟨kind, oneX, oneY⟩ := unit
    have one := real kind
    rw [oneX, oneY, unit_strided, unit_strided, one] at disjoint ⊢
    refine rewrites_get_d (fun execution accepted => ?_) (both_unit_real machine _ _ (maps 1) disjoint)
    obtain ⟨_, accepted⟩ := Option.ite_none_right_eq_some.mp accepted
    exact parallel_streaming (maps 1) disjoint accepted
  split
  · rename_i blocks
    obtain ⟨kind, twoX, twoY, far⟩ := blocks
    have clear := fresh twoX twoY (by omega) kind
    have several : 0 < toUsize n := by simp only [toUsize]; omega
    have apart : SpansApart (width T) (toUsize n) xStart yStart :=
      ranges_apart (Nat.mul_pos some (by omega)) (Bool.not_eq_true' _ ▸ far)
    rw [twoX, twoY, stride2_strided, stride2_strided] at disjoint ⊢
    exact serial_fresh some (maps _) apart disjoint site (fun stale x y part _ => by
      obtain ⟨one, none⟩ := clear stale
      change (modifiedRotation param).h11 * x part + (modifiedRotation param).h12 * y part = x part
      rw [one, none, one_mul, zero_mul, add_zero])
  · exact both_strided some (maps _) nonzeroX nonzeroY disjoint

theorem rotm_stale (machine : VectorMachine) (site : Site) (param : Nat → R) [Nontrivial R] (positive : 0 < n)
    (disjoint : Disjoint2 (Operand.strided (width T) n 2 (cellsFrom xStart))
      (Operand.strided (width T) n 2 (cellsFrom yStart)) (Set.Iio (toUsize n))) (kind : isReal T = true)
    (turns : ¬ ((modifiedRotation param).h11 = 1 ∧ (modifiedRotation param).h12 = 0))
    (stale : SerialStale (stride2Lanes machine T) (width T) (toUsize n) xStart yStart) :
    ¬ Rewrites (rotm T machine site n xStart yStart (cellsFrom xStart) 2 (cellsFrom yStart) 2 param)
      (cells (width T) (Set.Iio (toUsize n)))
      (cellAddress (Operand.strided (width T) n 2 (cellsFrom xStart)) (Operand.strided (width T) n 2 (cellsFrom yStart)))
      (ruleValue (applyRotation (modifiedRotation param)) (Operand.strided (width T) n 2 (cellsFrom xStart))
        (Operand.strided (width T) n 2 (cellsFrom yStart))) := by
  have some : 0 < width T := LawfulElement.width_pos
  have several : 0 < toUsize n := by simp only [toUsize]; omega
  have apart : stride2Overlap T (toUsize n) xStart yStart = false :=
    apart_ranges (Nat.mul_pos some (by omega)) (.inr stale.2.1)
  have moves : param 0 ≠ -2 := by
    intro same
    refine turns ?_
    rw [modifiedRotation, if_pos same]
    exact ⟨rfl, rfl⟩
  rw [rotm, if_neg (by omega), if_neg moves]
  simp only [rotm_rule param moves]
  rw [if_neg (by omega), if_pos ⟨kind, trivial, trivial, by rw [apart]; rfl⟩]
  refine stale_blocks machine site positive (apply_rotation_maps _ _) disjoint stale ?_
  by_cases one : (modifiedRotation param).h11 = 1
  · refine ⟨fun _ => 0, fun _ => 1, fun same => turns ⟨one, ?_⟩⟩
    change (modifiedRotation param).h11 * 0 + (modifiedRotation param).h12 * 1 = 0 at same
    rwa [mul_zero, zero_add, mul_one] at same
  · refine ⟨fun _ => 1, fun _ => 0, fun same => one ?_⟩
    change (modifiedRotation param).h11 * 1 + (modifiedRotation param).h12 * 0 = 1 at same
    rwa [mul_zero, add_zero, mul_one] at same

end Modified

/- The calls, and what each of them is for. -/
section Calls

inductive UnaryCall (R T : Type) where
  | scal (alpha : T)
  | rscal (alpha : R)

inductive PairCall (R T : Type) where
  | copy
  | swap
  | axpy (alpha : T)
  | axpby (alpha beta : T)
  | rot (c : R) (s : T)
  | rotm (param : Nat → R)

variable {R T : Type} [CommRing R] [LinearOrder R] [CommRing T] [Element R T]

-- The exports call the routine itself; abi_entry.zig has the dispatch in front of it.
def UnaryCall.execution (call : UnaryCall R T) (dispatched : Bool) (machine : VectorMachine) (site : Site) (n : Int)
    (xStart : Nat) (incx : Int) : Execution Nat R Unit Unit :=
  let x := cellsFrom xStart
  match call with
  | .scal alpha => if dispatched then entryScal machine site n alpha x incx else LevelOne.scal machine site n alpha x incx
  | .rscal alpha =>
    if dispatched then entryRscal T machine site n alpha x incx else LevelOne.rscal T machine site n alpha x incx

def UnaryCall.definition (call : UnaryCall R T) : (Nat → R) → Nat → R :=
  match call with
  | .scal alpha => fun x => parts (alpha * whole x)
  | .rscal alpha => fun x => parts (fromReal alpha * whole x : T)

def PairCall.execution (call : PairCall R T) (dispatched : Bool) (machine : VectorMachine) (site : Site) (n : Int)
    (xStart : Nat) (incx : Int) (yStart : Nat) (incy : Int) : Execution Nat R Unit Unit :=
  let x := cellsFrom xStart
  let y := cellsFrom yStart
  match call with
  | .copy => LevelOne.copy T machine site n xStart yStart x incx y incy
  | .swap =>
    if dispatched then entrySwap T machine site n xStart yStart x incx y incy
    else LevelOne.swap T machine site n xStart yStart x incx y incy
  | .axpy alpha =>
    if dispatched then entryAxpy machine site n alpha xStart yStart x incx y incy
    else LevelOne.axpy machine site n alpha xStart yStart x incx y incy
  | .axpby alpha beta =>
    if dispatched then entryAxpby machine site n alpha beta xStart yStart x incx y incy
    else LevelOne.axpby machine site n alpha beta xStart yStart x incx y incy
  | .rot c s =>
    if dispatched then entryRot machine site n xStart yStart x incx y incy c s
    else LevelOne.rot machine site n xStart yStart x incx y incy c s
  | .rotm param =>
    if dispatched then entryRotm T machine site n xStart yStart x incx y incy param
    else LevelOne.rotm T machine site n xStart yStart x incx y incy param

def PairCall.definition (call : PairCall R T) : PairRule R :=
  match call with
  | .copy => ⟨fun x _ => x, fun x _ => x⟩
  | .swap => ⟨fun _ y => y, fun x _ => x⟩
  | .axpy alpha => ⟨fun x _ => x, fun x y => parts (whole y + alpha * whole x)⟩
  | .axpby alpha beta => ⟨fun x _ => x, fun x y => parts (alpha * whole x + beta * whole y)⟩
  | .rot c s => ⟨fun x y => parts (fromReal c * whole x + s * whole y), fun x y => parts (fromReal c * whole y - s * whole x)⟩
  | .rotm param => applyRotation (modifiedRotation param)

-- Every outcome updates each element of x once and touches nothing else.
def UnaryCall.Elementwise (call : UnaryCall R T) (dispatched : Bool) (machine : VectorMachine) (site : Site) (n : Int)
    (xStart : Nat) (incx : Int) : Prop :=
  ∀ memory, (∃ final, (call.execution dispatched machine site n xStart incx).Outcome memory () final) ∧
    ∀ final, (call.execution dispatched machine site n xStart incx).Outcome memory () final →
      Overwrites (slots (width T) (Set.Iio (toUsize n)))
        (slotAddress (Operand.strided (width T) n incx (cellsFrom xStart)))
        (slotValue call.definition (Operand.strided (width T) n incx (cellsFrom xStart)) memory) memory final

def PairCall.Elementwise (call : PairCall R T) (dispatched : Bool) (machine : VectorMachine) (site : Site) (n : Int)
    (xStart : Nat) (incx : Int) (yStart : Nat) (incy : Int) : Prop :=
  ∀ memory, (∃ final, (call.execution dispatched machine site n xStart incx yStart incy).Outcome memory () final) ∧
    ∀ final, (call.execution dispatched machine site n xStart incx yStart incy).Outcome memory () final →
      Overwrites (cells (width T) (Set.Iio (toUsize n)))
        (cellAddress (Operand.strided (width T) n incx (cellsFrom xStart))
          (Operand.strided (width T) n incy (cellsFrom yStart)))
        (ruleValue call.definition (Operand.strided (width T) n incx (cellsFrom xStart))
          (Operand.strided (width T) n incy (cellsFrom yStart)) memory) memory final

-- A stride-2 block route of operations.zig stores a gap over an element of the other vector.
def StaleGap (call : PairCall R T) (dispatched : Bool) (machine : VectorMachine) (site : Site) (n : Int) (xStart : Nat)
    (incx : Int) (yStart : Nat) (incy : Int) : Prop :=
  0 < n ∧ incx = 2 ∧ incy = 2 ∧ (dispatched = true → isolated T machine (0 :: site) n xStart incx yStart incy = false) ∧
    match call with
    | .swap => swapStale T machine (if dispatched then 1 :: site else site) (toUsize n) xStart yStart
    | .rot c s => (isReal T || Scalar.imagIsZero s) = true ∧ ¬ (c = 1 ∧ parts s 0 = 0) ∧
        SerialStale (stride2Lanes machine T) (width T) (toUsize n) xStart yStart
    | .rotm param => isReal T = true ∧ ¬ ((modifiedRotation param).h11 = 1 ∧ (modifiedRotation param).h12 = 0) ∧
        SerialStale (stride2Lanes machine T) (width T) (toUsize n) xStart yStart
    | _ => False

variable [LawfulElement R T] {n incx incy : Int} {xStart yStart : Nat}

omit [CommRing R] [LinearOrder R] [CommRing T] [Element R T] [LawfulElement R T] in
theorem rewrites_unit {ι : Type} {execution : Execution Nat R Unit Unit} {cells : Set ι} {address : ι → Nat}
    {value : (Nat → R) → ι → R} :
    Rewrites execution cells address value ↔
      ∀ memory, (∃ final, execution.Outcome memory () final) ∧
        ∀ final, execution.Outcome memory () final → Overwrites cells address (value memory) memory final := by
  constructor
  · intro rewrites memory
    obtain ⟨_, final, outcome⟩ := Execution.outcome_exists execution memory
    exact ⟨⟨final, outcome⟩, fun final outcome => rewrites memory () final outcome⟩
  · exact fun each memory _ final outcome => (each memory).2 final outcome

omit [CommRing R] [LinearOrder R] in
theorem Rewrites.beside {execution : Execution Nat R Unit Unit} {x y : Operand Nat} {indices : Set Nat}
    {apply : (Nat → R) → (Nat → R) → Nat → R} (disjoint : Disjoint2 x y indices) (sameWidth : x.width = y.width)
    (rewrites : Rewrites execution (slots y.width indices) (slotAddress y) (pairValue apply x y)) :
    Rewrites execution (cells y.width indices) (cellAddress x y) (ruleValue ⟨fun x _ => x, apply⟩ x y) := by
  intro memory result final outcome
  have second := rewrites memory result final outcome
  constructor
  · rintro ⟨side, i, part⟩ member
    cases side with
    | true => exact second.written (i, part) member
    | false =>
      exact second.kept (x.address i part) (fun slot inside same =>
        disjoint i slot.1 part slot.2 member.2 inside.2 (sameWidth ▸ member.1) inside.1 same.symm)
  · intro place outside
    exact second.kept place (fun slot inside => outside ⟨true, slot.1, slot.2⟩ inside)

theorem unary_elementwise (call : UnaryCall R T) (dispatched : Bool) (machine : VectorMachine) (site : Site)
    (nonzero : incx ≠ 0) : call.Elementwise dispatched machine site n xStart incx := by
  cases call with
  | scal alpha =>
    cases dispatched with
    | true => exact rewrites_unit.mp (entry_scal_rewrites machine site n alpha xStart incx nonzero)
    | false => exact rewrites_unit.mp (scal_rewrites machine site n alpha xStart incx nonzero)
  | rscal alpha =>
    cases dispatched with
    | true => exact rewrites_unit.mp (entry_rscal_rewrites machine site n alpha xStart incx nonzero)
    | false => exact rewrites_unit.mp (rscal_rewrites machine site n alpha xStart incx nonzero)

section Fresh

variable (machine : VectorMachine) (site : Site)
  (disjoint : Disjoint2 (Operand.strided (width T) n incx (cellsFrom xStart))
    (Operand.strided (width T) n incy (cellsFrom yStart)) (Set.Iio (toUsize n)))

include disjoint

theorem entry_swap_rewrites (nonzeroX : incx ≠ 0) (nonzeroY : incy ≠ 0)
    (fresh : ¬ StaleGap (.swap : PairCall R T) true machine site n xStart incx yStart incy) :
    Rewrites (entrySwap T machine site n xStart yStart (cellsFrom xStart) incx (cellsFrom yStart) incy)
      (cells (width T) (Set.Iio (toUsize n)))
      (cellAddress (Operand.strided (width T) n incx (cellsFrom xStart))
        (Operand.strided (width T) n incy (cellsFrom yStart)))
      (ruleValue (R := R) swapRule (Operand.strided (width T) n incx (cellsFrom xStart))
        (Operand.strided (width T) n incy (cellsFrom yStart))) := by
  rw [entrySwap, stride2Swap]
  cases answer : stride2Both T machine (0 :: site) n (swapRule : PairRule R) xStart yStart (cellsFrom xStart) incx
      (cellsFrom yStart) incy with
  | some execution => exact stride2_both_rewrites (swap_rule_maps _) disjoint answer
  | none =>
    have alone := (stride2_both_declines machine (0 :: site) _).mp answer
    exact swap_rewrites machine (1 :: site) nonzeroX nonzeroY disjoint
      (fun twoX twoY positive stale => fresh ⟨positive, twoX, twoY, fun _ => alone, stale⟩)

theorem entry_rot_rewrites (c : R) (s : T) (nonzeroX : incx ≠ 0) (nonzeroY : incy ≠ 0)
    (fresh : ¬ StaleGap (.rot c s) true machine site n xStart incx yStart incy) :
    Rewrites (entryRot machine site n xStart yStart (cellsFrom xStart) incx (cellsFrom yStart) incy c s)
      (cells (width T) (Set.Iio (toUsize n)))
      (cellAddress (Operand.strided (width T) n incx (cellsFrom xStart))
        (Operand.strided (width T) n incy (cellsFrom yStart)))
      (ruleValue (rotRule c s) (Operand.strided (width T) n incx (cellsFrom xStart))
        (Operand.strided (width T) n incy (cellsFrom yStart))) := by
  rw [entryRot, stride2Rot]
  cases flat : isReal T || Scalar.imagIsZero s with
  | false =>
    exact rot_rewrites machine (1 :: site) c s nonzeroX nonzeroY disjoint
      (fun _ _ _ real _ => Bool.noConfusion (flat.symm.trans real))
  | true =>
    rw [if_pos rfl]
    cases answer : stride2Both T machine (0 :: site) n (realRotRule c (parts s 0)) xStart yStart (cellsFrom xStart) incx
        (cellsFrom yStart) incy with
    | some execution =>
      have strict := stride2_both_rewrites (real_rot_rule_map c (parts s 0) _) disjoint answer
      exact strict.congr rfl (fun memory cell member => rot_value c s flat _ _ memory cell member.1)
    | none =>
      have alone := (stride2_both_declines machine (0 :: site) _).mp answer
      exact rot_rewrites machine (1 :: site) c s nonzeroX nonzeroY disjoint (fun twoX twoY positive _ stale => by
        by_contra turns
        exact fresh ⟨positive, twoX, twoY, fun _ => alone, flat, turns, stale⟩)

theorem plain_rotm_rewrites (param : Nat → R) (nonzeroX : incx ≠ 0) (nonzeroY : incy ≠ 0)
    (fresh : 0 < n → incx = 2 → incy = 2 → isReal T = true →
      ¬ ((modifiedRotation param).h11 = 1 ∧ (modifiedRotation param).h12 = 0) →
      ¬ SerialStale (stride2Lanes machine T) (width T) (toUsize n) xStart yStart) :
    Rewrites (rotm T machine site n xStart yStart (cellsFrom xStart) incx (cellsFrom yStart) incy param)
      (cells (width T) (Set.Iio (toUsize n)))
      (cellAddress (Operand.strided (width T) n incx (cellsFrom xStart))
        (Operand.strided (width T) n incy (cellsFrom yStart)))
      (ruleValue (applyRotation (modifiedRotation param)) (Operand.strided (width T) n incx (cellsFrom xStart))
        (Operand.strided (width T) n incy (cellsFrom yStart))) := by
  refine rotm_rewrites machine site param LawfulElement.width_pos nonzeroX nonzeroY disjoint
    LawfulElement.width_real (fun twoX twoY positive real stale => ?_)
  by_contra turns
  exact fresh positive twoX twoY real turns stale

theorem entry_rotm_rewrites (param : Nat → R) (nonzeroX : incx ≠ 0) (nonzeroY : incy ≠ 0)
    (fresh : ¬ StaleGap (.rotm param : PairCall R T) true machine site n xStart incx yStart incy) :
    Rewrites (entryRotm T machine site n xStart yStart (cellsFrom xStart) incx (cellsFrom yStart) incy param)
      (cells (width T) (Set.Iio (toUsize n)))
      (cellAddress (Operand.strided (width T) n incx (cellsFrom xStart))
        (Operand.strided (width T) n incy (cellsFrom yStart)))
      (ruleValue (applyRotation (modifiedRotation param)) (Operand.strided (width T) n incx (cellsFrom xStart))
        (Operand.strided (width T) n incy (cellsFrom yStart))) := by
  rw [entryRotm, stride2Rotm]
  by_cases still : param 0 = -2
  · rw [if_pos still]
    refine plain_rotm_rewrites machine (1 :: site) disjoint param nonzeroX nonzeroY (fun _ _ _ _ turns => absurd ?_ turns)
    rw [modifiedRotation, if_pos still]
    exact ⟨rfl, rfl⟩
  · rw [if_neg still, rotm_rule param still]
    cases answer : stride2Both T machine (0 :: site) n (applyRotation (modifiedRotation param)) xStart yStart
        (cellsFrom xStart) incx (cellsFrom yStart) incy with
    | some execution => exact stride2_both_rewrites (apply_rotation_maps _ _) disjoint answer
    | none =>
      have alone := (stride2_both_declines machine (0 :: site) _).mp answer
      exact plain_rotm_rewrites machine (1 :: site) disjoint param nonzeroX nonzeroY
        (fun positive twoX twoY real turns stale => fresh ⟨positive, twoX, twoY, fun _ => alone, real, turns, stale⟩)

theorem pair_elementwise (call : PairCall R T) (dispatched : Bool) (nonzeroX : incx ≠ 0) (nonzeroY : incy ≠ 0)
    (fresh : ¬ StaleGap call dispatched machine site n xStart incx yStart incy) :
    call.Elementwise dispatched machine site n xStart incx yStart incy := by
  cases call with
  | copy => exact rewrites_unit.mp (Rewrites.beside disjoint rfl (copy_rewrites machine site nonzeroX nonzeroY disjoint.aligned))
  | axpy alpha =>
    cases dispatched with
    | true =>
      exact rewrites_unit.mp
        (Rewrites.beside disjoint rfl (entry_axpy_rewrites machine site alpha nonzeroX nonzeroY disjoint.aligned))
    | false =>
      exact rewrites_unit.mp
        (Rewrites.beside disjoint rfl (axpy_rewrites machine site alpha nonzeroX nonzeroY disjoint.aligned))
  | axpby alpha beta =>
    cases dispatched with
    | true =>
      exact rewrites_unit.mp
        (Rewrites.beside disjoint rfl (entry_axpby_rewrites machine site alpha beta nonzeroX nonzeroY disjoint.aligned))
    | false =>
      exact rewrites_unit.mp
        (Rewrites.beside disjoint rfl (axpby_rewrites machine site alpha beta nonzeroX nonzeroY disjoint.aligned))
  | swap =>
    cases dispatched with
    | true => exact rewrites_unit.mp (entry_swap_rewrites machine site disjoint nonzeroX nonzeroY fresh)
    | false =>
      exact rewrites_unit.mp (swap_rewrites machine site nonzeroX nonzeroY disjoint
        (fun twoX twoY positive stale => fresh ⟨positive, twoX, twoY, Bool.noConfusion, stale⟩))
  | rot c s =>
    cases dispatched with
    | true => exact rewrites_unit.mp (entry_rot_rewrites machine site disjoint c s nonzeroX nonzeroY fresh)
    | false =>
      refine rewrites_unit.mp (rot_rewrites machine site c s nonzeroX nonzeroY disjoint (fun twoX twoY positive flat stale => ?_))
      by_contra turns
      exact fresh ⟨positive, twoX, twoY, Bool.noConfusion, flat, turns, stale⟩
  | rotm param =>
    cases dispatched with
    | true => exact rewrites_unit.mp (entry_rotm_rewrites machine site disjoint param nonzeroX nonzeroY fresh)
    | false =>
      exact rewrites_unit.mp (plain_rotm_rewrites machine site disjoint param nonzeroX nonzeroY
        (fun positive twoX twoY real turns stale => fresh ⟨positive, twoX, twoY, Bool.noConfusion, real, turns, stale⟩))

end Fresh

theorem pair_stale [Nontrivial R] (call : PairCall R T) (dispatched : Bool) (machine : VectorMachine) (site : Site)
    (disjoint : Disjoint2 (Operand.strided (width T) n incx (cellsFrom xStart))
      (Operand.strided (width T) n incy (cellsFrom yStart)) (Set.Iio (toUsize n)))
    (stale : StaleGap call dispatched machine site n xStart incx yStart incy) :
    ¬ call.Elementwise dispatched machine site n xStart incx yStart incy := by
  obtain ⟨positive, rfl, rfl, alone, stale⟩ := stale
  have declines : dispatched = true → ∀ rule : PairRule R,
      stride2Both T machine (0 :: site) n rule xStart yStart (cellsFrom xStart) 2 (cellsFrom yStart) 2 = none :=
    fun first rule => (stride2_both_declines machine (0 :: site) rule).mpr (alone first)
  intro elementwise
  have rewrites := rewrites_unit.mpr elementwise
  cases call with
  | copy => exact stale
  | axpy alpha => exact stale
  | axpby alpha beta => exact stale
  | swap =>
    cases dispatched with
    | true =>
      change Rewrites (entrySwap T machine site n xStart yStart (cellsFrom xStart) 2 (cellsFrom yStart) 2) _ _ _ at rewrites
      rw [entrySwap, stride2Swap, declines rfl] at rewrites
      exact swap_stale machine (1 :: site) positive disjoint stale rewrites
    | false => exact swap_stale machine site positive disjoint stale rewrites
  | rot c s =>
    obtain ⟨flat, turns, stale⟩ := stale
    cases dispatched with
    | true =>
      change Rewrites (entryRot machine site n xStart yStart (cellsFrom xStart) 2 (cellsFrom yStart) 2 c s) _ _ _ at rewrites
      rw [entryRot, stride2Rot, if_pos flat, declines rfl] at rewrites
      exact rot_stale machine (1 :: site) c s positive disjoint flat turns stale rewrites
    | false => exact rot_stale machine site c s positive disjoint flat turns stale rewrites
  | rotm param =>
    obtain ⟨real, turns, stale⟩ := stale
    cases dispatched with
    | true =>
      change Rewrites (entryRotm T machine site n xStart yStart (cellsFrom xStart) 2 (cellsFrom yStart) 2 param) _ _ _
        at rewrites
      rw [entryRotm, stride2Rotm] at rewrites
      by_cases still : param 0 = -2
      · refine turns ?_
        rw [modifiedRotation, if_pos still]
        exact ⟨rfl, rfl⟩
      · rw [if_neg still, declines rfl] at rewrites
        exact rotm_stale machine (1 :: site) param positive disjoint real turns stale rewrites
    | false => exact rotm_stale machine site param positive disjoint real turns stale rewrites

-- Every route of a Level 1 call is its definition, unless a stride-2 block of swap, rot or rotm stores a stale gap.
theorem vector_routines_elementwise [Nontrivial R] (dispatched : Bool) (machine : VectorMachine) (site : Site)
    (n incx incy : Int) (xStart yStart : Nat) (nonzeroX : incx ≠ 0) (nonzeroY : incy ≠ 0) :
    (∀ call : UnaryCall R T, call.Elementwise dispatched machine site n xStart incx) ∧
      Returns (if dispatched then entryAsum T machine site n (cellsFrom xStart) incx
          else asum T machine site n (cellsFrom xStart) incx)
        (fun memory => ∑ i ∈ Finset.range (toUsize n), ∑ part ∈ Finset.range (width T),
          |(Operand.strided (width T) n incx (cellsFrom xStart)).element memory i part|) ∧
      (∀ conjx, Returns (if dispatched then entryDot machine site n (cellsFrom xStart) incx (cellsFrom yStart) incy conjx
          else dot machine site n (cellsFrom xStart) incx (cellsFrom yStart) incy conjx)
        (fun memory => ∑ i ∈ Finset.range (toUsize n),
          conjugateIf (whole ((Operand.strided (width T) n incx (cellsFrom xStart)).element memory i) : T) conjx *
            whole ((Operand.strided (width T) n incy (cellsFrom yStart)).element memory i))) ∧
      Returns (if dispatched then entryDotF32AccF64 machine site n (cellsFrom xStart) incx (cellsFrom yStart) incy
          else dotF32AccF64 machine site n (cellsFrom xStart) incx (cellsFrom yStart) incy)
        (fun memory => ∑ i ∈ Finset.range (toUsize n),
          (Operand.strided 1 n incx (cellsFrom xStart)).element (R := R) memory i 0 *
            (Operand.strided 1 n incy (cellsFrom yStart)).element memory i 0) ∧
      (Disjoint2 (Operand.strided (width T) n incx (cellsFrom xStart))
          (Operand.strided (width T) n incy (cellsFrom yStart)) (Set.Iio (toUsize n)) →
        ∀ call : PairCall R T, call.Elementwise dispatched machine site n xStart incx yStart incy ↔
          ¬ StaleGap call dispatched machine site n xStart incx yStart incy) := by
  have magnitudes : ∀ execution : Execution Nat R R R,
      Returns execution (fun memory => ∑ i ∈ Finset.range (toUsize n),
        magnitude (Operand.strided (width T) n incx (cellsFrom xStart)) memory i) →
      Returns execution (fun memory => ∑ i ∈ Finset.range (toUsize n), ∑ part ∈ Finset.range (width T),
        |(Operand.strided (width T) n incx (cellsFrom xStart)).element memory i part|) :=
    fun execution returns => returns.congr (fun memory => Finset.sum_congr rfl (fun i _ => abs1_sum _ _))
  refine ⟨fun call => unary_elementwise call dispatched machine site nonzeroX, ?_, fun conjx => ?_, ?_,
    fun disjoint call => ⟨?_, ?_⟩⟩
  · cases dispatched with
    | true => exact magnitudes _ (entry_asum_returns machine site nonzeroX)
    | false => exact magnitudes _ (asum_returns machine site nonzeroX)
  · cases dispatched with
    | true => exact entry_dot_returns machine site conjx nonzeroX nonzeroY
    | false => exact dot_returns machine site conjx nonzeroX nonzeroY
  · cases dispatched with
    | true => exact entry_dot_f32_acc_f64_returns machine site nonzeroX nonzeroY
    | false => exact dot_f32_acc_f64_returns machine site nonzeroX nonzeroY
  · exact fun elementwise stale => pair_stale call dispatched machine site disjoint stale elementwise
  · exact pair_elementwise machine site disjoint call dispatched nonzeroX nonzeroY

-- One thread, lanes(T) of operations.zig and no architecture kernel.
def portableMachine : VectorMachine where
  runtime := Runtime.sequential
  lanes
    | .single => 16
    | .double => 8
  kernel _ _ := none
  kernel_widths _ _ _ taken := nomatch taken
  preferStride2Parallel _ := false
  macos := false

-- Two tasks wherever a routine or the stride-2 dispatch may split.
def splitVectors : VectorMachine := { portableMachine with
  runtime := Runtime.splitting 2
  preferStride2Parallel := fun _ => true }

omit [CommRing R] [LinearOrder R] [CommRing T] [Element R T] [LawfulElement R T] in
theorem odd_distance (n : Int) (xStart yStart : Nat) (odd : (xStart + yStart) % 2 = 1) :
    Disjoint2 (Operand.strided 1 n 2 (cellsFrom xStart)) (Operand.strided 1 n 2 (cellsFrom yStart))
      (Set.Iio (toUsize n)) := by
  rw [stride2_strided, stride2_strided]
  intro i j c d _ _ small small' same
  have places : xStart + (1 * (2 * i) + c) = yStart + (1 * (2 * j) + d) := same
  have noC : c < 1 := small
  have noD : d < 1 := small'
  omega

-- Eight f64: y fills cells 0, 2, .., 14 and x starts in the gap behind it, in cell 15.
theorem swap_loses_first_element :
    Disjoint2 (Operand.strided 1 8 2 (cellsFrom 15)) (Operand.strided 1 8 2 (cellsFrom 0)) (Set.Iio (toUsize 8)) ∧
      ¬ @PairCall.Elementwise ℤ ℤ _ _ _ (realElement ℤ .double) .swap false portableMachine [] 8 15 2 0 2 := by
  let _ := realElement ℤ .double
  have lawful : LawfulElement ℤ ℤ := real_element_lawful ℤ .double
  have disjoint := odd_distance 8 15 0 (by decide)
  refine ⟨disjoint, pair_stale .swap false portableMachine [] disjoint ⟨by decide, rfl, rfl, Bool.noConfusion, rfl, ?_⟩⟩
  change SerialStale 8 1 8 15 0
  exact ⟨rfl, by decide, by decide⟩

-- The same vectors the other way round.
theorem vector_routines_elementwise_adjacent :
    @PairCall.Elementwise ℤ ℤ _ _ _ (realElement ℤ .double) .swap false portableMachine [] 8 0 2 15 2 ∧
      @PairCall.Elementwise ℤ (Cplx ℤ) _ _ _ (complexElement ℤ .single) (.axpy ⟨3, -1⟩) false portableMachine [] 8 0 (-1) 16 2 := by
  refine ⟨?_, ?_⟩
  · let _ := realElement ℤ .double
    have lawful : LawfulElement ℤ ℤ := real_element_lawful ℤ .double
    have law := vector_routines_elementwise (R := ℤ) (T := ℤ) false portableMachine [] 8 2 2 0 15 (by decide) (by decide)
    refine (law.2.2.2.2 (odd_distance 8 0 15 (by decide)) .swap).mpr (fun stale => ?_)
    have serial : SerialStale 8 1 8 0 15 := stale.2.2.2.2.2
    exact absurd serial.2.1 (by decide)
  · let _ := complexElement ℤ .single
    have lawful : LawfulElement ℤ (Cplx ℤ) := complex_element_lawful ℤ .single
    have law := vector_routines_elementwise (R := ℤ) (T := Cplx ℤ) false portableMachine [] 8 (-1) 2 0 16 (by decide) (by decide)
    refine (law.2.2.2.2 (fun i j c d _ _ small _ same => ?_) (.axpy ⟨3, -1⟩)).mpr (fun stale => absurd stale.2.1 (by decide))
    have places : 0 + (2 * (7 + (i : Int) * -1).toNat + c) = 16 + (2 * (0 + (j : Int) * 2).toNat + d) := same
    have pair : c < 2 := small
    omega

end Calls

end Zynum.LevelOne
