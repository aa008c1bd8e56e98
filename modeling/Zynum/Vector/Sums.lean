import Zynum.Vector.ElementWalk
import Zynum.Vector.LevelOneExact

set_option autoImplicit false

/- dot and asum only read: whichever pieces and tasks a route is made of, the
   partial sums add up to the sum over the logical elements. -/
namespace Zynum.LevelOne

open ArrayProgram
open Element (width parts whole fromReal)

section Reading

variable {α R A B : Type} [DecidableEq α]

def Returns (execution : Execution α R B A) (value : (α → R) → A) : Prop :=
  ∀ memory result final, execution.Outcome memory result final → result = value memory ∧ final = memory

theorem returns_single {program : Program α R A} {value : (α → R) → A}
    (alone : ∀ memory, program.run memory = (value memory, memory)) :
    Returns (.single program : Execution α R B A) value := by
  intro memory result final outcome
  have ended : program.run memory = (result, final) := outcome
  obtain ⟨same, kept⟩ := Prod.mk.inj ((alone memory).symm.trans ended)
  exact ⟨same.symm, kept.symm⟩

theorem Returns.congr {execution : Execution α R B A} {value value' : (α → R) → A} (returns : Returns execution value)
    (same : ∀ memory, value memory = value' memory) : Returns execution value' := by
  intro memory result final outcome
  obtain ⟨here, kept⟩ := returns memory result final outcome
  exact ⟨here.trans (same memory), kept⟩

structure SumTask [AddCommMonoid A] (task : Site → Nat → Nat → Program α R A) (term : (α → R) → Nat → A) : Prop where
  alone : ∀ site first last, first ≤ last → ∀ memory,
    (task site first last).run memory = (∑ i ∈ Finset.Ico first last, term memory i, memory)
  reads : ∀ site first last memory, (task site first last).Respects ∅ Set.univ memory

variable [AddCommMonoid A] {task : Site → Nat → Nat → Program α R A} {term : (α → R) → Nat → A}

theorem SumTask.serial (law : SumTask task term) (site : Site) (n : Nat) :
    Returns (.single (task site 0 n) : Execution α R B A) (fun memory => ∑ i ∈ Finset.range n, term memory i) := by
  refine returns_single (fun memory => ?_)
  rw [law.alone site 0 n (Nat.zero_le n) memory, Finset.range_eq_Ico]

theorem SumTask.even (law : SumTask task term) {machine : VectorMachine} {site : Site} {n : Nat}
    {execution : Execution α R A A} (accepted : forkEven machine site n task addPartials = some execution) :
    Returns execution (fun memory => ∑ i ∈ Finset.range n, term memory i) := by
  have several := fork_tasks_several accepted
  rw [forkEven, forkCount, forkTasks, if_neg (by omega)] at accepted
  obtain ⟨_, accepted⟩ := Option.ite_none_right_eq_some.mp accepted
  have splits := even_splits n (machine.runtime.taskCount site n) (by omega)
  rw [← Option.some.inj accepted]
  rintro memory result final ⟨results, middle, finishes, rest⟩
  obtain ⟨total, same⟩ := Prod.mk.inj (show (addPartials _ results, middle) = (result, final) from rest)
  have ends := Pool.finishes_reading (fun index _ => law.reads _ _ _ memory) finishes
  constructor
  · have whole := splits.sum (term memory)
    rw [← Finset.range_eq_Ico] at whole
    change result = ∑ i ∈ Finset.range n, term memory i
    rw [← total, addPartials, loop_accumulate, zero_add, ← whole]
    refine Finset.sum_congr rfl (fun index member => ?_)
    have small := Finset.mem_range.mp member
    rw [ends.1 index small, law.alone _ _ _ (splits.ordered index small) memory]
  · exact same.symm.trans ends.2

omit [AddCommMonoid A] in
theorem returns_get_d {first : Option (Execution α R B A)} {second : Execution α R B A} {value : (α → R) → A}
    (accepted : ∀ execution, first = some execution → Returns execution value)
    (declined : Returns second value) : Returns (first.getD second) value := by
  cases answer : first with
  | none => exact declined
  | some execution => exact accepted execution answer

end Reading

section Tasks

variable {R A : Type} [Zero R] [AddCommMonoid A]

theorem reads_elements {α : Type} [DecidableEq α] {x : Operand α} {piece : Piece} (memory : α → R) :
    (loadElements x piece).Respects ∅ Set.univ memory :=
  respects_load_active _ _ _ memory (fun _ _ _ => .inr trivial)

theorem reads_fold_elements {α B : Type} [DecidableEq α] {x : Operand α} (step : Piece → Nat → (Nat → R) → B → B)
    (pieces : List Piece) (state : B) (memory : α → R) :
    (Program.foldItems pieces (fun piece => foldElements (step piece) x piece) state).Respects ∅ Set.univ memory :=
  respects_fold_items pieces _ state memory (fun _ current _ _ => Program.respects_bind (reads_elements current) trivial)

omit [Zero R] in
theorem reads_or_else {α B : Type} [DecidableEq α] {first second : Program α R (Option B)} {memory : α → R}
    (before : ∀ memory, first.Respects ∅ Set.univ memory) (after : ∀ memory, second.Respects ∅ Set.univ memory) :
    (orElse first second).Respects ∅ Set.univ memory := by
  refine Program.respects_bind (before memory) ?_
  split
  · trivial
  · exact after _

theorem sum_one_task {x : Operand Nat} (plan : Site → Nat → Nat → List Piece) {term : (Nat → R) → A}
    (elementwise : ElementTerm x.width term)
    (consecutive : ∀ site first last, first ≤ last → Consecutive (plan site first last) first last)
    (fits : ∀ site first last, Walkable x (plan site first last)) :
    SumTask (fun site first last => Program.foldItems (plan site first last) (sumOne term x) 0)
      (fun memory i => term (x.element memory i)) := by
  constructor
  · intro site first last ordered memory
    have whole := run_sums (sumOne term x) (fun i => term (x.element memory i)) (plan site first last) first last 0 memory
      (consecutive site first last ordered)
      (fun piece total member =>
        run_sum_one term total memory (fits site first last piece member).1 (fits site first last piece member).2 elementwise)
    rw [whole, zero_add]
  · intro site first last memory
    exact respects_fold_items _ _ 0 memory (fun piece current total _ =>
      Program.respects_bind (reads_elements current) trivial)

theorem sum_two_task {x y : Operand Nat} (plan : Site → Nat → Nat → List Piece) {term : (Nat → R) → (Nat → R) → A}
    (sameWidth : x.width = y.width) (elementwise : PairTerm y.width term)
    (consecutive : ∀ site first last, first ≤ last → Consecutive (plan site first last) first last)
    (fitsX : ∀ site first last, Walkable x (plan site first last))
    (fitsY : ∀ site first last, Walkable y (plan site first last)) :
    SumTask (fun site first last => Program.foldItems (plan site first last) (sumTwo term x y) 0)
      (fun memory i => term (x.element memory i) (y.element memory i)) := by
  constructor
  · intro site first last ordered memory
    have whole := run_sums (sumTwo term x y) (fun i => term (x.element memory i) (y.element memory i))
      (plan site first last) first last 0 memory (consecutive site first last ordered)
      (fun piece total member =>
        run_sum_two term total memory (fitsX site first last piece member).1 (fitsY site first last piece member).1
          (fitsX site first last piece member).2 sameWidth elementwise)
    rw [whole, zero_add]
  · intro site first last memory
    exact respects_fold_items _ _ 0 memory (fun piece current total _ =>
      Program.respects_bind (reads_elements current) (Program.respects_bind (reads_elements _) trivial))

end Tasks

section Dot

variable {R T : Type} [CommRing R] [LinearOrder R] [CommRing T] [Element R T] [LawfulElement R T] {n incx incy : Int}
  {xStart yStart : Nat}

def productTerm (conjx : Bool) (x y : Operand Nat) (memory : Nat → R) (i : Nat) : T :=
  dotTerm conjx (x.element memory i) (y.element memory i)

omit [LinearOrder R] in
theorem dot_term_pair (conjx : Bool) : PairTerm (width T) (dotTerm (R := R) (T := T) conjx) := by
  intro left left' right right' sameLeft sameRight
  rw [dotTerm, dotTerm, LawfulElement.whole_congr (T := T) left left' sameLeft,
    LawfulElement.whole_congr (T := T) right right' sameRight]

omit [LinearOrder R] in
theorem dot_unit_task (xStart yStart : Nat) (machine : VectorMachine) (conjx : Bool) :
    SumTask (dotUnit machine conjx (cellsFrom xStart) (cellsFrom yStart))
      (productTerm (R := R) (T := T) conjx (Operand.unit (width T) (cellsFrom xStart))
        (Operand.unit (width T) (cellsFrom yStart))) :=
  sum_two_task (x := Operand.unit (width T) (cellsFrom xStart)) (y := Operand.unit (width T) (cellsFrom yStart))
    _ rfl (dot_term_pair conjx)
    (fun site first last ordered => unit_pieces_consecutive machine site _ first last ordered)
    (fun site first last => walkable_unit _ _ (unit_pieces_step machine site _ first last))
    (fun site first last => walkable_unit _ _ (unit_pieces_step machine site _ first last))

omit [LinearOrder R] in
theorem dot_stride2_task (strict : Bool) (lanes : Nat) (conjx : Bool) :
    SumTask (dotStride2 strict lanes conjx (cellsFrom xStart) (cellsFrom yStart))
      (productTerm (R := R) (T := T) conjx (Operand.stride2 (width T) (cellsFrom xStart))
        (Operand.stride2 (width T) (cellsFrom yStart))) :=
  sum_two_task (x := Operand.stride2 (width T) (cellsFrom xStart)) (y := Operand.stride2 (width T) (cellsFrom yStart))
    (fun _ => stride2Plan strict lanes) rfl (dot_term_pair conjx)
    (fun _ first last ordered => stride2_plan_consecutive strict lanes first last ordered)
    (fun _ first last => walkable_stride2 strict lanes first last _ _)
    (fun _ first last => walkable_stride2 strict lanes first last _ _)

omit [LinearOrder R] in
theorem dot_returns (machine : VectorMachine) (site : Site) (conjx : Bool) (nonzeroX : incx ≠ 0) (nonzeroY : incy ≠ 0) :
    Returns (dot machine site n (cellsFrom xStart) incx (cellsFrom yStart) incy conjx)
      (fun memory => ∑ i ∈ Finset.range (toUsize n), productTerm (R := R) (T := T) conjx
        (Operand.strided (width T) n incx (cellsFrom xStart)) (Operand.strided (width T) n incy (cellsFrom yStart))
        memory i) := by
  rw [dot]
  split
  · refine returns_single (fun memory => ?_)
    have none : toUsize n = 0 := by simp only [toUsize]; omega
    rw [none, Finset.range_zero, Finset.sum_empty]
    rfl
  split
  · rename_i unit
    rw [unit.1, unit.2, unit_strided, unit_strided]
    have task := dot_unit_task (R := R) (T := T) xStart yStart machine conjx
    exact returns_get_d (fun execution accepted => task.even accepted) (task.serial site _)
  split
  · rename_i blocks
    rw [blocks.2.1, blocks.2.2, stride2_strided, stride2_strided]
    exact (dot_stride2_task false _ conjx).serial site _
  · have task := sum_two_task (x := Operand.strided (width T) n incx (cellsFrom xStart))
      (y := Operand.strided (width T) n incy (cellsFrom yStart)) (fun _ first last => singles first last) rfl
      (dot_term_pair (R := R) (T := T) conjx) (fun _ _ _ ordered => singles_consecutive ordered)
      (fun _ first last => walkable_singles _ first last) (fun _ first last => walkable_singles _ first last)
    exact task.serial [] _

omit [LinearOrder R] in
theorem entry_dot_returns (machine : VectorMachine) (site : Site) (conjx : Bool) (nonzeroX : incx ≠ 0)
    (nonzeroY : incy ≠ 0) :
    Returns (entryDot machine site n (cellsFrom xStart) incx (cellsFrom yStart) incy conjx)
      (fun memory => ∑ i ∈ Finset.range (toUsize n), productTerm (R := R) (T := T) conjx
        (Operand.strided (width T) n incx (cellsFrom xStart)) (Operand.strided (width T) n incy (cellsFrom yStart))
        memory i) := by
  refine returns_get_d (fun execution accepted => ?_) (dot_returns machine _ conjx nonzeroX nonzeroY)
  rw [stride2Dot] at accepted
  obtain ⟨target, accepted⟩ := Option.ite_none_right_eq_some.mp accepted
  obtain ⟨two, target⟩ := Bool.and_eq_true_iff.mp target
  rw [target_unary_two target, of_decide_eq_true two, stride2_strided, stride2_strided]
  exact (dot_stride2_task true _ conjx).even accepted

end Dot

section Accumulated

variable {R : Type} [CommRing R] {n incx incy : Int} {xStart yStart : Nat}

theorem acc_task {x y : Operand Nat} (plan : Site → Nat → Nat → List Piece) (oneX : x.width = 1) (oneY : y.width = 1)
    (consecutive : ∀ site first last, first ≤ last → Consecutive (plan site first last) first last)
    (fitsX : ∀ site first last, Walkable x (plan site first last))
    (fitsY : ∀ site first last, Walkable y (plan site first last)) :
    SumTask (R := R) (fun site first last => accPieces x y (plan site first last))
      (fun memory i => x.element memory i 0 * y.element memory i 0) :=
  sum_two_task plan (oneX.trans oneY.symm) (fun left left' right right' sameLeft sameRight => by
    rw [sameLeft 0 (oneY ▸ Nat.one_pos), sameRight 0 (oneY ▸ Nat.one_pos)]) consecutive fitsX fitsY

theorem acc_stride2_task (strict : Bool) :
    SumTask (R := R) (dotF32AccF64Stride2 strict (cellsFrom xStart) (cellsFrom yStart))
      (fun memory i => (Operand.stride2 1 (cellsFrom xStart)).element memory i 0 *
        (Operand.stride2 1 (cellsFrom yStart)).element memory i 0) :=
  acc_task (fun _ => stride2Plan strict 4) rfl rfl
    (fun _ first last ordered => stride2_plan_consecutive strict 4 first last ordered)
    (fun _ first last => walkable_stride2 strict 4 first last _ _)
    (fun _ first last => walkable_stride2 strict 4 first last _ _)

theorem dot_f32_acc_f64_returns (machine : VectorMachine) (site : Site) (nonzeroX : incx ≠ 0) (nonzeroY : incy ≠ 0) :
    Returns (dotF32AccF64 machine site n (cellsFrom xStart) incx (cellsFrom yStart) incy)
      (fun memory => ∑ i ∈ Finset.range (toUsize n),
        (Operand.strided 1 n incx (cellsFrom xStart)).element (R := R) memory i 0 *
          (Operand.strided 1 n incy (cellsFrom yStart)).element memory i 0) := by
  rw [dotF32AccF64]
  split
  · refine returns_single (fun memory => ?_)
    have none : toUsize n = 0 := by simp only [toUsize]; omega
    rw [none, Finset.range_zero, Finset.sum_empty]
    rfl
  split
  · rename_i unit
    rw [unit.1, unit.2, unit_strided, unit_strided]
    have task := acc_task (R := R) (x := Operand.unit 1 (cellsFrom xStart)) (y := Operand.unit 1 (cellsFrom yStart))
      (fun site => unitPieces machine site [4]) rfl rfl
      (fun site first last ordered => unit_pieces_consecutive machine site _ first last ordered)
      (fun site first last => walkable_unit _ _ (unit_pieces_step machine site _ first last))
      (fun site first last => walkable_unit _ _ (unit_pieces_step machine site _ first last))
    refine returns_get_d (fun execution accepted => ?_) (task.serial site _)
    obtain ⟨_, accepted⟩ := Option.ite_none_right_eq_some.mp accepted
    exact task.even accepted
  split
  · rename_i blocks
    rw [blocks.1, blocks.2, stride2_strided, stride2_strided]
    exact (acc_stride2_task false).serial site _
  · have task := acc_task (R := R) (x := Operand.strided 1 n incx (cellsFrom xStart))
      (y := Operand.strided 1 n incy (cellsFrom yStart)) (fun _ first last => singles first last) rfl rfl
      (fun _ _ _ ordered => singles_consecutive ordered) (fun _ first last => walkable_singles _ first last)
      (fun _ first last => walkable_singles _ first last)
    exact task.serial [] _

theorem entry_dot_f32_acc_f64_returns (machine : VectorMachine) (site : Site) (nonzeroX : incx ≠ 0) (nonzeroY : incy ≠ 0) :
    Returns (entryDotF32AccF64 machine site n (cellsFrom xStart) incx (cellsFrom yStart) incy)
      (fun memory => ∑ i ∈ Finset.range (toUsize n),
        (Operand.strided 1 n incx (cellsFrom xStart)).element (R := R) memory i 0 *
          (Operand.strided 1 n incy (cellsFrom yStart)).element memory i 0) := by
  refine returns_get_d (fun execution accepted => ?_) (dot_f32_acc_f64_returns machine _ nonzeroX nonzeroY)
  rw [stride2DotF32AccF64] at accepted
  obtain ⟨target, accepted⟩ := Option.ite_none_right_eq_some.mp accepted
  obtain ⟨two, target⟩ := Bool.and_eq_true_iff.mp target
  rw [target_unary_two target, of_decide_eq_true two, stride2_strided, stride2_strided]
  exact (acc_stride2_task true).even accepted

end Accumulated

section Magnitudes

variable {R : Type} [CommRing R] [LinearOrder R]

theorem abs1_sum (width : Nat) (value : Nat → R) : abs1 width value = ∑ lane ∈ Finset.range width, |value lane| := by
  rw [abs1, loop_accumulate, zero_add]

theorem abs1_term (width : Nat) : ElementTerm width (abs1 (R := R) width) := by
  intro value value' same
  rw [abs1_sum, abs1_sum]
  exact Finset.sum_congr rfl (fun lane member => congrArg _ (same lane (Finset.mem_range.mp member)))

theorem sum_row {M : Type} [AddCommMonoid M] (width n : Nat) (term : Nat → M) :
    ∑ lane ∈ Finset.range (width * n), term lane =
      ∑ i ∈ Finset.range n, ∑ part ∈ Finset.range width, term (width * i + part) := by
  induction n with
  | zero => rw [Nat.mul_zero, Finset.range_zero, Finset.sum_empty, Finset.sum_empty]
  | succ n ih => rw [Nat.mul_succ, Finset.sum_range_add, ih, Finset.sum_range_succ]

variable {T : Type} [Element R T] {n incx : Int} {xStart : Nat}

def magnitude (x : Operand Nat) (memory : Nat → R) (i : Nat) : R := abs1 x.width (x.element memory i)

theorem asum_returns (machine : VectorMachine) (site : Site) (nonzero : incx ≠ 0) :
    Returns (asum T machine site n (cellsFrom xStart) incx)
      (fun memory => ∑ i ∈ Finset.range (toUsize n),
        magnitude (R := R) (Operand.strided (width T) n incx (cellsFrom xStart)) memory i) := by
  rw [asum]
  split
  · refine returns_single (fun memory => ?_)
    have none : toUsize n = 0 := by simp only [toUsize]; omega
    rw [none, Finset.range_zero, Finset.sum_empty]
    rfl
  split
  · rename_i unit
    rw [unit, unit_strided]
    have task := sum_one_task (x := Operand.unit 1 (cellsFrom xStart))
      (fun site => unitPieces machine site (realLaneCounts machine (Scalar.precision T))) (abs1_term (R := R) 1)
      (fun site first last ordered => unit_pieces_consecutive machine site _ first last ordered)
      (fun site first last => walkable_unit _ _ (unit_pieces_step machine site _ first last))
    refine Returns.congr
      (returns_get_d (fun execution accepted => task.even accepted) (task.serial site _)) (fun memory => ?_)
    rw [sum_row]
    refine Finset.sum_congr rfl (fun i _ => ?_)
    rw [magnitude, abs1_sum]
    refine Finset.sum_congr rfl (fun part _ => ?_)
    rw [abs1_sum, Finset.sum_range_one, row_element]
  split
  · rename_i blocks
    rw [blocks.2, stride2_strided]
    have task := sum_one_task (x := Operand.stride2 (width T) (cellsFrom xStart))
      (fun _ => stride2Plan false (stride2Lanes machine T)) (abs1_term (R := R) (width T))
      (fun _ first last ordered => stride2_plan_consecutive false _ first last ordered)
      (fun _ first last => walkable_stride2 false _ first last _ _)
    exact task.serial site _
  · have task := sum_one_task (x := Operand.strided (width T) n incx (cellsFrom xStart))
      (fun _ first last => singles first last) (abs1_term (R := R) (width T))
      (fun _ _ _ ordered => singles_consecutive ordered) (fun _ first last => walkable_singles _ first last)
    exact task.serial [] _

theorem entry_asum_returns (machine : VectorMachine) (site : Site) (nonzero : incx ≠ 0) :
    Returns (entryAsum T machine site n (cellsFrom xStart) incx)
      (fun memory => ∑ i ∈ Finset.range (toUsize n),
        magnitude (R := R) (Operand.strided (width T) n incx (cellsFrom xStart)) memory i) := by
  refine returns_get_d (fun execution accepted => ?_) (asum_returns machine _ nonzero)
  rw [stride2Asum] at accepted
  obtain ⟨target, accepted⟩ := Option.ite_none_right_eq_some.mp accepted
  rw [target_unary_two target, stride2_strided]
  have task := sum_one_task (x := Operand.stride2 (width T) (cellsFrom xStart))
    (fun _ => stride2Plan true (stride2Lanes machine T)) (abs1_term (R := R) (width T))
    (fun _ first last ordered => stride2_plan_consecutive true _ first last ordered)
    (fun _ first last => walkable_stride2 true _ first last _ _)
  exact task.even accepted

end Magnitudes

end Zynum.LevelOne
