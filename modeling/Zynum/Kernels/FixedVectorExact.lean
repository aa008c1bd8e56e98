import Zynum.Kernels.FixedVectorLoops
import Zynum.Vector.RouteTasks
import Mathlib.Tactic.Ring
import Mathlib.Algebra.Order.PUnit

set_option autoImplicit false

/- Every fixed-width kernel leaves the elementwise result or the exact sum of its
   definition, whatever lane count, unroll and minimum length it is built with. -/
namespace Zynum.FixedVector

open ArrayProgram LevelOne VectorConfig

section Rows

variable {R : Type} {allowed : Set Nat} {length x y : Nat}

def rowCells (start length : Nat) : Set Nat := {place | ∃ i, i < length ∧ cellsFrom start i = place}

def Apart (length x y : Nat) : Prop := x + length ≤ y ∨ y + length ≤ x

def Clear (length x y : Nat) : Prop := x = y ∨ Apart length x y

theorem within_load_vec [Zero R] {lanes index : Nat} (row : rowCells x length ⊆ allowed) (fits : index + lanes ≤ length) :
    (loadVec lanes (cellsFrom x) index : Program Nat R _).Within allowed (fun _ => True) :=
  within_load_cells _ _ (fun lane small => row ⟨index + lane, by omega, rfl⟩)

theorem within_store_vec {lanes index : Nat} (values : Nat → R) (row : rowCells y length ⊆ allowed)
    (fits : index + lanes ≤ length) : (storeVec lanes (cellsFrom y) index values).Within allowed (fun _ => True) :=
  within_store_cells _ _ _ (fun lane small => row ⟨index + lane, by omega, rfl⟩)

theorem within_get {place : Nat} (row : rowCells x length ⊆ allowed) {i : Nat} (small : i < length)
    (here : cellsFrom x i = place) : (Program.get place : Program Nat R R).Within allowed (fun _ => True) :=
  ⟨row ⟨i, small, here⟩, fun _ => trivial⟩

theorem run_load_vec [Zero R] (lanes index : Nat) (memory : Nat → R) :
    (loadVec lanes (cellsFrom x) index).run memory =
      (fun lane => if lane < lanes then memory (cellsFrom x (index + lane)) else 0, memory) :=
  run_load_cells lanes _ memory

theorem store_vec (y lanes index : Nat) (values : Nat → R) (memory : Nat → R) :
    Overwrites {cell | id cell ∈ Set.Ico index (index + lanes)} (cellsFrom y) (fun cell => values (cell - index)) memory
      ((storeVec lanes (cellsFrom y) index values).run memory).2 := by
  have stored := run_store_cells lanes (fun lane => cellsFrom y (index + lane)) (fun lane lane' same => by
    have cells := cells_from_injective y same
    omega) values memory
  constructor
  · rintro cell ⟨low, high⟩
    have reached : index + (cell - index) = cell := Nat.add_sub_cancel' low
    have written := stored.written (cell - index) (show cell - index < lanes by have upper : cell < index + lanes := high; omega)
    rw [reached] at written
    exact written
  · intro place outside
    refine stored.kept place (fun lane small => ?_)
    exact outside (index + lane) ⟨Nat.le_add_right _ _, Nat.add_lt_add_left small _⟩

theorem stored_values {y lanes index : Nat} (values : Nat → R) (memory : Nat → R) {value : Nat → R}
    (meaning : ∀ lane, lane < lanes → values lane = value (index + lane)) :
    Overwrites {cell | id cell ∈ Set.Ico index (index + lanes)} (cellsFrom y) value memory
      ((storeVec lanes (cellsFrom y) index values).run memory).2 := by
  refine (store_vec y lanes index values memory).congr (fun cell member => ?_)
  have low : index ≤ cell := member.1
  have high : cell < index + lanes := member.2
  rw [meaning (cell - index) (by omega), Nat.add_sub_cancel' low]

end Rows

section Outputs

variable {R A : Type} [AddCommMonoid A] {holds : (Nat → R) → Prop} {term : (Nat → R) → Nat → A} {allowed : Set Nat}
  {length x y : Nat} {lanes i : Nat}

def rowLaw (holds : (Nat → R) → Prop) (y : Nat) (value : (Nat → R) → Nat → R) (term : (Nat → R) → Nat → A)
    (allowed : Set Nat) : Law Nat Nat R A :=
  ⟨holds, id, cellsFrom y, value, term, allowed⟩

theorem does_of_store {value : (Nat → R) → Nat → R} {program : Program Nat R Unit}
    (inside : program.Within allowed (fun _ => True))
    (stores : ∀ memory, holds memory → ∃ values, (program.run memory).2 =
        ((storeVec lanes (cellsFrom y) i values).run memory).2 ∧
      ∀ lane, lane < lanes → values lane = value memory (i + lane)) :
    (rowLaw holds y value (fun _ _ => ()) allowed).Does program i (i + lanes) := by
  refine ⟨fun _ => inside, fun _ memory held => ?_⟩
  obtain ⟨values, ran, meaning⟩ := stores memory held
  refine ⟨(), _, rfl, ?_, rfl⟩
  rw [ran]
  exact stored_values values memory meaning

def pairAddress (x y : Nat) (cell : Bool × Nat) : Nat := cellsFrom (if cell.1 then y else x) cell.2

def pairLaw (x y : Nat) (value : (Nat → R) → Bool × Nat → R) (allowed : Set Nat) : Law (Bool × Nat) Nat R Unit :=
  ⟨fun _ => True, Prod.snd, pairAddress x y, value, fun _ _ => (), allowed⟩

theorem does_of_stores {value : (Nat → R) → Bool × Nat → R} {program : Program Nat R Unit} (apart : Apart length x y)
    (fits : i + lanes ≤ length) (inside : program.Within allowed (fun _ => True))
    (stores : ∀ memory, ∃ left right, (program.run memory).2 = ((storeVec lanes (cellsFrom y) i right).run
        ((storeVec lanes (cellsFrom x) i left).run memory).2).2 ∧
      ∀ lane, lane < lanes → left lane = value memory (false, i + lane) ∧ right lane = value memory (true, i + lane)) :
    (pairLaw x y value allowed).Does program i (i + lanes) := by
  refine ⟨fun _ => inside, fun _ memory _ => ?_⟩
  obtain ⟨left, right, ran, meaning⟩ := stores memory
  refine ⟨(), _, rfl, ?_, rfl⟩
  rw [ran]
  have first := store_vec x lanes i left memory
  have second := store_vec y lanes i right ((storeVec lanes (cellsFrom x) i left).run memory).2
  constructor
  · rintro ⟨side, cell⟩ member
    have low : i ≤ cell := member.1
    have high : cell < i + lanes := member.2
    obtain ⟨leftMeaning, rightMeaning⟩ := meaning (cell - i) (by omega)
    rw [Nat.add_sub_cancel' low] at leftMeaning rightMeaning
    cases side with
    | true => exact (second.written cell member).trans rightMeaning
    | false =>
      have kept := second.kept (cellsFrom x cell) (fun other inOther same => by
        have high' : other < i + lanes := inOther.2
        have cells : y + other = x + cell := same
        rcases apart with before | after
        · omega
        · omega)
      exact kept.trans ((first.written cell member).trans leftMeaning)
  · intro place outside
    rw [second.kept place (fun cell member => outside (true, cell) member)]
    exact first.kept place (fun cell member => outside (false, cell) member)

theorem row_sound {value : (Nat → R) → Nat → R} (width : Nat)
    (reads : ∀ (before after : Nat → R) cell, cell < length →
      (∀ place, (∀ other, other < length → other / width ≠ cell / width → cellsFrom y other ≠ place) →
        before place = after place) → value before cell = value after cell) :
    (rowLaw (fun _ => True) y value (fun _ _ => ()) allowed).Sound width length :=
  ⟨fun cell other _ _ different same => different (by rw [cells_from_injective y same]), reads,
    fun _ _ _ _ => rfl, fun _ _ _ held => held⟩

theorem clear_cell (clear : Clear length x y) {cell other width c : Nat} (small : c < length) (small' : other < length)
    (same : c / width = cell / width) (different : other / width ≠ cell / width) : cellsFrom y other ≠ cellsFrom x c := by
  intro hit
  have cells : y + other = x + c := hit
  rcases clear with rfl | before | after
  · have equal : other = c := Nat.add_left_cancel cells
    exact different (equal ▸ same)
  · omega
  · omega

theorem pair_sound {value : (Nat → R) → Bool × Nat → R} (apart : Apart length x y)
    (reads : ∀ (before after : Nat → R) side i, before (x + i) = after (x + i) → before (y + i) = after (y + i) →
      value before (side, i) = value after (side, i)) :
    (pairLaw x y value allowed).Sound 1 length := by
  have differ : ∀ side side' i j, i < length → j < length → i ≠ j → pairAddress x y (side, i) ≠ pairAddress x y (side', j) := by
    intro side side' i j small small' different same
    have cells : (if side then y else x) + i = (if side' then y else x) + j := same
    rcases apart with before | after
    · split at cells <;> split at cells <;> omega
    · split at cells <;> split at cells <;> omega
  refine ⟨?_, ?_, fun _ _ _ _ => rfl, fun _ _ _ held => held⟩
  · rintro ⟨side, i⟩ ⟨side', j⟩ small small' different
    rw [Nat.div_one, Nat.div_one] at different
    exact differ side side' i j small small' different
  · rintro before after ⟨side, i⟩ small agree
    have mine : ∀ side', before (pairAddress x y (side', i)) = after (pairAddress x y (side', i)) := by
      intro side'
      refine agree _ ?_
      rintro ⟨other, j⟩ small' different
      rw [Nat.div_one, Nat.div_one] at different
      exact differ other side' j i small' small different
    exact reads before after side i (mine false) (mine true)

end Outputs

section Answers

variable {R A ι : Type} {allowed : Set Nat}

structure KernelUpdates (program : Program Nat R Bool) (accepted : Prop) (allowed : Set Nat) (cells : Set ι)
    (address : ι → Nat) (value : (Nat → R) → ι → R) : Prop where
  inside : program.Within allowed (fun _ => True)
  accepts : accepted → ∀ memory, (program.run memory).1 = true ∧
    Overwrites cells address (value memory) memory (program.run memory).2
  declines : ¬ accepted → ∀ memory, program.run memory = (false, memory)

structure KernelSums (program : Program Nat R (Option A)) (accepted : Prop) (allowed : Set Nat) (value : (Nat → R) → A) :
    Prop where
  inside : program.Within allowed (fun _ => True)
  accepts : accepted → ∀ memory, program.run memory = (some (value memory), memory)
  declines : ¬ accepted → ∀ memory, program.run memory = (none, memory)

theorem kernel_updates {law : Law ι Nat R Unit} {loops : Program Nat R Unit} {threshold n length : Nat}
    (does : law.Does loops 0 length) (holds : ∀ memory, law.holds memory) :
    KernelUpdates (if n < threshold then pure false else do loops; pure true) (threshold ≤ n) law.allowed
      {cell | law.index cell < length} law.address law.value := by
  by_cases short : n < threshold
  · rw [if_pos short]
    exact ⟨trivial, fun accepted => absurd short (Nat.not_lt.mpr accepted), fun _ _ => rfl⟩
  · rw [if_neg short]
    refine ⟨(does.inside ()).bind (fun _ _ => trivial), fun _ memory => ?_, fun declined => absurd (Nat.not_lt.mp short) declined⟩
    obtain ⟨_, final, ran, overwrites, _⟩ := does.works () memory (holds memory)
    rw [Program.run_do, ran]
    refine ⟨rfl, overwrites.of_eq (Set.ext fun cell => ?_)⟩
    simp only [Set.mem_ofPred_eq, Set.mem_Ico, Nat.zero_le, true_and]

theorem KernelUpdates.of_iff {program : Program Nat R Bool} {accepted accepted' : Prop} {cells : Set ι} {address : ι → Nat}
    {value : (Nat → R) → ι → R} (updates : KernelUpdates program accepted allowed cells address value)
    (same : accepted ↔ accepted') : KernelUpdates program accepted' allowed cells address value :=
  ⟨updates.inside, fun yes => updates.accepts (same.mpr yes), fun no => updates.declines (fun yes => no (same.mp yes))⟩

theorem KernelUpdates.congr {program : Program Nat R Bool} {accepted : Prop} {cells cells' : Set ι} {address : ι → Nat}
    {value value' : (Nat → R) → ι → R} (updates : KernelUpdates program accepted allowed cells address value)
    (sameCells : cells = cells') (same : ∀ memory cell, value memory cell = value' memory cell) :
    KernelUpdates program accepted allowed cells' address value' := by
  subst sameCells
  exact ⟨updates.inside, fun yes memory => ⟨(updates.accepts yes memory).1,
    (updates.accepts yes memory).2.congr (fun cell _ => same memory cell)⟩, updates.declines⟩

theorem kernel_sums {value : (Nat → R) → A} {loops : Program Nat R A} {threshold n : Nat}
    (inside : loops.Within allowed (fun _ => True)) (sums : ∀ memory, loops.run memory = (value memory, memory)) :
    KernelSums (if n < threshold then pure none else do let sum ← loops; pure (some sum)) (threshold ≤ n) allowed value := by
  by_cases short : n < threshold
  · rw [if_pos short]
    exact ⟨trivial, fun accepted => absurd short (Nat.not_lt.mpr accepted), fun _ _ => rfl⟩
  · rw [if_neg short]
    refine ⟨inside.bind (fun _ _ => trivial), fun _ memory => ?_, fun declined => absurd (Nat.not_lt.mp short) declined⟩
    rw [Program.run_do, sums]
    rfl

end Answers

section Affine

variable {R : Type} [CommRing R] {n x y : Nat}

def affine {T : Type} [Mul T] [Add T] (mode : AffineMode) (alpha beta x y : T) : T :=
  match mode with
  | .scal => alpha * x
  | .axpy => alpha * x + y
  | .axpby => alpha * x + beta * y

theorem run_second (mode : AffineMode) (lanes i : Nat) (memory : Nat → R) :
    (if mode = .scal then pure (fun _ => 0) else loadVec lanes (cellsFrom y) i : Program Nat R (Nat → R)).run memory =
      (fun lane => if mode = .scal then 0 else if lane < lanes then memory (cellsFrom y (i + lane)) else 0, memory) := by
  by_cases scal : mode = .scal
  · simp only [scal, if_true, Program.run_pure]
  · simp only [scal, if_false, run_load_vec]

theorem within_second {allowed : Set Nat} (mode : AffineMode) {lanes i length : Nat} (row : rowCells y length ⊆ allowed)
    (fits : i + lanes ≤ length) :
    (if mode = .scal then pure (fun _ => 0) else loadVec lanes (cellsFrom y) i : Program Nat R (Nat → R)).Within allowed
      (fun _ => True) := by
  split
  · trivial
  · exact within_load_vec row fits

theorem within_second_get {allowed : Set Nat} (mode : AffineMode) {i length : Nat} (row : rowCells y length ⊆ allowed)
    (small : i < length) :
    (if mode = .scal then pure 0 else Program.get (cellsFrom y i) : Program Nat R R).Within allowed (fun _ => True) := by
  split
  · trivial
  · exact within_get row small rfl

theorem real_affine_loops (lanes unroll : Nat) (tails : List Nat) (mode : AffineMode) (alpha beta : R) (clear : Clear n x y) :
    (rowLaw (fun _ => True) y
        (fun memory i => affine mode alpha beta (memory (cellsFrom x i)) (memory (cellsFrom y i))) (fun _ _ => ())
        (rowCells x n ∪ rowCells y n)).Does
      (realAffineLoops lanes unroll tails mode n alpha (cellsFrom x) beta (cellsFrom y)) 0 n := by
  have rowX : rowCells x n ⊆ rowCells x n ∪ rowCells y n := Set.subset_union_left
  have rowY : rowCells y n ⊆ rowCells x n ∪ rowCells y n := Set.subset_union_right
  refine does_vector_loops (row_sound 1 ?_) _ (one_dvd _) (fun tail _ => one_dvd tail) (one_dvd _)
    _ _ (fun lanes _ i _ fits => does_of_store ?_ (fun memory _ => ?_)) (fun i _ fits => does_of_store ?_ (fun memory _ => ?_))
  · intro before after cell small agree
    rw [agree _ (fun other small' different => clear_cell clear small small' rfl different),
      agree _ (fun other small' different same => different (by rw [cells_from_injective y same]))]
  · exact (within_load_vec rowX fits).bind (fun _ _ => (within_second mode rowY fits).bind
      (fun _ _ => within_store_vec _ rowY fits))
  · rw [Program.run_do, run_load_vec, Program.run_do, run_second]
    refine ⟨_, rfl, fun lane small => ?_⟩
    cases mode with
    | scal => simp only [realAffineVec, affine, if_pos small, mul_comm]
    | axpy => simp only [realAffineVec, affine, if_pos small, reduceCtorEq, if_false, mul_comm]
    | axpby => simp only [realAffineVec, affine, if_pos small, reduceCtorEq, if_false, mul_comm]
  · exact (within_second_get mode rowY fits).bind (fun _ _ => (within_get rowX fits rfl).bind
      (fun _ _ => ⟨rowY ⟨i, fits, rfl⟩, trivial⟩))
  · cases mode with
    | scal =>
      refine ⟨fun _ => realAffineScalar .scal (memory (cellsFrom x i)) 0 alpha beta, rfl, fun lane small => ?_⟩
      rw [Nat.lt_one_iff.mp small]
      exact mul_comm _ _
    | axpy =>
      refine ⟨fun _ => realAffineScalar .axpy (memory (cellsFrom x i)) (memory (cellsFrom y i)) alpha beta, rfl,
        fun lane small => ?_⟩
      rw [Nat.lt_one_iff.mp small]
      rfl
    | axpby =>
      refine ⟨fun _ => realAffineScalar .axpby (memory (cellsFrom x i)) (memory (cellsFrom y i)) alpha beta, rfl,
        fun lane small => ?_⟩
      rw [Nat.lt_one_iff.mp small]
      rfl

theorem real_affine_exact (bytes : Nat) (cfg : VectorConfig) (mode : AffineMode) (alpha beta : R) (clear : Clear n x y) :
    KernelUpdates (realAffineUnit bytes cfg mode n alpha (cellsFrom x) beta (cellsFrom y)) (cfg.vectorThreshold ≤ n)
      (rowCells x n ∪ rowCells y n) {cell | cell < n} (cellsFrom y)
      (fun memory i => affine mode alpha beta (memory (cellsFrom x i)) (memory (cellsFrom y i))) :=
  kernel_updates (real_affine_loops _ _ _ mode alpha beta clear) (fun _ => trivial)

-- Every second real is an imaginary part.
def complexAt (memory : Nat → R) (start i : Nat) : Cplx R :=
  ⟨memory (cellsFrom start (2 * i)), memory (cellsFrom start (2 * i + 1))⟩

def component (value : Cplx R) (cell : Nat) : R := if cell % 2 = 0 then value.re else value.im

omit [CommRing R] in
theorem lane_even {lane i : Nat} (start : 2 ∣ i) (even : lane % 2 = 0) (memory : Nat → R) (x : Nat) :
    (i + lane) % 2 = 0 ∧ complexAt memory x ((i + lane) / 2) =
      ⟨memory (cellsFrom x (i + lane)), memory (cellsFrom x (i + pairSwapMask lane))⟩ := by
  have cell : i + lane = 2 * ((i + lane) / 2) := by omega
  have partner : i + pairSwapMask lane = 2 * ((i + lane) / 2) + 1 := by
    rw [pairSwapMask, if_pos even]
    omega
  refine ⟨by omega, ?_⟩
  rw [complexAt, ← partner, ← cell]

omit [CommRing R] in
theorem lane_odd {lane i : Nat} (start : 2 ∣ i) (odd : ¬ lane % 2 = 0) (memory : Nat → R) (x : Nat) :
    (i + lane) % 2 ≠ 0 ∧ complexAt memory x ((i + lane) / 2) =
      ⟨memory (cellsFrom x (i + pairSwapMask lane)), memory (cellsFrom x (i + lane))⟩ := by
  have cell : i + lane = 2 * ((i + lane) / 2) + 1 := by omega
  have partner : i + pairSwapMask lane = 2 * ((i + lane) / 2) := by
    rw [pairSwapMask, if_neg odd]
    omega
  refine ⟨by omega, ?_⟩
  rw [complexAt, ← cell, ← partner]

theorem swap_small {lanes lane : Nat} (whole : 2 ∣ lanes) (small : lane < lanes) : pairSwapMask lane < lanes := by
  rw [pairSwapMask]
  split <;> omega

theorem complex_affine_lane (mode : AffineMode) (fused : Bool) (alpha beta : Cplx R) (xv yv : Nat → R) (lane : Nat) :
    (lane % 2 = 0 → complexAffineVec mode fused xv yv (fun _ => alpha.re) (pairSignVector alpha.im) (fun _ => beta.re)
        (pairSignVector beta.im) lane =
      (affine mode alpha beta (⟨xv lane, xv (pairSwapMask lane)⟩ : Cplx R) ⟨yv lane, yv (pairSwapMask lane)⟩).re) ∧
    (¬ lane % 2 = 0 → complexAffineVec mode fused xv yv (fun _ => alpha.re) (pairSignVector alpha.im) (fun _ => beta.re)
        (pairSignVector beta.im) lane =
      (affine mode alpha beta (⟨xv (pairSwapMask lane), xv lane⟩ : Cplx R) ⟨yv (pairSwapMask lane), yv lane⟩).im) := by
  constructor
  · intro even
    cases mode <;> cases fused <;>
      simp [complexAffineVec, complexScaleVec, affine, pairSignVector, pairPatternVector, even] <;> ring
  · intro odd
    cases mode <;> cases fused <;>
      simp [complexAffineVec, complexScaleVec, affine, pairSignVector, pairPatternVector, odd] <;> ring

theorem complex_affine_loops (fused : Bool) {lanes : Nat} (unroll : Nat) (tails : List Nat) (mode : AffineMode) (alpha beta : Cplx R)
    (even : 2 ∣ lanes) (evenTails : ∀ tail, tail ∈ tails → 2 ∣ tail) (clear : Clear (2 * n) x y) :
    (rowLaw (fun _ => True) y (fun memory cell =>
        component (affine mode alpha beta (complexAt memory x (cell / 2)) (complexAt memory y (cell / 2))) cell)
        (fun _ _ => ()) (rowCells x (2 * n) ∪ rowCells y (2 * n))).Does
      (complexAffineLoops fused lanes unroll tails mode n alpha (cellsFrom x) beta (cellsFrom y)) 0 (2 * n) := by
  have rowX : rowCells x (2 * n) ⊆ rowCells x (2 * n) ∪ rowCells y (2 * n) := Set.subset_union_left
  have rowY : rowCells y (2 * n) ⊆ rowCells x (2 * n) ∪ rowCells y (2 * n) := Set.subset_union_right
  refine does_vector_loops (row_sound 2 ?_) _ even evenTails (Dvd.intro n rfl)
    _ _ (fun lanes whole i start fits => does_of_store ?_ (fun memory _ => ?_))
    (fun i start fits => does_of_store ?_ (fun memory _ => ?_))
  · intro before after cell small agree
    have same : ∀ c, c < 2 * n → c / 2 = cell / 2 → before (cellsFrom x c) = after (cellsFrom x c) ∧
        before (cellsFrom y c) = after (cellsFrom y c) := fun c bounded here =>
      ⟨agree _ (fun other small' different => clear_cell clear bounded small' here different),
        agree _ (fun other small' different hit => different (by rw [cells_from_injective y hit, here]))⟩
    have re := same (2 * (cell / 2)) (by omega) (by omega)
    have im := same (2 * (cell / 2) + 1) (by omega) (by omega)
    simp only [complexAt, re.1, re.2, im.1, im.2]
  · exact (within_load_vec rowX fits).bind (fun _ _ => (within_second mode rowY fits).bind
      (fun _ _ => within_store_vec _ rowY fits))
  · rw [Program.run_do, run_load_vec, Program.run_do, run_second]
    refine ⟨_, rfl, fun lane small => ?_⟩
    have small' := swap_small whole small
    by_cases first : lane % 2 = 0
    · obtain ⟨here, xs⟩ := lane_even start first memory x
      obtain ⟨_, ys⟩ := lane_even start first memory y
      rw [(complex_affine_lane mode fused alpha beta _ _ lane).1 first, component, if_pos here, xs, ys]
      cases mode <;> simp only [affine, if_pos small, if_pos small', reduceCtorEq, if_false]
    · obtain ⟨here, xs⟩ := lane_odd start first memory x
      obtain ⟨_, ys⟩ := lane_odd start first memory y
      rw [(complex_affine_lane mode fused alpha beta _ _ lane).2 first, component, if_neg here, xs, ys]
      cases mode <;> simp only [affine, if_pos small, if_pos small', reduceCtorEq, if_false]
  · have second : i + 1 < 2 * n := by omega
    exact (within_get rowX (by omega) rfl).bind (fun _ _ => (within_get rowX second rfl).bind (fun _ _ =>
      (within_second_get mode rowY (by omega)).bind (fun _ _ => (within_second_get mode rowY second).bind (fun _ _ =>
        ⟨rowY ⟨i, by omega, rfl⟩, rowY ⟨i + 1, second, rfl⟩, trivial⟩))))
  · obtain ⟨e, rfl⟩ := start
    have value : ∀ yr yi, (mode ≠ .scal → yr = memory (cellsFrom y (2 * e)) ∧ yi = memory (cellsFrom y (2 * e + 1))) →
        complexAffineScalar mode (memory (cellsFrom x (2 * e))) (memory (cellsFrom x (2 * e + 1))) yr yi alpha beta =
          affine mode alpha beta (complexAt memory x e) (complexAt memory y e) := by
      intro yr yi loaded
      cases mode with
      | scal => rfl
      | axpy =>
        obtain ⟨rfl, rfl⟩ := loaded nofun
        exact Cplx.ext_parts (add_comm _ _) (add_comm _ _)
      | axpby =>
        obtain ⟨rfl, rfl⟩ := loaded nofun
        exact Cplx.ext_parts (add_sub_assoc _ _ _) (add_assoc _ _ _)
    have stored : ∀ out, out = affine mode alpha beta (complexAt memory x e) (complexAt memory y e) → ∀ lane, lane < 2 →
        (if lane = 0 then out.re else out.im) = component (affine mode alpha beta (complexAt memory x ((2 * e + lane) / 2))
          (complexAt memory y ((2 * e + lane) / 2))) (2 * e + lane) := by
      rintro _ rfl lane small
      have half : (2 * e + lane) / 2 = e := by omega
      have parity : (2 * e + lane) % 2 = 0 ↔ lane = 0 := by omega
      rw [half, component]
      simp only [parity]
    cases mode with
    | scal => exact ⟨fun lane => if lane = 0 then _ else _, rfl, stored _ (value 0 0 (fun other => absurd rfl other))⟩
    | axpy => exact ⟨fun lane => if lane = 0 then _ else _, rfl, stored _ (value _ _ (fun _ => ⟨rfl, rfl⟩))⟩
    | axpby => exact ⟨fun lane => if lane = 0 then _ else _, rfl, stored _ (value _ _ (fun _ => ⟨rfl, rfl⟩))⟩

theorem complex_affine_exact (bytes : Nat) (cfg : VectorConfig) (mode : AffineMode) (alpha beta : Cplx R)
    (even : 2 ∣ cfg.laneCount) (clear : Clear (2 * n) x y) :
    KernelUpdates (complexAffineUnit bytes cfg mode n alpha (cellsFrom x) beta (cellsFrom y)) (cfg.vectorThreshold ≤ n * 2)
      (rowCells x (2 * n) ∪ rowCells y (2 * n)) {cell | cell < 2 * n} (cellsFrom y)
      (fun memory cell => component (affine mode alpha beta (complexAt memory x (cell / 2)) (complexAt memory y (cell / 2)))
        cell) :=
  kernel_updates (complex_affine_loops _ _ _ mode alpha beta even
    (fun _ member => Nat.dvd_of_mod_eq_zero (of_decide_eq_true (List.mem_filter.mp member).2)) clear) (fun _ => trivial)

end Affine

section Copies

variable {R : Type} [Zero R] {n x y : Nat}

theorem copy_exact (cfg : VectorConfig) (clear : Clear n x y) :
    KernelUpdates (copyBytes cfg n (cellsFrom x) (cellsFrom y)) (n = 0 ∨ max cfg.minLen cfg.copyLaneCount ≤ n)
      (rowCells x n ∪ rowCells y n) {cell | cell < n} (cellsFrom y) (fun (memory : Nat → R) i => memory (cellsFrom x i)) := by
  have rowX : rowCells x n ⊆ rowCells x n ∪ rowCells y n := Set.subset_union_left
  have rowY : rowCells y n ⊆ rowCells x n ∪ rowCells y n := Set.subset_union_right
  rw [copyBytes]
  by_cases empty : n = 0
  · rw [if_pos empty]
    refine ⟨trivial, fun _ memory => ⟨rfl, (overwrites_nothing _ _ memory).of_eq (Set.ext fun cell => ?_)⟩,
      fun declined => absurd (.inl empty) declined⟩
    simp only [Set.mem_empty_iff_false, Set.mem_ofPred_eq, empty, Nat.not_lt_zero]
  rw [if_neg empty]
  have does : (rowLaw (fun _ => True) y (fun (memory : Nat → R) i => memory (cellsFrom x i)) (fun _ _ => ())
      (rowCells x n ∪ rowCells y n)).Does (vectorLoops cfg.copyLaneCount cfg.unrollVectors (vectorTails cfg.copyLaneCount 1) 1 n
        (fun lanes i => do
          let xv ← loadVec lanes (cellsFrom x) i
          storeVec lanes (cellsFrom y) i xv)
        (fun i => do
          let value ← Program.get (cellsFrom x i)
          Program.put (cellsFrom y i) value)) 0 n := by
    refine does_vector_loops (row_sound 1 ?_) _ (one_dvd _) (fun tail _ => one_dvd tail) (one_dvd _) _ _
      (fun lanes _ i _ fits => does_of_store ?_ (fun memory _ => ?_))
      (fun i _ fits => does_of_store ?_ (fun memory _ => ?_))
    · intro before after cell small agree
      exact agree _ (fun other small' different => clear_cell clear small small' rfl different)
    · exact (within_load_vec rowX fits).bind (fun _ _ => within_store_vec _ rowY fits)
    · rw [Program.run_do, run_load_vec]
      exact ⟨_, rfl, fun lane small => if_pos small⟩
    · exact (within_get rowX fits rfl).bind (fun _ _ => ⟨rowY ⟨i, fits, rfl⟩, trivial⟩)
    · refine ⟨fun _ => memory (cellsFrom x i), rfl, fun lane small => ?_⟩
      rw [Nat.lt_one_iff.mp small]
      rfl
  exact (kernel_updates does (fun _ => trivial)).of_iff (or_iff_right empty).symm

end Copies

section Pairs

variable {R : Type} {n x y : Nat}

-- Both vectors are loaded before either is stored.
def pairStep [Zero R] (lanes x y i : Nat) (left right : R → R → R) : Program Nat R Unit := do
  let xv ← loadVec lanes (cellsFrom x) i
  let yv ← loadVec lanes (cellsFrom y) i
  storeVec lanes (cellsFrom x) i (fun lane => left (xv lane) (yv lane))
  storeVec lanes (cellsFrom y) i (fun lane => right (xv lane) (yv lane))

def pairScalar (x y i : Nat) (left right : R → R → R) : Program Nat R Unit := do
  let xi ← Program.get (cellsFrom x i)
  let yi ← Program.get (cellsFrom y i)
  Program.put (cellsFrom x i) (left xi yi)
  Program.put (cellsFrom y i) (right xi yi)

theorem pair_exact [Zero R] (cfg : VectorConfig) (bytes : Nat) (apart : Apart n x y) (left right left' right' : R → R → R)
    (sameLeft : left' = left) (sameRight : right' = right) :
    KernelUpdates (if n < cfg.vectorThreshold then pure false else do
        vectorLoops cfg.laneCount cfg.unrollVectors (vectorTails cfg.laneCount bytes) 1 n
          (fun lanes i => pairStep lanes x y i left right) (fun i => pairScalar x y i left' right')
        pure true) (cfg.vectorThreshold ≤ n) (rowCells x n ∪ rowCells y n) {cell | cell.2 < n} (pairAddress x y)
      (fun (memory : Nat → R) (cell : Bool × Nat) =>
        (if cell.1 then right else left) (memory (cellsFrom x cell.2)) (memory (cellsFrom y cell.2))) := by
  subst sameLeft sameRight
  have rowX : rowCells x n ⊆ rowCells x n ∪ rowCells y n := Set.subset_union_left
  have rowY : rowCells y n ⊆ rowCells x n ∪ rowCells y n := Set.subset_union_right
  refine kernel_updates (does_vector_loops (pair_sound apart ?_) _ (one_dvd _) (fun tail _ => one_dvd tail) (one_dvd _) _ _
    (fun lanes _ i _ fits => does_of_stores apart fits ?_ (fun memory => ?_))
    (fun i _ fits => does_of_stores apart fits ?_ (fun memory => ?_))) (fun _ => trivial)
  · intro before after side i sameX sameY
    change (if side then right' else left') (before (x + i)) (before (y + i)) =
      (if side then right' else left') (after (x + i)) (after (y + i))
    rw [sameX, sameY]
  · exact (within_load_vec rowX fits).bind (fun _ _ => (within_load_vec rowY fits).bind (fun _ _ =>
      (within_store_vec _ rowX fits).bind (fun _ _ => within_store_vec _ rowY fits)))
  · rw [pairStep, Program.run_do, run_load_vec, Program.run_do, run_load_vec, Program.run_do]
    refine ⟨_, _, rfl, fun lane small => ?_⟩
    dsimp only
    rw [if_pos small, if_pos small]
    exact ⟨rfl, rfl⟩
  · exact (within_get rowX fits rfl).bind (fun _ _ => (within_get rowY fits rfl).bind (fun _ _ =>
      ⟨rowX ⟨i, fits, rfl⟩, rowY ⟨i, fits, rfl⟩, trivial⟩))
  · refine ⟨fun _ => left' (memory (cellsFrom x i)) (memory (cellsFrom y i)),
      fun _ => right' (memory (cellsFrom x i)) (memory (cellsFrom y i)), rfl, fun lane small => ?_⟩
    rw [Nat.lt_one_iff.mp small]
    exact ⟨rfl, rfl⟩

theorem swap_exact [Zero R] (bytes : Nat) (cfg : VectorConfig) (apart : Apart n x y) :
    KernelUpdates (swapUnitReal bytes cfg n (cellsFrom x) (cellsFrom y)) (cfg.vectorThreshold ≤ n)
      (rowCells x n ∪ rowCells y n) {cell | cell.2 < n} (pairAddress x y)
      (fun (memory : Nat → R) (cell : Bool × Nat) =>
        (if cell.1 then fun xi _ => xi else fun _ yi => yi) (memory (cellsFrom x cell.2)) (memory (cellsFrom y cell.2))) :=
  pair_exact cfg bytes apart (fun _ yi => yi) (fun xi _ => xi) _ _ rfl rfl

variable [CommRing R]

theorem rot_exact (bytes : Nat) (cfg : VectorConfig) (c s : R) (apart : Apart n x y) :
    KernelUpdates (rotUnitReal bytes cfg n (cellsFrom x) (cellsFrom y) c s) (cfg.vectorThreshold ≤ n)
      (rowCells x n ∪ rowCells y n) {cell | cell.2 < n} (pairAddress x y)
      (fun memory cell => (if cell.1 then fun xi yi => c * yi - s * xi else fun xi yi => c * xi + s * yi)
        (memory (cellsFrom x cell.2)) (memory (cellsFrom y cell.2))) := by
  have left : (fun xi yi : R => c * xi + s * yi) = fun xi yi => xi * c + yi * s := by
    funext xi yi
    ring
  have right : (fun xi yi : R => c * yi - s * xi) = fun xi yi => xi * -s + yi * c := by
    funext xi yi
    ring
  have right' : (fun xi yi : R => -xi * s + c * yi) = fun xi yi => xi * -s + yi * c := by
    funext xi yi
    ring
  rw [left, right]
  exact pair_exact cfg bytes apart (fun xi yi => xi * c + yi * s) (fun xi yi => xi * -s + yi * c) _ _ left right'

def rotmRow [LinearOrder R] (flag h11 h21 h12 h22 : R) (second : Bool) (w z : R) : R :=
  if flag < 0 then (if second then h21 * w + h22 * z else h11 * w + h12 * z)
  else if flag = 0 then (if second then h21 * w + z else w + h12 * z)
  else (if second then h22 * z - w else h11 * w + z)

theorem rotm_exact [LinearOrder R] (bytes : Nat) (cfg : VectorConfig) (flag h11 h21 h12 h22 : R) (apart : Apart n x y) :
    KernelUpdates (rotmUnitReal bytes cfg n (cellsFrom x) (cellsFrom y) flag h11 h21 h12 h22)
      (flag = -2 ∨ cfg.vectorThreshold ≤ n) (rowCells x n ∪ rowCells y n) {cell | flag ≠ -2 ∧ cell.2 < n} (pairAddress x y)
      (fun memory cell => rotmRow flag h11 h21 h12 h22 cell.1 (memory (cellsFrom x cell.2)) (memory (cellsFrom y cell.2))) := by
  rw [rotmUnitReal]
  by_cases identity : flag = -2
  · rw [if_pos identity]
    refine ⟨trivial, fun _ memory => ⟨rfl, (overwrites_nothing _ _ memory).of_eq (Set.ext fun cell => ?_)⟩,
      fun declined => absurd (.inl identity) declined⟩
    simp only [Set.mem_empty_iff_false, Set.mem_ofPred_eq, identity, ne_eq, not_true_eq_false, false_and]
  rw [if_neg identity]
  have kernel : ∀ mode, KernelUpdates (if n < cfg.vectorThreshold then pure false else do
      rotmUnitRealMode bytes cfg mode n (cellsFrom x) (cellsFrom y) h11 h21 h12 h22
      pure true) (cfg.vectorThreshold ≤ n) (rowCells x n ∪ rowCells y n) {cell | cell.2 < n} (pairAddress x y)
      (fun (memory : Nat → R) (cell : Bool × Nat) =>
        (if cell.1 then fun w z => (rotmValue mode h11 h21 h12 h22 w z).2 else fun w z => (rotmValue mode h11 h21 h12 h22 w z).1)
          (memory (cellsFrom x cell.2)) (memory (cellsFrom y cell.2))) := fun mode =>
    pair_exact cfg bytes apart (fun w z => (rotmValue mode h11 h21 h12 h22 w z).1)
      (fun w z => (rotmValue mode h11 h21 h12 h22 w z).2) _ _ rfl rfl
  have cells : {cell : Bool × Nat | cell.2 < n} = {cell : Bool × Nat | flag ≠ -2 ∧ cell.2 < n} :=
    Set.ext fun cell => (and_iff_right identity).symm
  have accepted : cfg.vectorThreshold ≤ n ↔ flag = -2 ∨ cfg.vectorThreshold ≤ n := (or_iff_right identity).symm
  by_cases negative : flag < 0
  · simp only [if_pos negative]
    refine ((kernel .full).congr cells ?_).of_iff accepted
    rintro memory ⟨side, i⟩
    cases side <;> simp only [rotmValue, rotmRow, if_pos negative, if_true, Bool.false_eq_true, if_false] <;> ring
  by_cases zero : flag = 0
  · simp only [if_neg negative, if_pos zero]
    refine ((kernel .unitDiagonal).congr cells ?_).of_iff accepted
    rintro memory ⟨side, i⟩
    cases side <;> simp only [rotmValue, rotmRow, if_neg negative, if_pos zero, if_true, Bool.false_eq_true, if_false] <;> ring
  · simp only [if_neg negative, if_neg zero]
    refine ((kernel .offDiagonal).congr cells ?_).of_iff accepted
    rintro memory ⟨side, i⟩
    cases side <;> simp only [rotmValue, rotmRow, if_neg negative, if_neg zero, if_true, Bool.false_eq_true, if_false] <;> ring

end Pairs

end Zynum.FixedVector
