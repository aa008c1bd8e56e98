import Zynum.Vector.StorageCalls
import Zynum.Vector.SearchStorage

set_option autoImplicit false

/- Every Level 1 routine with increments of 2 against the 2 * n - 1 elements its
   caller has to provide. The loops of operations.zig run up to the end, where a
   whole last block brings the gap behind the last element along; the strict loops
   of stride2_parallel.zig leave the last element to a scalar step. -/
namespace Zynum.LevelOne

open Element (width parts whole fromReal)

inductive Stride2Call (R T : Type) where
  | scal (alpha : T)
  | rscal (alpha : R)
  | copy
  | swap
  | axpy (alpha : T)
  | axpby (alpha beta : T)
  | dot (conjx : Bool)
  | dotF32AccF64
  | asum
  | nrm2
  | iamax
  | rot (c : R) (s : T)
  | rotm (param : Nat → R)

section Calls

variable {R T : Type} [CommRing R] [LinearOrder R] [CommRing T] [Element R T]

-- The routine, as its export calls it.
def Stride2Call.InStorage (call : Stride2Call R T) (machine : VectorMachine) (ops : FloatOps R) (site : Site) (n : Int)
    (xStart yStart : Nat) : Prop :=
  let x := cellsOf false
  let y := cellsOf true
  let inside {B A : Type} (execution : ArrayProgram.Execution (Bool × Nat) R B A) : Prop :=
    LevelOne.InStorage execution (width T) (toUsize n)
  match call with
  | .scal alpha => inside (LevelOne.scal machine site n alpha x 2)
  | .rscal alpha => inside (LevelOne.rscal T machine site n alpha x 2)
  | .copy => inside (LevelOne.copy (R := R) T machine site n xStart yStart x 2 y 2)
  | .swap => inside (LevelOne.swap (R := R) T machine site n xStart yStart x 2 y 2)
  | .axpy alpha => inside (LevelOne.axpy machine site n alpha xStart yStart x 2 y 2)
  | .axpby alpha beta => inside (LevelOne.axpby machine site n alpha beta xStart yStart x 2 y 2)
  | .dot conjx => inside (LevelOne.dot (R := R) (T := T) machine site n x 2 y 2 conjx)
  | .dotF32AccF64 => LevelOne.InStorage (LevelOne.dotF32AccF64 (R := R) machine site n x 2 y 2) 1 (toUsize n)
  | .asum => inside (LevelOne.asum (R := R) T machine site n x 2)
  | .nrm2 => inside (LevelOne.nrm2 T machine ops site n x 2)
  | .iamax => inside (LevelOne.iamax T machine ops site n x 2)
  | .rot c s => inside (LevelOne.rot machine site n xStart yStart x 2 y 2 c s)
  | .rotm param => inside (LevelOne.rotm T machine site n xStart yStart x 2 y 2 param)

-- Every call that stride2_dispatch.zig takes; copy has no strict loop.
def Stride2Call.StrictInStorage (call : Stride2Call R T) (machine : VectorMachine) (ops : FloatOps R) (site : Site)
    (n : Int) (xStart yStart : Nat) : Prop :=
  let x := cellsOf false
  let y := cellsOf true
  let inside {B A : Type} (taken : Option (ArrayProgram.Execution (Bool × Nat) R B A)) : Prop :=
    ∀ execution, taken = some execution → LevelOne.InStorage execution (width T) (toUsize n)
  match call with
  | .scal alpha => inside (stride2Scal machine site n alpha x 2)
  | .rscal alpha => inside (stride2Rscal T machine site n alpha x 2)
  | .copy => True
  | .swap => inside (stride2Swap (R := R) T machine site n xStart yStart x 2 y 2)
  | .axpy alpha => inside (stride2Axpy machine site n alpha xStart yStart x 2 y 2)
  | .axpby alpha beta => inside (stride2Axpby machine site n alpha beta xStart yStart x 2 y 2)
  | .dot conjx => inside (stride2Dot (R := R) (T := T) machine site n x 2 y 2 conjx)
  | .dotF32AccF64 => ∀ execution, stride2DotF32AccF64 (R := R) machine site n x 2 y 2 = some execution →
      LevelOne.InStorage execution 1 (toUsize n)
  | .asum => inside (stride2Asum (R := R) T machine site n x 2)
  | .nrm2 => inside (stride2Nrm2 T machine ops site n x 2)
  | .iamax => inside (stride2Iamax T machine ops site n x 2)
  | .rot c s => inside (stride2Rot machine site n xStart yStart x 2 y 2 c s)
  | .rotm param => inside (stride2Rotm T machine site n xStart yStart x 2 y 2 param)

-- Whole blocks fill the vector, or the last chunk of it where the routine forks.
def Stride2Call.Overruns (call : Stride2Call R T) (machine : VectorMachine) (site : Site) (n : Int)
    (xStart yStart : Nat) : Prop :=
  let whole := stride2Lanes machine T ∣ toUsize n
  let apart := stride2Overlap T (toUsize n) xStart yStart = false
  match call with
  | .scal alpha => scalOverruns T machine site n alpha
  | .rscal alpha => alpha ≠ 1 ∧ scalOverruns T machine site n (fromReal alpha)
  | .copy => False
  | .swap => swapOverruns T machine site n xStart yStart
  | .axpy alpha => isZero alpha = false ∧ axpyOverruns T machine site n xStart yStart
  | .axpby alpha beta => axpbyOverruns T machine site n alpha beta xStart yStart
  | .dot _ | .asum => isReal T = true ∧ whole
  | .dotF32AccF64 => 4 ∣ toUsize n
  | .nrm2 => whole
  | .iamax => isReal T = false ∧ whole
  | .rot _ s => (isReal T || Scalar.imagIsZero s) = true ∧ apart ∧ whole
  | .rotm param => param 0 ≠ -2 ∧ isReal T = true ∧ apart ∧ whole

variable [LawfulElement R T]

theorem strict_loops_in_storage (call : Stride2Call R T) (machine : VectorMachine) (ops : FloatOps R) (site : Site)
    (n : Int) (xStart yStart : Nat) (positive : 1 ≤ n) : call.StrictInStorage machine ops site n xStart yStart := by
  have some : 0 < width T := LawfulElement.width_pos
  have several : 0 < toUsize n := by simp only [toUsize]; omega
  cases call with
  | scal alpha => exact strict_inside (update_block_route true _ false some _) several
  | rscal alpha => exact strict_inside (update_block_route true _ false some _) several
  | copy => exact trivial
  | swap => exact strict_inside (both_block_route true _ some _) several
  | axpy alpha =>
    intro execution accepted
    obtain ⟨_, accepted⟩ := Option.ite_none_left_eq_some.mp accepted
    exact strict_inside (second_block_route true _ some _) several execution accepted
  | axpby alpha beta =>
    intro execution accepted
    obtain ⟨_, accepted⟩ := Option.ite_none_left_eq_some.mp accepted
    exact strict_inside (second_block_route true _ some _) several execution accepted
  | dot conjx => exact strict_inside (dot_block_route true _ conjx some) several
  | dotF32AccF64 => exact strict_inside (acc_block_route true) several
  | asum => exact strict_inside (asum_block_route true _ some) several
  | nrm2 => exact stride2_nrm2_inside machine site
  | iamax => exact stride2_iamax_inside ops machine site positive
  | rot c s =>
    intro execution accepted
    obtain ⟨_, accepted⟩ := Option.ite_none_right_eq_some.mp accepted
    exact strict_inside (both_block_route true _ some _) several execution accepted
  | rotm param =>
    intro execution accepted
    obtain ⟨_, accepted⟩ := Option.ite_none_left_eq_some.mp accepted
    exact strict_inside (both_block_route true _ some _) several execution accepted

theorem stride2_routines_in_storage (call : Stride2Call R T) (machine : VectorMachine) (ops : FloatOps R) (site : Site)
    (n : Int) (xStart yStart : Nat) (positive : 1 ≤ n) :
    (call.InStorage machine ops site n xStart yStart ↔ ¬ call.Overruns machine site n xStart yStart) ∧
      call.StrictInStorage machine ops site n xStart yStart := by
  refine ⟨?_, strict_loops_in_storage call machine ops site n xStart yStart positive⟩
  cases call with
  | scal alpha => exact scal_in_storage machine site alpha false positive
  | rscal alpha => exact rscal_in_storage machine site alpha positive
  | copy => exact ⟨fun _ bad => bad, fun _ => copy_in_storage machine site positive⟩
  | swap => exact swap_in_storage machine site positive
  | axpy alpha => exact axpy_in_storage xStart yStart machine site alpha positive
  | axpby alpha beta => exact axpby_in_storage xStart yStart machine site alpha beta positive
  | dot conjx => exact dot_in_storage machine site conjx positive
  | dotF32AccF64 => exact dot_f32_acc_f64_in_storage machine site positive
  | asum => exact asum_in_storage machine site positive
  | nrm2 => exact nrm2_in_storage machine site positive
  | iamax => exact iamax_in_storage ops machine site positive
  | rot c s => exact rot_in_storage machine site c s positive
  | rotm param => exact rotm_in_storage machine site param positive

end Calls

section Witnesses

-- Integers below 2 ^ 1024 in magnitude are finite.
def integerOps : FloatOps ℤ where
  divide := (· / ·)
  sqrt value := Nat.sqrt value.toNat
  isFinite value := decide (|value| < 2 ^ 1024)
  isNan _ := false

-- Eight elements of f64 fill a vector of eight lanes: dot reads x[15] of 15 elements.
theorem dot_reads_behind_storage :
    ¬ @Stride2Call.InStorage ℤ ℤ _ _ _ (realElement ℤ .double) (.dot false) portableMachine integerOps [] 8 0 15 := by
  let _ := realElement ℤ .double
  have lawful : LawfulElement ℤ ℤ := real_element_lawful ℤ .double
  intro inside
  refine (dot_in_storage (R := ℤ) (T := ℤ) (n := 8) portableMachine [] false (by decide)).mp inside ?_
  exact ⟨rfl, 1, rfl⟩

-- Seven elements leave no whole block at the end, and sixteen in two strict tasks end in single elements.
theorem stride2_routines_in_storage_seven :
    @Stride2Call.InStorage ℤ ℤ _ _ _ (realElement ℤ .double) (.dot false) portableMachine integerOps [] 7 0 15 ∧
      (∃ execution, @stride2Swap _ ℤ ℤ _ (realElement ℤ .double) splitVectors [] 16 0 31 (cellsOf false) 2
        (cellsOf true) 2 = some execution ∧ InStorage execution 1 16) := by
  let _ := realElement ℤ .double
  have lawful : LawfulElement ℤ ℤ := real_element_lawful ℤ .double
  have law := stride2_routines_in_storage (R := ℤ) (T := ℤ) (.dot false) portableMachine integerOps [] 7 0 15 (by decide)
  have strict := (stride2_routines_in_storage (R := ℤ) (T := ℤ) .swap splitVectors integerOps [] 16 0 31 (by decide)).2
  refine ⟨law.1.mpr (fun bad => ?_), _, rfl, strict _ rfl⟩
  have divides : 8 ∣ 7 := bad.2
  exact absurd divides (by decide)

end Witnesses

end Zynum.LevelOne
