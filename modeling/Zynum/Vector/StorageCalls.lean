import Zynum.Vector.StorageBound

set_option autoImplicit false

/- The other routines on two vectors, dot and asum against the required storage. -/
namespace Zynum.LevelOne

open ArrayProgram
open Element (width parts whole fromReal)

section Calls

variable {R T : Type} [CommRing R] [LinearOrder R] [CommRing T] [Element R T] [LawfulElement R T] {n : Int}
  {xStart yStart : Nat}

omit [LinearOrder R] [CommRing T] [LawfulElement R T] in
theorem copy_in_storage (machine : VectorMachine) (site : Site) (positive : 1 ≤ n) :
    InStorage (copy (R := R) T machine site n xStart yStart (cellsOf false) 2 (cellsOf true) 2) (width T) (toUsize n) := by
  rw [copy, if_neg (by omega), if_neg (by omega)]
  exact in_storage (singles_within (fun _ _ inside => within_copy_block (inside false) (inside true)))

variable (T) in
def axpbyOverruns (machine : VectorMachine) (site : Site) (n : Int) (alpha beta : T) (xStart yStart : Nat) : Prop :=
  if isZero alpha then scalOverruns T machine (0 :: site) n beta
  else if isOne beta then axpyOverruns T machine (1 :: site) n xStart yStart
  else if isOne alpha && isZero beta then False
  else (!isReal T && decide (Scalar.precision T = .single)) = true ∧ stride2Overlap T (toUsize n) xStart yStart = false ∧
    stride2Lanes machine T ∣ toUsize n

omit [LinearOrder R] in
theorem axpby_in_storage (xStart yStart : Nat) (machine : VectorMachine) (site : Site) (alpha beta : T) (positive : 1 ≤ n) :
    InStorage (axpby machine site n alpha beta xStart yStart (cellsOf false) 2 (cellsOf true) 2) (width T) (toUsize n) ↔
      ¬ axpbyOverruns T machine site n alpha beta xStart yStart := by
  have some : 0 < width T := LawfulElement.width_pos
  have several : 0 < toUsize n := by simp only [toUsize]; omega
  rw [axpby, if_neg (by omega), axpbyOverruns]
  cases noAlpha : isZero alpha with
  | true => exact scal_in_storage machine _ beta true positive
  | false =>
    rw [if_neg Bool.false_ne_true, if_neg Bool.false_ne_true]
    cases oneBeta : isOne beta with
    | true =>
      refine (axpy_in_storage xStart yStart machine (1 :: site) alpha positive).trans ?_
      exact ⟨fun clear bad => clear ⟨noAlpha, bad⟩, fun clear bad => clear bad.2⟩
    | false =>
      rw [if_neg Bool.false_ne_true, if_neg Bool.false_ne_true]
      cases plain : isOne alpha && isZero beta with
      | true =>
        rw [if_pos rfl, if_pos rfl]
        exact ⟨fun _ bad => bad, fun _ => copy_in_storage machine (2 :: site) positive⟩
      | false =>
        rw [if_neg Bool.false_ne_true, if_neg Bool.false_ne_true, if_neg (by omega)]
        split
        · rename_i blocks
          obtain ⟨_, _, kind, far⟩ := blocks
          rw [Bool.not_eq_true'] at far
          have route := (second_block_route (n := toUsize n) false (stride2Lanes machine T) some
            (axpbyRule (R := R) alpha beta)).serial_iff (B := Unit) some several site
          exact route.trans ⟨fun clear bad => clear bad.2.2, fun clear divides => clear ⟨kind, far, divides⟩⟩
        · rename_i other
          refine ⟨fun _ bad => other ⟨rfl, rfl, bad.1, ?_⟩, fun _ => in_storage ?_⟩
          · rw [bad.2.1]
            rfl
          · exact singles_within (fun _ _ inside => within_update_second _ (inside false) (inside true))

omit [LinearOrder R] in
theorem dot_in_storage (machine : VectorMachine) (site : Site) (conjx : Bool) (positive : 1 ≤ n) :
    InStorage (dot (R := R) (T := T) machine site n (cellsOf false) 2 (cellsOf true) 2 conjx) (width T) (toUsize n) ↔
      ¬ (isReal T = true ∧ stride2Lanes machine T ∣ toUsize n) := by
  have some : 0 < width T := LawfulElement.width_pos
  have several : 0 < toUsize n := by simp only [toUsize]; omega
  rw [dot, if_neg (by omega), if_neg (by omega)]
  split
  · rename_i blocks
    have route := (dot_block_route (R := R) (T := T) (n := toUsize n) false (stride2Lanes machine T) conjx some).serial_iff
      (B := T) some several site
    exact route.trans ⟨fun clear bad => clear bad.2, fun clear divides => clear ⟨blocks.1, divides⟩⟩
  · rename_i other
    refine ⟨fun _ bad => other ⟨bad.1, rfl, rfl⟩, fun _ => in_storage ?_⟩
    exact singles_within (fun _ sum inside => within_sum_two _ sum (inside false) (inside true))

omit [LinearOrder R] in
theorem dot_f32_acc_f64_in_storage (machine : VectorMachine) (site : Site) (positive : 1 ≤ n) :
    InStorage (dotF32AccF64 (R := R) machine site n (cellsOf false) 2 (cellsOf true) 2) 1 (toUsize n) ↔
      ¬ 4 ∣ toUsize n := by
  have several : 0 < toUsize n := by simp only [toUsize]; omega
  rw [dotF32AccF64, if_neg (by omega), if_neg (by omega), if_pos (by omega)]
  exact (acc_block_route (R := R) (n := toUsize n) false).serial_iff Nat.one_pos several site

theorem asum_in_storage (machine : VectorMachine) (site : Site) (positive : 1 ≤ n) :
    InStorage (asum (R := R) T machine site n (cellsOf false) 2) (width T) (toUsize n) ↔
      ¬ (isReal T = true ∧ stride2Lanes machine T ∣ toUsize n) := by
  have some : 0 < width T := LawfulElement.width_pos
  have several : 0 < toUsize n := by simp only [toUsize]; omega
  rw [asum, if_neg (by omega), if_neg (by omega)]
  split
  · rename_i blocks
    have route := (asum_block_route (R := R) (n := toUsize n) false (stride2Lanes machine T) some).serial_iff
      (B := R) some several site
    exact route.trans ⟨fun clear bad => clear bad.2, fun clear divides => clear ⟨blocks.1, divides⟩⟩
  · rename_i other
    refine ⟨fun _ bad => other ⟨bad.1, rfl⟩, fun _ => in_storage ?_⟩
    exact singles_within (fun _ sum inside => within_sum_one _ sum (inside false))

omit [LinearOrder R] in
theorem rot_in_storage (machine : VectorMachine) (site : Site) (c : R) (s : T) (positive : 1 ≤ n) :
    InStorage (rot machine site n xStart yStart (cellsOf false) 2 (cellsOf true) 2 c s) (width T) (toUsize n) ↔
      ¬ ((isReal T || Scalar.imagIsZero s) = true ∧ stride2Overlap T (toUsize n) xStart yStart = false ∧
        stride2Lanes machine T ∣ toUsize n) := by
  have some : 0 < width T := LawfulElement.width_pos
  have several : 0 < toUsize n := by simp only [toUsize]; omega
  rw [rot, if_neg (by omega), if_neg (by omega)]
  split
  · rename_i blocks
    obtain ⟨_, _, flat, far⟩ := blocks
    rw [Bool.not_eq_true'] at far
    have route := (both_block_route (n := toUsize n) false (stride2Lanes machine T) some
      (realRotRule c (parts s 0))).serial_iff (B := Unit) some several site
    exact route.trans ⟨fun clear bad => clear bad.2.2, fun clear divides => clear ⟨flat, far, divides⟩⟩
  · rename_i other
    refine ⟨fun _ bad => other ⟨rfl, rfl, bad.1, ?_⟩, fun _ => both_strided_inside _⟩
    rw [bad.2.1]
    rfl

theorem rotm_in_storage (machine : VectorMachine) (site : Site) (param : Nat → R) (positive : 1 ≤ n) :
    InStorage (rotm T machine site n xStart yStart (cellsOf false) 2 (cellsOf true) 2 param) (width T) (toUsize n) ↔
      ¬ (param 0 ≠ -2 ∧ isReal T = true ∧ stride2Overlap T (toUsize n) xStart yStart = false ∧
        stride2Lanes machine T ∣ toUsize n) := by
  have some : 0 < width T := LawfulElement.width_pos
  have several : 0 < toUsize n := by simp only [toUsize]; omega
  by_cases still : param 0 = -2
  · rw [rotm, if_neg (by omega), if_pos still]
    exact ⟨fun _ bad => bad.1 still, fun _ => finished_in_storage⟩
  · rw [rotm, if_neg (by omega), if_neg still]
    change InStorage (if isReal T = true ∧ (2 : Int) = 1 ∧ (2 : Int) = 1 then _ else _) _ _ ↔ _
    rw [if_neg (by omega)]
    split
    · rename_i blocks
      obtain ⟨kind, _, _, far⟩ := blocks
      rw [Bool.not_eq_true'] at far
      have route := (both_block_route (n := toUsize n) false (stride2Lanes machine T) some
        (rotmRule (readParam param))).serial_iff (B := Unit) some several site
      exact route.trans ⟨fun clear bad => clear bad.2.2.2, fun clear divides => clear ⟨still, kind, far, divides⟩⟩
    · rename_i other
      refine ⟨fun _ bad => other ⟨bad.2.1, rfl, rfl, ?_⟩, fun _ => both_strided_inside _⟩
      rw [bad.2.2.1]
      rfl

end Calls

end Zynum.LevelOne
