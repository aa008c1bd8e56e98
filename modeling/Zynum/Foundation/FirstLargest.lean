import Zynum.Foundation.Loop
import Zynum.Foundation.WithNan

set_option autoImplicit false

/- The first largest number of a range in which some values are not numbers: the
   scan that keeps the best value so far, and what lets a scan skip a block. -/
namespace Search

open ArrayProgram WithNan

variable {K : Type} [LinearOrder K]

def better (index : Nat) (value : WithNan K) (best : Nat × WithNan K) : Nat × WithNan K :=
  if best.2.less value then (index, value) else best

def scanRange (value : Nat → WithNan K) (first last : Nat) (best : Nat × WithNan K) : Nat × WithNan K :=
  loopRange first last (fun i => better i (value i)) best

structure FirstLargest (value : Nat → WithNan K) (first last i : Nat) (m : K) : Prop where
  lower : first ≤ i
  upper : i < last
  here : value i = number m
  largest : ∀ j a, first ≤ j → j < last → value j = number a → a ≤ m
  earlier : ∀ j a, first ≤ j → j < i → value j = number a → a < m

variable {value value' : Nat → WithNan K} {first middle last : Nat}

theorem better_nan (index : Nat) (best : Nat × WithNan K) : better index nan best = best := by
  rw [better, less_nan]
  exact if_neg Bool.false_ne_true

theorem better_of_nan (index i : Nat) (value : WithNan K) : better index value (i, nan) = (i, nan) := if_neg nofun

theorem better_number (index k : Nat) (a b : K) :
    better index (number a) (k, number b) = if b < a then (index, number a) else (k, number b) := by
  rw [better, less_number]
  by_cases larger : b < a
  · rw [if_pos larger, decide_eq_true larger, if_pos rfl]
  · rw [if_neg larger, decide_eq_false larger, if_neg Bool.false_ne_true]

theorem scan_append (middle : Nat) (best : Nat × WithNan K) (before : first ≤ middle) (after : middle ≤ last) :
    scanRange value middle last (scanRange value first middle best) = scanRange value first last best :=
  loop_range_append first middle last _ best before after

theorem scan_congr (best : Nat × WithNan K) (same : ∀ i, first ≤ i → i < last → value i = value' i) :
    scanRange value first last best = scanRange value' first last best := by
  refine loop_congr _ _ _ best (fun step current small => ?_)
  dsimp only
  rw [same (first + step) (by omega) (by omega)]

theorem scan_nans (best : Nat × WithNan K) (absent : ∀ i, first ≤ i → i < last → value i = nan) :
    scanRange value first last best = best := by
  refine loop_fixed _ _ best (fun step small => ?_)
  dsimp only
  rw [absent (first + step) (by omega) (by omega), better_nan]

theorem scan_of_nan (value : Nat → WithNan K) (first last i : Nat) : scanRange value first last (i, nan) = (i, nan) :=
  loop_fixed _ _ _ (fun _ _ => better_of_nan _ i _)

theorem scan_below (k : Nat) (b : K) (below : ∀ j a, first ≤ j → j < last → value j = number a → a ≤ b) :
    scanRange value first last (k, number b) = (k, number b) := by
  refine loop_fixed _ _ _ (fun step small => ?_)
  dsimp only
  cases here : value (first + step) with
  | nan => exact better_nan _ _
  | number a =>
    rw [better_number, if_neg (not_lt.mpr (below _ a (by omega) (by omega) here))]

theorem scan_grows (value : Nat → WithNan K) (first last k : Nat) (b : K) : ∃ k' b', scanRange value first last
    (k, number b) = (k', number b') ∧ b ≤ b' := by
  refine loop_invariant (last - first) _ (k, number b) (fun _ best => ∃ k' b', best = (k', number b') ∧ b ≤ b')
    ⟨k, b, rfl, le_refl b⟩ ?_
  rintro step _ _ ⟨k', b', rfl, above⟩
  dsimp only
  cases value (first + step) with
  | nan =>
    rw [better_nan]
    exact ⟨k', b', rfl, above⟩
  | number a =>
    rw [better_number]
    split
    · rename_i larger
      exact ⟨_, a, rfl, above.trans larger.le⟩
    · exact ⟨k', b', rfl, above⟩

theorem scan_stays_less (k : Nat) {b m : K} (less : b < m)
    (below : ∀ j a, first ≤ j → j < last → value j = number a → a < m) :
    ∃ k' b', scanRange value first last (k, number b) = (k', number b') ∧ b' < m := by
  refine loop_invariant (last - first) _ (k, number b) (fun _ best => ∃ k' b', best = (k', number b') ∧ b' < m)
    ⟨k, b, rfl, less⟩ ?_
  rintro step _ small ⟨k', b', rfl, less'⟩
  dsimp only
  cases here : value (first + step) with
  | nan =>
    rw [better_nan]
    exact ⟨k', b', rfl, less'⟩
  | number a =>
    rw [better_number]
    split
    · exact ⟨_, a, rfl, below _ a (by omega) (by omega) here⟩
    · exact ⟨k', b', rfl, less'⟩

theorem FirstLargest.scan_above {i : Nat} {m : K} (found : FirstLargest value first last i m) (k : Nat) {b : K}
    (less : b < m) : scanRange value first last (k, number b) = (i, number m) := by
  obtain ⟨k', b', before, less'⟩ := scan_stays_less k less found.earlier
  have here : scanRange value i (i + 1) (k', number b') = (i, number m) := by
    rw [scanRange, loopRange, Nat.add_sub_cancel_left, loop_succ, loop_zero, Nat.add_zero, found.here, better_number, if_pos less']
  rw [← scan_append i _ found.lower found.upper.le, before,
    ← scan_append (i + 1) _ (Nat.le_succ i) found.upper, here]
  exact scan_below i m (fun j a low high => found.largest j a (by have := found.lower; omega) high)

theorem FirstLargest.below {i : Nat} {m : K} (found : FirstLargest value first last i m) (k : Nat) {b : K}
    (above : m ≤ b) : scanRange value first last (k, number b) = (k, number b) :=
  scan_below k b (fun j a low high here => (found.largest j a low high here).trans above)

theorem FirstLargest.better {i : Nat} {m : K} (found : FirstLargest value first last i m) (best : Nat × WithNan K) :
    better i (value i) best = scanRange value first last best := by
  obtain ⟨k, value'⟩ := best
  cases value' with
  | nan => rw [better_of_nan, scan_of_nan]
  | number b =>
    rw [found.here, better_number]
    split
    · rename_i less
      exact (found.scan_above k less).symm
    · rename_i above
      exact (found.below k (not_lt.mp above)).symm

theorem first_largest_exists (value : Nat → WithNan K) (first last : Nat) :
    (∀ i, first ≤ i → i < last → value i = nan) ∨ ∃ i m, FirstLargest value first last i m := by
  induction last with
  | zero => exact .inl (fun i _ high => absurd high (Nat.not_lt_zero i))
  | succ last ih =>
    by_cases reached : first ≤ last
    · cases here : value last with
      | nan =>
        rcases ih with absent | ⟨i, m, found⟩
        · refine .inl (fun i low high => ?_)
          rcases Nat.lt_succ_iff_lt_or_eq.mp high with before | rfl
          · exact absent i low before
          · exact here
        · refine .inr ⟨i, m, found.lower, Nat.lt_succ_of_lt found.upper, found.here, fun j a low high same => ?_, found.earlier⟩
          rcases Nat.lt_succ_iff_lt_or_eq.mp high with before | rfl
          · exact found.largest j a low before same
          · rw [here] at same; exact nomatch same
      | number a =>
        rcases ih with absent | ⟨i, m, found⟩
        · refine .inr ⟨last, a, reached, Nat.lt_succ_self last, here, fun j b low high same => ?_, fun j b low high same => ?_⟩
          · rcases Nat.lt_succ_iff_lt_or_eq.mp high with before | rfl
            · rw [absent j low before] at same; exact nomatch same
            · rw [here] at same; exact (number.inj same).ge
          · rw [absent j low high] at same; exact nomatch same
        · by_cases larger : m < a
          · refine .inr ⟨last, a, reached, Nat.lt_succ_self last, here, fun j b low high same => ?_, fun j b low high same => ?_⟩
            · rcases Nat.lt_succ_iff_lt_or_eq.mp high with before | rfl
              · exact (found.largest j b low before same).trans larger.le
              · rw [here] at same; exact (number.inj same).ge
            · exact (found.largest j b low high same).trans_lt larger
          · refine .inr ⟨i, m, found.lower, Nat.lt_succ_of_lt found.upper, found.here, fun j b low high same => ?_, found.earlier⟩
            rcases Nat.lt_succ_iff_lt_or_eq.mp high with before | rfl
            · exact found.largest j b low before same
            · rw [here] at same
              exact number.inj same ▸ not_lt.mp larger
    · exact .inl (fun i low high => by omega)

theorem FirstLargest.unique {i i' : Nat} {m m' : K} (found : FirstLargest value first last i m)
    (found' : FirstLargest value first last i' m') : i = i' := by
  have le := found.largest i' m' found'.lower found'.upper found'.here
  have ge := found'.largest i m found.lower found.upper found.here
  rcases Nat.lt_trichotomy i i' with before | same | after
  · exact absurd (found'.earlier i m found.lower before found.here) (not_lt.mpr le)
  · exact same
  · exact absurd (found.earlier i' m' found'.lower after found'.here) (not_lt.mpr ge)

theorem scan_start (value : Nat → WithNan K) {b : K} (start : value first = number b) (some : first < last) :
    ∃ i m, FirstLargest value first last i m ∧ scanRange value first last (first, number b) = (i, number m) := by
  rcases first_largest_exists value first last with absent | ⟨i, m, found⟩
  · rw [absent first (Nat.le_refl first) some] at start
    exact nomatch start
  · refine ⟨i, m, found, ?_⟩
    rcases lt_or_eq_of_le (found.largest first b (Nat.le_refl first) some start) with less | same
    · exact found.scan_above first less
    · have at_first : i = first := by
        refine Nat.le_antisymm (not_lt.mp (fun later => ?_)) found.lower
        exact absurd (found.earlier first b (Nat.le_refl first) later start) (not_lt.mpr same.ge)
      rw [found.below first same.ge, at_first, same]

end Search
