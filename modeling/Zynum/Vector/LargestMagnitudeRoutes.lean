import Zynum.Vector.Elementwise
import Zynum.Vector.LargestMagnitudeLeaves

set_option autoImplicit false

/- iamax on every route. A task of the unit route that starts at an element that
   is not a number offers that element, and the rest of its share is not heard. -/
namespace Zynum.Iamax

open ArrayProgram LevelOne WithNan Search

variable {K : Type} [AddCommGroup K] [LinearOrder K]

section Candidates

variable {value : Nat → WithNan K} {first last : Nat}

-- What is left of a value when the share it lies in starts with something that is not a number.
def heardFrom (value : Nat → WithNan K) (first i : Nat) : WithNan K := if value first = nan then nan else value i

omit [AddCommGroup K] in
theorem largest_index_found {b : K} (start : value first = number b) (some : first < last) :
    ∃ m, FirstLargest value first last (largestIndex value first last) m := by
  obtain ⟨i, m, found, ends⟩ := scan_start value start some
  rw [← start, scan_from_first value some] at ends
  rw [largestIndex, ends]
  exact ⟨m, found⟩

omit [AddCommGroup K] in
theorem largest_index_nan (start : value first = nan) : largestIndex value first last = first := by
  rw [largestIndex, start, scan_of_nan]

theorem unit_candidate (x : Operand Nat) (memory : Nat → WithNan K) (first last : Nat) (ordered : first ≤ last)
    (best : Nat × WithNan K) :
    (if leafAnswer x memory first last = 0 then best
      else Search.better (first + (leafAnswer x memory first last - 1))
        (magnitude x memory (first + (leafAnswer x memory first last - 1))) best) =
      scanRange (heardFrom (magnitude x memory) first) first last best := by
  rcases Nat.eq_or_lt_of_le ordered with rfl | some
  · rw [leafAnswer, if_pos rfl, if_pos rfl]
    exact (scan_nans best (fun i low high => by omega)).symm
  rw [leaf_answer_some memory x some, if_neg (Nat.succ_ne_zero _), Nat.add_sub_cancel]
  cases start : magnitude x memory first with
  | nan =>
    rw [largest_index_nan start, Nat.sub_self, Nat.add_zero, start, better_nan]
    exact (scan_nans best (fun i _ _ => if_pos start)).symm
  | number b =>
    obtain ⟨m, found⟩ := largest_index_found start some
    have present : magnitude x memory first ≠ nan := by
      rw [start]
      exact fun same => by cases same
    rw [Nat.add_sub_cancel' found.lower, found.better best]
    exact scan_congr best (fun i _ _ => (if_neg present).symm)

-- A task that skips what is not a number first offers the largest of its whole share.
theorem stride2_candidate (x : Operand Nat) (memory : Nat → WithNan K) (first found last : Nat) (low : first ≤ found)
    (high : found ≤ last) (skipped : ∀ j, first ≤ j → j < found → magnitude x memory j = nan)
    (here : found < last → magnitude x memory found ≠ nan) (best : Nat × WithNan K) (result : Nat)
    (answer : result = if found = last then 0 else found - first + leafAnswer x memory found last) :
    (if result = 0 then best else Search.better (first + (result - 1)) (magnitude x memory (first + (result - 1))) best) =
      scanRange (magnitude x memory) first last best := by
  rw [← scan_append found best low high, scan_nans best skipped]
  rcases Nat.eq_or_lt_of_le high with rfl | some
  · rw [answer, if_pos rfl, if_pos rfl]
    exact (scan_nans best (fun i low high => by omega)).symm
  rw [if_neg (by omega), leaf_answer_some memory x some] at answer
  cases start : magnitude x memory found with
  | nan => exact absurd start (here some)
  | number b =>
    obtain ⟨m, largest⟩ := largest_index_found start some
    have lower := largest.lower
    have index : first + (result - 1) = largestIndex (magnitude x memory) found last := by omega
    rw [if_neg (by omega), index, largest.better best]

end Candidates

section Tasks

variable {x : Operand Nat} (memory : Nat → WithNan K)

theorem run_best_candidate (count : Nat) (bound results : Nat → Nat) (share : Nat → Nat → WithNan K)
    (stands : ∀ index best, index < count → (if results index = 0 then best
      else Search.better (bound index + (results index - 1)) (magnitude x memory (bound index + (results index - 1))) best) =
        scanRange (share index) (bound index) (bound (index + 1)) best) :
    (bestCandidate x count bound results).run memory =
      ((loop count (fun index => scanRange (share index) (bound index) (bound (index + 1))) (0, magnitude x memory 0)).1 + 1,
        memory) := by
  have each : ∀ total, total ≤ count → (Program.fold total (fun index best =>
      if results index = 0 then pure best else compare x [⟨bound index + (results index - 1), 1, 1⟩] best)
      (0, magnitude x memory 0) : Program Nat (WithNan K) (Nat × WithNan K)).run memory =
        (loop total (fun index => scanRange (share index) (bound index) (bound (index + 1))) (0, magnitude x memory 0),
          memory) := by
    intro total
    induction total with
    | zero => exact fun _ => rfl
    | succ total ih =>
      intro inside
      rw [Program.run_fold_succ, ih (by omega), loop_succ, ← stands total _ (by omega)]
      dsimp only
      split
      · rfl
      · rw [run_compare memory (x := x) _ (show Consecutive [⟨bound total + (results total - 1), 1, 1⟩]
          (bound total + (results total - 1)) (bound total + (results total - 1) + 1) from ⟨rfl, rfl⟩)
          (fun piece member => by rw [List.mem_singleton.mp member]; exact ⟨fits_single x rfl, Nat.one_pos⟩)]
        rw [scanRange, loopRange, Nat.add_sub_cancel_left]
        rfl
  obtain ⟨kept, loaded⟩ := run_first memory (x := x) 0
  rw [bestCandidate, Program.run_do, kept, loaded, Program.run_do, each count (Nat.le_refl count)]
  rfl

end Tasks

section Shares

variable {value : Nat → WithNan K} {count n : Nat} {bound : Nat → Nat}

open Classical in
-- What the shares of all tasks offer.
noncomputable def heard (value : Nat → WithNan K) (count : Nat) (bound : Nat → Nat) (i : Nat) : WithNan K :=
  if ∃ task, task < count ∧ i ∈ pieceOf bound task ∧ value (bound task) = nan then nan else value i

-- An element larger than everything outside its share, in a share that starts with something that is not a number.
def Unheard (value : Nat → WithNan K) (count n : Nat) (bound : Nat → Nat) : Prop :=
  value 0 ≠ nan ∧ ∃ task, task < count ∧ value (bound task) = nan ∧
    ∃ i m, i ∈ pieceOf bound task ∧ value i = number m ∧
      (∀ j a, j < bound task → value j = number a → a < m) ∧
      ∀ j a, bound (task + 1) ≤ j → j < n → value j = number a → a ≤ m

structure IsLargest (value : Nat → WithNan K) (n result : Nat) : Prop where
  first : value 0 = nan → result = 1
  largest : value 0 ≠ nan → ∃ i m, FirstLargest value 0 n i m ∧ result = i + 1

omit [AddCommGroup K] in
theorem heard_share (splits : Splits count bound 0 n) {task i : Nat} (small : task < count) (inside : i ∈ pieceOf bound task) :
    heard value count bound i = heardFrom value (bound task) i := by
  rw [heard, heardFrom]
  by_cases absent : value (bound task) = nan
  · rw [if_pos ⟨task, small, inside, absent⟩, if_pos absent]
  · rw [if_neg absent, if_neg]
    rintro ⟨other, bounded, member, silent⟩
    by_cases same : other = task
    · exact absent (same ▸ silent)
    · exact Set.disjoint_left.mp (splits.apart other task bounded small same) member inside

omit [AddCommGroup K] in
theorem scan_shares (scanned : Nat → WithNan K) (splits : Splits count bound 0 n) (best : Nat × WithNan K) :
    loop count (fun task => scanRange scanned (bound task) (bound (task + 1))) best = scanRange scanned 0 n best := by
  have prefixes : ∀ total, total ≤ count →
      loop total (fun task => scanRange scanned (bound task) (bound (task + 1))) best = scanRange scanned 0 (bound total) best := by
    intro total
    induction total with
    | zero =>
      intro _
      rw [splits.start]
      rfl
    | succ total ih =>
      intro inside
      rw [loop_succ, ih (by omega), scan_append _ best (Nat.zero_le _) (splits.ordered total inside)]
  rw [prefixes count (Nat.le_refl count), splits.finish]

omit [AddCommGroup K] in
theorem scan_is_largest (value : Nat → WithNan K) (some : 0 < n) : IsLargest value n (largestIndex value 0 n + 1) := by
  refine ⟨fun absent => by rw [largest_index_nan absent], fun present => ?_⟩
  cases start : value 0 with
  | nan => exact absurd start present
  | number b =>
    obtain ⟨m, found⟩ := largest_index_found start some
    exact ⟨_, m, found, rfl⟩

omit [AddCommGroup K] in
theorem heard_is_largest (splits : Splits count bound 0 n) (some : 0 < n) :
    IsLargest value n ((scanRange (heard value count bound) 0 n (0, value 0)).1 + 1) ↔ ¬ Unheard value count n bound := by
  cases start : value 0 with
  | nan =>
    rw [scan_of_nan]
    exact ⟨fun _ unheard => unheard.1 start, fun _ => ⟨fun _ => rfl, fun present => absurd start present⟩⟩
  | number b =>
    have present : value 0 ≠ nan := by
      rw [start]
      exact nofun
    obtain ⟨owner, small, inside⟩ := splits.owner 0 (Nat.le_refl 0) some
    have begins : bound owner = 0 := Nat.le_zero.mp inside.1
    have kept : heard value count bound 0 = number b := by
      rw [heard_share splits small inside, heardFrom, begins, if_neg present, start]
    have weaker : ∀ j a, heard value count bound j = number a → value j = number a := by
      intro j a same
      rw [heard] at same
      split at same
      · exact nomatch same
      · exact same
    obtain ⟨i, m, found, ends⟩ := scan_start (heard value count bound) kept some
    rw [ends]
    rcases first_largest_exists value 0 n with absent | ⟨g, M, largest⟩
    · exact absurd (absent 0 (Nat.le_refl 0) some) present
    obtain ⟨task, bounded, home⟩ := splits.owner g (Nat.zero_le g) largest.upper
    constructor
    · rintro norm ⟨_, other, bounded', silent, k, top, member, here, before, after⟩
      obtain ⟨g', M', largest', same⟩ := norm.largest present
      have at_g : i = g := (Nat.succ.inj same).trans (largest'.unique largest)
      subst at_g
      have upper := (splits.inside other k bounded' member).2
      have above := largest.largest k top (Nat.zero_le k) upper here
      have shared : i ∈ pieceOf bound other := by
        refine ⟨not_lt.mp (fun earlier => ?_), not_le.mp (fun later => ?_)⟩
        · exact absurd (before i M earlier largest.here) (not_lt.mpr above)
        · exact absurd (largest.earlier k top (Nat.zero_le k) (member.2.trans_le later) here)
            (not_lt.mpr (after i M later largest.upper largest.here))
      have gone : heard value count bound i = nan := by
        rw [heard_share splits bounded' shared, heardFrom, if_pos silent]
      exact nomatch gone.symm.trans found.here
    · intro heardAll
      refine ⟨fun absent => absurd absent present, fun _ => ⟨g, M, largest, ?_⟩⟩
      have spoken : value (bound task) ≠ nan := fun silent => heardAll ⟨present, task, bounded, silent, g, M, home, largest.here,
        fun j a earlier same => largest.earlier j a (Nat.zero_le j) (by have := home.1; omega) same,
        fun j a later inside same => largest.largest j a (Nat.zero_le j) inside same⟩
      have audible : heard value count bound g = number M := by
        rw [heard_share splits bounded home, heardFrom, if_neg spoken, largest.here]
      have heardLargest : FirstLargest (heard value count bound) 0 n g M :=
        ⟨Nat.zero_le g, largest.upper, audible,
          fun j a low high same => largest.largest j a low high (weaker j a same),
          fun j a low high same => largest.earlier j a low high (weaker j a same)⟩
      rw [found.unique heardLargest]

end Shares

end Zynum.Iamax
