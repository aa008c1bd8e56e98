import Zynum.Vector.StorageBound

set_option autoImplicit false

/- nrm2 and iamax against the required storage. What they read next depends on
   what they have read. -/
namespace Zynum.LevelOne

open ArrayProgram
open Element (width parts whole fromReal)

section Norm

variable {α R : Type} [CommRing R] [LinearOrder R] {allowed : Set α} {ops : FloatOps R} {x : Operand α}

theorem within_nrm2_pieces (check : Bool) (pieces : List Piece)
    (inside : ∀ piece, piece ∈ pieces → WindowInside x allowed piece) :
    (nrm2Pieces ops check x pieces).Within allowed (fun _ => True) := by
  refine Program.Within.bind (within_items pieces _ 0 (fun piece scale member =>
    (within_load_elements (inside piece member)).bind (fun _ _ => trivial))) (fun scale _ => ?_)
  split
  · trivial
  split
  · trivial
  split
  · trivial
  · exact (within_items pieces _ 0 (fun piece sum member => within_sum_one _ sum (inside piece member))).bind
      (fun _ _ => trivial)

theorem within_nrm2_strided (n : Nat) (inside : ∀ piece, piece ∈ singles 0 n → WindowInside x allowed piece) :
    (nrm2Strided ops x n).Within allowed (fun _ => True) :=
  Program.Within.bind (within_items (singles 0 n) _ (0, 1) (fun piece _ member =>
    (within_load_elements (inside piece member)).bind (fun _ _ => trivial))) (fun _ _ => trivial)

end Norm

section NormStorage

variable {R T : Type} [CommRing R] [LinearOrder R] [CommRing T] [Element R T] [LawfulElement R T]
  {n : Int} {ops : FloatOps R}

omit [CommRing R] [LinearOrder R] [CommRing T] [LawfulElement R T] in
theorem elements_inside (second : Bool) (n : Nat) (piece : Piece) (member : piece ∈ singles 0 n) :
    WindowInside (Operand.stride2 (width T) (cellsOf second)) (storage (width T) n) piece := by
  obtain ⟨block, small, rfl⟩ := mem_blocks.mp member
  exact single_inside _ rfl rfl (show 0 + block * 1 < n by omega)

variable (T) in
-- nrm2 of operations.zig with increment 2.
def nrm2Blocks (ops : FloatOps R) (machine : VectorMachine) (n : Nat) : Program (Bool × Nat) R R :=
  (nrm2Pieces ops true (Operand.stride2 (width T) (cellsOf false)) (stride2Plan false (stride2Lanes machine T) 0 n)).bind
    (fun answer =>
      match answer with
      | some norm => .done norm
      | none => nrm2Strided ops (Operand.stride2 (width T) (cellsOf false)) n)

omit [CommRing T] [LawfulElement R T] in
theorem nrm2_two (machine : VectorMachine) (site : Site) (positive : 1 ≤ n) :
    nrm2 T machine ops site n (cellsOf false) 2 = .single (nrm2Blocks T ops machine (toUsize n)) := by
  rw [nrm2, if_neg (by omega)]
  simp only [stride2_strided]
  rw [if_neg (by decide), if_pos trivial]
  rfl

omit [CommRing T] [LawfulElement R T] in
theorem nrm2_blocks_within (machine : VectorMachine) (size : Nat) (clear : ¬ stride2Lanes machine T ∣ size) :
    (nrm2Blocks T ops machine size).Within (storage (width T) size) (fun _ => True) := by
  refine (within_nrm2_pieces true _ (fun piece member =>
    plan_inside (Nat.le_refl size) (Nat.zero_le size) (fun _ _ => clear) piece member)).bind (fun answer _ => ?_)
  cases answer with
  | some norm => trivial
  | none => exact within_nrm2_strided size (fun piece member => elements_inside false size piece member)

theorem nrm2_blocks_overrun (machine : VectorMachine) (size : Nat) (several : 0 < size)
    (divides : stride2Lanes machine T ∣ size) :
    Touches (nrm2Blocks T ops machine size) (false, width T * (2 * size) - 1) := by
  obtain ⟨early, last, plan, two, _, ends, filled⟩ := last_block several (show stride2Lanes machine T ∣ size - 0 from divides)
  obtain ⟨lane, small, same⟩ := last_lane false (LawfulElement.width_pos (T := T)) two ends filled
  refine touches_first _ (touches_first _ (touches_items last ?_ (fun scale => ?_)))
  · rw [plan]
    exact List.mem_append_right _ List.mem_cons_self
  · exact touches_first _ (same ▸ touches_load_active lane small)

theorem nrm2_in_storage (machine : VectorMachine) (site : Site) (positive : 1 ≤ n) :
    InStorage (nrm2 T machine ops site n (cellsOf false) 2) (width T) (toUsize n) ↔ ¬ stride2Lanes machine T ∣ toUsize n := by
  have some : 0 < width T := LawfulElement.width_pos
  have several : 0 < toUsize n := by simp only [toUsize]; omega
  rw [nrm2_two machine site positive]
  exact ⟨fun inside divides => single_overruns some several (nrm2_blocks_overrun machine _ several divides) inside,
    fun clear => in_storage (nrm2_blocks_within machine _ clear)⟩

omit [CommRing T] [LawfulElement R T] in
theorem stride2_nrm2_inside (machine : VectorMachine) (site : Site)
    (execution : Execution (Bool × Nat) R (Option R) (Option R))
    (accepted : stride2Nrm2 T machine ops site n (cellsOf false) 2 = some execution) :
    InStorage execution (width T) (toUsize n) := by
  rw [stride2Nrm2] at accepted
  obtain ⟨_, accepted⟩ := Option.ite_none_right_eq_some.mp accepted
  rw [forkNrm2] at accepted
  obtain ⟨many, accepted⟩ := Option.ite_none_left_eq_some.mp accepted
  obtain ⟨_, accepted⟩ := Option.ite_none_right_eq_some.mp accepted
  have splits := even_splits (toUsize n) (machine.runtime.taskCount site (toUsize n)) (by omega)
  rw [← Option.some.inj accepted]
  refine in_storage ⟨fun _ _ => True, fun index small => ?_, fun results _ => trivial⟩
  have upper := (splits.mono (index + 1) _ small (Nat.le_refl _)).trans (Nat.le_of_eq splits.finish)
  exact within_nrm2_pieces false _ (fun piece member =>
    plan_inside upper (splits.ordered index small) (fun _ loose => Bool.noConfusion loose) piece member)

end NormStorage

section Search

variable {α R : Type} [CommRing R] [LinearOrder R] {allowed : Set α} {ops : FloatOps R} {x : Operand α} {first last : Nat}

def Candidate (first last : Nat) (best : Nat × R) : Prop := first ≤ best.1 ∧ best.1 < last

omit [CommRing R] in
theorem better_candidate {index : Nat} {ax : R} {best : Nat × R} (inside : first ≤ index ∧ index < last)
    (held : Candidate first last best) : Candidate first last (better index ax best) := by
  rw [better]
  split
  · exact inside
  · exact held

theorem within_scan_one {piece : Piece} {best : Nat × R} (inside : WindowInside x allowed piece)
    (bounds : first ≤ piece.first ∧ piece.first < last) (held : Candidate first last best) :
    (scanOne x piece best).Within allowed (Candidate first last) :=
  (within_load_elements inside).bind (fun _ _ => better_candidate bounds held)

-- Every element of the range lies inside, one by one.
def ElementsInside (x : Operand α) (allowed : Set α) (first last : Nat) : Prop :=
  ∀ i, first ≤ i → i < last → WindowInside x allowed ⟨i, 1, 1⟩

theorem within_scan_piece {piece : Piece} {best : Nat × R} (inside : WindowInside x allowed piece)
    (elements : ElementsInside x allowed first last)
    (bounds : first ≤ piece.first ∧ piece.first + piece.count ≤ last) (held : Candidate first last best) :
    (scanPiece x piece best).Within allowed (Candidate first last) := by
  rw [scanPiece]
  split
  · exact within_scan_one inside ⟨bounds.1, by omega⟩ held
  · refine (within_load_elements inside).bind (fun xb _ => ?_)
    split
    · refine Program.within_fold allowed (Candidate first last) piece.count _ best held (fun i state small before => ?_)
      exact within_scan_one (elements (piece.first + i) (by omega) (by omega))
        ⟨by change first ≤ piece.first + i; omega, by change piece.first + i < last; omega⟩ before
    · exact held

theorem within_scan {pieces : List Piece} {start : Nat} (several : first < last) (behind : first ≤ start)
    (consecutive : Consecutive pieces start last) (elements : ElementsInside x allowed first last)
    (inside : ∀ piece, piece ∈ pieces → WindowInside x allowed piece) :
    (scan x pieces first : Program α R Nat).Within allowed (fun result => result ≤ last - first) := by
  refine (within_load_elements (elements first (Nat.le_refl first) several)).bind (fun xb _ => ?_)
  refine Program.Within.bind (Program.within_fold_items allowed (Candidate first last) pieces _ _
    ⟨Nat.le_refl first, several⟩ (fun piece state member held => ?_)) (fun best held => ?_)
  · have bounds := consecutive.inside piece member
    exact within_scan_piece (inside piece member) elements ⟨by omega, bounds.2⟩ held
  · have lower := held.1
    have upper := held.2
    change best.1 - first + 1 ≤ last - first
    omega

theorem within_skip_nan (ops : FloatOps R) (remaining : Nat) (elements : ElementsInside x allowed first (first + remaining)) :
    (skipNan ops x first remaining).Within allowed (fun start => first ≤ start ∧ start ≤ first + remaining) := by
  induction remaining generalizing first with
  | zero => exact ⟨Nat.le_refl first, Nat.le_refl first⟩
  | succ more ih =>
    refine (within_load_elements (elements first (Nat.le_refl first) (by omega))).bind (fun xb _ => ?_)
    split
    · have rest := ih (show ElementsInside x allowed (first + 1) (first + 1 + more) from
        fun i lower upper => elements i (by omega) (by omega))
      have widen : ∀ start, (first + 1 ≤ start ∧ start ≤ first + 1 + more) → first ≤ start ∧ start ≤ first + (more + 1) :=
        fun start bounds => ⟨by omega, by omega⟩
      exact rest.weaken widen
    · exact ⟨Nat.le_refl first, by omega⟩

theorem within_best_candidate {n count : Nat} {bound results : Nat → Nat} (several : 0 < n)
    (elements : ElementsInside x allowed 0 n) (ordered : ∀ index, index < count → bound (index + 1) ≤ n)
    (small : ∀ index, index < count → results index ≤ bound (index + 1) - bound index) :
    (bestCandidate (R := R) x count bound results).Within allowed (fun _ => True) := by
  refine (within_load_elements (elements 0 (Nat.le_refl 0) several)).bind (fun xb _ => ?_)
  refine Program.Within.bind (Program.within_fold allowed (fun _ => True) count _ _ trivial
    (fun index best below _ => ?_)) (fun _ _ => trivial)
  split
  · trivial
  · have inside := small index below
    have top := ordered index below
    refine (within_load_elements (elements _ (Nat.zero_le _) (by omega))).bind (fun _ _ => trivial)

theorem within_strided_real {n : Nat} (several : 0 < n) (elements : ElementsInside x allowed 0 n) :
    (iamaxStridedReal ops x n).Within allowed (fun _ => True) := by
  refine (within_load_elements (elements 0 (Nat.le_refl 0) several)).bind (fun xb _ => ?_)
  dsimp only
  split
  · trivial
  · refine Program.Within.bind (Program.within_fold allowed (fun _ => True) ((n - 1) / 4) _ _ trivial
      (fun group chains below _ => ?_)) (fun chains _ => ?_)
    · refine Program.within_fold allowed (fun _ => True) 4 _ _ trivial (fun lane state small _ => ?_)
      have inside : 1 + 4 * group + lane < n := by omega
      have scanned : (scanOne x ⟨1 + 4 * group + lane, 1, 1⟩ (state lane)).Within allowed (fun _ => True) :=
        (within_load_elements (elements _ (Nat.zero_le _) inside)).bind (fun _ _ => trivial)
      exact scanned.bind (fun _ _ => trivial)
    · refine Program.Within.bind (within_items _ _ _ (fun piece state member => ?_)) (fun _ _ => trivial)
      obtain ⟨block, small, rfl⟩ := mem_blocks.mp member
      exact (within_load_elements (elements _ (Nat.zero_le _) (by omega))).bind (fun _ _ => trivial)

end Search

section SearchStorage

variable {R T : Type} [CommRing R] [LinearOrder R] [CommRing T] [Element R T] [LawfulElement R T] {n : Int}

omit [CommRing R] [LinearOrder R] [CommRing T] [LawfulElement R T] in
theorem stride2_elements (second : Bool) {size last : Nat} (first : Nat) (bounded : last ≤ size) :
    ElementsInside (Operand.stride2 (width T) (cellsOf second)) (storage (width T) size) first last :=
  fun i _ upper => single_inside _ rfl rfl (show i < size by omega)

theorem scan_plan_consecutive (strict : Bool) (lanes first last : Nat) (ordered : first ≤ last) :
    Consecutive (scanPlan strict lanes first last) first last := by
  have fits := stride2_blocks_fit strict (4 * lanes) (last - first)
  exact consecutive_append (blocks_consecutive _ (4 * lanes) 2 first)
    (stride2_plan_consecutive strict lanes _ last (by omega))

theorem scan_plan_inside {cellWidth size : Nat} {second strict : Bool} {lanes first last : Nat} (bounded : last ≤ size)
    (ordered : first ≤ last) (clear : last = size → strict = false → ¬ lanes ∣ size - first) (piece : Piece)
    (member : piece ∈ scanPlan strict lanes first last) :
    WindowInside (Operand.stride2 cellWidth (cellsOf second)) (storage cellWidth size) piece := by
  have fits := stride2_blocks_fit strict (4 * lanes) (last - first)
  rcases List.mem_append.mp member with wide | narrow
  · exact blocks_inside bounded ordered (Nat.dvd_mul_left lanes 4) clear piece wide
  · refine plan_inside bounded (by omega) (fun ends loose divides => clear ends loose ?_) piece narrow
    have whole : size - first = size - (first + stride2Blocks strict (4 * lanes) (last - first) * (4 * lanes)) +
        stride2Blocks strict (4 * lanes) (last - first) * (4 * lanes) := by omega
    rw [whole]
    exact divides.add ((Nat.dvd_mul_left lanes 4).trans (Nat.dvd_mul_left _ _))

theorem last_scan_block {lanes size : Nat} (several : 0 < size) (divides : lanes ∣ size) :
    ∃ last, last ∈ scanPlan false lanes 0 size ∧ last.step = 2 ∧ last.first + last.count = size ∧ 0 < last.count := by
  have fits := stride2_blocks_fit false (4 * lanes) (size - 0)
  by_cases rest : 0 + stride2Blocks false (4 * lanes) (size - 0) * (4 * lanes) < size
  · have remainder : lanes ∣ size - (0 + stride2Blocks false (4 * lanes) (size - 0) * (4 * lanes)) := by
      rw [Nat.zero_add]
      exact Nat.dvd_sub divides ((Nat.dvd_mul_left lanes 4).trans (Nat.dvd_mul_left _ _))
    obtain ⟨early, last, plan, two, _, ends, filled⟩ := last_block rest remainder
    refine ⟨last, List.mem_append_right _ ?_, two, ends, filled⟩
    rw [plan]
    exact List.mem_append_right _ List.mem_cons_self
  · have lanesPositive : 0 < lanes := by
      rcases Nat.eq_zero_or_pos lanes with none | positive
      · rw [none, Nat.zero_dvd] at divides
        omega
      · exact positive
    have blockCount : 0 < stride2Blocks false (4 * lanes) (size - 0) := by
      rcases Nat.eq_zero_or_pos (stride2Blocks false (4 * lanes) (size - 0)) with none | positive
      · rw [none] at rest
        omega
      · exact positive
    refine ⟨⟨0 + (stride2Blocks false (4 * lanes) (size - 0) - 1) * (4 * lanes), 4 * lanes, 2⟩,
      List.mem_append_left _ (mem_blocks.mpr ⟨_, Nat.sub_lt blockCount Nat.one_pos, rfl⟩), rfl, ?_, by
        change 0 < 4 * lanes; omega⟩
    change 0 + (stride2Blocks false (4 * lanes) (size - 0) - 1) * (4 * lanes) + 4 * lanes = size
    have whole : (stride2Blocks false (4 * lanes) (size - 0) - 1 + 1) * (4 * lanes) =
        stride2Blocks false (4 * lanes) (size - 0) * (4 * lanes) := by rw [Nat.sub_add_cancel blockCount]
    rw [Nat.succ_mul] at whole
    omega

omit [CommRing T] [LawfulElement R T] in
theorem within_iamax_stride2 (strict : Bool) (machine : VectorMachine) {first last size : Nat} (several : first < last)
    (bounded : last ≤ size)
    (clear : last = size → strict = false → isReal T = false ∧ ¬ stride2Lanes machine T ∣ size - first) :
    (iamaxStride2 (R := R) T strict machine (cellsOf false) first last).Within (storage (width T) size)
      (fun result => result ≤ last - first) := by
  rw [iamaxStride2]
  cases kind : isReal T with
  | true =>
    refine within_scan several (Nat.le_succ first) (scan_plan_consecutive strict _ _ _ several)
      (stride2_elements false first bounded) (fun piece member => ?_)
    refine scan_plan_inside bounded several (fun ends loose => ?_) piece member
    exact Bool.noConfusion ((clear ends loose).1.symm.trans kind)
  | false =>
    refine within_scan several (Nat.le_refl first) (scan_plan_consecutive strict _ _ _ (Nat.le_of_lt several))
      (stride2_elements false first bounded) (fun piece member => ?_)
    exact scan_plan_inside bounded (Nat.le_of_lt several) (fun ends loose => (clear ends loose).2) piece member

omit [CommRing T] [LawfulElement R T] in
theorem within_candidate (ops : FloatOps R) (machine : VectorMachine) {first last size : Nat} (ordered : first ≤ last)
    (bounded : last ≤ size) :
    (iamaxStride2TaskCandidate T ops machine (cellsOf false) first last).Within (storage (width T) size)
      (fun result => result ≤ last - first) := by
  have elements : ElementsInside (Operand.stride2 (width T) (cellsOf false)) (storage (width T) size) first
      (first + (last - first)) := stride2_elements false first (by omega)
  have skipped := within_skip_nan ops (last - first) elements
  refine skipped.bind (fun start bounds => ?_)
  split
  · exact Nat.zero_le _
  · rename_i before
    have found := within_iamax_stride2 (R := R) (T := T) true machine (show start < last by omega) bounded
      (fun _ loose => Bool.noConfusion loose)
    refine found.bind (fun offset small => ?_)
    change start - first + offset ≤ last - first
    omega

theorem touches_scan {lanes size : Nat} (several : 0 < size) (divides : lanes ∣ size) :
    Touches (scan (Operand.stride2 (width T) (cellsOf false)) (scanPlan false lanes 0 size) 0 : Program _ R Nat)
      (false, width T * (2 * size) - 1) := by
  obtain ⟨last, member, two, ends, filled⟩ := last_scan_block several divides
  obtain ⟨lane, small, same⟩ := last_lane false (LawfulElement.width_pos (T := T)) two ends filled
  refine touches_next _ (fun _ => touches_first _ (touches_items last member (fun best => ?_)))
  rw [scanPiece, ← same]
  split
  · exact touches_first _ (touches_load_active lane small)
  · exact touches_first _ (touches_load_active lane small)

theorem iamax_two (ops : FloatOps R) (machine : VectorMachine) (site : Site) (positive : 1 ≤ n) :
    ∃ program : Program (Bool × Nat) R Nat, iamax T machine ops site n (cellsOf false) 2 = .single program ∧
      (¬ (isReal T = false ∧ stride2Lanes machine T ∣ toUsize n) →
        program.Within (storage (width T) (toUsize n)) (fun _ => True)) ∧
      (isReal T = false → stride2Lanes machine T ∣ toUsize n →
        Touches program (false, width T * (2 * toUsize n) - 1)) := by
  have several : 0 < toUsize n := by simp only [toUsize]; omega
  have elements : ElementsInside (Operand.stride2 (width T) (cellsOf false)) (storage (width T) (toUsize n)) 0
      (toUsize n) := stride2_elements false 0 (Nat.le_refl _)
  rw [iamax, if_neg (by omega), if_neg (by decide)]
  cases kind : isReal T with
  | true =>
    rw [if_pos rfl, stride2_strided]
    split
    · exact ⟨_, rfl, fun _ => within_strided_real several elements, fun complex => Bool.noConfusion complex⟩
    · refine ⟨_, rfl, fun _ => ?_, fun complex => Bool.noConfusion complex⟩
      have consecutive := singles_consecutive (show 1 ≤ toUsize n from several)
      refine (within_scan several (Nat.zero_le 1) consecutive elements (fun piece member => ?_)).weaken
        (fun _ _ => trivial)
      obtain ⟨block, small, rfl⟩ := mem_blocks.mp member
      exact single_inside _ rfl rfl (show 1 + block * 1 < toUsize n by omega)
  | false =>
    rw [if_neg Bool.false_ne_true, if_pos rfl]
    refine ⟨_, rfl, fun clear => ?_, fun _ divides => ?_⟩
    · have inside := within_iamax_stride2 (R := R) (T := T) false machine several (Nat.le_refl (toUsize n))
        (fun _ _ => ⟨kind, fun divides => clear ⟨rfl, divides⟩⟩)
      exact inside.weaken (fun _ _ => trivial)
    · rw [iamaxStride2, kind]
      exact touches_scan several divides

theorem iamax_in_storage (ops : FloatOps R) (machine : VectorMachine) (site : Site) (positive : 1 ≤ n) :
    InStorage (iamax T machine ops site n (cellsOf false) 2) (width T) (toUsize n) ↔
      ¬ (isReal T = false ∧ stride2Lanes machine T ∣ toUsize n) := by
  have some : 0 < width T := LawfulElement.width_pos (T := T)
  have several : 0 < toUsize n := by simp only [toUsize]; omega
  obtain ⟨program, same, inside, overruns⟩ := iamax_two (T := T) ops machine site positive
  rw [same]
  exact ⟨fun safe bad => single_overruns some several (overruns bad.1 bad.2) safe, fun clear => in_storage (inside clear)⟩

omit [CommRing T] [LawfulElement R T] in
theorem stride2_iamax_inside (ops : FloatOps R) (machine : VectorMachine) (site : Site) (positive : 1 ≤ n)
    (execution : Execution (Bool × Nat) R Nat (Option Nat))
    (accepted : stride2Iamax T machine ops site n (cellsOf false) 2 = some execution) :
    InStorage execution (width T) (toUsize n) := by
  have several : 0 < toUsize n := by simp only [toUsize]; omega
  have elements : ElementsInside (Operand.stride2 (width T) (cellsOf false)) (storage (width T) (toUsize n)) 0
      (toUsize n) := stride2_elements false 0 (Nat.le_refl _)
  rw [stride2Iamax] at accepted
  generalize machine.runtime.taskCount site (toUsize n) = count at accepted
  obtain ⟨target, accepted⟩ := Option.ite_none_right_eq_some.mp accepted
  have splits := even_splits (toUsize n) count (by omega)
  rw [← Option.some.inj accepted]
  refine in_storage ⟨fun _ _ => True, fun _ _ => ?_, fun nan _ => ?_⟩
  · exact (within_load_elements (elements 0 (Nat.le_refl 0) several)).bind (fun _ _ => trivial)
  · change Execution.Within _ (if nan 0 = 1 then _ else _)
    split
    · trivial
    split
    · have upper : ∀ index, index < count → evenBound (toUsize n) count (index + 1) ≤ toUsize n := fun index small =>
        (splits.mono (index + 1) _ small (Nat.le_refl _)).trans (Nat.le_of_eq splits.finish)
      refine ⟨fun index result => result ≤ evenBound (toUsize n) count (index + 1) - evenBound (toUsize n) count index,
        fun index small => ?_, fun results bounded => ?_⟩
      · exact within_candidate ops machine (splits.ordered index small) (upper index small)
      · exact (within_best_candidate several elements upper bounded).bind (fun _ _ => trivial)
    · trivial

end SearchStorage

end Zynum.LevelOne
