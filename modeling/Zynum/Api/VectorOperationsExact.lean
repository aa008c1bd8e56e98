import Zynum.Api.ViewsExact

set_option autoImplicit false

/- The vector operations act on the logical elements of their views, if every view
   with a negative stride has the shared length: the routines below count such a
   view from the end of the shared elements, not from the end of its storage. -/
namespace Zynum.Api

open ArrayProgram
open Element (width parts whole)
open LevelOne

section Origins

-- The view and the routine start at the same element.
def VectorView.SharedOrigin (view : VectorView) (shared : Int) : Prop := 0 < view.stride ∨ view.length = shared

def SameOrigins (first second : VectorView) : Prop :=
  min first.length second.length = 0 ∨
    first.SharedOrigin (min first.length second.length) ∧ second.SharedOrigin (min first.length second.length)

variable {R T : Type} [Element R T] {view : VectorView} {shared : Int}

theorem start_forward (n stride : Int) (forward : 0 < stride) : startIndex n stride = 0 := by
  rw [startIndex]
  split
  · rfl
  · rw [if_pos (Int.le_of_lt forward)]

theorem VectorView.SharedOrigin.elements (origin : view.SharedOrigin shared) :
    Operand.strided (width T) shared view.stride (cellsFrom view.values.start) = view.elements T := by
  rcases origin with forward | whole
  · rw [VectorView.elements, Operand.strided, Operand.strided, start_forward _ _ forward, start_forward _ _ forward]
  · rw [VectorView.elements, whole]

theorem ix_backward {n stride : Int} (i : Nat) (inside : i < toUsize n) (back : stride < 0) :
    ix (startIndex n stride) i stride = (toUsize n - 1 - i) * stride.natAbs := by
  have rest : ((toUsize n - 1 - i : Nat) : Int) = n - 1 - i := by
    simp only [toUsize] at inside ⊢
    omega
  have position : startIndex n stride + i * stride = (((toUsize n - 1 - i) * stride.natAbs : Nat) : Int) := by
    rw [startIndex, if_neg (by simp only [toUsize] at inside; omega), if_neg (by omega), Nat.cast_mul, rest,
      Int.natCast_natAbs, abs_of_neg back]
    ring
  rw [ix, position, Int.toNat_natCast]

theorem shared_shift (nonzero : view.stride ≠ 0) (small : shared ≤ view.length) :
    ∃ shift, (∀ i, i < toUsize shared → (view.elements T).address i 0 =
        (Operand.strided (width T) shared view.stride (cellsFrom view.values.start)).address i 0 + shift) ∧
      (0 < width T → 0 < toUsize shared → ¬ view.SharedOrigin shared → 0 < shift) := by
  by_cases origin : view.SharedOrigin shared
  · exact ⟨0, fun i _ => by rw [origin.elements, Nat.add_zero], fun _ _ moved => absurd origin moved⟩
  rw [VectorView.SharedOrigin, not_or] at origin
  have back : view.stride < 0 := by omega
  refine ⟨width T * ((toUsize view.length - toUsize shared) * view.stride.natAbs), fun i inside => ?_, fun some _ _ => ?_⟩
  · have grown : toUsize shared ≤ toUsize view.length := by
      simp only [toUsize]
      omega
    change view.values.start + (width T * ix (startIndex view.length view.stride) i view.stride + 0) =
      view.values.start + (width T * ix (startIndex shared view.stride) i view.stride + 0) +
        width T * ((toUsize view.length - toUsize shared) * view.stride.natAbs)
    rw [ix_backward i (inside.trans_le grown) back, ix_backward i inside back]
    have rest : toUsize view.length - 1 - i = (toUsize shared - 1 - i) + (toUsize view.length - toUsize shared) := by omega
    rw [rest]
    ring
  · have longer : toUsize shared < toUsize view.length := by
      simp only [toUsize] at *
      omega
    exact Nat.mul_pos some (Nat.mul_pos (by omega) (by omega))

variable (T) in
def VectorView.firstCell (view : VectorView) : Nat := (view.elements T).address 0 0

theorem first_element_beyond (nonzero : view.stride ≠ 0) (small : shared ≤ view.length)
    (moved : ¬ view.SharedOrigin shared) (i c : Nat) (inside : i < toUsize shared) (part : c < width T) :
    (Operand.strided (width T) shared view.stride (cellsFrom view.values.start)).address i c <
      view.firstCell T := by
  rw [VectorView.SharedOrigin, not_or] at moved
  have back : view.stride < 0 := by omega
  have longer : toUsize shared - 1 + 1 ≤ toUsize view.length - 1 := by
    simp only [toUsize] at inside ⊢
    omega
  have bound := ix_le shared view.stride i inside
  have grown : (toUsize shared - 1 + 1) * view.stride.natAbs ≤ (toUsize view.length - 1) * view.stride.natAbs :=
    Nat.mul_le_mul_right _ longer
  have step : 0 < view.stride.natAbs := by omega
  have next : ix (startIndex shared view.stride) i view.stride + 1 ≤ (toUsize view.length - 1) * view.stride.natAbs := by
    rw [Nat.succ_mul] at grown
    omega
  have cells : width T * (ix (startIndex shared view.stride) i view.stride + 1) ≤
      width T * ((toUsize view.length - 1) * view.stride.natAbs) := Nat.mul_le_mul_left _ next
  rw [Nat.mul_succ] at cells
  change view.values.start + (width T * ix (startIndex shared view.stride) i view.stride + c) <
    view.values.start + (width T * ix (startIndex view.length view.stride) 0 view.stride + 0)
  rw [ix_backward 0 (by omega) back, Nat.sub_zero]
  omega

end Origins

section Accepted

variable {R T : Type} [CommRing R] [CommRing T] [Element R T] [LawfulElement R T]
  {machine : VectorMachine} {site : Site} {first second : VectorView} {shared : Int}

omit [CommRing R] [CommRing T] [LawfulElement R T] in
theorem PairAccepted.aligned (accepted : PairAccepted T first second shared) :
    Aligned (Operand.strided (width T) shared first.stride (cellsFrom first.values.start))
      (Operand.strided (width T) shared second.stride (cellsFrom second.values.start)) (Set.Iio (toUsize shared)) := by
  by_cases several : 0 < shared
  · have shortest := accepted.shortest
    rcases accepted.placed with same | apart
    · obtain ⟨starts, _, strides⟩ := exactly_match same
      rw [starts, strides]
      exact aligned_itself shared second.stride second.values.start (accepted.strides several).2
    · exact ((apart several).disjoint (by omega) (by omega)).aligned
  · intro i j c d inside
    exact absurd inside (no_indices (by omega) i)

theorem copy_accepted {execution : Execution Nat R Unit Unit}
    (accepted : copyVector T true machine site first second = .ok execution) :
    PairAccepted T first second (min first.length second.length) ∧
      (vectorsExactlyMatch first second = true ∧ execution = finished ∨
        vectorsExactlyMatch first second = false ∧
          execution = LevelOne.copy T machine site (min first.length second.length) first.values.start second.values.start
            (cellsFrom first.values.start) first.stride (cellsFrom second.values.start) second.stride) := by
  obtain ⟨_, checks, accepted⟩ := bind_ok accepted
  obtain ⟨_, checks', accepted⟩ := bind_ok accepted
  have nonneg := (checked_vector checks).1
  have nonneg' := (checked_vector checks').1
  split at accepted
  · rename_i same
    have alone : ensureNoPartialVectorOverlap T true first second = .ok () := by
      rw [ensureNoPartialVectorOverlap, Bool.not_true, if_neg Bool.false_ne_true, if_pos same]
    have lengths : checkedPairLength first.length second.length = .ok (min first.length second.length) := by
      rw [checkedPairLength, if_neg (by omega)]
    exact ⟨pair_accepted checks checks' alone lengths, .inl ⟨same, (Except.ok.inj accepted).symm⟩⟩
  · rename_i different
    obtain ⟨_, alone, accepted⟩ := bind_ok accepted
    obtain ⟨shared, lengths, accepted⟩ := bind_ok accepted
    have same := (pair_length lengths).1
    subst same
    refine ⟨pair_accepted checks checks' alone lengths, .inr ⟨Bool.not_eq_true _ ▸ different, ?_⟩⟩
    rw [← Except.ok.inj accepted]
    simp only [Core.copyVector, Core.sharedLength, VectorView.shared, min_self]

variable (T) in
-- Element i of the result is made of element i of each view; nothing else changes.
def UpdatesElements (execution : Execution Nat R Unit Unit) (apply : (Nat → R) → (Nat → R) → Nat → R)
    (source destination : VectorView) : Prop :=
  Rewrites execution (slots (width T) (Set.Iio (toUsize (min source.length destination.length))))
    (slotAddress (destination.elements T)) (pairValue apply (source.elements T) (destination.elements T))

omit [CommRing R] [CommRing T] [LawfulElement R T] in
theorem slots_empty {shared : Int} (none : shared ≤ 0) : slots (width T) (Set.Iio (toUsize shared)) = ∅ := by
  refine Set.eq_empty_of_forall_notMem (fun slot member => ?_)
  exact no_indices none slot.1 member.2

omit [CommRing R] in
theorem Rewrites.none {ι A B : Type} {execution : Execution Nat R B A} {cells : Set ι} {address address' : ι → Nat}
    {value value' : (Nat → R) → ι → R} (empty : cells = ∅) (rewrites : Rewrites execution cells address value) :
    Rewrites execution cells address' value' := by
  intro memory result final outcome
  subst empty
  have whole := rewrites memory result final outcome
  exact ⟨fun cell member => absurd member (Set.notMem_empty cell),
    fun place _ => whole.kept place (fun cell member => absurd member (Set.notMem_empty cell))⟩

omit [CommRing R] [CommRing T] [LawfulElement R T] in
theorem updates_shared {execution : Execution Nat R Unit Unit} {apply : (Nat → R) → (Nat → R) → Nat → R}
    (origins : SameOrigins first second)
    (rewrites : Rewrites execution (slots (width T) (Set.Iio (toUsize (min first.length second.length))))
      (slotAddress (Operand.strided (width T) (min first.length second.length) second.stride
        (cellsFrom second.values.start)))
      (pairValue apply
        (Operand.strided (width T) (min first.length second.length) first.stride (cellsFrom first.values.start))
        (Operand.strided (width T) (min first.length second.length) second.stride (cellsFrom second.values.start)))) :
    UpdatesElements T execution apply first second := by
  rcases origins with empty | ⟨originFirst, originSecond⟩
  · exact Rewrites.none (slots_empty (by omega)) rewrites
  · rw [originFirst.elements, originSecond.elements] at rewrites
    exact rewrites

omit [CommRing R] [CommRing T] [LawfulElement R T] in
theorem Rewrites.at_first {execution : Execution Nat R Unit Unit} {apply : (Nat → R) → (Nat → R) → Nat → R}
    {memory final : Nat → R} (some : 0 < width T) (several : 0 < toUsize (min first.length second.length))
    (updates : UpdatesElements T execution apply first second) (outcome : execution.Outcome memory () final) :
    final (second.firstCell T) = apply ((first.elements T).element memory 0) ((second.elements T).element memory 0) 0 :=
  (updates memory () final outcome).written (0, 0) ⟨some, several⟩

theorem copy_vector_elements [Nontrivial R] {execution : Execution Nat R Unit Unit}
    (accepted : copyVector T true machine site first second = .ok execution) :
    UpdatesElements T execution (fun x _ => x) first second ↔ SameOrigins first second := by
  have some : 0 < width T := LawfulElement.width_pos
  obtain ⟨pair, answer⟩ := copy_accepted accepted
  have nonneg := pair.nonneg
  by_cases several : 0 < min first.length second.length
  · obtain ⟨nonzeroFirst, nonzeroSecond⟩ := pair.strides several
    rcases answer with ⟨same, rfl⟩ | ⟨different, rfl⟩
    · -- the same view twice
      obtain ⟨starts, lengths, strides⟩ := exactly_match same
      have whole : first.elements T = second.elements T := by
        rw [VectorView.elements, VectorView.elements, starts, lengths, strides]
      refine ⟨fun _ => .inr ⟨.inr (by omega), .inr (by omega)⟩, fun _ => rewrites_finished (fun memory slot _ => ?_)⟩
      rw [pairValue, whole]
      rfl
    · have routine := copy_rewrites (R := R) (T := T) machine site nonzeroFirst nonzeroSecond pair.aligned
      refine ⟨fun updates => ?_, fun origins => updates_shared origins routine⟩
      have apart : first.Apart T second := by
        rcases pair.placed with same | apart
        · exact Bool.noConfusion (different.symm.trans same)
        · exact apart several
      have inside : 0 < toUsize (min first.length second.length) := by simp only [toUsize]; omega
      -- a memory that holds one at the first element of the source only
      have cellsApart : second.firstCell T ≠ first.firstCell T :=
        (apart.different (Int.le_refl _) (Int.le_refl _) 0 0 0 0 (by simp only [toUsize]; omega)
          (by simp only [toUsize]; omega) some some).symm
      obtain ⟨_, final, outcome⟩ := Execution.outcome_exists
        (LevelOne.copy (R := R) T machine site (min first.length second.length) first.values.start second.values.start
          (cellsFrom first.values.start) first.stride (cellsFrom second.values.start) second.stride)
        (fun place => if place = first.firstCell T then 1 else 0)
      have claimed : final (second.firstCell T) = 1 := by
        rw [Rewrites.at_first some inside updates outcome]
        exact if_pos rfl
      have actual := routine _ _ _ outcome
      have originSecond : second.SharedOrigin (min first.length second.length) := by
        by_contra moved
        have kept := actual.kept (second.firstCell T) (fun slot member =>
          Nat.ne_of_lt (first_element_beyond nonzeroSecond (by omega) moved slot.1 slot.2 member.2 member.1))
        rw [claimed, if_neg cellsApart] at kept
        exact one_ne_zero kept
      refine .inr ⟨?_, originSecond⟩
      by_contra moved
      have written := actual.written (0, 0) ⟨some, inside⟩
      rw [originSecond.elements] at written
      have early := first_element_beyond (T := T) nonzeroFirst (by omega) moved 0 0 inside some
      have read : (1 : R) = if (Operand.strided (width T) (min first.length second.length) first.stride
          (cellsFrom first.values.start)).address 0 0 = first.firstCell T then 1 else 0 := claimed.symm.trans written
      rw [if_neg (Nat.ne_of_lt early)] at read
      exact one_ne_zero read
  · have empty : min first.length second.length = 0 := by omega
    refine ⟨fun _ => .inl empty, fun _ => ?_⟩
    have idle : execution = finished := by
      rcases answer with ⟨_, rfl⟩ | ⟨_, rfl⟩
      · rfl
      · rw [LevelOne.copy, if_pos (.inl (by omega))]
    subst idle
    exact rewrites_finished (fun memory slot member => absurd member.2 (no_indices (by omega) slot.1))

variable (T) in
def SwapsElements (execution : Execution Nat R Unit Unit) (first second : VectorView) : Prop :=
  Rewrites execution (cells (width T) (Set.Iio (toUsize (min first.length second.length))))
    (LevelOne.cellAddress (first.elements T) (second.elements T)) (ruleValue swapRule (first.elements T) (second.elements T))

variable (T) in
-- Both views have stride 2 and the block loops of swap store a stale gap over an element.
def SwapLoses (machine : VectorMachine) (site : Site) (first second : VectorView) : Prop :=
  first.stride = 2 ∧ second.stride = 2 ∧ 0 < min first.length second.length ∧
    swapStale T machine site (toUsize (min first.length second.length)) first.values.start second.values.start

theorem SwapLoses.different (loses : SwapLoses T machine site first second) : first.values.start ≠ second.values.start := by
  obtain ⟨_, _, several, _, stale⟩ := loses
  have inside : 0 < toUsize (min first.length second.length) := by simp only [toUsize]; omega
  have room : 0 < width T * (2 * toUsize (min first.length second.length) - 1) :=
    Nat.mul_pos LawfulElement.width_pos (by omega)
  intro same
  split at stale
  · rcases stale.2 with behind | before
    · have start := behind.1
      omega
    · have start := before.1
      omega
  · have start := stale.2.1
    omega

theorem swap_accepted {execution : Execution Nat R Unit Unit}
    (accepted : swapVectors T true machine site first second = .ok execution) :
    PairAccepted T first second (min first.length second.length) ∧
      execution = LevelOne.swap T machine site (min first.length second.length) first.values.start second.values.start
        (cellsFrom first.values.start) first.stride (cellsFrom second.values.start) second.stride := by
  obtain ⟨_, checks, accepted⟩ := bind_ok accepted
  obtain ⟨_, checks', accepted⟩ := bind_ok accepted
  obtain ⟨_, alone, accepted⟩ := bind_ok accepted
  obtain ⟨shared, lengths, accepted⟩ := bind_ok accepted
  have same := (pair_length lengths).1
  subst same
  refine ⟨pair_accepted checks checks' alone lengths, ?_⟩
  rw [← Except.ok.inj accepted]
  simp only [Core.swapVectors, Core.sharedLength, VectorView.shared, min_self]

-- A moved view keeps its first element, whatever the other holds.
theorem swap_needs_origins [Nontrivial R] (pair : PairAccepted T first second (min first.length second.length))
    (several : 0 < min first.length second.length) (apart : first.Apart T second)
    (swaps : SwapsElements T
      (LevelOne.swap T machine site (min first.length second.length) first.values.start second.values.start
        (cellsFrom first.values.start) first.stride (cellsFrom second.values.start) second.stride : Execution Nat R Unit Unit)
      first second) :
    first.SharedOrigin (min first.length second.length) ∧ second.SharedOrigin (min first.length second.length) := by
  have some : 0 < width T := LawfulElement.width_pos
  have inside : 0 < toUsize (min first.length second.length) := by simp only [toUsize]; omega
  obtain ⟨nonzeroFirst, nonzeroSecond⟩ := pair.strides several
  by_contra moved
  have back : first.stride < 0 ∨ second.stride < 0 := by
    simp only [VectorView.SharedOrigin] at moved
    omega
  have routine := swap_rewrites (R := R) (T := T) machine site nonzeroFirst nonzeroSecond
    (apart.disjoint (Int.min_le_left _ _) (Int.min_le_right _ _)) (fun two two' _ => by omega)
  have outsideFirst : ∀ j d, j < toUsize (min first.length second.length) → d < width T →
      (Operand.strided (width T) (min first.length second.length) second.stride (cellsFrom second.values.start)).address
        j d ≠ first.firstCell T := fun j d inside' part =>
    (apart.different (Int.le_refl _) (Int.min_le_right _ _) 0 j 0 d (by simp only [toUsize]; omega) inside' some part).symm
  have outsideSecond : ∀ j d, j < toUsize (min first.length second.length) → d < width T →
      (Operand.strided (width T) (min first.length second.length) first.stride (cellsFrom first.values.start)).address
        j d ≠ second.firstCell T := fun j d inside' part =>
    apart.different (Int.min_le_left _ _) (Int.le_refl _) j 0 d 0 inside' (by simp only [toUsize]; omega) part some
  have cellsApart : first.firstCell T ≠ second.firstCell T :=
    apart.different (Int.le_refl _) (Int.le_refl _) 0 0 0 0 (by simp only [toUsize]; omega) (by simp only [toUsize]; omega)
      some some
  rw [SwapsElements] at swaps
  generalize LevelOne.swap (R := R) T machine site (min first.length second.length) first.values.start second.values.start
    (cellsFrom first.values.start) first.stride (cellsFrom second.values.start) second.stride = execution at swaps routine
  by_cases origin : first.SharedOrigin (min first.length second.length)
  · have movedSecond : ¬ second.SharedOrigin (min first.length second.length) := fun other => moved ⟨origin, other⟩
    obtain ⟨_, final, outcome⟩ := execution.outcome_exists (fun place => if place = first.firstCell T then (1 : R) else 0)
    have claimed := (swaps _ _ _ outcome).written ⟨true, 0, 0⟩ ⟨some, inside⟩
    have kept := (routine _ _ _ outcome).kept (second.firstCell T) (fun cell member => by
      obtain ⟨side, j, d⟩ := cell
      cases side with
      | true => exact Nat.ne_of_lt (first_element_beyond nonzeroSecond (Int.min_le_right _ _) movedSecond j d member.2 member.1)
      | false => exact outsideSecond j d member.2 member.1)
    have both := claimed.symm.trans kept
    rw [if_neg (Ne.symm cellsApart)] at both
    exact one_ne_zero ((if_pos rfl).symm.trans both)
  · obtain ⟨_, final, outcome⟩ := execution.outcome_exists (fun place => if place = second.firstCell T then (1 : R) else 0)
    have claimed := (swaps _ _ _ outcome).written ⟨false, 0, 0⟩ ⟨some, inside⟩
    have kept := (routine _ _ _ outcome).kept (first.firstCell T) (fun cell member => by
      obtain ⟨side, j, d⟩ := cell
      cases side with
      | true => exact outsideFirst j d member.2 member.1
      | false => exact Nat.ne_of_lt (first_element_beyond nonzeroFirst (Int.min_le_left _ _) origin j d member.2 member.1))
    have both := claimed.symm.trans kept
    rw [if_neg cellsApart] at both
    exact one_ne_zero ((if_pos rfl).symm.trans both)

theorem swap_vectors_elements [Nontrivial R] {execution : Execution Nat R Unit Unit}
    (accepted : swapVectors T true machine site first second = .ok execution) :
    SwapsElements T execution first second ↔ SameOrigins first second ∧ ¬ SwapLoses T machine site first second := by
  obtain ⟨pair, rfl⟩ := swap_accepted accepted
  have nonneg := pair.nonneg
  by_cases several : 0 < min first.length second.length
  · obtain ⟨nonzeroFirst, nonzeroSecond⟩ := pair.strides several
    rcases pair.placed with same | apart
    · obtain ⟨starts, lengths, strides⟩ := exactly_match same
      refine ⟨fun _ => ⟨.inr ⟨.inr (by omega), .inr (by omega)⟩, fun loses => loses.different starts⟩, fun _ => ?_⟩
      have twice : min first.length second.length = second.length := by omega
      have whole : first.elements T = second.elements T := by
        rw [VectorView.elements, VectorView.elements, starts, lengths, strides]
      rw [SwapsElements, whole, twice, starts, strides]
      exact swap_itself machine site second.values.start nonzeroSecond
    · have clear := apart several
      have disjoint := clear.disjoint (Int.min_le_left first.length second.length) (Int.min_le_right _ _)
      constructor
      · intro swaps
        have origins := swap_needs_origins pair several clear swaps
        refine ⟨.inr origins, fun loses => ?_⟩
        rw [SwapsElements, ← origins.1.elements, ← origins.2.elements, loses.1, loses.2.1] at swaps
        rw [loses.1, loses.2.1] at disjoint
        exact swap_stale machine site loses.2.2.1 disjoint loses.2.2.2 swaps
      · rintro ⟨origins, keeps⟩
        rcases origins with empty | ⟨originFirst, originSecond⟩
        · omega
        · rw [SwapsElements, ← originFirst.elements, ← originSecond.elements]
          exact swap_rewrites machine site nonzeroFirst nonzeroSecond disjoint
            (fun two two' _ stale => keeps ⟨two, two', several, stale⟩)
  · refine ⟨fun _ => ⟨.inl (by omega), fun loses => several loses.2.2.1⟩, fun _ => ?_⟩
    rw [LevelOne.swap, if_pos (.inl (by omega))]
    exact rewrites_finished (fun memory cell member => absurd member.2 (no_indices (by omega) cell.index))

end Accepted

end Zynum.Api
