import Zynum.Api.VectorOperations

set_option autoImplicit false

/- What a view that passed its checks is: where its elements lie, and when two
   views have no cell in common. -/
namespace Zynum.Api

open ArrayProgram
open Element (width)
open LevelOne (realBytes cellsFrom Operand Disjoint2 Aligned)

section Errors

variable {A B : Type}

theorem bind_ok {first : Except Error A} {next : A → Except Error B} {result : B} (accepted : first >>= next = .ok result) :
    ∃ value, first = .ok value ∧ next value = .ok result := by
  cases first with
  | error problem => exact nomatch accepted
  | ok value => exact ⟨value, rfl, accepted⟩

theorem ensure_capacity {dataLen required : Nat} (accepted : ensureCapacity true dataLen required = .ok ()) :
    required ≤ dataLen := by
  rw [ensureCapacity, Bool.true_and] at accepted
  split at accepted
  · exact nomatch accepted
  · rename_i enough
    exact Nat.not_lt.mp (fun short => enough (decide_eq_true short))

end Errors

/- Elements of a vector view. -/
section Elements

def VectorView.span (view : VectorView) : Nat := 1 + (toUsize view.length - 1) * view.stride.natAbs

-- Logical elements as the view itself numbers them: a negative stride counts from the end of its own storage.
def VectorView.elements (T : Type) {R : Type} [Element R T] (view : VectorView) : Operand Nat :=
  Operand.strided (width T) view.length view.stride (cellsFrom view.values.start)

theorem required_span {view : VectorView} {required : Nat}
    (accepted : requiredVectorStorageLength view.length view.stride = .ok required) :
    0 ≤ view.length ∧ (0 < view.length → view.stride ≠ 0 ∧ required = view.span) := by
  rw [requiredVectorStorageLength] at accepted
  split at accepted
  · exact nomatch accepted
  split at accepted
  · exact ⟨by omega, by omega⟩
  · obtain ⟨step, strided, same⟩ := bind_ok accepted
    rw [absoluteStride] at strided
    split at strided
    · exact nomatch strided
    split at strided
    · exact nomatch strided
    · rename_i nonzero _
      refine ⟨by omega, fun _ => ⟨nonzero, ?_⟩⟩
      rw [← Except.ok.inj same, ← Except.ok.inj strided, VectorView.span]

theorem checked_vector {view : VectorView} (accepted : view.check true = .ok ()) :
    0 ≤ view.length ∧ (0 < view.length → view.stride ≠ 0 ∧ view.span ≤ view.values.len) := by
  rw [VectorView.check, validateVectorStorage] at accepted
  obtain ⟨required, known, capacity⟩ := bind_ok accepted
  obtain ⟨nonneg, spans⟩ := required_span known
  refine ⟨nonneg, fun several => ?_⟩
  obtain ⟨nonzero, same⟩ := spans several
  exact ⟨nonzero, same ▸ ensure_capacity capacity⟩

theorem ix_le (n stride : Int) (i : Nat) (small : i < toUsize n) :
    ix (startIndex n stride) i stride ≤ (toUsize n - 1) * stride.natAbs := by
  have positive : ¬ n ≤ 0 := by
    simp only [toUsize] at small
    omega
  have bound : (i : Int) ≤ n - 1 := by
    simp only [toUsize] at small
    omega
  have top : ((toUsize n - 1 : Nat) : Int) = n - 1 := by
    simp only [toUsize]
    omega
  refine Int.toNat_le.mpr ?_
  rw [Nat.cast_mul, top, Int.natCast_natAbs, startIndex, if_neg positive]
  by_cases forward : stride ≥ 0
  · rw [if_pos forward, zero_add, abs_of_nonneg forward]
    exact mul_le_mul_of_nonneg_right bound forward
  · rw [if_neg forward, abs_of_neg (by omega)]
    have rearranged : (1 - n) * stride + i * stride = (n - 1 - i) * (-stride) := by ring
    rw [rearranged]
    exact mul_le_mul_of_nonneg_right (by omega) (by omega)

variable {R T : Type} [Element R T]

theorem element_bounds {view : VectorView} {shared : Int} (small : shared ≤ view.length) (i c : Nat)
    (inside : i < toUsize shared) (part : c < width T) :
    view.values.start ≤ (Operand.strided (width T) shared view.stride (cellsFrom view.values.start)).address i c ∧
      (Operand.strided (width T) shared view.stride (cellsFrom view.values.start)).address i c <
        view.values.start + width T * view.span := by
  refine ⟨Nat.le_add_right _ _, ?_⟩
  have bound := ix_le shared view.stride i inside
  have fewer : toUsize shared - 1 ≤ toUsize view.length - 1 := by
    simp only [toUsize]
    omega
  have grown : (toUsize shared - 1) * view.stride.natAbs ≤ (toUsize view.length - 1) * view.stride.natAbs :=
    Nat.mul_le_mul_right _ fewer
  have cells : width T * ix (startIndex shared view.stride) i view.stride ≤
      width T * ((toUsize view.length - 1) * view.stride.natAbs) := Nat.mul_le_mul_left _ (bound.trans grown)
  change view.values.start + (width T * ix (startIndex shared view.stride) i view.stride + c) <
    view.values.start + width T * (1 + (toUsize view.length - 1) * view.stride.natAbs)
  rw [Nat.mul_add, Nat.mul_one]
  omega

variable (T) in
def VectorView.Apart (first second : VectorView) : Prop :=
  first.values.start + width T * first.span ≤ second.values.start ∨
    second.values.start + width T * second.span ≤ first.values.start

theorem VectorView.Apart.different {first second : VectorView} {n m : Int} (apart : first.Apart T second)
    (smallFirst : n ≤ first.length) (smallSecond : m ≤ second.length) (i j c d : Nat) (inside : i < toUsize n)
    (inside' : j < toUsize m) (part : c < width T) (part' : d < width T) :
    (Operand.strided (width T) n first.stride (cellsFrom first.values.start)).address i c ≠
      (Operand.strided (width T) m second.stride (cellsFrom second.values.start)).address j d := by
  have first := element_bounds smallFirst i c inside part
  have second := element_bounds smallSecond j d inside' part'
  intro same
  rcases apart with before | behind
  · omega
  · omega

theorem VectorView.Apart.disjoint {first second : VectorView} {shared : Int} (apart : first.Apart T second)
    (smallFirst : shared ≤ first.length) (smallSecond : shared ≤ second.length) :
    Disjoint2 (Operand.strided (width T) shared first.stride (cellsFrom first.values.start))
      (Operand.strided (width T) shared second.stride (cellsFrom second.values.start)) (Set.Iio (toUsize shared)) :=
  fun i j c d inside inside' part part' => apart.different smallFirst smallSecond i j c d inside inside' part part'

theorem aligned_itself (shared stride : Int) (start : Nat) (nonzero : stride ≠ 0) :
    Aligned (Operand.strided (width T) shared stride (cellsFrom start))
      (Operand.strided (width T) shared stride (cellsFrom start)) (Set.Iio (toUsize shared)) := by
  intro i j c d inside inside' part part' same
  have element : i = j := by
    by_contra different
    exact LevelOne.strided_separate (width T) start shared stride nonzero i j c d inside inside' part part' different same
  subst element
  have cell : start + (width T * ix (startIndex shared stride) i stride + c) =
      start + (width T * ix (startIndex shared stride) i stride + d) := same
  exact ⟨rfl, by omega⟩

end Elements

/- What the alias checks of two accepted views leave. -/
section Aliases

variable {R T : Type} [CommRing R] [CommRing T] [Element R T] [LawfulElement R T] {first second : VectorView}

theorem exactly_match (same : vectorsExactlyMatch first second = true) :
    first.values.start = second.values.start ∧ first.length = second.length ∧ first.stride = second.stride := by
  simp only [vectorsExactlyMatch, Bool.and_eq_true, beq_iff_eq] at same
  exact ⟨same.1.1, same.1.2, same.2⟩

omit [CommRing R] [CommRing T] [LawfulElement R T] in
theorem vector_range {view : VectorView} {range : ByteRange} (accepted : vectorRange T view = .ok range)
    (several : 0 < view.length) :
    range = ⟨view.values.start * realBytes (Scalar.precision T),
      view.values.start * realBytes (Scalar.precision T) + view.span * elementBytes T⟩ := by
  obtain ⟨required, known, ranged⟩ := bind_ok accepted
  have same := ((required_span known).2 several).2
  rw [byteRange] at ranged
  split at ranged
  · exact nomatch ranged
  split at ranged
  · exact nomatch ranged
  · rw [← Except.ok.inj ranged, same]

theorem real_bytes_pos (precision : Precision) : 0 < realBytes precision := by
  cases precision with
  | single => exact Nat.succ_pos 3
  | double => exact Nat.succ_pos 7

-- Two ranges of elements that do not overlap as bytes have no cell in common.
theorem ranges_leave_apart {start start' span span' : Nat} (some : 0 < span) (some' : 0 < span')
    (clear : ¬ ByteRange.overlap
      ⟨start * realBytes (Scalar.precision T), start * realBytes (Scalar.precision T) + span * elementBytes T⟩
      ⟨start' * realBytes (Scalar.precision T), start' * realBytes (Scalar.precision T) + span' * elementBytes T⟩) :
    start + width T * span ≤ start' ∨ start' + width T * span' ≤ start := by
  have wide : 0 < width T := LawfulElement.width_pos
  have bytes := real_bytes_pos (Scalar.precision T)
  have filled : ∀ first size, 0 < size → (⟨first, first + size * elementBytes T⟩ : ByteRange).isEmpty = false := by
    intro first size positive
    have room : 0 < size * elementBytes T := Nat.mul_pos positive (Nat.mul_pos wide bytes)
    exact beq_false_of_ne (show first ≠ first + size * elementBytes T by omega)
  have cells : ∀ first size, first * realBytes (Scalar.precision T) + size * elementBytes T =
      (first + width T * size) * realBytes (Scalar.precision T) := by
    intro first size
    rw [elementBytes]
    ring
  rw [ByteRange.overlap, filled _ _ some, filled _ _ some', Bool.or_false, if_neg Bool.false_ne_true, cells, cells] at clear
  by_contra together
  refine clear ?_
  rw [not_or, Nat.not_le, Nat.not_le] at together
  rw [Bool.and_eq_true]
  exact ⟨decide_eq_true (Nat.mul_lt_mul_of_pos_right together.2 bytes),
    decide_eq_true (Nat.mul_lt_mul_of_pos_right together.1 bytes)⟩

omit [CommRing R] [CommRing T] [LawfulElement R T] in
theorem span_pos (view : VectorView) : 0 < view.span := by
  rw [VectorView.span]
  omega

theorem no_overlap (accepted : ensureNoVectorOverlap T true first second = .ok ()) (several : 0 < first.length)
    (several' : 0 < second.length) : first.Apart T second := by
  rw [ensureNoVectorOverlap, Bool.not_true, if_neg Bool.false_ne_true] at accepted
  obtain ⟨left, known, accepted⟩ := bind_ok accepted
  obtain ⟨right, known', accepted⟩ := bind_ok accepted
  rw [vector_range known several, vector_range known' several'] at accepted
  split at accepted
  · exact nomatch accepted
  · rename_i clear
    exact ranges_leave_apart (span_pos first) (span_pos second) clear

omit [CommRing R] [CommRing T] [LawfulElement R T] in
theorem pair_length {a b shared : Int} (accepted : checkedPairLength a b = .ok shared) :
    shared = min a b ∧ 0 ≤ a ∧ 0 ≤ b := by
  rw [checkedPairLength] at accepted
  split at accepted
  · exact nomatch accepted
  · exact ⟨(Except.ok.inj accepted).symm, by omega, by omega⟩

variable (T) in
-- Two views an operation over their shared length has accepted.
structure PairAccepted (first second : VectorView) (shared : Int) : Prop where
  shortest : shared = min first.length second.length
  nonneg : 0 ≤ shared
  strides : 0 < shared → first.stride ≠ 0 ∧ second.stride ≠ 0
  placed : vectorsExactlyMatch first second = true ∨ (0 < shared → first.Apart T second)

theorem pair_accepted {shared : Int} (accepted : first.check true = .ok ()) (accepted' : second.check true = .ok ())
    (alone : ensureNoPartialVectorOverlap T true first second = .ok ())
    (lengths : checkedPairLength first.length second.length = .ok shared) : PairAccepted T first second shared := by
  obtain ⟨same, nonneg, nonneg'⟩ := pair_length lengths
  have firstStride := (checked_vector accepted).2
  have secondStride := (checked_vector accepted').2
  refine ⟨same, by omega, fun several => ⟨(firstStride (by omega)).1, (secondStride (by omega)).1⟩, ?_⟩
  rw [ensureNoPartialVectorOverlap, Bool.not_true, if_neg Bool.false_ne_true] at alone
  split at alone
  · rename_i exact
    exact .inl exact
  · exact .inr (fun several => no_overlap alone (by omega) (by omega))

end Aliases

end Zynum.Api
