import Zynum.Api.VectorOperationsExact

set_option autoImplicit false

/- The operations that write a result of the same length, and the dot products. -/
namespace Zynum.Api

open ArrayProgram
open Element (width parts whole)
open LevelOne

section Into

variable {R T : Type} [CommRing R] [CommRing T] [Element R T] [LawfulElement R T]
  {machine : VectorMachine} {site : Site} {source input result : VectorView}

variable (T) in
-- Every element of the result is the value made of the source and the input before the call.
def ResultElements (execution : Execution Nat R Unit Unit) (apply : (Nat → R) → (Nat → R) → Nat → R)
    (source input result : VectorView) : Prop :=
  Rewrites execution (slots (width T) (Set.Iio (toUsize result.length))) (slotAddress (result.elements T))
    (fun memory slot => apply ((source.elements T).element memory slot.1) ((input.elements T).element memory slot.1) slot.2)

omit [CommRing R] [CommRing T] [LawfulElement R T] in
-- The input is copied into the result, which is updated from the source afterwards.
theorem copy_then_update {first second : Execution Nat R Unit Unit} (apply : (Nat → R) → (Nat → R) → Nat → R)
    {indices : Set Nat} {source input result : Operand Nat} (sameWidth : source.width = result.width)
    (copied : Rewrites first (slots result.width indices) (slotAddress result) (pairValue (fun x _ => x) input result))
    (updated : Rewrites second (slots result.width indices) (slotAddress result) (pairValue apply source result))
    (elementwise : PairMap result.width apply) (disjoint : Disjoint2 source result indices) :
    Rewrites (first.andThen second) (slots result.width indices) (slotAddress result)
      (fun memory slot => apply (source.element memory slot.1) (input.element memory slot.1) slot.2) := by
  refine copied.andThen updated (fun memory middle early slot member => ?_)
  have inside : slot.1 ∈ indices := member.2
  refine elementwise _ _ _ _ (fun part small => ?_) (fun part small => ?_) slot.2 member.1
  · exact early.kept _ (fun other known same =>
      disjoint slot.1 other.1 part other.2 inside known.2 (sameWidth ▸ small) known.1 same.symm)
  · exact early.written (slot.1, part) ⟨small, inside⟩

theorem equal_length {a b : Int} (accepted : requireEqualLength a b = .ok ()) : 0 ≤ a ∧ a = b := by
  rw [requireEqualLength] at accepted
  split at accepted
  · exact nomatch accepted
  split at accepted
  · exact nomatch accepted
  · omega

variable (T) in
structure IntoAccepted (source input result : VectorView) : Prop where
  nonneg : 0 ≤ result.length
  sameSource : source.length = result.length
  sameInput : input.length = result.length
  strides : 0 < result.length → source.stride ≠ 0 ∧ input.stride ≠ 0 ∧ result.stride ≠ 0

theorem three_accepted (accepted : checkThreeVectors true source input result = .ok ()) :
    IntoAccepted source input result := by
  obtain ⟨_, checkSource, accepted⟩ := bind_ok accepted
  obtain ⟨_, checkInput, accepted⟩ := bind_ok accepted
  obtain ⟨_, checkResult, accepted⟩ := bind_ok accepted
  obtain ⟨_, sameSource, sameInput⟩ := bind_ok accepted
  have first := equal_length sameSource
  have second := equal_length sameInput
  refine ⟨by omega, by omega, second.2, fun several => ⟨?_, ?_, ?_⟩⟩
  · exact ((checked_vector checkSource).2 (by omega)).1
  · exact ((checked_vector checkInput).2 (by omega)).1
  · exact ((checked_vector checkResult).2 several).1

theorem into_accepted {inPlace : Except Error (Execution Nat R Unit Unit)} {copying execution : Execution Nat R Unit Unit}
    (accepted : (do
      checkThreeVectors true source input result
      if vectorsExactlyMatch input result then inPlace
      else
        ensureNoVectorOverlap T true result input
        ensureNoVectorOverlap T true result source
        return copying) = .ok execution) :
    IntoAccepted source input result ∧
      (vectorsExactlyMatch input result = true ∧ inPlace = .ok execution ∨
        (0 < result.length → result.Apart T input ∧ result.Apart T source) ∧ execution = copying) := by
  obtain ⟨_, checks, accepted⟩ := bind_ok accepted
  have facts := three_accepted checks
  refine ⟨facts, ?_⟩
  split at accepted
  · rename_i same
    exact .inl ⟨same, accepted⟩
  · obtain ⟨_, clearInput, accepted⟩ := bind_ok accepted
    obtain ⟨_, clearSource, accepted⟩ := bind_ok accepted
    have sameSource := facts.sameSource
    have sameInput := facts.sameInput
    exact .inr ⟨fun several => ⟨no_overlap clearInput several (by omega), no_overlap clearSource several (by omega)⟩,
      (Except.ok.inj accepted).symm⟩

omit [CommRing R] [CommRing T] [LawfulElement R T] in
theorem VectorView.Apart.swap {first second : VectorView} (apart : first.Apart T second) : second.Apart T first := apart.symm

omit [CommRing R] [CommRing T] [LawfulElement R T] in
theorem rewrites_no_elements {n : Int} {execution : Execution Nat R Unit Unit} {address : Nat × Nat → Nat}
    {value : (Nat → R) → Nat × Nat → R} (none : n ≤ 0) (idle : execution = finished) :
    Rewrites execution (slots (width T) (Set.Iio (toUsize n))) address value := by
  rw [idle]
  exact rewrites_finished (fun memory slot member => absurd member.2 (no_indices none slot.1))

theorem copy_into_result (machine : VectorMachine) (site : Site) (facts : IntoAccepted source input result)
    (apart : 0 < result.length → result.Apart T input) :
    Rewrites (copyVectorIntoResult T machine site input result) (slots (width T) (Set.Iio (toUsize result.length)))
      (slotAddress (result.elements T)) (pairValue (R := R) (fun x _ => x) (input.elements T) (result.elements T)) := by
  have same := facts.sameInput
  rw [copyVectorIntoResult, Core.copyVector]
  simp only [Core.sharedLength, VectorView.shared, VectorView.core, VectorView.elements, same, min_self]
  by_cases several : 0 < result.length
  · obtain ⟨_, nonzeroInput, nonzeroResult⟩ := facts.strides several
    have disjoint := (apart several).swap.disjoint (Int.le_of_eq same.symm) (Int.le_refl result.length)
    exact copy_rewrites machine site nonzeroInput nonzeroResult disjoint.aligned
  · exact rewrites_no_elements (by omega) (by rw [LevelOne.copy, if_pos (.inl (by omega))])

theorem scale_result (machine : VectorMachine) (site : Site) (facts : IntoAccepted source input result) (scale : T) :
    Rewrites (Core.scaleVector machine site result.core scale) (slots (width T) (Set.Iio (toUsize result.length)))
      (slotAddress (result.elements T)) (slotValue (scalRule scale) (result.elements T)) := by
  rw [Core.scaleVector]
  by_cases several : 0 < result.length
  · exact scal_rewrites machine site result.length scale result.values.start result.stride (facts.strides several).2.2
  · exact rewrites_no_elements (by omega) (by rw [LevelOne.scal, if_pos (.inl (show result.length ≤ 0 by omega))])

omit [CommRing R] [CommRing T] [LawfulElement R T] in
theorem disjoint_result (facts : IntoAccepted source input result) (apart : 0 < result.length → result.Apart T source) :
    Disjoint2 (source.elements T) (result.elements T) (Set.Iio (toUsize result.length)) := by
  by_cases several : 0 < result.length
  · have same := facts.sameSource
    have disjoint := (apart several).swap.disjoint (Int.le_of_eq same.symm) (Int.le_refl result.length)
    rw [VectorView.elements, VectorView.elements, same]
    exact disjoint
  · intro i j c d inside
    exact absurd inside (no_indices (by omega) i)

theorem scale_into_accepted {scale : T} {execution : Execution Nat R Unit Unit}
    (accepted : scaleVectorInto true machine site input result scale = .ok execution) :
    IntoAccepted input input result ∧
      (vectorsExactlyMatch input result = true ∧ execution = Core.scaleVector machine site result.core scale ∨
        (0 < result.length → result.Apart T input) ∧
          execution = executeScaleVectorIntoNoAlias machine site input result scale) := by
  obtain ⟨_, checkInput, accepted⟩ := bind_ok accepted
  obtain ⟨_, checkResult, accepted⟩ := bind_ok accepted
  obtain ⟨_, lengths, accepted⟩ := bind_ok accepted
  have same := equal_length lengths
  have strideInput := (checked_vector checkInput).2
  have facts : IntoAccepted input input result :=
    ⟨by omega, same.2, same.2, fun several => ⟨(strideInput (by omega)).1, (strideInput (by omega)).1,
      ((checked_vector checkResult).2 several).1⟩⟩
  refine ⟨facts, ?_⟩
  split at accepted
  · rename_i match_
    obtain ⟨_, _, accepted⟩ := bind_ok accepted
    exact .inl ⟨match_, (Except.ok.inj accepted).symm⟩
  · rename_i different
    obtain ⟨_, clear, accepted⟩ := bind_ok accepted
    refine .inr ⟨fun several => ?_, (Except.ok.inj accepted).symm⟩
    rw [ensureVectorIntoAliases, Bool.not_true, if_neg Bool.false_ne_true, if_neg different] at clear
    exact (no_overlap clear (by omega) several).swap

omit [CommRing R] [CommRing T] [LawfulElement R T] in
theorem exact_elements (same : vectorsExactlyMatch input result = true) : input.elements T = result.elements T := by
  obtain ⟨starts, lengths, strides⟩ := exactly_match same
  rw [VectorView.elements, VectorView.elements, starts, lengths, strides]

theorem scale_vector_into_elements {scale : T} {execution : Execution Nat R Unit Unit}
    (accepted : scaleVectorInto true machine site input result scale = .ok execution) :
    ResultElements T execution (fun x _ => scalRule scale x) input input result := by
  obtain ⟨facts, answer⟩ := scale_into_accepted accepted
  rcases answer with ⟨same, rfl⟩ | ⟨apart, rfl⟩
  · rw [ResultElements, exact_elements same]
    exact scale_result machine site facts scale
  · have copied := copy_into_result machine (0 :: site) facts apart
    have scaled := scale_result machine (1 :: site) facts scale
    exact copy_then_update (fun _ y => scalRule scale y)
      (show (input.elements T).width = (result.elements T).width from rfl) copied scaled
      (fun _ _ y y' _ sameY => scal_rule_map scale y y' sameY) (disjoint_result facts apart)

theorem add_scaled_shared (machine : VectorMachine) (site : Site) (facts : IntoAccepted source input result) (scale : T)
    (aligned : Aligned (source.elements T) (result.elements T) (Set.Iio (toUsize result.length))) :
    Rewrites (Core.addScaledVector machine site source.core result.core scale)
      (slots (width T) (Set.Iio (toUsize result.length))) (slotAddress (result.elements T))
      (pairValue (axpyRule scale) (source.elements T) (result.elements T)) := by
  have same := facts.sameSource
  rw [Core.addScaledVector]
  simp only [Core.sharedLength, VectorView.core, VectorView.elements, same, min_self] at aligned ⊢
  by_cases several : 0 < result.length
  · obtain ⟨nonzeroSource, _, nonzeroResult⟩ := facts.strides several
    exact axpy_rewrites machine site scale nonzeroSource nonzeroResult aligned
  · exact rewrites_no_elements (by omega) (by rw [LevelOne.axpy, if_pos (.inl (by omega))])

theorem combine_shared (machine : VectorMachine) (site : Site) (facts : IntoAccepted source input result)
    (sourceScale resultScale : T)
    (aligned : Aligned (source.elements T) (result.elements T) (Set.Iio (toUsize result.length))) :
    Rewrites (Core.combineVectors machine site source.core result.core sourceScale resultScale)
      (slots (width T) (Set.Iio (toUsize result.length))) (slotAddress (result.elements T))
      (pairValue (axpbyRule sourceScale resultScale) (source.elements T) (result.elements T)) := by
  have same := facts.sameSource
  rw [Core.combineVectors]
  simp only [Core.sharedLength, VectorView.core, VectorView.elements, same, min_self] at aligned ⊢
  by_cases several : 0 < result.length
  · obtain ⟨nonzeroSource, _, nonzeroResult⟩ := facts.strides several
    exact axpby_rewrites machine site sourceScale resultScale nonzeroSource nonzeroResult aligned
  · exact rewrites_no_elements (by omega) (by rw [LevelOne.axpby, if_pos (.inl (by omega))])

theorem in_place_aligned (facts : IntoAccepted source input result) {shared : Int}
    (checks : source.check true = .ok ()) (checks' : result.check true = .ok ())
    (alone : ensureNoPartialVectorOverlap T true source result = .ok ())
    (lengths : checkedPairLength source.length result.length = .ok shared) :
    source.shared shared = source.core ∧ result.shared shared = result.core ∧
      Aligned (source.elements T) (result.elements T) (Set.Iio (toUsize result.length)) := by
  have pair := pair_accepted checks checks' alone lengths
  have aligned := pair.aligned
  have same := facts.sameSource
  have shortest := pair.shortest
  rw [same, min_self] at shortest
  subst shortest
  refine ⟨by rw [VectorView.shared, VectorView.core, same], rfl, ?_⟩
  rw [VectorView.elements, VectorView.elements, same]
  exact aligned

theorem add_scaled_vector_into_elements {scale : T} {execution : Execution Nat R Unit Unit}
    (accepted : addScaledVectorInto true machine site source input result scale = .ok execution) :
    ResultElements T execution (axpyRule scale) source input result := by
  obtain ⟨facts, answer⟩ := into_accepted accepted
  rcases answer with ⟨same, inPlace⟩ | ⟨apart, rfl⟩
  · obtain ⟨_, checks, inPlace⟩ := bind_ok inPlace
    obtain ⟨_, checks', inPlace⟩ := bind_ok inPlace
    obtain ⟨_, alone, inPlace⟩ := bind_ok inPlace
    obtain ⟨shared, lengths, inPlace⟩ := bind_ok inPlace
    obtain ⟨wholeSource, wholeResult, aligned⟩ := in_place_aligned facts checks checks' alone lengths
    rw [← Except.ok.inj inPlace, wholeSource, wholeResult, ResultElements, exact_elements same]
    exact add_scaled_shared machine site facts scale aligned
  · have copied := copy_into_result machine (0 :: site) facts (fun several => (apart several).1)
    have disjoint := disjoint_result facts (fun several => (apart several).2)
    have updated := add_scaled_shared machine (1 :: site) facts scale disjoint.aligned
    exact copy_then_update _ (show (source.elements T).width = (result.elements T).width from rfl) copied updated
      (axpy_rule_map scale) disjoint

theorem combine_vectors_into_elements {sourceScale inputScale : T} {execution : Execution Nat R Unit Unit}
    (accepted : combineVectorsInto true machine site source input result sourceScale inputScale = .ok execution) :
    ResultElements T execution (axpbyRule sourceScale inputScale) source input result := by
  obtain ⟨facts, answer⟩ := into_accepted accepted
  rcases answer with ⟨same, inPlace⟩ | ⟨apart, rfl⟩
  · obtain ⟨_, checks, inPlace⟩ := bind_ok inPlace
    obtain ⟨_, checks', inPlace⟩ := bind_ok inPlace
    obtain ⟨_, alone, inPlace⟩ := bind_ok inPlace
    obtain ⟨shared, lengths, inPlace⟩ := bind_ok inPlace
    obtain ⟨wholeSource, wholeResult, aligned⟩ := in_place_aligned facts checks checks' alone lengths
    rw [← Except.ok.inj inPlace, wholeSource, wholeResult, ResultElements, exact_elements same]
    exact combine_shared machine site facts sourceScale inputScale aligned
  · have copied := copy_into_result machine (0 :: site) facts (fun several => (apart several).1)
    have disjoint := disjoint_result facts (fun several => (apart several).2)
    have updated := combine_shared machine (1 :: site) facts sourceScale inputScale disjoint.aligned
    exact copy_then_update _ (show (source.elements T).width = (result.elements T).width from rfl) copied updated
      (axpby_rule_map sourceScale inputScale) disjoint

end Into

section Conjugates

variable {T : Type} [CommRing T] [Scalar T] [LawfulScalar T]

theorem conjugate_nonzero {value : T} (nonzero : value ≠ 0) (doConj : Bool) : conjugateIf value doConj ≠ 0 := by
  cases doConj with
  | false => exact nonzero
  | true =>
    intro zero
    refine nonzero ?_
    rw [← LawfulScalar.conj_conj value, show conj value = 0 from zero, conj_zero]

theorem conjugate_power (exponent : Nat) (value : T) (doConj : Bool) :
    conjugateIf (2 ^ exponent * value) doConj = 2 ^ exponent * conjugateIf value doConj := by
  cases doConj with
  | false => rfl
  | true =>
    have two : conjHom T (2 ^ exponent) = 2 ^ exponent := by rw [map_pow, map_ofNat]
    change conjHom T (2 ^ exponent * value) = 2 ^ exponent * conjHom T value
    rw [map_mul, two]

end Conjugates

/- A dot product over the wrong elements differs in the memory of powers of two:
   every product is too small by the same power. -/
section Dot

variable {R T : Type} [CommRing R] [LinearOrder R] [IsStrictOrderedRing R] [CommRing T] [Element R T] [LawfulElement R T]
  {machine : VectorMachine} {site : Site} {left right : VectorView}

variable (T) in
def DotsElements (execution : Execution Nat R T T) (conjugateLeft : Bool) (left right : VectorView) : Prop :=
  Returns execution (fun memory => ∑ i ∈ Finset.range (toUsize (min left.length right.length)),
    conjugateIf (whole ((left.elements T).element memory i) : T) conjugateLeft *
      whole ((right.elements T).element memory i))

def powers (place : Nat) : R := 2 ^ place

variable (R T) in
def unitPowers : T := whole (powers : Nat → R)

omit [LinearOrder R] [IsStrictOrderedRing R] in
theorem whole_scaled (exponent : Nat) (value : Nat → R) :
    (whole (fun part => 2 ^ exponent * value part) : T) = 2 ^ exponent * whole value := by
  induction exponent with
  | zero =>
    rw [pow_zero (2 : T), one_mul (whole value : T)]
    exact LawfulElement.whole_congr _ _ (fun part _ => by rw [pow_zero, one_mul])
  | succ exponent ih =>
    have doubled : (2 ^ (exponent + 1) * whole value : T) =
        2 ^ exponent * whole value + 2 ^ exponent * whole value := by ring
    rw [doubled, ← ih, ← LawfulElement.whole_parts (whole _ + whole _)]
    refine LawfulElement.whole_congr _ _ (fun part small => ?_)
    rw [LawfulElement.parts_add, LawfulElement.parts_whole _ _ small]
    ring

omit [LinearOrder R] [IsStrictOrderedRing R] in
theorem whole_powers (operand : Operand Nat) (i : Nat)
    (consecutive : ∀ part, part < width T → operand.address i part = operand.address i 0 + part) :
    (whole (operand.element (powers : Nat → R) i) : T) = 2 ^ operand.address i 0 * unitPowers R T := by
  rw [unitPowers, ← whole_scaled]
  refine LawfulElement.whole_congr _ _ (fun part small => ?_)
  change (2 : R) ^ operand.address i part = 2 ^ operand.address i 0 * 2 ^ part
  rw [consecutive part small, pow_add]

omit [LinearOrder R] [IsStrictOrderedRing R] in
theorem parts_zero (part : Nat) : parts (0 : T) part = (0 : R) := by
  have doubled : parts ((0 : T) + 0) part = (parts (0 : T) part + parts (0 : T) part : R) :=
    LawfulElement.parts_add (0 : T) 0 part
  rw [add_zero] at doubled
  exact left_eq_add.mp doubled

omit [LinearOrder R] [IsStrictOrderedRing R] in
theorem parts_multiple (count : Nat) (value : T) (part : Nat) :
    parts ((count : T) * value) part = (count * parts value part : R) := by
  induction count with
  | zero => rw [Nat.cast_zero, Nat.cast_zero, zero_mul, zero_mul, parts_zero]
  | succ count ih => rw [Nat.cast_succ, Nat.cast_succ, add_mul, add_mul, one_mul, one_mul, LawfulElement.parts_add, ih]

theorem multiples_differ (R : Type) {T : Type} [CommRing R] [LinearOrder R] [IsStrictOrderedRing R] [CommRing T]
    [Element R T] [LawfulElement R T] {first second : Nat} {value : T} (different : first ≠ second)
    (same : (first : T) * value = second * value) : value = 0 := by
  have nothing : ∀ part, parts value part = (0 : R) := by
    intro part
    have both : (parts ((first : T) * value) part : R) = parts ((second : T) * value) part := by rw [same]
    rw [parts_multiple, parts_multiple] at both
    rcases mul_eq_mul_right_iff.mp both with equal | zero
    · exact absurd (Nat.cast_injective equal) different
    · exact zero
  rw [← LawfulElement.whole_parts value, ← LawfulElement.whole_parts (0 : T)]
  exact LawfulElement.whole_congr _ _ (fun part _ => (nothing part).trans (parts_zero part).symm)

theorem unit_powers_nonzero : unitPowers R T ≠ 0 := by
  intro zero
  have first : parts (unitPowers R T) 0 = (powers 0 : R) := LawfulElement.parts_whole _ _ LawfulElement.width_pos
  rw [zero, parts_zero] at first
  exact one_ne_zero ((first.trans (pow_zero (2 : R))).symm)

omit [LinearOrder R] [IsStrictOrderedRing R] in
-- In the memory of powers a dot product is a power of two for each element.
theorem dot_of_powers (x y : Operand Nat) (count : Nat)
    (consecutiveX : ∀ i part, part < width T → x.address i part = x.address i 0 + part)
    (consecutiveY : ∀ i part, part < width T → y.address i part = y.address i 0 + part) (doConj : Bool) :
    ∑ i ∈ Finset.range count, conjugateIf (whole (x.element (powers : Nat → R) i) : T) doConj *
        whole (y.element (powers : Nat → R) i) =
      ((∑ i ∈ Finset.range count, 2 ^ (x.address i 0 + y.address i 0) : Nat) : T) *
        (conjugateIf (unitPowers R T) doConj * unitPowers R T) := by
  rw [Nat.cast_sum, Finset.sum_mul]
  refine Finset.sum_congr rfl (fun i _ => ?_)
  rw [whole_powers x i (consecutiveX i), whole_powers y i (consecutiveY i), conjugate_power, pow_add,
    Nat.cast_mul, Nat.cast_pow, Nat.cast_pow, Nat.cast_ofNat]
  ring

omit [LinearOrder R] [IsStrictOrderedRing R] [LawfulElement R T] in
theorem dot_accepted {execution : Execution Nat R T T} {conjugateLeft : Bool}
    (accepted : dotProductView true machine site left right conjugateLeft = .ok execution) :
    0 ≤ min left.length right.length ∧ (0 < min left.length right.length → left.stride ≠ 0 ∧ right.stride ≠ 0) ∧
      execution = LevelOne.dot machine site (min left.length right.length) (cellsFrom left.values.start) left.stride
        (cellsFrom right.values.start) right.stride conjugateLeft := by
  obtain ⟨_, checks, accepted⟩ := bind_ok accepted
  obtain ⟨_, checks', accepted⟩ := bind_ok accepted
  obtain ⟨shared, lengths, accepted⟩ := bind_ok accepted
  obtain ⟨same, nonneg, nonneg'⟩ := pair_length lengths
  subst same
  refine ⟨by omega, fun several => ⟨?_, ?_⟩, ?_⟩
  · exact ((checked_vector checks).2 (by omega)).1
  · exact ((checked_vector checks').2 (by omega)).1
  · rw [← Except.ok.inj accepted]
    simp only [Core.dotProduct, Core.sharedLength, VectorView.shared, min_self]

omit [CommRing R] [LinearOrder R] [IsStrictOrderedRing R] [CommRing T] [LawfulElement R T] in
-- Powers of two at addresses that moved up add up to something larger.
theorem moved_sum {a a' b b' : Nat → Nat} {count shift shift' : Nat} (some : 0 < count) (moved : 0 < shift + shift')
    (placed : ∀ i, i < count → a i = a' i + shift) (placed' : ∀ i, i < count → b i = b' i + shift') :
    ∑ i ∈ Finset.range count, 2 ^ (a i + b i) ≠ ∑ i ∈ Finset.range count, 2 ^ (a' i + b' i) := by
  have scaled : ∑ i ∈ Finset.range count, 2 ^ (a i + b i) =
      (∑ i ∈ Finset.range count, 2 ^ (a' i + b' i)) * 2 ^ (shift + shift') := by
    rw [Finset.sum_mul]
    refine Finset.sum_congr rfl (fun i member => ?_)
    have small := Finset.mem_range.mp member
    rw [placed i small, placed' i small, ← pow_add, Nat.add_add_add_comm]
  have positive : 0 < ∑ i ∈ Finset.range count, 2 ^ (a' i + b' i) :=
    Finset.sum_pos (fun i _ => Nat.two_pow_pos _) ⟨0, Finset.mem_range.mpr some⟩
  have larger : 1 < 2 ^ (shift + shift') := Nat.one_lt_two_pow (Nat.ne_of_gt moved)
  rw [scaled]
  exact Nat.ne_of_gt ((Nat.lt_mul_iff_one_lt_right positive).mpr larger)

omit [CommRing R] [LinearOrder R] [IsStrictOrderedRing R] [CommRing T] [LawfulElement R T] in
theorem strided_consecutive (n stride : Int) (start i part : Nat) :
    (Operand.strided (width T) n stride (cellsFrom start)).address i part =
      (Operand.strided (width T) n stride (cellsFrom start)).address i 0 + part := by
  change start + (width T * ix (startIndex n stride) i stride + part) =
    start + (width T * ix (startIndex n stride) i stride + 0) + part
  omega

omit [LinearOrder R] [IsStrictOrderedRing R] in
theorem dot_shared (machine : VectorMachine) (site : Site) (left right : VectorView) (shared : Int) (conjugateLeft : Bool)
    (nonzeroLeft : left.stride ≠ 0) (nonzeroRight : right.stride ≠ 0) :
    Returns (LevelOne.dot machine site shared (cellsFrom left.values.start) left.stride (cellsFrom right.values.start)
      right.stride conjugateLeft)
      (fun memory => ∑ i ∈ Finset.range (toUsize shared), productTerm (R := R) (T := T) conjugateLeft
        (Operand.strided (width T) shared left.stride (cellsFrom left.values.start))
        (Operand.strided (width T) shared right.stride (cellsFrom right.values.start)) memory i) :=
  dot_returns machine site conjugateLeft nonzeroLeft nonzeroRight

-- A call that returned the product of the logical elements counted both views from their own ends.
theorem dot_needs_origins [NoZeroDivisors T] {conjugateLeft : Bool} (several : 0 < min left.length right.length)
    (nonzeroLeft : left.stride ≠ 0) (nonzeroRight : right.stride ≠ 0)
    (dots : DotsElements (R := R) T (LevelOne.dot machine site (min left.length right.length)
      (cellsFrom left.values.start) left.stride (cellsFrom right.values.start) right.stride conjugateLeft)
      conjugateLeft left right) :
    left.SharedOrigin (min left.length right.length) ∧ right.SharedOrigin (min left.length right.length) := by
  have some : 0 < width T := LawfulElement.width_pos
  have inside : 0 < toUsize (min left.length right.length) := by
    simp only [toUsize]
    omega
  have routine := dot_shared (R := R) (T := T) machine site left right (min left.length right.length) conjugateLeft
    nonzeroLeft nonzeroRight
  have default : Inhabited T := ⟨0⟩
  rw [DotsElements] at dots
  generalize LevelOne.dot (R := R) (T := T) machine site (min left.length right.length) (cellsFrom left.values.start)
    left.stride (cellsFrom right.values.start) right.stride conjugateLeft = execution at dots routine
  by_contra moved
  obtain ⟨shiftLeft, placedLeft, movedLeft⟩ :=
    shared_shift (T := T) nonzeroLeft (Int.min_le_left left.length right.length)
  obtain ⟨shiftRight, placedRight, movedRight⟩ :=
    shared_shift (T := T) nonzeroRight (Int.min_le_right left.length right.length)
  have shifted : 0 < shiftLeft + shiftRight := by
    by_cases origin : left.SharedOrigin (min left.length right.length)
    · have positive := movedRight some inside (fun other => moved ⟨origin, other⟩)
      omega
    · have positive := movedLeft some inside origin
      omega
  obtain ⟨value, final, outcome⟩ := execution.outcome_exists (powers : Nat → R)
  have claimed := (dots _ _ _ outcome).1
  rw [(routine _ _ _ outcome).1] at claimed
  have own := dot_of_powers (R := R) (T := T) (left.elements T) (right.elements T) (toUsize (min left.length right.length))
    (fun i part _ => strided_consecutive _ _ _ i part) (fun i part _ => strided_consecutive _ _ _ i part) conjugateLeft
  have shared := dot_of_powers (R := R) (T := T)
    (Operand.strided (width T) (min left.length right.length) left.stride (cellsFrom left.values.start))
    (Operand.strided (width T) (min left.length right.length) right.stride (cellsFrom right.values.start))
    (toUsize (min left.length right.length))
    (fun i part _ => strided_consecutive _ _ _ i part) (fun i part _ => strided_consecutive _ _ _ i part) conjugateLeft
  have different := moved_sum inside shifted placedLeft placedRight
  have zero := multiples_differ R different (own.symm.trans (claimed.symm.trans shared))
  rcases mul_eq_zero.mp zero with conjugated | plain
  · exact conjugate_nonzero (unit_powers_nonzero (R := R)) conjugateLeft conjugated
  · exact unit_powers_nonzero (R := R) plain

theorem dot_product_elements [NoZeroDivisors T] {execution : Execution Nat R T T} {conjugateLeft : Bool}
    (accepted : dotProductView true machine site left right conjugateLeft = .ok execution) :
    DotsElements T execution conjugateLeft left right ↔ SameOrigins left right := by
  obtain ⟨nonneg, strides, rfl⟩ := dot_accepted accepted
  by_cases several : 0 < min left.length right.length
  · obtain ⟨nonzeroLeft, nonzeroRight⟩ := strides several
    refine ⟨fun dots => .inr (dot_needs_origins several nonzeroLeft nonzeroRight dots), fun origins => ?_⟩
    have routine := dot_shared (R := R) (T := T) machine site left right (min left.length right.length) conjugateLeft
      nonzeroLeft nonzeroRight
    rcases origins with empty | ⟨originLeft, originRight⟩
    · omega
    · rw [originLeft.elements, originRight.elements] at routine
      exact routine
  · refine ⟨fun _ => .inl (by omega), fun _ => ?_⟩
    have none : toUsize (min left.length right.length) = 0 := by
      simp only [toUsize]
      omega
    rw [DotsElements, LevelOne.dot, if_pos (show _ ∨ _ from .inl (by omega)), none]
    exact returns_single (fun memory => by
      rw [Finset.range_zero, Finset.sum_empty]
      rfl)

end Dot

/- Every operation over the logical elements of its views. -/
section Calls

inductive ViewCall (T : Type) where
  | copyVector (source destination : VectorView)
  | swapVectors (first second : VectorView)
  | scaleVectorInto (input result : VectorView) (scale : T)
  | addScaledVectorInto (source input result : VectorView) (scale : T)
  | combineVectorsInto (source input result : VectorView) (sourceScale inputScale : T)
  | dotProduct (left right : VectorView)
  | conjugatedDotProduct (left right : VectorView)

variable {R T : Type} [CommRing R] [LinearOrder R] [CommRing T] [Element R T]

namespace ViewCall

def Accepted (call : ViewCall T) (machine : VectorMachine) (site : Site) : Prop :=
  match call with
  | copyVector source destination =>
    ∃ execution, Api.copyVector (R := R) T true machine site source destination = .ok execution
  | swapVectors first second => ∃ execution, Api.swapVectors (R := R) T true machine site first second = .ok execution
  | scaleVectorInto input result scale =>
    ∃ execution, Api.scaleVectorInto true machine site input result scale = .ok execution
  | addScaledVectorInto source input result scale =>
    ∃ execution, Api.addScaledVectorInto true machine site source input result scale = .ok execution
  | combineVectorsInto source input result sourceScale inputScale =>
    ∃ execution, Api.combineVectorsInto true machine site source input result sourceScale inputScale = .ok execution
  | dotProduct left right => ∃ execution, Api.dotProduct T true machine site left right = .ok execution
  | conjugatedDotProduct left right => ∃ execution, Api.conjugatedDotProduct T true machine site left right = .ok execution

-- The call pairs logical element i of one view with logical element i of the other, and changes nothing else.
def PairsElements (call : ViewCall T) (machine : VectorMachine) (site : Site) : Prop :=
  match call with
  | copyVector source destination =>
    ∀ execution, Api.copyVector (R := R) T true machine site source destination = .ok execution →
      UpdatesElements T execution (fun x _ => x) source destination
  | swapVectors first second => ∀ execution, Api.swapVectors (R := R) T true machine site first second = .ok execution →
      SwapsElements T execution first second
  | scaleVectorInto input result scale =>
    ∀ execution, Api.scaleVectorInto true machine site input result scale = .ok execution →
      ResultElements T execution (fun x _ => scalRule scale x) input input result
  | addScaledVectorInto source input result scale =>
    ∀ execution, Api.addScaledVectorInto true machine site source input result scale = .ok execution →
      ResultElements T execution (axpyRule scale) source input result
  | combineVectorsInto source input result sourceScale inputScale =>
    ∀ execution, Api.combineVectorsInto true machine site source input result sourceScale inputScale = .ok execution →
      ResultElements T execution (axpbyRule sourceScale inputScale) source input result
  | dotProduct left right => ∀ execution, Api.dotProduct T true machine site left right = .ok execution →
      DotsElements T execution false left right
  | conjugatedDotProduct left right =>
    ∀ execution, Api.conjugatedDotProduct T true machine site left right = .ok execution →
      DotsElements T execution true left right

-- The routine counts every view from the end of its own storage, and the stride 2 loops of swap lose nothing.
def CountsFromEnds (call : ViewCall T) (machine : VectorMachine) (site : Site) : Prop :=
  match call with
  | copyVector first second | dotProduct first second | conjugatedDotProduct first second => SameOrigins first second
  | swapVectors first second => SameOrigins first second ∧ ¬ SwapLoses T machine site first second
  | scaleVectorInto _ _ _ | addScaledVectorInto _ _ _ _ | combineVectorsInto _ _ _ _ _ => True

end ViewCall

theorem vector_operations_pair_elements [IsStrictOrderedRing R] [LawfulElement R T] [NoZeroDivisors T] (call : ViewCall T)
    (machine : VectorMachine) (site : Site) (accepted : call.Accepted machine site) :
    call.PairsElements machine site ↔ call.CountsFromEnds machine site := by
  cases call with
  | copyVector source destination =>
    obtain ⟨execution, known⟩ := accepted
    rw [← show _ ↔ ViewCall.CountsFromEnds _ machine site from copy_vector_elements known]
    exact ⟨fun pairs => pairs execution known, fun pairs other same => Except.ok.inj (known.symm.trans same) ▸ pairs⟩
  | swapVectors first second =>
    obtain ⟨execution, known⟩ := accepted
    rw [← show _ ↔ ViewCall.CountsFromEnds _ machine site from swap_vectors_elements known]
    exact ⟨fun pairs => pairs execution known, fun pairs other same => Except.ok.inj (known.symm.trans same) ▸ pairs⟩
  | scaleVectorInto input result scale =>
    exact ⟨fun _ => trivial, fun _ execution known => scale_vector_into_elements known⟩
  | addScaledVectorInto source input result scale =>
    exact ⟨fun _ => trivial, fun _ execution known => add_scaled_vector_into_elements known⟩
  | combineVectorsInto source input result sourceScale inputScale =>
    exact ⟨fun _ => trivial, fun _ execution known => combine_vectors_into_elements known⟩
  | dotProduct left right =>
    obtain ⟨execution, known⟩ := accepted
    rw [← show _ ↔ ViewCall.CountsFromEnds _ machine site from dot_product_elements known]
    exact ⟨fun pairs => pairs execution known, fun pairs other same => Except.ok.inj (known.symm.trans same) ▸ pairs⟩
  | conjugatedDotProduct left right =>
    obtain ⟨execution, known⟩ := accepted
    rw [← show _ ↔ ViewCall.CountsFromEnds _ machine site from dot_product_elements known]
    exact ⟨fun pairs => pairs execution known, fun pairs other same => Except.ok.inj (known.symm.trans same) ▸ pairs⟩

end Calls

section Witnesses

-- Three elements from the end of their storage, and two elements.
def threeBackwards : VectorView := ⟨⟨0, 3⟩, 3, -1⟩
def twoForwards : VectorView := ⟨⟨3, 2⟩, 2, 1⟩

-- Three elements in the order of their storage, next to each other and three apart.
def threeOnwards : VectorView := ⟨⟨3, 3⟩, 3, 1⟩
def threeApart : VectorView := ⟨⟨8, 7⟩, 3, -3⟩

theorem copy_of_longer_backwards_misses :
    @ViewCall.Accepted ℤ ℤ _ _ (realElement ℤ .double) (.copyVector threeBackwards twoForwards) portableMachine [] ∧
      ¬ @ViewCall.PairsElements ℤ ℤ _ _ (realElement ℤ .double) (.copyVector threeBackwards twoForwards)
        portableMachine [] := by
  let _ := realElement ℤ .double
  have lawful : LawfulElement ℤ ℤ := real_element_lawful ℤ .double
  have accepted : ViewCall.Accepted (R := ℤ) (T := ℤ) (.copyVector threeBackwards twoForwards) portableMachine [] :=
    ⟨_, rfl⟩
  refine ⟨accepted, fun pairs => ?_⟩
  obtain ⟨execution, known⟩ := accepted
  rcases (copy_vector_elements known).mp (pairs execution known) with empty | origins
  · exact absurd empty (by decide)
  · rcases origins.1 with forward | whole
    · exact absurd forward (by decide)
    · exact absurd whole (by decide)

theorem vector_operations_pair_elements_forwards :
    @ViewCall.PairsElements ℤ ℤ _ _ (realElement ℤ .double) (.dotProduct twoForwards twoForwards) portableMachine [] ∧
      @ViewCall.PairsElements ℤ ℤ _ _ (realElement ℤ .double) (.swapVectors threeBackwards threeOnwards) portableMachine [] ∧
      @ViewCall.PairsElements ℤ ℤ _ _ (realElement ℤ .double)
        (.addScaledVectorInto threeBackwards threeOnwards threeApart 5) portableMachine [] := by
  let _ := realElement ℤ .double
  have lawful : LawfulElement ℤ ℤ := real_element_lawful ℤ .double
  refine ⟨(vector_operations_pair_elements (R := ℤ) (T := ℤ) (.dotProduct twoForwards twoForwards) portableMachine []
      ⟨_, rfl⟩).mpr ?_,
    (vector_operations_pair_elements (R := ℤ) (T := ℤ) (.swapVectors threeBackwards threeOnwards) portableMachine []
      ⟨_, rfl⟩).mpr ?_,
    (vector_operations_pair_elements (R := ℤ) (T := ℤ) (.addScaledVectorInto threeBackwards threeOnwards threeApart 5)
      portableMachine [] ⟨_, rfl⟩).mpr trivial⟩
  · exact .inr ⟨.inl (by decide), .inl (by decide)⟩
  · refine ⟨.inr ⟨.inr (by decide), .inl (by decide)⟩, fun loses => ?_⟩
    exact absurd loses.1 (by decide)

end Witnesses

end Zynum.Api
