import Zynum.Vector.LevelOne

set_option autoImplicit false

/- rotgReal of core/vector/operations.zig over exact reals. A division answers
   only for a divisor other than zero, so that a run that ends has divided by
   no zero. -/
namespace Zynum

def divided {R : Type} [Field R] [DecidableEq R] (a b : R) : Option R := if b = 0 then none else some (a / b)

theorem divided_nonzero {R : Type} [Field R] [DecidableEq R] (a : R) {b : R} (nonzero : b ≠ 0) :
    divided a b = some (a / b) := by rw [divided, if_neg nonzero]

-- The exact square root of a nonnegative value.
structure ExactRoot (R : Type) [Field R] [LinearOrder R] where
  sqrt : R → R
  nonneg : ∀ value, 0 ≤ sqrt value
  squared : ∀ value, 0 ≤ value → sqrt value * sqrt value = value

noncomputable def realRoot : ExactRoot ℝ := ⟨Real.sqrt, Real.sqrt_nonneg, fun _ nonneg => Real.mul_self_sqrt nonneg⟩

namespace LevelOne

-- a and b leave as r and z.
structure GivensRotation (R : Type) where
  r : R
  z : R
  c : R
  s : R

section Givens

variable {R : Type} [Field R] [LinearOrder R]

def copysign (magnitude sign : R) : R := if sign < 0 then -|magnitude| else |magnitude|

def rotgReal (root : ExactRoot R) (aa bb : R) : Option (GivensRotation R) :=
  let roe := if |bb| > |aa| then bb else aa
  let scale := |aa| + |bb|
  if scale = 0 then some ⟨0, 0, 1, 0⟩
  else do
    let a ← divided aa scale
    let b ← divided bb scale
    let r := copysign (scale * root.sqrt (a * a + b * b)) roe
    let c ← divided aa r
    let s ← divided bb r
    let z := if |aa| > |bb| then s else 1
    if |bb| ≥ |aa| ∧ c ≠ 0 then
      let z ← divided 1 c
      return ⟨r, z, c, s⟩
    else return ⟨r, z, c, s⟩

-- The standard rule that recovers a rotation from its z.
def reconstruct (root : ExactRoot R) (z : R) : R × R :=
  if z = 1 then (0, 1)
  else if |z| < 1 then (root.sqrt (1 - z * z), z)
  else (1 / z, root.sqrt (1 - 1 / z * (1 / z)))

-- The result rotates (a, b) to (r, 0).
structure Rotates (a b : R) (result : GivensRotation R) : Prop where
  unit : result.c * result.c + result.s * result.s = 1
  onto : result.c * a + result.s * b = result.r
  clears : result.c * b - result.s * a = 0

variable [IsStrictOrderedRing R]

theorem root_unique (root : ExactRoot R) {value square : R} (nonneg : 0 ≤ value) (same : value * value = square) :
    root.sqrt square = value := by
  have positive : 0 ≤ square := same ▸ mul_self_nonneg value
  have squares := (root.squared square positive).trans same.symm
  rcases mul_self_eq_mul_self_iff.mp squares with equal | opposite
  · exact equal
  · have lower := root.nonneg square
    have zero : value = 0 := by linarith
    rw [opposite, zero, neg_zero]

omit [IsStrictOrderedRing R] in
theorem copysign_self (magnitude sign : R) : copysign magnitude sign * copysign magnitude sign = magnitude * magnitude := by
  rw [copysign]
  split
  · rw [neg_mul_neg, abs_mul_abs_self]
  · exact abs_mul_abs_self magnitude

theorem copysign_same_sign {magnitude sign : R} (magnitudeNonzero : magnitude ≠ 0) (nonzero : sign ≠ 0) :
    0 < sign * copysign magnitude sign := by
  have positive := abs_pos.mpr magnitudeNonzero
  rw [copysign]
  split
  · rename_i negative
    exact mul_pos_of_neg_of_neg negative (neg_neg_of_pos positive)
  · rename_i nonnegative
    exact mul_pos (lt_of_le_of_ne (not_lt.mp nonnegative) nonzero.symm) positive

-- r has the length of (a, b) and the sign of the larger of the two, of a if they are as large.
structure RotationRadius (a b r : R) : Prop where
  length : r * r = a * a + b * b
  sign : 0 < (if |b| > |a| then b else a) * r

theorem rotg_radius (root : ExactRoot R) {a b : R} (nonzero : |a| + |b| ≠ 0) :
    RotationRadius a b (copysign ((|a| + |b|) *
      root.sqrt (a / (|a| + |b|) * (a / (|a| + |b|)) + b / (|a| + |b|) * (b / (|a| + |b|))))
      (if |b| > |a| then b else a)) := by
  have squared := root.squared _ (add_nonneg (mul_self_nonneg (a / (|a| + |b|))) (mul_self_nonneg (b / (|a| + |b|))))
  generalize root.sqrt _ = scaled at squared ⊢
  have length : (|a| + |b|) * scaled * ((|a| + |b|) * scaled) = a * a + b * b := by
    have unscaled : (|a| + |b|) * scaled * ((|a| + |b|) * scaled) = (|a| + |b|) * (|a| + |b|) * (scaled * scaled) := by ring
    rw [unscaled, squared]
    field_simp
  have larger : (if |b| > |a| then b else a) ≠ 0 := by
    have magnitude := abs_nonneg a
    split
    · rename_i more
      exact abs_pos.mp (magnitude.trans_lt more)
    · rename_i most
      intro zero
      rw [zero, abs_zero] at most nonzero
      have small := not_lt.mp most
      exact nonzero (by linarith [abs_nonneg b])
  refine ⟨(copysign_self _ _).trans length, copysign_same_sign (fun zero => larger ?_) larger⟩
  rw [zero, mul_zero] at length
  obtain ⟨zeroA, zeroB⟩ := mul_self_add_mul_self_eq_zero.mp length.symm
  rw [zeroA, zeroB, ite_self]

omit [IsStrictOrderedRing R] in
theorem RotationRadius.nonzero {a b r : R} (radius : RotationRadius a b r) : r ≠ 0 := by
  intro zero
  have sign := radius.sign
  rw [zero, mul_zero] at sign
  exact lt_irrefl 0 sign

theorem RotationRadius.rotates {a b r z : R} (radius : RotationRadius a b r) : Rotates a b ⟨r, z, a / r, b / r⟩ := by
  have nonzero := radius.nonzero
  have length := radius.length
  refine ⟨?_, ?_, ?_⟩
  · change a / r * (a / r) + b / r * (b / r) = 1
    field_simp
    linear_combination -length
  · change a / r * a + b / r * b = r
    field_simp
    linear_combination -length
  · change a / r * b - b / r * a = 0
    ring

def givensOf (a b r : R) : GivensRotation R :=
  if |b| ≥ |a| ∧ a / r ≠ 0 then ⟨r, 1 / (a / r), a / r, b / r⟩ else ⟨r, if |a| > |b| then b / r else 1, a / r, b / r⟩

theorem rotg_real_answers (root : ExactRoot R) {a b : R} (nonzero : |a| + |b| ≠ 0) :
    ∃ r, RotationRadius a b r ∧ rotgReal root a b = some (givensOf a b r) := by
  have radius := rotg_radius root nonzero
  rw [rotgReal]
  simp only [if_neg nonzero, divided_nonzero _ nonzero, Option.bind_eq_bind, Option.bind_some]
  generalize copysign ((|a| + |b|) * root.sqrt _) _ = r at radius ⊢
  have r_nonzero := radius.nonzero
  refine ⟨r, radius, ?_⟩
  simp only [divided_nonzero _ r_nonzero, Option.bind_some, givensOf]
  split
  · rename_i both
    rw [divided_nonzero _ both.2]
    rfl
  · rfl

theorem rotg_real_zero (root : ExactRoot R) : rotgReal root (0 : R) 0 = some ⟨0, 0, 1, 0⟩ := by
  rw [rotgReal, abs_zero, add_zero]
  exact if_pos rfl

theorem both_zero {a b : R} (zero : |a| + |b| = 0) : a = 0 ∧ b = 0 := by
  have first := abs_nonneg a
  have second := abs_nonneg b
  exact ⟨abs_eq_zero.mp (by linarith), abs_eq_zero.mp (by linarith)⟩

theorem reconstruct_sine (root : ExactRoot R) {c s : R} (unit : c * c + s * s = 1) (positive : 0 < c) :
    reconstruct root s = (c, s) := by
  have small : |s| < 1 := by
    rw [← abs_one, ← sq_lt_sq]
    nlinarith [mul_pos positive positive]
  have different : s ≠ 1 := by
    intro one
    rw [one, abs_one] at small
    exact lt_irrefl 1 small
  rw [reconstruct, if_neg different, if_pos small, root_unique root (le_of_lt positive) (by linarith)]

theorem reconstruct_reciprocal (root : ExactRoot R) {c s : R} (unit : c * c + s * s = 1) (nonzero : c ≠ 0)
    (tilted : s ≠ 0) : reconstruct root (1 / c) = (c, |s|) := by
  have small : |c| < 1 := by
    rw [← abs_one, ← sq_lt_sq]
    have positive := mul_self_pos.mpr tilted
    nlinarith
  have magnitude := abs_pos.mpr nonzero
  have large : ¬ |1 / c| < 1 := by
    rw [abs_div, abs_one, not_lt, le_div_iff₀ magnitude, one_mul]
    exact le_of_lt small
  have different : 1 / c ≠ 1 := by
    intro one
    rw [div_eq_one_iff_eq nonzero] at one
    rw [← one, abs_one] at small
    exact lt_irrefl 1 small
  have square : |s| * |s| = 1 - c * c := by
    rw [abs_mul_abs_self]
    linarith
  rw [reconstruct, if_neg different, if_neg large, one_div_one_div, root_unique root (abs_nonneg s) square]

-- The property of rotgReal as a whole: no division by zero, a rotation, and a z that gives it back.
def MeetsStandard (root : ExactRoot R) (a b : R) : Prop :=
  ∃ result, rotgReal root a b = some result ∧ Rotates a b result ∧ reconstruct root result.z = (result.c, result.s)

theorem rotg_real_rotates (root : ExactRoot R) (a b : R) : ∃ result, rotgReal root a b = some result ∧ Rotates a b result := by
  by_cases zero : |a| + |b| = 0
  · obtain ⟨rfl, rfl⟩ := both_zero zero
    refine ⟨_, rotg_real_zero root, ?_⟩
    exact ⟨by ring, by ring, by ring⟩
  · obtain ⟨r, radius, answer⟩ := rotg_real_answers root zero
    refine ⟨_, answer, ?_⟩
    rw [givensOf]
    split
    · exact radius.rotates
    · exact radius.rotates

theorem quotient_positive {value r : R} (sign : 0 < value * r) : 0 < value / r := by
  have nonzero : r ≠ 0 := fun zero => by
    rw [zero, mul_zero] at sign
    exact lt_irrefl 0 sign
  rw [show value / r = value * r / (r * r) by field_simp]
  exact div_pos sign (mul_self_pos.mpr nonzero)

theorem meets_standard_answer {root : ExactRoot R} {a b r : R}
    (answer : rotgReal root a b = some (givensOf a b r)) :
    MeetsStandard root a b ↔ reconstruct root (givensOf a b r).z = ((givensOf a b r).c, (givensOf a b r).s) := by
  constructor
  · rintro ⟨result, known, _, given⟩
    rw [Option.some.inj (answer.symm.trans known)]
    exact given
  · intro given
    obtain ⟨result, known, rotates⟩ := rotg_real_rotates root a b
    rw [Option.some.inj (answer.symm.trans known)] at given
    exact ⟨result, known, rotates, given⟩

-- As large as each other: r has the sign of a, and z is the reciprocal of c.
theorem rotg_real_tie (root : ExactRoot R) {a b : R} (equal : |a| = |b|) (some : a ≠ 0) :
    MeetsStandard root a b ↔ b ≠ -a := by
  have scale : |a| + |b| ≠ 0 := fun zero => some (both_zero zero).1
  obtain ⟨r, radius, answer⟩ := rotg_real_answers root scale
  have sign := radius.sign
  rw [if_neg (not_lt.mpr (le_of_eq equal.symm))] at sign
  have cosine := quotient_positive sign
  have unit : a / r * (a / r) + b / r * (b / r) = 1 := (radius.rotates (z := 0)).unit
  have tilted : b / r ≠ 0 := by
    refine div_ne_zero (fun none => some ?_) radius.nonzero
    rw [none, abs_zero, abs_eq_zero] at equal
    exact equal
  rw [meets_standard_answer answer, givensOf, if_pos ⟨le_of_eq equal, ne_of_gt cosine⟩]
  change reconstruct root (1 / (a / r)) = (a / r, b / r) ↔ _
  rw [reconstruct_reciprocal root unit (ne_of_gt cosine) tilted]
  rcases abs_eq_abs.mp equal with same | opposite
  · subst same
    refine ⟨fun _ minus => some (by linarith), fun _ => ?_⟩
    rw [abs_of_pos cosine]
  · have reversed : b = -a := by rw [opposite, neg_neg]
    refine ⟨fun given => ?_, fun different => absurd reversed different⟩
    have positive : |b / r| = b / r := congrArg Prod.snd given
    have minus : b / r = -(a / r) := by rw [reversed, neg_div]
    have lower := abs_nonneg (b / r)
    rw [positive, minus] at lower
    exact absurd cosine (by linarith)

theorem rotg_real_standard (root : ExactRoot R) (a b : R) : MeetsStandard root a b ↔ a = 0 ∨ b ≠ -a := by
  by_cases zero : |a| + |b| = 0
  · obtain ⟨rfl, rfl⟩ := both_zero zero
    refine ⟨fun _ => .inl rfl, fun _ => ⟨_, rotg_real_zero root, ⟨by ring, by ring, by ring⟩, ?_⟩⟩
    exact reconstruct_sine root (by ring) zero_lt_one
  obtain ⟨r, radius, answer⟩ := rotg_real_answers root zero
  have sign := radius.sign
  have unit : a / r * (a / r) + b / r * (b / r) = 1 := (radius.rotates (z := 0)).unit
  rcases lt_trichotomy |a| |b| with less | equal | more
  · -- r has the sign of b
    rw [if_pos less] at sign
    have sine := quotient_positive sign
    have tilted : b ≠ -a := fun same => absurd less (by rw [same, abs_neg]; exact lt_irrefl _)
    refine ⟨fun _ => .inr tilted, fun _ => ?_⟩
    rw [meets_standard_answer answer, givensOf]
    by_cases upright : a / r = 0
    · rw [if_neg (fun both => both.2 upright), if_neg (not_lt.mpr (le_of_lt less))]
      have one : b / r = 1 := by
        rw [upright, mul_zero, zero_add] at unit
        rcases mul_self_eq_one_iff.mp unit with one | minus
        · exact one
        · rw [minus] at sine
          exact absurd sine (by linarith [zero_lt_one (α := R)])
      rw [reconstruct, if_pos rfl]
      exact Prod.ext upright.symm one.symm
    · rw [if_pos ⟨le_of_lt less, upright⟩]
      change reconstruct root (1 / (a / r)) = (a / r, b / r)
      rw [reconstruct_reciprocal root unit upright (ne_of_gt sine), abs_of_pos sine]
  · have some : a ≠ 0 := fun none => zero (by rw [← equal, none, abs_zero, add_zero])
    rw [rotg_real_tie root equal some]
    exact ⟨.inr, fun either => either.resolve_left some⟩
  · -- r has the sign of a, and z is s
    rw [if_neg (not_lt.mpr (le_of_lt more))] at sign
    have tilted : b ≠ -a := fun same => absurd more (by rw [same, abs_neg]; exact lt_irrefl _)
    refine ⟨fun _ => .inr tilted, fun _ => ?_⟩
    rw [meets_standard_answer answer, givensOf, if_neg (fun both => absurd both.1 (not_le.mpr more)), if_pos more]
    exact reconstruct_sine root unit (quotient_positive sign)

theorem rotg_real_standard_three_four : MeetsStandard realRoot 3 4 :=
  (rotg_real_standard realRoot 3 4).mpr (.inr (by norm_num))

-- For (1, -1) the stored z gives back the sine of (1, 1).
theorem rotg_opposite_pair : ¬ MeetsStandard realRoot 1 (-1) := by
  intro standard
  exact (rotg_real_tie realRoot (by rw [abs_neg]) one_ne_zero).mp standard rfl

end Givens

end LevelOne

end Zynum
