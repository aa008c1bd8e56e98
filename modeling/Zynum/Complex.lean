import Zynum.Scalar

set_option autoImplicit false

/- ComplexF32 and ComplexF64 as pairs over their real carrier, with the
   component formulas of core/shared/scalar.zig. -/
namespace Zynum

structure Cplx (R : Type) where
  re : R
  im : R
  deriving DecidableEq, Repr

namespace Cplx

variable {R : Type}

@[ext] theorem ext_parts {a b : Cplx R} (re : a.re = b.re) (im : a.im = b.im) : a = b := by
  cases a
  cases b
  simp only at re im
  rw [re, im]

instance [Zero R] : Zero (Cplx R) := ⟨⟨0, 0⟩⟩
instance [Zero R] [One R] : One (Cplx R) := ⟨⟨1, 0⟩⟩
instance [Add R] : Add (Cplx R) := ⟨fun a b => ⟨a.re + b.re, a.im + b.im⟩⟩
instance [Sub R] : Sub (Cplx R) := ⟨fun a b => ⟨a.re - b.re, a.im - b.im⟩⟩
instance [Neg R] : Neg (Cplx R) := ⟨fun a => ⟨-a.re, -a.im⟩⟩
instance [Add R] [Sub R] [Mul R] : Mul (Cplx R) :=
  ⟨fun a b => ⟨a.re * b.re - a.im * b.im, a.re * b.im + a.im * b.re⟩⟩

-- divv of scalar.zig.
instance [Add R] [Sub R] [Mul R] [Div R] : Div (Cplx R) :=
  ⟨fun a b =>
    let den := b.re * b.re + b.im * b.im
    ⟨(a.re * b.re + a.im * b.im) / den, (a.im * b.re - a.re * b.im) / den⟩⟩

@[simp] theorem zero_re [Zero R] : (0 : Cplx R).re = 0 := rfl
@[simp] theorem zero_im [Zero R] : (0 : Cplx R).im = 0 := rfl
@[simp] theorem one_re [Zero R] [One R] : (1 : Cplx R).re = 1 := rfl
@[simp] theorem one_im [Zero R] [One R] : (1 : Cplx R).im = 0 := rfl
@[simp] theorem add_re [Add R] (a b : Cplx R) : (a + b).re = a.re + b.re := rfl
@[simp] theorem add_im [Add R] (a b : Cplx R) : (a + b).im = a.im + b.im := rfl
@[simp] theorem sub_re [Sub R] (a b : Cplx R) : (a - b).re = a.re - b.re := rfl
@[simp] theorem sub_im [Sub R] (a b : Cplx R) : (a - b).im = a.im - b.im := rfl
@[simp] theorem neg_re [Neg R] (a : Cplx R) : (-a).re = -a.re := rfl
@[simp] theorem neg_im [Neg R] (a : Cplx R) : (-a).im = -a.im := rfl
@[simp] theorem mul_re [Add R] [Sub R] [Mul R] (a b : Cplx R) : (a * b).re = a.re * b.re - a.im * b.im := rfl
@[simp] theorem mul_im [Add R] [Sub R] [Mul R] (a b : Cplx R) : (a * b).im = a.re * b.im + a.im * b.re := rfl

instance [CommRing R] : CommRing (Cplx R) where
  add_assoc a b c := by ext <;> simp only [add_re, add_im] <;> ring
  zero_add a := by ext <;> simp only [add_re, add_im, zero_re, zero_im, zero_add]
  add_zero a := by ext <;> simp only [add_re, add_im, zero_re, zero_im, add_zero]
  add_comm a b := by ext <;> simp only [add_re, add_im] <;> ring
  neg_add_cancel a := by ext <;> simp only [add_re, add_im, neg_re, neg_im, zero_re, zero_im, neg_add_cancel]
  sub_eq_add_neg a b := by ext <;> simp only [sub_re, sub_im, add_re, add_im, neg_re, neg_im] <;> ring
  nsmul := nsmulRec
  zsmul := zsmulRec
  mul_assoc a b c := by ext <;> simp only [mul_re, mul_im] <;> ring
  one_mul a := by ext <;> simp only [mul_re, mul_im, one_re, one_im] <;> ring
  mul_one a := by ext <;> simp only [mul_re, mul_im, one_re, one_im] <;> ring
  zero_mul a := by ext <;> simp only [mul_re, mul_im, zero_re, zero_im] <;> ring
  mul_zero a := by ext <;> simp only [mul_re, mul_im, zero_re, zero_im] <;> ring
  left_distrib a b c := by ext <;> simp only [mul_re, mul_im, add_re, add_im] <;> ring
  right_distrib a b c := by ext <;> simp only [mul_re, mul_im, add_re, add_im] <;> ring
  mul_comm a b := by ext <;> simp only [mul_re, mul_im] <;> ring

-- The product of the squared moduli is zero only if one of them is.
instance [CommRing R] [LinearOrder R] [IsStrictOrderedRing R] : NoZeroDivisors (Cplx R) where
  eq_zero_or_eq_zero_of_mul_eq_zero := by
    intro a b zero
    have re : a.re * b.re - a.im * b.im = 0 := congrArg Cplx.re zero
    have im : a.re * b.im + a.im * b.re = 0 := congrArg Cplx.im zero
    have moduli : (a.re * a.re + a.im * a.im) * (b.re * b.re + b.im * b.im) = 0 := by
      linear_combination (a.re * b.re - a.im * b.im) * re + (a.re * b.im + a.im * b.re) * im
    rcases mul_eq_zero.mp moduli with left | right
    · obtain ⟨real, imaginary⟩ := (mul_self_add_mul_self_eq_zero).mp left
      exact .inl (ext_parts real imaginary)
    · obtain ⟨real, imaginary⟩ := (mul_self_add_mul_self_eq_zero).mp right
      exact .inr (ext_parts real imaginary)

end Cplx

section Kinds

variable (R : Type) [Zero R] [One R] [Add R] [Sub R] [Neg R] [Mul R] [DecidableEq R]

@[reducible] def realKind (precision : Precision) : Scalar R where
  isComplex := false
  precision := precision
  conj value := value
  isZero value := decide (value = 0)
  isOne value := decide (value = 1)
  imagIsZero _ := true
  realOnly value := value
  scaleByReal alpha value := alpha * value

@[reducible] def complexKind (precision : Precision) : Scalar (Cplx R) where
  isComplex := true
  precision := precision
  conj value := ⟨value.re, -value.im⟩
  isZero value := decide (value.re = 0) && decide (value.im = 0)
  isOne value := decide (value.re = 1) && decide (value.im = 0)
  imagIsZero value := decide (value.im = 0)
  realOnly value := ⟨value.re, 0⟩
  scaleByReal alpha value := ⟨alpha.re * value.re, alpha.re * value.im⟩

end Kinds

theorem real_kind_lawful (R : Type) [CommRing R] [DecidableEq R] (precision : Precision) :
    @LawfulScalar R _ (realKind R precision) := by
  let _ := realKind R precision
  exact
    { isZero_iff := fun value => decide_eq_true_iff
      isOne_iff := fun value => decide_eq_true_iff
      conj_add := fun _ _ => rfl
      conj_mul := fun _ _ => rfl
      conj_one := rfl
      conj_conj := fun _ => rfl
      conj_real := fun _ _ => rfl
      realOnly_add := fun _ _ => rfl
      realOnly_real := fun _ _ => rfl
      realOnly_idem := fun _ => rfl
      realOnly_conj := fun _ => rfl
      realOnly_mul_conj := fun _ => rfl
      conj_realOnly := fun _ => rfl
      realOnly_scale := fun _ _ _ => rfl
      imagIsZero_real := fun _ _ => rfl
      scaleByReal_eq := fun _ _ => rfl }

theorem complex_kind_lawful (R : Type) [CommRing R] [DecidableEq R] (precision : Precision) :
    @LawfulScalar (Cplx R) _ (complexKind R precision) := by
  let _ := complexKind R precision
  have parts : ∀ (value : Cplx R) (re im : R), value = ⟨re, im⟩ ↔ value.re = re ∧ value.im = im := by
    intro value re im
    exact ⟨fun same => by simp only [same, and_self], fun both => Cplx.ext_parts both.1 both.2⟩
  exact
    { isZero_iff := fun value => by
        simp only [isZero, Bool.and_eq_true, decide_eq_true_eq]
        exact (parts value 0 0).symm
      isOne_iff := fun value => by
        simp only [isOne, Bool.and_eq_true, decide_eq_true_eq]
        exact (parts value 1 0).symm
      conj_add := fun a b => Cplx.ext_parts rfl (neg_add a.im b.im)
      conj_mul := fun a b => by ext <;> simp only [conj, Cplx.mul_re, Cplx.mul_im] <;> ring
      conj_one := Cplx.ext_parts rfl neg_zero
      conj_conj := fun a => Cplx.ext_parts rfl (neg_neg a.im)
      conj_real := fun real => nomatch (show true = false from real)
      realOnly_add := fun _ _ => Cplx.ext_parts rfl (add_zero 0).symm
      realOnly_real := fun real => nomatch (show true = false from real)
      realOnly_idem := fun _ => rfl
      realOnly_conj := fun _ => rfl
      realOnly_mul_conj := fun a => by
        refine Cplx.ext_parts rfl ?_
        change 0 = a.re * -a.im + a.im * a.re
        ring
      conj_realOnly := fun _ => Cplx.ext_parts rfl neg_zero
      realOnly_scale := fun a b real => by
        have flat : a.im = 0 := (congrArg Cplx.im real).symm
        ext <;> simp only [realOnly, Cplx.mul_re, Cplx.mul_im, flat] <;> ring
      imagIsZero_real := fun a flat => by
        have zeroIm : a.im = 0 := by simpa only [Scalar.imagIsZero, decide_eq_true_eq] using flat
        ext <;> simp only [realOnly, zeroIm]
      scaleByReal_eq := fun a b => by
        ext <;> simp only [Scalar.scaleByReal, realOnly, Cplx.mul_re, Cplx.mul_im] <;> ring }

end Zynum
