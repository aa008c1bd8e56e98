import Zynum.Foundation.Partition

set_option autoImplicit false

/- Element types of core/shared/scalar.zig. Arithmetic is whatever the carrier
   brings; only results that ask for LawfulScalar rely on ring laws. Rounding,
   signed zeros and NaN comparison are outside the model. -/
namespace Zynum

inductive TransposeMode where
  | noTrans
  | trans
  | conjTrans
  deriving DecidableEq, Repr

inductive Triangle where
  | upper
  | lower
  deriving DecidableEq, Repr

inductive Diagonal where
  | unit
  | nonUnit
  deriving DecidableEq, Repr

inductive OperandSide where
  | left
  | right
  deriving DecidableEq, Repr

inductive Precision where
  | single
  | double
  deriving DecidableEq, Repr

-- realOnly is realScalar after realPart; scaleByReal is the product with the
-- real part taken component by component.
class Scalar (T : Type) where
  isComplex : Bool
  precision : Precision
  conj : T → T
  isZero : T → Bool
  isOne : T → Bool
  imagIsZero : T → Bool
  realOnly : T → T
  scaleByReal : T → T → T

export Scalar (conj isZero isOne realOnly)

variable {T : Type}

def isReal (T : Type) [Scalar T] : Bool := !Scalar.isComplex T

def conjugateIf [Scalar T] (value : T) (doConj : Bool) : T := if doConj then conj value else value

class LawfulScalar (T : Type) [CommRing T] [Scalar T] : Prop where
  isZero_iff : ∀ value : T, isZero value = true ↔ value = 0
  isOne_iff : ∀ value : T, isOne value = true ↔ value = 1
  conj_add : ∀ a b : T, conj (a + b) = conj a + conj b
  conj_mul : ∀ a b : T, conj (a * b) = conj a * conj b
  conj_one : conj (1 : T) = 1
  conj_conj : ∀ a : T, conj (conj a) = a
  conj_real : Scalar.isComplex T = false → ∀ a : T, conj a = a
  realOnly_add : ∀ a b : T, realOnly (a + b) = realOnly a + realOnly b
  realOnly_real : Scalar.isComplex T = false → ∀ a : T, realOnly a = a
  realOnly_idem : ∀ a : T, realOnly (realOnly a) = realOnly a
  realOnly_conj : ∀ a : T, realOnly (conj a) = realOnly a
  realOnly_mul_conj : ∀ a : T, realOnly (a * conj a) = a * conj a
  conj_realOnly : ∀ a : T, conj (realOnly a) = realOnly a
  realOnly_scale : ∀ a b : T, realOnly a = a → realOnly (a * b) = a * realOnly b
  imagIsZero_real : ∀ a : T, Scalar.imagIsZero a = true → realOnly a = a
  scaleByReal_eq : ∀ a b : T, Scalar.scaleByReal a b = realOnly a * b

section Lawful

variable [CommRing T] [Scalar T] [LawfulScalar T]

theorem conj_zero : conj (0 : T) = 0 := by
  have doubled : conj (0 : T) + conj 0 = conj 0 := by rw [← LawfulScalar.conj_add, add_zero]
  simpa only [add_eq_left] using doubled

def conjHom (T : Type) [CommRing T] [Scalar T] [LawfulScalar T] : T →+* T where
  toFun := conj
  map_one' := LawfulScalar.conj_one
  map_mul' := LawfulScalar.conj_mul
  map_zero' := conj_zero
  map_add' := LawfulScalar.conj_add

theorem conj_sum {ι : Type} (indices : Finset ι) (term : ι → T) :
    conj (∑ i ∈ indices, term i) = ∑ i ∈ indices, conj (term i) :=
  map_sum (conjHom T) term indices

def realOnlyHom (T : Type) [CommRing T] [Scalar T] [LawfulScalar T] : T →+ T :=
  AddMonoidHom.mk' realOnly LawfulScalar.realOnly_add

theorem realOnly_sum {ι : Type} (indices : Finset ι) (term : ι → T) :
    realOnly (∑ i ∈ indices, term i) = ∑ i ∈ indices, realOnly (term i) :=
  map_sum (realOnlyHom T) term indices

theorem isZero_false_iff (value : T) : isZero value = false ↔ value ≠ 0 := by
  rw [← Bool.not_eq_true, LawfulScalar.isZero_iff]

end Lawful

end Zynum
