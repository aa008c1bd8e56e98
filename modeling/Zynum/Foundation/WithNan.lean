import Mathlib.Algebra.BigOperators.Group.Finset.Basic
import Mathlib.Algebra.Order.Field.Basic
import Mathlib.Tactic

set_option autoImplicit false

/- Exact numbers and one value that is not a number. Arithmetic with it gives it
   back, no ordered comparison with it holds, and a maximum ignores it. -/
inductive WithNan (K : Type) where
  | number (value : K)
  | nan
  deriving DecidableEq, Repr

namespace WithNan

variable {K : Type}

section Operations

def isNan (value : WithNan K) : Bool :=
  match value with
  | number _ => false
  | nan => true

def isFinite (value : WithNan K) : Bool := !value.isNan

def add [Add K] (left right : WithNan K) : WithNan K :=
  match left, right with
  | number a, number b => number (a + b)
  | _, _ => nan

def mul [Mul K] (left right : WithNan K) : WithNan K :=
  match left, right with
  | number a, number b => number (a * b)
  | _, _ => nan

instance [Zero K] : Zero (WithNan K) := ⟨number 0⟩

instance [One K] : One (WithNan K) := ⟨number 1⟩

instance [Add K] : Add (WithNan K) := ⟨add⟩

instance [Mul K] : Mul (WithNan K) := ⟨mul⟩

def map {L : Type} (apply : K → L) (value : WithNan K) : WithNan L :=
  match value with
  | number a => number (apply a)
  | nan => nan

def magnitude [AddGroup K] [Lattice K] (value : WithNan K) : WithNan K := value.map (fun a => |a|)

def less [LT K] [DecidableLT K] (left right : WithNan K) : Bool :=
  match left, right with
  | number a, number b => decide (a < b)
  | _, _ => false

def largest [Max K] (left right : WithNan K) : WithNan K :=
  match left, right with
  | nan, right => right
  | number a, nan => number a
  | number a, number b => number (max a b)

end Operations

section Arithmetic

@[simp] theorem number_zero [Zero K] : (number 0 : WithNan K) = 0 := rfl

@[simp] theorem number_add [Add K] (a b : K) : (number a + number b : WithNan K) = number (a + b) := rfl

@[simp] theorem number_mul [Mul K] (a b : K) : (number a * number b : WithNan K) = number (a * b) := rfl

@[simp] theorem nan_add [Add K] (value : WithNan K) : nan + value = nan := rfl

@[simp] theorem add_nan [Add K] (value : WithNan K) : value + nan = nan := by
  cases value <;> rfl

@[simp] theorem nan_mul [Mul K] (value : WithNan K) : nan * value = nan := rfl

@[simp] theorem mul_nan [Mul K] (value : WithNan K) : value * nan = nan := by
  cases value <;> rfl

theorem number_eq_zero [Zero K] {a : K} : (number a : WithNan K) = 0 ↔ a = 0 := ⟨number.inj, congrArg number⟩

@[simp] theorem less_number [LT K] [DecidableLT K] (a b : K) : less (number a) (number b) = decide (a < b) := rfl

@[simp] theorem less_nan [LT K] [DecidableLT K] (value : WithNan K) : less value nan = false := by
  cases value <;> rfl

theorem is_nan_iff (value : WithNan K) : value.isNan = true ↔ value = nan := by
  cases value with
  | number a => exact ⟨nofun, nofun⟩
  | nan => exact ⟨fun _ => rfl, fun _ => rfl⟩

instance [AddCommMonoid K] : AddCommMonoid (WithNan K) where
  add_assoc a b c := by
    cases a <;> cases b <;> cases c <;> first
      | rfl
      | exact congrArg number (add_assoc _ _ _)
  zero_add a := by
    cases a with
    | number a => exact congrArg number (zero_add a)
    | nan => rfl
  add_zero a := by
    cases a with
    | number a => exact congrArg number (add_zero a)
    | nan => rfl
  add_comm a b := by
    cases a <;> cases b <;> first
      | rfl
      | exact congrArg number (add_comm _ _)
  nsmul := nsmulRec

instance [CommMagma K] : CommMagma (WithNan K) where
  mul_comm a b := by
    cases a <;> cases b <;> first
      | rfl
      | exact congrArg number (mul_comm _ _)

end Arithmetic

section Sums

variable [AddCommMonoid K] {ι : Type}

theorem sum_nan_iff (indices : Finset ι) (term : ι → WithNan K) :
    ∑ i ∈ indices, term i = nan ↔ ∃ i, i ∈ indices ∧ term i = nan := by
  classical
  induction indices using Finset.induction_on with
  | empty => exact ⟨nofun, fun found => absurd found.choose_spec.1 (Finset.notMem_empty _)⟩
  | insert i rest fresh ih =>
    rw [Finset.sum_insert fresh]
    constructor
    · intro total
      cases here : term i with
      | nan => exact ⟨i, Finset.mem_insert_self i rest, here⟩
      | number a =>
        rw [here] at total
        cases others : ∑ j ∈ rest, term j with
        | nan =>
          obtain ⟨j, member, found⟩ := ih.mp others
          exact ⟨j, Finset.mem_insert_of_mem member, found⟩
        | number b => rw [others] at total; exact nomatch total
    · rintro ⟨j, member, found⟩
      rcases Finset.mem_insert.mp member with rfl | later
      · rw [found, nan_add]
      · rw [ih.mpr ⟨j, later, found⟩, add_nan]

theorem map_of_sum {L : Type} [AddCommMonoid L] (apply : K →+ L) (indices : Finset ι) (term : ι → WithNan K) :
    (∑ i ∈ indices, term i).map apply = ∑ i ∈ indices, (term i).map apply := by
  classical
  induction indices using Finset.induction_on with
  | empty => exact congrArg number (map_zero apply)
  | insert i rest fresh ih =>
    rw [Finset.sum_insert fresh, Finset.sum_insert fresh, ← ih]
    cases term i with
    | nan => rfl
    | number a =>
      cases ∑ j ∈ rest, term j with
      | nan => rfl
      | number b => exact congrArg number (map_add apply a b)

end Sums

end WithNan
