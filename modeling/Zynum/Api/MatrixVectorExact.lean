import Zynum.Api.MatrixVector
import Zynum.Api.MatrixViewsExact
import Zynum.Api.VectorResults
import Zynum.MatrixVector.GeneralExact

set_option autoImplicit false

/- What the checked matrix-vector products compute, against the equation they promise. -/
namespace Zynum.Api

open ArrayProgram
open Element (width parts whole)
open LevelOne

/- The product on arrays of elements, seen in the memory they lie in. -/
section Product

variable {R T : Type} [CommRing R] [CommRing T] [Element R T] [LawfulElement R T]

variable (leaves : ExactGemvLeaves T) (machine : VectorMachine) (site : Site) (matrix : Core.ConstMatrix)
  (input output : Core.Vector) (productScale outputScale : T) (memory : Nat → R)

theorem multiply_nothing (empty : matrix.rowCount ≤ 0 ∨ matrix.columnCount ≤ 0) :
    Core.multiplyMatrixVector leaves.toGemvLeaves machine site matrix input output productScale outputScale memory = memory := by
  rw [Core.multiplyMatrixVector, gemv, if_pos (by omega), store_elements_same]

theorem multiply_overwrites (rows : 0 < matrix.rowCount) (columns : 0 < matrix.columnCount) (stepx : input.stride ≠ 0)
    (stepy : output.stride ≠ 0) :
    Overwrites (slots (width T) (Set.Iio (toUsize (outputLength matrix.transpose matrix.rowCount matrix.columnCount))))
      (slotAddress (Operand.strided (width T) (outputLength matrix.transpose matrix.rowCount matrix.columnCount)
        output.stride (cellsFrom output.values)))
      (fun slot => parts (gemvTarget matrix.transpose matrix.rowCount matrix.columnCount productScale
        (elementsAt T matrix.values memory) matrix.leadingDimension (elementsAt T input.values memory) input.stride
        outputScale slot.1 (whole ((Operand.strided (width T)
          (outputLength matrix.transpose matrix.rowCount matrix.columnCount) output.stride
          (cellsFrom output.values)).element memory slot.1))) slot.2)
      memory (Core.multiplyMatrixVector leaves.toGemvLeaves machine site matrix input output productScale outputScale
        memory) := by
  have updates := gemv_updates leaves machine.runtime site matrix.transpose matrix.rowCount matrix.columnCount productScale
    (elementsAt T matrix.values memory) matrix.leadingDimension (elementsAt T input.values memory) input.stride outputScale
    output.stride rows columns stepx stepy
  exact store_overwrites updates output.values memory

end Product

/- The promised result, element by element, and what the routine leaves instead. -/
section Promise

variable {R T : Type} [CommRing R] [CommRing T] [Element R T]

namespace MatrixVectorArguments

def rows (arguments : MatrixVectorArguments T) : Int := arguments.matrix.effectiveRowCount

def columns (arguments : MatrixVectorArguments T) : Int := arguments.matrix.effectiveColumnCount

-- Row i of op(matrix) times a vector of elements; an empty row gives zero.
def rowProduct (arguments : MatrixVectorArguments T) (memory : Nat → R) (x : Operand Nat) (i : Nat) : T :=
  ∑ j ∈ Finset.range (toUsize arguments.columns),
    opEntry (toCoreTranspose arguments.matrix.operation)
      (denseEntry (elementsAt T arguments.matrix.values.start memory) arguments.matrix.leadingDimension) i j *
      whole (x.element memory j)

def combined (arguments : MatrixVectorArguments T) (memory : Nat → R) (x y : Operand Nat) (i : Nat) : T :=
  arguments.productScale * arguments.rowProduct memory x i + arguments.resultScale * whole (y.element memory i)

-- product_scale * op(matrix) * input + result_scale * result over the elements the views number.
def promised (arguments : MatrixVectorArguments T) (memory : Nat → R) (i : Nat) : T :=
  arguments.combined memory (arguments.inputVector.elements T) (arguments.resultVector.elements T) i

-- The vectors as gemv numbers them: a negative stride counts from the last element it uses.
def inputElements (arguments : MatrixVectorArguments T) : Operand Nat :=
  Operand.strided (width T) arguments.columns arguments.inputVector.stride (cellsFrom arguments.inputVector.values.start)

def resultElements (arguments : MatrixVectorArguments T) : Operand Nat :=
  Operand.strided (width T) arguments.rows arguments.resultVector.stride (cellsFrom arguments.resultVector.values.start)

-- Every accepted call that ran left the promised elements and changed nothing else outside the hidden cells.
structure Promised (arguments : MatrixVectorArguments T) (phases : List (Phase R)) (hidden : Set Nat) : Prop where
  written : ∀ memory final, Phase.Outcomes phases memory final →
    ∀ slot, slot ∈ slots (width T) (Set.Iio (toUsize arguments.rows)) →
      final (slotAddress (arguments.resultVector.elements T) slot) = parts (arguments.promised memory slot.1) slot.2
  kept : ∀ memory final, Phase.Outcomes phases memory final → ∀ place, place ∉ hidden →
    (∀ slot, slot ∈ slots (width T) (Set.Iio (toUsize arguments.rows)) →
      slotAddress (arguments.resultVector.elements T) slot ≠ place) → final place = memory place

-- There is nothing to compute, or nothing changes, or there are columns and gemv starts where the views do.
def KeepsEquation (arguments : MatrixVectorArguments T) : Prop :=
  arguments.rows = 0 ∨
    arguments.resultScale = 1 ∧ (arguments.columns = 0 ∨ arguments.productScale = 0) ∨
      0 < arguments.columns ∧ arguments.resultVector.SharedOrigin arguments.rows ∧
        (arguments.productScale = 0 ∨ arguments.inputVector.SharedOrigin arguments.columns)

-- What the checks of either call leave of the shapes.
structure Shaped (arguments : MatrixVectorArguments T) : Prop where
  rows_nonneg : 0 ≤ arguments.rows
  columns_nonneg : 0 ≤ arguments.columns
  rows_fit : arguments.rows ≤ arguments.resultVector.length
  columns_fit : arguments.columns ≤ arguments.inputVector.length
  result_stride : 0 < arguments.rows → arguments.resultVector.stride ≠ 0
  input_stride : 0 < arguments.columns → arguments.inputVector.stride ≠ 0

-- The cells gemv writes hold the value, and nothing else outside the hidden cells changed.
structure Leaves (arguments : MatrixVectorArguments T) (phases : List (Phase R)) (hidden : Set Nat)
    (value : (Nat → R) → Nat → T) : Prop where
  written : ∀ memory final, Phase.Outcomes phases memory final →
    ∀ slot, slot ∈ slots (width T) (Set.Iio (toUsize arguments.rows)) →
      final (slotAddress arguments.resultElements slot) = parts (value memory slot.1) slot.2
  kept : ∀ memory final, Phase.Outcomes phases memory final → ∀ place, place ∉ hidden →
    (∀ slot, slot ∈ slots (width T) (Set.Iio (toUsize arguments.rows)) →
      slotAddress arguments.resultElements slot ≠ place) → final place = memory place

end MatrixVectorArguments

end Promise

section Agreement

open MatrixVectorArguments

variable {R T : Type} [CommRing R] [CommRing T] [Element R T] [LawfulElement R T] {arguments : MatrixVectorArguments T}
  {phases : List (Phase R)} {hidden : Set Nat} {value : (Nat → R) → Nat → T}

omit [CommRing R] [LawfulElement R T] in
theorem promised_of_no_rows (leaves : arguments.Leaves phases hidden value) (empty : arguments.rows ≤ 0) :
    arguments.Promised phases hidden := by
  refine ⟨fun memory final ran slot member => absurd member.2 (no_indices empty slot.1), fun memory final ran place seen _ => ?_⟩
  exact leaves.kept memory final ran place seen (fun slot member => absurd member.2 (no_indices empty slot.1))

-- Where every element keeps its value, the whole memory does.
theorem leaves_unchanged (leaves : arguments.Leaves phases hidden value)
    (same : ∀ memory i, i < toUsize arguments.rows → value memory i = whole (arguments.resultElements.element memory i))
    (memory final : Nat → R) (ran : Phase.Outcomes phases memory final) (place : Nat) (seen : place ∉ hidden) :
    final place = memory place := by
  by_cases outside : ∀ slot, slot ∈ slots (width T) (Set.Iio (toUsize arguments.rows)) →
      slotAddress arguments.resultElements slot ≠ place
  · exact leaves.kept memory final ran place seen outside
  · simp only [not_forall, not_not] at outside
    obtain ⟨slot, member, here⟩ := outside
    rw [← here, leaves.written memory final ran slot member, same memory slot.1 member.2,
      LawfulElement.parts_whole _ _ member.1]
    rfl

theorem promised_unchanged (leaves : arguments.Leaves phases hidden value)
    (clear : ∀ slot, slot ∈ slots (width T) (Set.Iio (toUsize arguments.rows)) →
      slotAddress (arguments.resultVector.elements T) slot ∉ hidden)
    (same : ∀ memory i, i < toUsize arguments.rows → value memory i = whole (arguments.resultElements.element memory i))
    (still : ∀ memory i, i < toUsize arguments.rows →
      arguments.promised (R := R) memory i = whole ((arguments.resultVector.elements T).element memory i)) :
    arguments.Promised phases hidden := by
  have unchanged := leaves_unchanged leaves same
  refine ⟨fun memory final ran slot member => ?_, fun memory final ran place seen _ => unchanged memory final ran place seen⟩
  rw [unchanged memory final ran _ (clear slot member), still memory slot.1 member.2,
    LawfulElement.parts_whole _ _ member.1]
  rfl

omit [CommRing R] [LawfulElement R T] in
theorem promised_combined (leaves : arguments.Leaves phases hidden value)
    (formula : ∀ memory i, i < toUsize arguments.rows →
      value memory i = arguments.combined memory arguments.inputElements arguments.resultElements i)
    (result : arguments.resultVector.SharedOrigin arguments.rows)
    (input : arguments.productScale = 0 ∨ arguments.inputVector.SharedOrigin arguments.columns) :
    arguments.Promised phases hidden := by
  have own : arguments.resultElements = arguments.resultVector.elements T := result.elements
  constructor
  · intro memory final ran slot member
    rw [← own, leaves.written memory final ran slot member, formula memory slot.1 member.2, promised, own]
    rcases input with nothing | origin
    · rw [combined, combined, nothing, zero_mul, zero_mul]
    · rw [show arguments.inputElements = arguments.inputVector.elements T from origin.elements]
  · intro memory final ran place seen outside
    exact leaves.kept memory final ran place seen (by rw [own]; exact outside)

end Agreement

/- In the memory of powers of two, whose elements tell every moved address. -/
section Necessary

open MatrixVectorArguments

variable {R T : Type} [CommRing R] [LinearOrder R] [IsStrictOrderedRing R] [CommRing T] [Element R T] [LawfulElement R T]
  {arguments : MatrixVectorArguments T} {phases : List (Phase R)} {hidden : Set Nat} {value : (Nat → R) → Nat → T}

omit [LinearOrder R] [IsStrictOrderedRing R] in
theorem parts_ext {a b : T} (same : ∀ part, part < width T → (parts a part : R) = parts b part) : a = b := by
  rw [← LawfulElement.whole_parts a, ← LawfulElement.whole_parts b]
  exact LawfulElement.whole_congr _ _ same

-- Row 0 of op(matrix), before conjugation.
def MatrixVectorArguments.firstRow (arguments : MatrixVectorArguments T) : Operand Nat :=
  ⟨width T, cellsFrom arguments.matrix.values.start, fun j => width T *
    if arguments.matrix.operation = .normal then matIndex arguments.matrix.leadingDimension 0 j
    else matIndex arguments.matrix.leadingDimension j 0⟩

omit [CommRing R] [LinearOrder R] [IsStrictOrderedRing R] [LawfulElement R T] in
theorem row_product_first (memory : Nat → R) (x : Operand Nat) :
    arguments.rowProduct memory x 0 = ∑ j ∈ Finset.range (toUsize arguments.columns),
      conjugateIf (whole (arguments.firstRow.element memory j) : T) (arguments.matrix.operation = .adjoint) *
        whole (x.element memory j) := by
  rw [rowProduct]
  refine Finset.sum_congr rfl (fun j _ => congrArg (· * _) ?_)
  rw [firstRow]
  cases arguments.matrix.operation <;> rfl

def MatrixVectorArguments.rowPowers (arguments : MatrixVectorArguments T) (x : Operand Nat) : Nat :=
  ∑ j ∈ Finset.range (toUsize arguments.columns), 2 ^ (arguments.firstRow.address j 0 + x.address j 0)

variable (R) in
def MatrixVectorArguments.rowUnit (arguments : MatrixVectorArguments T) : T :=
  conjugateIf (unitPowers R T) (arguments.matrix.operation = .adjoint) * unitPowers R T

omit [CommRing R] [LinearOrder R] [IsStrictOrderedRing R] [LawfulElement R T] in
theorem first_row_consecutive (i part : Nat) : arguments.firstRow.address i part = arguments.firstRow.address i 0 + part :=
  (Nat.add_assoc arguments.matrix.values.start _ part).symm

omit [LinearOrder R] [IsStrictOrderedRing R] in
theorem row_product_powers (x : Operand Nat) (consecutive : ∀ i part, part < width T → x.address i part = x.address i 0 + part) :
    arguments.rowProduct (powers : Nat → R) x 0 = (arguments.rowPowers x : T) * arguments.rowUnit R := by
  rw [row_product_first]
  exact dot_of_powers arguments.firstRow x _ (fun i part _ => first_row_consecutive i part) consecutive _

omit [LinearOrder R] [IsStrictOrderedRing R] in
theorem row_product_doubled (memory : Nat → R) (x : Operand Nat) :
    arguments.rowProduct (fun place => 2 ^ 1 * memory place) x 0 = 4 * arguments.rowProduct memory x 0 := by
  have doubled : ∀ (operand : Operand Nat) j, (whole (operand.element (fun place => 2 ^ 1 * memory place) j) : T) =
      2 ^ 1 * whole (operand.element memory j) := fun operand j => whole_scaled 1 (operand.element memory j)
  rw [row_product_first, row_product_first, Finset.mul_sum]
  refine Finset.sum_congr rfl (fun j _ => ?_)
  rw [doubled, doubled, conjugate_power]
  ring

theorem row_unit_nonzero [NoZeroDivisors T] : arguments.rowUnit R ≠ 0 := by
  have unit : unitPowers R T ≠ 0 := unit_powers_nonzero
  exact mul_ne_zero (conjugate_nonzero unit _) unit

theorem count_nonzero (R : Type) {T : Type} [CommRing R] [LinearOrder R] [IsStrictOrderedRing R] [CommRing T]
    [Element R T] [LawfulElement R T] {count : Nat} (some : count ≠ 0) {scale : T} (nothing : (count : T) * scale = 0) :
    scale = 0 :=
  multiples_differ R some (by rw [nothing, Nat.cast_zero, zero_mul])

-- A first element that never changes: both scales are idle.
theorem still_scales [NoZeroDivisors T] (y : Operand Nat)
    (consecutive : ∀ i part, part < width T → y.address i part = y.address i 0 + part)
    (consecutiveX : ∀ i part, part < width T →
      (arguments.inputVector.elements T).address i part = (arguments.inputVector.elements T).address i 0 + part)
    (still : ∀ memory : Nat → R, arguments.productScale * arguments.rowProduct memory (arguments.inputVector.elements T) 0 +
      arguments.resultScale * whole (y.element memory 0) = whole (y.element memory 0)) :
    arguments.resultScale = 1 ∧ (arguments.columns ≤ 0 ∨ arguments.productScale = 0) := by
  have once := still powers
  have twice := still (fun place => 2 ^ 1 * powers place)
  have doubled : (whole (y.element (fun place => 2 ^ 1 * (powers place : R)) 0) : T) =
      2 ^ 1 * whole (y.element (powers : Nat → R) 0) := whole_scaled 1 _
  rw [row_product_doubled, doubled] at twice
  have product : arguments.productScale * arguments.rowProduct (powers : Nat → R) (arguments.inputVector.elements T) 0 = 0 := by
    refine count_nonzero R two_ne_zero ?_
    rw [Nat.cast_ofNat]
    linear_combination twice - 2 * once
  rw [product, zero_add] at once
  have element : (whole (y.element (powers : Nat → R) 0) : T) ≠ 0 := by
    rw [whole_powers y 0 (consecutive 0)]
    intro zero
    refine unit_powers_nonzero (R := R) (T := T) (count_nonzero R (Nat.two_pow_pos (y.address 0 0)).ne' ?_)
    rw [Nat.cast_pow, Nat.cast_ofNat]
    exact zero
  refine ⟨mul_right_cancel₀ element (by rw [once, one_mul]), ?_⟩
  by_cases several : 0 < arguments.columns
  · right
    rw [row_product_powers _ consecutiveX] at product
    have positive : 0 < arguments.rowPowers (arguments.inputVector.elements T) :=
      Finset.sum_pos (fun j _ => Nat.two_pow_pos _) ⟨0, Finset.mem_range.mpr (by simp only [toUsize]; omega)⟩
    rw [mul_left_comm] at product
    have scaled : arguments.productScale * arguments.rowUnit R = 0 := count_nonzero R positive.ne' product
    exact (mul_eq_zero.mp scaled).resolve_right row_unit_nonzero
  · exact .inl (Int.not_lt.mp several)

omit [LinearOrder R] [IsStrictOrderedRing R] in
theorem promised_still (promised : arguments.Promised phases hidden) (several : 0 < arguments.rows)
    (same : ∀ memory final, Phase.Outcomes phases memory final → ∀ part, part < width T →
      final ((arguments.resultVector.elements T).address 0 part) =
        memory ((arguments.resultVector.elements T).address 0 part)) (memory : Nat → R) :
    arguments.promised memory 0 = whole ((arguments.resultVector.elements T).element memory 0) := by
  obtain ⟨final, ran⟩ := Phase.outcomes_exist phases memory
  refine parts_ext (fun part small => ?_)
  have inside : (0, part) ∈ slots (width T) (Set.Iio (toUsize arguments.rows)) :=
    ⟨small, by simp only [Set.mem_Iio, toUsize]; omega⟩
  rw [← promised.written memory final ran (0, part) inside, LawfulElement.parts_whole _ _ small]
  exact same memory final ran part small

theorem still_keeps_equation [NoZeroDivisors T] (shaped : arguments.Shaped)
    (still : ∀ memory : Nat → R,
      arguments.promised memory 0 = whole ((arguments.resultVector.elements T).element memory 0)) :
    arguments.KeepsEquation := by
  have scales := still_scales (R := R) (arguments.resultVector.elements T)
    (fun i part _ => strided_consecutive _ _ _ i part) (fun i part _ => strided_consecutive _ _ _ i part) still
  have nonneg := shaped.columns_nonneg
  exact .inr (.inl ⟨scales.1, scales.2.imp (by omega) id⟩)

-- gemv ran and the promise holds: the result starts where its view does, and so does an input that counts.
theorem formula_keeps_equation [NoZeroDivisors T] (shaped : arguments.Shaped) (several : 0 < arguments.rows)
    (some : 0 < arguments.columns)
    (clear : ∀ slot, slot ∈ slots (width T) (Set.Iio (toUsize arguments.rows)) →
      slotAddress (arguments.resultVector.elements T) slot ∉ hidden)
    (leaves : arguments.Leaves phases hidden value)
    (formula : ∀ memory i, i < toUsize arguments.rows →
      value memory i = arguments.combined memory arguments.inputElements arguments.resultElements i)
    (promised : arguments.Promised phases hidden) : arguments.KeepsEquation := by
  have inside : 0 < toUsize arguments.rows := by simp only [toUsize]; omega
  by_cases origin : arguments.resultVector.SharedOrigin arguments.rows
  · refine .inr (.inr ⟨some, origin, ?_⟩)
    by_contra moved
    rw [not_or] at moved
    obtain ⟨shift, placed, beyond⟩ := shared_shift (T := T) (shaped.input_stride some) shaped.columns_fit
    have shifted : 0 < 0 + shift := by
      rw [Nat.zero_add]
      exact beyond LawfulElement.width_pos (by simp only [toUsize]; omega) moved.2
    have own : arguments.resultElements = arguments.resultVector.elements T := origin.elements
    obtain ⟨final, ran⟩ := Phase.outcomes_exist phases (powers : Nat → R)
    have equal : arguments.promised (powers : Nat → R) 0 = value powers 0 := by
      refine parts_ext (fun part small => ?_)
      rw [← promised.written _ final ran (0, part) ⟨small, inside⟩, ← own, leaves.written _ final ran (0, part) ⟨small, inside⟩]
    rw [formula _ 0 inside, MatrixVectorArguments.promised, combined, combined, own, add_left_inj,
      row_product_powers (arguments.inputVector.elements T) (fun i part _ => strided_consecutive _ _ _ i part),
      row_product_powers arguments.inputElements (fun i part _ => strided_consecutive _ _ _ i part),
      mul_left_comm, mul_left_comm arguments.productScale] at equal
    have different : arguments.rowPowers (arguments.inputVector.elements T) ≠ arguments.rowPowers arguments.inputElements :=
      moved_sum (by simp only [toUsize]; omega) shifted (fun j _ => (Nat.add_zero _).symm) placed
    rcases mul_eq_zero.mp (multiples_differ R different equal) with zero | zero
    · exact moved.1 zero
    · exact row_unit_nonzero (R := R) zero
  · refine still_keeps_equation (R := R) shaped (promised_still promised several (fun memory final ran part small => ?_))
    refine leaves.kept memory final ran _ (clear (0, part) ⟨small, inside⟩) (fun slot member => ?_)
    have beyond := first_element_beyond (T := T) (shaped.result_stride several) shaped.rows_fit origin slot.1 slot.2 member.2
      member.1
    have step : (arguments.resultVector.elements T).address 0 part = (arguments.resultVector.elements T).address 0 0 + part :=
      strided_consecutive _ _ _ 0 part
    rw [step]
    exact Nat.ne_of_lt (beyond.trans_le (Nat.le_add_right _ _))

theorem unchanged_keeps_equation [NoZeroDivisors T] (shaped : arguments.Shaped) (several : 0 < arguments.rows)
    (clear : ∀ slot, slot ∈ slots (width T) (Set.Iio (toUsize arguments.rows)) →
      slotAddress (arguments.resultVector.elements T) slot ∉ hidden)
    (leaves : arguments.Leaves phases hidden value)
    (same : ∀ memory i, i < toUsize arguments.rows → value memory i = whole (arguments.resultElements.element memory i))
    (promised : arguments.Promised phases hidden) : arguments.KeepsEquation := by
  have inside : 0 < toUsize arguments.rows := by simp only [toUsize]; omega
  refine still_keeps_equation (R := R) shaped (promised_still promised several (fun memory final ran part small => ?_))
  exact leaves_unchanged leaves same memory final ran _ (clear (0, part) ⟨small, inside⟩)

-- Stale workspace elements come out as the result.
theorem stale_breaks_promise (several : 0 < arguments.rows) (empty : arguments.columns = 0)
    (nothing : arguments.resultScale = 0) (stale : Operand Nat)
    (inHidden : stale.address 0 0 ∈ hidden)
    (clear : ∀ slot, slot ∈ slots (width T) (Set.Iio (toUsize arguments.rows)) →
      slotAddress arguments.resultElements slot ∉ hidden)
    (leaves : arguments.Leaves phases hidden value) (same : ∀ memory i, value memory i = whole (stale.element memory i)) :
    ¬ arguments.Promised phases hidden := by
  intro promised
  have first : ((0, 0) : Nat × Nat) ∈ slots (width T) (Set.Iio (toUsize arguments.rows)) :=
    ⟨LawfulElement.width_pos, by simp only [Set.mem_Iio, toUsize]; omega⟩
  obtain ⟨final, ran⟩ := Phase.outcomes_exist phases (fun place => if place = stale.address 0 0 then (1 : R) else 0)
  have left := leaves.written _ final ran (0, 0) first
  rw [same, LawfulElement.parts_whole _ _ first.1] at left
  have one : final (slotAddress arguments.resultElements (0, 0)) = 1 := left.trans (if_pos rfl)
  by_cases claimed : ∀ slot, slot ∈ slots (width T) (Set.Iio (toUsize arguments.rows)) →
      slotAddress (arguments.resultVector.elements T) slot ≠ slotAddress arguments.resultElements (0, 0)
  · have kept := promised.kept _ final ran _ (clear (0, 0) first) claimed
    have apart : slotAddress arguments.resultElements (0, 0) ≠ stale.address 0 0 :=
      fun here => clear (0, 0) first (here.symm ▸ inHidden)
    rw [one, if_neg apart] at kept
    exact one_ne_zero kept
  · simp only [not_forall, not_not] at claimed
    obtain ⟨slot, member, here⟩ := claimed
    have written := promised.written _ final ran slot member
    have none : toUsize arguments.columns = 0 := by simp only [toUsize]; omega
    rw [here, one, MatrixVectorArguments.promised, combined, rowProduct, none, Finset.range_zero, Finset.sum_empty, nothing,
      mul_zero, zero_mul, add_zero, parts_zero] at written
    exact one_ne_zero written

end Necessary

end Zynum.Api
