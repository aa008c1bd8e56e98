import Zynum.Kernels.FixedMatrixKernels
import Zynum.MatrixVector.GeneralExact

set_option autoImplicit false

/- The leaves of gemv on x86_64: arch/x86_64/matrix_vector.zig over the fixed-width
   kernels, in the configurations of simd_config.zig. A leaf is a kernel run on a
   storage that holds y, x and the matrix one behind the other. -/
namespace Zynum.FixedMatrix

open ArrayProgram FixedVector LevelOne

section Configurations

def lanes (precision : Precision) (hasAvx hasAvx512f : Bool) : Nat :=
  match precision with
  | .single => if hasAvx512f then 16 else if hasAvx then 8 else 4
  | .double => if hasAvx512f then 8 else if hasAvx then 4 else 2

theorem lanes_pos (precision : Precision) (hasAvx hasAvx512f : Bool) : 0 < lanes precision hasAvx hasAvx512f := by
  cases precision <;> cases hasAvx <;> cases hasAvx512f <;> decide

theorem lanes_even (precision : Precision) (hasAvx hasAvx512f : Bool) : 2 ∣ lanes precision hasAvx hasAvx512f := by
  cases precision <;> cases hasAvx <;> cases hasAvx512f <;> decide

def matrixConfig (precision : Precision) (hasAvx hasAvx512f avx2Fma : Bool) : MatrixVectorConfig where
  laneCount := lanes precision hasAvx hasAvx512f
  rowUnrollVectors := if hasAvx512f then 3 else 4
  colUnroll := if hasAvx then 8 else 4
  minWork := 0
  maxWork := 512 * 512
  fuseComplexUpdates := avx2Fma
  some_lanes := lanes_pos precision hasAvx hasAvx512f
  some_rows := by cases hasAvx512f <;> decide
  some_columns := by cases hasAvx <;> decide

theorem four_columns : 0 < 4 := Nat.succ_pos 3

-- Eight columns times four groups of rows do not fit the registers of AVX2.
def gemvTransRealConfig (precision : Precision) (hasAvx hasAvx512f avx2Fma : Bool) : MatrixVectorConfig :=
  if avx2Fma then
    { matrixConfig precision hasAvx hasAvx512f avx2Fma with
      colUnroll := 4, rowUnrollVectors := 2, some_rows := Nat.two_pos, some_columns := four_columns }
  else matrixConfig precision hasAvx hasAvx512f avx2Fma

def matrixComplexConfig (precision : Precision) (hasAvx hasAvx512f avx2Fma : Bool) : MatrixVectorConfig where
  laneCount := lanes precision hasAvx hasAvx512f
  rowUnrollVectors := if hasAvx512f then 3 else 4
  colUnroll := if precision = .single then 4 else 2
  minWork := 128 * 128
  maxWork := 512 * 512
  fuseComplexUpdates := avx2Fma
  some_lanes := lanes_pos precision hasAvx hasAvx512f
  some_rows := by cases hasAvx512f <;> decide
  some_columns := by cases precision <;> decide

end Configurations

section Storage

variable {R : Type} {ly lx : Nat} {y x a : Mem R}

def operands (ly lx : Nat) (y x a : Mem R) (place : Nat) : R :=
  if place < ly then y place else if place < ly + lx then x (place - ly) else a (place - (ly + lx))

theorem operands_output {i : Nat} (small : i < ly) : operands ly lx y x a (cellsFrom 0 i) = y i := by
  rw [operands, cellsFrom, Nat.zero_add, if_pos small]

theorem operands_input {j : Nat} (small : j < lx) : operands ly lx y x a (cellsFrom ly j) = x j := by
  have behind : ¬ ly + j < ly := by omega
  have before : ly + j < ly + lx := by omega
  rw [operands, cellsFrom, if_neg behind, if_pos before, Nat.add_sub_cancel_left]

theorem operands_matrix (cell : Nat) : operands ly lx y x a (cellsFrom (ly + lx) cell) = a cell := by
  have first : ¬ ly + lx + cell < ly := by omega
  have second : ¬ ly + lx + cell < ly + lx := by omega
  rw [operands, cellsFrom, if_neg first, if_neg second, Nat.add_sub_cancel_left]

end Storage

section RealLeaves

variable {R : Type} [CommRing R] [DecidableEq R]

-- What the kernel leaves in y, if it does not decline.
def leaf (program : Program Nat R Bool) (ly lx : Nat) (y x a : Mem R) : Option (Mem R) :=
  let done := program.run (operands ly lx y x a)
  if done.1 then some (fun place => if place < ly then done.2 place else y place) else none

omit [CommRing R] [DecidableEq R] in
theorem leaf_wrote {program : Program Nat R Bool} {accepted : Prop} {allowed : Set Nat} {value : (Nat → R) → Nat → R}
    {ly lx : Nat} {y x a after : Mem R}
    (kernel : KernelUpdates program accepted allowed {i | i < ly} (cellsFrom 0) value) (target : Nat → R → R)
    (meaning : accepted → ∀ i, i < ly → value (operands ly lx y x a) i = target i (y i)) (ran : leaf program ly lx y x a =
      some after) :
    Wrote (Set.Iio ly) (fun i => i) target y after := by
  by_cases yes : accepted
  · obtain ⟨answer, overwrites⟩ := kernel.accepts yes (operands ly lx y x a)
    simp only [leaf, answer, if_true, Option.some.injEq] at ran
    subst ran
    constructor
    · intro i small
      have stored := overwrites.written i small
      rw [cellsFrom, Nat.zero_add] at stored
      simp only [if_pos (show i < ly from small), stored, meaning yes i small]
    · intro place apart
      have outside : ¬ place < ly := fun small => apart place small rfl
      simp only [if_neg outside]
  · have declined := kernel.declines yes (operands ly lx y x a)
    simp only [leaf, declined, Bool.false_eq_true, if_false, reduceCtorEq] at ran

omit [CommRing R] [DecidableEq R] in
theorem column_read (ly lx : Nat) (y x a : Mem R) (lda : Int) (i j : Nat) :
    operands ly lx y x a (cellsFrom (columnAt 1 (ly + lx) lda 0 j) i) = a (matIndex lda i j) := by
  have place : cellsFrom (columnAt 1 (ly + lx) lda 0 j) i = cellsFrom (ly + lx) (matIndex lda i j) := by
    simp only [cellsFrom, columnAt, matIndex]
    omega
  rw [place, operands_matrix]

def noTransLeaf (cfg : MatrixVectorConfig) (m n : Nat) (alpha : R) (a : Mem R) (lda : Int) (x y : Mem R) : Option (Mem R) :=
  leaf (gemvNoTransUnitReal cfg m n alpha (cellsFrom (m + n)) lda (cellsFrom m) (cellsFrom 0)) m n y x a

def noTransFullLeaf (cfg : MatrixVectorConfig) (m n : Nat) (alpha : R) (a : Mem R) (lda : Int) (x : Mem R) (beta : R) (y : Mem R) :
    Option (Mem R) :=
  leaf (gemvNoTransFullUnitReal cfg m n alpha (cellsFrom (m + n)) lda (cellsFrom m) beta (cellsFrom 0)) m n y x a

def transLeaf (cfg : MatrixVectorConfig) (m n : Nat) (alpha : R) (a : Mem R) (lda : Int) (x y : Mem R) : Option (Mem R) :=
  leaf (gemvTransUnitReal cfg m n alpha (cellsFrom (n + m)) lda (cellsFrom n) (cellsFrom 0)) n m y x a

def transFullLeaf (cfg : MatrixVectorConfig) (m n : Nat) (alpha : R) (a : Mem R) (lda : Int) (x : Mem R) (beta : R) (y : Mem R) :
    Option (Mem R) :=
  leaf (gemvTransFullUnitReal cfg m n alpha (cellsFrom (n + m)) lda (cellsFrom n) beta (cellsFrom 0)) n m y x a

omit [DecidableEq R] in
theorem no_trans_value (m n : Nat) (alpha : R) (a : Mem R) (lda : Int) (x y : Mem R) (i : Nat) :
    ∑ j ∈ Finset.range n, alpha * (operands m n y x a (cellsFrom (columnAt 1 (m + n) lda 0 j) i) *
      operands m n y x a (cellsFrom m j)) = alpha * columnSum n a lda x i := by
  rw [columnSum, Finset.mul_sum]
  refine Finset.sum_congr rfl (fun j member => ?_)
  rw [column_read, operands_input (Finset.mem_range.mp member)]

omit [DecidableEq R] in
theorem trans_value (m n : Nat) (a : Mem R) (lda : Int) (x y : Mem R) (j : Nat) :
    ∑ i ∈ Finset.range m, operands n m y x a (cellsFrom (columnAt 1 (n + m) lda 0 j) i) *
      operands n m y x a (cellsFrom n i) = ∑ i ∈ Finset.range m, a (matIndex lda i j) * x i := by
  refine Finset.sum_congr rfl (fun i member => ?_)
  rw [column_read, operands_input (Finset.mem_range.mp member)]

section Exact

variable {cfg : MatrixVectorConfig} {m n : Nat} {alpha beta : R} {a x y after : Mem R} {lda : Int}

theorem no_trans_leaf_wrote (ran : noTransLeaf cfg m n alpha a lda x y = some after) :
    Wrote (Set.Iio m) (fun i => i) (fun i old => old + alpha * columnSum n a lda x i) y after := by
  have kernel := (real_no_trans_kernels cfg alpha 0 (output_before_matrix m n 1 m n lda) output_before_input).1
  refine leaf_wrote kernel _ (fun _ i small => ?_) ran
  rw [no_trans_value, operands_output small]

theorem no_trans_full_leaf_wrote (ran : noTransFullLeaf cfg m n alpha a lda x beta y = some after) :
    Wrote (Set.Iio m) (fun i => i) (fun i old => alpha * columnSum n a lda x i + beta * old) y after := by
  have kernel := (real_no_trans_kernels cfg alpha beta (output_before_matrix m n 1 m n lda) output_before_input).2
  refine leaf_wrote kernel _ (fun _ i small => ?_) ran
  rw [no_trans_value, operands_output small, add_comm]

theorem trans_leaf_wrote (ran : transLeaf cfg m n alpha a lda x y = some after) :
    Wrote (Set.Iio n) (fun j => j) (fun j old => old + alpha * ∑ i ∈ Finset.range m, a (matIndex lda i j) * x i) y after := by
  have kernel := (real_trans_kernels cfg alpha 0 (output_before_matrix n m 1 m n lda) output_before_input).1
  refine leaf_wrote kernel _ (fun _ j small => ?_) ran
  rw [trans_value, operands_output small]

theorem trans_full_leaf_wrote (ran : transFullLeaf cfg m n alpha a lda x beta y = some after) :
    Wrote (Set.Iio n) (fun j => j) (fun j old => alpha * ∑ i ∈ Finset.range m, a (matIndex lda i j) * x i + beta * old) y
      after := by
  have kernel := (real_trans_kernels cfg alpha beta (output_before_matrix n m 1 m n lda) output_before_input).2
  refine leaf_wrote kernel _ (fun _ j small => ?_) ran
  rw [trans_value, operands_output small, add_comm]

end Exact

theorem real_row_sum (precision : Precision) (m : Nat) (a : Mem R) (lda : Int) (x : Mem R) (doConj : Bool) (j : Nat) :
    @rowSum R _ (realKind R precision) m a lda x doConj j = ∑ i ∈ Finset.range m, a (matIndex lda i j) * x i := by
  cases doConj <;> rfl

def realLeaves (precision : Precision) (noTrans trans : MatrixVectorConfig) : @ExactGemvLeaves R _ (realKind R precision) :=
  let _ := realKind R precision
  { fullNoTrans := noTransFullLeaf noTrans
    fullTrans := fun m n alpha a lda x beta y _ => transFullLeaf trans m n alpha a lda x beta y
    addNoTrans := noTransLeaf noTrans
    addTrans := fun m n alpha a lda x y _ => transLeaf trans m n alpha a lda x y
    fullNoTrans_exact := fun _ _ _ _ _ _ _ _ _ ran => no_trans_full_leaf_wrote ran
    fullTrans_exact := fun m _ _ a lda x _ _ doConj _ ran => by
      simp only [real_row_sum precision m a lda x doConj]
      exact trans_full_leaf_wrote ran
    addNoTrans_exact := fun _ _ _ _ _ _ _ _ ran => no_trans_leaf_wrote ran
    addTrans_exact := fun m _ _ a lda x _ doConj _ ran => by
      simp only [real_row_sum precision m a lda x doConj]
      exact trans_leaf_wrote ran }

end RealLeaves

section ComplexLeaves

variable {R : Type} [CommRing R] [DecidableEq R]

def reals (x : Mem (Cplx R)) (cell : Nat) : R := component (x (cell / 2)) cell

def complexLeaf (program : Program Nat R Bool) (ly lx : Nat) (y x a : Mem (Cplx R)) : Option (Mem (Cplx R)) :=
  (leaf program (2 * ly) (2 * lx) (reals y) (reals x) (reals a)).map (fun after place =>
    if place < ly then complexAt after 0 place else y place)

omit [CommRing R] [DecidableEq R] in
theorem component_even (value : Cplx R) (i : Nat) : component value (2 * i) = value.re := by
  rw [component, if_pos (Nat.mul_mod_right 2 i)]

omit [CommRing R] [DecidableEq R] in
theorem component_odd (value : Cplx R) (i : Nat) : component value (2 * i + 1) = value.im := by
  rw [component, if_neg (by omega)]

omit [CommRing R] [DecidableEq R] in
theorem complex_read {memory : Nat → R} {start i : Nat} {value : Cplx R} (even : memory (cellsFrom start (2 * i)) = value.re)
    (odd : memory (cellsFrom start (2 * i + 1)) = value.im) : complexAt memory start i = value :=
  Cplx.ext_parts even odd

omit [CommRing R] [DecidableEq R] in
theorem complex_leaf_wrote {program : Program Nat R Bool} {accepted : Prop} {allowed : Set Nat} {value : (Nat → R) → Nat → R}
    {ly lx : Nat} {y x a after : Mem (Cplx R)}
    (kernel : KernelUpdates program accepted allowed {cell | cell < 2 * ly} (cellsFrom 0) value)
    (target : Nat → Cplx R → Cplx R)
    (meaning : accepted → ∀ cell, cell < 2 * ly → value (operands (2 * ly) (2 * lx) (reals y) (reals x) (reals a)) cell =
      component (target (cell / 2) (y (cell / 2))) cell)
    (ran : complexLeaf program ly lx y x a = some after) : Wrote (Set.Iio ly) (fun i => i) target y after := by
  obtain ⟨store, answered, rfl⟩ := Option.map_eq_some_iff.mp ran
  have wrote := leaf_wrote kernel (fun cell _ => component (target (cell / 2) (y (cell / 2))) cell) meaning answered
  constructor
  · intro i small
    have below : i < ly := small
    have even := wrote.written (2 * i) (show 2 * i < 2 * ly by omega)
    have odd := wrote.written (2 * i + 1) (show 2 * i + 1 < 2 * ly by omega)
    rw [Nat.mul_div_cancel_left i Nat.two_pos, component_even] at even
    rw [show (2 * i + 1) / 2 = i by omega, component_odd] at odd
    simp only [if_pos below]
    refine complex_read ?_ ?_
    · rw [cellsFrom, Nat.zero_add]
      exact even
    · rw [cellsFrom, Nat.zero_add]
      exact odd
  · intro place apart
    have outside : ¬ place < ly := fun small => apart place small rfl
    simp only [if_neg outside]

section Reads

variable (ly lx : Nat) (y x a : Mem (Cplx R))

omit [CommRing R] [DecidableEq R] in
theorem input_read {j : Nat} (small : j < lx) :
    complexAt (operands (2 * ly) (2 * lx) (reals y) (reals x) (reals a)) (2 * ly) j = x j := by
  refine complex_read ?_ ?_
  · rw [operands_input (by omega), reals, Nat.mul_div_cancel_left j Nat.two_pos, component_even]
  · rw [operands_input (by omega), reals, show (2 * j + 1) / 2 = j by omega, component_odd]

omit [CommRing R] [DecidableEq R] in
theorem matrix_read (lda : Int) (i j : Nat) :
    complexAt (operands (2 * ly) (2 * lx) (reals y) (reals x) (reals a)) (columnAt 2 (2 * ly + 2 * lx) lda 0 j) i =
      a (matIndex lda i j) := by
  have even : cellsFrom (columnAt 2 (2 * ly + 2 * lx) lda 0 j) (2 * i) = cellsFrom (2 * ly + 2 * lx) (2 * matIndex lda i j) := by
    simp only [cellsFrom, columnAt, matIndex]
    omega
  have odd : cellsFrom (columnAt 2 (2 * ly + 2 * lx) lda 0 j) (2 * i + 1) =
      cellsFrom (2 * ly + 2 * lx) (2 * matIndex lda i j + 1) := by
    simp only [cellsFrom, columnAt, matIndex]
    omega
  refine complex_read ?_ ?_
  · rw [even, operands_matrix, reals, Nat.mul_div_cancel_left _ Nat.two_pos, component_even]
  · rw [odd, operands_matrix, reals, show ∀ p : Nat, (2 * p + 1) / 2 = p from fun p => by omega, component_odd]

end Reads

-- The kernels leave 512 by 512 products to the tasks in front of them.
def complexNoTransLeaf (cfg : MatrixVectorConfig) (m n : Nat) (alpha : Cplx R) (a : Mem (Cplx R)) (lda : Int)
    (x y : Mem (Cplx R)) : Option (Mem (Cplx R)) :=
  if m = 512 ∧ n = 512 then none
  else complexLeaf (gemvNoTransUnitComplex cfg m n alpha (cellsFrom (2 * m + 2 * n)) lda (cellsFrom (2 * m)) (cellsFrom 0)) m n y x a

def complexTransLeaf (cfg : MatrixVectorConfig) (m n : Nat) (alpha : Cplx R) (a : Mem (Cplx R)) (lda : Int)
    (x y : Mem (Cplx R)) (doConj : Bool) : Option (Mem (Cplx R)) :=
  if m = 512 ∧ n = 512 then none
  else complexLeaf (gemvTransUnitComplex cfg m n alpha (cellsFrom (2 * n + 2 * m)) lda (cellsFrom (2 * n)) (cellsFrom 0) doConj)
    n m y x a

section Exact

variable {cfg : MatrixVectorConfig} {m n : Nat} {alpha : Cplx R} {a x y after : Mem (Cplx R)} {lda : Int}

omit [DecidableEq R] in
theorem complex_no_trans_leaf_wrote (even : 2 ∣ cfg.laneCount) (ran : complexNoTransLeaf cfg m n alpha a lda x y = some after) :
    Wrote (Set.Iio m) (fun i => i) (fun i old => old + alpha * columnSum n a lda x i) y after := by
  rw [complexNoTransLeaf] at ran
  split at ran
  case isTrue => cases ran
  case isFalse =>
    have kernel := complex_no_trans_kernel cfg alpha even (output_before_matrix (2 * m) (2 * n) 2 m n lda) output_before_input
    refine complex_leaf_wrote kernel _ (fun _ cell small => ?_) ran
    have sum : ∑ j ∈ Finset.range n, component (alpha * (complexAt (operands (2 * m) (2 * n) (reals y) (reals x) (reals a))
        (columnAt 2 (2 * m + 2 * n) lda 0 j) (cell / 2) *
          complexAt (operands (2 * m) (2 * n) (reals y) (reals x) (reals a)) (2 * m) j)) cell =
        component (alpha * columnSum n a lda x (cell / 2)) cell := by
      rw [columnSum, Finset.mul_sum, component_sum]
      refine Finset.sum_congr rfl (fun j member => ?_)
      rw [matrix_read, input_read m n y x a (Finset.mem_range.mp member)]
    rw [sum, operands_output small, component_add]
    rfl

theorem complex_trans_leaf_wrote {doConj : Bool} (even : 2 ∣ cfg.laneCount)
    (ran : complexTransLeaf cfg m n alpha a lda x y doConj = some after) :
    Wrote (Set.Iio n) (fun j => j)
      (fun j old => old + alpha * ∑ i ∈ Finset.range m, conjIf doConj (a (matIndex lda i j)) * x i) y after := by
  rw [complexTransLeaf] at ran
  split at ran
  case isTrue => cases ran
  case isFalse =>
    have kernel := complex_trans_kernel cfg alpha doConj even (output_before_matrix (2 * n) (2 * m) 2 m n lda) output_before_input
    refine complex_leaf_wrote kernel _ (fun _ cell small => ?_) ran
    have sum : ∑ i ∈ Finset.range m, conjIf doConj (complexAt (operands (2 * n) (2 * m) (reals y) (reals x) (reals a))
        (columnAt 2 (2 * n + 2 * m) lda 0 (cell / 2)) i) *
          complexAt (operands (2 * n) (2 * m) (reals y) (reals x) (reals a)) (2 * n) i =
        ∑ i ∈ Finset.range m, conjIf doConj (a (matIndex lda i (cell / 2))) * x i := by
      refine Finset.sum_congr rfl (fun i member => ?_)
      rw [matrix_read, input_read n m y x a (Finset.mem_range.mp member)]
    rw [sum, operands_output small, component_add]
    rfl

end Exact

-- There is no one-pass complex kernel on x86_64.
def complexLeaves (precision : Precision) (cfg : MatrixVectorConfig) (even : 2 ∣ cfg.laneCount) :
    @ExactGemvLeaves (Cplx R) _ (complexKind R precision) :=
  let _ := complexKind R precision
  { fullNoTrans := fun _ _ _ _ _ _ _ _ => none
    fullTrans := fun _ _ _ _ _ _ _ _ _ => none
    addNoTrans := complexNoTransLeaf cfg
    addTrans := complexTransLeaf cfg
    fullNoTrans_exact := fun _ _ _ _ _ _ _ _ _ ran => by cases ran
    fullTrans_exact := fun _ _ _ _ _ _ _ _ _ _ ran => by cases ran
    addNoTrans_exact := fun _ _ _ _ _ _ _ _ ran => complex_no_trans_leaf_wrote even ran
    addTrans_exact := fun _ _ _ _ _ _ _ doConj _ ran => by
      cases doConj <;> exact complex_trans_leaf_wrote even ran }

end ComplexLeaves

end Zynum.FixedMatrix
