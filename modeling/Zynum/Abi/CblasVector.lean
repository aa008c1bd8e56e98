import Zynum.Abi.CblasLayout
import Zynum.MatrixVector.BandProduct
import Zynum.MatrixVector.X86Leaves

set_option autoImplicit false

/- gemv and gbmv through CBLAS: both layouts compute the product with the matrix the
   caller means, whether the call is turned or runs in the conjugated loops. -/
namespace Zynum

open ArrayProgram

variable {T : Type} [CommRing T] [Scalar T]

def matrixVectorValue (mode : TransposeMode) (m n : Int) (alpha : T) (entry : Nat → Nat → T) (x : Mem T) (incx : Int) (beta : T)
    (i : Nat) (old : T) : T :=
  let lenx := if mode = .noTrans then n else m
  alpha * ∑ j ∈ Finset.range (toUsize lenx), opEntry mode entry i j * vectorGet x (startIndex lenx incx) j incx + beta * old

-- Row-major band storage keeps row i in lda slots, the diagonal in slot kl.
def rowMajorBandEntry (kl ku : Nat) (a : Mem T) (lda : Int) (i j : Nat) : T :=
  if j ≤ i + ku ∧ i ≤ j + kl then a (i * toUsize lda + (kl + j - i)) else 0

def Layout.bandEntry (layout : Layout) (m kl ku : Nat) (a : Mem T) (lda : Int) : Nat → Nat → T :=
  match layout with
  | .rowMajor => rowMajorBandEntry kl ku a lda
  | .colMajor => bandMatrix m kl ku a lda

theorem matrix_vector_value_congr (mode : TransposeMode) (m n : Int) (alpha : T) (entry entry' : Nat → Nat → T)
    (same : SameMatrix (toUsize m) (toUsize n) entry entry') (x : Mem T) (incx : Int) (beta : T) (i : Nat) (old : T)
    (inside : i < toUsize (outputLength mode m n)) :
    matrixVectorValue mode m n alpha entry x incx beta i old = matrixVectorValue mode m n alpha entry' x incx beta i old := by
  simp only [matrixVectorValue]
  congr 2
  refine Finset.sum_congr rfl (fun j member => ?_)
  have small := Finset.mem_range.mp member
  congr 1
  cases mode with
  | noTrans => exact same i j inside small
  | trans => exact same j i small inside
  | conjTrans => exact congrArg conj (same j i small inside)

theorem matrix_vector_accepted (trans : Char) (m n lda incx incy : Int) (valid : validTrans trans = true) (rows : 0 ≤ m)
    (columns : 0 ≤ n) (wide : max1 m ≤ lda) (stepx : incx ≠ 0) (stepy : incy ≠ 0) :
    matrixVectorError trans m n lda incx incy = 0 := by
  simp only [matrixVectorError, valid, Bool.not_true, Bool.false_eq_true, if_false]
  split_ifs <;> omega

section Turned

variable [LawfulScalar T]

theorem turned_entry (mode : TransposeMode) (plain : mode = .conjTrans → Scalar.isComplex T = false) (entry : Nat → Nat → T)
    (i j : Nat) : opEntry (Layout.rowMajor.turned mode) entry i j = opEntry mode (fun i j => entry j i) i j := by
  cases mode with
  | noTrans => rfl
  | trans => rfl
  | conjTrans => exact (LawfulScalar.conj_real (plain rfl) (entry i j)).symm

theorem turned_length (mode : TransposeMode) (m n : Int) :
    outputLength (Layout.rowMajor.turned mode) n m = outputLength mode m n := by
  cases mode <;> rfl

theorem turned_value (mode : TransposeMode) (plain : mode = .conjTrans → Scalar.isComplex T = false) (m n : Int) (alpha : T)
    (entry : Nat → Nat → T) (x : Mem T) (incx : Int) (beta : T) (i : Nat) (old : T) :
    matrixVectorValue (Layout.rowMajor.turned mode) n m alpha entry x incx beta i old =
      matrixVectorValue mode m n alpha (fun i j => entry j i) x incx beta i old := by
  have lengths : (if Layout.rowMajor.turned mode = .noTrans then m else n) = if mode = .noTrans then n else m := by
    cases mode <;> rfl
  simp only [matrixVectorValue, lengths, turned_entry mode plain]

theorem conj_loop_updates (n : Int) (alpha beta : T) (incy : Int) (nonzero : incy ≠ 0) (sum : Nat → T) :
    Updates (Set.Iio (toUsize n)) (fun j => ix (startIndex n incy) j incy) (fun j old => alpha * sum j + beta * old) (fun y =>
      if isZero alpha then scaleOutput (toUsize n) beta (startIndex n incy) y incy
      else loop (toUsize n) (fun j y => Function.update y (ix (startIndex n incy) j incy)
        (y (ix (startIndex n incy) j incy) + alpha * sum j)) (scaleOutput (toUsize n) beta (startIndex n incy) y incy)) := by
  have scaled := scale_output_updates n beta incy nonzero
  cases nothing : isZero alpha with
  | true =>
    refine scaled.congr rfl (fun j old _ => ?_)
    rw [(LawfulScalar.isZero_iff alpha).mp nothing, zero_mul, zero_add]
  | false =>
    have added := updates_elementwise (toUsize n) (fun j => ix (startIndex n incy) j incy) (fun j (old : T) => old + alpha * sum j)
      (ix_injective n incy nonzero)
    refine ((scaled.then_same added).congr rfl (fun j old _ => add_comm _ _)).congr_run (fun y => ?_)
    simp only [Bool.false_eq_true, if_false]

end Turned

namespace Cblas

section General

variable [LawfulScalar T]

theorem conj_gemv_updates (m n : Int) (alpha : T) (a : Mem T) (lda : Int) (x : Mem T) (incx : Int) (beta : T) (incy : Int)
    (rows : 0 < m) (columns : 0 < n) (wide : max1 n ≤ lda) (stepx : incx ≠ 0) (stepy : incy ≠ 0) :
    Updates (Set.Iio (toUsize n)) (fun j => ix (startIndex n incy) j incy)
      (matrixVectorValue .conjTrans m n alpha (Layout.rowMajor.entry a lda) x incx beta)
      (fun y => rowMajorConjGemv m n alpha a lda x incx beta y incy) := by
  have enter : ¬ (m ≤ 0 ∨ n ≤ 0 ∨ lda < max1 n ∨ incx = 0 ∨ incy = 0) := by omega
  have whole := conj_loop_updates n alpha beta incy stepy (fun j => ∑ i ∈ Finset.range (toUsize m),
    conj (Layout.rowMajor.entry a lda i j) * vectorGet x (startIndex m incx) i incx)
  refine whole.congr_run (fun y => ?_)
  simp only [rowMajorConjGemv, if_neg enter, loop_accumulate, zero_add]
  simp only [Layout.entry, Layout.address, matIndex, Nat.add_comm]

theorem gemv_layout_updates (leaves : ExactGemvLeaves T) (rt : Runtime) (site : Site) (layout : Layout) (mode : TransposeMode)
    (m n : Int) (alpha : T) (a : Mem T) (lda : Int) (x : Mem T) (incx : Int) (beta : T) (incy : Int) (rows : 0 < m)
    (columns : 0 < n) (wide : layout.leading m n ≤ lda) (stepx : incx ≠ 0) (stepy : incy ≠ 0) :
    Updates (Set.Iio (toUsize (outputLength mode m n))) (fun i => ix (startIndex (outputLength mode m n) incy) i incy)
      (matrixVectorValue mode m n alpha (layout.entry a lda) x incx beta)
      (fun y => gemv leaves.toGemvLeaves rt site layout.code (cblasTransOf mode) m n alpha a lda x incx beta y incy) := by
  obtain ⟨valid, parsed, _⟩ := turned_passed layout mode
  cases leaf : conjLeaf T layout.code (cblasTransOf mode) with
  | true =>
    obtain ⟨_, rfl, rfl⟩ := (conj_leaf_iff layout mode).mp leaf
    refine (conj_gemv_updates m n alpha a lda x incx beta incy rows columns wide stepx stepy).congr_run (fun y => ?_)
    simp only [gemv, valid_layout, leaf, Bool.not_true, Bool.false_eq_true, if_false, if_true]
  | false =>
    cases layout with
    | colMajor =>
      refine (gemv_updates leaves rt site mode m n alpha a lda x incx beta incy rows columns stepx stepy).congr_run (fun y => ?_)
      have accepted := matrix_vector_accepted _ m n lda incx incy valid rows.le columns.le wide stepx stepy
      simp only [gemv, valid_layout, leaf, Bool.not_true, Bool.false_eq_true, if_false, pick_col, Fortran.gemv,
        Fortran.report_accepted accepted, parsed]
      rfl
    | rowMajor =>
      have plain := leaf_plain mode leaf
      have whole := gemv_updates leaves rt site (Layout.rowMajor.turned mode) n m alpha a lda x incx beta incy columns
        rows stepx stepy
      rw [turned_length] at whole
      refine (whole.congr rfl (fun i old _ => turned_value mode plain m n alpha (denseEntry a lda) x incx beta i old)).congr_run
        (fun y => ?_)
      have accepted := matrix_vector_accepted _ n m lda incx incy valid columns.le rows.le wide stepx stepy
      simp only [gemv, valid_layout, leaf, Bool.not_true, Bool.false_eq_true, if_false, pick_row, Fortran.gemv,
        Fortran.report_accepted accepted, parsed]

omit [LawfulScalar T] in
theorem gemv_layout_empty (leaves : GemvLeaves T) (rt : Runtime) (site : Site) (layout : Layout) (mode : TransposeMode)
    (m n : Int) (alpha : T) (a : Mem T) (lda : Int) (x : Mem T) (incx : Int) (beta : T) (incy : Int) (empty : m = 0 ∨ n = 0)
    (y : Mem T) : gemv leaves rt site layout.code (cblasTransOf mode) m n alpha a lda x incx beta y incy = y := by
  have leave : ∀ mode' m' n', m' = 0 ∨ n' = 0 → Zynum.gemv leaves rt site mode' m' n' alpha a lda x incx beta y incy = y := by
    intro mode' m' n' none
    rw [Zynum.gemv, if_pos (by omega)]
  have loops : rowMajorConjGemv m n alpha a lda x incx beta y incy = y := by
    rw [rowMajorConjGemv, if_pos (by omega)]
  simp only [gemv, valid_layout, loops, Fortran.gemv, Bool.not_true, Bool.false_eq_true, if_false]
  split
  · rfl
  · split
    · rfl
    · refine leave _ _ _ ?_
      cases layout with
      | rowMajor => exact Or.symm (by simpa only [pick_row] using empty)
      | colMajor => simpa only [pick_col] using empty

theorem gemv_layouts_agree (leaves leaves' : ExactGemvLeaves T) (rt rt' : Runtime) (site site' : Site) (layout layout' : Layout)
    (mode : TransposeMode) (m n : Int) (alpha : T) (a a' : Mem T) (lda lda' : Int) (x : Mem T) (incx : Int) (beta : T) (incy : Int)
    (rows : 0 ≤ m) (columns : 0 ≤ n) (wide : layout.leading m n ≤ lda) (wide' : layout'.leading m n ≤ lda') (stepx : incx ≠ 0)
    (stepy : incy ≠ 0) (same : SameMatrix (toUsize m) (toUsize n) (layout'.entry a' lda') (layout.entry a lda)) (y : Mem T) :
    gemv leaves'.toGemvLeaves rt' site' layout'.code (cblasTransOf mode) m n alpha a' lda' x incx beta y incy =
      gemv leaves.toGemvLeaves rt site layout.code (cblasTransOf mode) m n alpha a lda x incx beta y incy := by
  by_cases empty : m = 0 ∨ n = 0
  · exact (gemv_layout_empty _ rt' site' layout' mode m n alpha a' lda' x incx beta incy empty y).trans
      (gemv_layout_empty _ rt site layout mode m n alpha a lda x incx beta incy empty y).symm
  · have one := gemv_layout_updates leaves rt site layout mode m n alpha a lda x incx beta incy (by omega) (by omega) wide stepx stepy
    have other := gemv_layout_updates leaves' rt' site' layout' mode m n alpha a' lda' x incx beta incy (by omega) (by omega) wide'
      stepx stepy
    have moved := other.congr rfl (fun i old inside => matrix_vector_value_congr mode m n alpha _ _ same x incx beta i old inside)
    exact congrFun (moved.unique one) y

theorem gemv_layouts (leaves leaves' : ExactGemvLeaves T) (rt rt' : Runtime) (site site' : Site) (layout layout' : Layout)
    (mode : TransposeMode) (m n : Int) (alpha : T) (a a' : Mem T) (lda lda' : Int) (x : Mem T) (incx : Int) (beta : T) (incy : Int)
    (rows : 0 ≤ m) (columns : 0 ≤ n) (wide : layout.leading m n ≤ lda) (stepx : incx ≠ 0) (stepy : incy ≠ 0) :
    let run := fun y => gemv leaves.toGemvLeaves rt site layout.code (cblasTransOf mode) m n alpha a lda x incx beta y incy
    (m = 0 ∨ n = 0 → ∀ y, run y = y) ∧
    (0 < m → 0 < n → Updates (Set.Iio (toUsize (outputLength mode m n)))
      (fun i => ix (startIndex (outputLength mode m n) incy) i incy)
      (matrixVectorValue mode m n alpha (layout.entry a lda) x incx beta) run) ∧
    (layout'.leading m n ≤ lda' → SameMatrix (toUsize m) (toUsize n) (layout'.entry a' lda') (layout.entry a lda) → ∀ y,
      gemv leaves'.toGemvLeaves rt' site' layout'.code (cblasTransOf mode) m n alpha a' lda' x incx beta y incy = run y) := by
  intro run
  exact ⟨fun empty y => gemv_layout_empty _ rt site layout mode m n alpha a lda x incx beta incy empty y, fun someRow someColumn =>
    gemv_layout_updates leaves rt site layout mode m n alpha a lda x incx beta incy someRow someColumn wide stepx stepy,
    fun wide' same y => gemv_layouts_agree leaves leaves' rt rt' site site' layout layout' mode m n alpha a a' lda lda' x incx beta
      incy rows columns wide wide' stepx stepy same y⟩

end General

section Band

variable [LawfulScalar T]

-- Every column of the matrix the export sees has a row to start in; the conjugated
-- loops test each entry instead.
def BandRegular (T : Type) [Scalar T] (layout : Layout) (mode : TransposeMode) (m n kl ku : Int) : Prop :=
  conjLeaf T layout.code (cblasTransOf mode) = true ∨ match layout with
    | .rowMajor => m ≤ n + kl + 1
    | .colMajor => n ≤ m + ku + 1

omit [Scalar T] [LawfulScalar T] in
theorem turned_band (m n kl ku : Nat) (a : Mem T) (lda : Int) :
    SameMatrix m n (fun i j => bandMatrix n ku kl a lda j i) (rowMajorBandEntry kl ku a lda) := by
  intro i j inRows inColumns
  simp only [bandMatrix, rowMajorBandEntry]
  by_cases inside : j ≤ i + ku ∧ i ≤ j + kl
  · rw [if_pos inside, if_pos (by omega), Nat.add_comm (i * _)]
  · rw [if_neg inside, if_neg (by omega)]

theorem conj_gbmv_updates (m n kl ku : Int) (alpha : T) (a : Mem T) (lda : Int) (x : Mem T) (incx : Int) (beta : T) (incy : Int)
    (rows : 0 < m) (columns : 0 < n) (below : 0 ≤ kl) (above : 0 ≤ ku) (wide : kl + ku + 1 ≤ lda) (stepx : incx ≠ 0)
    (stepy : incy ≠ 0) :
    Updates (Set.Iio (toUsize n)) (fun j => ix (startIndex n incy) j incy)
      (matrixVectorValue .conjTrans m n alpha (rowMajorBandEntry (toUsize kl) (toUsize ku) a lda) x incx beta)
      (fun y => rowMajorConjGbmv m n kl ku alpha a lda x incx beta y incy) := by
  have enter : ¬ (m ≤ 0 ∨ n ≤ 0 ∨ kl < 0 ∨ ku < 0 ∨ lda < kl + ku + 1 ∨ incx = 0 ∨ incy = 0) := by omega
  have step : ∀ (i j : Nat) (sum : T), (if i + toUsize ku < j then sum
      else if j + toUsize kl < i then sum
      else sum + conj (a (i * toUsize lda + toUsize (kl + j - i))) * vectorGet x (startIndex m incx) i incx) =
      sum + conj (rowMajorBandEntry (toUsize kl) (toUsize ku) a lda i j) * vectorGet x (startIndex m incx) i incx := by
    intro i j sum
    have slot : toUsize (kl + j - i) = toUsize kl + j - i := by simp only [toUsize]; omega
    rw [rowMajorBandEntry, slot]
    by_cases inside : j ≤ i + toUsize ku ∧ i ≤ j + toUsize kl
    · rw [if_pos inside, if_neg (by omega), if_neg (by omega)]
    · rw [if_neg inside, conj_zero, zero_mul, add_zero]
      split_ifs with left right
      · rfl
      · rfl
      · exact absurd ⟨by omega, by omega⟩ inside
  have whole := conj_loop_updates n alpha beta incy stepy (fun j => ∑ i ∈ Finset.range (toUsize m),
    conj (rowMajorBandEntry (toUsize kl) (toUsize ku) a lda i j) * vectorGet x (startIndex m incx) i incx)
  refine whole.congr_run (fun y => ?_)
  simp only [rowMajorConjGbmv, if_neg enter, step, loop_accumulate, zero_add]

theorem gbmv_layout_updates (rt : Runtime) (site : Site) (tuning : GemvProfile) (layout : Layout) (mode : TransposeMode)
    (m n kl ku : Int) (alpha : T) (a : Mem T) (lda : Int) (x : Mem T) (incx : Int) (beta : T) (incy : Int) (rows : 0 < m)
    (columns : 0 < n) (below : 0 ≤ kl) (above : 0 ≤ ku) (wide : kl + ku + 1 ≤ lda) (stepx : incx ≠ 0) (stepy : incy ≠ 0)
    (regular : alpha = 0 ∨ BandRegular T layout mode m n kl ku) :
    ∃ total, (∀ y, gbmv rt site tuning layout.code (cblasTransOf mode) m n kl ku alpha a lda x incx beta y incy = some (total y)) ∧
      Updates (Set.Iio (toUsize (outputLength mode m n))) (fun i => ix (startIndex (outputLength mode m n) incy) i incy)
        (matrixVectorValue mode m n alpha (layout.bandEntry (toUsize m) (toUsize kl) (toUsize ku) a lda) x incx beta) total := by
  obtain ⟨valid, parsed, _⟩ := turned_passed layout mode
  cases leaf : conjLeaf T layout.code (cblasTransOf mode) with
  | true =>
    obtain ⟨_, rfl, rfl⟩ := (conj_leaf_iff layout mode).mp leaf
    refine ⟨_, fun y => ?_, conj_gbmv_updates m n kl ku alpha a lda x incx beta incy rows columns below above wide stepx stepy⟩
    simp only [gbmv, valid_layout, leaf, Bool.not_true, Bool.false_eq_true, if_false, if_true]
  | false =>
    cases layout with
    | colMajor =>
      have accepted := (band_matrix_vector_accepted _ m n kl ku lda incx incy).mpr
        ⟨valid, rows.le, columns.le, below, above, wide, stepx, stepy⟩
      have narrow : alpha = 0 ∨ n ≤ m + ku + 1 := regular.imp_right (fun either => either.resolve_left (Bool.not_eq_true _ ▸ leaf))
      obtain ⟨total, runs, updates⟩ := ((gbmv_computes_band_product rt site tuning _ m n kl ku alpha a lda x incx beta incy
        accepted).2 rows columns narrow).2.1
      rw [parsed] at updates
      refine ⟨total, fun y => ?_, updates⟩
      simp only [gbmv, valid_layout, leaf, Bool.not_true, Bool.false_eq_true, if_false, pick_col, Fortran.gbmv,
        Fortran.report_accepted accepted, runs]
    | rowMajor =>
      have plain := leaf_plain mode leaf
      have accepted := (band_matrix_vector_accepted _ n m ku kl lda incx incy).mpr
        ⟨valid, columns.le, rows.le, above, below, by omega, stepx, stepy⟩
      have narrow : alpha = 0 ∨ m ≤ n + kl + 1 := regular.imp_right (fun either => either.resolve_left (Bool.not_eq_true _ ▸ leaf))
      obtain ⟨total, runs, updates⟩ := ((gbmv_computes_band_product rt site tuning _ n m ku kl alpha a lda x incx beta incy
        accepted).2 columns rows narrow).2.1
      rw [parsed, turned_length] at updates
      refine ⟨total, fun y => ?_, updates.congr rfl (fun i old inside => ?_)⟩
      · simp only [gbmv, valid_layout, leaf, Bool.not_true, Bool.false_eq_true, if_false, pick_row, Fortran.gbmv,
          Fortran.report_accepted accepted, runs]
      · refine (turned_value mode plain m n alpha (bandMatrix (toUsize n) (toUsize ku) (toUsize kl) a lda) x incx beta i old).trans ?_
        exact matrix_vector_value_congr mode m n alpha _ _ (turned_band _ _ _ _ a lda) x incx beta i old inside

omit [LawfulScalar T] in
theorem gbmv_layout_empty (rt : Runtime) (site : Site) (tuning : GemvProfile) (layout : Layout) (mode : TransposeMode)
    (m n kl ku : Int) (alpha : T) (a : Mem T) (lda : Int) (x : Mem T) (incx : Int) (beta : T) (incy : Int) (empty : m = 0 ∨ n = 0)
    (y : Mem T) : gbmv rt site tuning layout.code (cblasTransOf mode) m n kl ku alpha a lda x incx beta y incy = some y := by
  have leave : ∀ mode' m' n' kl' ku', m' = 0 ∨ n' = 0 →
      Zynum.gbmv rt site tuning mode' m' n' kl' ku' alpha a lda x incx beta y incy = some y := by
    intro mode' m' n' kl' ku' none
    rw [Zynum.gbmv, if_pos (by omega)]
  have loops : rowMajorConjGbmv m n kl ku alpha a lda x incx beta y incy = y := by
    rw [rowMajorConjGbmv, if_pos (by omega)]
  simp only [gbmv, valid_layout, loops, Fortran.gbmv, Bool.not_true, Bool.false_eq_true, if_false]
  split
  · rfl
  · split
    · rfl
    · refine leave _ _ _ _ _ ?_
      cases layout with
      | rowMajor => exact Or.symm (by simpa only [pick_row] using empty)
      | colMajor => simpa only [pick_col] using empty

theorem gbmv_layout_traps (rt : Runtime) (site : Site) (tuning : GemvProfile) (layout : Layout) (mode : TransposeMode)
    (m n kl ku : Int) (alpha : T) (a : Mem T) (lda : Int) (x : Mem T) (incx : Int) (beta : T) (incy : Int) (rows : 0 < m)
    (columns : 0 < n) (below : 0 ≤ kl) (above : 0 ≤ ku) (wide : kl + ku + 1 ≤ lda) (stepx : incx ≠ 0) (stepy : incy ≠ 0)
    (active : alpha ≠ 0) (irregular : ¬ BandRegular T layout mode m n kl ku) (y : Mem T) :
    gbmv rt site tuning layout.code (cblasTransOf mode) m n kl ku alpha a lda x incx beta y incy = none := by
  obtain ⟨valid, parsed, _⟩ := turned_passed layout mode
  obtain ⟨busy, far⟩ := not_or.mp irregular
  have leaf := Bool.eq_false_of_not_eq_true busy
  cases layout with
  | colMajor =>
    have wider : ¬ n ≤ m + ku + 1 := far
    have accepted := (band_matrix_vector_accepted _ m n kl ku lda incx incy).mpr
      ⟨valid, rows.le, columns.le, below, above, wide, stepx, stepy⟩
    simp only [gbmv, valid_layout, leaf, Bool.not_true, Bool.false_eq_true, if_false, pick_col, Fortran.gbmv,
      Fortran.report_accepted accepted]
    exact gbmv_traps rt site tuning _ m n kl ku alpha a lda x incx beta y incy rows columns stepx stepy above active (by omega)
  | rowMajor =>
    have wider : ¬ m ≤ n + kl + 1 := far
    have accepted := (band_matrix_vector_accepted _ n m ku kl lda incx incy).mpr
      ⟨valid, columns.le, rows.le, above, below, by omega, stepx, stepy⟩
    simp only [gbmv, valid_layout, leaf, Bool.not_true, Bool.false_eq_true, if_false, pick_row, Fortran.gbmv,
      Fortran.report_accepted accepted]
    exact gbmv_traps rt site tuning _ n m ku kl alpha a lda x incx beta y incy columns rows stepx stepy below active (by omega)

theorem gbmv_layouts_regular (rt rt' : Runtime) (site site' : Site) (tuning tuning' : GemvProfile) (layout layout' : Layout)
    (mode : TransposeMode) (m n kl ku : Int) (alpha : T) (a a' : Mem T) (lda lda' : Int) (x : Mem T) (incx : Int) (beta : T)
    (incy : Int) (rows : 0 < m) (columns : 0 < n) (below : 0 ≤ kl) (above : 0 ≤ ku) (wide : kl + ku + 1 ≤ lda)
    (wide' : kl + ku + 1 ≤ lda') (stepx : incx ≠ 0) (stepy : incy ≠ 0)
    (regular : alpha = 0 ∨ BandRegular T layout mode m n kl ku) (regular' : alpha = 0 ∨ BandRegular T layout' mode m n kl ku)
    (same : SameMatrix (toUsize m) (toUsize n) (layout'.bandEntry (toUsize m) (toUsize kl) (toUsize ku) a' lda')
      (layout.bandEntry (toUsize m) (toUsize kl) (toUsize ku) a lda)) (y : Mem T) :
    gbmv rt' site' tuning' layout'.code (cblasTransOf mode) m n kl ku alpha a' lda' x incx beta y incy =
      gbmv rt site tuning layout.code (cblasTransOf mode) m n kl ku alpha a lda x incx beta y incy := by
  obtain ⟨total, runs, one⟩ := gbmv_layout_updates rt site tuning layout mode m n kl ku alpha a lda x incx beta incy rows
    columns below above wide stepx stepy regular
  obtain ⟨total', runs', other⟩ := gbmv_layout_updates rt' site' tuning' layout' mode m n kl ku alpha a' lda' x incx beta incy
    rows columns below above wide' stepx stepy regular'
  have moved := other.congr rfl (fun i old inside => matrix_vector_value_congr mode m n alpha _ _ same x incx beta i old inside)
  rw [runs' y, runs y, moved.unique one]

theorem gbmv_layouts (rt rt' : Runtime) (site site' : Site) (tuning tuning' : GemvProfile) (layout layout' : Layout)
    (mode : TransposeMode) (m n kl ku : Int) (alpha : T) (a a' : Mem T) (lda lda' : Int) (x : Mem T) (incx : Int) (beta : T)
    (incy : Int) (rows : 0 ≤ m) (columns : 0 ≤ n) (below : 0 ≤ kl) (above : 0 ≤ ku) (wide : kl + ku + 1 ≤ lda) (stepx : incx ≠ 0)
    (stepy : incy ≠ 0) :
    let run := fun y => gbmv rt site tuning layout.code (cblasTransOf mode) m n kl ku alpha a lda x incx beta y incy
    (m = 0 ∨ n = 0 → ∀ y, run y = some y) ∧
    (0 < m → 0 < n → alpha = 0 ∨ BandRegular T layout mode m n kl ku → ∃ total, (∀ y, run y = some (total y)) ∧
      Updates (Set.Iio (toUsize (outputLength mode m n))) (fun i => ix (startIndex (outputLength mode m n) incy) i incy)
        (matrixVectorValue mode m n alpha (layout.bandEntry (toUsize m) (toUsize kl) (toUsize ku) a lda) x incx beta) total) ∧
    (0 < m → 0 < n → alpha ≠ 0 → ¬ BandRegular T layout mode m n kl ku → ∀ y, run y = none) ∧
    (kl + ku + 1 ≤ lda' → (BandRegular T layout mode m n kl ku ↔ BandRegular T layout' mode m n kl ku) →
      SameMatrix (toUsize m) (toUsize n) (layout'.bandEntry (toUsize m) (toUsize kl) (toUsize ku) a' lda')
        (layout.bandEntry (toUsize m) (toUsize kl) (toUsize ku) a lda) → ∀ y,
      gbmv rt' site' tuning' layout'.code (cblasTransOf mode) m n kl ku alpha a' lda' x incx beta y incy = run y) := by
  intro run
  refine ⟨fun empty y => gbmv_layout_empty rt site tuning layout mode m n kl ku alpha a lda x incx beta incy empty y,
    fun someRow someColumn regular => gbmv_layout_updates rt site tuning layout mode m n kl ku alpha a lda x incx beta incy someRow
      someColumn below above wide stepx stepy regular,
    fun someRow someColumn active irregular y => gbmv_layout_traps rt site tuning layout mode m n kl ku alpha a lda x incx beta incy
      someRow someColumn below above wide stepx stepy active irregular y, fun wide' alike same y => ?_⟩
  by_cases empty : m = 0 ∨ n = 0
  · exact (gbmv_layout_empty rt' site' tuning' layout' mode m n kl ku alpha a' lda' x incx beta incy empty y).trans
      (gbmv_layout_empty rt site tuning layout mode m n kl ku alpha a lda x incx beta incy empty y).symm
  · have someRow : 0 < m := by omega
    have someColumn : 0 < n := by omega
    by_cases regular : alpha = 0 ∨ BandRegular T layout mode m n kl ku
    · exact gbmv_layouts_regular rt rt' site site' tuning tuning' layout layout' mode m n kl ku alpha a a' lda lda' x incx beta incy
        someRow someColumn below above wide wide' stepx stepy regular (regular.imp_right alike.mp) same y
    · obtain ⟨active, irregular⟩ := not_or.mp regular
      exact (gbmv_layout_traps rt' site' tuning' layout' mode m n kl ku alpha a' lda' x incx beta incy someRow someColumn below above
        wide' stepx stepy active (fun other => irregular (alike.mpr other)) y).trans
        (gbmv_layout_traps rt site tuning layout mode m n kl ku alpha a lda x incx beta incy someRow someColumn below above wide stepx
          stepy active irregular y).symm

end Band

section Symmetric

variable [DecidableEq T] [LawfulScalar T]

omit [DecidableEq T] in
-- The export completes the triangle of the transposed matrix, which is the conjugate
-- of a Hermitian one: no operand is conjugated to make up for it.
theorem band_completion_turned (herm : Bool) (layout : Layout) (uplo : Triangle) (k : Nat) (a : Mem T) (lda : Int) (i j : Nat) :
    bandCompletion herm (layout.triangle uplo) k a lda i j =
      conjugateIf (completion herm uplo (layout.triBandEntry uplo k a lda) i j) (herm && layout = .rowMajor) := by
  cases layout with
  | colMajor =>
    rw [decide_eq_false (by exact nofun), Bool.and_false]
    rfl
  | rowMajor =>
    have entries : bandEntry (flipped uplo) k a lda = fun i j => Layout.rowMajor.triBandEntry uplo k a lda j i :=
      funext (fun i => funext (fun j => (row_band_entry uplo k a lda j i).symm))
    rw [bandCompletion, Layout.triangle, entries, completion_flip, completion_mirror, decide_eq_true rfl, Bool.and_true]
    rfl

theorem band_symmetric_vector_accepted (uplo : Char) (n k lda incx incy : Int) (triangles : Zynum.validUplo uplo = true)
    (size : 0 ≤ n) (width : 0 ≤ k) (wide : k + 1 ≤ lda) (stepx : incx ≠ 0) (stepy : incy ≠ 0) :
    bandSymmetricVectorError uplo n k lda incx incy = 0 := by
  simp only [bandSymmetricVectorError, triangles, Bool.not_true, Bool.false_eq_true, if_false]
  split_ifs <;> omega

theorem sbmv_layout_updates (tuning : SymmetricProfile) (aarch64 : Bool) (rt : Runtime) (site : Site) (herm : Bool) (layout : Layout)
    (uplo : Triangle) (n k : Int) (alpha : T) (a : Mem T) (lda : Int) (x : Mem T) (incx : Int) (beta : T) (incy : Int)
    (size : 0 ≤ n) (width : 0 ≤ k) (wide : k + 1 ≤ lda) (stepx : incx ≠ 0) (stepy : incy ≠ 0) (read : Nat → Option T)
    (allowed : ∀ place ∈ bandSlots (layout.triangle uplo) (toUsize n) (toUsize k) lda, read place = some (a place)) :
    ∃ total, (∀ y, sbmv tuning aarch64 rt site herm layout.code (cblasUplo uplo) n k alpha read lda x incx beta y incy =
        some (total y)) ∧
      Updates (Set.Iio (toUsize n)) (fun i => ix (startIndex n incy) i incy) (matrixVectorValue .noTrans n n alpha (fun i j =>
        conjugateIf (completion herm uplo (layout.triBandEntry uplo (toUsize k) a lda) i j) (herm && layout = .rowMajor)) x incx beta)
        total := by
  obtain ⟨triangles, parsed⟩ := uplo_passed layout uplo
  have accepted := band_symmetric_vector_accepted _ n k lda incx incy triangles size width wide stepx stepy
  obtain ⟨total, runs, updates⟩ := sbmv_impl_updates tuning aarch64 rt site (layout.triangle uplo) n k alpha a read lda x incx beta
    incy herm none stepx stepy allowed
  refine ⟨total, fun y => ?_, updates.congr rfl (fun i old _ => ?_)⟩
  · simp only [sbmv, valid_layout, Bool.not_true, Bool.false_eq_true, if_false, Fortran.sbmv, Fortran.report_accepted
      accepted, parsed]
    exact runs y
  · simp only [bandSymmetricProduct, band_completion_turned]
    rfl

theorem sbmv_layouts (tuning tuning' : SymmetricProfile) (aarch64 aarch64' : Bool) (rt rt' : Runtime) (site site' : Site)
    (herm : Bool)
    (layout layout' : Layout) (uplo : Triangle) (n k : Int) (alpha : T) (a a' : Mem T) (lda lda' : Int) (x : Mem T) (incx : Int)
    (beta : T) (incy : Int) (size : 0 ≤ n) (width : 0 ≤ k) (wide : k + 1 ≤ lda) (stepx : incx ≠ 0) (stepy : incy ≠ 0) :
    let matrix := layout.triBandEntry uplo (toUsize k) a lda
    ∃ total, Updates (Set.Iio (toUsize n)) (fun i => ix (startIndex n incy) i incy) (matrixVectorValue .noTrans n n alpha
        (fun i j => conjugateIf (completion herm uplo matrix i j) (herm && layout = .rowMajor)) x incx beta) total ∧
      (∀ read, (∀ place ∈ bandSlots (layout.triangle uplo) (toUsize n) (toUsize k) lda, read place = some (a place)) → ∀ y,
        sbmv tuning aarch64 rt site herm layout.code (cblasUplo uplo) n k alpha read lda x incx beta y incy = some (total y)) ∧
      (k + 1 ≤ lda' → SameStored herm uplo (toUsize n) matrix
          (fun i j => conjugateIf (layout'.triBandEntry uplo (toUsize k) a' lda' i j) (herm && layout ≠ layout')) → ∀ read,
        (∀ place ∈ bandSlots (layout'.triangle uplo) (toUsize n) (toUsize k) lda', read place = some (a' place)) → ∀ y,
        sbmv tuning' aarch64' rt' site' herm layout'.code (cblasUplo uplo) n k alpha read lda' x incx beta y incy = some
        (total y)) := by
  intro matrix
  obtain ⟨total, _, updates⟩ := sbmv_layout_updates tuning aarch64 rt site herm layout uplo n k alpha a lda x incx beta
    incy size width
    wide stepx stepy (fun place => some (a place)) (fun _ _ => rfl)
  refine ⟨total, updates, fun read allowed y => ?_, fun wide' same read allowed y => ?_⟩
  · obtain ⟨total', runs', updates'⟩ := sbmv_layout_updates tuning aarch64 rt site herm layout uplo n k alpha a lda x incx beta incy
      size width wide stepx stepy read allowed
    rw [runs' y, updates.unique updates']
  · obtain ⟨total', runs', updates'⟩ := sbmv_layout_updates tuning' aarch64' rt' site' herm layout' uplo n k alpha a' lda' x incx beta
      incy size width wide' stepx stepy read allowed
    have moved := updates'.congr rfl (fun i old inside => matrix_vector_value_congr .noTrans n n alpha _ (fun i j =>
      conjugateIf (completion herm uplo matrix i j) (herm && layout = .rowMajor)) (fun i j inRows inColumns => ?_) x incx
      beta i old inside)
    · rw [runs' y, moved.unique updates]
    · simp only [same_stored_completion herm uplo (toUsize n) _ _ same i j inRows inColumns, completion_conj]
      cases herm with
      | false => rfl
      | true =>
        cases layout with
        | rowMajor =>
          cases layout' with
          | rowMajor => rfl
          | colMajor => exact (LawfulScalar.conj_conj _).symm
        | colMajor => cases layout' <;> rfl

end Symmetric

section Runs

-- A conjugated row-major product in the loops of the wrapper, and a plain one in the AVX2 leaf.
theorem gemv_layouts_small :
    let _ := complexKind Int .double
    let _ := complex_kind_lawful Int .double
    let portable := ExactGemvLeaves.portable (Cplx Int)
    let avx2 : ExactGemvLeaves (Cplx Int) := FixedMatrix.complexLeaves .double
      (FixedMatrix.matrixComplexConfig .double true false true) (FixedMatrix.lanes_even .double true false)
    let a : Mem (Cplx Int) := fun p => ⟨p, 1⟩
    let x : Mem (Cplx Int) := fun p => ⟨p, 0⟩
    Updates (Set.Iio (toUsize (outputLength .conjTrans 2 3))) (fun i => ix (startIndex (outputLength .conjTrans 2 3) (-1)) i (-1))
      (matrixVectorValue .conjTrans 2 3 (⟨0, 1⟩ : Cplx Int) (Layout.rowMajor.entry a 4) x 2 1)
      (fun y => gemv portable.toGemvLeaves Runtime.sequential [] cblasRowMajor cblasConjTrans 2 3 ⟨0, 1⟩ a 4 x 2 1 y (-1)) ∧
    Updates (Set.Iio (toUsize (outputLength .noTrans 5 3))) (fun i => ix (startIndex (outputLength .noTrans 5 3) 1) i 1)
      (matrixVectorValue .noTrans 5 3 (⟨0, 1⟩ : Cplx Int) (Layout.colMajor.entry a 6) x 1 2)
      (fun y => gemv avx2.toGemvLeaves Runtime.sequential [] cblasColMajor cblasNoTrans 5 3 ⟨0, 1⟩ a 6 x 1 2 y 1) := by
  intro kind lawful portable avx2 a x
  have conjugated := gemv_layouts portable portable Runtime.sequential Runtime.sequential [] [] .rowMajor .colMajor .conjTrans
    2 3 ⟨0, 1⟩ a a 4 2 x 2 1 (-1) (by decide) (by decide) (by decide) (by decide) (by decide)
  have plain := gemv_layouts avx2 portable Runtime.sequential Runtime.sequential [] [] .colMajor .colMajor .noTrans 5 3 ⟨0, 1⟩
    a a 6 6 x 1 2 1 (by decide) (by decide) (by decide) (by decide) (by decide)
  exact ⟨conjugated.2.1 (by decide) (by decide), plain.2.1 (by decide) (by decide)⟩

-- Four columns over two rows, no superdiagonal: the last column starts below the matrix, and the call stops.
theorem gbmv_layouts_small :
    let _ := realKind Int .double
    let _ := real_kind_lawful Int .double
    gbmv Runtime.sequential [] GemvProfile.production cblasColMajor cblasNoTrans 2 4 1 0 (1 : Int) (fun p => p) 2 (fun _ => 1) 1 0
      (fun p => p) 1 = none := by
  intro kind lawful
  have whole := gbmv_layouts (T := Int) Runtime.sequential Runtime.sequential [] [] GemvProfile.production GemvProfile.production
    .colMajor .rowMajor .noTrans 2 4 1 0 1 (fun p => (p : Int)) (fun p => (p : Int)) 2 2 (fun _ => 1) 1 0 1 (by decide) (by decide)
    (by decide) (by decide) (by decide) (by decide) (by decide)
  refine whole.2.2.1 (by decide) (by decide) (by decide) ?_ _
  rintro (loops | narrow)
  · exact absurd loops (by decide)
  · exact absurd narrow (by decide)

-- A Hermitian band in row-major order: y gets the product with the conjugate of the matrix.
theorem sbmv_layouts_small :
    let _ := complexKind Int .double
    let _ := complex_kind_lawful Int .double
    let a : Mem (Cplx Int) := fun p => ⟨p, 1⟩
    ∃ total, Updates (Set.Iio 3) (fun i => ix (startIndex 3 (-1)) i (-1)) (matrixVectorValue .noTrans 3 3 (1 : Cplx Int)
        (fun i j => conjugateIf (completion true .upper (Layout.rowMajor.triBandEntry .upper 1 a 2) i j) true)
        (fun p => ⟨p, 2⟩) 1 0) total ∧
      sbmv ⟨true, 512, 8⟩ true Runtime.sequential [] true cblasRowMajor cblasUpper 3 1 1 (fun p => some (a p)) 2 (fun p => ⟨p, 2⟩) 1 0
        (fun p => ⟨p, 0⟩) (-1) = some (total (fun p => ⟨p, 0⟩)) := by
  intro kind lawful a
  obtain ⟨total, updates, runs, _⟩ := sbmv_layouts ⟨true, 512, 8⟩ ⟨true, 512, 8⟩ true true Runtime.sequential Runtime.sequential [] []
    true .rowMajor .colMajor .upper 3 1 (1 : Cplx Int) a a 2 2 (fun p => ⟨p, 2⟩) 1 0 (-1) (by decide) (by decide) (by decide)
    (by decide) (by decide)
  exact ⟨total, updates, runs _ (fun _ _ => rfl) _⟩

end Runs

end Cblas

end Zynum
