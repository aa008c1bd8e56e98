import Zynum.MatrixVector.BandExact
import Zynum.Foundation.LinearLoop

set_option autoImplicit false

/- The two routes of gbmv and what they leave in y. -/
namespace Zynum

open ArrayProgram

variable {T : Type} [CommRing T] [Scalar T]

def bandProduct (mode : TransposeMode) (m n : Int) (kl ku : Nat) (alpha : T) (a : Mem T) (lda : Int) (x : Mem T)
    (incx : Int) (beta : T) (i : Nat) (old : T) : T :=
  let lenx := if mode = .noTrans then n else m
  alpha * ∑ j ∈ Finset.range (toUsize lenx),
    opEntry mode (bandMatrix (toUsize m) kl ku a lda) i j * vectorGet x (startIndex lenx incx) j incx + beta * old

def outputLength (mode : TransposeMode) (m n : Int) : Int := if mode = .noTrans then m else n

variable [LawfulScalar T]

theorem gbmv_unit_updates (rt : Runtime) (site : Site) (mode : TransposeMode) (m n kl ku : Nat) (alpha : T) (a : Mem T)
    (lda : Int) (x : Mem T) (beta : T) (regular : alpha = 0 ∨ n ≤ m + ku + 1) :
    ∃ total, (∀ y, gbmvUnit rt site mode m n kl ku alpha a lda x beta y = some (total y)) ∧
      Updates (Set.Iio (toUsize (outputLength mode m n))) (fun i => i)
        (bandProduct mode m n kl ku alpha a lda x 1 beta) total := by
  let leny := if mode = .noTrans then m else n
  let scale := fun y : Mem T => if isReal T then scaleUnitReal leny beta y else scal rt (0 :: site) leny beta y 0 1
  have length : toUsize (outputLength mode m n) = leny := by
    simp only [outputLength, leny, toUsize]
    split <;> exact Int.toNat_natCast _
  have scaled : Updates (Set.Iio leny) (fun i => i) (fun _ old => beta * old) scale := by
    cases kind : isReal T with
    | true => exact (scale_unit_real_updates leny beta).congr_run (fun y => by simp only [scale, kind, if_true])
    | false =>
      have general := scal_unit_updates rt (0 :: site) leny beta 0
      simp only [Nat.zero_add, toUsize, Int.toNat_natCast] at general
      exact general.congr_run (fun y => by simp only [scale, kind, Bool.false_eq_true, if_false])
  rw [length]
  cases nothing : isZero alpha with
  | true =>
    have zero : alpha = 0 := (LawfulScalar.isZero_iff alpha).mp nothing
    refine ⟨scale, fun y => ?_, scaled.congr rfl (fun i old _ => ?_)⟩
    · simp only [gbmvUnit, nothing, if_true]
      rfl
    · simp only [bandProduct, zero, zero_mul, zero_add]
  | false =>
    have narrow : n ≤ m + ku + 1 := regular.resolve_left ((isZero_false_iff alpha).mp nothing)
    by_cases plain : mode = .noTrans
    · have rows : leny = m := if_pos plain
      rw [rows] at scaled ⊢
      obtain ⟨total, runs, updates⟩ := column_loop_updates m n (fun i => i) alpha beta
        (bandMatrix m kl ku a lda) x scale _ scaled (fun j small =>
          gbmv_unit_column_updates rt (1 :: j :: site) m kl ku alpha a lda x j (by omega))
      refine ⟨total, fun y => ?_, updates.congr rfl (fun i old _ => ?_)⟩
      · rw [← runs y]
        simp only [gbmvUnit, nothing, plain, Bool.false_eq_true, if_false, if_true, scale, leny]
      · simp only [bandProduct, plain, if_true, opEntry, vector_get_unit, toUsize, Int.toNat_natCast]
    · have columns : leny = n := if_neg plain
      rw [columns] at scaled ⊢
      obtain ⟨total, runs, updates⟩ := dot_loop_updates n (fun i => i) (Function.injective_id.injOn) alpha beta
        (fun j => ∑ i ∈ Finset.range m, conjugateIf (bandMatrix m kl ku a lda i j) (mode = .conjTrans) * x i) scale _ scaled
        (fun j small => gbmv_unit_dot_updates rt (1 :: j :: site) m kl ku (mode = .conjTrans) alpha a lda x j (by omega))
      refine ⟨total, fun y => ?_, updates.congr rfl (fun i old _ => ?_)⟩
      · rw [← runs y]
        simp only [gbmvUnit, nothing, plain, Bool.false_eq_true, if_false, scale, leny]
      · simp only [bandProduct, plain, if_false, op_entry_transposed plain, vector_get_unit, toUsize, Int.toNat_natCast]

theorem gbmv_strided_updates (mode : TransposeMode) (m n : Int) (kl ku : Nat) (alpha : T) (a : Mem T) (lda : Int)
    (x : Mem T) (incx : Int) (beta : T) (incy : Int) (nonzero : incy ≠ 0)
    (regular : alpha = 0 ∨ toUsize n ≤ toUsize m + ku + 1) :
    ∃ total, (∀ y, gbmvStrided mode m n kl ku alpha a lda x incx beta y incy = some (total y)) ∧
      Updates (Set.Iio (toUsize (outputLength mode m n))) (fun i => ix (startIndex (outputLength mode m n) incy) i incy)
        (bandProduct mode m n kl ku alpha a lda x incx beta) total := by
  have scaled := scale_output_updates (outputLength mode m n) beta incy nonzero
  cases nothing : isZero alpha with
  | true =>
    have zero : alpha = 0 := (LawfulScalar.isZero_iff alpha).mp nothing
    refine ⟨_, fun y => ?_, scaled.congr rfl (fun i old _ => ?_)⟩
    · simp only [gbmvStrided, nothing, if_true, outputLength]
    · simp only [bandProduct, zero, zero_mul, zero_add]
  | false =>
    have narrow := regular.resolve_left ((isZero_false_iff alpha).mp nothing)
    by_cases plain : mode = .noTrans
    · have rows : outputLength mode m n = m := if_pos plain
      rw [rows] at scaled ⊢
      obtain ⟨total, runs, updates⟩ := column_loop_updates (toUsize m) (toUsize n) _ alpha beta
        (bandMatrix (toUsize m) kl ku a lda) (fun j => vectorGet x (startIndex n incx) j incx) _ _ scaled
        (fun j small => gbmv_strided_column_updates m (toUsize m) kl ku alpha a lda x (startIndex n incx) incx incy
          nonzero rfl j (by omega))
      refine ⟨total, fun y => ?_, updates.congr rfl (fun i old _ => ?_)⟩
      · rw [← runs y]
        simp only [gbmvStrided, nothing, plain, Bool.false_eq_true, if_false, if_true]
      · simp only [bandProduct, plain, if_true, opEntry]
    · have columns : outputLength mode m n = n := if_neg plain
      rw [columns] at scaled ⊢
      obtain ⟨total, runs, updates⟩ := dot_loop_updates (toUsize n) _ (ix_injective n incy nonzero) alpha beta
        (fun j => ∑ i ∈ Finset.range (toUsize m), conjugateIf (bandMatrix (toUsize m) kl ku a lda i j) (mode = .conjTrans) *
          vectorGet x (startIndex m incx) i incx) _ _ scaled
        (fun j small => gbmv_strided_dot_updates n (toUsize m) kl ku (mode = .conjTrans) alpha a lda x (startIndex m incx)
          incx incy j (by omega))
      refine ⟨total, fun y => ?_, updates.congr rfl (fun i old _ => ?_)⟩
      · rw [← runs y]
        simp only [gbmvStrided, nothing, plain, Bool.false_eq_true, if_false]
      · simp only [bandProduct, plain, if_false, op_entry_transposed plain]

-- A column that starts below the last row makes the row range illegal on both routes.
theorem gbmv_traps (rt : Runtime) (site : Site) (tuning : GemvProfile) (mode : TransposeMode) (m n kl ku : Int) (alpha : T)
    (a : Mem T) (lda : Int) (x : Mem T) (incx : Int) (beta : T) (y : Mem T) (incy : Int) (rows : 0 < m) (columns : 0 < n)
    (stepx : incx ≠ 0) (stepy : incy ≠ 0) (above : 0 ≤ ku) (active : alpha ≠ 0) (wide : m + ku + 1 < n) :
    gbmv rt site tuning mode m n kl ku alpha a lda x incx beta y incy = none := by
  have enter : ¬ (m ≤ 0 ∨ n ≤ 0 ∨ incx = 0 ∨ incy = 0) := by omega
  have nothing : isZero alpha = false := (isZero_false_iff alpha).mpr active
  have reached : toUsize m + toUsize ku + 1 < toUsize n := by simp only [toUsize]; omega
  have broken : ¬ bandRowFirst (toUsize ku) (toUsize m + toUsize ku + 1) ≤
      bandRowLast (toUsize m) (toUsize kl) (toUsize m + toUsize ku + 1) := by
    rw [band_rows_ordered]
    omega
  simp only [gbmv, enter, if_false]
  split
  · simp only [gbmvUnit, nothing, Bool.false_eq_true, if_false]
    split
    · refine trapping_loop_trap _ _ _ _ reached (fun current => ?_)
      simp only [gbmvUnitColumn, checkedLength, broken, if_false, Option.bind_none]
    · refine trapping_loop_trap _ _ _ _ reached (fun current => ?_)
      simp only [gbmvUnitDot, checkedLength, broken, if_false, Option.bind_none]
  · simp only [gbmvStrided, nothing, Bool.false_eq_true, if_false]
    split
    · refine trapping_loop_trap _ _ _ _ reached (fun current => ?_)
      simp only [gbmvStridedColumn, trappingRange, broken, if_false]
    · refine trapping_loop_trap _ _ _ _ reached (fun current => ?_)
      simp only [gbmvStridedDot, trappingRange, broken, if_false, Option.map_none]

omit [LawfulScalar T] in
theorem band_product_reads_band (mode : TransposeMode) (m n : Int) (kl ku : Nat) (alpha : T) (a a' : Mem T) (lda : Int)
    (x : Mem T) (incx : Int) (beta : T)
    (agree : ∀ i j, i < toUsize m → j < toUsize n → j ≤ i + ku → i ≤ j + kl →
      a' (ku + i - j + j * toUsize lda) = a (ku + i - j + j * toUsize lda)) (i : Nat) (old : T)
    (inside : i < toUsize (outputLength mode m n)) :
    bandProduct mode m n kl ku alpha a' lda x incx beta i old = bandProduct mode m n kl ku alpha a lda x incx beta i old := by
  have entries : ∀ i j, i < toUsize m → j < toUsize n →
      bandMatrix (toUsize m) kl ku a' lda i j = bandMatrix (toUsize m) kl ku a lda i j := by
    intro i j row column
    simp only [bandMatrix]
    split
    · exact agree i j row column (by omega) (by omega)
    · rfl
  simp only [bandProduct]
  congr 2
  refine Finset.sum_congr rfl (fun j member => ?_)
  have small := Finset.mem_range.mp member
  congr 1
  cases mode with
  | noTrans => exact entries i j inside small
  | trans => exact entries j i small inside
  | conjTrans => exact congrArg conj (entries j i small inside)

theorem gbmv_computes_band_product (rt : Runtime) (site : Site) (tuning : GemvProfile) (trans : Char) (m n kl ku : Int)
    (alpha : T) (a : Mem T) (lda : Int) (x : Mem T) (incx : Int) (beta : T) (incy : Int)
    (accepted : bandMatrixVectorError trans m n kl ku lda incx incy = 0) :
    (m = 0 ∨ n = 0 → ∀ y, gbmv rt site tuning (parseTrans trans) m n kl ku alpha a lda x incx beta y incy = some y) ∧
    (0 < m → 0 < n → alpha = 0 ∨ n ≤ m + ku + 1 →
      (n ≤ m + ku + 1 → ∀ j, j < toUsize n →
        bandRowFirst (toUsize ku) j ≤ bandRowLast (toUsize m) (toUsize kl) j) ∧
      (∃ total, (∀ y, gbmv rt site tuning (parseTrans trans) m n kl ku alpha a lda x incx beta y incy = some (total y)) ∧
        Updates (Set.Iio (toUsize (outputLength (parseTrans trans) m n)))
          (fun i => ix (startIndex (outputLength (parseTrans trans) m n) incy) i incy)
          (bandProduct (parseTrans trans) m n (toUsize kl) (toUsize ku) alpha a lda x incx beta) total) ∧
      (∀ a' : Mem T, (∀ i j, i < toUsize m → j < toUsize n → j ≤ i + toUsize ku → i ≤ j + toUsize kl →
          a' (toUsize ku + i - j + j * toUsize lda) = a (toUsize ku + i - j + j * toUsize lda)) →
        ∀ y, gbmv rt site tuning (parseTrans trans) m n kl ku alpha a' lda x incx beta y incy =
          gbmv rt site tuning (parseTrans trans) m n kl ku alpha a lda x incx beta y incy) ∧
      (incx = 1 → incy = 1 → ∀ y,
        gbmvUnit rt site (parseTrans trans) (toUsize m) (toUsize n) (toUsize kl) (toUsize ku) alpha a lda x beta y =
          gbmvStrided (parseTrans trans) m n (toUsize kl) (toUsize ku) alpha a lda x 1 beta y 1)) := by
  obtain ⟨_, rows, columns, below, above, _, stepx, stepy⟩ := (band_matrix_vector_accepted _ _ _ _ _ _ _ _).mp accepted
  generalize parseTrans trans = mode
  refine ⟨fun empty y => ?_, fun someRow someColumn regular => ?_⟩
  · have leave : m ≤ 0 ∨ n ≤ 0 ∨ incx = 0 ∨ incy = 0 := by omega
    simp only [gbmv, leave, if_true]
  · have regular' : alpha = 0 ∨ toUsize n ≤ toUsize m + toUsize ku + 1 :=
      regular.imp_right (fun narrow => by simp only [toUsize]; omega)
    have sizes : ((toUsize m : Nat) : Int) = m ∧ ((toUsize n : Nat) : Int) = n :=
      ⟨Int.toNat_of_nonneg rows, Int.toNat_of_nonneg columns⟩
    have enter : ¬ (m ≤ 0 ∨ n ≤ 0 ∨ incx = 0 ∨ incy = 0) := by omega
    have unit : ∀ a : Mem T, ∃ total, (∀ y, gbmvUnit rt site mode (toUsize m) (toUsize n) (toUsize kl) (toUsize ku) alpha a
          lda x beta y = some (total y)) ∧
        Updates (Set.Iio (toUsize (outputLength mode m n))) (fun i => ix (startIndex (outputLength mode m n) 1) i 1)
          (bandProduct mode m n (toUsize kl) (toUsize ku) alpha a lda x 1 beta) total := by
      intro a
      have route := gbmv_unit_updates rt site mode (toUsize m) (toUsize n) (toUsize kl) (toUsize ku) alpha a lda x beta
        regular'
      simpa only [sizes.1, sizes.2, ix_unit] using route
    have strided := fun a : Mem T => gbmv_strided_updates mode m n (toUsize kl) (toUsize ku) alpha a lda x incx beta incy
      stepy regular'
    have either : ∀ a : Mem T, ∃ total, (∀ y, gbmv rt site tuning mode m n kl ku alpha a lda x incx beta y incy =
          some (total y)) ∧
        Updates (Set.Iio (toUsize (outputLength mode m n))) (fun i => ix (startIndex (outputLength mode m n) incy) i incy)
          (bandProduct mode m n (toUsize kl) (toUsize ku) alpha a lda x incx beta) total := by
      intro a
      by_cases fast : incx = 1 ∧ incy = 1 ∧ tuning.preferGbmvUnit T (mode = .conjTrans) (toUsize m) (toUsize n)
          (toUsize kl + toUsize ku + 1) = true
      · obtain ⟨total, runs, updates⟩ := unit a
        refine ⟨total, fun y => ?_, ?_⟩
        · rw [gbmv, if_neg enter, if_pos fast]
          exact runs y
        · simpa only [fast.1, fast.2.1] using updates
      · obtain ⟨total, runs, updates⟩ := strided a
        refine ⟨total, fun y => ?_, updates⟩
        rw [gbmv, if_neg enter, if_neg fast]
        exact runs y
    refine ⟨fun narrow j small => ?_, either a, fun a' agree y => ?_, fun unitx unity y => ?_⟩
    · rw [band_rows_ordered]
      simp only [toUsize] at small ⊢
      omega
    · obtain ⟨total, runs, updates⟩ := either a
      obtain ⟨total', runs', updates'⟩ := either a'
      have same := updates'.congr rfl (fun i old inside => band_product_reads_band mode m n (toUsize kl) (toUsize ku) alpha
        a a' lda x incx beta agree i old inside)
      rw [runs y, runs' y, updates.unique same]
    · obtain ⟨total, runs, updates⟩ := unit a
      obtain ⟨total', runs', updates'⟩ := gbmv_strided_updates mode m n (toUsize kl) (toUsize ku) alpha a lda x 1 beta 1
        Int.one_ne_zero regular'
      rw [runs y, runs' y, updates.unique updates']

-- A transposed call with no rows returns before beta is applied to its one output.
theorem gbmv_empty_rows_unscaled :
    let _ := realKind Int .double
    bandMatrixVectorError 'T' 0 1 0 0 1 1 1 = 0 ∧
      gbmv Runtime.sequential [] GemvProfile.production (parseTrans 'T') 0 1 0 0 1 (fun _ => 0) 1 (fun _ => 0) 1 2
        (fun _ => (1 : Int)) 1 = some (fun _ => 1) ∧
      (1 : Int) ≠ bandProduct (parseTrans 'T') 0 1 0 0 1 (fun _ => 0) 1 (fun _ => 0) 1 2 0 1 := by
  refine ⟨by decide, rfl, by decide⟩

theorem gbmv_computes_band_product_diagonal :
    let _ := realKind Int .double
    ∃ total, (∀ y, gbmv Runtime.sequential [] GemvProfile.production (parseTrans 'N') 2 2 0 0 3 (fun i => (i : Int)) 1
        (fun _ => 1) 1 2 y 1 = some (total y)) ∧
      Updates (Set.Iio 2) (fun i => ix (startIndex 2 1) i 1)
        (bandProduct .noTrans 2 2 0 0 3 (fun i => (i : Int)) 1 (fun _ => 1) 1 2) total := by
  let _ := realKind Int .double
  have lawful : LawfulScalar Int := real_kind_lawful Int .double
  exact ((gbmv_computes_band_product Runtime.sequential [] GemvProfile.production 'N' 2 2 0 0 (3 : Int)
    (fun i => (i : Int)) 1 (fun _ => 1) 1 2 1 (by decide)).2 (by decide) (by decide) (Or.inr (by decide))).2.1

end Zynum
