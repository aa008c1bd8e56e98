import Zynum.MatrixVector.Band

set_option autoImplicit false

/- gbmv against the dense matrix its band stands for. -/
namespace Zynum

open ArrayProgram

section Band

variable {T : Type} [CommRing T]

def bandMatrix (m kl ku : Nat) (a : Mem T) (lda : Int) (i j : Nat) : T :=
  if j - ku ≤ i ∧ i < min m (j + kl + 1) then a (ku + i - j + j * toUsize lda) else 0

def opEntry [Scalar T] (mode : TransposeMode) (entry : Nat → Nat → T) (i j : Nat) : T :=
  match mode with
  | .noTrans => entry i j
  | .trans => entry j i
  | .conjTrans => conj (entry j i)

omit [CommRing T] in
theorem op_entry_transposed [Scalar T] {mode : TransposeMode} (transposed : mode ≠ .noTrans) (entry : Nat → Nat → T) (i j : Nat) :
    opEntry mode entry i j = conjugateIf (entry j i) (mode = .conjTrans) := by
  cases mode with
  | noTrans => exact absurd rfl transposed
  | trans => rfl
  | conjTrans => rfl

theorem band_rows_ordered (m kl ku j : Nat) : bandRowFirst ku j ≤ bandRowLast m kl j ↔ j ≤ m + ku := by
  simp only [bandRowFirst, bandRowLast]
  split <;> omega

theorem band_row_first_eq (ku j : Nat) : bandRowFirst ku j = j - ku := by
  simp only [bandRowFirst]
  split <;> omega

theorem band_index_inside (m kl ku : Nat) (lda : Int) (i j : Nat) (lower : bandRowFirst ku j ≤ i)
    (upper : i < bandRowLast m kl j) :
    bandGeneralIndex kl ku lda i j = some (ku + i - j + j * toUsize lda) := by
  rw [band_row_first_eq] at lower
  simp only [bandRowLast] at upper
  have above : ¬ i + ku < j := by omega
  have below : ¬ j + kl < i := by omega
  simp only [bandGeneralIndex, above, below, if_false]

theorem band_matrix_inside (m kl ku : Nat) (a : Mem T) (lda : Int) (i j : Nat) (lower : bandRowFirst ku j ≤ i)
    (upper : i < bandRowLast m kl j) : bandMatrix m kl ku a lda i j = a (ku + i - j + j * toUsize lda) := by
  rw [band_row_first_eq] at lower
  exact if_pos ⟨lower, upper⟩

theorem band_matrix_outside (m kl ku : Nat) (a : Mem T) (lda : Int) (i j : Nat)
    (outside : i ∉ Set.Ico (bandRowFirst ku j) (bandRowLast m kl j)) : bandMatrix m kl ku a lda i j = 0 := by
  refine if_neg (fun inside => outside ?_)
  rw [band_row_first_eq]
  exact inside

theorem band_rows_subset (m kl ku j : Nat) : Set.Ico (bandRowFirst ku j) (bandRowLast m kl j) ⊆ Set.Iio m :=
  fun _ inside => lt_of_lt_of_le inside.2 (Nat.min_le_left m (j + kl + 1))

theorem band_window_sum (m kl ku : Nat) (a : Mem T) (lda : Int) (j : Nat) (map : T → T) (keeps : map 0 = 0) (x : Nat → T) :
    ∑ i ∈ Finset.Ico (bandRowFirst ku j) (bandRowLast m kl j), map (a (ku + i - j + j * toUsize lda)) * x i =
      ∑ i ∈ Finset.range m, map (bandMatrix m kl ku a lda i j) * x i := by
  have inside : Finset.Ico (bandRowFirst ku j) (bandRowLast m kl j) ⊆ Finset.range m := by
    intro i member
    exact Finset.mem_range.mpr (band_rows_subset m kl ku j (Finset.mem_Ico.mp member))
  rw [← Finset.sum_subset inside]
  · refine Finset.sum_congr rfl (fun i member => ?_)
    have bounds := Finset.mem_Ico.mp member
    rw [band_matrix_inside m kl ku a lda i j bounds.1 bounds.2]
  · intro i _ outside
    rw [band_matrix_outside m kl ku a lda i j (fun member => outside (Finset.mem_Ico.mpr member)), keeps, zero_mul]

theorem band_column_widen (m kl ku : Nat) (a : Mem T) (lda : Int) (j : Nat) (xj : T) (address : Nat → Nat)
    (injective : Set.InjOn address (Set.Iio m)) (run : Mem T → Mem T)
    (window : Updates (Set.Ico (bandRowFirst ku j) (bandRowLast m kl j)) address
      (fun i old => old + a (ku + i - j + j * toUsize lda) * xj) run) :
    Updates (Set.Iio m) address (fun i old => old + bandMatrix m kl ku a lda i j * xj) run := by
  refine (window.congr rfl ?_).extend (band_rows_subset m kl ku j) injective ?_
  · intro i old inside
    rw [band_matrix_inside m kl ku a lda i j inside.1 inside.2]
  · intro i old _ outside
    rw [band_matrix_outside m kl ku a lda i j outside, zero_mul, add_zero]

theorem gbmv_strided_column_updates (n : Int) (m kl ku : Nat) (alpha : T) (a : Mem T) (lda : Int) (x : Mem T)
    (sx incx incy : Int) (nonzero : incy ≠ 0) (rows : toUsize n = m) (j : Nat) (ordered : j ≤ m + ku) :
    ∃ total, (∀ y, gbmvStridedColumn m kl ku alpha a lda x sx incx (startIndex n incy) incy j y = some (total y)) ∧
      Updates (Set.Iio m) (fun i => ix (startIndex n incy) i incy)
        (fun i old => old + bandMatrix m kl ku a lda i j * (alpha * vectorGet x sx j incx)) total := by
  have window := (band_rows_ordered m kl ku j).mpr ordered
  have injective := rows ▸ ix_injective n incy nonzero
  have stored := updates_range (bandRowFirst ku j) (bandRowLast m kl j) (fun i => ix (startIndex n incy) i incy)
    (fun i (old : T) => old + a (ku + i - j + j * toUsize lda) * (alpha * vectorGet x sx j incx))
    (injective.mono (band_rows_subset m kl ku j))
  refine ⟨_, fun y => ?_, band_column_widen m kl ku a lda j _ _ injective _ stored⟩
  simp only [gbmvStridedColumn]
  refine trapping_range_total _ _ _ _ y window (fun i current lower upper => ?_)
  rw [band_index_inside m kl ku lda i j lower upper, Option.map_some]

end Band

section Columns

variable {T : Type} [CommRing T] [Scalar T] [LawfulScalar T]

theorem scale_unit_real_updates (n : Nat) (beta : T) :
    Updates (Set.Iio n) (fun i => i) (fun _ old => beta * old) (fun y => scaleUnitReal n beta y) := by
  have injective : Set.InjOn (fun i : Nat => i) (Set.Iio n) := Function.injective_id.injOn
  cases one : isOne beta with
  | true =>
    have unit : beta = 1 := (LawfulScalar.isOne_iff beta).mp one
    refine ((updates_same _ _).congr rfl (fun _ old _ => by rw [unit, one_mul])).congr_run ?_
    intro y
    simp only [scaleUnitReal, one, if_true]
  | false =>
    cases nothing : isZero beta with
    | true =>
      have zero : beta = 0 := (LawfulScalar.isZero_iff beta).mp nothing
      have cleared := updates_elementwise n (fun i => i) (fun _ _ => (0 : T)) injective
      refine (cleared.congr rfl (fun _ old _ => by rw [zero, zero_mul])).congr_run ?_
      intro y
      simp only [scaleUnitReal, one, nothing, if_true, if_false, Bool.false_eq_true]
    | false =>
      have scaled := scal_unit_real_updates n beta 0
      simp only [Nat.zero_add] at scaled
      refine scaled.congr_run ?_
      intro y
      simp only [scaleUnitReal, one, nothing, if_false, Bool.false_eq_true]

theorem scale_output_updates (n : Int) (beta : T) (incy : Int) (nonzero : incy ≠ 0) :
    Updates (Set.Iio (toUsize n)) (fun i => ix (startIndex n incy) i incy) (fun _ old => beta * old)
      (fun y => scaleOutput (toUsize n) beta (startIndex n incy) y incy) := by
  have scaled := updates_elementwise (toUsize n) (fun i => ix (startIndex n incy) i incy)
    (fun _ (old : T) => if isZero beta then 0 else beta * old) (ix_injective n incy nonzero)
  refine scaled.congr rfl (fun _ old _ => ?_)
  split
  · rename_i nothing
    rw [(LawfulScalar.isZero_iff beta).mp nothing, zero_mul]
  · rfl

theorem gbmv_unit_column_updates (rt : Runtime) (site : Site) (m kl ku : Nat) (alpha : T) (a : Mem T) (lda : Int)
    (x : Mem T) (j : Nat) (ordered : j ≤ m + ku) :
    ∃ total, (∀ y, gbmvUnitColumn rt site m kl ku alpha a (toUsize lda) x j y = some (total y)) ∧
      Updates (Set.Iio m) (fun i => i) (fun i old => old + bandMatrix m kl ku a lda i j * (alpha * x j)) total := by
  have window := (band_rows_ordered m kl ku j).mpr ordered
  have first := band_row_first_eq ku j
  have injective : Set.InjOn (fun i : Nat => i) (Set.Iio m) := Function.injective_id.injOn
  simp only [gbmvUnitColumn, checkedLength, window, if_true, Option.bind_some]
  cases nothing : isZero (alpha * x j) with
  | true =>
    have zero : alpha * x j = 0 := (LawfulScalar.isZero_iff _).mp nothing
    refine ⟨fun y => y, fun y => by rw [if_pos rfl], (updates_same _ _).congr rfl (fun i old _ => ?_)⟩
    rw [zero, mul_zero, add_zero]
  | false =>
    -- The len cells from row0 on, reached through the pointer y + row0.
    have moved : ∀ run : Mem T → Mem T,
        Updates (Set.Iio (toUsize ((bandRowLast m kl j - bandRowFirst ku j : Nat) : Int))) (fun i => bandRowFirst ku j + i)
          (fun i old => old + alpha * x j * a (j * toUsize lda + (ku + bandRowFirst ku j - j) + i)) run →
        Updates (Set.Iio m) (fun i => i) (fun i old => old + bandMatrix m kl ku a lda i j * (alpha * x j)) run := by
      intro run local'
      refine band_column_widen m kl ku a lda j (alpha * x j) (fun i => i) injective run ?_
      have aligned : Updates (Set.Iio (bandRowLast m kl j - bandRowFirst ku j)) (fun i => bandRowFirst ku j + i)
          (fun i old => old + a (ku + (bandRowFirst ku j + i) - j + j * toUsize lda) * (alpha * x j)) run := by
        refine local'.congr (by rw [toUsize, Int.toNat_natCast]) (fun i old _ => ?_)
        have place : j * toUsize lda + (ku + bandRowFirst ku j - j) + i =
            ku + (bandRowFirst ku j + i) - j + j * toUsize lda := by omega
        rw [place, mul_comm (alpha * x j)]
      exact (Updates.reindex (fun i => bandRowFirst ku j + i) aligned).congr (image_shift _ _) (fun _ _ _ => rfl)
    cases kind : isReal T with
    | true =>
      refine ⟨fun y => axpyUnitReal (bandRowLast m kl j - bandRowFirst ku j) (alpha * x j) a
        (j * toUsize lda + (ku + bandRowFirst ku j - j)) y (bandRowFirst ku j), fun y => ?_, moved _ ?_⟩
      · simp only [Bool.false_eq_true, if_false, if_true]
      · simpa only [toUsize, Int.toNat_natCast] using axpy_unit_real_updates (bandRowLast m kl j - bandRowFirst ku j)
          (alpha * x j) a (j * toUsize lda + (ku + bandRowFirst ku j - j)) (bandRowFirst ku j)
    | false =>
      refine ⟨fun y => axpy rt site ((bandRowLast m kl j - bandRowFirst ku j : Nat) : Int) (alpha * x j) a
        (j * toUsize lda + (ku + bandRowFirst ku j - j)) 1 y (bandRowFirst ku j) 1, fun y => ?_, moved _ ?_⟩
      · simp only [Bool.false_eq_true, if_false]
      · exact axpy_unit_updates rt site _ (alpha * x j) a _ (bandRowFirst ku j)

theorem conjugateIf_zero (conjugate : Bool) : conjugateIf (0 : T) conjugate = 0 := by
  cases conjugate with
  | false => rfl
  | true => exact conj_zero

theorem conjugateIf_real (kind : isReal T = true) (conjugate : Bool) (value : T) : conjugateIf value conjugate = value := by
  have real : Scalar.isComplex T = false := by simpa only [isReal, Bool.not_eq_true'] using kind
  cases conjugate with
  | false => rfl
  | true => exact LawfulScalar.conj_real real value

theorem gbmv_unit_dot_updates (rt : Runtime) (site : Site) (m kl ku : Nat) (conjugate : Bool) (alpha : T) (a : Mem T)
    (lda : Int) (x : Mem T) (j : Nat) (ordered : j ≤ m + ku) :
    ∃ total, (∀ y, gbmvUnitDot rt site m kl ku conjugate alpha a (toUsize lda) x j y = some (total y)) ∧
      Updates {j} (fun j => j) (fun j old => old + alpha *
        ∑ i ∈ Finset.range m, conjugateIf (bandMatrix m kl ku a lda i j) conjugate * x i) total := by
  have window := (band_rows_ordered m kl ku j).mpr ordered
  have first := band_row_first_eq ku j
  let row0 := bandRowFirst ku j
  let row1 := bandRowLast m kl j
  let col := j * toUsize lda + (ku + row0 - j)
  have summed : ∑ i ∈ Finset.range (row1 - row0), conjugateIf (a (col + i)) conjugate * x (row0 + i) =
      ∑ i ∈ Finset.range m, conjugateIf (bandMatrix m kl ku a lda i j) conjugate * x i := by
    rw [← band_window_sum m kl ku a lda j (fun value => conjugateIf value conjugate) (conjugateIf_zero conjugate) x,
      Finset.sum_Ico_eq_sum_range]
    refine Finset.sum_congr rfl (fun i _ => ?_)
    have place : col + i = ku + (row0 + i) - j + j * toUsize lda := by
      simp only [col, row0]
      omega
    rw [place]
  have value : (if isReal T then dotUnitReal (row1 - row0) a col x row0
      else dot rt site ((row1 - row0 : Nat) : Int) a col 1 x row0 1 conjugate) =
      ∑ i ∈ Finset.range m, conjugateIf (bandMatrix m kl ku a lda i j) conjugate * x i := by
    rw [← summed]
    split
    · rename_i kind
      rw [dotUnitReal, dot_unit_sum, Finset.range_eq_Ico]
      refine Finset.sum_congr rfl (fun i _ => ?_)
      rw [conjugateIf_real kind, conjugateIf_real kind]
    · rw [dot_unit_exact, toUsize, Int.toNat_natCast]
  refine ⟨fun y => Function.update y j (y j + alpha * _), fun y => ?_, updates_point j (fun j => j) (fun j old => old + alpha *
    ∑ i ∈ Finset.range m, conjugateIf (bandMatrix m kl ku a lda i j) conjugate * x i)⟩
  simp only [gbmvUnitDot, checkedLength, window, if_true, Option.bind_some, ← value]
  rfl

theorem gbmv_strided_dot_updates (n : Int) (m kl ku : Nat) (conjugate : Bool) (alpha : T) (a : Mem T) (lda : Int)
    (x : Mem T) (sx incx incy : Int) (j : Nat) (ordered : j ≤ m + ku) :
    ∃ total, (∀ y, gbmvStridedDot m kl ku conjugate alpha a lda x sx incx (startIndex n incy) incy j y = some (total y)) ∧
      Updates {j} (fun j => ix (startIndex n incy) j incy) (fun j old => old + alpha *
        ∑ i ∈ Finset.range m, conjugateIf (bandMatrix m kl ku a lda i j) conjugate * vectorGet x sx i incx) total := by
  have window := (band_rows_ordered m kl ku j).mpr ordered
  have value : trappingRange (bandRowFirst ku j) (bandRowLast m kl j) (fun i sum =>
      (bandGeneralIndex kl ku lda i j).map (fun idxa =>
        sum + conjugateIf (a idxa) conjugate * vectorGet x sx i incx)) 0 =
      some (∑ i ∈ Finset.range m, conjugateIf (bandMatrix m kl ku a lda i j) conjugate * vectorGet x sx i incx) := by
    rw [← band_window_sum m kl ku a lda j (fun value => conjugateIf value conjugate) (conjugateIf_zero conjugate),
      trapping_range_total _ _ _ (fun i sum => sum +
        conjugateIf (a (ku + i - j + j * toUsize lda)) conjugate * vectorGet x sx i incx) 0 window,
      loop_range_accumulate, zero_add]
    intro i current lower upper
    rw [band_index_inside m kl ku lda i j lower upper, Option.map_some]
  refine ⟨_, fun y => ?_, updates_point j (fun j => ix (startIndex n incy) j incy) (fun j old => old + alpha *
    ∑ i ∈ Finset.range m, conjugateIf (bandMatrix m kl ku a lda i j) conjugate * vectorGet x sx i incx)⟩
  simp only [gbmvStridedDot, value, Option.map_some]

end Columns

end Zynum
