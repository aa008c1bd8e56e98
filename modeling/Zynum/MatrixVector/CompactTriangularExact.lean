import Zynum.MatrixVector.CompactTriangular
import Zynum.MatrixVector.TriangularExact

set_option autoImplicit false

/- The packed and the banded routines multiply by, and solve with, the triangular
   matrix of the entries their storage has a slot for, on every route. -/
namespace Zynum

open ArrayProgram

variable {T : Type} [CommRing T] [Scalar T] [LawfulScalar T]

section Entries

variable (uplo : Triangle) (diag : Diagonal) (mode : TransposeMode)

def bandEntry (uplo : Triangle) (k : Nat) (a : Mem T) (lda : Int) : Nat → Nat → T := compactEntry (triBandIndex uplo k lda) a

def packedEntry (uplo : Triangle) (n : Nat) (ap : Mem T) : Nat → Nat → T := compactEntry (triPackedIndex uplo n) ap

theorem slot_value (index : Nat → Nat → Option Nat) (a : Mem T) (row col : Nat) (ar ac : Nat)
    (turned : ar = (if mode = .noTrans then row else col)) (moved : ac = (if mode = .noTrans then col else row))
    (outside : stored uplo ar ac = false → index ar ac = none) :
    (if ar = ac ∧ diag = .unit then 1
      else match index ar ac with
        | none => 0
        | some slot => if mode = .conjTrans then conj (a slot) else a slot) =
      triangle uplo diag mode (compactEntry index a) row col := by
  simp only [triangle, ← turned, ← moved]
  split
  · rfl
  · cases inside : stored uplo ar ac with
    | false =>
      rw [outside inside, if_neg Bool.false_ne_true]
    | true =>
      rw [if_pos rfl, compactEntry]
      cases index ar ac with
      | none =>
        by_cases conjugated : mode = .conjTrans
        · rw [if_pos conjugated, conj_zero]
        · rw [if_neg conjugated]
      | some slot => rfl

theorem band_index_outside (k : Nat) (lda : Int) (row col : Nat) (outside : stored uplo row col = false) :
    triBandIndex uplo k lda row col = none := by
  cases uplo with
  | upper =>
    have below : ¬ row ≤ col := of_decide_eq_false outside
    exact if_pos (Or.inl (by omega))
  | lower =>
    have above : ¬ row ≥ col := of_decide_eq_false outside
    exact if_pos (Or.inl (by omega))

theorem packed_index_outside (n : Nat) (row col : Nat) (outside : stored uplo row col = false) :
    triPackedIndex uplo n row col = none := by
  cases uplo with
  | upper =>
    have below : ¬ row ≤ col := of_decide_eq_false outside
    exact if_pos (by omega)
  | lower =>
    have above : ¬ row ≥ col := of_decide_eq_false outside
    exact if_pos (by omega)

theorem tri_band_value_triangle (k : Nat) (a : Mem T) (lda : Int) :
    triBandValue uplo mode diag k a lda = triangle uplo diag mode (bandEntry uplo k a lda) := by
  funext row col
  exact slot_value uplo diag mode (triBandIndex uplo k lda) a row col _ _ rfl rfl (band_index_outside uplo k lda _ _)

theorem tri_packed_value_triangle (n : Nat) (ap : Mem T) :
    triPackedValue uplo diag mode n ap = triangle uplo diag mode (packedEntry uplo n ap) := by
  funext row col
  exact slot_value uplo diag mode (triPackedIndex uplo n) ap row col _ _ rfl rfl (packed_index_outside uplo n _ _)

omit [Scalar T] [LawfulScalar T] in
theorem packed_columns (n : Nat) (ap : Mem T) : HoldsColumns uplo n (packedColumn uplo n) ap (packedEntry uplo n ap) := by
  refine ⟨fun j _ => ?_, fun upper j inside => ?_, fun lower j inside => ?_⟩
  · cases uplo with
    | upper => simp only [packedEntry, compactEntry, triPackedIndex, gt_iff_lt, Nat.lt_irrefl, if_false, packedColumn]
    | lower =>
        simp only [packedEntry, compactEntry, triPackedIndex, Nat.lt_irrefl, if_false, packedColumn, Nat.sub_self, Nat.add_zero]
  · subst upper
    refine ⟨Nat.zero_le j, fun i before => ?_⟩
    refine Eq.trans ?_ (if_pos (show (packedColumn .upper n j).row0 ≤ i from Nat.zero_le i)).symm
    rw [packedEntry, compactEntry, triPackedIndex, if_neg (by omega)]
    rfl
  · subst lower
    refine ⟨inside, Nat.le_refl n, fun i after small => ?_⟩
    refine Eq.trans ?_ (if_pos (show i < (packedColumn .lower n j).row1 from small)).symm
    rw [packedEntry, compactEntry, triPackedIndex, if_neg (by omega)]
    rfl

omit [Scalar T] [LawfulScalar T] in
theorem band_entry_upper (k : Nat) (a : Mem T) (lda : Int) (i j : Nat) (inside : i ≤ j) :
    bandEntry .upper k a lda i j = if i + k < j then 0 else a ((k + i - j) + j * toUsize lda) := by
  rw [bandEntry, compactEntry, triBandIndex]
  by_cases far : i + k < j
  · rw [if_pos far, if_pos (Or.inr far)]
  · rw [if_neg far, if_neg (by omega)]

omit [Scalar T] [LawfulScalar T] in
theorem band_entry_lower (k : Nat) (a : Mem T) (lda : Int) (i j : Nat) (inside : j ≤ i) :
    bandEntry .lower k a lda i j = if j + k < i then 0 else a ((i - j) + j * toUsize lda) := by
  rw [bandEntry, compactEntry, triBandIndex]
  by_cases far : j + k < i
  · rw [if_pos far, if_pos (Or.inr far)]
  · rw [if_neg far, if_neg (by omega)]

omit [Scalar T] [LawfulScalar T] in
theorem band_columns (n k : Nat) (a : Mem T) (lda : Int) :
    HoldsColumns uplo n (bandColumn uplo n k lda) a (bandEntry uplo k a lda) := by
  refine ⟨fun j _ => ?_, fun upper j inside => ?_, fun lower j inside => ?_⟩
  · cases uplo with
    | upper =>
      have place : k + j - j + j * toUsize lda = j * toUsize lda + k := by omega
      rw [band_entry_upper k a lda j j (Nat.le_refl j), if_neg (by omega), place]
      rfl
    | lower =>
      rw [band_entry_lower k a lda j j (Nat.le_refl j), if_neg (by omega), Nat.sub_self, Nat.zero_add]
      rfl
  · subst upper
    refine ⟨Nat.sub_le j _, fun i before => ?_⟩
    rw [band_entry_upper k a lda i j before.le]
    have first : (bandColumn .upper n k lda j).row0 = j - min j k := rfl
    by_cases far : i + k < j
    · rw [if_pos far, if_neg (by omega)]
    · have place : k + i - j + j * toUsize lda = j * toUsize lda + k + (j - min j k) - j + (i - (j - min j k)) := by omega
      rw [if_neg far, if_pos (by omega), place]
      rfl
  · subst lower
    refine ⟨show j < j + 1 + min k (n - j - 1) by omega, show j + 1 + min k (n - j - 1) ≤ n by omega, fun i after small => ?_⟩
    rw [band_entry_lower k a lda i j after.le]
    have last : (bandColumn .lower n k lda j).row1 = j + 1 + min k (n - j - 1) := rfl
    by_cases far : j + k < i
    · rw [if_pos far, if_neg (by omega)]
    · rw [if_neg far, if_pos (by omega), Nat.add_comm]
      rfl

end Entries

section Leaves

variable (env : CompactEnv) (a : Mem T)

omit [Scalar T] [LawfulScalar T] in
theorem dependency_axpy_updates (n : Nat) (alpha : T) (aStart xStart : Nat) :
    Updates (Set.Iio n) (fun i => xStart + i) (fun i old => old + alpha * a (aStart + i))
      (fun x => dependencyAxpy n alpha a aStart x xStart) := by
  have element := updates_elementwise_range xStart 0 n (fun i old => old + alpha * a (aStart + i))
  rw [Ico_from_zero] at element
  refine updates_guard _ (fun none => ?_) (fun _ => element)
  subst none
  exact (updates_nothing _ _).congr (Set.ext (fun i => by simp only [Set.mem_empty_iff_false, Set.mem_Iio, Nat.not_lt_zero]))
    (fun _ _ _ => rfl)

theorem axpy_idle (n : Nat) (alpha : T) (aStart xStart : Nat) (idle : n = 0 ∨ isZero alpha = true) :
    Updates (Set.Iio n) (fun i => xStart + i) (fun i old => old + alpha * a (aStart + i)) (fun x => x) := by
  rcases idle with none | nothing
  · subst none
    exact (updates_nothing _ _).congr (Set.ext (fun i => by simp only [Set.mem_empty_iff_false, Set.mem_Iio, Nat.not_lt_zero]))
      (fun _ _ _ => rfl)
  · refine (updates_same _ _).congr rfl (fun i old _ => ?_)
    rw [(LawfulScalar.isZero_iff alpha).mp nothing, zero_mul, add_zero]

theorem dependency_dot_sum (n : Nat) (aStart : Nat) (x : Mem T) (xStart : Nat) (conjugateA : Bool) :
    dependencyDot n a aStart x xStart conjugateA =
      ∑ i ∈ Finset.range n, conjugateIf (a (aStart + i)) conjugateA * x (xStart + i) := by
  rw [dependencyDot, dot_unit_sum, ← Finset.range_eq_Ico]
  refine Finset.sum_congr rfl (fun i _ => ?_)
  cases complex : Scalar.isComplex T with
  | true => rw [Bool.and_true]
  | false =>
      rw [conjugateIf_real (by rw [isReal, complex, Bool.not_false]), conjugateIf_real (by rw [isReal, complex, Bool.not_false])]

theorem packed_leaves (conjugateA : Bool) :
    ExactLeaves a conjugateA (fun _ count alpha aStart x xStart => packedAxpy env count alpha a aStart x xStart)
      (fun _ count aStart x xStart => packedDot env conjugateA count a aStart x xStart) := by
  refine ⟨fun _ count alpha aStart xStart => ?_, fun _ count aStart x xStart => ?_⟩
  · refine updates_guard _ (fun idle => axpy_idle a count alpha aStart xStart idle) (fun _ => ?_)
    refine updates_guard _ (fun _ => dependency_axpy_updates a count alpha aStart xStart) (fun _ => ?_)
    exact updates_elementwise count (fun i => xStart + i) _ (start_injective xStart _)
  · rw [packedDot]
    split
    · exact dependency_dot_sum a count aStart x xStart conjugateA
    · rw [loop_accumulate, zero_add]

theorem contiguous_leaves (conjugateA : Bool) :
    ExactLeaves a conjugateA (fun _ count alpha aStart x xStart => axpyContiguous env count alpha a aStart x xStart)
      (fun _ count aStart x xStart => dotContiguous env conjugateA count a aStart x xStart) := by
  refine ⟨fun _ count alpha aStart xStart => ?_, fun _ count aStart x xStart => ?_⟩
  · refine updates_guard _ (fun idle => axpy_idle a count alpha aStart xStart idle) (fun _ => ?_)
    refine updates_guard _ (fun _ => dependency_axpy_updates a count alpha aStart xStart) (fun _ => ?_)
    refine updates_guard _ (fun _ => dependency_axpy_updates a count alpha aStart xStart) (fun _ => ?_)
    exact updates_elementwise count (fun i => xStart + i) _ (start_injective xStart _)
  · rw [dotContiguous]
    split
    · rename_i none
      rw [none, Finset.range_zero, Finset.sum_empty]
    split
    · rename_i real
      rw [dependency_dot_sum]
      exact Finset.sum_congr rfl (fun i _ => by rw [conjugateIf_real real, conjugateIf_real real])
    split
    · exact dependency_dot_sum a count aStart x xStart conjugateA
    · rw [loop_accumulate, zero_add]

end Leaves

section Window

variable (uplo : Triangle) (mode : TransposeMode) (diag : Diagonal)

omit [Scalar T] [LawfulScalar T] in
theorem window_after (n k i : Nat) (inside : i < n) (term : Nat → T) (far : ∀ p, i + k < p → p < n → term p = 0) :
    ∑ p ∈ Finset.Ico (i + 1) n, term p = ∑ s ∈ Finset.range (min n (i + k + 1) - (i + 1)), term (i + 1 + s) := by
  rw [← Finset.sum_Ico_consecutive term (show i + 1 ≤ min n (i + k + 1) by omega) (Nat.min_le_left _ _),
    Finset.sum_eq_zero (s := Finset.Ico (min n (i + k + 1)) n) (fun p member => by
      have place := Finset.mem_Ico.mp member
      exact far p (by omega) place.2), add_zero, Finset.sum_Ico_eq_sum_range]

omit [Scalar T] [LawfulScalar T] in
theorem window_before (k i : Nat) (term : Nat → T) (far : ∀ p, p + k < i → term p = 0) :
    ∑ p ∈ Finset.range i, term p = ∑ s ∈ Finset.range (i - (i - min i k)), term (i - min i k + s) := by
  rw [← Finset.sum_range_add_sum_Ico term (Nat.sub_le i (min i k)),
    Finset.sum_eq_zero (fun p member => far p (by have small := Finset.mem_range.mp member; omega)), zero_add,
    Finset.sum_Ico_eq_sum_range]

omit [LawfulScalar T] in
theorem window_row_sum (conjugateA : Bool) (a : Mem T) (matrixIndex matrixStep count : Nat) (x : Mem T) (xStart : Nat) (sum : T) :
    bandWindowRow conjugateA a matrixIndex matrixStep count x xStart sum =
      sum + ∑ s ∈ Finset.range count, conjugateIf (a (matrixIndex + s * matrixStep)) conjugateA * x (xStart + s) := by
  rw [bandWindowRow, loop_accumulate]

omit [Scalar T] [LawfulScalar T] in
theorem optional_product (stored x : T) : (if diag = .unit then x else stored * x) = (if diag = .unit then 1 else stored) * x := by
  split
  · rw [one_mul]
  · rfl

theorem row_step_upper (k i s lda : Nat) (inside : s + 1 ≤ k) (wide : 0 < lda) :
    k + i * lda + (lda - 1) + s * (lda - 1) = (k + i - (i + 1 + s)) + (i + 1 + s) * lda := by
  obtain ⟨w, rfl⟩ : ∃ w, lda = w + 1 := ⟨lda - 1, by omega⟩
  obtain ⟨d, rfl⟩ : ∃ d, k = d + (s + 1) := ⟨k - (s + 1), by omega⟩
  have rest : d + (s + 1) + i - (i + 1 + s) = d := by omega
  rw [rest, Nat.add_sub_cancel]
  ring

theorem row_step_lower (i start s lda : Nat) (inside : start + s ≤ i) (wide : 0 < lda) :
    i - start + start * lda + s * (lda - 1) = (i - (start + s)) + (start + s) * lda := by
  obtain ⟨w, rfl⟩ : ∃ w, lda = w + 1 := ⟨lda - 1, by omega⟩
  obtain ⟨d, rfl⟩ : ∃ d, i = start + s + d := ⟨i - (start + s), by omega⟩
  have rest : start + s + d - start = s + d := by omega
  rw [rest, Nat.add_sub_cancel, Nat.add_sub_cancel_left]
  ring

omit [LawfulScalar T] in
theorem window_rows_straight (n k : Nat) (a : Mem T) (lda : Int) (fits : k < toUsize lda) :
    Meets (Product (Finset.range n) {0} Prod.fst (triangle uplo diag .noTrans (bandEntry uplo k a lda)) 1)
      (tbmvBandWindowUnitLeaf uplo .noTrans diag n k a lda) := by
  have shape := triangle_to uplo diag .noTrans (bandEntry uplo k a lda) n
  cases uplo with
  | upper =>
    refine (multiply_rows _ true shape Prod.fst (first_lane_injective n)).congr_run (fun x => ?_)
    rw [tbmvBandWindowUnitLeaf, if_pos rfl, if_pos rfl]
    refine loop_congr n _ _ x (fun i current below => ?_)
    have entries : ∀ p, i < p → triangle .upper diag .noTrans (bandEntry .upper k a lda) i p = bandEntry .upper k a lda i p :=
      fun p after => triangle_inside .upper diag .noTrans _ i p after
    have stored : a (k + i * toUsize lda) = bandEntry .upper k a lda i i := by
      rw [band_entry_upper k a lda i i (Nat.le_refl i), if_neg (by omega), Nat.add_sub_cancel]
    simp only [sweep, if_true]
    rw [window_row_sum, optional_product, stored,
      row_sum_from_diagonal n i below _ (fun p before => by rw [shape i p below (by omega) before, zero_mul]),
      triangle_diagonal, window_after n k i below _ (fun p far inside => by
        rw [entries p (by omega), band_entry_upper k a lda i p (by omega), if_pos far, zero_mul])]
    congr 2
    refine Finset.sum_congr rfl (fun s member => ?_)
    have small := Finset.mem_range.mp member
    rw [entries _ (by omega), band_entry_upper k a lda i _ (by omega), if_neg (by omega),
      row_step_upper k i s (toUsize lda) (by omega) (by omega)]
    rfl
  | lower =>
    refine (multiply_rows _ false shape Prod.fst (first_lane_injective n)).congr_run (fun x => ?_)
    rw [tbmvBandWindowUnitLeaf, if_pos rfl, if_neg (by decide)]
    refine loop_congr n _ _ x (fun step current below => ?_)
    have inside : n - 1 - step < n := by omega
    simp only [sweep, Bool.false_eq_true, if_false]
    generalize n - 1 - step = i at inside ⊢
    have entries : ∀ p, p < i → triangle .lower diag .noTrans (bandEntry .lower k a lda) i p = bandEntry .lower k a lda i p :=
      fun p before => triangle_inside .lower diag .noTrans _ i p before
    have stored : a (i - (i - min i k) + (i - min i k) * toUsize lda + (i - (i - min i k)) * (toUsize lda - 1)) =
        bandEntry .lower k a lda i i := by
      have reached : i - min i k + (i - (i - min i k)) = i := by omega
      rw [band_entry_lower k a lda i i (Nat.le_refl i), if_neg (by omega),
        row_step_lower i (i - min i k) (i - (i - min i k)) (toUsize lda) (by omega) (by omega), reached]
    have split : ∀ sum, (if diag = .unit then sum + current i else sum + bandEntry .lower k a lda i i * current i) =
        sum + (if diag = .unit then 1 else bandEntry .lower k a lda i i) * current i := fun sum => by
      rw [← optional_product]
      split <;> rfl
    rw [window_row_sum, stored, split,
      row_sum_to_diagonal n i inside _ (fun p after small => by rw [shape i p inside small after, zero_mul]),
      triangle_diagonal, window_before k i _ (fun p far => by
        rw [entries p (by omega), band_entry_lower k a lda i p (by omega), if_pos far, zero_mul]), zero_add]
    congr 2
    refine Finset.sum_congr rfl (fun s member => ?_)
    have small := Finset.mem_range.mp member
    rw [entries _ (by omega), band_entry_lower k a lda i _ (by omega), if_neg (by omega),
      row_step_lower i (i - min i k) s (toUsize lda) (by omega) (by omega)]
    rfl

theorem window_rows_turned (transposed : mode ≠ .noTrans) (n k : Nat) (a : Mem T) (lda : Int) :
    Meets (Product (Finset.range n) {0} Prod.fst (triangle uplo diag mode (bandEntry uplo k a lda)) 1)
      (tbmvBandWindowUnitLeaf uplo mode diag n k a lda) := by
  have upper := op_is_upper_transposed uplo mode transposed
  have shape := triangle_to uplo diag mode (bandEntry uplo k a lda) n
  rw [upper] at shape
  cases uplo with
  | upper =>
    refine (multiply_rows _ false shape Prod.fst (first_lane_injective n)).congr_run (fun x => ?_)
    rw [tbmvBandWindowUnitLeaf, if_neg transposed, if_pos rfl]
    refine loop_congr n _ _ x (fun step current below => ?_)
    have inside : n - 1 - step < n := by omega
    simp only [sweep, Bool.false_eq_true, if_false]
    generalize n - 1 - step = i at inside ⊢
    have entries : ∀ p, p < i → triangle .upper diag mode (bandEntry .upper k a lda) i p =
        conjugateIf (bandEntry .upper k a lda p i) (decide (mode = .conjTrans)) := fun p before => by
      rw [triangle_inside .upper diag mode _ i p (by rw [upper]; exact before), op_entry_transposed transposed]
    have stored : a (k - (i - (i - min i k)) + i * toUsize lda + (i - (i - min i k)) * 1) = bandEntry .upper k a lda i i := by
      have place : k - (i - (i - min i k)) + i * toUsize lda + (i - (i - min i k)) * 1 = k + i - i + i * toUsize lda := by omega
      rw [band_entry_upper k a lda i i (Nat.le_refl i), if_neg (by omega), place]
    have split : ∀ sum d, (if diag = .unit then sum + current i else sum + d * current i) =
        sum + (if diag = .unit then 1 else d) * current i := fun sum d => by
      rw [← optional_product]
      split <;> rfl
    rw [window_row_sum, stored, split,
      row_sum_to_diagonal n i inside _ (fun p after small => by rw [shape i p inside small after, zero_mul]),
      triangle_diagonal, op_entry_transposed transposed, window_before k i _ (fun p far => by
        rw [entries p (by omega), band_entry_upper k a lda p i (by omega), if_pos far, conjugate_zero, zero_mul]), zero_add]
    congr 2
    refine Finset.sum_congr rfl (fun s member => ?_)
    have small := Finset.mem_range.mp member
    have place : k - (i - (i - min i k)) + i * toUsize lda + s * 1 = k + (i - min i k + s) - i + i * toUsize lda := by omega
    rw [entries _ (by omega), band_entry_upper k a lda _ i (by omega), if_neg (by omega), place]
  | lower =>
    refine (multiply_rows _ true shape Prod.fst (first_lane_injective n)).congr_run (fun x => ?_)
    rw [tbmvBandWindowUnitLeaf, if_neg transposed, if_neg (by decide)]
    refine loop_congr n _ _ x (fun i current below => ?_)
    have entries : ∀ p, i < p → triangle .lower diag mode (bandEntry .lower k a lda) i p =
        conjugateIf (bandEntry .lower k a lda p i) (decide (mode = .conjTrans)) := fun p after => by
      rw [triangle_inside .lower diag mode _ i p (by rw [upper]; exact after), op_entry_transposed transposed]
    have stored : a (i * toUsize lda) = bandEntry .lower k a lda i i := by
      rw [band_entry_lower k a lda i i (Nat.le_refl i), if_neg (by omega), Nat.sub_self, Nat.zero_add]
    simp only [sweep, if_true]
    rw [window_row_sum, optional_product, stored,
      row_sum_from_diagonal n i below _ (fun p before => by rw [shape i p below (by omega) before, zero_mul]),
      triangle_diagonal, op_entry_transposed transposed, window_after n k i below _ (fun p far inside => by
        rw [entries p (by omega), band_entry_lower k a lda p i (by omega), if_pos far, conjugate_zero, zero_mul])]
    congr 2
    refine Finset.sum_congr rfl (fun s member => ?_)
    have small := Finset.mem_range.mp member
    have place : i * toUsize lda + 1 + s * 1 = i + 1 + s - i + i * toUsize lda := by omega
    rw [entries _ (by omega), band_entry_lower k a lda _ i (by omega), if_neg (by omega), place]

end Window

section Routines

variable (env : CompactEnv) (rt : Runtime) {uplo : Triangle} {mode : TransposeMode} {diag : Diagonal} (n_ incx : Int)

theorem tbmv_product (k_ : Int) (a : Mem T) (lda : Int) (some : 0 ≤ k_) (fits : k_ + 1 ≤ lda) (nonzero : incx ≠ 0) :
    Meets (Product (Finset.range (toUsize n_)) {0} (strideAddress n_ incx)
        (triangle uplo diag mode (bandEntry uplo (toUsize k_) a lda)) 1)
      (fun x => tbmv env uplo mode diag n_ k_ a lda x incx) := by
  refine meets_guard _ (fun idle => product_idle _ (by simp only [toUsize]; omega) _ _) (fun _ => ?_)
  refine meets_guard _ (fun negative => absurd some (by omega)) (fun _ => ?_)
  refine meets_guard _ (fun window => ?_) (fun _ => ?_)
  · rw [window.1, stride_address_unit]
    by_cases straight : mode = .noTrans
    · subst straight
      exact window_rows_straight uplo diag (toUsize n_) (toUsize k_) a lda (by simp only [toUsize]; omega)
    · exact window_rows_turned uplo mode diag straight (toUsize n_) (toUsize k_) a lda
  · rw [← tri_band_value_triangle]
    refine multiply_rows_product _ _ n_ incx nonzero ?_
    rw [tri_band_value_triangle]
    exact triangle_to uplo diag mode _ _

theorem tpmv_product (ap : Mem T) (nonzero : incx ≠ 0) :
    Meets (Product (Finset.range (toUsize n_)) {0} (strideAddress n_ incx)
        (triangle uplo diag mode (packedEntry uplo (toUsize n_) ap)) 1)
      (fun x => tpmvEntry env rt uplo mode diag n_ ap x incx) := by
  refine meets_guard _ (fun leaf => ?_) (fun _ => ?_)
  · rw [leaf.2.2.2.2.1, stride_address_unit]
    exact multiply_columns_product (packed_leaves env ap _) (packed_columns uplo (toUsize n_) ap)
  refine meets_guard _ (fun idle => product_idle _ (by simp only [toUsize]; omega) _ _) (fun _ => ?_)
  rw [← tri_packed_value_triangle]
  refine multiply_rows_product _ _ n_ incx nonzero ?_
  rw [tri_packed_value_triangle]
  exact triangle_to uplo diag mode _ _

variable [Div T] [ExactDivision T]

theorem tbsv_solution (k_ : Int) (a : Mem T) (lda : Int) (some : 0 ≤ k_) (nonzero : incx ≠ 0)
    (regular : Regular diag (toUsize n_) (triangle uplo diag mode (bandEntry uplo (toUsize k_) a lda))) :
    Meets (Solution (Finset.range (toUsize n_)) {0} (strideAddress n_ incx)
        (triangle uplo diag mode (bandEntry uplo (toUsize k_) a lda)) 1)
      (fun x => tbsvEntry env rt uplo mode diag n_ k_ a lda x incx) := by
  refine meets_guard _ (fun leaf => ?_) (fun _ => ?_)
  · have unit : incx = 1 := by
      by_contra other
      have allowed := leaf.2.2.2.2.2
      rw [CompactEnv.bandWindowAllowed, if_pos (Or.inl other)] at allowed
      exact Bool.false_ne_true allowed
    rw [unit, stride_address_unit]
    exact solve_columns_solution (contiguous_leaves env a _) (band_columns uplo (toUsize n_) (toUsize k_) a lda) regular
  refine meets_guard _ (fun idle => solution_idle _ (by simp only [toUsize]; omega) _ _) (fun _ => ?_)
  refine meets_guard _ (fun negative => absurd some (by omega)) (fun _ => ?_)
  have shape := triangle_to uplo diag mode (bandEntry uplo (toUsize k_) a lda) (toUsize n_)
  rw [← tri_band_value_triangle] at shape regular ⊢
  exact solve_rows_solution _ _ n_ incx nonzero shape regular

theorem tpsv_solution (ap : Mem T) (nonzero : incx ≠ 0)
    (regular : Regular diag (toUsize n_) (triangle uplo diag mode (packedEntry uplo (toUsize n_) ap))) :
    Meets (Solution (Finset.range (toUsize n_)) {0} (strideAddress n_ incx)
        (triangle uplo diag mode (packedEntry uplo (toUsize n_) ap)) 1)
      (fun x => tpsvEntry env rt uplo mode diag n_ ap x incx) := by
  refine meets_guard _ (fun leaf => ?_) (fun _ => ?_)
  · rw [leaf.2.2.2.2.1, stride_address_unit]
    exact solve_columns_solution (packed_leaves env ap _) (packed_columns uplo (toUsize n_) ap) regular
  refine meets_guard _ (fun idle => solution_idle _ (by simp only [toUsize]; omega) _ _) (fun _ => ?_)
  have shape := triangle_to uplo diag mode (packedEntry uplo (toUsize n_) ap) (toUsize n_)
  rw [← tri_packed_value_triangle] at shape regular ⊢
  exact solve_rows_solution _ _ n_ incx nonzero shape regular

end Routines

end Zynum
