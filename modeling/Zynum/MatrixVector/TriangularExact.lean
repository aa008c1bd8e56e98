import Zynum.MatrixVector.Triangular
import Zynum.Foundation.Substitution

set_option autoImplicit false

/- A sweep over stored columns and a sweep over rows multiply by, and solve with,
   the triangular matrix that the storage holds; TRMV and TRSV are the dense case. -/
namespace Zynum

open ArrayProgram

variable {T : Type} [CommRing T] [Scalar T]

section Entries

variable (uplo : Triangle) (diag : Diagonal) (mode : TransposeMode) (entry : Nat → Nat → T)

theorem tri_value_triangle (a : Mem T) (lda : Int) : triValue uplo diag mode a lda = triangle uplo diag mode (denseEntry a lda) := by
  have guarded : ∀ ar ac (v : T), (if uplo = .upper ∧ ar > ac then 0 else if uplo = .lower ∧ ar < ac then 0 else v) =
      if stored uplo ar ac then v else 0 := by
    intro ar ac v
    cases uplo with
    | upper =>
      simp only [stored, reduceCtorEq, true_and, false_and, if_false, decide_eq_true_eq]
      by_cases outside : ar > ac
      · rw [if_pos outside, if_neg (by omega)]
      · rw [if_neg outside, if_pos (by omega)]
    | lower =>
      simp only [stored, reduceCtorEq, true_and, false_and, if_false, decide_eq_true_eq]
      by_cases outside : ar < ac
      · rw [if_pos outside, if_neg (by omega)]
      · rw [if_neg outside, if_pos (by omega)]
  funext row col
  simp only [triValue, triangle, guarded]
  rfl

theorem triangle_outside (row col : Nat) (outside : if opIsUpper uplo mode then col < row else row < col) :
    triangle uplo diag mode entry row col = 0 := by
  cases uplo <;> cases mode <;>
    simp only [opIsUpper, reduceCtorEq, decide_true, decide_false, Bool.and_true, Bool.and_false, Bool.or_false, Bool.or_true,
      ne_eq, not_true_eq_false, not_false_eq_true, Bool.false_eq_true, if_true, if_false] at outside <;>
    simp only [triangle, stored, if_true, if_false, reduceCtorEq, decide_eq_true_eq] <;>
    rw [if_neg (by omega), if_neg (by omega)]

theorem triangle_inside (row col : Nat) (inside : if opIsUpper uplo mode then row < col else col < row) :
    triangle uplo diag mode entry row col = opEntry mode entry row col := by
  cases uplo <;> cases mode <;>
    simp only [opIsUpper, reduceCtorEq, decide_true, decide_false, Bool.and_true, Bool.and_false, Bool.or_false, Bool.or_true,
      ne_eq, not_true_eq_false, not_false_eq_true, Bool.false_eq_true, if_true, if_false] at inside <;>
    simp only [triangle, stored, if_true, if_false, reduceCtorEq, decide_eq_true_eq] <;>
    rw [if_neg (by omega), if_pos (by omega)] <;> rfl

theorem triangle_diagonal (index : Nat) :
    triangle uplo diag mode entry index index = if diag = .unit then 1 else opEntry mode entry index index := by
  by_cases unit : diag = .unit
  · simp only [triangle, ite_self, unit, and_self, if_true]
  · simp only [triangle, ite_self, unit, and_false, if_false, stored_diagonal, if_true]
    cases mode <;> rfl

theorem triangle_unit (index : Nat) (unit : diag = .unit) : triangle uplo diag mode entry index index = 1 := by
  rw [triangle_diagonal, if_pos unit]

-- Only the stored entries, and no diagonal that is taken as one, decide the matrix.
theorem triangle_congr (entry' : Nat → Nat → T) (row col : Nat)
    (same : ∀ i j, (i = row ∧ j = col ∨ i = col ∧ j = row) → stored uplo i j = true → (diag = .unit → i ≠ j) → entry i j =
      entry' i j) :
    triangle uplo diag mode entry row col = triangle uplo diag mode entry' row col := by
  have turned : (if mode = .noTrans then row else col) = row ∧ (if mode = .noTrans then col else row) = col ∨
      (if mode = .noTrans then row else col) = col ∧ (if mode = .noTrans then col else row) = row := by
    by_cases plain : mode = .noTrans
    · exact Or.inl ⟨if_pos plain, if_pos plain⟩
    · exact Or.inr ⟨if_neg plain, if_neg plain⟩
  simp only [triangle]
  revert turned
  generalize (if mode = .noTrans then row else col) = ar
  generalize (if mode = .noTrans then col else row) = ac
  intro turned
  split
  · rfl
  · rename_i off
    split
    · rename_i inside
      rw [same ar ac turned inside (fun unit equal => off ⟨equal, unit⟩)]
    · rfl

def TriangularTo (upper : Bool) (n : Nat) (M : Nat → Nat → T) : Prop :=
  ∀ d p, d < n → p < n → (if upper then p < d else d < p) → M d p = 0

theorem triangle_to (n : Nat) : TriangularTo (opIsUpper uplo mode) n (triangle uplo diag mode entry) :=
  fun d p _ _ outside => triangle_outside uplo diag mode entry d p outside

omit [Scalar T] in
variable {entry} in
theorem TriangularTo.product {upper : Bool} {n : Nat} (shape : TriangularTo upper n entry) (d p : Nat) (inRow : d < n)
    (inColumn : p < n) (earlier : sweep upper n p < sweep upper n d) : entry d p = 0 := by
  refine shape d p inRow inColumn ?_
  cases upper with
  | true => exact earlier
  | false =>
    simp only [sweep, Bool.false_eq_true, if_false] at earlier ⊢
    omega

omit [Scalar T] in
variable {entry} in
theorem TriangularTo.solve {upper : Bool} {n : Nat} (shape : TriangularTo upper n entry) (d p : Nat) (inRow : d < n)
    (inColumn : p < n) (earlier : sweep (!upper) n d < sweep (!upper) n p) : entry d p = 0 := by
  refine shape d p inRow inColumn ?_
  cases upper with
  | true =>
    simp only [sweep, Bool.not_true, Bool.false_eq_true, if_false] at earlier
    rw [if_pos rfl]
    omega
  | false => exact earlier

theorem op_is_upper_transposed (transposed : mode ≠ .noTrans) : opIsUpper uplo mode = decide (uplo = .lower) := by
  cases mode with
  | noTrans => exact absurd rfl transposed
  | trans => cases uplo <;> rfl
  | conjTrans => cases uplo <;> rfl

end Entries

section Leaves

structure ExactLeaves (a : Mem T) (conjugateA : Bool) (axpy : Nat → Nat → T → Nat → Mem T → Nat → Mem T)
    (dot : Nat → Nat → Nat → Mem T → Nat → T) : Prop where
  adds : ∀ j count alpha aStart xStart, Updates (Set.Iio count) (fun i => xStart + i)
    (fun i old => old + alpha * a (aStart + i)) (fun x => axpy j count alpha aStart x xStart)
  sums : ∀ j count aStart x xStart, dot j count aStart x xStart =
    ∑ i ∈ Finset.range count, conjugateIf (a (aStart + i)) conjugateA * x (xStart + i)

-- What the columns of a storage hold of a triangle of entries: the rest of it is zero.
structure HoldsColumns (uplo : Triangle) (n : Nat) (column : Nat → StoredColumn) (a : Mem T) (entry : Nat → Nat → T) : Prop where
  diagonal : ∀ j, j < n → entry j j = a (column j).diagOffset
  above : uplo = .upper → ∀ j, j < n → (column j).row0 ≤ j ∧ ∀ i, i < j →
    entry i j = if (column j).row0 ≤ i then a ((column j).offset + (i - (column j).row0)) else 0
  below : uplo = .lower → ∀ j, j < n → j < (column j).row1 ∧ (column j).row1 ≤ n ∧ ∀ i, j < i → i < n →
    entry i j = if i < (column j).row1 then a ((column j).offset + (i - j)) else 0

variable {uplo : Triangle} {n : Nat} {column : Nat → StoredColumn} {a : Mem T} {entry : Nat → Nat → T}

theorem gathered_above (holds : HoldsColumns .upper n column a entry) (j : Nat) (inside : j < n) (conjugateA : Bool)
    (plain : conjugateIf (0 : T) conjugateA = 0) (x : Mem T) :
    ∑ i ∈ Finset.range (j - (column j).row0), conjugateIf (a ((column j).offset + i)) conjugateA * x ((column j).row0 + i) =
      ∑ p ∈ Finset.range j, conjugateIf (entry p j) conjugateA * x p := by
  obtain ⟨start, rows⟩ := holds.above rfl j inside
  have skipped : ∑ p ∈ Finset.range (column j).row0, conjugateIf (entry p j) conjugateA * x p = 0 := by
    refine Finset.sum_eq_zero (fun p member => ?_)
    have small := Finset.mem_range.mp member
    rw [rows p (by omega), if_neg (by omega), plain, zero_mul]
  rw [← Finset.sum_range_add_sum_Ico _ start, skipped, zero_add, Finset.sum_Ico_eq_sum_range]
  refine Finset.sum_congr rfl (fun i member => ?_)
  have small := Finset.mem_range.mp member
  rw [rows _ (by omega), if_pos (Nat.le_add_right _ _), Nat.add_sub_cancel_left]

theorem gathered_below (holds : HoldsColumns .lower n column a entry) (j : Nat) (inside : j < n) (conjugateA : Bool)
    (plain : conjugateIf (0 : T) conjugateA = 0) (x : Mem T) :
    ∑ i ∈ Finset.range ((column j).row1 - (j + 1)), conjugateIf (a ((column j).offset + 1 + i)) conjugateA * x (j + 1 + i) =
      ∑ p ∈ Finset.Ico (j + 1) n, conjugateIf (entry p j) conjugateA * x p := by
  obtain ⟨start, stop, rows⟩ := holds.below rfl j inside
  have skipped : ∑ p ∈ Finset.Ico (column j).row1 n, conjugateIf (entry p j) conjugateA * x p = 0 := by
    refine Finset.sum_eq_zero (fun p member => ?_)
    have large := Finset.mem_Ico.mp member
    rw [rows p (by omega) large.2, if_neg (by omega), plain, zero_mul]
  rw [← Finset.sum_Ico_consecutive _ (show j + 1 ≤ (column j).row1 from start) stop, skipped, add_zero, Finset.sum_Ico_eq_sum_range]
  refine Finset.sum_congr rfl (fun i member => ?_)
  have small := Finset.mem_range.mp member
  have place : (column j).offset + 1 + i = (column j).offset + (j + 1 + i - j) := by omega
  rw [rows _ (by omega) (by omega), if_pos (by omega), place]

omit [CommRing T] [Scalar T] in
theorem pivot_commutes {first count pivot : Nat} {term : Nat → T → T} {run : Mem T → Mem T}
    (added : Updates (Set.Iio count) (fun i => first + i) term run) (apart : ¬ (first ≤ pivot ∧ pivot < first + count)) (value : T)
    (x : Mem T) : run (Function.update x pivot value) = Function.update (run x) pivot value := by
  funext place
  by_cases here : place = pivot
  · rw [here, Function.update_self, added.kept _ pivot (fun i small same => apart (by
      simp only [Set.mem_Iio] at small
      omega)), Function.update_self]
  · rw [Function.update_of_ne here]
    by_cases inside : first ≤ place ∧ place < first + count
    · have small : place - first ∈ Set.Iio count := by
        simp only [Set.mem_Iio]
        omega
      have start : first + (place - first) = place := by omega
      have moved := added.written (Function.update x pivot value) (place - first) small
      have still := added.written x (place - first) small
      simp only [start] at moved still
      rw [moved, still, Function.update_of_ne here]
    · have outside : ∀ i, i ∈ Set.Iio count → first + i ≠ place := fun i small same => inside (by
        simp only [Set.mem_Iio] at small
        omega)
      rw [added.kept _ place outside, added.kept x place outside, Function.update_of_ne here]

omit [Scalar T] in
theorem column_added {first count pivot aStart : Nat} {alpha : T} {run : Mem T → Mem T} (cells : Set (Nat × Nat))
    (term : Nat → T)
    (added : Updates (Set.Iio count) (fun i => first + i) (fun i old => old + alpha * a (aStart + i)) run) (value : T) (x : Mem T)
    (own : (pivot, 0) ∈ cells)
    (beside : ∀ i, i < count → (first + i, 0) ∈ cells ∧ first + i ≠ pivot ∧ term (first + i) = a (aStart + i))
    (idle : ∀ cell, cell ∈ cells → cell.1 ≠ pivot → ¬ (first ≤ cell.1 ∧ cell.1 < first + count) → term cell.1 = 0) :
    Wrote cells Prod.fst (fun cell old => if cell.1 = pivot then value else old + alpha * term cell.1) x
      (Function.update (run x) pivot value) := by
  constructor
  · intro cell member
    by_cases here : cell.1 = pivot
    · rw [here, Function.update_self, if_pos rfl]
    · rw [Function.update_of_ne here, if_neg here]
      by_cases inside : first ≤ cell.1 ∧ cell.1 < first + count
      · have reached := added.written x (cell.1 - first) (by simp only [Set.mem_Iio]; omega)
        have same := (beside (cell.1 - first) (by omega)).2.2
        simp only [Nat.add_sub_cancel' inside.1] at reached same
        rw [reached, same]
      · rw [idle cell member here inside, mul_zero, add_zero, added.kept x cell.1 (fun i small same => inside (by
          simp only [Set.mem_Iio] at small
          omega))]
  · intro place outside
    rw [Function.update_of_ne (fun same => outside (pivot, 0) own same.symm)]
    exact added.kept x place (fun i small same => outside (first + i, 0) (beside i small).1 same)

end Leaves

variable [LawfulScalar T]

theorem conjugate_zero (doConj : Bool) : conjugateIf (0 : T) doConj = 0 := by
  cases doConj with
  | true => exact conj_zero
  | false => rfl

theorem dense_axpy_updates (env : VectorEnv) (rt : Runtime) (site : Site) (n : Nat) (alpha : T) (a : Mem T)
    (aStart xStart : Nat) :
    Updates (Set.Iio n) (fun i => xStart + i) (fun i old => old + alpha * a (aStart + i))
      (fun x => denseAxpy env rt site n alpha a aStart x xStart) := by
  refine updates_guard _ (fun idle => ?_) (fun _ => ?_)
  · rcases idle with none | nothing
    · subst none
      exact (updates_nothing _ _).congr (Set.ext (fun i => by simp only [Set.mem_empty_iff_false, Set.mem_Iio, Nat.not_lt_zero]))
        (fun _ _ _ => rfl)
    · refine (updates_same _ _).congr rfl (fun i old _ => ?_)
      rw [(LawfulScalar.isZero_iff alpha).mp nothing, zero_mul, add_zero]
  have element := updates_elementwise_range xStart 0 n (fun i old => old + alpha * a (aStart + i))
  rw [Ico_from_zero] at element
  refine updates_guard _ (fun _ => element) (fun _ => ?_)
  refine updates_guard _ (fun _ => axpy_unit_real_updates n alpha a aStart xStart) (fun _ => ?_)
  refine updates_guard _ (fun _ => ?_) (fun _ => ?_)
  · have unit := axpy_unit_updates rt site (n : Int) alpha a aStart xStart
    simp only [toUsize, Int.toNat_natCast] at unit
    exact unit
  · exact updates_elementwise n (fun i => xStart + i) _ (start_injective xStart _)

theorem dense_dot_sum (env : VectorEnv) (rt : Runtime) (site : Site) (n : Nat) (a : Mem T) (aStart : Nat) (x : Mem T)
    (xStart : Nat) (conjugateA : Bool) :
    denseDot env rt site n a aStart x xStart conjugateA =
      ∑ i ∈ Finset.range n, conjugateIf (a (aStart + i)) conjugateA * x (xStart + i) := by
  rw [denseDot]
  split
  · rw [dot_unit_sum, Finset.range_eq_Ico]
  split
  · rename_i _ dense
    rw [dotUnitReal, dot_unit_sum, Finset.range_eq_Ico]
    exact Finset.sum_congr rfl (fun i _ => by rw [conjugateIf_real dense.2, conjugateIf_real dense.2])
  split
  · have unit := dot_unit_exact rt site (n : Int) a aStart x xStart conjugateA
    simp only [toUsize, Int.toNat_natCast] at unit
    exact unit
  · rw [loop_accumulate, zero_add]

theorem dense_leaves (env : VectorEnv) (rt : Runtime) (site : Site) (a : Mem T) (conjugateA : Bool) :
    ExactLeaves a conjugateA (fun j count alpha aStart x xStart => denseAxpy env rt (j :: site) count alpha a aStart x xStart)
      (fun j count aStart x xStart => denseDot env rt (j :: site) count a aStart x xStart conjugateA) :=
  ⟨fun _ _ _ _ _ => dense_axpy_updates env rt _ _ _ a _ _, fun _ _ _ _ _ => dense_dot_sum env rt _ _ a _ _ _ conjugateA⟩

omit [CommRing T] [Scalar T] [LawfulScalar T] in
theorem first_lane_injective (n : Nat) : Set.InjOn Prod.fst (laneCells (Finset.range n) {0}) := by
  rintro ⟨i, r⟩ ⟨_, inFirst⟩ ⟨j, s⟩ ⟨_, inSecond⟩ same
  simp only [Set.mem_singleton_iff] at inFirst inSecond same
  rw [same, inFirst, inSecond]

def strideAddress (n incx : Int) (cell : Nat × Nat) : Nat := ix (startIndex n incx) cell.1 incx

omit [CommRing T] [Scalar T] [LawfulScalar T] in
theorem stride_address_injective (n incx : Int) (nonzero : incx ≠ 0) :
    Set.InjOn (strideAddress n incx) (laneCells (Finset.range (toUsize n)) {0}) := by
  rintro ⟨i, r⟩ ⟨inFirst, laneFirst⟩ ⟨j, s⟩ ⟨inSecond, laneSecond⟩ same
  simp only [Set.mem_singleton_iff] at laneFirst laneSecond
  have equal : i = j := ix_injective n incx nonzero (Finset.mem_range.mp inFirst) (Finset.mem_range.mp inSecond) same
  rw [equal, laneFirst, laneSecond]

section Multiply

variable {uplo : Triangle} {mode : TransposeMode} {diag : Diagonal} {n : Nat} {column : Nat → StoredColumn} {a : Mem T}
  {entry : Nat → Nat → T} {axpy : Nat → Nat → T → Nat → Mem T → Nat → Mem T} {dot : Nat → Nat → Nat → Mem T → Nat → T}

omit [Scalar T] [LawfulScalar T] in
theorem optional_pivot (diag : Diagonal) (x : Mem T) (index : Nat) (entry pivot : T) (kept : x index = pivot) :
    (if diag = .nonUnit then Function.update x index (entry * pivot) else x) =
      Function.update x index ((if diag = .unit then 1 else entry) * pivot) := by
  cases diag with
  | nonUnit => rw [if_pos rfl, if_neg (by exact nofun)]
  | unit =>
    rw [if_neg (by exact nofun), if_pos rfl, one_mul]
    exact (Function.update_eq_self index x).symm.trans (congrArg (Function.update x index) kept)

omit [LawfulScalar T] in
theorem multiply_columns_straight (exact : ExactLeaves a false axpy dot) (holds : HoldsColumns uplo n column a entry) :
    Meets (Product (Finset.range n) {0} Prod.fst (triangle uplo diag .noTrans entry) 1)
      (multiplyColumns axpy dot column uplo .noTrans diag n a) := by
  cases uplo with
  | upper =>
    refine Meets.congr_run (product_right_looking n {0} Prod.fst _ _ true (first_lane_injective n)
      (triangle_to .upper diag .noTrans entry n).product (fun t below current => ?_)) (fun x => rfl)
    obtain ⟨start, rows⟩ := holds.above rfl t below
    have added := exact.adds t (t - (column t).row0) (current t) (column t).offset (column t).row0
    have kept := added.kept current t (fun i small same => by simp only [Set.mem_Iio] at small; omega)
    have step := column_added {cell | cell ∈ laneCells (Finset.range n) {0} ∧ sweep true n cell.1 ≤ t} (fun i => entry i t) added
      (triangle .upper diag .noTrans entry t t * current t) current
      ⟨⟨Finset.mem_range.mpr below, rfl⟩, Nat.le_refl t⟩
      (fun i small => ⟨⟨⟨Finset.mem_range.mpr (show (column t).row0 + i < n by omega), rfl⟩, by simp only [sweep, if_true]; omega⟩,
        by omega, by rw [rows _ (by omega), if_pos (Nat.le_add_right _ _), Nat.add_sub_cancel_left]⟩)
      (fun cell member other outside => by
        have reached := member.2
        simp only [sweep, if_true] at reached
        rw [rows cell.1 (by omega), if_neg (by omega)])
    simp only
    rw [optional_pivot diag _ t _ (current t) kept, ← holds.diagonal t below]
    rw [triangle_diagonal] at step
    refine step.congr_at (fun cell member => ?_)
    have reached := member.2
    simp only [sweep, if_true] at reached ⊢
    by_cases here : cell.1 = t
    · rw [if_pos here, if_pos here, here, triangle_diagonal]
    · rw [if_neg here, if_neg here, triangle_inside .upper diag .noTrans entry cell.1 t (by
        simp only [opIsUpper, decide_true, Bool.and_self, Bool.true_or, if_true]
        omega), mul_comm]
      rfl
  | lower =>
    refine Meets.congr_run (product_right_looking n {0} Prod.fst _ _ false (first_lane_injective n)
      (triangle_to .lower diag .noTrans entry n).product (fun t below current => ?_)) (fun x => rfl)
    have inside : n - 1 - t < n := by omega
    obtain ⟨start, stop, rows⟩ := holds.below rfl (n - 1 - t) inside
    have added := exact.adds (n - 1 - t) ((column (n - 1 - t)).row1 - (n - 1 - t + 1)) (current (n - 1 - t))
      ((column (n - 1 - t)).offset + 1) (n - 1 - t + 1)
    have step := column_added {cell | cell ∈ laneCells (Finset.range n) {0} ∧ sweep false n cell.1 ≤ t}
      (fun i => entry i (n - 1 - t)) added
      (triangle .lower diag .noTrans entry (n - 1 - t) (n - 1 - t) * current (n - 1 - t)) current
      ⟨⟨Finset.mem_range.mpr inside, rfl⟩, by simp only [sweep, Bool.false_eq_true, if_false]; omega⟩
      (fun i small => ⟨⟨⟨Finset.mem_range.mpr (show n - 1 - t + 1 + i < n by omega), rfl⟩, by
          simp only [sweep, Bool.false_eq_true, if_false]
          omega⟩, by omega, by
        have place : (column (n - 1 - t)).offset + 1 + i = (column (n - 1 - t)).offset + (n - 1 - t + 1 + i - (n - 1 - t)) := by omega
        rw [rows _ (by omega) (by omega), if_pos (by omega), place]⟩)
      (fun cell member other outside => by
        have reached := member.2
        have small := Finset.mem_range.mp member.1.1
        simp only [sweep, Bool.false_eq_true, if_false] at reached
        rw [rows cell.1 (by omega) small, if_neg (by omega)])
    simp only
    rw [optional_pivot diag _ (n - 1 - t) _ (current (n - 1 - t)) rfl, ← holds.diagonal (n - 1 - t) inside,
      pivot_commutes added (by omega)]
    rw [triangle_diagonal] at step
    refine step.congr_at (fun cell member => ?_)
    have reached := member.2
    have small := Finset.mem_range.mp member.1.1
    simp only [sweep, Bool.false_eq_true, if_false] at reached ⊢
    by_cases here : cell.1 = n - 1 - t
    · rw [if_pos here, if_pos (show n - 1 - cell.1 = t by omega), here, triangle_diagonal]
    · rw [if_neg here, if_neg (by omega), triangle_inside .lower diag .noTrans entry cell.1 (n - 1 - t) (by
        simp only [opIsUpper, reduceCtorEq, decide_false, decide_true, Bool.and_false, ne_eq, not_true_eq_false, Bool.false_and,
          Bool.or_self, Bool.false_eq_true, if_false]
        omega), mul_comm]
      rfl

omit [Scalar T] [LawfulScalar T] in
theorem multiply_rows (M : Nat → Nat → T) (upper : Bool) (shape : TriangularTo upper n M) (address : Nat × Nat → Nat)
    (injective : Set.InjOn address (laneCells (Finset.range n) {0})) :
    Meets (Product (Finset.range n) {0} address M 1)
      (loop n (fun step x => Function.update x (address (sweep upper n step, 0))
        (∑ p ∈ Finset.range n, M (sweep upper n step) p * x (address (p, 0))))) := by
  refine product_by_steps n {0} address M 1 n (sweep upper n) _ (sweep_inside upper n) injective shape.product
    (fun t below current => ?_)
  refine (wrote_place n address upper t below 0 _ current).congr_at (fun cell member => ?_)
  rw [step_cells_sweep n {0} upper t below] at member
  obtain ⟨here, lane⟩ := member
  simp only [Set.mem_singleton_iff] at lane
  rw [one_mul, here, lane]

theorem multiply_columns_turned (transposed : mode ≠ .noTrans)
    (exact : ExactLeaves a (decide (mode = .conjTrans)) axpy dot) (holds : HoldsColumns uplo n column a entry) :
    Meets (Product (Finset.range n) {0} Prod.fst (triangle uplo diag mode entry) 1)
      (multiplyColumns axpy dot column uplo mode diag n a) := by
  have upper := op_is_upper_transposed uplo mode transposed
  have shape := triangle_to uplo diag mode entry n
  rw [upper] at shape
  have diagonal : ∀ j, j < n → (if diag = .unit then 1 else conjugateIf (a (column j).diagOffset) (decide (mode = .conjTrans))) =
      triangle uplo diag mode entry j j := fun j inside => by
    rw [triangle_diagonal, op_entry_transposed transposed, holds.diagonal j inside]
  cases uplo with
  | upper =>
    refine (multiply_rows _ false shape Prod.fst (first_lane_injective n)).congr_run (fun x => ?_)
    rw [multiplyColumns, if_neg transposed, if_pos rfl]
    refine loop_congr n _ _ x (fun t current below => ?_)
    simp only [sweep, Bool.false_eq_true, if_false]
    rw [exact.sums, gathered_above holds _ (by omega) _ (conjugate_zero _), diagonal _ (by omega),
      row_sum_to_diagonal n (n - 1 - t) (by omega) _ (fun p after inside => by
        rw [shape _ p (by omega) inside (by
          simpa only [reduceCtorEq, decide_false, Bool.false_eq_true, if_false] using after), zero_mul])]
    congr 2
    refine Finset.sum_congr rfl (fun p member => ?_)
    rw [triangle_inside .upper diag mode entry _ p (by
      rw [upper]
      exact Finset.mem_range.mp member), op_entry_transposed transposed]
  | lower =>
    refine (multiply_rows _ true shape Prod.fst (first_lane_injective n)).congr_run (fun x => ?_)
    rw [multiplyColumns, if_neg transposed, if_neg (by decide)]
    refine loop_congr n _ _ x (fun t current below => ?_)
    simp only [sweep, if_true]
    rw [exact.sums, gathered_below holds t below _ (conjugate_zero _), diagonal t below,
      row_sum_from_diagonal n t below _ (fun p before => by
        rw [shape t p below (by omega) (by simpa only [decide_true, if_true] using before), zero_mul])]
    congr 2
    refine Finset.sum_congr rfl (fun p member => ?_)
    rw [triangle_inside .lower diag mode entry t p (by
      rw [upper]
      exact (Finset.mem_Ico.mp member).1), op_entry_transposed transposed]

theorem multiply_columns_product (exact : ExactLeaves a (decide (mode = .conjTrans)) axpy dot)
    (holds : HoldsColumns uplo n column a entry) :
    Meets (Product (Finset.range n) {0} Prod.fst (triangle uplo diag mode entry) 1)
      (multiplyColumns axpy dot column uplo mode diag n a) := by
  by_cases straight : mode = .noTrans
  · subst straight
    exact multiply_columns_straight exact holds
  · exact multiply_columns_turned straight exact holds

omit [Scalar T] [LawfulScalar T] in
theorem multiply_rows_product (M : Nat → Nat → T) (upper : Bool) (n_ incx : Int) (nonzero : incx ≠ 0)
    (shape : TriangularTo upper (toUsize n_) M) :
    Meets (Product (Finset.range (toUsize n_)) {0} (strideAddress n_ incx) M 1) (fun x => multiplyRows upper M n_ x incx) := by
  refine (multiply_rows M upper shape (strideAddress n_ incx) (stride_address_injective n_ incx nonzero)).congr_run (fun x => ?_)
  cases upper <;>
  · refine loop_congr _ _ _ x (fun t current below => ?_)
    rw [multiplyRow, loop_accumulate, zero_add]
    rfl

omit [Scalar T] [LawfulScalar T] in
theorem dense_columns (uplo : Triangle) (n : Nat) (a : Mem T) (lda : Int) :
    HoldsColumns uplo n (denseColumn uplo n lda) a (denseEntry a lda) := by
  refine ⟨fun j _ => ?_, fun upper j inside => ?_, fun lower j inside => ?_⟩
  · cases uplo <;> rw [denseEntry, matIndex, denseColumn, Nat.add_comm]
  · subst upper
    refine ⟨Nat.zero_le j, fun i _ => ?_⟩
    refine Eq.trans ?_ (if_pos (show (denseColumn .upper n lda j).row0 ≤ i from Nat.zero_le i)).symm
    change a (i + j * toUsize lda) = a (j * toUsize lda + (i - 0))
    rw [Nat.sub_zero, Nat.add_comm]
  · subst lower
    refine ⟨inside, Nat.le_refl n, fun i after small => ?_⟩
    have place : j * toUsize lda + j + (i - j) = i + j * toUsize lda := by omega
    refine Eq.trans ?_ (if_pos (show i < (denseColumn .lower n lda j).row1 from small)).symm
    exact congrArg a place.symm

omit [Scalar T] [LawfulScalar T] in
theorem product_idle (n : Nat) (none : n = 0) (address : Nat × Nat → Nat) (M : Nat → Nat → T) :
    Meets (Product (Finset.range n) {0} address M 1) (fun x => x) := by
  subst none
  exact fun before => ⟨fun cell member => absurd (Finset.mem_range.mp member.1) (Nat.not_lt_zero _), fun _ _ => rfl⟩

omit [CommRing T] [Scalar T] [LawfulScalar T] in
theorem stride_address_unit (n : Int) : strideAddress n 1 = Prod.fst := funext (fun cell => ix_unit n cell.1)

theorem trmv_product (env : VectorEnv) (rt : Runtime) (site : Site) (uplo : Triangle) (mode : TransposeMode) (diag : Diagonal)
    (n_ : Int) (a : Mem T) (lda : Int) (incx : Int) (nonzero : incx ≠ 0) :
    Meets (Product (Finset.range (toUsize n_)) {0} (strideAddress n_ incx) (triValue uplo diag mode a lda) 1)
      (fun x => trmv env rt site uplo mode diag n_ a lda x incx) := by
  have shape := triangle_to uplo diag mode (denseEntry a lda) (toUsize n_)
  refine meets_guard _ (fun idle => product_idle _ (by simp only [toUsize]; omega) _ _) (fun _ => ?_)
  refine meets_guard _ (fun unit => ?_) (fun _ => ?_)
  · rw [unit, stride_address_unit, tri_value_triangle]
    exact multiply_columns_product (dense_leaves env rt site a _) (dense_columns uplo (toUsize n_) a lda)
  · rw [← tri_value_triangle] at shape
    exact multiply_rows_product _ _ n_ incx nonzero shape

end Multiply

section Solve

variable [Div T] [ExactDivision T]
variable {uplo : Triangle} {mode : TransposeMode} {diag : Diagonal} {n : Nat} {column : Nat → StoredColumn} {a : Mem T}
  {entry : Nat → Nat → T} {axpy : Nat → Nat → T → Nat → Mem T → Nat → Mem T} {dot : Nat → Nat → Nat → Mem T → Nat → T}

-- A matrix that a substitution can use: with a stored diagonal no pivot is zero, otherwise all are one.
structure Regular (diag : Diagonal) (n : Nat) (M : Nat → Nat → T) : Prop where
  nonzero : diag = .nonUnit → ∀ d, d < n → M d d ≠ 0
  one : diag = .unit → ∀ d, d < n → M d d = 1

omit [Scalar T] [LawfulScalar T] in
theorem pivot_solved {M : Nat → Nat → T} (regular : Regular diag n M) (j : Nat) (inside : j < n) (stored current x : T)
    (same : diag = .nonUnit → stored = M j j) (row : M j j * x = current) :
    (if diag = .nonUnit then current / stored else current) = x := by
  cases diag with
  | nonUnit =>
    rw [if_pos rfl, same rfl]
    exact quotient_unique current (M j j) x (regular.nonzero rfl j inside) row
  | unit => rw [if_neg (by exact nofun), ← row, regular.one rfl j inside, one_mul]

omit [LawfulScalar T] in
theorem solve_columns_straight (exact : ExactLeaves a false axpy dot) (holds : HoldsColumns uplo n column a entry)
    (regular : Regular diag n (triangle uplo diag .noTrans entry)) :
    Meets (Solution (Finset.range n) {0} Prod.fst (triangle uplo diag .noTrans entry) 1)
      (solveColumns axpy dot column uplo .noTrans diag n a) := by
  have stored : ∀ j, j < n → diag = .nonUnit → a (column j).diagOffset = triangle uplo diag .noTrans entry j j := by
    intro j inside kind
    rw [triangle_diagonal, if_neg (by rw [kind]; exact nofun), ← holds.diagonal j inside]
    rfl
  cases uplo with
  | upper =>
    refine Meets.congr_run (solution_right_looking n {0} Prod.fst _ n (sweep false n) _ (sweep_inside false n)
      (first_lane_injective n) (triangle_to .upper diag .noTrans entry n).solve (fun t below current X solves => ?_)) (fun x => rfl)
    have inside : n - 1 - t < n := by omega
    obtain ⟨start, rows⟩ := holds.above rfl (n - 1 - t) inside
    have row := solves (n - 1 - t) inside (by simp only [sweep, Bool.false_eq_true, if_false]; omega) 0 rfl
    rw [sweep_filter false n t below, Finset.sum_singleton] at row
    have solved := pivot_solved regular (n - 1 - t) inside _ (current (n - 1 - t)) (X (n - 1 - t) 0) (stored _ inside) row
    have added := exact.adds (n - 1 - t) (n - 1 - t - (column (n - 1 - t)).row0) (-X (n - 1 - t) 0) (column (n - 1 - t)).offset
      (column (n - 1 - t)).row0
    have step := column_added {cell | cell ∈ laneCells (Finset.range n) {0} ∧ t ≤ sweep false n cell.1}
      (fun i => entry i (n - 1 - t)) added
      (X (n - 1 - t) 0) current
      ⟨⟨Finset.mem_range.mpr inside, rfl⟩, by simp only [sweep, Bool.false_eq_true, if_false]; omega⟩
      (fun i small => ⟨⟨⟨Finset.mem_range.mpr (show (column (n - 1 - t)).row0 + i < n by omega), rfl⟩, by
          simp only [sweep, Bool.false_eq_true, if_false]
          omega⟩, by omega, by rw [rows _ (by omega), if_pos (Nat.le_add_right _ _), Nat.add_sub_cancel_left]⟩)
      (fun cell member other outside => by
        have reached := member.2
        have small := Finset.mem_range.mp member.1.1
        simp only [sweep, Bool.false_eq_true, if_false] at reached
        rw [rows cell.1 (by omega), if_neg (by omega)])
    simp only
    rw [solved, pivot_commutes added (by omega)]
    refine step.congr_at (fun cell member => ?_)
    obtain ⟨⟨inCells, lane⟩, reached⟩ := member
    simp only [Finset.mem_range, Set.mem_singleton_iff] at inCells lane
    simp only [sweep_filter false n t below, Finset.sum_singleton]
    simp only [sweep, Bool.false_eq_true, if_false] at reached ⊢
    by_cases here : cell.1 = n - 1 - t
    · rw [if_pos here, if_pos (by omega), here, lane]
    · rw [if_neg here, if_neg (by omega), triangle_inside .upper diag .noTrans entry cell.1 (n - 1 - t) (by
        simp only [opIsUpper, decide_true, Bool.and_self, Bool.true_or, if_true]
        omega), lane]
      change _ = _ - entry cell.1 (n - 1 - t) * _
      ring
  | lower =>
    refine Meets.congr_run (solution_right_looking n {0} Prod.fst _ n (sweep true n) _ (sweep_inside true n)
      (first_lane_injective n) (triangle_to .lower diag .noTrans entry n).solve (fun t below current X solves => ?_)) (fun x => rfl)
    obtain ⟨start, stop, rows⟩ := holds.below rfl t below
    have row := solves t below (by simp only [sweep, if_true]) 0 rfl
    rw [sweep_filter true n t below, Finset.sum_singleton] at row
    have solved := pivot_solved regular t below _ (current t) (X t 0) (stored _ below) row
    have added := exact.adds t ((column t).row1 - (t + 1)) (-X t 0) ((column t).offset + 1) (t + 1)
    have step := column_added {cell | cell ∈ laneCells (Finset.range n) {0} ∧ t ≤ sweep true n cell.1}
      (fun i => entry i t) added (X t 0) current
      ⟨⟨Finset.mem_range.mpr below, rfl⟩, Nat.le_refl t⟩
      (fun i small => ⟨⟨⟨Finset.mem_range.mpr (show t + 1 + i < n by omega), rfl⟩, by
          simp only [sweep, if_true]
          omega⟩, by omega, by
        have place : (column t).offset + 1 + i = (column t).offset + (t + 1 + i - t) := by omega
        rw [rows _ (by omega) (by omega), if_pos (by omega), place]⟩)
      (fun cell member other outside => by
        have reached := member.2
        have small := Finset.mem_range.mp member.1.1
        simp only [sweep, if_true] at reached
        rw [rows cell.1 (by omega) small, if_neg (by omega)])
    simp only
    rw [solved, pivot_commutes added (by omega)]
    refine step.congr_at (fun cell member => ?_)
    obtain ⟨⟨inCells, lane⟩, reached⟩ := member
    simp only [Finset.mem_range, Set.mem_singleton_iff] at inCells lane
    simp only [sweep_filter true n t below, Finset.sum_singleton]
    simp only [sweep, if_true] at reached ⊢
    by_cases here : cell.1 = t
    · rw [if_pos here, if_pos here, here, lane]
    · rw [if_neg here, if_neg here, triangle_inside .lower diag .noTrans entry cell.1 t (by
        simp only [opIsUpper, reduceCtorEq, decide_false, decide_true, Bool.and_false, ne_eq, not_true_eq_false, Bool.false_and,
          Bool.or_self, Bool.false_eq_true, if_false]
        omega), lane]
      change _ = _ - entry cell.1 t * _
      ring

omit [Scalar T] [LawfulScalar T] in
theorem solve_gathered (M : Nat → Nat → T) (upper : Bool) (shape : TriangularTo upper n M) (regular : Regular diag n M)
    (address : Nat × Nat → Nat) (injective : Set.InjOn address (laneCells (Finset.range n) {0})) (pivot : Nat → T)
    (same : diag = .nonUnit → ∀ j, j < n → pivot j = M j j) :
    Meets (Solution (Finset.range n) {0} address M 1)
      (loop n (fun step x =>
        let d := sweep (!upper) n step
        let gathered := x (address (d, 0)) -
          ∑ p ∈ (Finset.range n).filter (fun p => sweep (!upper) n p < step), M d p * x (address (p, 0))
        Function.update x (address (d, 0)) (if diag = .nonUnit then gathered / pivot d else gathered))) := by
  refine solution_left_looking n {0} address M n (sweep (!upper) n) _ (sweep_inside _ n) injective shape.solve
    (fun t below current X solves => ?_)
  have place := sweep_inside (!upper) n t below
  have row := solves (sweep (!upper) n t) place (sweep_sweep (!upper) n t below) 0 rfl
  rw [sweep_filter (!upper) n t below, Finset.sum_singleton] at row
  simp only
  rw [pivot_solved regular _ place _ _ (X (sweep (!upper) n t) 0) (fun kind => same kind _ place) row]
  refine (wrote_place n address (!upper) t below 0 _ current).congr_at (fun cell member => ?_)
  rw [step_cells_sweep n {0} (!upper) t below] at member
  obtain ⟨here, lane⟩ := member
  simp only [Set.mem_singleton_iff] at lane
  rw [here, lane]

theorem solve_columns_turned (transposed : mode ≠ .noTrans)
    (exact : ExactLeaves a (decide (mode = .conjTrans)) axpy dot) (holds : HoldsColumns uplo n column a entry)
    (regular : Regular diag n (triangle uplo diag mode entry)) :
    Meets (Solution (Finset.range n) {0} Prod.fst (triangle uplo diag mode entry) 1)
      (solveColumns axpy dot column uplo mode diag n a) := by
  have upper := op_is_upper_transposed uplo mode transposed
  have shape := triangle_to uplo diag mode entry n
  rw [upper] at shape
  have stored : diag = .nonUnit → ∀ j, j < n →
      conjugateIf (a (column j).diagOffset) (decide (mode = .conjTrans)) = triangle uplo diag mode entry j j := by
    intro kind j inside
    rw [triangle_diagonal, if_neg (by rw [kind]; exact nofun), op_entry_transposed transposed, holds.diagonal j inside]
  cases uplo with
  | upper =>
    refine (solve_gathered _ false shape regular Prod.fst (first_lane_injective n) _ stored).congr_run (fun x => ?_)
    rw [solveColumns, if_neg transposed, if_pos rfl]
    refine loop_congr n _ _ x (fun t current below => ?_)
    simp only [Bool.not_false, sweep_forward_filter n t below.le]
    have row : ∑ p ∈ Finset.range t, conjugateIf (entry p t) (decide (mode = .conjTrans)) * current p =
        ∑ p ∈ Finset.range t, triangle .upper diag mode entry t p * current p := by
      refine Finset.sum_congr rfl (fun p member => ?_)
      rw [triangle_inside .upper diag mode entry t p (by
        rw [upper]
        exact Finset.mem_range.mp member), op_entry_transposed transposed]
    rw [exact.sums, gathered_above holds t below _ (conjugate_zero _), row]
    rfl
  | lower =>
    refine (solve_gathered _ true shape regular Prod.fst (first_lane_injective n) _ stored).congr_run (fun x => ?_)
    rw [solveColumns, if_neg transposed, if_neg (by exact nofun)]
    refine loop_congr n _ _ x (fun t current below => ?_)
    have start : n - t = n - 1 - t + 1 := by omega
    simp only [Bool.not_true, sweep_backward_filter n t below.le]
    have row : ∑ p ∈ Finset.Ico (n - 1 - t + 1) n, conjugateIf (entry p (n - 1 - t)) (decide (mode = .conjTrans)) * current p =
        ∑ p ∈ Finset.Ico (n - t) n, triangle .lower diag mode entry (n - 1 - t) p * current p := by
      rw [start]
      refine Finset.sum_congr rfl (fun p member => ?_)
      rw [triangle_inside .lower diag mode entry (n - 1 - t) p (by
        rw [upper]
        exact (Finset.mem_Ico.mp member).1), op_entry_transposed transposed]
    rw [exact.sums, gathered_below holds _ (by omega) _ (conjugate_zero _), row]
    rfl

theorem solve_columns_solution (exact : ExactLeaves a (decide (mode = .conjTrans)) axpy dot)
    (holds : HoldsColumns uplo n column a entry) (regular : Regular diag n (triangle uplo diag mode entry)) :
    Meets (Solution (Finset.range n) {0} Prod.fst (triangle uplo diag mode entry) 1)
      (solveColumns axpy dot column uplo mode diag n a) := by
  by_cases straight : mode = .noTrans
  · subst straight
    exact solve_columns_straight exact holds regular
  · exact solve_columns_turned straight exact holds regular

omit [Scalar T] [LawfulScalar T] in
theorem solve_rows_solution (M : Nat → Nat → T) (upper : Bool) (n_ incx : Int) (nonzero : incx ≠ 0)
    (shape : TriangularTo upper (toUsize n_) M) (regular : Regular diag (toUsize n_) M) :
    Meets (Solution (Finset.range (toUsize n_)) {0} (strideAddress n_ incx) M 1)
      (fun x => solveRows upper diag M n_ x incx) := by
  have subtracted : ∀ (first last row : Nat) (x : Mem T),
      loopRange first last (fun j t => t - M row j * vectorGet x (startIndex n_ incx) j incx)
        (vectorGet x (startIndex n_ incx) row incx) =
      x (strideAddress n_ incx (row, 0)) - ∑ p ∈ Finset.Ico first last, M row p * x (strideAddress n_ incx (p, 0)) := by
    intro first last row x
    have negated := loop_range_accumulate first last (fun j => -(M row j * vectorGet x (startIndex n_ incx) j incx))
      (vectorGet x (startIndex n_ incx) row incx)
    simp only [Finset.sum_neg_distrib, ← sub_eq_add_neg] at negated
    exact negated
  refine (solve_gathered M upper shape regular (strideAddress n_ incx) (stride_address_injective n_ incx nonzero) (fun j => M j j)
    (fun _ _ _ => rfl)).congr_run (fun x => ?_)
  cases upper with
  | true =>
    rw [solveRows, if_pos rfl]
    refine loop_congr _ _ _ x (fun t current below => ?_)
    have start : toUsize n_ - t = toUsize n_ - 1 - t + 1 := by omega
    simp only [solveRow, subtracted, Bool.not_true, sweep_backward_filter _ t below.le, start]
    rfl
  | false =>
    rw [solveRows, if_neg Bool.false_ne_true]
    refine loop_congr _ _ _ x (fun t current below => ?_)
    simp only [solveRow, subtracted, Bool.not_false, sweep_forward_filter _ t below.le, Finset.range_eq_Ico]
    rfl

omit [LawfulScalar T] [Scalar T] [Div T] [ExactDivision T] in
theorem solution_idle (n : Nat) (none : n = 0) (address : Nat × Nat → Nat) (M : Nat → Nat → T) :
    Meets (Solution (Finset.range n) {0} address M 1) (fun x => x) := by
  subst none
  exact fun before X _ => ⟨fun cell member => absurd (Finset.mem_range.mp member.1) (Nat.not_lt_zero _), fun _ _ => rfl⟩

omit [LawfulScalar T] [Div T] [ExactDivision T] in
theorem triangle_regular (nonzero : diag = .nonUnit → ∀ d, d < n → triangle uplo diag mode entry d d ≠ 0) :
    Regular diag n (triangle uplo diag mode entry) :=
  ⟨nonzero, fun unit d _ => triangle_unit uplo diag mode entry d unit⟩

theorem trsv_solution (env : VectorEnv) (rt : Runtime) (site : Site) (n_ : Int) (lda : Int) (incx : Int) (nonzero : incx ≠ 0)
    (regular : Regular diag (toUsize n_) (triValue uplo diag mode a lda)) :
    Meets (Solution (Finset.range (toUsize n_)) {0} (strideAddress n_ incx) (triValue uplo diag mode a lda) 1)
      (fun x => trsv env rt site uplo mode diag n_ a lda x incx) := by
  have shape := triangle_to uplo diag mode (denseEntry a lda) (toUsize n_)
  refine meets_guard _ (fun idle => solution_idle _ (by simp only [toUsize]; omega) _ _) (fun _ => ?_)
  refine meets_guard _ (fun unit => ?_) (fun _ => ?_)
  · rw [tri_value_triangle] at regular ⊢
    rw [unit, stride_address_unit]
    exact solve_columns_solution (dense_leaves env rt site a _) (dense_columns uplo (toUsize n_) a lda) regular
  · rw [← tri_value_triangle] at shape
    exact solve_rows_solution _ _ n_ incx nonzero shape regular

end Solve

end Zynum
