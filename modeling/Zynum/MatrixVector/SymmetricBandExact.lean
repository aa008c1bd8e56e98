import Zynum.MatrixVector.SymmetricBand
import Zynum.MatrixVector.CompactTriangularExact
import Zynum.MatrixVector.IndexMaps
import Zynum.Kernels.FixedSymmetric

set_option autoImplicit false

/- sbmv and hbmv compute the banded symmetric product and touch no other element
   of A than the band slots. -/
namespace Zynum

open ArrayProgram

section Columns

variable {R : Type} [CommRing R]

-- A symmetric product taken column by column: the pair of i and j is owned by one
-- of the two columns, which adds it to both elements.
theorem owned_columns_sum (n : Nat) (S : Nat → Nat → R) (x : Nat → R) (alpha : R) (own : Nat → Nat → Prop)
    [∀ i j, Decidable (own i j)] (i : Nat) (small : i < n)
    (apart : ∀ j, j < n → ¬ (own i j ∧ own j i)) (self : ¬ own i i)
    (absent : ∀ j, j < n → i ≠ j → ¬ own i j → ¬ own j i → S i j = 0) :
    ∑ j ∈ Finset.range n, (if i = j then alpha * (∑ r ∈ Finset.range n, if own r j then S j r * x r else 0) + alpha * x j * S j j
      else if own i j then alpha * x j * S i j else 0) = alpha * ∑ j ∈ Finset.range n, S i j * x j := by
  have member : i ∈ Finset.range n := Finset.mem_range.mpr small
  rw [← Finset.add_sum_erase _ _ member, if_pos rfl, ← Finset.add_sum_erase (Finset.range n) (fun j => S i j * x j) member,
    ← Finset.add_sum_erase (Finset.range n) (fun r => if own r i then S i r * x r else 0) member, if_neg self, zero_add,
    Finset.mul_sum, mul_add, Finset.mul_sum]
  have pairs : ∀ j ∈ (Finset.range n).erase i, alpha * (S i j * x j) =
      alpha * (if own j i then S i j * x j else 0) +
        (if i = j then alpha * (∑ r ∈ Finset.range n, if own r j then S j r * x r else 0) + alpha * x j * S j j
          else if own i j then alpha * x j * S i j else 0) := by
    intro j inside
    obtain ⟨different, below⟩ := Finset.mem_erase.mp inside
    have small' : j < n := Finset.mem_range.mp below
    rw [if_neg (Ne.symm different)]
    by_cases forward : own i j
    · have backward : ¬ own j i := fun back => apart j small' ⟨forward, back⟩
      rw [if_pos forward, if_neg backward]
      ring
    · rw [if_neg forward]
      by_cases backward : own j i
      · rw [if_pos backward]
        ring
      · rw [if_neg backward, absent j small' (Ne.symm different) forward backward]
        ring
  rw [Finset.sum_congr rfl pairs, Finset.sum_add_distrib]
  ring

end Columns

section Slots

def bandSlots (uplo : Triangle) (n k : Nat) (lda : Int) : Set Nat :=
  {place | ∃ row col, (row, col) ∈ storedBand uplo n k ∧ triBandIndex uplo k lda row col = some place}

theorem band_slots_inside (uplo : Triangle) (n k : Nat) (lda : Int) (fits : (k : Int) + 1 ≤ lda) (place : Nat)
    (member : place ∈ bandSlots uplo n k lda) : (place : Int) < lda * n := by
  obtain ⟨row, col, inside, slot⟩ := member
  obtain ⟨slot', found, small⟩ := (tri_band_map uplo n k lda fits).inside (row, col) inside
  rw [slot] at found
  rw [Option.some.inj found]
  exact small

def ownsRow (uplo : Triangle) (n k i j : Nat) : Prop := segmentFirst uplo k j ≤ i ∧ i < segmentLast uplo n k j

instance (uplo : Triangle) (n k i j : Nat) : Decidable (ownsRow uplo n k i j) := inferInstanceAs (Decidable (_ ∧ _))

theorem segment_ordered (uplo : Triangle) (n k j : Nat) (small : j < n) :
    segmentFirst uplo k j ≤ segmentLast uplo n k j ∧ segmentLast uplo n k j ≤ n := by
  cases uplo with
  | upper =>
    simp only [segmentFirst, segmentLast]
    split <;> omega
  | lower =>
    simp only [segmentFirst, segmentLast]
    omega

theorem owns_row_stored (uplo : Triangle) (n k i j : Nat) (rows : i < n) (columns : j < n) :
    ownsRow uplo n k i j ↔ i ≠ j ∧ (i, j) ∈ storedBand uplo n k := by
  have band : (i, j) ∈ storedBand uplo n k ↔ stored uplo i j = true ∧ j ≤ i + k ∧ i ≤ j + k := by
    simp only [storedBand, storedCells, bandCells, Set.mem_inter_iff, Set.mem_ofPred_eq, rows, columns, true_and]
  rw [band]
  cases uplo with
  | upper =>
    simp only [ownsRow, segmentFirst, segmentLast, stored, decide_eq_true_eq]
    split <;> omega
  | lower =>
    simp only [ownsRow, segmentFirst, segmentLast, stored, decide_eq_true_eq]
    omega

theorem segment_slot (uplo : Triangle) (n k : Nat) (lda : Int) (i j : Nat) (owned : ownsRow uplo n k i j) :
    triBandIndex uplo k lda i j = some (segmentStart uplo k (toUsize lda) j + (i - segmentFirst uplo k j)) := by
  obtain ⟨first, last⟩ := owned
  cases uplo with
  | upper =>
    simp only [segmentFirst, segmentLast] at first last
    have bound : j ≤ i + k := by
      split at first <;> omega
    rw [triBandIndex, if_neg (by omega)]
    simp only [segmentStart, segmentFirst]
    congr 1
    split <;> omega
  | lower =>
    simp only [segmentFirst, segmentLast] at first last
    rw [triBandIndex, if_neg (by omega)]
    simp only [segmentStart, segmentFirst]
    congr 1
    omega

theorem diagonal_slot (uplo : Triangle) (k : Nat) (lda : Int) (j : Nat) :
    triBandIndex uplo k lda j j = some (diagonalSlot uplo k (toUsize lda) j) := by
  cases uplo with
  | upper =>
    rw [triBandIndex, if_neg (by omega)]
    simp only [diagonalSlot]
    congr 1
    omega
  | lower =>
    rw [triBandIndex, if_neg (by omega)]
    simp only [diagonalSlot]
    congr 1
    omega

theorem diagonal_stored (uplo : Triangle) (n k j : Nat) (small : j < n) : (j, j) ∈ storedBand uplo n k :=
  ⟨⟨small, small, stored_diagonal uplo j⟩, small, small, Nat.le_add_right j k, Nat.le_add_right j k⟩

end Slots

section Entries

variable {T : Type} [CommRing T] [Scalar T]

def bandCompletion (herm : Bool) (uplo : Triangle) (k : Nat) (a : Mem T) (lda : Int) : Nat → Nat → T :=
  completion herm uplo (bandEntry uplo k a lda)

theorem band_completion_owned (herm : Bool) (uplo : Triangle) (n k : Nat) (a : Mem T) (lda : Int) (i j : Nat) (rows : i < n)
    (columns : j < n) (owned : ownsRow uplo n k i j) :
    bandCompletion herm uplo k a lda i j = a (segmentStart uplo k (toUsize lda) j + (i - segmentFirst uplo k j)) ∧
    bandCompletion herm uplo k a lda j i =
      conjugateIf (a (segmentStart uplo k (toUsize lda) j + (i - segmentFirst uplo k j))) herm := by
  obtain ⟨different, kept, _⟩ := (owns_row_stored uplo n k i j rows columns).mp owned
  have inside : stored uplo i j = true := kept.2.2
  have outside : ¬ stored uplo j i = true := fun back => different (stored_both uplo i j inside back)
  have entry : bandEntry uplo k a lda i j = a (segmentStart uplo k (toUsize lda) j + (i - segmentFirst uplo k j)) := by
    rw [bandEntry, compactEntry, segment_slot uplo n k lda i j owned]
  rw [bandCompletion, completion, if_neg different, if_pos inside, completion, if_neg (Ne.symm different), if_neg outside, entry]
  exact ⟨rfl, rfl⟩

variable [LawfulScalar T]

theorem band_completion_diagonal (herm : Bool) (uplo : Triangle) (k : Nat) (a : Mem T) (lda : Int) (j : Nat) :
    bandCompletion herm uplo k a lda j j = diagonalValue herm (a (diagonalSlot uplo k (toUsize lda) j)) := by
  have entry : bandEntry uplo k a lda j j = a (diagonalSlot uplo k (toUsize lda) j) := by
    rw [bandEntry, compactEntry, diagonal_slot]
  rw [bandCompletion, completion, if_pos rfl, entry, diagonalValue]
  cases herm with
  | false => rfl
  | true =>
    cases kind : Scalar.isComplex T with
    | true => rfl
    | false => exact LawfulScalar.realOnly_real kind _

theorem band_completion_absent (herm : Bool) (uplo : Triangle) (n k : Nat) (a : Mem T) (lda : Int) (i j : Nat) (rows : i < n)
    (columns : j < n) (different : i ≠ j) (forward : ¬ ownsRow uplo n k i j) (backward : ¬ ownsRow uplo n k j i) :
    bandCompletion herm uplo k a lda i j = 0 := by
  have empty : ∀ row col, row < n → col < n → row ≠ col → ¬ ownsRow uplo n k row col → stored uplo row col = true →
      bandEntry uplo k a lda row col = 0 := by
    intro row col small small' apart free kept
    have outside : ¬ (row, col) ∈ storedBand uplo n k := fun inside =>
      free ((owns_row_stored uplo n k row col small small').mpr ⟨apart, inside⟩)
    have far : ¬ (col ≤ row + k ∧ row ≤ col + k) := fun near =>
      outside ⟨⟨small, small', kept⟩, small, small', near.1, near.2⟩
    have none : triBandIndex uplo k lda row col = none := by
      cases uplo with
      | upper =>
        have order : row ≤ col := of_decide_eq_true kept
        exact if_pos (by omega)
      | lower =>
        have order : row ≥ col := of_decide_eq_true kept
        exact if_pos (by omega)
    rw [bandEntry, compactEntry, none]
  rw [bandCompletion, completion, if_neg different]
  cases kept : stored uplo i j with
  | true => rw [if_pos rfl, empty i j rows columns different forward kept]
  | false =>
    rw [if_neg Bool.false_ne_true, empty j i columns rows (Ne.symm different) backward (stored_flip uplo i j kept)]
    cases herm with
    | false => rfl
    | true => exact conj_zero

end Entries

section Segments

variable {T : Type} [CommRing T] [DecidableEq T] [Scalar T]

omit [DecidableEq T] [Scalar T] in
theorem read_segment (read : Nat → Option T) (a : Mem T) (start len : Nat)
    (inside : ∀ i, i < len → read (start + i) = some (a (start + i))) :
    ∃ col, readSegment read start len = some col ∧ ∀ i, i < len → col i = a (start + i) := by
  have all : (List.range len).all (fun i => (read (start + i)).isSome) = true := by
    rw [List.all_eq_true]
    intro i member
    rw [inside i (List.mem_range.mp member)]
    rfl
  refine ⟨_, if_pos all, fun i small => ?_⟩
  rw [inside i small]
  rfl

-- What the work on one segment leaves: the dot product, and the column added to y.
structure SegmentMeets (herm : Bool) (len : Nat) (xj : T) (col x : Mem T) (xStart yStart : Nat)
    (run : Mem T → T × Mem T) : Prop where
  sum : ∀ y, (run y).1 = ∑ i ∈ Finset.range len, conjugateIf (col i) herm * x (xStart + i)
  stored : Updates (Set.Iio len) (fun i => yStart + i) (fun i old => old + xj * col i) (fun y => (run y).2)

theorem fused_segment (len : Nat) (coefficient : T) (col x : Mem T) (xStart : Nat) (y : Mem T) (yStart : Nat) :
    ∃ after : Mem T, fusedSegment len coefficient col x xStart y yStart =
        some (∑ i ∈ Finset.range len, col i * x (xStart + i), after) ∧
      (∀ i, i < len → after (yStart + i) = y (yStart + i) + coefficient * col i) ∧
      ∀ p, ¬ (yStart ≤ p ∧ p < yStart + len) → after p = y p := by
  let rows : Mem T := fun p =>
    if p < len then col p else if p < 2 * len then x (xStart + (p - len)) else y (yStart + (p - 2 * len))
  have kernel : FixedMatrix.KernelAxpyDots
      (FixedMatrix.symmetricAxpyDotUnitReal (symmetricAxpyDotConfig T) len coefficient 0 len (2 * len)) _ _ len (2 * len) _ _ :=
    FixedMatrix.symmetric_axpy_dot
  have apart : FixedVector.Apart len 0 (2 * len) ∧ FixedVector.Apart len len (2 * len) := by
    simp only [FixedVector.Apart]
    omega
  obtain ⟨sum, overwrites⟩ := kernel.accepts (Or.inr (Or.inr apart)) rows
  have left : ∀ i, i < len → rows (0 + i) = col i := by
    intro i small
    simp only [rows, Nat.zero_add, small, if_true]
  have middle : ∀ i, i < len → rows (len + i) = x (xStart + i) := by
    intro i small
    have past : ¬ len + i < len := by omega
    have before : len + i < 2 * len := by omega
    simp only [rows, past, before, if_false, if_true, Nat.add_sub_cancel_left]
  have right : ∀ i, rows (2 * len + i) = y (yStart + i) := by
    intro i
    have past : ¬ 2 * len + i < len := by omega
    have past' : ¬ 2 * len + i < 2 * len := by omega
    simp only [rows, past, past', if_false, Nat.add_sub_cancel_left]
  have total : ∑ i ∈ Finset.range len, rows (0 + i) * rows (len + i) = ∑ i ∈ Finset.range len, col i * x (xStart + i) := by
    refine Finset.sum_congr rfl (fun i member => ?_)
    have small := Finset.mem_range.mp member
    rw [left i small, middle i small]
  refine ⟨fun p => if yStart ≤ p ∧ p < yStart + len then
      ((FixedMatrix.symmetricAxpyDotUnitReal (symmetricAxpyDotConfig T) len coefficient 0 len (2 * len)).run rows).2
        (2 * len + (p - yStart)) else y p, ?_, ?_, ?_⟩
  · have answer : fusedSegment len coefficient col x xStart y yStart = Option.map (fun sum => (sum, _))
        ((FixedMatrix.symmetricAxpyDotUnitReal (symmetricAxpyDotConfig T) len coefficient 0 len (2 * len)).run rows).1 := rfl
    rw [answer, sum]
    exact congrArg some (Prod.ext total rfl)
  · intro i small
    have inside : yStart ≤ yStart + i ∧ yStart + i < yStart + len := ⟨Nat.le_add_right _ _, Nat.add_lt_add_left small _⟩
    simp only [inside, and_self, if_true, Nat.add_sub_cancel_left]
    have written := overwrites.1 i small
    have value : rows (2 * len + i) + coefficient * rows (0 + i) = y (yStart + i) + coefficient * col i := by
      rw [right i, left i small]
    exact written.trans value
  · intro p outside
    simp only [outside, if_false]

variable [LawfulScalar T]

omit [DecidableEq T] in
theorem plain_segment (rt : Runtime) (site : Site) (herm : Bool) (len : Nat) (xj : T) (col x : Mem T) (xStart yStart : Nat) :
    SegmentMeets herm len xj col x xStart yStart (fun y => plainSegment rt site herm len xj col x xStart y yStart) := by
  refine ⟨fun y => ?_, ?_⟩
  · simp only [plainSegment]
    cases kind : isReal T with
    | true =>
      rw [if_pos rfl, dotUnitReal, dot_unit_sum, Finset.range_eq_Ico]
      refine Finset.sum_congr rfl (fun i _ => ?_)
      rw [conjugateIf_real kind, conjugateIf_real kind, Nat.zero_add]
    | false =>
      rw [if_neg Bool.false_ne_true, dot_unit_exact, toUsize, Int.toNat_natCast]
      simp only [Nat.zero_add]
  · simp only [plainSegment]
    cases nothing : isZero xj with
    | true =>
      have zero : xj = 0 := (LawfulScalar.isZero_iff _).mp nothing
      refine (updates_same _ _).congr rfl (fun i old _ => ?_)
      rw [zero, zero_mul, add_zero]
    | false =>
      cases kind : isReal T with
      | true =>
        have added := axpy_unit_real_updates len xj col 0 yStart
        simp only [Nat.zero_add] at added
        exact added
      | false =>
        have added := axpy_unit_updates rt (0 :: site) (len : Int) xj col 0 yStart
        simp only [Nat.zero_add, toUsize, Int.toNat_natCast] at added
        exact added

-- Its operands are apart, so the fused kernel never declines.
theorem fused_segment_meets (real : isReal T = true) (herm : Bool) (len : Nat) (xj : T) (col x : Mem T) (xStart yStart : Nat)
    (plain : Mem T → T × Mem T) :
    SegmentMeets herm len xj col x xStart yStart (fun y => (fusedSegment len xj col x xStart y yStart).getD (plain y)) := by
  refine ⟨fun y => ?_, fun y i small => ?_, fun y p apart => ?_⟩
  · obtain ⟨after, answer, _, _⟩ := fused_segment len xj col x xStart y yStart
    rw [answer]
    change ∑ i ∈ Finset.range len, col i * x (xStart + i) = _
    refine Finset.sum_congr rfl (fun i _ => ?_)
    rw [conjugateIf_real real]
  · obtain ⟨after, answer, written, _⟩ := fused_segment len xj col x xStart y yStart
    rw [answer]
    exact written i small
  · obtain ⟨after, answer, _, kept⟩ := fused_segment len xj col x xStart y yStart
    rw [answer]
    refine kept p (fun inside => apart (p - yStart) ?_ ?_)
    · have below : p - yStart < len := by omega
      exact below
    · omega

theorem band_segment (implementation : BandImplementation) (rt : Runtime) (site : Site) (herm : Bool) (len : Nat) (xj : T)
    (col x : Mem T) (xStart yStart : Nat) :
    SegmentMeets herm len xj col x xStart yStart
      (fun y => bandSegment implementation rt site herm len xj col x xStart y yStart) := by
  by_cases fused : isReal T ∧ implementation = .compactSymmetricBandFused
  · have real : (fun y : Mem T => bandSegment implementation rt site herm len xj col x xStart y yStart) = fun y =>
        (fusedSegment len xj col x xStart y yStart).getD (plainSegment rt site herm len xj col x xStart y yStart) := by
      funext y
      rw [bandSegment, if_pos fused]
      cases fusedSegment len xj col x xStart y yStart with
      | none => rfl
      | some result => rfl
    rw [real]
    exact fused_segment_meets fused.1 herm len xj col x xStart yStart _
  · have plain : (fun y : Mem T => bandSegment implementation rt site herm len xj col x xStart y yStart) =
        fun y => plainSegment rt site herm len xj col x xStart y yStart := by
      funext y
      rw [bandSegment, if_neg fused]
    rw [plain]
    exact plain_segment rt site herm len xj col x xStart yStart

end Segments

section Routes

variable {T : Type} [CommRing T] [DecidableEq T] [Scalar T] [LawfulScalar T]

def bandShare (herm : Bool) (uplo : Triangle) (n k : Nat) (alpha : T) (a : Mem T) (lda : Int) (x : Nat → T) (j i : Nat) : T :=
  let S := bandCompletion herm uplo k a lda
  if i = j then alpha * (∑ r ∈ Finset.range n, if ownsRow uplo n k r j then S j r * x r else 0) + alpha * x j * S j j
  else if ownsRow uplo n k i j then alpha * x j * S i j else 0

omit [DecidableEq T] [LawfulScalar T] in
theorem segment_sum (herm : Bool) (uplo : Triangle) (n k : Nat) (a : Mem T) (lda : Int) (x : Mem T) (j : Nat) (small : j < n) :
    ∑ i ∈ Finset.range (segmentLast uplo n k j - segmentFirst uplo k j),
        conjugateIf (a (segmentStart uplo k (toUsize lda) j + i)) herm * x (segmentFirst uplo k j + i) =
      ∑ r ∈ Finset.range n, if ownsRow uplo n k r j then bandCompletion herm uplo k a lda j r * x r else 0 := by
  have ordered := segment_ordered uplo n k j small
  have window : {r ∈ Finset.range n | ownsRow uplo n k r j} = Finset.Ico (segmentFirst uplo k j) (segmentLast uplo n k j) := by
    ext r
    rw [Finset.mem_filter, Finset.mem_range, Finset.mem_Ico, ownsRow]
    omega
  rw [← Finset.sum_filter, window, Finset.sum_Ico_eq_sum_range]
  refine Finset.sum_congr rfl (fun i member => ?_)
  have inside := Finset.mem_range.mp member
  have owned : ownsRow uplo n k (segmentFirst uplo k j + i) j := ⟨Nat.le_add_right _ _, by omega⟩
  rw [(band_completion_owned herm uplo n k a lda _ j (by omega) small owned).2, Nat.add_sub_cancel_left]

theorem sbmv_unit_column_updates (implementation : BandImplementation) (rt : Runtime) (site : Site) (uplo : Triangle)
    (n k : Nat) (alpha : T) (a : Mem T) (read : Nat → Option T) (lda : Int) (x : Mem T) (herm : Bool)
    (allowed : ∀ place ∈ bandSlots uplo n k lda, read place = some (a place)) (j : Nat) (small : j < n) :
    ∃ total, (∀ y, sbmvUnitColumn implementation rt site uplo n k alpha read (toUsize lda) x herm j y = some (total y)) ∧
      Updates (Set.Iio n) (fun i => i) (fun i old => old + bandShare herm uplo n k alpha a lda x j i) total := by
  obtain ⟨ordered, bound⟩ := segment_ordered uplo n k j small
  let row0 := segmentFirst uplo k j
  let len := segmentLast uplo n k j - row0
  let start := segmentStart uplo k (toUsize lda) j
  have inside : ∀ i, i < len → read (start + i) = some (a (start + i)) := by
    intro i below
    have owned : ownsRow uplo n k (row0 + i) j := ⟨Nat.le_add_right _ _, by omega⟩
    have band := ((owns_row_stored uplo n k (row0 + i) j (by omega) small).mp owned).2
    have slot := segment_slot uplo n k lda (row0 + i) j owned
    rw [Nat.add_sub_cancel_left] at slot
    exact allowed (start + i) ⟨row0 + i, j, band, slot⟩
  have diagonal : read (diagonalSlot uplo k (toUsize lda) j) = some (a (diagonalSlot uplo k (toUsize lda) j)) :=
    allowed _ ⟨j, j, diagonal_stored uplo n k j small, diagonal_slot uplo k lda j⟩
  obtain ⟨col, segment, column⟩ := read_segment read a start len inside
  have meets := band_segment implementation rt site herm len (alpha * x j) col x row0 row0
  have sum : ∀ y, (bandSegment implementation rt site herm len (alpha * x j) col x row0 y row0).1 =
      ∑ r ∈ Finset.range n, if ownsRow uplo n k r j then bandCompletion herm uplo k a lda j r * x r else 0 := by
    intro y
    rw [meets.sum y, ← segment_sum herm uplo n k a lda x j small]
    refine Finset.sum_congr rfl (fun i member => ?_)
    rw [column i (Finset.mem_range.mp member)]
  let added : Mem T → Mem T := fun y =>
    if len ≠ 0 then
      let result := bandSegment implementation rt site herm len (alpha * x j) col x row0 y row0
      Function.update result.2 j (result.2 j + alpha * result.1)
    else y
  -- Row j is not in its own segment; the other rows of the segment take the column.
  have rest : ∀ y i, i ≠ j → added y i =
      if ownsRow uplo n k i j then y i + alpha * x j * bandCompletion herm uplo k a lda i j else y i := by
    intro y i different
    by_cases empty : len = 0
    · have free : ¬ ownsRow uplo n k i j := fun owned => by
        have first := owned.1
        have last := owned.2
        omega
      simp only [added, empty, ne_eq, not_true_eq_false, if_false, free]
    · simp only [added, ne_eq, empty, not_false_eq_true, if_true]
      rw [Function.update_of_ne different]
      by_cases owned : ownsRow uplo n k i j
      · have first := owned.1
        have last := owned.2
        have below : i - row0 < len := by omega
        have place : row0 + (i - row0) = i := by omega
        have written := meets.stored.written y (i - row0) below
        simp only [place] at written
        rw [if_pos owned, written, column _ below]
        rw [(band_completion_owned herm uplo n k a lda i j (by omega) small owned).1]
      · rw [if_neg owned]
        refine meets.stored.kept y i (fun offset below same => owned ?_)
        have low : offset < len := below
        have here : row0 + offset = i := same
        exact ⟨by omega, by omega⟩
  have own : ∀ y, added y j = y j +
      alpha * ∑ r ∈ Finset.range n, if ownsRow uplo n k r j then bandCompletion herm uplo k a lda j r * x r else 0 := by
    intro y
    by_cases empty : len = 0
    · have none : ∑ r ∈ Finset.range n, (if ownsRow uplo n k r j then bandCompletion herm uplo k a lda j r * x r else 0) = 0 := by
        refine Finset.sum_eq_zero (fun r _ => if_neg (fun owned => ?_))
        have first := owned.1
        have last := owned.2
        omega
      rw [none, mul_zero, add_zero]
      simp only [added, empty, ne_eq, not_true_eq_false, if_false]
    · simp only [added, ne_eq, empty, not_false_eq_true, if_true]
      rw [Function.update_self, sum y]
      congr 1
      refine meets.stored.kept y j (fun offset below same => ?_)
      have low : offset < len := below
      have here : row0 + offset = j := same
      have owned : ownsRow uplo n k j j := ⟨by omega, by omega⟩
      exact ((owns_row_stored uplo n k j j small small).mp owned).1 rfl
  refine ⟨fun y => Function.update (added y) j
    (added y j + alpha * x j * diagonalValue herm (a (diagonalSlot uplo k (toUsize lda) j))), fun y => ?_, ?_, ?_⟩
  · rw [sbmvUnitColumn]
    simp only
    rw [checkedLength, if_pos ordered, Option.bind_some]
    have segment' : readSegment read (segmentStart uplo k (toUsize lda) j)
        (segmentLast uplo n k j - segmentFirst uplo k j) = some col := segment
    simp only [segment', diagonal, Option.map_some]
    by_cases empty : len = 0
    · have empty' : segmentLast uplo n k j - segmentFirst uplo k j = 0 := empty
      simp only [added, empty, empty', ne_eq, not_true_eq_false, if_false, Option.bind_some]
    · have empty' : ¬ segmentLast uplo n k j - segmentFirst uplo k j = 0 := empty
      simp only [added, empty, empty', ne_eq, not_false_eq_true, if_true, Option.bind_some]
      rfl
  · intro y i _
    by_cases same : i = j
    · subst same
      rw [Function.update_self, own y, bandShare]
      simp only [if_true, band_completion_diagonal]
      ring
    · rw [Function.update_of_ne same, rest y i same, bandShare]
      simp only [same, if_false]
      split
      · rfl
      · exact (add_zero _).symm
  · intro y place outside
    have past : ¬ place < n := fun below => outside place below rfl
    have different : place ≠ j := by omega
    rw [Function.update_of_ne different, rest y place different, if_neg (fun owned => past (owned.2.trans_le bound))]

omit [DecidableEq T] in
theorem band_shares_sum (herm : Bool) (uplo : Triangle) (n k : Nat) (alpha : T) (a : Mem T) (lda : Int) (x : Nat → T) (i : Nat)
    (small : i < n) :
    ∑ j ∈ Finset.range n, bandShare herm uplo n k alpha a lda x j i =
      alpha * ∑ j ∈ Finset.range n, bandCompletion herm uplo k a lda i j * x j := by
  refine owned_columns_sum n (bandCompletion herm uplo k a lda) x alpha (ownsRow uplo n k) i small ?_ ?_ ?_
  · rintro j small' ⟨forward, backward⟩
    obtain ⟨different, kept, _⟩ := (owns_row_stored uplo n k i j small small').mp forward
    obtain ⟨_, mirrored, _⟩ := (owns_row_stored uplo n k j i small' small).mp backward
    exact different (stored_both uplo i j kept.2.2 mirrored.2.2)
  · intro owned
    exact ((owns_row_stored uplo n k i i small small).mp owned).1 rfl
  · intro j small' different forward backward
    exact band_completion_absent herm uplo n k a lda i j small small' different forward backward

def bandSymmetricProduct (herm : Bool) (uplo : Triangle) (n : Int) (k : Nat) (alpha : T) (a : Mem T) (lda : Int) (x : Mem T)
    (incx : Int) (beta : T) (i : Nat) (old : T) : T :=
  alpha * ∑ j ∈ Finset.range (toUsize n), bandCompletion herm uplo k a lda i j * vectorGet x (startIndex n incx) j incx +
    beta * old

theorem sbmv_unit_updates (implementation : BandImplementation) (rt : Runtime) (site : Site) (uplo : Triangle)
    (n : Int) (k : Nat) (alpha : T) (a : Mem T) (read : Nat → Option T) (lda : Int) (x : Mem T) (beta : T) (herm : Bool)
    (allowed : ∀ place ∈ bandSlots uplo (toUsize n) k lda, read place = some (a place)) :
    ∃ total, (∀ y, sbmvUnit implementation rt site uplo (toUsize n) k alpha read lda x beta y herm = some (total y)) ∧
      Updates (Set.Iio (toUsize n)) (fun i => ix (startIndex n 1) i 1) (bandSymmetricProduct herm uplo n k alpha a lda x 1 beta)
        total := by
  simp only [ix_unit]
  have scaled : Updates (Set.Iio (toUsize n)) (fun i => i) (fun _ old => beta * old)
      (fun y => if isReal T then scaleUnitReal (toUsize n) beta y else scal rt (0 :: site) (toUsize n : Int) beta y 0 1) := by
    cases isReal T with
    | true => exact scale_unit_real_updates (toUsize n) beta
    | false =>
      have whole := scal_unit_updates rt (0 :: site) (toUsize n : Int) beta 0
      simp only [Nat.zero_add, toUsize, Int.toNat_natCast] at whole
      exact whole
  cases nothing : isZero alpha with
  | true =>
    have zero : alpha = 0 := (LawfulScalar.isZero_iff _).mp nothing
    refine ⟨_, fun y => ?_, scaled.congr rfl (fun i old _ => ?_)⟩
    · simp only [sbmvUnit, nothing, if_true]
    · rw [bandSymmetricProduct, zero, zero_mul, zero_add]
  | false =>
    obtain ⟨totals, runs, updates⟩ := trapping_loop_choose (toUsize n)
      (fun j => sbmvUnitColumn implementation rt (1 :: j :: site) uplo (toUsize n) k alpha read (toUsize lda) x herm j)
      (fun j total => Updates (Set.Iio (toUsize n)) (fun i => i)
        (fun i old => old + bandShare herm uplo (toUsize n) k alpha a lda x j i) total)
      (fun j small => sbmv_unit_column_updates implementation rt (1 :: j :: site) uplo (toUsize n) k alpha a read lda x herm
        allowed j small)
    have repeated := Updates.repeat (toUsize n) (fun j i old => old + bandShare herm uplo (toUsize n) k alpha a lda x j i)
      totals updates
    refine ⟨fun y => loop (toUsize n) totals _, fun y => ?_, (scaled.then_same repeated).congr rfl (fun i old small => ?_)⟩
    · simp only [sbmvUnit, nothing, Bool.false_eq_true, if_false]
      exact runs _
    · rw [loop_accumulate, band_shares_sum herm uplo (toUsize n) k alpha a lda x i small, bandSymmetricProduct, add_comm]
      simp only [vector_get_unit]

omit [DecidableEq T] in
-- Near the diagonal every pair has a slot, in the row's column or in the column's.
theorem sym_band_entry (herm : Bool) (uplo : Triangle) (n k : Nat) (a : Mem T) (lda : Int) (i j : Nat) (rows : i < n)
    (columns : j < n) (near : j ≤ i + k ∧ i ≤ j + k) :
    ∃ slot ∈ bandSlots uplo n k lda, symBandIndex uplo k lda i j = some slot ∧
      (if i = j then diagonalValue herm (if herm && !stored uplo i j then conj (a slot) else a slot)
        else if herm && !stored uplo i j then conj (a slot) else a slot) = bandCompletion herm uplo k a lda i j := by
  by_cases same : i = j
  · subst same
    refine ⟨diagonalSlot uplo k (toUsize lda) i, ⟨i, i, diagonal_stored uplo n k i rows, diagonal_slot uplo k lda i⟩, ?_, ?_⟩
    · rw [sym_band_index_stored uplo k lda i i (stored_diagonal uplo i), diagonal_slot]
    · rw [if_pos rfl, band_completion_diagonal, stored_diagonal, Bool.not_true, Bool.and_false, if_neg Bool.false_ne_true]
  · cases kept : stored uplo i j with
    | true =>
      have band : (i, j) ∈ storedBand uplo n k := ⟨⟨rows, columns, kept⟩, rows, columns, near.1, near.2⟩
      have owned := (owns_row_stored uplo n k i j rows columns).mpr ⟨same, band⟩
      have slot := segment_slot uplo n k lda i j owned
      refine ⟨_, ⟨i, j, band, slot⟩, ?_, ?_⟩
      · rw [sym_band_index_stored uplo k lda i j kept, slot]
      · rw [if_neg same, Bool.not_true, Bool.and_false, if_neg Bool.false_ne_true,
          (band_completion_owned herm uplo n k a lda i j rows columns owned).1]
    | false =>
      have mirrored := stored_flip uplo i j kept
      have band : (j, i) ∈ storedBand uplo n k := ⟨⟨columns, rows, mirrored⟩, columns, rows, near.2, near.1⟩
      have owned := (owns_row_stored uplo n k j i columns rows).mpr ⟨Ne.symm same, band⟩
      have slot := segment_slot uplo n k lda j i owned
      refine ⟨_, ⟨j, i, band, slot⟩, ?_, ?_⟩
      · rw [sym_band_index_mirrored, sym_band_index_stored uplo k lda j i mirrored, slot]
      · rw [if_neg same, Bool.not_false, Bool.and_true,
          (band_completion_owned herm uplo n k a lda j i columns rows owned).2]
        rfl

omit [DecidableEq T] in
theorem sbmv_strided_row (uplo : Triangle) (n : Int) (k : Nat) (alpha : T) (a : Mem T) (read : Nat → Option T) (lda : Int)
    (x : Mem T) (incx incy : Int) (herm : Bool)
    (allowed : ∀ place ∈ bandSlots uplo (toUsize n) k lda, read place = some (a place)) (i : Nat) (small : i < toUsize n) :
    ∃ total, (∀ y, sbmvStridedRow uplo (toUsize n) k alpha read lda x (startIndex n incx) incx (startIndex n incy) incy herm i y =
        some (total y)) ∧
      Updates {i} (fun i => ix (startIndex n incy) i incy) (fun i old => old + alpha *
        ∑ j ∈ Finset.range (toUsize n), bandCompletion herm uplo k a lda i j * vectorGet x (startIndex n incx) j incx) total := by
  have first : (if i > k then i - k else 0) = i - k := by
    split <;> omega
  have ordered : i - k ≤ min (toUsize n) (i + k + 1) := by omega
  have window : ∑ j ∈ Finset.Ico (i - k) (min (toUsize n) (i + k + 1)),
        bandCompletion herm uplo k a lda i j * vectorGet x (startIndex n incx) j incx =
      ∑ j ∈ Finset.range (toUsize n), bandCompletion herm uplo k a lda i j * vectorGet x (startIndex n incx) j incx := by
    refine Finset.sum_subset (fun j member => ?_) (fun j member outside => ?_)
    · have inside := Finset.mem_Ico.mp member
      exact Finset.mem_range.mpr (by omega)
    · have below := Finset.mem_range.mp member
      rw [Finset.mem_Ico] at outside
      have far : i ≠ j := by omega
      have apart : ∀ row col, row < toUsize n → col < toUsize n → ¬ (col ≤ row + k ∧ row ≤ col + k) →
          ¬ ownsRow uplo (toUsize n) k row col := fun row col inRows inColumns distant owned => by
        have band := ((owns_row_stored uplo (toUsize n) k row col inRows inColumns).mp owned).2.2
        exact distant ⟨band.2.2.1, band.2.2.2⟩
      rw [band_completion_absent herm uplo (toUsize n) k a lda i j small below far (apart i j small below (by omega))
        (apart j i below small (by omega)), zero_mul]
  refine ⟨_, fun y => ?_, updates_point i (fun i => ix (startIndex n incy) i incy) (fun i old => old + alpha *
    ∑ j ∈ Finset.range (toUsize n), bandCompletion herm uplo k a lda i j * vectorGet x (startIndex n incx) j incx)⟩
  simp only [sbmvStridedRow, first]
  refine Eq.trans (congrArg (Option.map (fun sum => Function.update y (ix (startIndex n incy) i incy)
    (y (ix (startIndex n incy) i incy) + alpha * sum))) (show _ = some (∑ j ∈ Finset.range (toUsize n),
      bandCompletion herm uplo k a lda i j * vectorGet x (startIndex n incx) j incx) from ?_)) rfl
  rw [← window, trapping_range_total _ _ _ (fun j sum => sum + bandCompletion herm uplo k a lda i j *
    vectorGet x (startIndex n incx) j incx) 0 ordered, loop_range_accumulate, zero_add]
  intro j current lower upper
  obtain ⟨slot, member, index, entry⟩ := sym_band_entry herm uplo (toUsize n) k a lda i j small (by omega) (by omega)
  rw [index]
  simp only [allowed slot member, Option.map_some, ← entry]

omit [DecidableEq T] in
theorem sbmv_strided_updates (uplo : Triangle) (n : Int) (k : Nat) (alpha : T) (a : Mem T) (read : Nat → Option T) (lda : Int)
    (x : Mem T) (incx : Int) (beta : T) (incy : Int) (herm : Bool) (nonzero : incy ≠ 0)
    (allowed : ∀ place ∈ bandSlots uplo (toUsize n) k lda, read place = some (a place)) :
    ∃ total, (∀ y, sbmvStrided uplo n k alpha read lda x incx beta y incy herm = some (total y)) ∧
      Updates (Set.Iio (toUsize n)) (fun i => ix (startIndex n incy) i incy)
        (bandSymmetricProduct herm uplo n k alpha a lda x incx beta) total := by
  have scaled := scale_output_updates n beta incy nonzero
  cases nothing : isZero alpha with
  | true =>
    have zero : alpha = 0 := (LawfulScalar.isZero_iff _).mp nothing
    refine ⟨_, fun y => ?_, scaled.congr rfl (fun i old _ => ?_)⟩
    · simp only [sbmvStrided, nothing, if_true]
    · rw [bandSymmetricProduct, zero, zero_mul, zero_add]
  | false =>
    obtain ⟨total, runs, updates⟩ := dot_loop_updates (toUsize n) (fun i => ix (startIndex n incy) i incy)
      (ix_injective n incy nonzero) alpha beta
      (fun i => ∑ j ∈ Finset.range (toUsize n), bandCompletion herm uplo k a lda i j * vectorGet x (startIndex n incx) j incx)
      _ _ scaled (fun i small => sbmv_strided_row uplo n k alpha a read lda x incx incy herm allowed i small)
    refine ⟨total, fun y => ?_, updates⟩
    rw [← runs y]
    simp only [sbmvStrided, nothing, Bool.false_eq_true, if_false]

theorem sbmv_impl_updates (tuning : SymmetricProfile) (aarch64 : Bool) (rt : Runtime) (site : Site) (uplo : Triangle)
    (n k : Int) (alpha : T) (a : Mem T) (read : Nat → Option T) (lda : Int) (x : Mem T) (incx : Int) (beta : T) (incy : Int)
    (herm : Bool) (forced : Option BandImplementation) (stepx : incx ≠ 0) (stepy : incy ≠ 0)
    (allowed : ∀ place ∈ bandSlots uplo (toUsize n) (toUsize k) lda, read place = some (a place)) :
    ∃ total, (∀ y, sbmvImpl tuning aarch64 rt site uplo n k alpha read lda x incx beta y incy herm forced = some (total y)) ∧
      Updates (Set.Iio (toUsize n)) (fun i => ix (startIndex n incy) i incy)
        (bandSymmetricProduct herm uplo n (toUsize k) alpha a lda x incx beta) total := by
  by_cases empty : n ≤ 0
  · have none : Set.Iio (toUsize n) = ∅ := by
      rw [Set.eq_empty_iff_forall_notMem]
      intro i inside
      rw [Set.mem_Iio, toUsize] at inside
      omega
    refine ⟨fun y => y, fun y => ?_, ?_⟩
    · rw [sbmvImpl, if_pos (Or.inl empty)]
    · rw [none]
      exact updates_nothing _ _
  · have enter : ¬ (n ≤ 0 ∨ incx = 0 ∨ incy = 0) := by omega
    by_cases fast : incx = 1 ∧ incy = 1 ∧ (forced.isSome ∨ tuning.preferBandUnit (toUsize n) (toUsize k))
    · obtain ⟨total, runs, updates⟩ := sbmv_unit_updates
        (forced.getD (tuning.selectRealBandImplementation aarch64 T (toUsize n) (toUsize k))) rt site uplo n (toUsize k) alpha a
        read lda x beta herm allowed
      refine ⟨total, fun y => ?_, ?_⟩
      · rw [sbmvImpl, if_neg enter, if_pos fast]
        exact runs y
      · rw [fast.1, fast.2.1]
        exact updates
    · obtain ⟨total, runs, updates⟩ := sbmv_strided_updates uplo n (toUsize k) alpha a read lda x incx beta incy herm stepy
        allowed
      refine ⟨total, fun y => ?_, updates⟩
      rw [sbmvImpl, if_neg enter, if_neg fast]
      exact runs y

omit [CommRing T] [DecidableEq T] [Scalar T] [LawfulScalar T] in
theorem band_symmetric_vector_bounds (uplo : Char) (n k lda incx incy : Int)
    (accepted : bandSymmetricVectorError uplo n k lda incx incy = 0) :
    0 ≤ n ∧ 0 ≤ k ∧ k + 1 ≤ lda ∧ incx ≠ 0 ∧ incy ≠ 0 := by
  simp only [bandSymmetricVectorError] at accepted
  split_ifs at accepted <;> omega

theorem sbmv_computes_band_product (tuning : SymmetricProfile) (aarch64 : Bool) (rt : Runtime) (site : Site) (uplo : Char)
    (n k : Int) (alpha : T) (a : Mem T) (lda : Int) (x : Mem T) (incx : Int) (beta : T) (incy : Int) (herm : Bool)
    (accepted : bandSymmetricVectorError uplo n k lda incx incy = 0) :
    let slots := bandSlots (parseUplo uplo) (toUsize n) (toUsize k) lda
    (∀ place ∈ slots, (place : Int) < lda * n) ∧
    (∃ total, Updates (Set.Iio (toUsize n)) (fun i => ix (startIndex n incy) i incy)
        (bandSymmetricProduct herm (parseUplo uplo) n (toUsize k) alpha a lda x incx beta) total ∧
      ∀ read : Nat → Option T, (∀ place ∈ slots, read place = some (a place)) → ∀ y,
        sbmv tuning aarch64 rt site (parseUplo uplo) n k alpha read lda x incx beta y incy herm = some (total y)) ∧
    (incx = 1 → incy = 1 → ∀ read : Nat → Option T, (∀ place ∈ slots, read place = some (a place)) →
      ∀ (implementation : BandImplementation) (y : Mem T),
        sbmvUnit implementation rt site (parseUplo uplo) (toUsize n) (toUsize k) alpha read lda x beta y herm =
          sbmvStrided (parseUplo uplo) n (toUsize k) alpha read lda x 1 beta y 1 herm) := by
  obtain ⟨size, width, fits, stepx, stepy⟩ := band_symmetric_vector_bounds _ _ _ _ _ _ accepted
  intro slots
  refine ⟨fun place member => ?_, ?_, fun _ _ read allowed implementation y => ?_⟩
  · have inside := band_slots_inside (parseUplo uplo) (toUsize n) (toUsize k) lda (by simp only [toUsize]; omega) place member
    rwa [toUsize, Int.toNat_of_nonneg size] at inside
  · obtain ⟨total, _, updates⟩ := sbmv_impl_updates tuning aarch64 rt site (parseUplo uplo) n k alpha a (fun place => some (a place))
      lda x incx beta incy herm none stepx stepy (fun _ _ => rfl)
    refine ⟨total, updates, fun read allowed y => ?_⟩
    obtain ⟨total', runs, updates'⟩ := sbmv_impl_updates tuning aarch64 rt site (parseUplo uplo) n k alpha a read
      lda x incx beta incy herm none stepx stepy allowed
    rw [sbmv, runs y, updates.unique updates']
  · obtain ⟨total, runs, updates⟩ := sbmv_unit_updates implementation rt site (parseUplo uplo) n (toUsize k) alpha a read lda x
      beta herm allowed
    obtain ⟨total', runs', updates'⟩ := sbmv_strided_updates (parseUplo uplo) n (toUsize k) alpha a read lda x 1 beta 1 herm
      Int.one_ne_zero allowed
    rw [runs y, runs' y, updates.unique updates']

end Routes

-- More diagonals than rows: the stored corner beyond the matrix is not even there.
theorem sbmv_computes_band_product_wide :
    let _ := complexKind Int .double
    let _ := complex_kind_lawful Int .double
    let a : Mem (Cplx Int) := fun place => ⟨place, 1⟩
    ∃ total, Updates (Set.Iio 2) (fun i => ix (startIndex 2 (-1)) i (-1))
        (bandSymmetricProduct true .lower 2 3 2 a 4 (fun _ => 1) 1 3) total ∧
      ∀ read : Nat → Option (Cplx Int), (∀ place ∈ bandSlots .lower 2 3 4, read place = some (a place)) → ∀ y,
        sbmv ⟨true, 512, 8⟩ true Runtime.sequential [] .lower 2 3 2 read 4 (fun _ => 1) 1 3 y (-1) true = some (total y) := by
  let _ := complexKind Int .double
  have lawful : LawfulScalar (Cplx Int) := complex_kind_lawful Int .double
  exact (sbmv_computes_band_product ⟨true, 512, 8⟩ true Runtime.sequential [] 'L' 2 3 2 (fun place => (⟨place, 1⟩ : Cplx Int)) 4
    (fun _ => 1) 1 3 (-1) true (by decide)).2.1

end Zynum
