import Zynum.MatrixVector.Access

set_option autoImplicit false

/- The slots of packed and band storage, in both layouts: the index maps of
   core/shared/indexing.zig and their row-major counterparts of abi/cblas.zig. -/
namespace Zynum

open ArrayProgram

def cblasUpper : Int := 121

def cblasLower : Int := 122

def rowMajorTriBandIndex (uplo : Int) (k : Nat) (lda : Int) (row col : Nat) : Option Nat :=
  let ld := toUsize lda
  if uplo = cblasUpper then
    if row > col ∨ row + k < col then none else some (row * ld + (col - row))
  else if row < col ∨ col + k < row then none
  else some (row * ld + (k + col - row))

def rowMajorTriPackedIndex (uplo : Int) (n row col : Nat) : Option Nat :=
  if uplo = cblasUpper then
    if row > col then none else some (row * n - row * (row + 1) / 2 + col)
  else if row < col then none
  else some (row * (row + 1) / 2 + col)

def cblasUplo (uplo : Triangle) : Int :=
  match uplo with
  | .upper => cblasUpper
  | .lower => cblasLower

def flipped (uplo : Triangle) : Triangle :=
  match uplo with
  | .upper => .lower
  | .lower => .upper

def storedCells (uplo : Triangle) (n : Nat) : Set (Nat × Nat) :=
  {cell | cell.1 < n ∧ cell.2 < n ∧ stored uplo cell.1 cell.2 = true}

def bandCells (m n kl ku : Nat) : Set (Nat × Nat) :=
  {cell | cell.1 < m ∧ cell.2 < n ∧ cell.2 ≤ cell.1 + ku ∧ cell.1 ≤ cell.2 + kl}

def storedBand (uplo : Triangle) (n k : Nat) : Set (Nat × Nat) := storedCells uplo n ∩ bandCells n n k k

-- Column col of a packed triangle starts in packedStart and holds the rows from
-- packedFirst on.
def packedStart (uplo : Triangle) (n col : Nat) : Nat :=
  match uplo with
  | .upper => col * (col + 1) / 2
  | .lower => col * (2 * n - col + 1) / 2

def packedFirst (uplo : Triangle) (col : Nat) : Nat :=
  match uplo with
  | .upper => 0
  | .lower => col

-- The integers the packed maps compute on the way to a slot. No subtraction goes
-- below zero and nothing exceeds n (n + 1), so usize holds all of them.
structure PackedSteps (uplo : Triangle) (n col : Nat) : Prop where
  subtracts : col ≤ 2 * n
  upper : uplo = .upper → col * (col + 1) ≤ n * (n + 1)
  lower : uplo = .lower → col * (2 * n - col + 1) ≤ n * (n + 1)
  rowMajorSubtracts : col * (col + 1) / 2 ≤ col * n

structure PackedMap (uplo : Triangle) (n : Nat) : Prop where
  bijective : Set.BijOn (fun cell : Nat × Nat => packedIndex uplo n cell.1 cell.2) (storedCells uplo n)
    (Set.Iio (n * (n + 1) / 2))
  mirrored : ∀ row col, packedIndex uplo n row col = packedIndex uplo n col row
  triangular : ∀ row col, triPackedIndex uplo n row col =
    if stored uplo row col then some (packedIndex uplo n row col) else none
  steps : ∀ col, col < n → PackedSteps uplo n col

structure SlotMap (index : Nat → Nat → Option Nat) (cells : Set (Nat × Nat)) (size : Int) : Prop where
  inside : ∀ cell ∈ cells, ∃ slot : Nat, index cell.1 cell.2 = some slot ∧ (slot : Int) < size
  injective : Set.InjOn (fun cell : Nat × Nat => index cell.1 cell.2) cells

theorem packed_start_next (uplo : Triangle) (n col : Nat) (small : col < n) :
    packedStart uplo n (col + 1) = packedStart uplo n col + (match uplo with | .upper => col + 1 | .lower => n - col) := by
  cases uplo with
  | upper =>
    have next : (col + 1) * (col + 1 + 1) = col * (col + 1) + 2 * (col + 1) := by ring
    simp only [packedStart]
    rw [next, Nat.add_mul_div_left _ _ Nat.two_pos]
  | lower =>
    obtain ⟨rest, rfl⟩ := Nat.exists_eq_add_of_lt small
    have here : 2 * (col + rest + 1) - col + 1 = col + 2 * rest + 3 := by omega
    have after : 2 * (col + rest + 1) - (col + 1) + 1 = col + 2 * rest + 2 := by omega
    have length : col + rest + 1 - col = rest + 1 := by omega
    have next : (col + 1) * (col + 2 * rest + 2) = col * (col + 2 * rest + 3) + 2 * (rest + 1) := by ring
    simp only [packedStart]
    rw [here, after, length, next, Nat.add_mul_div_left _ _ Nat.two_pos]

theorem packed_starts (uplo : Triangle) (n : Nat) : Splits n (packedStart uplo n) 0 (n * (n + 1) / 2) := by
  have finish : packedStart uplo n n = n * (n + 1) / 2 := by
    cases uplo with
    | upper => rfl
    | lower =>
      have whole : 2 * n - n + 1 = n + 1 := by omega
      rw [packedStart, whole]
  have start : packedStart uplo n 0 = 0 := by
    cases uplo with
    | upper => rfl
    | lower => simp only [packedStart, Nat.zero_mul, Nat.zero_div]
  exact ⟨start, finish, fun col small => (Nat.le_add_right _ _).trans (packed_start_next uplo n col small).ge⟩

theorem packed_index_stored (uplo : Triangle) (n row col : Nat) (inside : stored uplo row col = true) :
    packedIndex uplo n row col = packedStart uplo n col + (row - packedFirst uplo col) := by
  cases uplo with
  | upper =>
    have above : row ≤ col := of_decide_eq_true inside
    simp only [packedIndex, if_pos above, packedStart, packedFirst, Nat.sub_zero]
  | lower =>
    have below : row ≥ col := of_decide_eq_true inside
    simp only [packedIndex, if_pos below, packedStart, packedFirst]

theorem packed_column_rows (uplo : Triangle) (n row col : Nat) (small : col < n) :
    (row < n ∧ stored uplo row col = true) ↔
      packedFirst uplo col ≤ row ∧
        packedStart uplo n col + (row - packedFirst uplo col) < packedStart uplo n (col + 1) := by
  rw [packed_start_next uplo n col small, Nat.add_lt_add_iff_left]
  cases uplo with
  | upper =>
    simp only [stored, packedFirst, decide_eq_true_eq]
    omega
  | lower =>
    simp only [stored, packedFirst, decide_eq_true_eq]
    omega

theorem packed_index_bijective (uplo : Triangle) (n : Nat) :
    Set.BijOn (fun cell : Nat × Nat => packedIndex uplo n cell.1 cell.2) (storedCells uplo n)
      (Set.Iio (n * (n + 1) / 2)) := by
  have starts := packed_starts uplo n
  have member : ∀ row col, (row, col) ∈ storedCells uplo n →
      packedFirst uplo col ≤ row ∧ packedIndex uplo n row col ∈ pieceOf (packedStart uplo n) col := by
    intro row col inside
    obtain ⟨first, last⟩ := (packed_column_rows uplo n row col inside.2.1).mp ⟨inside.1, inside.2.2⟩
    rw [packed_index_stored uplo n row col inside.2.2]
    exact ⟨first, Nat.le_add_right _ _, last⟩
  refine ⟨?_, ?_, ?_⟩
  · intro cell inside
    exact (starts.inside cell.2 _ inside.2.1 (member cell.1 cell.2 inside).2).2
  · intro cell inside other inside' same
    obtain ⟨first, here⟩ := member cell.1 cell.2 inside
    obtain ⟨first', there⟩ := member other.1 other.2 inside'
    have sameColumn : cell.2 = other.2 := by
      by_contra different
      have disjoint := starts.apart cell.2 other.2 inside.2.1 inside'.2.1 different
      exact Set.disjoint_left.mp disjoint here (by rw [show packedIndex uplo n cell.1 cell.2 = _ from same]; exact there)
    have slots : packedIndex uplo n cell.1 cell.2 = packedIndex uplo n other.1 other.2 := same
    rw [packed_index_stored uplo n _ _ inside.2.2, packed_index_stored uplo n _ _ inside'.2.2, ← sameColumn] at slots
    rw [← sameColumn] at first'
    have sameRow : cell.1 = other.1 := by omega
    exact Prod.ext sameRow sameColumn
  · intro slot small
    obtain ⟨col, inColumns, lower, upper⟩ := starts.owner slot (Nat.zero_le slot) small
    have address : packedStart uplo n col + (packedFirst uplo col + (slot - packedStart uplo n col) - packedFirst uplo
      col) = slot := by
      omega
    have cell := (packed_column_rows uplo n (packedFirst uplo col + (slot - packedStart uplo n col)) col inColumns).mpr
      ⟨Nat.le_add_right _ _, by rw [address]; exact upper⟩
    refine ⟨(packedFirst uplo col + (slot - packedStart uplo n col), col), ⟨cell.1, inColumns, cell.2⟩, ?_⟩
    exact (packed_index_stored uplo n _ col cell.2).trans address

theorem packed_index_mirrored (uplo : Triangle) (n row col : Nat) :
    packedIndex uplo n row col = packedIndex uplo n col row := by
  rcases Nat.lt_trichotomy row col with below | same | above
  · cases uplo with
    | upper => simp only [packedIndex, if_pos below.le, if_neg (Nat.not_le.mpr below)]
    | lower => simp only [packedIndex, ge_iff_le, if_pos below.le, if_neg (Nat.not_le.mpr below)]
  · rw [same]
  · cases uplo with
    | upper => simp only [packedIndex, if_pos above.le, if_neg (Nat.not_le.mpr above)]
    | lower => simp only [packedIndex, ge_iff_le, if_pos above.le, if_neg (Nat.not_le.mpr above)]

theorem tri_packed_index (uplo : Triangle) (n row col : Nat) :
    triPackedIndex uplo n row col = if stored uplo row col then some (packedIndex uplo n row col) else none := by
  cases uplo with
  | upper =>
    by_cases above : row ≤ col
    · simp only [triPackedIndex, packedIndex, stored, gt_iff_lt, Nat.not_lt.mpr above, above, if_false, if_true, decide_true]
    · simp only [triPackedIndex, stored, gt_iff_lt, Nat.lt_of_not_le above, above, if_true, decide_false,
        Bool.false_eq_true, if_false]
  | lower =>
    by_cases below : row ≥ col
    · simp only [triPackedIndex, packedIndex, stored, Nat.not_lt.mpr below, below, if_false, if_true, decide_true]
    · simp only [triPackedIndex, stored, Nat.lt_of_not_le below, below, if_true, decide_false, Bool.false_eq_true, if_false]

theorem packed_steps (uplo : Triangle) (n col : Nat) (small : col < n) : PackedSteps uplo n col := by
  have square : col * (col + 1) ≤ n * (n + 1) := Nat.mul_le_mul small.le (Nat.succ_le_succ small.le)
  have half : col * (col + 1) / 2 ≤ col * n := by
    have wide : col * (col + 1) ≤ col * n := Nat.mul_le_mul_left col small
    exact (Nat.div_le_self _ 2).trans wide
  have lower : col * (2 * n - col + 1) ≤ n * (n + 1) := by
    obtain ⟨rest, rfl⟩ := Nat.exists_eq_add_of_lt small
    have here : 2 * (col + rest + 1) - col + 1 = col + 2 * rest + 3 := by omega
    rw [here]
    nlinarith
  exact ⟨by omega, fun _ => square, fun _ => lower, half⟩

theorem packed_map (uplo : Triangle) (n : Nat) : PackedMap uplo n :=
  ⟨packed_index_bijective uplo n, packed_index_mirrored uplo n, tri_packed_index uplo n, packed_steps uplo n⟩

theorem column_slot_bound (lda : Int) (n offset col : Nat) (inColumn : (offset : Int) < lda) (inColumns : col < n) :
    ((offset + col * toUsize lda : Nat) : Int) < lda * n := by
  obtain ⟨width, rfl⟩ := Int.eq_ofNat_of_zero_le (show 0 ≤ lda by omega)
  have wide : offset < width := by exact_mod_cast inColumn
  have next : (col + 1) * width ≤ n * width := Nat.mul_le_mul_right width inColumns
  have natural : offset + col * width < width * n := by
    rw [Nat.mul_comm width n]
    rw [Nat.succ_mul] at next
    omega
  simp only [toUsize, Int.toNat_natCast]
  exact_mod_cast natural

theorem column_slots_differ (lda : Int) (offset offset' col col' : Nat) (inColumn : (offset : Int) < lda)
    (inColumn' : (offset' : Int) < lda) (same : offset + col * toUsize lda = offset' + col' * toUsize lda) :
    offset = offset' ∧ col = col' := by
  have small : offset < toUsize lda := by simp only [toUsize]; omega
  have small' : offset' < toUsize lda := by simp only [toUsize]; omega
  have cells : (offset, col) = (offset', col') := mat_index_injective lda (toUsize lda) (Nat.le_refl _) small small' same
  exact ⟨congrArg Prod.fst cells, congrArg Prod.snd cells⟩

theorem column_slots (index : Nat → Nat → Option Nat) (cells : Set (Nat × Nat)) (lda : Int) (n : Nat)
    (offset : Nat → Nat → Nat)
    (slots : ∀ row col, (row, col) ∈ cells → index row col = some (offset row col + col * toUsize lda))
    (inColumn : ∀ row col, (row, col) ∈ cells → (offset row col : Int) < lda ∧ col < n)
    (distinct : ∀ row row' col, (row, col) ∈ cells → (row', col) ∈ cells → offset row col = offset row' col → row = row') :
    SlotMap index cells (lda * n) := by
  refine ⟨?_, ?_⟩
  · intro cell inside
    obtain ⟨small, inColumns⟩ := inColumn cell.1 cell.2 inside
    exact ⟨_, slots cell.1 cell.2 inside, column_slot_bound lda n _ _ small inColumns⟩
  · intro cell inside other inside' same
    have equal : index cell.1 cell.2 = index other.1 other.2 := same
    rw [slots cell.1 cell.2 inside, slots other.1 other.2 inside'] at equal
    obtain ⟨sameOffset, sameColumn⟩ := column_slots_differ lda _ _ _ _ (inColumn cell.1 cell.2 inside).1
      (inColumn other.1 other.2 inside').1 (Option.some.inj equal)
    rw [← sameColumn] at sameOffset
    have aligned : (other.1, cell.2) ∈ cells := by rw [sameColumn]; exact inside'
    exact Prod.ext (distinct cell.1 other.1 cell.2 inside aligned sameOffset) sameColumn

def bandOffset (uplo : Triangle) (k row col : Nat) : Nat :=
  match uplo with
  | .upper => k + row - col
  | .lower => row - col

theorem tri_band_index_stored (uplo : Triangle) (n k : Nat) (lda : Int) (row col : Nat) (inside : (row, col) ∈ storedBand uplo n k) :
    triBandIndex uplo k lda row col = some (bandOffset uplo k row col + col * toUsize lda) := by
  obtain ⟨⟨_, _, kept⟩, _, _, above, below⟩ := inside
  rw [stored_iff] at kept
  simp only [] at above below kept
  cases uplo with
  | upper =>
    have order : row ≤ col := by simpa using kept
    rw [triBandIndex, if_neg (by omega)]
    rfl
  | lower =>
    have order : row ≥ col := by simpa using kept
    rw [triBandIndex, if_neg (by omega)]
    rfl

theorem sym_band_index_stored (uplo : Triangle) (k : Nat) (lda : Int) (row col : Nat) (inside : stored uplo row col = true) :
    symBandIndex uplo k lda row col = triBandIndex uplo k lda row col := by
  cases uplo with
  | upper =>
    have above : row ≤ col := of_decide_eq_true inside
    simp only [symBandIndex, triBandIndex, if_pos above, gt_iff_lt, Nat.not_lt.mpr above, false_or]
  | lower =>
    have below : row ≥ col := of_decide_eq_true inside
    simp only [symBandIndex, triBandIndex, if_pos below, Nat.not_lt.mpr below, false_or]

theorem sym_band_index_mirrored (uplo : Triangle) (k : Nat) (lda : Int) (row col : Nat) :
    symBandIndex uplo k lda row col = symBandIndex uplo k lda col row := by
  rcases Nat.lt_trichotomy row col with below | same | above
  · cases uplo with
    | upper => simp only [symBandIndex, if_pos below.le, if_neg (Nat.not_le.mpr below)]
    | lower => simp only [symBandIndex, ge_iff_le, if_pos below.le, if_neg (Nat.not_le.mpr below)]
  · rw [same]
  · cases uplo with
    | upper => simp only [symBandIndex, if_pos above.le, if_neg (Nat.not_le.mpr above)]
    | lower => simp only [symBandIndex, ge_iff_le, if_pos above.le, if_neg (Nat.not_le.mpr above)]

theorem tri_band_map (uplo : Triangle) (n k : Nat) (lda : Int) (fits : (k : Int) + 1 ≤ lda) :
    SlotMap (triBandIndex uplo k lda) (storedBand uplo n k) (lda * n) := by
  apply column_slots (triBandIndex uplo k lda) (storedBand uplo n k) lda n (bandOffset uplo k)
  · intro row col inside
    exact tri_band_index_stored uplo n k lda row col inside
  · intro row col inside
    obtain ⟨⟨_, inColumns, kept⟩, _, _, above, below⟩ := inside
    simp only [] at inColumns kept above below
    refine ⟨?_, inColumns⟩
    cases uplo with
    | upper =>
      have order : row ≤ col := of_decide_eq_true kept
      simp only [bandOffset]
      omega
    | lower =>
      simp only [bandOffset]
      omega
  · intro row row' col inside inside' same
    obtain ⟨⟨_, _, kept⟩, _, _, above, _⟩ := inside
    obtain ⟨⟨_, _, kept'⟩, _, _, above', _⟩ := inside'
    simp only [] at kept kept' above above'
    cases uplo with
    | upper =>
      simp only [bandOffset] at same
      omega
    | lower =>
      have order : row ≥ col := of_decide_eq_true kept
      have order' : row' ≥ col := of_decide_eq_true kept'
      simp only [bandOffset] at same
      omega

theorem sym_band_map (uplo : Triangle) (n k : Nat) (lda : Int) (fits : (k : Int) + 1 ≤ lda) :
    SlotMap (symBandIndex uplo k lda) (storedBand uplo n k) (lda * n) := by
  have map := tri_band_map uplo n k lda fits
  have agrees : ∀ cell ∈ storedBand uplo n k, symBandIndex uplo k lda cell.1 cell.2 = triBandIndex uplo k lda cell.1 cell.2 :=
    fun cell inside => sym_band_index_stored uplo k lda cell.1 cell.2 inside.1.2.2
  refine ⟨?_, ?_⟩
  · intro cell inside
    rw [agrees cell inside]
    exact map.inside cell inside
  · intro cell inside other inside' same
    have equal : symBandIndex uplo k lda cell.1 cell.2 = symBandIndex uplo k lda other.1 other.2 := same
    rw [agrees cell inside, agrees other inside'] at equal
    exact map.injective inside inside' equal

theorem band_general_map (m n kl ku : Nat) (lda : Int) (fits : (kl : Int) + ku + 1 ≤ lda) :
    SlotMap (bandGeneralIndex kl ku lda) (bandCells m n kl ku) (lda * n) := by
  apply column_slots (bandGeneralIndex kl ku lda) (bandCells m n kl ku) lda n (fun row col => ku + row - col)
  · intro row col inside
    obtain ⟨_, _, above, below⟩ := inside
    simp only [] at above below
    rw [bandGeneralIndex, if_neg (by omega), if_neg (by omega)]
  · intro row col inside
    obtain ⟨_, inColumns, above, below⟩ := inside
    simp only [] at above below inColumns
    exact ⟨by omega, inColumns⟩
  · intro row row' col inside inside' same
    obtain ⟨_, _, above, _⟩ := inside
    obtain ⟨_, _, above', _⟩ := inside'
    simp only [] at above above' same
    omega

theorem row_major_packed (uplo : Triangle) (n row col : Nat) (inRows : row < n) (inColumns : col < n) :
    rowMajorTriPackedIndex (cblasUplo uplo) n row col = triPackedIndex (flipped uplo) n col row := by
  cases uplo with
  | upper =>
    by_cases below : row > col
    · simp only [rowMajorTriPackedIndex, cblasUplo, if_true, if_pos below, flipped, triPackedIndex]
    · have half : row * (2 * n - row + 1) = 2 * (row * n - row * (row + 1) / 2 + row) := by
        obtain ⟨rest, rfl⟩ := Nat.exists_eq_add_of_lt inRows
        have here : 2 * (row + rest + 1) - row + 1 = row + 2 * rest + 3 := by omega
        obtain ⟨total, even⟩ := (Nat.even_mul_succ_self row).two_dvd
        have wide : row * (row + rest + 1) = row * (row + 1) + row * rest := by ring
        have expanded : row * (row + 2 * rest + 3) = row * (row + 1) + 2 * (row * rest) + 2 * row := by ring
        rw [here, expanded, wide, even]
        omega
      simp only [rowMajorTriPackedIndex, cblasUplo, if_true, if_neg below, flipped, triPackedIndex]
      rw [half, Nat.mul_div_cancel_left _ Nat.two_pos]
      congr 1
      omega
  | lower =>
    by_cases above : row < col
    · simp only [rowMajorTriPackedIndex, cblasUplo, cblasUpper, cblasLower, Int.reduceEq, if_false, if_pos above, flipped,
        triPackedIndex, gt_iff_lt]
    · simp only [rowMajorTriPackedIndex, cblasUplo, cblasUpper, cblasLower, Int.reduceEq, if_false, if_neg above, flipped,
        triPackedIndex, gt_iff_lt]

theorem row_major_band (uplo : Triangle) (k : Nat) (lda : Int) (row col : Nat) :
    rowMajorTriBandIndex (cblasUplo uplo) k lda row col = triBandIndex (flipped uplo) k lda col row := by
  cases uplo with
  | upper =>
    simp only [rowMajorTriBandIndex, cblasUplo, if_true, flipped, triBandIndex, gt_iff_lt]
    rw [Nat.add_comm (row * toUsize lda)]
  | lower =>
    simp only [rowMajorTriBandIndex, cblasUplo, cblasUpper, cblasLower, Int.reduceEq, if_false, flipped, triBandIndex, gt_iff_lt]
    rw [Nat.add_comm (row * toUsize lda)]

theorem index_maps_exact :
    (∀ (uplo : Triangle) (n : Nat), PackedMap uplo n) ∧
    (∀ (uplo : Triangle) (n k : Nat) (lda : Int), (k : Int) + 1 ≤ lda →
      SlotMap (triBandIndex uplo k lda) (storedBand uplo n k) (lda * n) ∧
      SlotMap (symBandIndex uplo k lda) (storedBand uplo n k) (lda * n) ∧
      ∀ row col, symBandIndex uplo k lda row col = symBandIndex uplo k lda col row) ∧
    (∀ (m n kl ku : Nat) (lda : Int), (kl : Int) + ku + 1 ≤ lda →
      SlotMap (bandGeneralIndex kl ku lda) (bandCells m n kl ku) (lda * n)) ∧
    (∀ (uplo : Triangle) (n row col : Nat), row < n → col < n →
      rowMajorTriPackedIndex (cblasUplo uplo) n row col = triPackedIndex (flipped uplo) n col row) ∧
    (∀ (uplo : Triangle) (k : Nat) (lda : Int) (row col : Nat),
      rowMajorTriBandIndex (cblasUplo uplo) k lda row col = triBandIndex (flipped uplo) k lda col row) := by
  refine ⟨packed_map, ?_, band_general_map, row_major_packed, row_major_band⟩
  intro uplo n k lda fits
  exact ⟨tri_band_map uplo n k lda fits, sym_band_map uplo n k lda fits, sym_band_index_mirrored uplo k lda⟩

-- A triangle of order five, two diagonals of a triangle of order six in rows of four, four diagonals of a 4 by 7 band.
theorem index_maps_exact_small :
    PackedMap .lower 5 ∧ SlotMap (triBandIndex .upper 2 4) (storedBand .upper 6 2) (4 * (6 : Nat)) ∧
      SlotMap (bandGeneralIndex 1 2 5) (bandCells 4 7 1 2) (5 * (7 : Nat)) ∧
      rowMajorTriPackedIndex cblasUpper 5 1 3 = triPackedIndex .lower 5 3 1 :=
  ⟨index_maps_exact.1 .lower 5, (index_maps_exact.2.1 .upper 6 2 4 (by decide)).1,
    index_maps_exact.2.2.1 4 7 1 2 5 (by decide), index_maps_exact.2.2.2.1 .upper 5 1 3 (by decide) (by decide)⟩

end Zynum
