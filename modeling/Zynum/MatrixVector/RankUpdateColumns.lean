import Zynum.MatrixVector.RankUpdate
import Zynum.Foundation.Spans
import Zynum.MatrixMatrix.RankUpdateAgree

set_option autoImplicit false

/- The columns of a rank update: a two-column or four-column panel with its fringes
   writes what the columns one by one would. -/
namespace Zynum

open ArrayProgram

section Storage

variable (store : RankStorage) (uplo : Triangle) (n : Nat)

def RankStorage.place (cell : Nat × Nat) : Nat := store.index uplo n cell.1 cell.2

def RankStorage.Fits (store : RankStorage) (n : Nat) : Prop :=
  match store with
  | .dense lda => n ≤ toUsize lda
  | .packed => True

variable {store n}

theorem place_injective (fits : store.Fits n) : Set.InjOn (store.place uplo n) (storedCells uplo n) := by
  cases store with
  | dense lda => exact (mat_index_injective lda n fits).mono (fun _ member => member.1)
  | packed => exact (packed_index_bijective uplo n).injOn

theorem index_step (col row step : Nat) (first : stored uplo row col = true) (last : stored uplo (row + step) col = true) :
    store.index uplo n (row + step) col = store.index uplo n row col + step := by
  cases store with
  | dense lda => exact Nat.add_right_comm row step _
  | packed =>
    have low : packedFirst uplo col ≤ row := by
      rw [stored_iff] at first
      cases uplo with
      | upper => exact Nat.zero_le row
      | lower => exact (first.resolve_left (fun other => by cases other.1)).2
    change packedIndex uplo n (row + step) col = packedIndex uplo n row col + step
    rw [packed_index_stored uplo n _ col first, packed_index_stored uplo n _ col last]
    omega

end Storage

def columnCells (col first last : Nat) : Set (Nat × Nat) := {cell | cell.2 = col ∧ first ≤ cell.1 ∧ cell.1 < last}

variable {T : Type} [CommRing T] [Scalar T]

section Operation

variable (operation : DenseRankOperation) (alpha : T) (x y : Nat → T)

def DenseRankOperation.hermitian (operation : DenseRankOperation) : Bool := operation = .her || operation = .her2

-- alpha x x^T, alpha x x^H, alpha x y^T + alpha y x^T, or alpha x y^H + conj(alpha) y x^H.
def DenseRankOperation.added (i j : Nat) : T :=
  match operation with
  | .syr => x i * (alpha * x j)
  | .her => x i * (alpha * conj (x j))
  | .syr2 => x i * (alpha * y j) + y i * (alpha * x j)
  | .her2 => x i * (alpha * conj (y j)) + y i * (conj alpha * conj (x j))

def clearedIf (cleared : Bool) (value : T) : T := if cleared then realOnly value else value

def DenseRankOperation.target (cell : Nat × Nat) (old : T) : T :=
  clearedIf (operation.hermitian && cell.1 = cell.2) (old + operation.added alpha x y cell.1 cell.2)

end Operation

section Segments

variable {store : RankStorage} {uplo : Triangle} {n : Nat}

omit [CommRing T] [Scalar T] in
-- A run over consecutive slots of a column is one over the cells of these rows.
theorem segment_updates {col first count : Nat} {value : Nat → T → T} {value' : Nat × Nat → T → T} {run : Mem T → Mem T}
    (rows : ∀ i, i < count → stored uplo (first + i) col = true)
    (updates : Updates (Set.Iio count) (fun i => store.index uplo n first col + i) value run)
    (same : ∀ i old, i < count → value i old = value' (first + i, col) old) :
    Updates (columnCells col first (first + count)) (store.place uplo n) value' run := by
  have moved : Updates (Set.Iio count) (fun i => store.place uplo n (first + i, col)) (fun i => value' (first + i, col)) run := by
    refine (updates.congr rfl (fun i old small => same i old small)).congr_address (fun i small => ?_)
    have some : 0 < count := Nat.zero_lt_of_lt small
    exact index_step uplo col first i (rows 0 some) (rows i small)
  refine (Updates.reindex (fun i => (first + i, col)) moved).congr ?_ (fun _ _ _ => rfl)
  ext cell
  constructor
  · rintro ⟨i, small, rfl⟩
    exact ⟨rfl, Nat.le_add_right first i, Nat.add_lt_add_left small first⟩
  · rintro ⟨rfl, lower, upper⟩
    exact ⟨cell.1 - first, (by omega : cell.1 - first < count), Prod.ext (Nat.add_sub_cancel' lower) rfl⟩

variable [LawfulScalar T]

theorem rank_two_column_updates (rt : Runtime) (site : Site) (count : Nat) (cx : T) (x : Mem T) (xStart : Nat) (cy : T)
    (y : Mem T) (yStart start : Nat) :
    Updates (Set.Iio count) (fun i => start + i) (fun i old => old + cx * x (xStart + i) + cy * y (yStart + i))
      (fun dest => rankTwoColumn rt site count cx x xStart cy y yStart dest start) := by
  have first : ∀ site, Updates (Set.Iio count) (fun i => start + i) (fun i old => old + cx * x (xStart + i))
      (fun dest => axpy rt site count cx x xStart 1 dest start 1) := fun site => axpy_unit_updates rt site count cx x xStart start
  have second : ∀ site, Updates (Set.Iio count) (fun i => start + i) (fun i old => old + cy * y (yStart + i))
      (fun dest => axpy rt site count cy y yStart 1 dest start 1) := fun site => axpy_unit_updates rt site count cy y yStart start
  have idle : Updates (Set.Iio count) (fun i => start + i) (fun _ old => (old : T)) (fun dest => dest) := updates_same _ _
  have zero : ∀ {value : T}, isZero value = true → ∀ factor : T, value * factor = 0 := by
    intro value nothing factor
    rw [(LawfulScalar.isZero_iff value).mp nothing, zero_mul]
  refine updates_guard _ (fun other => ?_) (fun x86 => ?_)
  · have left : Updates (Set.Iio count) (fun i => start + i) (fun i old => old + cx * x (xStart + i))
        (fun dest => if isZero cx then dest else axpy rt (0 :: site) count cx x xStart 1 dest start 1) :=
      updates_guard _ (fun nothing => idle.congr rfl (fun i old _ => by rw [zero nothing, add_zero])) (fun _ => first _)
    have right : Updates (Set.Iio count) (fun i => start + i) (fun i old => old + cy * y (yStart + i))
        (fun dest => if isZero cy then dest else axpy rt (1 :: site) count cy y yStart 1 dest start 1) :=
      updates_guard _ (fun nothing => idle.congr rfl (fun i old _ => by rw [zero nothing, add_zero])) (fun _ => second _)
    exact left.then_same right
  refine updates_guard _ (fun nothing => ?_) (fun _ => ?_)
  · exact (second _).congr rfl (fun i old _ => by rw [zero nothing, add_zero])
  refine updates_guard _ (fun nothing => ?_) (fun _ => ?_)
  · exact (first _).congr rfl (fun i old _ => by rw [zero nothing, add_zero])
  · exact updates_elementwise count (fun i => start + i) _ (start_injective start _)

end Segments

section Panel

variable {columns n : Nat} {dest : Nat → Nat}

def panelCells (n columns : Nat) : Set (Nat × Nat) := {cell | cell.1 < n ∧ cell.2 < columns}

omit [Scalar T] in
theorem rank_two_rows_updates (cx : Nat → T) (x : Mem T) (xStart : Nat) (cy : Nat → T) (y : Mem T) (yStart count i : Nat)
    (inside : i + count ≤ n) (injective : Set.InjOn (fun cell : Nat × Nat => dest cell.2 + cell.1) (panelCells n columns)) :
    Updates (spanOf (panelCells n columns) Prod.fst i (i + count)) (fun cell => dest cell.2 + cell.1)
      (fun cell old => old + cx cell.2 * x (xStart + cell.1) + cy cell.2 * y (yStart + cell.1))
      (rankTwoRows columns cx x xStart cy y yStart dest count i) := by
  refine Updates.loop_by_class _ Prod.snd columns _ (fun col small => ?_) (fun cell member => member.1.2)
    (injective.mono (span_inside _ _))
  refine (Updates.reindex (fun lane => (i + lane, col)) (updates_elementwise count (fun lane => dest col + (i + lane))
    (fun lane old => old + cx col * x (xStart + (i + lane)) + cy col * y (yStart + (i + lane))) ?_)).congr ?_ (fun _ _ _ => rfl)
  · intro lane _ lane' _ same
    have equal : dest col + (i + lane) = dest col + (i + lane') := same
    omega
  · ext cell
    constructor
    · rintro ⟨lane, low, rfl⟩
      have below : lane < count := low
      exact ⟨⟨⟨(by omega : i + lane < n), small⟩, Nat.le_add_right i lane, Nat.add_lt_add_left below i⟩, rfl⟩
    · rintro ⟨⟨_, lower, upper⟩, rfl⟩
      exact ⟨cell.1 - i, (by omega : cell.1 - i < count), Prod.ext (Nat.add_sub_cancel' lower) rfl⟩

omit [CommRing T] [Scalar T] in
-- Rows in blocks of vectors, in vectors, in half a vector and one by one.
theorem cut_rows_updates {address : Nat × Nat → Nat} {value : Nat × Nat → T → T} {rows : Nat → Nat → Mem T → Mem T}
    (wide narrow : Bool) (rowVectors width : Nat) (each : ∀ count i, i + count ≤ n →
      Updates (spanOf (panelCells n columns) Prod.fst i (i + count)) address value (rows count i))
    (injective : Set.InjOn address (panelCells n columns)) :
    let first := if wide then fitEnd 0 n (rowVectors * width) else 0
    let second := fitEnd first n width
    let half := narrow && second + width / 2 ≤ n
    let third := if half then second + width / 2 else second
    Updates (panelCells n columns) address value (fun a =>
      let blocks := if wide then fitLoop 0 n (rowVectors * width) (fun i => loop rowVectors (fun step =>
        rows width (i + step * width))) a else a
      let vectors := fitLoop first n width (rows width) blocks
      loopRange third n (rows 1) (if half then rows (width / 2) second vectors else vectors)) := by
  intro first second half third
  have head : first ≤ n ∧ Updates (spanOf (panelCells n columns) Prod.fst 0 first) address value (fun a =>
      if wide then fitLoop 0 n (rowVectors * width) (fun i => loop rowVectors (fun step => rows width (i + step * width))) a
      else a) := by
    cases wide with
    | true =>
      have spans : Updates (spanOf (panelCells n columns) Prod.fst 0 (fitEnd 0 n (rowVectors * width))) address value
          (fitLoop 0 n (rowVectors * width) (fun i => loop rowVectors (fun step => rows width (i + step * width)))) := by
        refine Updates.span_fit 0 n _ (fun i _ inside => ?_) injective
        refine Updates.span_blocks i rowVectors width (fun step small => each width _ ?_) injective
        have next : (step + 1) * width ≤ rowVectors * width := Nat.mul_le_mul_right width small
        rw [Nat.succ_mul] at next
        omega
      exact ⟨(fit_end_inside 0 n _ (Nat.zero_le n)).2, spans⟩
    | false => exact ⟨Nat.zero_le n, updates_empty_span 0 0 (Nat.le_refl 0)⟩
  obtain ⟨lower, upper⟩ : first ≤ second ∧ second ≤ n := fit_end_inside first n width head.1
  have vectors : Updates (spanOf (panelCells n columns) Prod.fst first second) address value _ :=
    Updates.span_fit first n width (fun i _ inside => each width i inside) injective
  have rest : second ≤ third ∧ third ≤ n ∧ Updates (spanOf (panelCells n columns) Prod.fst second third) address value
      (fun a => if half then rows (width / 2) second a else a) := by
    cases fits : half with
    | true =>
      have ended : third = second + width / 2 := if_pos fits
      have inside : second + width / 2 ≤ n := of_decide_eq_true ((Bool.and_eq_true _ _).mp fits).2
      rw [ended]
      exact ⟨Nat.le_add_right _ _, inside, each (width / 2) second inside⟩
    | false =>
      have ended : third = second := if_neg (fun taken => by cases fits.symm.trans taken)
      rw [ended]
      exact ⟨Nat.le_refl _, upper, updates_empty_span _ _ (Nat.le_refl _)⟩
  have tail : Updates (spanOf (panelCells n columns) Prod.fst third n) address value (loopRange third n (rows 1)) :=
    Updates.span_range third n (fun i _ small => each 1 i small) injective
  have body := (head.2.span_append vectors (Nat.zero_le first) lower injective).span_append rest.2.2 (Nat.zero_le second)
    rest.1 injective
  have whole := body.span_append tail (Nat.zero_le third) rest.2.1 injective
  rw [span_everything n (fun _ member => member.1)] at whole
  exact whole

theorem rank_two_panel_updates (isPacked : Bool) (cx : Nat → T) (x : Mem T) (xStart : Nat) (cy : Nat → T) (y : Mem T)
    (yStart : Nat) (injective : Set.InjOn (fun cell : Nat × Nat => dest cell.2 + cell.1) (panelCells n columns)) :
    Updates (panelCells n columns) (fun cell => dest cell.2 + cell.1)
      (fun cell old => old + cx cell.2 * x (xStart + cell.1) + cy cell.2 * y (yStart + cell.1))
      (rankTwoPanel columns isPacked n cx x xStart cy y yStart dest) :=
  cut_rows_updates (isReal T && (columns = 2 || (Scalar.precision T = .double && isPacked)))
    (isReal T && Scalar.precision T = .single) (if columns = 2 then 4 else 2) (32 / sizeOf T)
    (fun count i inside => rank_two_rows_updates cx x xStart cy y yStart count i inside injective) injective

end Panel

section Columns

variable {store : RankStorage} {uplo : Triangle} {n : Nat}

theorem column_cells (j : Nat) (inside : j < n) :
    columnCells j (storedFirst uplo j) (storedEnd uplo n j) = spanOf (storedCells uplo n) Prod.snd j (j + 1) := by
  ext cell
  constructor
  · rintro ⟨rfl, rows⟩
    have kept := (stored_rows uplo n cell.1 cell.2 inside).mp rows
    exact ⟨⟨kept.1, inside, kept.2⟩, Nat.le_refl _, Nat.lt_succ_self _⟩
  · intro member
    have same : cell.2 = j := Nat.le_antisymm (Nat.le_of_lt_succ member.2.2) member.2.1
    subst same
    exact ⟨rfl, (stored_rows uplo n cell.1 cell.2 inside).mpr ⟨member.1.1, member.1.2.2⟩⟩

theorem stored_order (j : Nat) (inside : j < n) : storedFirst uplo j ≤ storedEnd uplo n j := by
  cases uplo with
  | upper => exact Nat.zero_le _
  | lower => exact inside.le

omit [CommRing T] [Scalar T] in
-- One pass over a whole column.
theorem whole_column_updates {value : Nat → T → T} {value' : Nat × Nat → T → T} {run : Mem T → Mem T} (j : Nat) (inside : j < n)
    (updates : Updates (Set.Iio (storedEnd uplo n j - storedFirst uplo j))
      (fun i => store.index uplo n (storedFirst uplo j) j + i) value run)
    (same : ∀ i old, value i old = value' (storedFirst uplo j + i, j) old) :
    Updates (spanOf (storedCells uplo n) Prod.snd j (j + 1)) (store.place uplo n) value' run := by
  have ordered : storedFirst uplo j ≤ storedEnd uplo n j := stored_order j inside
  have whole := segment_updates (fun i small => ((stored_rows uplo n _ j inside).mp ⟨Nat.le_add_right _ i, by omega⟩).2)
    updates (fun i old _ => same i old)
  rw [Nat.add_sub_cancel' ordered, column_cells j inside] at whole
  exact whole

omit [CommRing T] in
theorem diagonal_updates (fits : store.Fits n) (j : Nat) (inside : j < n) :
    Updates (spanOf (storedCells uplo n) Prod.snd j (j + 1)) (store.place uplo n)
      (fun cell (old : T) => clearedIf (cell.1 = cell.2) old)
      (fun a => Function.update a (store.index uplo n j j) (realOnly (a (store.index uplo n j j)))) := by
  have point : Updates {(j, j)} (store.place uplo n) (fun cell (old : T) => clearedIf (cell.1 = cell.2) old)
      (fun a => Function.update a (store.index uplo n j j) (realOnly (a (store.index uplo n j j)))) :=
    (updates_point (j, j) (store.place uplo n) (fun _ old => realOnly old)).congr rfl (fun cell old member => by
      rw [show cell = (j, j) from member, clearedIf, decide_eq_true rfl, if_pos rfl])
  refine point.extend (fun cell member => ?_) ((place_injective uplo fits).mono (span_inside _ _)) (fun cell old member off => ?_)
  · rw [show cell = (j, j) from member]
    exact ⟨⟨inside, inside, stored_diagonal uplo j⟩, Nat.le_refl j, Nat.lt_succ_self j⟩
  · have column : cell.2 = j := Nat.le_antisymm (Nat.le_of_lt_succ member.2.2) member.2.1
    have different : cell.1 ≠ cell.2 := fun same => off (Prod.ext (same.trans column) column)
    rw [clearedIf, decide_eq_false different]
    rfl

end Columns

end Zynum
