import Zynum.Vector.Stride2Dispatch
import Zynum.Vector.Elementwise

set_option autoImplicit false

/- Which cells the loops of a route touch: inside a set when every block lies in
   it, and the cells of each block on every run. -/
namespace Zynum.LevelOne

open ArrayProgram

section Inside

variable {α R A : Type} [Zero R] {allowed : Set α}

theorem within_load_cells (size : Nat) (place : Nat → α) (inside : ∀ lane, lane < size → place lane ∈ allowed) :
    (loadCells size place : Program α R _).Within allowed (fun _ => True) :=
  Program.within_fold allowed (fun _ => True) size _ _ trivial
    (fun lane _ small _ => ⟨inside lane small, fun _ => trivial⟩)

theorem within_load_active (size : Nat) (active : Nat → Bool) (place : Nat → α)
    (inside : ∀ lane, lane < size → place lane ∈ allowed) :
    (loadActive size active place : Program α R _).Within allowed (fun _ => True) := by
  refine Program.within_fold allowed (fun _ => True) size _ _ trivial (fun lane _ small _ => ?_)
  cases active lane with
  | true => exact ⟨inside lane small, fun _ => trivial⟩
  | false => exact ⟨inside lane small, trivial⟩

omit [Zero R] in
theorem within_store_cells (size : Nat) (place : Nat → α) (values : Nat → R)
    (inside : ∀ lane, lane < size → place lane ∈ allowed) :
    (storeCells size place values).Within allowed (fun _ => True) :=
  Program.within_fold allowed (fun _ => True) size _ _ trivial (fun lane _ small _ => ⟨inside lane small, trivial⟩)

-- The whole span of a block, gaps included.
def WindowInside (x : Operand α) (allowed : Set α) (piece : Piece) : Prop :=
  ∀ lane, lane < piece.size x.width → x.window piece lane ∈ allowed

variable {x y : Operand α} {piece : Piece}

theorem within_load_block (inside : WindowInside x allowed piece) :
    (loadBlock x piece : Program α R _).Within allowed (fun _ => True) := within_load_cells _ _ inside

theorem within_load_elements (inside : WindowInside x allowed piece) :
    (loadElements x piece : Program α R _).Within allowed (fun _ => True) := within_load_active _ _ _ inside

theorem within_update_one (apply : (Nat → R) → Nat → R) (inside : WindowInside x allowed piece) :
    (updateOne apply x piece).Within allowed (fun _ => True) :=
  (within_load_block inside).bind (fun _ _ => within_store_cells _ _ _ inside)

theorem within_update_second (apply : (Nat → R) → (Nat → R) → Nat → R) (insideX : WindowInside x allowed piece)
    (insideY : WindowInside y allowed piece) : (updateSecond apply x y piece).Within allowed (fun _ => True) :=
  (within_load_elements insideX).bind (fun _ _ =>
    (within_load_block insideY).bind (fun _ _ => within_store_cells _ _ _ insideY))

theorem within_update_both (applyX applyY : (Nat → R) → (Nat → R) → Nat → R) (insideX : WindowInside x allowed piece)
    (insideY : WindowInside y allowed piece) : (updateBoth applyX applyY x y piece).Within allowed (fun _ => True) :=
  (within_load_block insideX).bind (fun _ _ => (within_load_block insideY).bind (fun _ _ =>
    (within_store_cells _ _ _ insideX).bind (fun _ _ => within_store_cells _ _ _ insideY)))

theorem within_copy_block (insideX : WindowInside x allowed piece) (insideY : WindowInside y allowed piece) :
    (copyBlock x y piece : Program α R Unit).Within allowed (fun _ => True) :=
  (within_load_block insideX).bind (fun _ _ => within_store_cells _ _ _ insideY)

theorem within_sum_one [Zero A] [Add A] (term : (Nat → R) → A) (sum : A) (inside : WindowInside x allowed piece) :
    (sumOne term x piece sum).Within allowed (fun _ => True) :=
  (within_load_elements inside).bind (fun _ _ => trivial)

theorem within_sum_two [Zero A] [Add A] (term : (Nat → R) → (Nat → R) → A) (sum : A)
    (insideX : WindowInside x allowed piece) (insideY : WindowInside y allowed piece) :
    (sumTwo term x y piece sum).Within allowed (fun _ => True) :=
  (within_load_elements insideX).bind (fun _ _ => (within_load_elements insideY).bind (fun _ _ => trivial))

omit [Zero R] in
theorem within_items (pieces : List Piece) (body : Piece → A → Program α R A) (initial : A)
    (inside : ∀ piece state, piece ∈ pieces → (body piece state).Within allowed (fun _ => True)) :
    (Program.foldItems pieces body initial).Within allowed (fun _ => True) :=
  Program.within_fold_items allowed (fun _ => True) pieces body initial trivial
    (fun piece state member _ => inside piece state member)

end Inside

section Touching

variable {α R A B : Type} [DecidableEq α] {place : α}

-- Touched on every run, whatever the memory holds.
def Touches (program : Program α R A) (place : α) : Prop := ∀ memory, place ∈ program.touched memory

theorem touches_first {first : Program α R A} (next : A → Program α R B) (touches : Touches first place) :
    Touches (first.bind next) place := by
  intro memory
  rw [Program.touched_bind]
  exact .inl (touches memory)

theorem touches_next (first : Program α R A) {next : A → Program α R B} (touches : ∀ result, Touches (next result) place) :
    Touches (first.bind next) place := by
  intro memory
  rw [Program.touched_bind]
  exact .inr (touches _ _)

theorem touches_fold {count : Nat} {body : Nat → A → Program α R A} {initial : A} (step : Nat) (small : step < count)
    (touches : ∀ state, Touches (body step state) place) : Touches (Program.fold count body initial) place := by
  induction count with
  | zero => exact absurd small (Nat.not_lt_zero step)
  | succ count ih =>
    rcases Nat.lt_succ_iff_lt_or_eq.mp small with before | last
    · exact touches_first _ (ih before)
    · subst last
      exact touches_next _ touches

theorem touches_items {pieces : List Piece} {body : Piece → A → Program α R A} {initial : A} (piece : Piece)
    (member : piece ∈ pieces) (touches : ∀ state, Touches (body piece state) place) :
    Touches (Program.foldItems pieces body initial) place := by
  induction pieces generalizing initial with
  | nil => exact absurd member List.not_mem_nil
  | cons first rest ih =>
    rcases List.mem_cons.mp member with here | later
    · subst here
      exact touches_first _ (touches initial)
    · exact touches_next _ (fun _ => ih later)

variable [Zero R]

theorem touches_load_cells {size : Nat} {places : Nat → α} (lane : Nat) (small : lane < size) :
    Touches (loadCells size places : Program α R _) (places lane) :=
  touches_fold lane small (fun _ _ => Set.mem_insert _ _)

theorem touches_load_active {size : Nat} {active : Nat → Bool} {places : Nat → α} (lane : Nat) (small : lane < size) :
    Touches (loadActive size active places : Program α R _) (places lane) := by
  refine touches_fold lane small (fun _ memory => ?_)
  cases active lane with
  | true => exact Set.mem_insert _ _
  | false => exact Set.mem_insert _ _

end Touching

/- The storage of two vectors of n elements with increment 2, and the stride-2
   blocks in it. -/
section Storage

def cellsOf (second : Bool) (cell : Nat) : Bool × Nat := (second, cell)

-- requiredVectorStorageLength(n, 2) elements of each vector.
def storage (width n : Nat) : Set (Bool × Nat) := {place | place.2 < width * (2 * n - 1)}

variable {width n : Nat} {second : Bool}

theorem single_inside (piece : Piece) (one : piece.count = 1) (single : piece.step = 1) (below : piece.first < n) :
    WindowInside (Operand.stride2 width (cellsOf second)) (storage width n) piece := by
  intro lane small
  have inside : lane < width := by
    rw [Piece.size, one, single, Nat.one_mul, Nat.one_mul] at small
    exact small
  change width * (2 * piece.first) + lane < width * (2 * n - 1)
  have span := span_cells width n (by omega)
  have before : width * (2 * piece.first) ≤ width * (2 * (n - 1)) := Nat.mul_le_mul_left width (by omega)
  omega

theorem block_inside (piece : Piece) (two : piece.step = 2) (below : piece.first + piece.count < n) :
    WindowInside (Operand.stride2 width (cellsOf second)) (storage width n) piece := by
  intro lane small
  have inside : lane < piece.count * (2 * width) := by
    rw [Piece.size, two] at small
    exact small
  change width * (2 * piece.first) + lane < width * (2 * n - 1)
  have span := span_cells width n (by omega)
  have before : width * (2 * (piece.first + piece.count)) ≤ width * (2 * (n - 1)) :=
    Nat.mul_le_mul_left width (by omega)
  have split : width * (2 * (piece.first + piece.count)) = width * (2 * piece.first) + piece.count * (2 * width) := by
    ring
  omega

theorem blocks_inside {strict : Bool} {lanes wide first last : Nat} (bounded : last ≤ n) (ordered : first ≤ last)
    (multiple : lanes ∣ wide) (clear : last = n → strict = false → ¬ lanes ∣ n - first) (piece : Piece)
    (member : piece ∈ blocks (stride2Blocks strict wide (last - first)) wide 2 first) :
    WindowInside (Operand.stride2 width (cellsOf second)) (storage width n) piece := by
  obtain ⟨block, small, rfl⟩ := mem_blocks.mp member
  refine block_inside _ rfl ?_
  change first + block * wide + wide < n
  have next : (block + 1) * wide ≤ stride2Blocks strict wide (last - first) * wide := Nat.mul_le_mul_right _ small
  rw [Nat.succ_mul] at next
  cases strict with
  | true =>
    have fewer : stride2Blocks true wide (last - first) * wide ≤ last - first - 1 := Nat.div_mul_le_self _ wide
    have some : 0 < last - first := by
      rcases Nat.eq_zero_or_pos (last - first) with none | some
      · rw [stride2Blocks, none] at small
        exact absurd small (by rw [if_pos rfl, Nat.zero_sub, Nat.zero_div]; exact Nat.not_lt_zero block)
      · exact some
    omega
  | false =>
    have fits := stride2_blocks_fit false wide (last - first)
    by_contra reaches
    have whole : (block + 1) * wide = n - first := by
      rw [Nat.succ_mul]
      omega
    exact clear (by omega) rfl (whole ▸ multiple.trans (Nat.dvd_mul_left wide (block + 1)))

theorem plan_inside {strict : Bool} {lanes first last : Nat} (bounded : last ≤ n) (ordered : first ≤ last)
    (clear : last = n → strict = false → ¬ lanes ∣ n - first) (piece : Piece)
    (member : piece ∈ stride2Plan strict lanes first last) :
    WindowInside (Operand.stride2 width (cellsOf second)) (storage width n) piece := by
  rcases List.mem_append.mp member with here | later
  · exact blocks_inside bounded ordered (Nat.dvd_refl lanes) clear piece here
  · obtain ⟨block, small, rfl⟩ := mem_blocks.mp later
    have fits := stride2_blocks_fit strict lanes (last - first)
    exact single_inside _ rfl rfl (show first + stride2Blocks strict lanes (last - first) * lanes + block * 1 < n by omega)

theorem overrun_cell (second : Bool) (some : 0 < width) (several : 0 < n) : (second, width * (2 * n) - 1) ∉ storage width n := by
  have span := span_cells width n several
  have whole := whole_cells width n several
  change ¬ width * (2 * n) - 1 < width * (2 * n - 1)
  omega

theorem last_lane {piece : Piece} (second : Bool) (some : 0 < width) (two : piece.step = 2) (ends : piece.first + piece.count = n)
    (filled : 0 < piece.count) :
    ∃ lane, lane < piece.size width ∧
      (Operand.stride2 width (cellsOf second)).window piece lane = (second, width * (2 * n) - 1) := by
  have size : piece.size width = piece.count * (2 * width) := by rw [Piece.size, two]
  have positive : 0 < piece.count * (2 * width) := Nat.mul_pos filled (by omega)
  refine ⟨piece.count * (2 * width) - 1, by omega, ?_⟩
  have split : width * (2 * n) = width * (2 * piece.first) + piece.count * (2 * width) := by
    rw [← ends]
    ring
  change (second, width * (2 * piece.first) + (piece.count * (2 * width) - 1)) = _
  rw [split, Nat.add_sub_assoc positive]

end Storage

end Zynum.LevelOne
