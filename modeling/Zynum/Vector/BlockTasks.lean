import Zynum.Vector.BlocksExact

set_option autoImplicit false

/- Which pieces the loops of a route are made of, what a walk that only reads
   returns, and when a walk may run beside others. -/
namespace Zynum.LevelOne

open ArrayProgram

variable {α R : Type}

section Plans

theorem consecutive_append {pieces rest : List Piece} {first middle last : Nat}
    (left : Consecutive pieces first middle) (right : Consecutive rest middle last) :
    Consecutive (pieces ++ rest) first last := by
  induction pieces generalizing first with
  | nil =>
    have same : first = middle := left
    rw [same]
    exact right
  | cons piece tail ih => exact ⟨left.1, ih left.2⟩

theorem consecutive_split {pieces rest : List Piece} {first last : Nat} (whole : Consecutive (pieces ++ rest) first last) :
    ∃ middle, Consecutive pieces first middle ∧ Consecutive rest middle last := by
  induction pieces generalizing first with
  | nil => exact ⟨first, rfl, whole⟩
  | cons piece tail ih =>
    obtain ⟨middle, left, right⟩ := ih whole.2
    exact ⟨middle, ⟨whole.1, left⟩, right⟩

theorem blocks_consecutive (count lanes step first : Nat) :
    Consecutive (blocks count lanes step first) first (first + count * lanes) := by
  induction count with
  | zero =>
    change first = first + 0 * lanes
    omega
  | succ count ih =>
    rw [blocks, List.range_succ, List.map_append]
    refine consecutive_append ih ?_
    change first + count * lanes = first + count * lanes ∧ first + count * lanes + lanes = first + (count + 1) * lanes
    rw [Nat.succ_mul]
    omega

theorem mem_blocks {count lanes step first : Nat} {piece : Piece} :
    piece ∈ blocks count lanes step first ↔ ∃ block, block < count ∧ piece = ⟨first + block * lanes, lanes, step⟩ := by
  simp only [blocks, List.mem_map, List.mem_range]
  constructor
  · rintro ⟨block, small, rfl⟩
    exact ⟨block, small, rfl⟩
  · rintro ⟨block, small, rfl⟩
    exact ⟨block, small, rfl⟩

theorem singles_consecutive {first last : Nat} (ordered : first ≤ last) : Consecutive (singles first last) first last := by
  have whole := blocks_consecutive (last - first) 1 1 first
  rw [Nat.mul_one, Nat.add_sub_cancel' ordered] at whole
  exact whole

theorem unit_plan_consecutive (laneCounts : List Nat) (first last : Nat) (ordered : first ≤ last) :
    Consecutive (unitPlan laneCounts first last) first last := by
  induction laneCounts generalizing first with
  | nil => exact singles_consecutive ordered
  | cons lanes shorter ih =>
    rw [unitPlan]
    split
    · exact ih first ordered
    · have fits := Nat.div_mul_le_self (last - first) lanes
      exact consecutive_append (blocks_consecutive _ lanes 1 first) (ih _ (by omega))

theorem unit_plan_step (laneCounts : List Nat) (first last : Nat) (piece : Piece)
    (member : piece ∈ unitPlan laneCounts first last) : piece.step = 1 := by
  induction laneCounts generalizing first with
  | nil =>
    obtain ⟨block, _, rfl⟩ := mem_blocks.mp (show piece ∈ blocks (last - first) 1 1 first from member)
    rfl
  | cons lanes shorter ih =>
    rw [unitPlan] at member
    split at member
    · exact ih first member
    · rcases List.mem_append.mp member with here | later
      · obtain ⟨block, _, rfl⟩ := mem_blocks.mp here
        rfl
      · exact ih _ later

theorem stride2_blocks_fit (strict : Bool) (lanes length : Nat) : stride2Blocks strict lanes length * lanes ≤ length := by
  rw [stride2Blocks]
  split
  · exact (Nat.div_mul_le_self (length - 1) lanes).trans (Nat.sub_le length 1)
  · exact Nat.div_mul_le_self length lanes

theorem stride2_plan_consecutive (strict : Bool) (lanes first last : Nat) (ordered : first ≤ last) :
    Consecutive (stride2Plan strict lanes first last) first last := by
  have fits := stride2_blocks_fit strict lanes (last - first)
  exact consecutive_append (blocks_consecutive _ lanes 2 first) (singles_consecutive (by omega))

theorem mem_stride2_plan {strict : Bool} {lanes first last : Nat} {piece : Piece}
    (member : piece ∈ stride2Plan strict lanes first last) :
    (∃ block, block < stride2Blocks strict lanes (last - first) ∧ piece = ⟨first + block * lanes, lanes, 2⟩) ∨
      piece.count = 1 ∧ piece.step = 1 := by
  rcases List.mem_append.mp member with here | later
  · exact .inl (mem_blocks.mp here)
  · obtain ⟨block, _, rfl⟩ := mem_blocks.mp later
    exact .inr ⟨rfl, rfl⟩

theorem width_plan_consecutive (widths : List Nat) (first : Nat) :
    Consecutive (widthPlan widths first) first (first + widths.sum) := by
  induction widths generalizing first with
  | nil => exact (Nat.add_zero first).symm
  | cons width rest ih =>
    rw [List.sum_cons, ← Nat.add_assoc]
    exact ⟨rfl, ih (first + width)⟩

theorem width_plan_step (widths : List Nat) (first : Nat) (piece : Piece) (member : piece ∈ widthPlan widths first) :
    piece.step = 1 := by
  induction widths generalizing first with
  | nil => exact absurd member List.not_mem_nil
  | cons width rest ih =>
    rcases List.mem_cons.mp member with rfl | later
    · rfl
    · exact ih _ later

theorem fits_single {piece : Piece} (operand : Operand α) (one : piece.count = 1) : piece.Fits operand := by
  intro index small
  have none : index = 0 := by omega
  rw [none, Nat.add_zero, Nat.zero_mul, Nat.add_zero]

theorem fits_unit {piece : Piece} (width : Nat) (place : Nat → α) (one : piece.step = 1) :
    piece.Fits (Operand.unit width place) := by
  intro index _
  change width * (piece.first + index) = width * piece.first + index * (piece.step * width)
  rw [one, Nat.one_mul, Nat.mul_add, Nat.mul_comm index]

theorem fits_stride2 {piece : Piece} (width : Nat) (place : Nat → α) (two : piece.step = 2) :
    piece.Fits (Operand.stride2 width place) := by
  intro index _
  change width * (2 * (piece.first + index)) = width * (2 * piece.first) + index * (piece.step * width)
  rw [two]
  ring

theorem stride2_plan_fits (strict : Bool) (lanes first last width : Nat) (place : Nat → α) (piece : Piece)
    (member : piece ∈ stride2Plan strict lanes first last) :
    piece.Fits (Operand.stride2 width place) ∧ 0 < piece.step := by
  rcases mem_stride2_plan member with ⟨block, _, rfl⟩ | ⟨one, single⟩
  · exact ⟨fits_stride2 width place rfl, Nat.zero_lt_two⟩
  · exact ⟨fits_single _ one, by omega⟩

end Plans

/- A walk that only reads leaves memory alone and adds up its terms. -/
section Sums

variable [Zero R] [DecidableEq α] {A : Type} [AddCommMonoid A]

def ElementTerm (width : Nat) (term : (Nat → R) → A) : Prop :=
  ∀ value value' : Nat → R, (∀ component, component < width → value component = value' component) →
    term value = term value'

def PairTerm (width : Nat) (term : (Nat → R) → (Nat → R) → A) : Prop :=
  ∀ left left' right right' : Nat → R, (∀ component, component < width → left component = left' component) →
    (∀ component, component < width → right component = right' component) → term left right = term left' right'

theorem run_sum_one {piece : Piece} {x : Operand α} (term : (Nat → R) → A) (sum : A) (memory : α → R)
    (fits : piece.Fits x) (stepped : 0 < piece.step) (elementwise : ElementTerm x.width term) :
    (sumOne term x piece sum).run memory =
      (sum + ∑ i ∈ Finset.Ico piece.first (piece.first + piece.count), term (x.element memory i), memory) := by
  have read : ((loadElements x piece).run memory).2 = memory := by rw [loadElements, run_load_active]
  rw [sumOne, Program.run_do, Program.run_pure, read]
  refine Prod.ext ?_ rfl
  change sum + loop _ _ 0 = _
  rw [loop_accumulate, zero_add, Finset.sum_Ico_eq_sum_range, Nat.add_sub_cancel_left]
  refine congrArg (sum + ·) (Finset.sum_congr rfl (fun index member => elementwise _ _ (fun component small => ?_)))
  exact active_element fits stepped memory index component (Finset.mem_range.mp member) small

theorem run_sum_two {piece : Piece} {x y : Operand α} (term : (Nat → R) → (Nat → R) → A) (sum : A) (memory : α → R)
    (fitsX : piece.Fits x) (fitsY : piece.Fits y) (stepped : 0 < piece.step) (sameWidth : x.width = y.width)
    (elementwise : PairTerm y.width term) :
    (sumTwo term x y piece sum).run memory =
      (sum + ∑ i ∈ Finset.Ico piece.first (piece.first + piece.count), term (x.element memory i) (y.element memory i),
        memory) := by
  have readX : ((loadElements x piece).run memory).2 = memory := by rw [loadElements, run_load_active]
  have readY : ((loadElements y piece).run memory).2 = memory := by rw [loadElements, run_load_active]
  rw [sumTwo, Program.run_do, readX, Program.run_do, readY, Program.run_pure]
  refine Prod.ext ?_ rfl
  change sum + loop _ _ 0 = _
  rw [loop_accumulate, zero_add, Finset.sum_Ico_eq_sum_range, Nat.add_sub_cancel_left]
  refine congrArg (sum + ·) (Finset.sum_congr rfl (fun index member => ?_))
  have small := Finset.mem_range.mp member
  exact elementwise _ _ _ _
    (fun component bounded => active_element fitsX stepped memory index component small (sameWidth ▸ bounded))
    (fun component bounded => active_element fitsY stepped memory index component small bounded)

omit [Zero R] in
theorem run_sums (body : Piece → A → Program α R A) (term : Nat → A) (pieces : List Piece) (first last : Nat) (sum : A)
    (memory : α → R) (consecutive : Consecutive pieces first last)
    (step : ∀ piece total, piece ∈ pieces → (body piece total).run memory =
      (total + ∑ i ∈ Finset.Ico piece.first (piece.first + piece.count), term i, memory)) :
    (Program.foldItems pieces body sum).run memory = (sum + ∑ i ∈ Finset.Ico first last, term i, memory) := by
  induction pieces generalizing first sum with
  | nil =>
    have same : first = last := consecutive
    rw [same, Finset.Ico_self, Finset.sum_empty, add_zero]
    rfl
  | cons piece rest ih =>
    have start := consecutive.1
    rw [Program.run_fold_items_cons, step piece sum List.mem_cons_self]
    rw [ih (first + piece.count) _ consecutive.2 (fun other total member => step other total (List.mem_cons_of_mem _ member)),
      start, add_assoc, Finset.sum_Ico_consecutive term (Nat.le_add_right _ _) consecutive.2.le]

end Sums

/- Beside other tasks: own elements, and cells that stay as they are. -/
section Beside

variable [Zero R] [DecidableEq α] {own fixed : Set α}

theorem respects_load_cells (size : Nat) (place : Nat → α) (memory : α → R)
    (inside : ∀ lane, lane < size → place lane ∈ own ∨ place lane ∈ fixed) :
    (loadCells size place).Respects own fixed memory := by
  refine Program.respects_fold size _ _ memory (fun lane small => ?_)
  exact ⟨inside lane small, trivial⟩

theorem respects_load_active (size : Nat) (active : Nat → Bool) (place : Nat → α) (memory : α → R)
    (inside : ∀ lane, lane < size → active lane = true → place lane ∈ own ∨ place lane ∈ fixed) :
    (loadActive size active place).Respects own fixed memory := by
  refine Program.respects_fold size _ _ memory (fun lane small => ?_)
  cases kept : active lane with
  | true => exact ⟨inside lane small kept, trivial⟩
  | false => trivial

omit [Zero R] in
theorem respects_store_cells (size : Nat) (place : Nat → α) (injective : Function.Injective place) (values : Nat → R)
    (memory : α → R)
    (inside : ∀ lane, lane < size → place lane ∈ own ∨ (place lane ∈ fixed ∧ values lane = memory (place lane))) :
    (storeCells size place values).Respects own fixed memory := by
  refine Program.respects_fold size _ _ memory (fun lane small => ⟨?_, trivial⟩)
  have before := run_store_cells lane place injective values memory
  rcases inside lane small with mine | ⟨constant, idle⟩
  · exact .inl mine
  · refine .inr ⟨constant, idle.trans ?_⟩
    exact (before.kept (place lane) (fun other below same => (Nat.ne_of_lt below) (injective same))).symm

def Operand.owned (operand : Operand α) (piece : Piece) : Set α :=
  {place | ∃ index component, index ∈ piece.covers ∧ component < operand.width ∧ operand.address index component = place}

variable {piece : Piece} {x y : Operand α}

omit [Zero R] [DecidableEq α] in
theorem window_owned (fits : piece.Fits x) (some : 0 < x.width) (lane : Nat) (small : lane < piece.size x.width) :
    x.window piece lane ∈ x.owned piece ∨ x.window piece lane ∈ x.gaps piece := by
  cases active : piece.active x.width lane with
  | true =>
    obtain ⟨index, component, below, inside, same⟩ := window_cases fits some lane small active
    exact .inl ⟨_, _, ⟨Nat.le_add_right _ _, Nat.add_lt_add_left below _⟩, inside, same.symm⟩
  | false => exact .inr ⟨lane, small, active, rfl⟩

theorem respects_load_block (memory : α → R) (fits : piece.Fits x) (some : 0 < x.width)
    (elements : x.owned piece ⊆ own ∪ fixed) (gaps : x.gaps piece ⊆ own ∪ fixed) :
    (loadBlock x piece).Respects own fixed memory := by
  refine respects_load_cells _ _ memory (fun lane small => ?_)
  rcases window_owned fits some lane small with element | gap
  · exact elements element
  · exact gaps gap

theorem respects_load_elements (memory : α → R) (fits : piece.Fits x) (some : 0 < x.width)
    (elements : x.owned piece ⊆ own ∪ fixed) : (loadElements x piece).Respects own fixed memory := by
  refine respects_load_active _ _ _ memory (fun lane small active => ?_)
  obtain ⟨index, component, below, inside, same⟩ := window_cases fits some lane small active
  exact elements ⟨_, _, ⟨Nat.le_add_right _ _, Nat.add_lt_add_left below _⟩, inside, same.symm⟩

omit [Zero R] in
theorem respects_store_block (old : Nat → R) (new : Nat → Nat → R) (memory : α → R) (fits : piece.Fits x)
    (some : 0 < x.width) (injective : Function.Injective x.place) (elements : x.owned piece ⊆ own)
    (gaps : x.gaps piece ⊆ own ∪ fixed)
    (held : ∀ lane, lane < piece.size x.width → x.window piece lane ∈ fixed → old lane = memory (x.window piece lane)) :
    (storeBlock x piece old new).Respects own fixed memory := by
  refine respects_store_cells _ _ (window_injective injective piece) _ memory (fun lane small => ?_)
  cases active : piece.active x.width lane with
  | true =>
    obtain ⟨index, component, below, inside, same⟩ := window_cases fits some lane small active
    exact .inl (elements ⟨_, _, ⟨Nat.le_add_right _ _, Nat.add_lt_add_left below _⟩, inside, same.symm⟩)
  | false =>
    rcases gaps ⟨lane, small, active, rfl⟩ with mine | constant
    · exact .inl mine
    · refine .inr ⟨constant, ?_⟩
      rw [Piece.select, active, if_neg Bool.false_ne_true]
      exact held lane small constant

theorem respects_update_one (apply : (Nat → R) → Nat → R) (memory : α → R) (fits : piece.Fits x) (some : 0 < x.width)
    (injective : Function.Injective x.place) (elements : x.owned piece ⊆ own) (gaps : x.gaps piece ⊆ own ∪ fixed) :
    (updateOne apply x piece).Respects own fixed memory := by
  have loaded : ((loadBlock x piece).run memory).2 = memory := by rw [loadBlock, run_load_cells]
  refine Program.respects_bind
    (respects_load_block memory fits some (elements.trans Set.subset_union_left) gaps) ?_
  rw [loaded]
  exact respects_store_block _ _ memory fits some injective elements gaps
    (fun lane small _ => load_block_lanes memory lane small)

theorem respects_update_second (apply : (Nat → R) → (Nat → R) → Nat → R) (memory : α → R) (fitsX : piece.Fits x)
    (fitsY : piece.Fits y) (someX : 0 < x.width) (someY : 0 < y.width) (injective : Function.Injective y.place)
    (read : x.owned piece ⊆ own ∪ fixed) (elements : y.owned piece ⊆ own) (gaps : y.gaps piece ⊆ own ∪ fixed) :
    (updateSecond apply x y piece).Respects own fixed memory := by
  have readX : ((loadElements x piece).run memory).2 = memory := by rw [loadElements, run_load_active]
  have loaded : ((loadBlock y piece).run memory).2 = memory := by rw [loadBlock, run_load_cells]
  refine Program.respects_bind (respects_load_elements memory fitsX someX read) ?_
  rw [readX]
  refine Program.respects_bind
    (respects_load_block memory fitsY someY (elements.trans Set.subset_union_left) gaps) ?_
  rw [loaded]
  exact respects_store_block _ _ memory fitsY someY injective elements gaps
    (fun lane small _ => load_block_lanes memory lane small)

theorem respects_update_both (applyX applyY : (Nat → R) → (Nat → R) → Nat → R) (memory : α → R) (fitsX : piece.Fits x)
    (fitsY : piece.Fits y) (stepped : 0 < piece.step) (someX : 0 < x.width) (someY : 0 < y.width)
    (injectiveX : Function.Injective x.place) (injectiveY : Function.Injective y.place) (apart : Disjoint own fixed)
    (elementsX : x.owned piece ⊆ own) (elementsY : y.owned piece ⊆ own) (gapsX : x.gaps piece ⊆ own ∪ fixed)
    (gapsY : y.gaps piece ⊆ own ∪ fixed) : (updateBoth applyX applyY x y piece).Respects own fixed memory := by
  have loadedX : ((loadBlock x piece).run memory).2 = memory := by rw [loadBlock, run_load_cells]
  have loadedY : ((loadBlock y piece).run memory).2 = memory := by rw [loadBlock, run_load_cells]
  have storedX := run_store_block fitsX stepped someX injectiveX ((loadBlock x piece).run memory).1
    (fun i => applyX (piece.element x.width ((loadBlock x piece).run memory).1 i)
      (piece.element y.width ((loadBlock y piece).run memory).1 i)) memory memory (load_block_lanes memory)
  refine Program.respects_bind
    (respects_load_block memory fitsX someX (elementsX.trans Set.subset_union_left) gapsX) ?_
  rw [loadedX]
  refine Program.respects_bind
    (respects_load_block memory fitsY someY (elementsY.trans Set.subset_union_left) gapsY) ?_
  rw [loadedY]
  refine Program.respects_bind
    (respects_store_block _ _ memory fitsX someX injectiveX elementsX gapsX
      (fun lane small _ => load_block_lanes memory lane small)) ?_
  refine respects_store_block _ _ _ fitsY someY injectiveY elementsY gapsY (fun lane small constant => ?_)
  rw [load_block_lanes memory lane small]
  by_cases gap : y.window piece lane ∈ x.gaps piece
  · exact (storedX.2.1 _ gap).symm
  · refine (storedX.2.2 _ gap (fun index component below inside same => ?_)).symm
    have mine : y.window piece lane ∈ own :=
      elementsX ⟨_, _, ⟨Nat.le_add_right _ _, Nat.add_lt_add_left below _⟩, inside, same⟩
    exact Set.disjoint_left.mp apart mine constant

theorem respects_copy_block (memory : α → R) (fitsX : piece.Fits x) (fitsY : piece.Fits y) (someX : 0 < x.width)
    (someY : 0 < y.width) (injective : Function.Injective y.place) (read : x.owned piece ⊆ own ∪ fixed)
    (gapsX : x.gaps piece ⊆ own ∪ fixed) (elements : y.owned piece ⊆ own) (gaps : y.gaps piece ⊆ own) :
    (copyBlock x y piece).Respects own fixed memory := by
  have loaded : ((loadBlock x piece).run memory).2 = memory := by rw [loadBlock, run_load_cells]
  refine Program.respects_bind (respects_load_block memory fitsX someX read gapsX) ?_
  rw [loaded]
  refine respects_store_cells _ _ (window_injective injective piece) _ memory (fun lane small => .inl ?_)
  rcases window_owned fitsY someY lane small with element | gap
  · exact elements element
  · exact gaps gap

omit [Zero R] in
theorem respects_fold_items {A : Type} (pieces : List Piece) (body : Piece → A → Program α R A) (initial : A)
    (memory : α → R)
    (each : ∀ piece current total, piece ∈ pieces → (body piece total).Respects own fixed current) :
    (Program.foldItems pieces body initial).Respects own fixed memory := by
  induction pieces generalizing initial memory with
  | nil => trivial
  | cons piece rest ih =>
    exact Program.respects_bind (each piece memory initial List.mem_cons_self)
      (ih _ _ (fun other current total member => each other current total (List.mem_cons_of_mem _ member)))

omit [Zero R] in
theorem respects_items (pieces : List Piece) (body : Piece → Program α R Unit) (memory : α → R)
    (each : ∀ piece current, piece ∈ pieces → (body piece).Respects own fixed current) :
    (Program.eachItem pieces body).Respects own fixed memory :=
  respects_fold_items pieces _ () memory (fun piece current _ member => each piece current member)

end Beside

end Zynum.LevelOne
