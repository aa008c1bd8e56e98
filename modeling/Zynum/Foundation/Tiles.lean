import Zynum.Foundation.Partition

set_option autoImplicit false

/- Cutting the cells of an update into classes, one task for each class: strips,
   tiles, or every count-th column. Classes never overlap, so only the address map
   has to be injective. -/
namespace ArrayProgram

universe u v w x
variable {ι : Type u} {α : Type w} {β : Type x}

theorem Updates.by_class {address : ι → α} {value : ι → β → β} (cells : Set ι) (cls : ι → Nat) (count : Nat)
    (order : List Nat) (run : Nat → (α → β) → α → β) (complete : order.Perm (List.range count))
    (each : ∀ task, task < count → Updates {index | index ∈ cells ∧ cls index = task} address value (run task))
    (small : ∀ index, index ∈ cells → cls index < count) (injective : Set.InjOn address cells) :
    Updates cells address value (fun store => order.foldl (fun current task => run task current) store) := by
  have covered : {index | ∃ task, task < count ∧ index ∈ {index | index ∈ cells ∧ cls index = task}} = cells := by
    ext index
    constructor
    · rintro ⟨task, _, member, _⟩
      exact member
    · intro member
      exact ⟨cls index, small index member, member, rfl⟩
  have whole := Updates.dispatch order count (fun task => {index | index ∈ cells ∧ cls index = task}) run complete each
    (covered.symm ▸ injective) (fun first second _ _ different => by
      rw [Set.disjoint_left]
      rintro index ⟨_, left⟩ ⟨_, right⟩
      exact different (left.symm.trans right))
  exact whole.congr covered (fun _ _ _ => rfl)

theorem Updates.by_listed_class {τ : Type} {address : ι → α} (value : ι → β → β) (cells : Set ι) (cls : ι → τ)
    (order : List τ) (run : τ → (α → β) → α → β) (distinct : order.Nodup)
    (each : ∀ task, task ∈ order → Updates {index | index ∈ cells ∧ cls index = task} address value (run task))
    (listed : ∀ index, index ∈ cells → cls index ∈ order) (injective : Set.InjOn address cells) :
    Updates cells address value (fun store => order.foldl (fun current task => run task current) store) := by
  have covered : {index | ∃ task, task ∈ order ∧ index ∈ {index | index ∈ cells ∧ cls index = task}} = cells := by
    ext index
    constructor
    · rintro ⟨task, _, member, _⟩
      exact member
    · intro member
      exact ⟨cls index, listed index member, member, rfl⟩
  have whole := Updates.tasks order (fun task => {index | index ∈ cells ∧ cls index = task}) run distinct each
    (covered.symm ▸ injective) (fun first second _ _ different => by
      rw [Set.disjoint_left]
      rintro index ⟨_, left⟩ ⟨_, right⟩
      exact different (left.symm.trans right))
  exact whole.congr covered (fun _ _ _ => rfl)

theorem foldl_range {σ : Type u} (count : Nat) (run : Nat → σ → σ) (state : σ) :
    (List.range count).foldl (fun current task => run task current) state = loop count run state := by
  induction count with
  | zero => rfl
  | succ count ih => rw [List.range_succ, List.foldl_append, ih]; rfl

theorem Updates.loop_by_class {address : ι → α} {value : ι → β → β} (cells : Set ι) (cls : ι → Nat) (count : Nat)
    (run : Nat → (α → β) → α → β)
    (each : ∀ task, task < count → Updates {index | index ∈ cells ∧ cls index = task} address value (run task))
    (small : ∀ index, index ∈ cells → cls index < count) (injective : Set.InjOn address cells) :
    Updates cells address value (loop count run) :=
  (Updates.by_class cells cls count (List.range count) run (List.Perm.refl _) each small injective).congr_run
    (fun store => (foldl_range count run store).symm)

section Stride

universe s
variable {σ : Type s}

def strideCount (first last stride : Nat) : Nat := (last - first + stride - 1) / stride

def strideLoop (first last stride : Nat) (body : Nat → σ → σ) (state : σ) : σ :=
  loop (strideCount first last stride) (fun step => body (first + step * stride)) state

theorem stride_count_iff (first last stride step : Nat) (some : 0 < stride) :
    step < strideCount first last stride ↔ first + step * stride < last := by
  rw [strideCount, Nat.lt_div_iff_mul_lt some]
  omega

theorem div_block (index stride block : Nat) (some : 0 < stride) :
    index / stride = block ↔ block * stride ≤ index ∧ index < block * stride + stride := by
  constructor
  · rintro rfl
    exact ⟨Nat.div_mul_le_self index stride, Nat.lt_div_mul_add some⟩
  · rintro ⟨lower, upper⟩
    exact Nat.div_eq_of_lt_le lower (by rw [Nat.succ_mul]; exact upper)

theorem block_inside (index last stride : Nat) (some : 0 < stride) (below : index < last) :
    index / stride < strideCount 0 last stride := by
  rw [stride_count_iff 0 last stride _ some, Nat.zero_add]
  exact lt_of_le_of_lt (Nat.div_mul_le_self index stride) below

def blockLength (last stride start : Nat) : Nat := min stride (last - start)

theorem block_member (index last stride block : Nat) (some : 0 < stride) :
    index < last ∧ index / stride = block ↔
      block * stride ≤ index ∧ index < block * stride + blockLength last stride (block * stride) := by
  rw [div_block index stride block some, blockLength]
  omega

theorem block_splits (last stride : Nat) (some : 0 < stride) :
    Splits (strideCount 0 last stride) (fun block => min last (block * stride)) 0 last := by
  have covered : last ≤ strideCount 0 last stride * stride := by
    by_contra short
    have inside : strideCount 0 last stride < strideCount 0 last stride := by
      rw [stride_count_iff 0 last stride _ some]
      omega
    exact Nat.lt_irrefl _ inside
  refine ⟨by simp only [Nat.zero_mul, Nat.min_zero], Nat.min_eq_left covered, fun block _ => ?_⟩
  exact min_le_min_left last (Nat.mul_le_mul_right stride (Nat.le_succ block))

theorem block_sum {M : Type} [AddCommMonoid M] (last stride : Nat) (some : 0 < stride) (term : Nat → M) :
    ∑ block ∈ Finset.range (strideCount 0 last stride),
        ∑ p ∈ Finset.range (blockLength last stride (block * stride)), term (block * stride + p) =
      ∑ p ∈ Finset.range last, term p := by
  have pieces := (block_splits last stride some).sum term
  rw [← Finset.range_eq_Ico] at pieces
  rw [← pieces]
  refine Finset.sum_congr rfl (fun block member => ?_)
  have inside := (stride_count_iff 0 last stride block some).mp (Finset.mem_range.mp member)
  rw [Finset.sum_Ico_eq_sum_range]
  have start : min last (block * stride) = block * stride := by omega
  have length : min last ((block + 1) * stride) - min last (block * stride) = blockLength last stride (block * stride) := by
    rw [blockLength, Nat.succ_mul]
    omega
  rw [length, start]

theorem grid_class (rows index r s : Nat) (inside : r < rows) : r + rows * s = index ↔ r = index % rows ∧ s = index / rows := by
  have whole := Nat.mod_add_div index rows
  constructor
  · rintro rfl
    rw [Nat.add_mul_mod_self_left, Nat.mod_eq_of_lt inside, Nat.add_mul_div_left _ _ (Nat.zero_lt_of_lt inside),
      Nat.div_eq_of_lt inside, Nat.zero_add]
    exact ⟨rfl, rfl⟩
  · rintro ⟨rfl, rfl⟩
    exact whole

theorem grid_class_inside (rows columns r s : Nat) (inRows : r < rows) (inColumns : s < columns) :
    r + rows * s < rows * columns := by
  calc r + rows * s < rows + rows * s := Nat.add_lt_add_right inRows _
    _ = rows * (s + 1) := by ring
    _ ≤ rows * columns := Nat.mul_le_mul_left rows inColumns

theorem Updates.strided {address : ι → α} {value : ι → β → β} (cells : Set ι) (column : ι → Nat)
    (columns first stride : Nat) (run : Nat → (α → β) → α → β) (below : first < stride)
    (each : ∀ j, j < columns → Updates {index | index ∈ cells ∧ column index = j} address value (run j))
    (small : ∀ index, index ∈ cells → column index < columns) (injective : Set.InjOn address cells) :
    Updates {index | index ∈ cells ∧ column index % stride = first} address value
      (strideLoop first columns stride run) := by
  have some : 0 < stride := Nat.zero_lt_of_lt below
  have place : ∀ j step, j % stride = first → (j / stride = step ↔ j = first + step * stride) := by
    intro j step residue
    have whole := Nat.div_add_mod' j stride
    rw [residue] at whole
    constructor
    · rintro rfl
      omega
    · intro same
      rw [same, Nat.add_mul_div_right _ _ some, Nat.div_eq_of_lt below, Nat.zero_add]
  refine Updates.loop_by_class _ (fun index => column index / stride) _ _ (fun step inside => ?_) (fun index member => ?_)
    (injective.mono (fun _ member => member.1))
  · rw [stride_count_iff first columns stride step some] at inside
    refine (each (first + step * stride) inside).congr ?_ (fun _ _ _ => rfl)
    ext index
    simp only [Set.mem_ofPred_eq]
    constructor
    · rintro ⟨member, same⟩
      have residue : column index % stride = first := by
        rw [same, Nat.add_mul_mod_self_right, Nat.mod_eq_of_lt below]
      exact ⟨⟨member, residue⟩, (place _ step residue).mpr same⟩
    · rintro ⟨⟨member, residue⟩, same⟩
      exact ⟨member, (place _ step residue).mp same⟩
  · rw [stride_count_iff first columns stride _ some, ← (place _ _ member.2).mp rfl]
    exact small index member.1

theorem Updates.strided_tasks {address : ι → α} {value : ι → β → β} (cells : Set ι) (column : ι → Nat)
    (columns stride : Nat) (order : List Nat) (run : Nat → (α → β) → α → β) (some : 0 < stride)
    (complete : order.Perm (List.range stride))
    (each : ∀ j, j < columns → Updates {index | index ∈ cells ∧ column index = j} address value (run j))
    (small : ∀ index, index ∈ cells → column index < columns) (injective : Set.InjOn address cells) :
    Updates cells address value
      (fun store => order.foldl (fun current task => strideLoop task columns stride run current) store) :=
  Updates.by_class cells (fun index => column index % stride) stride order
    (fun task => strideLoop task columns stride run) complete
    (fun task inside => Updates.strided cells column columns task stride run inside each small injective)
    (fun _ _ => Nat.mod_lt _ some) injective

theorem updates_column [DecidableEq α] (rows j : Nat) (address : Nat × Nat → α) (value : Nat × Nat → β → β)
    (injective : Set.InjOn address {cell | cell.1 < rows ∧ cell.2 = j}) :
    Updates {cell | cell.1 < rows ∧ cell.2 = j} address value
      (loop rows (fun i store => Function.update store (address (i, j)) (value (i, j) (store (address (i, j)))))) := by
  refine (Updates.reindex (fun i => (i, j)) (updates_elementwise rows (fun i => address (i, j))
    (fun i => value (i, j)) ?_)).congr ?_ (fun _ _ _ => rfl)
  · intro i inFirst i' inSecond same
    exact congrArg Prod.fst (injective (show (i, j) ∈ _ from ⟨inFirst, rfl⟩) (show (i', j) ∈ _ from ⟨inSecond, rfl⟩) same)
  · ext ⟨i, j'⟩
    constructor
    · rintro ⟨i', inRows, same⟩
      cases same
      exact ⟨inRows, rfl⟩
    · rintro ⟨inRows, same⟩
      exact ⟨i, inRows, by rw [show j' = j from same]⟩

-- The number a task gets when the tasks of a list are numbered as they are walked.
def ordinalOf {τ s : Type} [DecidableEq τ] (ordinal : τ → s → Nat) (next : τ → s → s) : List τ → s → τ → Nat
  | [], _ => fun _ => 0
  | task :: rest, state => Function.update (ordinalOf ordinal next rest (next task state)) task (ordinal task state)

-- Workers that number the tasks of a list as they walk it, and keep those whose
-- number falls to them. Every worker counts alike, so each task has one owner.
theorem foldl_owner {τ s : Type} [DecidableEq τ] (ordinal : τ → s → Nat) (next : τ → s → s) {σ : Type} (tasks : List τ)
    (distinct : tasks.Nodup) (start : s) (run : τ → σ → σ) (workers worker : Nat) (state : σ) :
    (tasks.foldl (fun (pair : σ × s) task =>
      (if ordinal task pair.2 % workers = worker then run task pair.1 else pair.1, next task pair.2)) (state, start)).1 =
    tasks.foldl (fun current task =>
      if ordinalOf ordinal next tasks start task % workers = worker then run task current else current) state := by
  induction tasks generalizing start state with
  | nil => rfl
  | cons task rest ih =>
    have fresh : task ∉ rest := (List.nodup_cons.mp distinct).1
    rw [List.foldl_cons, List.foldl_cons, ih distinct.of_cons, ordinalOf, Function.update_self]
    refine List.foldl_ext _ _ _ (fun current other member => ?_)
    have different : other ≠ task := fun same => fresh (same ▸ member)
    rw [Function.update_of_ne different]

theorem updates_grid_where [DecidableEq α] (rows columns : Nat) (keep : Nat × Nat → Bool) (address : Nat × Nat → α)
    (value : Nat × Nat → β → β) (injective : Set.InjOn address {cell | cell.1 < rows ∧ cell.2 < columns}) :
    Updates {cell | (cell.1 < rows ∧ cell.2 < columns) ∧ keep cell = true} address value
      (loop columns (fun j store => loop rows (fun i store =>
        if keep (i, j) then Function.update store (address (i, j)) (value (i, j) (store (address (i, j)))) else store)
        store)) := by
  have whole := updates_grid rows columns address (fun cell old => if keep cell then value cell old else old) injective
  have same : ∀ store : α → β, loop columns (fun j store => loop rows (fun i store =>
      if keep (i, j) then Function.update store (address (i, j)) (value (i, j) (store (address (i, j)))) else store)
      store) store =
    loop columns (fun j store => loop rows (fun i store => Function.update store (address (i, j))
      (if keep (i, j) then value (i, j) (store (address (i, j))) else store (address (i, j)))) store) store := by
    intro store
    refine loop_congr columns _ _ store (fun j current _ => loop_congr rows _ _ current (fun i current _ => ?_))
    split
    · rfl
    · rw [Function.update_eq_self]
  refine ((whole.restrict (fun cell member => member.1) (fun cell old member skipped => ?_)).congr rfl
    (fun cell old member => if_pos member.2)).congr_run same
  exact if_neg (fun kept => skipped ⟨member, kept⟩)

theorem scaled_accumulate {R : Type} [CommRing R] (count : Nat) (some : 0 < count) (alpha beta : R) (sum : Nat → R)
    (old : R) :
    loop count (fun block value => alpha * sum block + (if block = 0 then beta else 1) * value) old =
      alpha * ∑ block ∈ Finset.range count, sum block + beta * old := by
  induction count with
  | zero => exact absurd some (Nat.lt_irrefl 0)
  | succ count ih =>
    rw [loop_succ, Finset.sum_range_succ]
    by_cases first : count = 0
    · subst first
      rw [if_pos rfl, loop_zero, Finset.range_zero, Finset.sum_empty, zero_add]
    · rw [if_neg first, ih (Nat.pos_of_ne_zero first), one_mul]
      ring

-- while (index + step <= last) : (index += step), and where it leaves index.
def fitEnd (first last step : Nat) : Nat := first + (last - first) / step * step

def fitLoop (first last step : Nat) (body : Nat → σ → σ) (state : σ) : σ :=
  loop ((last - first) / step) (fun turn => body (first + turn * step)) state

theorem fit_end_inside (first last step : Nat) (ordered : first ≤ last) :
    first ≤ fitEnd first last step ∧ fitEnd first last step ≤ last := by
  have whole : (last - first) / step * step ≤ last - first := Nat.div_mul_le_self _ _
  rw [fitEnd]
  omega

theorem fit_turn_inside (first last step turn : Nat) (small : turn < (last - first) / step) :
    first + turn * step + step ≤ last := by
  have whole : (last - first) / step * step ≤ last - first := Nat.div_mul_le_self _ _
  have next : (turn + 1) * step ≤ (last - first) / step * step := Nat.mul_le_mul_right step small
  have grown : (turn + 1) * step = turn * step + step := Nat.succ_mul turn step
  have some : 0 < last - first := Nat.pos_of_ne_zero (fun none => by
    rw [none, Nat.zero_div] at small
    exact Nat.not_lt_zero turn small)
  omega

theorem loop_blocks (count width : Nat) (body : Nat → σ → σ) (state : σ) :
    loop count (fun block => loop width (fun step => body (block * width + step))) state = loop (count * width) body state := by
  induction count with
  | zero => rw [Nat.zero_mul, loop_zero, loop_zero]
  | succ count ih => rw [loop_succ, ih, Nat.succ_mul, loop_split]

theorem unrolled_loop (count unroll : Nat) (body : Nat → σ → σ) (state : σ) :
    loopRange (fitEnd 0 count unroll) count body (fitLoop 0 count unroll (fun p => loop unroll (fun u => body (p + u))) state) =
      loop count body state := by
  have inside := (fit_end_inside 0 count unroll (Nat.zero_le count)).2
  have turns : fitLoop 0 count unroll (fun p => loop unroll (fun u => body (p + u))) state =
      loop (fitEnd 0 count unroll) body state := by
    rw [fitLoop, fitEnd, Nat.sub_zero, Nat.zero_add, ← loop_blocks]
    refine loop_congr _ _ _ _ (fun turn current _ => ?_)
    rw [Nat.zero_add]
  rw [turns, loopRange, ← loop_split, Nat.add_sub_cancel' inside]

end Stride

end ArrayProgram
