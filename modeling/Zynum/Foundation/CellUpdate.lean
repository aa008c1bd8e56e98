import Zynum.Foundation.Loop

set_option autoImplicit false

/- An operation on a flat store that gives every cell of a region a new value
   computed from the cell's own old value, and leaves every other address alone.
   Cells carry logical indices; the address map says where a cell lies. -/
namespace ArrayProgram

universe u v w x
variable {ι : Type u} {κ : Type v} {α : Type w} {β : Type x}

structure Updates (cells : Set ι) (address : ι → α) (value : ι → β → β) (run : (α → β) → α → β) : Prop where
  written : ∀ store index, index ∈ cells → run store (address index) = value index (store (address index))
  kept : ∀ store place, (∀ index, index ∈ cells → address index ≠ place) → run store place = store place

theorem Updates.congr {cells cells' : Set ι} {address : ι → α} {value value' : ι → β → β}
    {run : (α → β) → α → β} (updates : Updates cells address value run) (sameCells : cells = cells')
    (sameValue : ∀ index old, index ∈ cells → value index old = value' index old) :
    Updates cells' address value' run := by
  subst sameCells
  refine ⟨fun store index member => ?_, updates.kept⟩
  rw [updates.written store index member, sameValue index _ member]

theorem Updates.congr_run {cells : Set ι} {address : ι → α} {value : ι → β → β} {run run' : (α → β) → α → β}
    (updates : Updates cells address value run) (same : ∀ store, run' store = run store) :
    Updates cells address value run' := by
  have equal : run' = run := funext same
  rwa [equal]

theorem Updates.congr_address {cells : Set ι} {address address' : ι → α} {value : ι → β → β}
    {run : (α → β) → α → β} (updates : Updates cells address value run)
    (same : ∀ index, index ∈ cells → address' index = address index) : Updates cells address' value run := by
  constructor
  · intro store index member
    rw [same index member]
    exact updates.written store index member
  · intro store place apart
    exact updates.kept store place (fun index member => same index member ▸ apart index member)

theorem updates_nothing (address : ι → α) (value : ι → β → β) :
    Updates (∅ : Set ι) address value (fun store => store) :=
  ⟨fun _ _ member => absurd member (Set.notMem_empty _), fun _ _ _ => rfl⟩

theorem updates_same (cells : Set ι) (address : ι → α) :
    Updates cells address (fun _ old => (old : β)) (fun store => store) :=
  ⟨fun _ _ _ => rfl, fun _ _ _ => rfl⟩

theorem updates_point [DecidableEq α] (index : ι) (address : ι → α) (value : ι → β → β) :
    Updates {index} address value
      (fun store => Function.update store (address index) (value index (store (address index)))) := by
  constructor
  · intro store other member
    have same : other = index := member
    rw [same, Function.update_self]
  · intro store place apart
    exact Function.update_of_ne (fun same => apart index rfl same.symm) _ _

theorem Updates.unique {cells : Set ι} {address : ι → α} {value : ι → β → β} {first second : (α → β) → α → β}
    (left : Updates cells address value first) (right : Updates cells address value second) : first = second := by
  funext store place
  by_cases inside : ∃ index, index ∈ cells ∧ address index = place
  · obtain ⟨index, member, rfl⟩ := inside
    rw [left.written store index member, right.written store index member]
  · have apart : ∀ index, index ∈ cells → address index ≠ place :=
      fun index member same => inside ⟨index, member, same⟩
    rw [left.kept store place apart, right.kept store place apart]

theorem Updates.then_same {cells : Set ι} {address : ι → α} {first second : ι → β → β}
    {run next : (α → β) → α → β} (left : Updates cells address first run)
    (right : Updates cells address second next) :
    Updates cells address (fun index old => second index (first index old)) (fun store => next (run store)) := by
  constructor
  · intro store index member
    rw [right.written _ index member, left.written store index member]
  · intro store place apart
    rw [right.kept _ place apart, left.kept store place apart]

theorem Updates.then_apart {first second : Set ι} {address : ι → α} {value : ι → β → β}
    {run next : (α → β) → α → β} (left : Updates first address value run)
    (right : Updates second address value next) (injective : Set.InjOn address (first ∪ second))
    (apart : Disjoint first second) :
    Updates (first ∪ second) address value (fun store => next (run store)) := by
  have distinct : ∀ i j, i ∈ first → j ∈ second → address j ≠ address i := by
    intro i j inFirst inSecond same
    have equal : j = i := injective (Or.inr inSecond) (Or.inl inFirst) same
    exact Set.disjoint_left.mp apart inFirst (equal ▸ inSecond)
  constructor
  · intro store index member
    cases member with
    | inl inFirst =>
      rw [right.kept _ _ (fun j inSecond => distinct index j inFirst inSecond), left.written store index inFirst]
    | inr inSecond =>
      rw [right.written _ index inSecond, left.kept store _ (fun i inFirst => (distinct i index inFirst inSecond).symm)]
  · intro store place outside
    rw [right.kept _ place (fun j inSecond => outside j (Or.inr inSecond)),
      left.kept store place (fun i inFirst => outside i (Or.inl inFirst))]

theorem Updates.repeat {cells : Set ι} {address : ι → α} (count : Nat) (value : Nat → ι → β → β)
    (run : Nat → (α → β) → α → β)
    (each : ∀ step, step < count → Updates cells address (value step) (run step)) :
    Updates cells address (fun index => loop count (fun step => value step index)) (loop count run) := by
  induction count with
  | zero => exact updates_same cells address
  | succ count ih =>
    have before := ih (fun step small => each step (Nat.lt_succ_of_lt small))
    exact before.then_same (each count (Nat.lt_succ_self count))

theorem Updates.reindex {cells : Set κ} {address : ι → α} {value : ι → β → β} {run : (α → β) → α → β}
    (rename : κ → ι) (updates : Updates cells (fun k => address (rename k)) (fun k => value (rename k)) run) :
    Updates (rename '' cells) address value run := by
  constructor
  · rintro store index ⟨k, member, rfl⟩
    exact updates.written store k member
  · intro store place apart
    exact updates.kept store place (fun k member => apart (rename k) ⟨k, member, rfl⟩)

theorem Updates.tasks {τ : Type} {address : ι → α} {value : ι → β → β} (order : List τ) (cells : τ → Set ι)
    (run : τ → (α → β) → α → β) (distinct : order.Nodup)
    (each : ∀ task, task ∈ order → Updates (cells task) address value (run task))
    (injective : Set.InjOn address {index | ∃ task, task ∈ order ∧ index ∈ cells task})
    (apart : ∀ first second, first ∈ order → second ∈ order → first ≠ second → Disjoint (cells first) (cells second)) :
    Updates {index | ∃ task, task ∈ order ∧ index ∈ cells task} address value
      (fun store => order.foldl (fun current task => run task current) store) := by
  induction order with
  | nil =>
    refine (updates_nothing address value).congr ?_ (fun _ _ _ => rfl)
    ext index
    simp only [Set.mem_empty_iff_false, List.not_mem_nil, false_and, exists_false, Set.mem_ofPred_eq]
  | cons head rest ih =>
    have restDistinct : rest.Nodup := distinct.of_cons
    have headNew : head ∉ rest := (List.nodup_cons.mp distinct).1
    have split : {index | ∃ task, task ∈ head :: rest ∧ index ∈ cells task} =
        cells head ∪ {index | ∃ task, task ∈ rest ∧ index ∈ cells task} := by
      ext index
      simp only [List.mem_cons, Set.mem_ofPred_eq, Set.mem_union, exists_eq_or_imp]
    have later := ih restDistinct (fun task member => each task (List.mem_cons_of_mem head member))
      (injective.mono (by rw [split]; exact Set.subset_union_right))
      (fun first second inFirst inSecond => apart first second (List.mem_cons_of_mem head inFirst)
        (List.mem_cons_of_mem head inSecond))
    have separate : Disjoint (cells head) {index | ∃ task, task ∈ rest ∧ index ∈ cells task} := by
      rw [Set.disjoint_left]
      rintro index inHead ⟨task, member, inTask⟩
      have different : head ≠ task := fun same => headNew (same ▸ member)
      exact Set.disjoint_left.mp
        (apart head task (List.mem_cons_self) (List.mem_cons_of_mem head member) different) inHead inTask
    have whole := (each head (List.mem_cons_self)).then_apart later (split ▸ injective) separate
    rw [split]
    simpa only [List.foldl_cons] using whole

-- Tasks that write final values may overlap: whatever the order, each cell ends with its own.
theorem Updates.settle {τ : Type} {address : ι → α} (value : ι → β) (order : List τ) (cells : τ → Set ι)
    (run : τ → (α → β) → α → β)
    (each : ∀ task, task ∈ order → Updates (cells task) address (fun index _ => value index) (run task))
    (injective : Set.InjOn address {index | ∃ task, task ∈ order ∧ index ∈ cells task}) (store : α → β) :
    (∀ index, (∃ task, task ∈ order ∧ index ∈ cells task) →
      order.foldl (fun current task => run task current) store (address index) = value index) ∧
    ∀ place, (∀ task, task ∈ order → ∀ index, index ∈ cells task → address index ≠ place) →
      order.foldl (fun current task => run task current) store place = store place := by
  induction order using List.reverseRecOn with
  | nil =>
    refine ⟨?_, fun _ _ => rfl⟩
    rintro index ⟨task, member, _⟩
    exact absurd member List.not_mem_nil
  | append_singleton before last ih =>
    have earlier := ih (fun task member => each task (List.mem_append_left _ member)) (fun i inFirst j inSecond same => by
      obtain ⟨task, member, inside⟩ := inFirst
      obtain ⟨task', member', inside'⟩ := inSecond
      exact injective ⟨task, List.mem_append_left _ member, inside⟩ ⟨task', List.mem_append_left _ member', inside'⟩ same)
    have final := each last (List.mem_append_right _ List.mem_cons_self)
    simp only [List.foldl_append, List.foldl_cons, List.foldl_nil]
    refine ⟨?_, fun place apart => ?_⟩
    · rintro index ⟨task, member, inside⟩
      by_cases here : index ∈ cells last
      · exact final.written _ index here
      · have past : task ∈ before := by
          rcases List.mem_append.mp member with early | late
          · exact early
          · rw [List.mem_singleton.mp late] at inside
            exact absurd inside here
        rw [final.kept _ (address index) (fun other inLast same => here (by
          have equal := injective ⟨last, List.mem_append_right _ List.mem_cons_self, inLast⟩ ⟨task, member, inside⟩ same
          rwa [← equal]))]
        exact earlier.1 index ⟨task, past, inside⟩
    · rw [final.kept _ place (apart last (List.mem_append_right _ List.mem_cons_self))]
      exact earlier.2 place (fun task member => apart task (List.mem_append_left _ member))

theorem Updates.loop_apart {address : ι → α} {value : ι → β → β} (count : Nat) (cells : Nat → Set ι)
    (run : Nat → (α → β) → α → β)
    (each : ∀ task, task < count → Updates (cells task) address value (run task))
    (injective : Set.InjOn address {index | ∃ task, task < count ∧ index ∈ cells task})
    (apart : ∀ first second, first < count → second < count → first ≠ second →
      Disjoint (cells first) (cells second)) :
    Updates {index | ∃ task, task < count ∧ index ∈ cells task} address value (loop count run) := by
  have listed : ∀ total state, (List.range total).foldl (fun current task => run task current) state =
      loop total run state := by
    intro total state
    induction total with
    | zero => rfl
    | succ total ih => rw [List.range_succ, List.foldl_append, ih]; rfl
  have whole := Updates.tasks (List.range count) cells run List.nodup_range
    (fun task member => each task (List.mem_range.mp member))
    (injective.mono (by rintro index ⟨task, member, inside⟩; exact ⟨task, List.mem_range.mp member, inside⟩))
    (fun first second inFirst inSecond => apart first second (List.mem_range.mp inFirst) (List.mem_range.mp inSecond))
  refine (whole.congr ?_ (fun _ _ _ => rfl)).congr_run (fun store => (listed count store).symm)
  ext index
  simp only [List.mem_range, Set.mem_ofPred_eq]

theorem updates_elementwise [DecidableEq α] (count : Nat) (address : Nat → α) (value : Nat → β → β)
    (injective : Set.InjOn address (Set.Iio count)) :
    Updates (Set.Iio count) address value
      (loop count (fun index store => Function.update store (address index) (value index (store (address index))))) := by
  have covered : {index | ∃ task, task < count ∧ index ∈ ({task} : Set Nat)} = Set.Iio count := by
    ext index
    simp only [Set.mem_singleton_iff, Set.mem_ofPred_eq, Set.mem_Iio, exists_eq_right']
  have whole := Updates.loop_apart count (fun task => ({task} : Set Nat))
    (fun index store => Function.update store (address index) (value index (store (address index))))
    (fun task _ => updates_point task address value) (covered ▸ injective)
    (fun first second _ _ different => Set.disjoint_singleton.mpr different)
  exact whole.congr covered (fun _ _ _ => rfl)

theorem updates_grid [DecidableEq α] (rows columns : Nat) (address : Nat × Nat → α) (value : Nat × Nat → β → β)
    (injective : Set.InjOn address {cell | cell.1 < rows ∧ cell.2 < columns}) :
    Updates {cell | cell.1 < rows ∧ cell.2 < columns} address value
      (loop columns (fun j store => loop rows (fun i store =>
        Function.update store (address (i, j)) (value (i, j) (store (address (i, j))))) store)) := by
  have covered : {cell : Nat × Nat | ∃ j, j < columns ∧ cell ∈ (fun i => (i, j)) '' Set.Iio rows} =
      {cell | cell.1 < rows ∧ cell.2 < columns} := by
    ext ⟨i, j⟩
    constructor
    · rintro ⟨j', small, i', inRows, same⟩
      cases same
      exact ⟨inRows, small⟩
    · rintro ⟨inRows, small⟩
      exact ⟨j, small, i, inRows, rfl⟩
  have column : ∀ j, j < columns → Updates ((fun i => (i, j)) '' Set.Iio rows) address value
      (loop rows (fun i store =>
        Function.update store (address (i, j)) (value (i, j) (store (address (i, j)))))) := by
    intro j small
    refine Updates.reindex (fun i => (i, j)) (updates_elementwise rows (fun i => address (i, j)) (fun i => value (i, j)) ?_)
    intro i inFirst i' inSecond same
    exact congrArg Prod.fst (injective (show (i, j) ∈ _ from ⟨inFirst, small⟩) (show (i', j) ∈ _ from ⟨inSecond, small⟩) same)
  have whole := Updates.loop_apart columns (fun j => (fun i => (i, j)) '' Set.Iio rows) _ column (covered ▸ injective) (by
    intro first second _ _ different
    rw [Set.disjoint_left]
    rintro cell ⟨i, _, rfl⟩ ⟨i', _, same⟩
    exact different (congrArg Prod.snd same).symm)
  exact whole.congr covered (fun _ _ _ => rfl)

theorem image_shift (first last : Nat) : (fun step => first + step) '' Set.Iio (last - first) = Set.Ico first last := by
  ext index
  simp only [Set.mem_image, Set.mem_Iio, Set.mem_Ico]
  constructor
  · rintro ⟨step, small, rfl⟩
    omega
  · rintro ⟨lower, upper⟩
    exact ⟨index - first, by omega, by omega⟩

theorem updates_range [DecidableEq α] (first last : Nat) (address : Nat → α) (value : Nat → β → β)
    (injective : Set.InjOn address (Set.Ico first last)) :
    Updates (Set.Ico first last) address value
      (loopRange first last
        (fun index store => Function.update store (address index) (value index (store (address index))))) := by
  have moved : Set.InjOn (fun step => address (first + step)) (Set.Iio (last - first)) := by
    intro i inFirst j inSecond same
    simp only [Set.mem_Iio] at inFirst inSecond
    have equal := injective (Set.mem_Ico.mpr ⟨Nat.le_add_right first i, by omega⟩)
      (Set.mem_Ico.mpr ⟨Nat.le_add_right first j, by omega⟩) same
    omega
  have shifted := updates_elementwise (last - first) (fun step => address (first + step))
    (fun step => value (first + step)) moved
  exact (Updates.reindex (fun step => first + step) shifted).congr (image_shift first last) (fun _ _ _ => rfl)

theorem Updates.extend {cells larger : Set ι} {address : ι → α} {value : ι → β → β} {run : (α → β) → α → β}
    (updates : Updates cells address value run) (inside : cells ⊆ larger) (injective : Set.InjOn address larger)
    (idle : ∀ index old, index ∈ larger → index ∉ cells → value index old = old) :
    Updates larger address value run := by
  constructor
  · intro store index member
    by_cases touched : index ∈ cells
    · exact updates.written store index touched
    · rw [idle index _ member touched]
      refine updates.kept store (address index) (fun other inCells same => touched ?_)
      rwa [← injective (inside inCells) member same]
  · intro store place apart
    exact updates.kept store place (fun index member => apart index (inside member))

theorem Updates.restrict {cells larger : Set ι} {address : ι → α} {value : ι → β → β} {run : (α → β) → α → β}
    (updates : Updates larger address value run) (inside : cells ⊆ larger)
    (idle : ∀ index old, index ∈ larger → index ∉ cells → value index old = old) : Updates cells address value run := by
  constructor
  · exact fun store index member => updates.written store index (inside member)
  · intro store place apart
    by_cases reached : ∃ index, index ∈ larger ∧ address index = place
    · obtain ⟨index, member, rfl⟩ := reached
      rw [updates.written store index member, idle index _ member (fun touched => apart index touched rfl)]
    · exact updates.kept store place (fun index member same => reached ⟨index, member, same⟩)

theorem start_injective (start : Nat) (cells : Set Nat) : Set.InjOn (fun i => start + i) cells :=
  fun i _ j _ same => by simp only at same; omega

theorem updates_elementwise_range (start first last : Nat) (value : Nat → β → β) :
    Updates (Set.Ico first last) (fun i => start + i) value
      (loopRange first last (fun i store => Function.update store (start + i) (value i (store (start + i))))) :=
  updates_range first last (fun i => start + i) value (start_injective start _)

theorem Ico_from_zero (n : Nat) : Set.Ico 0 n = Set.Iio n := by
  ext index
  simp only [Set.mem_Ico, Set.mem_Iio, Nat.zero_le, true_and]

-- One run seen from outside: what it wrote and what it left alone.
structure Wrote (cells : Set ι) (address : ι → α) (value : ι → β → β) (before after : α → β) : Prop where
  written : ∀ index, index ∈ cells → after (address index) = value index (before (address index))
  kept : ∀ place, (∀ index, index ∈ cells → address index ≠ place) → after place = before place

theorem Updates.wrote {cells : Set ι} {address : ι → α} {value : ι → β → β} {run : (α → β) → α → β}
    (updates : Updates cells address value run) (store : α → β) : Wrote cells address value store (run store) :=
  ⟨updates.written store, updates.kept store⟩

theorem updates_of_wrote {cells : Set ι} {address : ι → α} {value : ι → β → β} {run : (α → β) → α → β}
    (wrote : ∀ store, Wrote cells address value store (run store)) : Updates cells address value run :=
  ⟨fun store => (wrote store).written, fun store => (wrote store).kept⟩

theorem Wrote.unique {cells : Set ι} {address : ι → α} {value : ι → β → β} {before after after' : α → β}
    (left : Wrote cells address value before after) (right : Wrote cells address value before after') : after = after' := by
  funext place
  by_cases inside : ∃ index, index ∈ cells ∧ address index = place
  · obtain ⟨index, member, rfl⟩ := inside
    rw [left.written index member, right.written index member]
  · have apart : ∀ index, index ∈ cells → address index ≠ place :=
      fun index member same => inside ⟨index, member, same⟩
    rw [left.kept place apart, right.kept place apart]

theorem Wrote.after {cells : Set ι} {address : ι → α} {first second : ι → β → β} {run : (α → β) → α → β}
    {store after : α → β} (updates : Updates cells address first run) (wrote : Wrote cells address second (run store) after) :
    Wrote cells address (fun index old => second index (first index old)) store after :=
  ⟨fun index member => by rw [wrote.written index member, updates.written store index member],
    fun place apart => by rw [wrote.kept place apart, updates.kept store place apart]⟩

theorem Wrote.congr {cells : Set ι} {address : ι → α} {value value' : ι → β → β} {before after : α → β}
    (wrote : Wrote cells address value before after)
    (same : ∀ index old, index ∈ cells → value index old = value' index old) : Wrote cells address value' before after :=
  ⟨fun index member => by rw [wrote.written index member, same index _ member], wrote.kept⟩

theorem wrote_nothing (address : ι → α) (value : ι → β → β) (store : α → β) :
    Wrote (∅ : Set ι) address value store store :=
  ⟨fun _ member => absurd member (Set.notMem_empty _), fun _ _ => rfl⟩

theorem updates_copy_through [DecidableEq α] (count : Nat) (address : Nat → α) (value : Nat → β → β)
    (vector : (Nat → β) → Nat → β) (injective : Set.InjOn address (Set.Iio count))
    (updates : Updates (Set.Iio count) (fun i => i) value vector) :
    Updates (Set.Iio count) address value (fun store =>
      loop count (fun i current => Function.update current (address i) (vector (fun i => store (address i)) i)) store) := by
  refine updates_of_wrote (fun store => ?_)
  have copied := updates_elementwise count address (fun i _ => vector (fun i => store (address i)) i) injective
  refine ⟨fun index member => ?_, fun place apart => copied.kept store place apart⟩
  rw [copied.written store index member, updates.written _ index member]

theorem attempt_updates {cells : Set ι} {address : ι → α} {value : ι → β → β} (attempt : (α → β) → Option (α → β))
    {fallback : (α → β) → α → β}
    (tried : ∀ before after, attempt before = some after → Wrote cells address value before after)
    (portable : Updates cells address value fallback) :
    Updates cells address value (fun y => (attempt y).getD (fallback y)) := by
  refine updates_of_wrote (fun y => ?_)
  cases answer : attempt y with
  | none => exact portable.wrote y
  | some after => exact tried y after answer

-- A routine that answers whether it ran. One that declines leaves the store as it was.
structure Attempts (cells : Set ι) (address : ι → α) (value : ι → β → β)
    (attempt : (α → β) → Bool × (α → β)) : Prop where
  ran : ∀ store, (attempt store).1 = true → Wrote cells address value store (attempt store).2
  declined : ∀ store, (attempt store).1 = false → (attempt store).2 = store

def orElse {σ : Type v} (attempt : Bool × σ) (fallback : σ → σ) : σ :=
  if attempt.1 then attempt.2 else fallback attempt.2

def orTry {σ : Type v} (attempt : Bool × σ) (next : σ → Bool × σ) : Bool × σ :=
  if attempt.1 then attempt else next attempt.2

theorem attempts_decline (cells : Set ι) (address : ι → α) (value : ι → β → β) :
    Attempts cells address value (fun store => (false, store)) :=
  ⟨fun _ answer => (nomatch answer), fun _ _ => rfl⟩

theorem Updates.attempts {cells : Set ι} {address : ι → α} {value : ι → β → β} {run : (α → β) → α → β}
    (updates : Updates cells address value run) : Attempts cells address value (fun store => (true, run store)) :=
  ⟨fun store _ => updates.wrote store, fun _ answer => (nomatch answer)⟩

theorem Attempts.congr_run {cells : Set ι} {address : ι → α} {value : ι → β → β}
    {attempt attempt' : (α → β) → Bool × (α → β)} (attempts : Attempts cells address value attempt)
    (same : ∀ store, attempt' store = attempt store) : Attempts cells address value attempt' := by
  have equal : attempt' = attempt := funext same
  rwa [equal]

theorem Attempts.congr {cells : Set ι} {address : ι → α} {value value' : ι → β → β}
    {attempt : (α → β) → Bool × (α → β)} (attempts : Attempts cells address value attempt)
    (sameValue : ∀ index old, index ∈ cells → value index old = value' index old) :
    Attempts cells address value' attempt :=
  ⟨fun store answer => (attempts.ran store answer).congr sameValue, attempts.declined⟩

theorem Attempts.or_else {cells : Set ι} {address : ι → α} {value : ι → β → β} {attempt : (α → β) → Bool × (α → β)}
    {fallback : (α → β) → α → β} (attempts : Attempts cells address value attempt)
    (portable : Updates cells address value fallback) :
    Updates cells address value (fun store => orElse (attempt store) fallback) := by
  refine updates_of_wrote (fun store => ?_)
  cases answer : (attempt store).1 with
  | true =>
    rw [orElse, if_pos answer]
    exact attempts.ran store answer
  | false =>
    rw [orElse, if_neg (by rw [answer]; exact Bool.false_ne_true), attempts.declined store answer]
    exact portable.wrote store

theorem Attempts.or_try {cells : Set ι} {address : ι → α} {value : ι → β → β}
    {first second : (α → β) → Bool × (α → β)} (left : Attempts cells address value first)
    (right : Attempts cells address value second) :
    Attempts cells address value (fun store => orTry (first store) second) := by
  constructor
  · intro store answer
    cases earlier : (first store).1 with
    | true =>
      rw [orTry, if_pos earlier]
      exact left.ran store earlier
    | false =>
      rw [orTry, if_neg (by rw [earlier]; exact Bool.false_ne_true), left.declined store earlier] at answer ⊢
      exact right.ran store answer
  · intro store answer
    cases earlier : (first store).1 with
    | true =>
      rw [orTry, if_pos earlier, earlier] at answer
      exact nomatch answer
    | false =>
      rw [orTry, if_neg (by rw [earlier]; exact Bool.false_ne_true), left.declined store earlier] at answer ⊢
      exact right.declined store answer

-- A dispatch that either ran all of its tasks or none of them.
def answered {σ : Type v} (outcome : Option σ) (state : σ) : Bool × σ :=
  match outcome with
  | some done => (true, done)
  | none => (false, state)

theorem attempts_answered {cells : Set ι} {address : ι → α} {value : ι → β → β} {dispatch : (α → β) → Option (α → β)}
    (tried : ∀ before after, dispatch before = some after → Wrote cells address value before after) :
    Attempts cells address value (fun store => answered (dispatch store) store) := by
  constructor
  · intro store answer
    cases outcome : dispatch store with
    | none =>
      rw [outcome] at answer
      exact nomatch answer
    | some done => exact tried store done outcome
  · intro store answer
    cases outcome : dispatch store with
    | none => rfl
    | some done =>
      rw [outcome] at answer
      exact nomatch answer

theorem attempts_guard {cells : Set ι} {address : ι → α} {value : ι → β → β} {first second : (α → β) → Bool × (α → β)}
    (condition : Prop) [Decidable condition] (left : condition → Attempts cells address value first)
    (right : ¬ condition → Attempts cells address value second) :
    Attempts cells address value (fun store => if condition then first store else second store) := by
  by_cases holds : condition
  · exact (left holds).congr_run (fun store => by rw [if_pos holds])
  · exact (right holds).congr_run (fun store => by rw [if_neg holds])

theorem updates_guard {cells : Set ι} {address : ι → α} {value : ι → β → β} {first second : (α → β) → α → β}
    (condition : Prop) [Decidable condition] (left : condition → Updates cells address value first)
    (right : ¬ condition → Updates cells address value second) :
    Updates cells address value (fun store => if condition then first store else second store) := by
  by_cases holds : condition
  · exact (left holds).congr_run (fun store => by rw [if_pos holds])
  · exact (right holds).congr_run (fun store => by rw [if_neg holds])

-- An operation applied through a pointer moved forward by offset.
def onTail (offset : Nat) (run : (Nat → β) → Nat → β) (store : Nat → β) : Nat → β :=
  fun place => if place < offset then store place else run (fun rest => store (offset + rest)) (place - offset)

def view (store : Nat → β) (offset : Nat) : Nat → β := fun place => store (offset + place)

@[simp] theorem view_apply (store : Nat → β) (offset place : Nat) : view store offset place = store (offset + place) := rfl

theorem Updates.on_tail {cells : Set ι} {address : ι → Nat} {value : ι → β → β} {run : (Nat → β) → Nat → β}
    (updates : Updates cells address value run) (offset : Nat) :
    Updates cells (fun index => offset + address index) value (onTail offset run) := by
  constructor
  · intro store index member
    have reached : ¬ offset + address index < offset := by omega
    simp only [onTail, reached, if_false, Nat.add_sub_cancel_left]
    exact updates.written _ index member
  · intro store place apart
    by_cases before : place < offset
    · simp only [onTail, before, if_true]
    · simp only [onTail, before, if_false]
      rw [updates.kept _ (place - offset)]
      · congr 1
        omega
      · intro index member same
        exact apart index member (by omega)

end ArrayProgram
