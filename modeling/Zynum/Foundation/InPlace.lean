import Zynum.Foundation.Tiles

set_option autoImplicit false

/- Operations that overwrite the store they read. A contract relates the store
   before a run to the store after it; a run over several pieces is judged by what
   each piece finds when its turn comes. -/
namespace ArrayProgram

universe u v w x
variable {ι : Type u} {α : Type w} {β : Type x}

section Contracts

variable {σ : Type v}

def Meets (post : σ → σ → Prop) (run : σ → σ) : Prop := ∀ before, post before (run before)

-- The contract of a routine that may decline; declining leaves the state as it was.
structure Tries (post : σ → σ → Prop) (attempt : σ → Bool × σ) : Prop where
  ran : ∀ before, (attempt before).1 = true → post before (attempt before).2
  declined : ∀ before, (attempt before).1 = false → (attempt before).2 = before

theorem Meets.congr_run {post : σ → σ → Prop} {run run' : σ → σ} (meets : Meets post run)
    (same : ∀ state, run' state = run state) : Meets post run' := by
  have equal : run' = run := funext same
  rwa [equal]

theorem Meets.weaken {post post' : σ → σ → Prop} {run : σ → σ} (meets : Meets post run)
    (implies : ∀ before after, post before after → post' before after) : Meets post' run :=
  fun before => implies _ _ (meets before)

theorem Meets.tries {post : σ → σ → Prop} {run : σ → σ} (meets : Meets post run) :
    Tries post (fun state => (true, run state)) :=
  ⟨fun before _ => meets before, fun _ answer => (nomatch answer)⟩

theorem tries_decline (post : σ → σ → Prop) : Tries post (fun state => (false, state)) :=
  ⟨fun _ answer => (nomatch answer), fun _ _ => rfl⟩

theorem Tries.weaken {post post' : σ → σ → Prop} {attempt : σ → Bool × σ} (tries : Tries post attempt)
    (implies : ∀ before after, post before after → post' before after) : Tries post' attempt :=
  ⟨fun before answer => implies _ _ (tries.ran before answer), tries.declined⟩

theorem Tries.or_else {post : σ → σ → Prop} {attempt : σ → Bool × σ} {fallback : σ → σ} (tries : Tries post attempt)
    (meets : Meets post fallback) : Meets post (fun state => orElse (attempt state) fallback) := by
  intro before
  change post before (orElse (attempt before) fallback)
  cases answer : (attempt before).1 with
  | true =>
    rw [orElse, if_pos answer]
    exact tries.ran before answer
  | false =>
    rw [orElse, if_neg (by rw [answer]; exact Bool.false_ne_true), tries.declined before answer]
    exact meets before

theorem Tries.or_try {post : σ → σ → Prop} {first second : σ → Bool × σ} (left : Tries post first)
    (right : Tries post second) : Tries post (fun state => orTry (first state) second) := by
  constructor
  · intro before answer
    cases earlier : (first before).1 with
    | true =>
      rw [orTry, if_pos earlier]
      exact left.ran before earlier
    | false =>
      rw [orTry, if_neg (by rw [earlier]; exact Bool.false_ne_true), left.declined before earlier] at answer ⊢
      exact right.ran before answer
  · intro before answer
    cases earlier : (first before).1 with
    | true =>
      rw [orTry, if_pos earlier, earlier] at answer
      cases answer
    | false =>
      rw [orTry, if_neg (by rw [earlier]; exact Bool.false_ne_true), left.declined before earlier] at answer ⊢
      exact right.declined before answer

theorem tries_guard {post : σ → σ → Prop} {first second : σ → Bool × σ} (condition : Prop) [Decidable condition]
    (left : condition → Tries post first) (right : ¬ condition → Tries post second) :
    Tries post (fun state => if condition then first state else second state) := by
  by_cases holds : condition
  · simpa only [holds, if_true] using left holds
  · simpa only [holds, if_false] using right holds

theorem meets_guard {post : σ → σ → Prop} {first second : σ → σ} (condition : Prop) [Decidable condition]
    (left : condition → Meets post first) (right : ¬ condition → Meets post second) :
    Meets post (fun state => if condition then first state else second state) := by
  by_cases holds : condition
  · simpa only [holds, if_true] using left holds
  · simpa only [holds, if_false] using right holds

theorem tries_answered {post : σ → σ → Prop} {dispatch : σ → Option σ}
    (tried : ∀ before after, dispatch before = some after → post before after) :
    Tries post (fun state => answered (dispatch state) state) := by
  constructor
  · intro before answer
    cases outcome : dispatch before with
    | none =>
      rw [outcome] at answer
      exact nomatch answer
    | some done => exact tried before done outcome
  · intro before answer
    cases outcome : dispatch before with
    | none => rfl
    | some done =>
      rw [outcome] at answer
      exact nomatch answer

theorem meets_attempt {post : σ → σ → Prop} {dispatch : σ → Option σ} {fallback : σ → σ}
    (tried : ∀ before after, dispatch before = some after → post before after) (meets : Meets post fallback) :
    Meets post (fun state => (dispatch state).getD (fallback state)) := by
  intro before
  change post before ((dispatch before).getD (fallback before))
  cases outcome : dispatch before with
  | none => exact meets before
  | some done => exact tried before done outcome

def Settles (attempt : σ → Bool × σ) (result : σ → σ) : Prop :=
  ∀ state, attempt state = (true, result state) ∨ attempt state = (false, state)

theorem Tries.settles {post : σ → σ → Prop} {attempt : σ → Bool × σ} {result : σ → σ} (tries : Tries post attempt)
    (meets : Meets post result) (unique : ∀ before first second, post before first → post before second → first = second) :
    Settles attempt result := by
  intro before
  cases answer : (attempt before).1 with
  | true =>
    left
    exact Prod.ext answer (unique before _ _ (tries.ran before answer) (meets before))
  | false =>
    right
    exact Prod.ext answer (tries.declined before answer)

end Contracts

section Pieces

theorem Wrote.untouched {cells whole : Set ι} {address : ι → α} {value : ι → β → β} {before after : α → β}
    (wrote : Wrote cells address value before after) (injective : Set.InjOn address whole) (inside : cells ⊆ whole)
    (index : ι) (member : index ∈ whole) (outside : index ∉ cells) : after (address index) = before (address index) :=
  wrote.kept (address index) (fun _ inCells same => outside (injective (inside inCells) member same ▸ inCells))

theorem Wrote.congr_cells {cells cells' : Set ι} {address : ι → α} {value : ι → β → β} {before after : α → β}
    (wrote : Wrote cells address value before after) (same : cells = cells') : Wrote cells' address value before after :=
  same ▸ wrote

theorem Wrote.congr_at {cells : Set ι} {address : ι → α} {value value' : ι → β → β} {before after : α → β}
    (wrote : Wrote cells address value before after)
    (same : ∀ index, index ∈ cells → value index (before (address index)) = value' index (before (address index))) :
    Wrote cells address value' before after :=
  ⟨fun index member => by rw [wrote.written index member, same index member], wrote.kept⟩

theorem Wrote.reindex {κ : Type v} {cells : Set κ} {address : ι → α} {value : ι → β → β} {before after : α → β}
    (rename : κ → ι) (wrote : Wrote cells (fun k => address (rename k)) (fun k => value (rename k)) before after) :
    Wrote (rename '' cells) address value before after := by
  constructor
  · rintro index ⟨k, member, rfl⟩
    exact wrote.written k member
  · intro place apart
    exact wrote.kept place (fun k member => apart (rename k) ⟨k, member, rfl⟩)

theorem Wrote.on_tail {cells : Set ι} {address : ι → Nat} {value : ι → β → β} {run : (Nat → β) → Nat → β} (offset : Nat)
    {before : Nat → β} (wrote : Wrote cells address value (fun rest => before (offset + rest))
      (run fun rest => before (offset + rest))) :
    Wrote cells (fun index => offset + address index) value before (onTail offset run before) := by
  constructor
  · intro index member
    have reached : ¬ offset + address index < offset := by omega
    simp only [onTail, reached, if_false, Nat.add_sub_cancel_left]
    exact wrote.written index member
  · intro place apart
    by_cases earlier : place < offset
    · simp only [onTail, earlier, if_true]
    · simp only [onTail, earlier, if_false]
      rw [wrote.kept (place - offset) (fun index member same => apart index member (by omega))]
      congr 1
      omega

-- Two rounds over cells that may overlap, as long as both store the same values.
theorem Wrote.then_same_target {first second : Set ι} {address : ι → α} {target : ι → β} {before between after : α → β}
    (left : Wrote first address (fun index _ => target index) before between)
    (right : Wrote second address (fun index _ => target index) between after)
    (injective : Set.InjOn address (first ∪ second)) :
    Wrote (first ∪ second) address (fun index _ => target index) before after := by
  constructor
  · intro index member
    by_cases later : index ∈ second
    · exact right.written index later
    · have earlier : index ∈ first := member.resolve_right later
      rw [right.untouched injective Set.subset_union_right index member later, left.written index earlier]
  · intro place apart
    rw [right.kept place (fun index member => apart index (Or.inr member)),
      left.kept place (fun index member => apart index (Or.inl member))]

-- Tasks in a fixed order. Each may rely on what the earlier ones have stored.
theorem wrote_in_order {τ : Type v} (order : List τ) (cells : τ → Set ι) (address : ι → α) (target : ι → β)
    (run : τ → (α → β) → α → β) (before : α → β)
    (injective : Set.InjOn address {index | ∃ task, task ∈ order ∧ index ∈ cells task})
    (each : ∀ done task rest, order = done ++ task :: rest → ∀ current,
      Wrote {index | ∃ task, task ∈ done ∧ index ∈ cells task} address (fun index _ => target index) before current →
      Wrote (cells task) address (fun index _ => target index) current (run task current)) :
    Wrote {index | ∃ task, task ∈ order ∧ index ∈ cells task} address (fun index _ => target index) before
      (order.foldl (fun current task => run task current) before) := by
  have progress : ∀ rest done current, order = done ++ rest →
      Wrote {index | ∃ task, task ∈ done ∧ index ∈ cells task} address (fun index _ => target index) before current →
      Wrote {index | ∃ task, task ∈ order ∧ index ∈ cells task} address (fun index _ => target index) before
        (rest.foldl (fun current task => run task current) current) := by
    intro rest
    induction rest with
    | nil =>
      intro done current split wrote
      rw [split, List.append_nil]
      exact wrote
    | cons task rest ih =>
      intro done current split wrote
      have joined : {index | ∃ other, other ∈ done ∧ index ∈ cells other} ∪ cells task =
          {index | ∃ other, other ∈ done ++ [task] ∧ index ∈ cells other} := by
        ext index
        simp only [Set.mem_union, Set.mem_ofPred_eq, List.mem_append, List.mem_singleton, or_and_right, exists_or,
          exists_eq_left]
      have listed : {index | ∃ other, other ∈ done ++ [task] ∧ index ∈ cells other} ⊆
          {index | ∃ task, task ∈ order ∧ index ∈ cells task} := by
        rintro index ⟨other, member, inside⟩
        refine ⟨other, ?_, inside⟩
        rw [split, List.append_cons]
        exact List.mem_append_left rest member
      have next := wrote.then_same_target (each done task rest split current wrote) (injective.mono (joined ▸ listed))
      rw [joined] at next
      exact ih (done ++ [task]) (run task current) (by rw [split, List.append_assoc, List.singleton_append]) next
  refine progress order [] before rfl ⟨fun index member => ?_, fun _ _ => rfl⟩
  obtain ⟨task, none, _⟩ := member
  exact nomatch none

theorem wrote_independent {τ : Type v} (order : List τ) (cells : τ → Set ι) (address : ι → α) (target : ι → β)
    (run : τ → (α → β) → α → β) (before : α → β) (distinct : order.Nodup)
    (injective : Set.InjOn address {index | ∃ task, task ∈ order ∧ index ∈ cells task})
    (apart : ∀ first second, first ∈ order → second ∈ order → first ≠ second → Disjoint (cells first) (cells second))
    (each : ∀ task, task ∈ order → ∀ current, (∀ index, index ∈ cells task → current (address index) = before (address index)) →
      Wrote (cells task) address (fun index _ => target index) current (run task current)) :
    Wrote {index | ∃ task, task ∈ order ∧ index ∈ cells task} address (fun index _ => target index) before
      (order.foldl (fun current task => run task current) before) := by
  refine wrote_in_order order cells address target run before injective (fun done task rest split current wrote => ?_)
  have listed : task ∈ order := by rw [split]; exact List.mem_append_right done List.mem_cons_self
  have fresh : task ∉ done := by
    intro repeated
    rw [split] at distinct
    exact List.disjoint_of_nodup_append distinct repeated List.mem_cons_self
  refine each task listed current (fun index inside => ?_)
  have earlier : ∀ other, other ∈ done → other ∈ order := fun other member => by
    rw [split]
    exact List.mem_append_left _ member
  refine wrote.untouched injective (fun other ⟨owner, member, owned⟩ => ⟨owner, earlier owner member, owned⟩) index
    ⟨task, listed, inside⟩ ?_
  rintro ⟨owner, member, owned⟩
  have different : owner ≠ task := fun same => fresh (same ▸ member)
  exact Set.disjoint_left.mp (apart owner task (earlier owner member) listed different) owned inside

end Pieces

end ArrayProgram
