import Zynum.Foundation.Loop
import Mathlib.Logic.Relation

set_option autoImplicit false

/- Programs that read and write single cells of a memory other programs may
   share. A read whose value the program throws away is an access like any
   other, but no result depends on it. -/
namespace ArrayProgram

inductive Program (α β A : Type) where
  | done (result : A)
  | load (place : α) (next : β → Program α β A)
  | discard (place : α) (next : Program α β A)
  | store (place : α) (value : β) (next : Program α β A)

namespace Program

variable {α β A B : Type}

def bind (first : Program α β A) (next : A → Program α β B) : Program α β B :=
  match first with
  | .done result => next result
  | .load place rest => .load place (fun value => (rest value).bind next)
  | .discard place rest => .discard place (rest.bind next)
  | .store place value rest => .store place value (rest.bind next)

instance : Monad (Program α β) where
  pure := .done
  bind := .bind

theorem bind_done (program : Program α β A) : program.bind .done = program := by
  induction program with
  | done result => rfl
  | load place rest ih => exact congrArg (Program.load place) (funext ih)
  | discard place rest ih => exact congrArg (Program.discard place) ih
  | store place value rest ih => exact congrArg (Program.store place value) ih

theorem bind_assoc {C : Type} (first : Program α β A) (second : A → Program α β B) (third : B → Program α β C) :
    (first.bind second).bind third = first.bind (fun result => (second result).bind third) := by
  induction first with
  | done result => rfl
  | load place rest ih => exact congrArg (Program.load place) (funext ih)
  | discard place rest ih => exact congrArg (Program.discard place) ih
  | store place value rest ih => exact congrArg (Program.store place value) ih

def get (place : α) : Program α β β := .load place .done

def drop (place : α) : Program α β Unit := .discard place (.done ())

def put (place : α) (value : β) : Program α β Unit := .store place value (.done ())

def fold (count : Nat) (body : Nat → A → Program α β A) (initial : A) : Program α β A :=
  match count with
  | 0 => .done initial
  | past + 1 => (fold past body initial).bind (body past)

def each (count : Nat) (body : Nat → Program α β Unit) : Program α β Unit :=
  fold count (fun step _ => body step) ()

def foldItems {ι : Type} (items : List ι) (body : ι → A → Program α β A) (initial : A) : Program α β A :=
  match items with
  | [] => .done initial
  | item :: rest => (body item initial).bind (foldItems rest body)

def eachItem {ι : Type} (items : List ι) (body : ι → Program α β Unit) : Program α β Unit :=
  foldItems items (fun item _ => body item) ()

theorem fold_items_append {ι : Type} (items rest : List ι) (body : ι → A → Program α β A) (initial : A) :
    foldItems (items ++ rest) body initial = (foldItems items body initial).bind (foldItems rest body) := by
  induction items generalizing initial with
  | nil => rfl
  | cons item more ih =>
    change (body item initial).bind (foldItems (more ++ rest) body) =
      ((body item initial).bind (foldItems more body)).bind (foldItems rest body)
    rw [bind_assoc]
    exact congrArg _ (funext ih)

theorem each_item_append {ι : Type} (items rest : List ι) (body : ι → Program α β Unit) :
    eachItem (items ++ rest) body = (eachItem items body).bind (fun _ => eachItem rest body) :=
  fold_items_append items rest _ ()

theorem each_item_single {ι : Type} (item : ι) (body : ι → Program α β Unit) : eachItem [item] body = body item :=
  bind_done (body item)

section Running

variable [DecidableEq α]

def run (program : Program α β A) (memory : α → β) : A × (α → β) :=
  match program with
  | .done result => (result, memory)
  | .load place next => (next (memory place)).run memory
  | .discard _ next => next.run memory
  | .store place value next => next.run (Function.update memory place value)

@[simp] theorem run_done (result : A) (memory : α → β) : (done result : Program α β A).run memory = (result, memory) :=
  rfl

@[simp] theorem run_pure (result : A) (memory : α → β) : (pure result : Program α β A).run memory = (result, memory) :=
  rfl

@[simp] theorem run_get (place : α) (memory : α → β) : (get place).run memory = (memory place, memory) := rfl

@[simp] theorem run_drop (place : α) (memory : α → β) : (drop place).run memory = ((), memory) := rfl

@[simp] theorem run_put (place : α) (value : β) (memory : α → β) :
    (put place value).run memory = ((), Function.update memory place value) := rfl

theorem run_bind (first : Program α β A) (next : A → Program α β B) (memory : α → β) :
    (first.bind next).run memory = (next (first.run memory).1).run (first.run memory).2 := by
  induction first generalizing memory with
  | done result => rfl
  | load place rest ih => exact ih (memory place) memory
  | discard place rest ih => exact ih memory
  | store place value rest ih => exact ih (Function.update memory place value)

@[simp] theorem run_do (first : Program α β A) (next : A → Program α β B) (memory : α → β) :
    (first >>= next).run memory = (next (first.run memory).1).run (first.run memory).2 :=
  run_bind first next memory

@[simp] theorem run_fold_zero (body : Nat → A → Program α β A) (initial : A) (memory : α → β) :
    (fold 0 body initial).run memory = (initial, memory) := rfl

theorem run_fold_succ (count : Nat) (body : Nat → A → Program α β A) (initial : A) (memory : α → β) :
    (fold (count + 1) body initial).run memory =
      (body count ((fold count body initial).run memory).1).run ((fold count body initial).run memory).2 :=
  run_bind _ _ memory

theorem run_each_succ (count : Nat) (body : Nat → Program α β Unit) (memory : α → β) :
    (each (count + 1) body).run memory = (body count).run ((each count body).run memory).2 :=
  run_fold_succ count _ () memory

theorem run_fold_items_cons {ι : Type} (item : ι) (rest : List ι) (body : ι → A → Program α β A) (initial : A)
    (memory : α → β) :
    (foldItems (item :: rest) body initial).run memory =
      (foldItems rest body ((body item initial).run memory).1).run ((body item initial).run memory).2 :=
  run_bind _ _ memory

theorem run_each_item_cons {ι : Type} (item : ι) (rest : List ι) (body : ι → Program α β Unit) (memory : α → β) :
    (eachItem (item :: rest) body).run memory = (eachItem rest body).run ((body item).run memory).2 :=
  run_bind _ _ memory

end Running

/- Which cells a program may touch and what it promises to return, whatever
   values it reads. -/
section Reach

def Within (allowed : Set α) (promise : A → Prop) (program : Program α β A) : Prop :=
  match program with
  | .done result => promise result
  | .load place next => place ∈ allowed ∧ ∀ value, (next value).Within allowed promise
  | .discard place next => place ∈ allowed ∧ next.Within allowed promise
  | .store place _ next => place ∈ allowed ∧ next.Within allowed promise

theorem Within.bind {allowed : Set α} {middle : A → Prop} {promise : B → Prop} {first : Program α β A}
    {next : A → Program α β B} (before : first.Within allowed middle)
    (after : ∀ result, middle result → (next result).Within allowed promise) :
    (first.bind next).Within allowed promise := by
  induction first with
  | done result => exact after result before
  | load place rest ih => exact ⟨before.1, fun value => ih value (before.2 value)⟩
  | discard place rest ih => exact ⟨before.1, ih before.2⟩
  | store place value rest ih => exact ⟨before.1, ih before.2⟩

theorem Within.weaken {allowed : Set α} {promise weaker : A → Prop} {program : Program α β A}
    (inside : program.Within allowed promise) (implies : ∀ result, promise result → weaker result) :
    program.Within allowed weaker := by
  induction program with
  | done result => exact implies result inside
  | load place rest ih => exact ⟨inside.1, fun value => ih value (inside.2 value)⟩
  | discard place rest ih => exact ⟨inside.1, ih inside.2⟩
  | store place value rest ih => exact ⟨inside.1, ih inside.2⟩

theorem within_fold (allowed : Set α) (promise : A → Prop) (count : Nat) (body : Nat → A → Program α β A) (initial : A)
    (start : promise initial)
    (inside : ∀ step state, step < count → promise state → (body step state).Within allowed promise) :
    (fold count body initial).Within allowed promise := by
  induction count with
  | zero => exact start
  | succ count ih =>
    have before := ih (fun step state small => inside step state (Nat.lt_succ_of_lt small))
    exact before.bind (fun state held => inside count state (Nat.lt_succ_self count) held)

theorem within_fold_items {ι : Type} (allowed : Set α) (promise : A → Prop) (items : List ι)
    (body : ι → A → Program α β A) (initial : A) (start : promise initial)
    (inside : ∀ item state, item ∈ items → promise state → (body item state).Within allowed promise) :
    (foldItems items body initial).Within allowed promise := by
  induction items generalizing initial with
  | nil => exact start
  | cons item rest ih =>
    have first := inside item initial List.mem_cons_self start
    exact first.bind (fun state held => ih state held
      (fun other current member => inside other current (List.mem_cons_of_mem _ member)))

variable [DecidableEq α]

def touched (program : Program α β A) (memory : α → β) : Set α :=
  match program with
  | .done _ => ∅
  | .load place next => insert place ((next (memory place)).touched memory)
  | .discard place next => insert place (next.touched memory)
  | .store place value next => insert place (next.touched (Function.update memory place value))

theorem touched_bind (first : Program α β A) (next : A → Program α β B) (memory : α → β) :
    (first.bind next).touched memory =
      first.touched memory ∪ (next (first.run memory).1).touched (first.run memory).2 := by
  induction first generalizing memory with
  | done result => exact (Set.empty_union _).symm
  | load place rest ih =>
    have inner := ih (memory place) memory
    simp only [bind, touched, inner, run, Set.insert_union]
  | discard place rest ih => simp only [bind, touched, ih memory, run, Set.insert_union]
  | store place value rest ih => simp only [bind, touched, ih _, run, Set.insert_union]

theorem touched_within {allowed : Set α} {promise : A → Prop} {program : Program α β A} {memory : α → β}
    (inside : program.Within allowed promise) : program.touched memory ⊆ allowed := by
  induction program generalizing memory with
  | done result => exact Set.empty_subset allowed
  | load place rest ih => exact Set.insert_subset inside.1 (ih (memory place) (inside.2 (memory place)))
  | discard place rest ih => exact Set.insert_subset inside.1 (ih inside.2)
  | store place value rest ih => exact Set.insert_subset inside.1 (ih inside.2)

end Reach

/- A program that may run beside others keeps to its own cells and to cells
   nobody changes; such a cell may be written back with the value it holds. -/
section Respect

variable [DecidableEq α]

def Respects (own fixed : Set α) (program : Program α β A) (memory : α → β) : Prop :=
  match program with
  | .done _ => True
  | .load place next => (place ∈ own ∨ place ∈ fixed) ∧ (next (memory place)).Respects own fixed memory
  | .discard _ next => next.Respects own fixed memory
  | .store place value next =>
    (place ∈ own ∨ (place ∈ fixed ∧ value = memory place)) ∧
      next.Respects own fixed (Function.update memory place value)

theorem respects_bind {own fixed : Set α} {first : Program α β A} {next : A → Program α β B} {memory : α → β}
    (before : first.Respects own fixed memory)
    (after : (next (first.run memory).1).Respects own fixed (first.run memory).2) :
    (first.bind next).Respects own fixed memory := by
  induction first generalizing memory with
  | done result => exact after
  | load place rest ih => exact ⟨before.1, ih (memory place) before.2 after⟩
  | discard place rest ih => exact ih before after
  | store place value rest ih => exact ⟨before.1, ih before.2 after⟩

theorem respects_fold {own fixed : Set α} (count : Nat) (body : Nat → A → Program α β A) (initial : A)
    (memory : α → β)
    (each : ∀ step, step < count → (body step ((fold step body initial).run memory).1).Respects own fixed
      ((fold step body initial).run memory).2) :
    (fold count body initial).Respects own fixed memory := by
  induction count with
  | zero => trivial
  | succ count ih =>
    have before := ih (fun step small => each step (Nat.lt_succ_of_lt small))
    exact respects_bind before (each count (Nat.lt_succ_self count))

theorem run_idle {program : Program α β A} {memory : α → β} (idle : program.Respects ∅ Set.univ memory) :
    (program.run memory).2 = memory := by
  induction program generalizing memory with
  | done result => rfl
  | load place rest ih => exact ih (memory place) idle.2
  | discard place rest ih => exact ih idle
  | store place value rest ih =>
    have held : value = memory place := by
      rcases idle.1 with mine | ⟨_, same⟩
      · exact absurd mine (Set.notMem_empty place)
      · exact same
    have rest' := idle.2
    rw [held, Function.update_eq_self] at rest'
    change (rest.run (Function.update memory place value)).2 = memory
    rw [held, Function.update_eq_self]
    exact ih rest'

theorem respects_everything (program : Program α β A) (memory : α → β) : program.Respects Set.univ ∅ memory := by
  induction program generalizing memory with
  | done result => trivial
  | load place rest ih => exact ⟨.inl (Set.mem_univ place), ih (memory place) memory⟩
  | discard place rest ih => exact ih memory
  | store place value rest ih => exact ⟨.inl (Set.mem_univ place), ih (Function.update memory place value)⟩

end Respect

end Program

/- The cells of a set hold given values afterwards, every other cell what it held. -/
structure Overwrites {ι α β : Type} (cells : Set ι) (address : ι → α) (value : ι → β) (before after : α → β) : Prop where
  written : ∀ cell, cell ∈ cells → after (address cell) = value cell
  kept : ∀ place, (∀ cell, cell ∈ cells → address cell ≠ place) → after place = before place

section Overwriting

variable {ι α β : Type} {cells others : Set ι} {address : ι → α} {value : ι → β} {before middle after : α → β}

theorem overwrites_nothing (address : ι → α) (value : ι → β) (memory : α → β) :
    Overwrites (∅ : Set ι) address value memory memory :=
  ⟨fun _ member => absurd member (Set.notMem_empty _), fun _ _ => rfl⟩

theorem Overwrites.then (first : Overwrites cells address value before middle)
    (next : Overwrites others address value middle after)
    (apart : ∀ cell other, cell ∈ cells → other ∈ others → address other ≠ address cell) :
    Overwrites (cells ∪ others) address value before after := by
  constructor
  · intro cell member
    rcases member with early | late
    · rw [next.kept (address cell) (fun other inside => apart cell other early inside), first.written cell early]
    · exact next.written cell late
  · intro place outside
    rw [next.kept place (fun cell member => outside cell (.inr member)),
      first.kept place (fun cell member => outside cell (.inl member))]

theorem Overwrites.congr {value' : ι → β} (overwrites : Overwrites cells address value before after)
    (same : ∀ cell, cell ∈ cells → value cell = value' cell) : Overwrites cells address value' before after := by
  refine ⟨fun cell member => ?_, overwrites.kept⟩
  rw [overwrites.written cell member, same cell member]

theorem Overwrites.of_eq {cells' : Set ι} (overwrites : Overwrites cells address value before after)
    (same : cells = cells') : Overwrites cells' address value before after := same ▸ overwrites

theorem Overwrites.unique {final final' : α → β} (left : Overwrites cells address value before final)
    (right : Overwrites cells address value before final') : final = final' := by
  funext place
  by_cases inside : ∃ cell, cell ∈ cells ∧ address cell = place
  · obtain ⟨cell, member, rfl⟩ := inside
    rw [left.written cell member, right.written cell member]
  · have outside : ∀ cell, cell ∈ cells → address cell ≠ place := fun cell member same => inside ⟨cell, member, same⟩
    rw [left.kept place outside, right.kept place outside]

end Overwriting

/- Several programs over one memory, one access at a time in any order. -/
structure Pool (α β A : Type) where
  tasks : Nat → Program α β A
  memory : α → β

namespace Pool

variable {α β A : Type} [DecidableEq α]

def advance (task : Program α β A) (memory : α → β) : Option (Program α β A × (α → β)) :=
  match task with
  | .done _ => none
  | .load place next => some (next (memory place), memory)
  | .discard _ next => some (next, memory)
  | .store place value next => some (next, Function.update memory place value)

inductive Step (count : Nat) : Pool α β A → Pool α β A → Prop where
  | task (pool : Pool α β A) (index : Nat) (small : index < count) (next : Program α β A) (memory : α → β)
      (moves : advance (pool.tasks index) pool.memory = some (next, memory)) :
      Step count pool ⟨Function.update pool.tasks index next, memory⟩

abbrev Steps (count : Nat) : Pool α β A → Pool α β A → Prop := Relation.ReflTransGen (Step count)

def Finishes (count : Nat) (tasks : Nat → Program α β A) (memory : α → β) (results : Nat → A) (final : α → β) : Prop :=
  ∃ pool, Steps count ⟨tasks, memory⟩ pool ∧ pool.memory = final ∧
    ∀ index, index < count → pool.tasks index = .done (results index)

theorem run_alone (count index : Nat) (small : index < count) (tasks : Nat → Program α β A) (B : Type)
    (first : Program α β B) (next : B → Program α β A) (memory : α → β) (here : tasks index = first.bind next) :
    Steps count ⟨tasks, memory⟩
      ⟨Function.update tasks index (next (first.run memory).1), (first.run memory).2⟩ := by
  induction first generalizing memory tasks with
  | done result =>
    have same : Function.update tasks index (next result) = tasks := by
      rw [← show tasks index = next result from here, Function.update_eq_self]
    change Steps count ⟨tasks, memory⟩ ⟨Function.update tasks index (next result), memory⟩
    rw [same]
  | load place rest ih =>
    have first := Step.task ⟨tasks, memory⟩ index small ((rest (memory place)).bind next) memory
      (by rw [show (⟨tasks, memory⟩ : Pool α β A).tasks index = _ from here]; rfl)
    have others := ih (memory place) (Function.update tasks index ((rest (memory place)).bind next)) memory
      (Function.update_self _ _ _)
    rw [Function.update_idem] at others
    exact .head first others
  | discard place rest ih =>
    have first := Step.task ⟨tasks, memory⟩ index small (rest.bind next) memory
      (by rw [show (⟨tasks, memory⟩ : Pool α β A).tasks index = _ from here]; rfl)
    have others := ih (Function.update tasks index (rest.bind next)) memory (Function.update_self _ _ _)
    rw [Function.update_idem] at others
    exact .head first others
  | store place value rest ih =>
    have first := Step.task ⟨tasks, memory⟩ index small (rest.bind next) (Function.update memory place value)
      (by rw [show (⟨tasks, memory⟩ : Pool α β A).tasks index = _ from here]; rfl)
    have others := ih (Function.update tasks index (rest.bind next)) (Function.update memory place value)
      (Function.update_self _ _ _)
    rw [Function.update_idem] at others
    exact .head first others

/- Programs with cells of their own, over a memory whose other cells stay fixed,
   end as if each had run alone. -/
section Apart

variable {count : Nat} {own : Nat → Set α} {fixed : Set α} {start : α → β} {tasks : Nat → Program α β A}

structure Alone (own fixed : Set α) (start : α → β) (whole task : Program α β A) (memory : α → β) (solo : α → β) :
    Prop where
  respects : task.Respects own fixed solo
  agrees : ∀ place, place ∈ own → solo place = memory place
  untouched : ∀ place, place ∈ fixed → solo place = start place
  ends : task.run solo = whole.run start

theorem Alone.other {own fixed : Set α} {start memory solo : α → β} {whole task : Program α β A} {place : α}
    {value : β} (alone : Alone own fixed start whole task memory solo) (outside : place ∉ own) :
    Alone own fixed start whole task (Function.update memory place value) solo := by
  refine ⟨alone.respects, ?_, alone.untouched, alone.ends⟩
  intro cell inside
  have different : cell ≠ place := fun same => outside (same ▸ inside)
  rw [Function.update_of_ne different]
  exact alone.agrees cell inside

theorem Alone.advance {own fixed : Set α} {start memory memory' solo : α → β} {whole task next : Program α β A}
    (alone : Alone own fixed start whole task memory solo) (still : ∀ place, place ∈ fixed → memory place = start place)
    (apart : Disjoint own fixed) (moves : Pool.advance task memory = some (next, memory')) :
    ∃ solo', Alone own fixed start whole next memory' solo' ∧
      (memory' = memory ∨ ∃ place value, place ∈ own ∧ memory' = Function.update memory place value) := by
  obtain ⟨respects, agrees, untouched, ends⟩ := alone
  cases task with
  | done result => exact nomatch (show none = some _ from moves)
  | load place rest =>
    obtain ⟨rfl, rfl⟩ := Prod.mk.inj (Option.some.inj moves)
    have same : memory place = solo place := by
      rcases respects.1 with mine | constant
      · exact (agrees place mine).symm
      · rw [untouched place constant, still place constant]
    rw [same]
    exact ⟨solo, ⟨respects.2, agrees, untouched, ends⟩, .inl rfl⟩
  | discard place rest =>
    obtain ⟨rfl, rfl⟩ := Prod.mk.inj (Option.some.inj moves)
    exact ⟨solo, ⟨respects, agrees, untouched, ends⟩, .inl rfl⟩
  | store place value rest =>
    obtain ⟨rfl, rfl⟩ := Prod.mk.inj (Option.some.inj moves)
    rcases respects.1 with mine | ⟨constant, idle⟩
    · refine ⟨Function.update solo place value, ⟨respects.2, ?_, ?_, ends⟩, .inr ⟨place, value, mine, rfl⟩⟩
      · intro cell inside
        by_cases same : cell = place
        · rw [same, Function.update_self, Function.update_self]
        · rw [Function.update_of_ne same, Function.update_of_ne same]
          exact agrees cell inside
      · intro cell inside
        have different : cell ≠ place := fun same => Set.disjoint_left.mp apart mine (same ▸ inside)
        rw [Function.update_of_ne different]
        exact untouched cell inside
    · have kept : Function.update solo place value = solo := by rw [idle, Function.update_eq_self]
      have held : Function.update memory place value = memory := by
        rw [idle, untouched place constant, ← still place constant, Function.update_eq_self]
      have rest' := respects.2
      have ends' : rest.run (Function.update solo place value) = whole.run start := ends
      rw [kept] at rest' ends'
      rw [held]
      exact ⟨solo, ⟨rest', agrees, untouched, ends'⟩, .inl rfl⟩

structure Invariant (count : Nat) (own : Nat → Set α) (fixed : Set α) (start : α → β) (tasks : Nat → Program α β A)
    (pool : Pool α β A) : Prop where
  still : ∀ place, place ∈ fixed → pool.memory place = start place
  alone : ∀ index, index < count →
    ∃ solo, Alone (own index) fixed start (tasks index) (pool.tasks index) pool.memory solo

theorem Invariant.step {pool next : Pool α β A}
    (apart : ∀ index, index < count → Disjoint (own index) fixed)
    (disjoint : ∀ first second, first < count → second < count → first ≠ second → Disjoint (own first) (own second))
    (holds : Invariant count own fixed start tasks pool) (step : Step count pool next) :
    Invariant count own fixed start tasks next := by
  cases step with
  | task index small task' memory' moves =>
    obtain ⟨solo, alone⟩ := holds.alone index small
    obtain ⟨solo', alone', change⟩ := alone.advance holds.still (apart index small) moves
    constructor
    · intro place inside
      change memory' place = start place
      rcases change with same | ⟨cell, value, mine, changed⟩
      · rw [same]
        exact holds.still place inside
      · have different : place ≠ cell := fun same => Set.disjoint_left.mp (apart index small) mine (same ▸ inside)
        rw [changed, Function.update_of_ne different]
        exact holds.still place inside
    · intro other inside
      change ∃ solo, Alone (own other) fixed start (tasks other) (Function.update pool.tasks index task' other) memory' solo
      by_cases same : other = index
      · subst same
        refine ⟨solo', ?_⟩
        rw [Function.update_self]
        exact alone'
      · obtain ⟨theirs, quiet⟩ := holds.alone other inside
        refine ⟨theirs, ?_⟩
        rw [Function.update_of_ne same]
        rcases change with kept | ⟨cell, value, mine, changed⟩
        · rw [kept]
          exact quiet
        · rw [changed]
          exact quiet.other
            (Set.disjoint_left.mp (disjoint index other small inside (Ne.symm same)) mine)

theorem Invariant.steps {pool next : Pool α β A}
    (apart : ∀ index, index < count → Disjoint (own index) fixed)
    (disjoint : ∀ first second, first < count → second < count → first ≠ second → Disjoint (own first) (own second))
    (holds : Invariant count own fixed start tasks pool) (steps : Steps count pool next) :
    Invariant count own fixed start tasks next := by
  induction steps with
  | refl => exact holds
  | tail _ step ih => exact ih.step apart disjoint step

theorem finishes_alone {results : Nat → A} {final : α → β}
    (apart : ∀ index, index < count → Disjoint (own index) fixed)
    (disjoint : ∀ first second, first < count → second < count → first ≠ second → Disjoint (own first) (own second))
    (respects : ∀ index, index < count → (tasks index).Respects (own index) fixed start)
    (finishes : Finishes count tasks start results final) :
    (∀ index, index < count → results index = ((tasks index).run start).1 ∧
      ∀ place, place ∈ own index → final place = ((tasks index).run start).2 place) ∧
    ∀ place, place ∈ fixed → final place = start place := by
  obtain ⟨pool, steps, rfl, finished⟩ := finishes
  have initial : Invariant count own fixed start tasks ⟨tasks, start⟩ :=
    ⟨fun _ _ => rfl, fun index small => ⟨start, respects index small, fun _ _ => rfl, fun _ _ => rfl, rfl⟩⟩
  have holds := initial.steps apart disjoint steps
  refine ⟨fun index small => ?_, holds.still⟩
  obtain ⟨solo, alone⟩ := holds.alone index small
  have ended : (results index, solo) = (tasks index).run start := by
    rw [← alone.ends, finished index small]
    rfl
  rw [← ended]
  exact ⟨rfl, fun place mine => (alone.agrees place mine).symm⟩

theorem finishes_one {program : Program α β A} {results : Nat → A} {final : α → β}
    (finishes : Finishes 1 (fun _ => program) start results final) : final = (program.run start).2 := by
  have ends := finishes_alone (fun _ _ => Set.disjoint_empty Set.univ)
    (fun first second inFirst inSecond different => absurd (by omega : first = second) different)
    (fun _ _ => Program.respects_everything program start) finishes
  exact funext fun place => (ends.1 0 Nat.one_pos).2 place (Set.mem_univ place)

theorem finishes_reading {results : Nat → A} {final : α → β}
    (reads : ∀ index, index < count → (tasks index).Respects ∅ Set.univ start)
    (finishes : Finishes count tasks start results final) :
    (∀ index, index < count → results index = ((tasks index).run start).1) ∧ final = start := by
  have ends := finishes_alone (fun _ _ => Set.empty_disjoint _) (fun _ _ _ _ _ => Set.empty_disjoint _) reads finishes
  exact ⟨fun index small => (ends.1 index small).1, funext fun place => ends.2 place (Set.mem_univ place)⟩

theorem finishes_overwrites {ι : Type} (cells : Nat → Set ι) {address : ι → α} {value : ι → β} {results : Nat → A}
    {final : α → β}
    (apart : ∀ first second cell other, first < count → second < count → first ≠ second → cell ∈ cells first →
      other ∈ cells second → address cell ≠ address other)
    (respects : ∀ index, index < count → (tasks index).Respects (address '' cells index)
      {place | ∀ task cell, task < count → cell ∈ cells task → address cell ≠ place} start)
    (overwrites : ∀ index, index < count → Overwrites (cells index) address value start ((tasks index).run start).2)
    (finishes : Finishes count tasks start results final) :
    (∀ index, index < count → results index = ((tasks index).run start).1) ∧
      Overwrites {cell | ∃ index, index < count ∧ cell ∈ cells index} address value start final := by
  have ends := finishes_alone
    (fun index small => Set.disjoint_left.mpr (by
      rintro place ⟨cell, member, rfl⟩ outside
      exact outside index cell small member rfl))
    (fun first second inFirst inSecond different => Set.disjoint_left.mpr (by
      rintro place ⟨cell, member, rfl⟩ ⟨other, inside, same⟩
      exact apart first second cell other inFirst inSecond different member inside same.symm))
    respects finishes
  refine ⟨fun index small => (ends.1 index small).1, ?_, ?_⟩
  · rintro cell ⟨index, small, member⟩
    rw [(ends.1 index small).2 (address cell) ⟨cell, member, rfl⟩]
    exact (overwrites index small).written cell member
  · intro place outside
    exact ends.2 place (fun task cell small member => outside cell ⟨task, small, member⟩)

end Apart

/- The cell the next access of a program touches. -/
section Access

def access (task : Program α β A) : Option α :=
  match task with
  | .done _ => none
  | .load place _ => some place
  | .discard place _ => some place
  | .store place _ _ => some place

def Reaches (count : Nat) (tasks : Nat → Program α β A) (memory : α → β) (place : α) : Prop :=
  ∃ pool, Steps count ⟨tasks, memory⟩ pool ∧ ∃ index, index < count ∧ access (pool.tasks index) = some place

omit [DecidableEq α] in
theorem access_within {allowed : Set α} {promise : A → Prop} {task : Program α β A} (inside : task.Within allowed promise)
    (place : α)
    (next : access task = some place) : place ∈ allowed := by
  cases task with
  | done result => exact nomatch (show none = some _ from next)
  | load cell rest => exact Option.some.inj next ▸ inside.1
  | discard cell rest => exact Option.some.inj next ▸ inside.1
  | store cell value rest => exact Option.some.inj next ▸ inside.1

theorem advance_within {allowed : Set α} {promise : A → Prop} {task next : Program α β A} {memory memory' : α → β}
    (inside : task.Within allowed promise) (moves : advance task memory = some (next, memory')) :
    next.Within allowed promise := by
  cases task with
  | done result => exact nomatch (show none = some _ from moves)
  | load place rest => exact (Prod.mk.inj (Option.some.inj moves)).1 ▸ inside.2 (memory place)
  | discard place rest => exact (Prod.mk.inj (Option.some.inj moves)).1 ▸ inside.2
  | store place value rest => exact (Prod.mk.inj (Option.some.inj moves)).1 ▸ inside.2

theorem steps_within {allowed : Set α} {promise : Nat → A → Prop} {count : Nat} {pool next : Pool α β A}
    (inside : ∀ index, index < count → (pool.tasks index).Within allowed (promise index))
    (steps : Steps count pool next) :
    ∀ index, index < count → (next.tasks index).Within allowed (promise index) := by
  induction steps with
  | refl => exact inside
  | @tail before _ _ step ih =>
    cases step with
    | task index small task' memory' moves =>
      intro other bounded
      change Program.Within allowed (promise other) (Function.update before.tasks index task' other)
      by_cases same : other = index
      · subst same
        rw [Function.update_self]
        exact advance_within (ih other bounded) moves
      · rw [Function.update_of_ne same]
        exact ih other bounded

theorem reaches_within {allowed : Set α} {promise : Nat → A → Prop} {count : Nat} {tasks : Nat → Program α β A}
    {memory : α → β} {place : α} (inside : ∀ index, index < count → (tasks index).Within allowed (promise index))
    (reaches : Reaches count tasks memory place) :
    place ∈ allowed := by
  obtain ⟨pool, steps, index, small, next⟩ := reaches
  exact access_within (steps_within inside steps index small) place next

theorem finishes_within {allowed : Set α} {promise : Nat → A → Prop} {count : Nat} {tasks : Nat → Program α β A}
    {memory final : α → β} {results : Nat → A}
    (inside : ∀ index, index < count → (tasks index).Within allowed (promise index))
    (finishes : Finishes count tasks memory results final) : ∀ index, index < count → promise index (results index) := by
  obtain ⟨pool, steps, _, finished⟩ := finishes
  intro index small
  have last := steps_within inside steps index small
  rw [finished index small] at last
  exact last

theorem touched_reaches (count index : Nat) (small : index < count) (tasks : Nat → Program α β A) (memory : α → β)
    (place : α) (touches : place ∈ (tasks index).touched memory) : Reaches count tasks memory place := by
  have search : ∀ (task : Program α β A) (pool : Pool α β A), pool.tasks index = task →
      place ∈ task.touched pool.memory →
      ∃ next, Steps count pool next ∧ access (next.tasks index) = some place := by
    intro task
    induction task with
    | done result => exact fun pool _ member => absurd member (Set.notMem_empty place)
    | load cell rest ih =>
      intro pool here member
      rcases Set.mem_insert_iff.mp member with rfl | later
      · exact ⟨pool, .refl, by rw [here]; rfl⟩
      · have first := Step.task pool index small (rest (pool.memory cell)) pool.memory (by rw [here]; rfl)
        obtain ⟨next, steps, found⟩ := ih (pool.memory cell)
          ⟨Function.update pool.tasks index (rest (pool.memory cell)), pool.memory⟩ (Function.update_self _ _ _) later
        exact ⟨next, .head first steps, found⟩
    | discard cell rest ih =>
      intro pool here member
      rcases Set.mem_insert_iff.mp member with rfl | later
      · exact ⟨pool, .refl, by rw [here]; rfl⟩
      · have first := Step.task pool index small rest pool.memory (by rw [here]; rfl)
        obtain ⟨next, steps, found⟩ := ih ⟨Function.update pool.tasks index rest, pool.memory⟩
          (Function.update_self _ _ _) later
        exact ⟨next, .head first steps, found⟩
    | store cell value rest ih =>
      intro pool here member
      rcases Set.mem_insert_iff.mp member with rfl | later
      · exact ⟨pool, .refl, by rw [here]; rfl⟩
      · have first := Step.task pool index small rest (Function.update pool.memory cell value) (by rw [here]; rfl)
        obtain ⟨next, steps, found⟩ := ih
          ⟨Function.update pool.tasks index rest, Function.update pool.memory cell value⟩
          (Function.update_self _ _ _) later
        exact ⟨next, .head first steps, found⟩
  obtain ⟨next, steps, found⟩ := search (tasks index) ⟨tasks, memory⟩ rfl touches
  exact ⟨next, steps, index, small, found⟩

end Access

theorem finishes_exists [Inhabited A] (count : Nat) (tasks : Nat → Program α β A) (memory : α → β) :
    ∃ results final, Finishes count tasks memory results final := by
  have prefixes : ∀ total, total ≤ count → ∃ pool : Pool α β A, Steps count ⟨tasks, memory⟩ pool ∧
      ∀ index, index < total → ∃ result, pool.tasks index = .done result := by
    intro total
    induction total with
    | zero => exact fun _ => ⟨_, .refl, fun index small => absurd small (Nat.not_lt_zero index)⟩
    | succ total ih =>
      intro inside
      obtain ⟨pool, steps, finished⟩ := ih (by omega)
      have last := run_alone count total inside pool.tasks A (pool.tasks total) .done pool.memory
        (Program.bind_done _).symm
      refine ⟨_, steps.trans last, fun index small => ?_⟩
      change ∃ result, Function.update pool.tasks total _ index = .done result
      by_cases same : index = total
      · rw [same, Function.update_self]
        exact ⟨_, rfl⟩
      · rw [Function.update_of_ne same]
        exact finished index (by omega)
  obtain ⟨pool, steps, finished⟩ := prefixes count (Nat.le_refl count)
  choose result ends using finished
  refine ⟨fun index => if small : index < count then result index small else default, pool.memory, pool, steps, rfl, ?_⟩
  intro index small
  simp only [small, dif_pos]
  exact ends index small

end Pool

/- A program that may hand work to tasks, waits for all of them and goes on with
   what they returned. -/
inductive Execution (α β B A : Type) where
  | single (program : Program α β A)
  | fork (count : Nat) (tasks : Nat → Program α β B) (next : (Nat → B) → Execution α β B A)

namespace Execution

variable {α β A B : Type}

def Within (allowed : Set α) (execution : Execution α β B A) : Prop :=
  match execution with
  | .single program => program.Within allowed (fun _ => True)
  | .fork count tasks next =>
    ∃ promise : Nat → B → Prop, (∀ index, index < count → (tasks index).Within allowed (promise index)) ∧
      ∀ results, (∀ index, index < count → promise index (results index)) → (next results).Within allowed

variable [DecidableEq α]

def Outcome (execution : Execution α β B A) (memory : α → β) (result : A) (final : α → β) : Prop :=
  match execution with
  | .single program => program.run memory = (result, final)
  | .fork count tasks next =>
    ∃ results middle, Pool.Finishes count tasks memory results middle ∧ (next results).Outcome middle result final

def Reaches (execution : Execution α β B A) (memory : α → β) (place : α) : Prop :=
  match execution with
  | .single program => place ∈ program.touched memory
  | .fork count tasks next =>
    Pool.Reaches count tasks memory place ∨
      ∃ results middle, Pool.Finishes count tasks memory results middle ∧ (next results).Reaches middle place

theorem outcome_exists [Inhabited B] (execution : Execution α β B A) (memory : α → β) :
    ∃ result final, execution.Outcome memory result final := by
  induction execution generalizing memory with
  | single program => exact ⟨_, _, rfl⟩
  | fork count tasks next ih =>
    obtain ⟨results, middle, finishes⟩ := Pool.finishes_exists count tasks memory
    obtain ⟨result, final, rest⟩ := ih results middle
    exact ⟨result, final, results, middle, finishes, rest⟩

def andThen (first second : Execution α β Unit Unit) : Execution α β Unit Unit :=
  match first with
  | .single program => .fork 1 (fun _ => program) (fun _ => second)
  | .fork count tasks next => .fork count tasks (fun results => (next results).andThen second)

theorem outcome_and_then {first second : Execution α β Unit Unit} {memory final : α → β} {result : Unit}
    (outcome : (first.andThen second).Outcome memory result final) :
    ∃ middle, first.Outcome memory () middle ∧ second.Outcome middle result final := by
  induction first generalizing memory with
  | single program =>
    obtain ⟨results, middle, finishes, rest⟩ := outcome
    refine ⟨middle, ?_, rest⟩
    rw [Pool.finishes_one finishes]
    rfl
  | fork count tasks next ih =>
    obtain ⟨results, between, finishes, rest⟩ := outcome
    obtain ⟨middle, ends, last⟩ := ih results rest
    exact ⟨middle, ⟨results, between, finishes, ends⟩, last⟩

theorem reaches_within {allowed : Set α} {execution : Execution α β B A} {memory : α → β} {place : α}
    (inside : execution.Within allowed) (reaches : execution.Reaches memory place) : place ∈ allowed := by
  induction execution generalizing memory with
  | single program => exact Program.touched_within inside reaches
  | fork count tasks next ih =>
    obtain ⟨promise, kept, rest⟩ := inside
    rcases reaches with here | ⟨results, middle, finishes, later⟩
    · exact Pool.reaches_within kept here
    · exact ih results (rest results (Pool.finishes_within kept finishes)) later

end Execution

end ArrayProgram
