import Zynum.Execution.ThreadPoolWorkers

set_option autoImplicit false

/- The jobs of one dispatch on the board of its slots: slot 0 is the caller's,
   slot k that of the k-th helper or of the k-th thread of the group. A step of
   a task function is a move on the board, and so is every step of a worker. -/
namespace Zynum.ThreadPool

open JobBoard

variable {C : Type}

def Body.slot : Body → Slot
  | .called => .called
  | .working job => .working job

def restSlot : Option Body → Slot
  | some body => body.slot
  | none => .spent

def WorkerState.slot (generation : BitVec 32) : WorkerState C → Slot
  | .running _ _ _ _ body => body.slot
  | .acknowledging _ => .spent
  | .idle seen => if seen = generation then .spent else .waiting
  | _ => .waiting

def HelperState.slot : HelperState → Slot
  | .running body => body.slot
  | _ => .spent

def crew (own : Slot) (size : Nat) (others : Nat → Slot) : Nat → Slot
  | 0 => own
  | helper + 1 => if helper < size then others helper else .waiting

theorem crew_update (own state : Slot) (size : Nat) (others : Nat → Slot) (helper : Nat) (inside : helper < size) :
    crew own size (Function.update others helper state) = Function.update (crew own size others) (helper + 1) state := by
  funext slot
  cases slot with
  | zero => rfl
  | succ other =>
    by_cases same : other = helper
    · subst same
      rw [Function.update_self, crew, Function.update_self, if_pos inside]
    · rw [Function.update_of_ne (fun equal => same (Nat.succ.inj equal)), crew, crew, Function.update_of_ne same]

theorem crew_own (own state : Slot) (size : Nat) (others : Nat → Slot) :
    Function.update (crew own size others) 0 state = crew state size others := by
  funext slot
  cases slot with
  | zero => rw [Function.update_self, crew]
  | succ other => rw [Function.update_of_ne (Nat.succ_ne_zero other), crew, crew]

theorem crew_grow (own : Slot) (size : Nat) (others : Nat → Slot) :
    crew own (size + 1) others = Function.update (crew own size others) (size + 1) (others size) := by
  funext slot
  cases slot with
  | zero => rfl
  | succ other =>
    by_cases last : other = size
    · subst last
      rw [Function.update_self, crew, if_pos (Nat.lt_succ_self other)]
    · rw [Function.update_of_ne (fun equal => last (Nat.succ.inj equal)), crew, crew]
      have below : other < size + 1 ↔ other < size := by omega
      simp only [below]

theorem crew_wait (own : Slot) (size : Nat) (others : Nat → Slot) (waiting : others size = .waiting) :
    crew own (size + 1) others = crew own size others := by
  rw [crew_grow, waiting]
  exact Function.update_eq_self_iff.mpr (by rw [crew, if_neg (Nat.lt_irrefl size)])

theorem crew_nobody (others : Nat → Slot) : crew .waiting 0 others = fun _ => .waiting := by
  funext slot
  cases slot with
  | zero => rfl
  | succ helper => rw [crew, if_neg (Nat.not_lt_zero helper)]

theorem crew_congr (own : Slot) (size : Nat) (others others' : Nat → Slot)
    (same : ∀ helper, helper < size → others helper = others' helper) :
    crew own size others = crew own size others' := by
  funext slot
  cases slot with
  | zero => rfl
  | succ helper =>
    by_cases inside : helper < size
    · rw [crew, crew, same helper inside]
    · rw [crew, crew, if_neg inside, if_neg inside]

def Board (request : Request) (slots : Nat → Slot) (begun ended : List Nat) (next : Nat) : Prop :=
  if request.isQueued = true then Drawn request.jobs slots begun ended next else Direct request.jobs slots begun ended

theorem board_queued {request : Request} (queued : request.isQueued = true) (slots : Nat → Slot) (begun ended : List Nat)
    (next : Nat) :
    Board request slots begun ended next = Drawn request.jobs slots begun ended next := by
  rw [Board, if_pos queued]

theorem board_direct {request : Request} (direct : request.isQueued = false) (slots : Nat → Slot) (begun ended : List Nat)
    (next : Nat) :
    Board request slots begun ended next = Direct request.jobs slots begun ended := by
  rw [Board, direct]
  rfl

theorem board_opened (request : Request) : Board request (fun _ => .waiting) [] [] 0 := by
  cases queued : request.isQueued with
  | true =>
    rw [board_queued queued]
    exact drawn_opened request.jobs
  | false =>
    rw [board_direct queued]
    exact direct_opened request.jobs

theorem Board.enters {request : Request} {slots : Nat → Slot} {begun ended : List Nat} {next slot : Nat}
    (board : Board request slots begun ended next) (waiting : slots slot = .waiting)
    (inside : request.isQueued = false → slot < request.jobs) :
    Board request (Function.update slots slot .called) begun ended next := by
  cases queued : request.isQueued with
  | true =>
    rw [board_queued queued] at board ⊢
    exact Drawn.calls board waiting
  | false =>
    rw [board_direct queued] at board ⊢
    exact Direct.calls board (inside queued) waiting

-- With every slot of a dispatch spent, every job has been done.
theorem Board.complete {request : Request} {width : Nat} {others : Nat → Slot} {begun ended : List Nat} {next : Nat}
    (board : Board request (crew .spent (width - 1) others) begun ended next) (wide : 0 < width)
    (fits : request.isQueued = false → request.jobs = width) (done : ∀ helper, helper < width - 1 → others helper = .spent) :
    Complete request.jobs begun ended := by
  have inside : ∀ slot, slot < width → crew .spent (width - 1) others slot = .spent := by
    intro slot below
    cases slot with
    | zero => rfl
    | succ helper => rw [crew, if_pos (by omega), done helper (by omega)]
  have outside : ∀ slot, width ≤ slot → crew .spent (width - 1) others slot = .waiting := by
    intro slot beyond
    cases slot with
    | zero => omega
    | succ helper => rw [crew, if_neg (by omega)]
  cases queued : request.isQueued with
  | true =>
    rw [board_queued queued] at board
    exact Drawn.complete board wide inside outside
  | false =>
    rw [board_direct queued] at board
    exact Direct.complete board (fun slot below => inside slot (by rw [← fits queued]; exact below))

def BoardOf (requests : C → Request) (caller : C) (slots : Nat → Slot) (s : Pool C) : Prop :=
  Board (requests caller) slots (s.begun caller caller) (s.ended caller caller) (s.next caller)

section Steps

variable [DecidableEq C] {requests : C → Request} {s s' : Pool C} {caller : C}

theorem call_task_queued (queued : (requests caller).isQueued = true) (s : Pool C) (index : Nat) (body : Body) :
    callTask requests s caller caller index body = execute requests s caller caller body := by
  simp only [callTask, if_pos queued]

theorem call_task_begins (direct : (requests caller).isQueued = false) (s : Pool C) (index : Nat) :
    callTask requests s caller caller index .called = (s.begins caller caller index, some (.working index)) := by
  simp only [callTask, direct, Bool.false_eq_true, if_false]

theorem call_task_ends (direct : (requests caller).isQueued = false) (s : Pool C) (index job : Nat) :
    callTask requests s caller caller index (.working job) = (s.ends caller caller job, none) := by
  simp only [callTask, direct, Bool.false_eq_true, if_false]

def Pool.drawn (s : Pool C) (caller : C) : Pool C := { s with next := Function.update s.next caller (s.next caller + 1) }

theorem execute_runs_out (s : Pool C) (passed : (requests caller).jobs ≤ s.next caller) :
    execute requests s caller caller .called = (s.drawn caller, none) := by
  simp only [execute, if_pos passed]
  rfl

theorem execute_draws (s : Pool C) (left : s.next caller < (requests caller).jobs) :
    execute requests s caller caller .called = ((s.drawn caller).begins caller caller (s.next caller), some
      (.working (s.next caller))) := by
  simp only [execute, if_neg (Nat.not_le_of_lt left)]
  rfl

theorem begins_at (s : Pool C) (caller : C) (job : Nat) :
    (s.begins caller caller job).begun caller caller = s.begun caller caller ++ [job] := by
  simp only [Pool.begins, Function.update_self]

theorem ends_at (s : Pool C) (caller : C) (job : Nat) :
    (s.ends caller caller job).ended caller caller = s.ended caller caller ++ [job] := by
  simp only [Pool.ends, Function.update_self]

theorem drawn_at (s : Pool C) (caller : C) : (s.drawn caller).next caller = s.next caller + 1 := by
  simp only [Pool.drawn, Function.update_self]

theorem update_elsewhere {β : Type} (table : C → C → β) (caller : C) (value : β) (taskFn tasks : C)
    (other : ¬ (taskFn = caller ∧ tasks = caller)) :
    Function.update table caller (Function.update (table caller) caller value) taskFn tasks = table taskFn tasks := by
  by_cases same : taskFn = caller
  · subst same
    rw [Function.update_self, Function.update_of_ne (fun equal => other ⟨rfl, equal⟩)]
  · rw [Function.update_of_ne same]

theorem begins_elsewhere (s : Pool C) (caller : C) (job : Nat) : SameElsewhere caller s (s.begins caller caller job) :=
  ⟨fun taskFn tasks other => update_elsewhere s.begun caller _ taskFn tasks other, fun _ _ _ => rfl, fun _ _ => rfl⟩

theorem ends_elsewhere (s : Pool C) (caller : C) (job : Nat) : SameElsewhere caller s (s.ends caller caller job) :=
  ⟨fun _ _ _ => rfl, fun taskFn tasks other => update_elsewhere s.ended caller _ taskFn tasks other, fun _ _ => rfl⟩

theorem drawn_elsewhere (s : Pool C) (caller : C) : SameElsewhere caller s (s.drawn caller) :=
  ⟨fun _ _ _ => rfl, fun _ _ _ => rfl, fun _ apart => Function.update_of_ne apart _ _⟩

omit [DecidableEq C] in
theorem SameElsewhere.trans {s'' : Pool C} (first : SameElsewhere caller s s') (second : SameElsewhere caller s' s'') :
    SameElsewhere caller s s'' :=
  ⟨fun taskFn tasks other => (second.begun taskFn tasks other).trans (first.begun taskFn tasks other),
    fun taskFn tasks other => (second.ended taskFn tasks other).trans (first.ended taskFn tasks other),
    fun other apart => (second.next other apart).trans (first.next other apart)⟩

theorem call_task_elsewhere (requests : C → Request) (s : Pool C) (caller : C) (index : Nat) (body : Body) :
    SameElsewhere caller s (callTask requests s caller caller index body).1 := by
  cases queued : (requests caller).isQueued with
  | true =>
    rw [call_task_queued queued]
    cases body with
    | called =>
      by_cases passed : (requests caller).jobs ≤ s.next caller
      · rw [execute_runs_out s passed]
        exact drawn_elsewhere s caller
      · rw [execute_draws s (Nat.lt_of_not_le passed)]
        exact (drawn_elsewhere s caller).trans (begins_elsewhere _ caller _)
    | working job => exact ends_elsewhere s caller job
  | false =>
    cases body with
    | called =>
      rw [call_task_begins queued]
      exact begins_elsewhere s caller index
    | working job =>
      rw [call_task_ends queued]
      exact ends_elsewhere s caller job

theorem call_task_board (requests : C → Request) (s : Pool C) (caller : C) (index : Nat) (body : Body)
    (slots : Nat → Slot) (here : slots index = body.slot)
    (board : BoardOf requests caller slots s) :
    BoardOf requests caller (Function.update slots index (restSlot (callTask requests s caller caller index body).2))
      (callTask requests s caller caller index body).1 := by
  unfold BoardOf at *
  cases queued : (requests caller).isQueued with
  | true =>
    rw [call_task_queued queued]
    rw [board_queued queued] at board ⊢
    cases body with
    | called =>
      by_cases passed : (requests caller).jobs ≤ s.next caller
      · rw [execute_runs_out s passed, drawn_at]
        exact Drawn.runs_out board here passed
      · have left := Nat.lt_of_not_le passed
        rw [execute_draws s left, begins_at]
        change Drawn _ _ _ _ ((s.drawn caller).next caller)
        rw [drawn_at]
        exact Drawn.draws board here left
    | working job =>
      rw [execute, ends_at]
      exact Drawn.finishes board here
  | false =>
    rw [board_direct queued] at board ⊢
    cases body with
    | called =>
      rw [call_task_begins queued, begins_at]
      exact Direct.begins board here
    | working job =>
      rw [call_task_ends queued, ends_at]
      exact Direct.finishes board here

def helperSlots (s : Pool C) (firstHelper helper : Nat) : Slot :=
  (s.workers (firstHelper + helper)).slot (s.generation (firstHelper + helper))

omit [DecidableEq C] in
theorem helper_slots_replace (s s' : Pool C) (firstHelper helper : Nat) (state : WorkerState C)
    (workers : s'.workers = Function.update s.workers (firstHelper + helper) state) (generation : s'.generation = s.generation) :
    helperSlots s' firstHelper =
      Function.update (helperSlots s firstHelper) helper (state.slot (s.generation (firstHelper + helper))) := by
  funext other
  by_cases same : other = helper
  · subst same
    rw [Function.update_self, helperSlots, workers, generation, Function.update_self]
  · have apart : firstHelper + other ≠ firstHelper + helper := fun equal => same (Nat.add_left_cancel equal)
    rw [Function.update_of_ne same, helperSlots, workers, generation, Function.update_of_ne apart, helperSlots]

theorem worker_busy {worker : Nat} (taken : stepWorker requests s worker = some s') :
    s.workers worker ≠ .absent ∧ ∀ seen, s.workers worker = .idle seen → seen ≠ s.generation worker := by
  constructor
  · intro absent
    simp only [stepWorker, absent, reduceCtorEq] at taken
  · intro seen idle current
    simp only [stepWorker, idle, current, if_true, reduceCtorEq] at taken

-- What a worker's step is to the dispatch it works for: a move of its own slot on the board.
structure Served (requests : C → Request) (caller : C) (width firstHelper bumped : Nat) (own : Slot) (s s' : Pool C) : Prop where
  dispatching : Dispatching s' caller width firstHelper bumped
  board : BoardOf requests caller (crew own bumped (helperSlots s' firstHelper)) s'
  elsewhere : SameElsewhere caller s s'

variable {width firstHelper bumped helper doneCount : Nat} {own : Slot} {state : WorkerState C}

omit [DecidableEq C] in
theorem Dispatching.advance (dispatch : Dispatching s caller width firstHelper bumped) (inside : helper < bumped)
    (board : BoardOf requests caller (crew own bumped (helperSlots s firstHelper)) s)
    (before : (s.workers (firstHelper + helper)).isIdle (s.generation (firstHelper + helper)) = false)
    (serving : Serving caller width (helper + 1) (s.generation (firstHelper + helper)) state)
    (counted : doneCount = s.doneCount + if state.isIdle (s.generation (firstHelper + helper)) = true then 1 else 0)
    (slot : state.slot (s.generation (firstHelper + helper)) = helperSlots s firstHelper helper) :
    Served requests caller width firstHelper bumped own s
      { s with workers := Function.update s.workers (firstHelper + helper) state, doneCount := doneCount } := by
  have slots := helper_slots_replace s
    { s with workers := Function.update s.workers (firstHelper + helper) state, doneCount := doneCount } firstHelper
    helper state rfl rfl
  refine ⟨dispatch.replace inside before serving counted s.begun s.ended s.next, ?_,
    ⟨fun _ _ _ => rfl, fun _ _ _ => rfl, fun _ _ => rfl⟩⟩
  rw [slots, slot, Function.update_eq_self]
  exact board

omit [DecidableEq C] in
theorem Dispatching.enter (dispatch : Dispatching s caller width firstHelper bumped) (inside : helper < bumped)
    (fits : (requests caller).isQueued = false → (requests caller).jobs = width)
    (board : BoardOf requests caller (crew own bumped (helperSlots s firstHelper)) s)
    (before : (s.workers (firstHelper + helper)).isIdle (s.generation (firstHelper + helper)) = false)
    (serving : Serving caller width (helper + 1) (s.generation (firstHelper + helper)) state)
    (after : state.isIdle (s.generation (firstHelper + helper)) = false)
    (waiting : helperSlots s firstHelper helper = .waiting) (slot : state.slot (s.generation (firstHelper + helper)) = .called) :
    Served requests caller width firstHelper bumped own s
      { s with workers := Function.update s.workers (firstHelper + helper) state } := by
  have slots := helper_slots_replace s { s with workers := Function.update s.workers (firstHelper + helper) state }
    firstHelper helper state rfl rfl
  have within := dispatch.within
  refine ⟨dispatch.replace inside before serving (by rw [after]; rfl) s.begun s.ended s.next, ?_,
    ⟨fun _ _ _ => rfl, fun _ _ _ => rfl, fun _ _ => rfl⟩⟩
  rw [slots, slot, crew_update _ _ _ _ _ inside]
  apply Board.enters board
  · rw [crew, if_pos inside]
    exact waiting
  · intro direct
    rw [fits direct]
    omega

theorem Dispatching.call (dispatch : Dispatching s caller width firstHelper bumped) (inside : helper < bumped) (body : Body)
    (board : BoardOf requests caller (crew own bumped (helperSlots s firstHelper)) s)
    (before : (s.workers (firstHelper + helper)).isIdle (s.generation (firstHelper + helper)) = false)
    (serving : Serving caller width (helper + 1) (s.generation (firstHelper + helper)) state)
    (after : state.isIdle (s.generation (firstHelper + helper)) = false)
    (here : helperSlots s firstHelper helper = body.slot)
    (slot : state.slot (s.generation (firstHelper + helper)) = restSlot (callTask requests s caller caller (helper + 1) body).2) :
    Served requests caller width firstHelper bumped own s
      ((callTask requests s caller caller (helper + 1) body).1.worker (firstHelper + helper) state) := by
  have moved := call_task_board requests s caller (helper + 1) body (crew own bumped (helperSlots s firstHelper))
    (by rw [crew, if_pos inside]; exact here) board
  have elsewhere := call_task_elsewhere requests s caller (helper + 1) body
  rw [← slot, ← crew_update _ _ _ _ _ inside] at moved
  obtain ⟨begun, ended, next, effect⟩ := call_task_frame requests s caller caller (helper + 1) body
  rw [effect] at moved elsewhere ⊢
  have slots := helper_slots_replace s ({ s with begun := begun, ended := ended, next := next }.worker (firstHelper + helper) state)
    firstHelper helper state rfl rfl
  refine ⟨dispatch.replace inside before serving (by rw [after]; rfl) begun ended next, ?_,
    ⟨elsewhere.begun, elsewhere.ended, elsewhere.next⟩⟩
  rw [slots]
  exact moved

theorem Dispatching.moves {worker : Nat} (dispatch : Dispatching s caller width firstHelper bumped)
    (fits : (requests caller).isQueued = false → (requests caller).jobs = width)
    (board : BoardOf requests caller (crew own bumped (helperSlots s firstHelper)) s)
    (taken : stepWorker requests s worker = some s') : Served requests caller width firstHelper bumped own s s' := by
  have moving := worker_busy taken
  obtain ⟨helper, inside, rfl⟩ := dispatch.helper (fun seen idle => moving.2 seen idle) moving.1
  have serving := dispatch.serving helper inside
  have within := dispatch.within
  cases state : s.workers (firstHelper + helper) with
  | idle seen =>
    rw [state] at serving
    have apart : seen ≠ s.generation (firstHelper + helper) := moving.2 seen state
    simp only [stepWorker, state, if_neg (Ne.symm apart), Option.some.injEq] at taken
    subst taken
    apply dispatch.advance inside board
    · rw [state]
      exact beq_eq_false_iff_ne.mpr apart
    · rfl
    · rfl
    · simp only [helperSlots, state, WorkerState.slot, if_neg apart]
  | woken seen =>
    rw [state] at serving
    simp only [stepWorker, state, dispatch.opened, Bool.false_eq_true, if_false, Option.some.injEq] at taken
    subst taken
    exact dispatch.advance inside board (by rw [state]; rfl) serving rfl (by rw [helperSlots, state]; rfl)
  | readTaskFn seen =>
    rw [state] at serving
    simp only [stepWorker, state, Option.some.injEq] at taken
    subst taken
    exact dispatch.advance inside board (by rw [state]; rfl) ⟨serving, dispatch.taskFn⟩ rfl (by rw [helperSlots, state]; rfl)
  | readTasks seen taskFn =>
    rw [state] at serving
    simp only [stepWorker, state, Option.some.injEq] at taken
    subst taken
    exact dispatch.advance inside board (by rw [state]; rfl) ⟨serving.1, serving.2, dispatch.tasks⟩ rfl
      (by rw [helperSlots, state]; rfl)
  | readCount seen taskFn tasks =>
    rw [state] at serving
    simp only [stepWorker, state, Option.some.injEq] at taken
    subst taken
    exact dispatch.advance inside board (by rw [state]; rfl) ⟨serving.1, serving.2.1, serving.2.2, dispatch.jobCount⟩ rfl
      (by rw [helperSlots, state]; rfl)
  | readActive seen taskFn tasks count =>
    rw [state] at serving
    simp only [stepWorker, state, Option.some.injEq] at taken
    subst taken
    exact dispatch.advance inside board (by rw [state]; rfl)
      ⟨serving.1, serving.2.1, serving.2.2.1, serving.2.2.2, dispatch.activeHelpers⟩ rfl (by rw [helperSlots, state]; rfl)
  | readFirst seen taskFn tasks count activeHelpers =>
    rw [state] at serving
    obtain ⟨current, rfl, rfl, rfl, rfl⟩ := serving
    have chosen : ¬ (firstHelper + helper < firstHelper ∨ firstHelper + (count - 1) ≤ firstHelper + helper) := by omega
    have index : firstHelper + helper - firstHelper + 1 = helper + 1 := by omega
    have small : helper + 1 < count := by omega
    simp only [stepWorker, state, dispatch.first, if_neg chosen, index, if_pos small, Option.some.injEq] at taken
    subst taken
    exact dispatch.enter inside fits board (by rw [state]; rfl) ⟨current, rfl, rfl, rfl⟩ rfl (by rw [helperSlots, state]; rfl) rfl
  | running seen taskFn tasks index body =>
    rw [state] at serving
    obtain ⟨current, rfl, rfl, rfl⟩ := serving
    simp only [stepWorker, state] at taken
    have slot : helperSlots s firstHelper helper = body.slot := by rw [helperSlots, state]; rfl
    cases result : (callTask requests s tasks tasks (helper + 1) body).2 with
    | some next =>
      simp only [result, Option.some.injEq] at taken
      subst taken
      exact dispatch.call inside body board (by rw [state]; rfl) ⟨current, rfl, rfl, rfl⟩ rfl slot (by rw [result]; rfl)
    | none =>
      simp only [result, Option.some.injEq] at taken
      subst taken
      exact dispatch.call inside body board (by rw [state]; rfl) current rfl slot (by rw [result]; rfl)
  | acknowledging seen =>
    rw [state] at serving
    have current : seen = s.generation (firstHelper + helper) := serving
    simp only [stepWorker, state, Option.some.injEq] at taken
    subst taken
    have counted : (WorkerState.idle seen : WorkerState C).isIdle (s.generation (firstHelper + helper)) = true :=
      beq_iff_eq.mpr current
    apply dispatch.advance inside board
    · rw [state]
      rfl
    · exact Or.inl current
    · rw [if_pos counted]
    · simp only [helperSlots, state, WorkerState.slot, if_pos current]
  | _ => exact absurd serving (by rw [state]; exact fun same => by cases same)

end Steps

end Zynum.ThreadPool
