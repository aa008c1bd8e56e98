import Zynum.Execution.ThreadPoolExact

set_option autoImplicit false

/- The pool makes progress: the holder of io_busy never waits for a step nobody
   can make, and no step starts a worker beyond the arrays. -/
namespace Zynum.ThreadPool

open JobBoard

variable {C : Type} [DecidableEq C] {requests : C → Request} {s s' : Pool C}

-- A step of the call itself, of a worker, or of a thread of the call's group is enabled.
inductive Movable (requests : C → Request) (s : Pool C) (caller : C) : Prop where
  | call (accepted : Bool) (enabled : (stepCall requests accepted s caller).isSome = true)
  | worker (worker : Nat) (enabled : (stepWorker requests s worker).isSome = true)
  | helper (index : Nat) (enabled : (stepHelper requests s caller index).isSome = true)

theorem Assembling.movable {submitted : Nat} (gathering : Assembling s submitted) (short : s.readyCount < submitted) :
    ∃ worker, (stepWorker requests s worker).isSome = true := by
  rw [gathering.ready] at short
  obtain ⟨worker, inside, missing⟩ := headcount_short short
  have arriving := gathering.arriving worker inside
  refine ⟨worker, ?_⟩
  cases state : s.workers worker with
  | starting => simp only [stepWorker, state, Option.isSome_some]
  | announcing seen => simp only [stepWorker, state, Option.isSome_some]
  | idle seen =>
    rw [state] at arriving missing
    exact absurd (beq_iff_eq.mpr arriving) (Bool.eq_false_iff.mp missing)
  | _ =>
    rw [state] at arriving
    exact absurd arriving not_false

theorem Dispatching.movable {caller : C} {width firstHelper bumped : Nat} (dispatch : Dispatching s caller width firstHelper bumped)
    (short : s.doneCount < bumped) : ∃ worker, (stepWorker requests s worker).isSome = true := by
  rw [dispatch.done] at short
  obtain ⟨helper, inside, missing⟩ := headcount_short short
  have serving := dispatch.serving helper inside
  refine ⟨firstHelper + helper, ?_⟩
  cases state : s.workers (firstHelper + helper) with
  | idle seen =>
    rw [state] at missing
    have apart : s.generation (firstHelper + helper) ≠ seen := Ne.symm (beq_eq_false_iff_ne.mp missing)
    simp only [stepWorker, state, if_neg apart, Option.isSome_some]
  | readFirst seen taskFn tasks count activeHelpers =>
    simp only [stepWorker, state]
    split <;> rfl
  | running seen taskFn tasks index body =>
    simp only [stepWorker, state]
    split <;> rfl
  | absent =>
    rw [state] at serving
    exact absurd serving not_false
  | starting =>
    rw [state] at serving
    exact absurd serving not_false
  | announcing seen =>
    rw [state] at serving
    exact absurd serving not_false
  | _ => simp only [stepWorker, state, Option.isSome_some]

theorem Dismissing.movable {workerCount told : Nat} (dismissal : Dismissing s workerCount told) (short : s.exitedCount < told) :
    ∃ worker, (stepWorker requests s worker).isSome = true := by
  rw [dismissal.gone] at short
  obtain ⟨worker, inside, missing⟩ := headcount_short short
  have leaving := dismissal.leaving worker inside
  refine ⟨worker, ?_⟩
  cases state : s.workers worker with
  | idle seen =>
    rw [state] at leaving
    have behind : s.generation worker = seen + 1 := leaving
    have apart : s.generation worker ≠ seen := fun same => bumped_differs seen (behind.symm.trans same)
    simp only [stepWorker, state, if_neg apart, Option.isSome_some]
  | woken seen => simp only [stepWorker, state, Option.isSome_some]
  | exiting => simp only [stepWorker, state, Option.isSome_some]
  | exited =>
    rw [state] at missing
    cases missing
  | absent =>
    rw [state] at missing
    cases missing
  | _ =>
    rw [state] at leaving
    exact absurd leaving not_false

theorem Movable.of_worker {caller : C} (moves : ∃ worker, (stepWorker requests s worker).isSome = true) : Movable requests
    s caller := by
  obtain ⟨worker, enabled⟩ := moves
  exact .worker worker enabled

theorem ensure_persistent_workers_movable {caller : C} {width : Nat} {stage : EnsureStage} (inv : Inv requests s)
    (stands : s.calls caller = .ensurePersistentWorkers width stage) : Movable requests s caller := by
  have staffed := inv.staffed caller (by rw [stands]; rfl)
  rw [stands] at staffed
  have mine : (ensurePersistentWorkers true s caller width stage).isSome = true → Movable requests s caller := fun enabled =>
    .call true (by simp only [stepCall, stands]; exact enabled)
  cases stage with
  | check =>
    apply mine
    simp only [ensurePersistentWorkers]
    split <;> rfl
  | look =>
    cases init : s.persistentInit with
    | starting => exact absurd init (Resting.settled staffed)
    | _ => exact mine (by simp only [ensurePersistentWorkers, init, Option.isSome_some])
  | await => exact absurd staffed not_false
  | prepare =>
    apply mine
    simp only [ensurePersistentWorkers]
    split <;> rfl
  | submit helperCount submitted =>
    apply mine
    simp only [ensurePersistentWorkers]
    split
    · rfl
    · split <;> rfl
  | gather submitted =>
    by_cases all : submitted ≤ s.readyCount
    · exact mine (by simp only [ensurePersistentWorkers, if_pos all, Option.isSome_some])
    · exact .of_worker (Assembling.movable staffed.1 (Nat.lt_of_not_le all))

theorem run_persistent_movable {caller : C} {width : Nat} {stage : PersistentStage} (inv : Inv requests s)
    (stands : s.calls caller = .runPersistent width stage) : Movable requests s caller := by
  have staffed := inv.staffed caller (by rw [stands]; rfl)
  rw [stands] at staffed
  have mine : (runPersistent requests s caller width stage).isSome = true → Movable requests s caller := fun enabled =>
    .call true (by simp only [stepCall, stands]; exact enabled)
  cases stage with
  | choose =>
    apply mine
    simp only [runPersistent]
    split
    · rfl
    · split
      · rfl
      · split <;> rfl
  | publish firstHelper stored =>
    apply mine
    simp only [runPersistent]
    split <;> rfl
  | bump firstHelper bumped =>
    apply mine
    simp only [runPersistent]
    split <;> rfl
  | own firstHelper body =>
    apply mine
    simp only [runPersistent]
    split <;> rfl
  | collect firstHelper =>
    have dispatch : Dispatching s caller width firstHelper (width - 1) := staffed
    by_cases all : s.doneTarget ≤ s.doneCount
    · exact mine (by simp only [runPersistent, if_pos all, Option.isSome_some])
    · rw [dispatch.doneTarget] at all
      exact .of_worker (dispatch.movable (Nat.lt_of_not_le all))

theorem ensure_io_threaded_movable {caller : C} {width : Nat} {stage : EnsureIoStage} (inv : Inv requests s)
    (stands : s.calls caller = .ensureIoThreaded width stage) : Movable requests s caller := by
  have holding : (s.calls caller).holds = true := by rw [stands]; rfl
  have staffed := inv.staffed caller holding
  have mine : (ensureIoThreaded s caller width stage).isSome = true → Movable requests s caller := fun enabled =>
    .call true (by simp only [stepCall, stands]; exact enabled)
  cases stage with
  | check =>
    apply mine
    simp only [ensureIoThreaded]
    split <;> rfl
  | look =>
    have io := inv.io_settled holding (fun _ => by rw [stands]; exact fun same => by cases same)
    cases init : s.ioInit with
    | starting => exact absurd init io
    | _ => exact mine (by simp only [ensureIoThreaded, init, Option.isSome_some])
  | await =>
    rw [stands] at staffed
    exact absurd staffed not_false
  | prepare =>
    apply mine
    simp only [ensureIoThreaded]
    split <;> rfl

theorem run_group_movable {caller : C} {width : Nat} {stage : GroupStage} (stands : s.calls caller = .runGroup width stage) :
    Movable requests s caller := by
  have mine : (runGroup requests true s caller width stage).isSome = true → Movable requests s caller := fun enabled =>
    .call true (by simp only [stepCall, stands]; exact enabled)
  cases stage with
  | grant =>
    apply mine
    simp only [runGroup]
    split <;> rfl
  | submit index submitted =>
    apply mine
    simp only [runGroup]
    split <;> rfl
  | inline index submitted body =>
    apply mine
    simp only [runGroup]
    split <;> rfl
  | own submitted body =>
    apply mine
    simp only [runGroup]
    split
    · rfl
    · split <;> rfl
  | await =>
    by_cases finished : ∀ index, index < width → (s.helpers caller index).isRunning = false
    · exact mine (by simp only [runGroup, if_pos finished, Option.isSome_some])
    · obtain ⟨index, unfinished⟩ := not_forall.mp finished
      cases running : s.helpers caller index with
      | running body =>
        apply Movable.helper index
        simp only [stepHelper, running]
        split <;> rfl
      | _ => exact absurd (fun _ => by rw [running]; rfl) unfinished

theorem shutdown_movable {caller : C} {stage : ShutdownStage} (inv : Inv requests s) (stands : s.calls caller = .shutdown stage) :
    Movable requests s caller := by
  have holding : (s.calls caller).holds = true := by rw [stands]; rfl
  have staffed := inv.staffed caller holding
  have io := inv.io_settled holding (fun _ => by rw [stands]; exact nofun)
  rw [stands] at staffed
  have mine : (shutdown s caller stage).isSome = true → Movable requests s caller := fun enabled =>
    .call true (by simp only [stepCall, stands]; exact enabled)
  cases stage with
  | look =>
    cases init : s.persistentInit with
    | starting => exact absurd init (Resting.settled staffed)
    | ready =>
      apply mine
      simp only [shutdown, init]
      split <;> rfl
    | _ => exact mine (by simp only [shutdown, init, Option.isSome_some])
  | dismiss workerCount told =>
    apply mine
    simp only [shutdown]
    split <;> rfl
  | collect workerCount =>
    by_cases all : workerCount ≤ s.exitedCount
    · exact mine (by simp only [shutdown, if_pos all, Option.isSome_some])
    · exact .of_worker (Dismissing.movable staffed (Nat.lt_of_not_le all))
  | await =>
    obtain ⟨_, gone⟩ : Dismissing s s.workerCount s.workerCount ∧
      ∀ worker, worker < s.workerCount → (s.workers worker).isGone = true := staffed
    by_cases absent : ∀ worker, worker < s.workerCount → s.workers worker = .absent
    · exact mine (by simp only [shutdown, if_pos absent, Option.isSome_some])
    · obtain ⟨worker, present⟩ := not_forall.mp absent
      obtain ⟨employed, there⟩ := Classical.not_imp.mp present
      have left := gone worker employed
      cases state : s.workers worker with
      | exited => exact .worker worker (by simp only [stepWorker, state, Option.isSome_some])
      | absent => exact absurd state there
      | _ =>
        rw [state] at left
        cases left
  | reset => exact mine rfl
  | io =>
    cases init : s.ioInit with
    | starting => exact absurd init io
    | _ => exact mine (by simp only [shutdown, init, Option.isSome_some])
  | unlock => exact mine rfl

theorem holder_movable (inv : Inv requests s) (caller : C) (holding : (s.calls caller).holds = true) : Movable requests s caller := by
  cases stands : s.calls caller with
  | ensurePersistentWorkers width stage => exact ensure_persistent_workers_movable inv stands
  | runPersistent width stage => exact run_persistent_movable inv stands
  | ensureIoThreaded width stage => exact ensure_io_threaded_movable inv stands
  | runGroup width stage => exact run_group_movable stands
  | leaving answer => exact .call true (by simp only [stepCall, stands, Option.isSome_some])
  | shutdown stage => exact shutdown_movable inv stands
  | start =>
    rw [stands] at holding
    cases holding
  | entering width =>
    rw [stands] at holding
    cases holding
  | returned answer =>
    rw [stands] at holding
    cases holding

omit [DecidableEq C] in
theorem configured_helper_count_le (s : Pool C) : configuredHelperCount s ≤ maxTasks - 1 := by
  unfold configuredHelperCount helperThreadCount
  split
  · exact Nat.zero_le _
  · exact Nat.min_le_right _ _

-- A call that has been granted io_busy, or has returned.
def CallState.entered : CallState → Bool
  | .start => false
  | .entering _ => false
  | _ => true

-- What a step of a call may do outside its own records: move itself on, or start one worker.
inductive CallMoved (s s' : Pool C) (caller : C) : Prop where
  | onward (state : CallState) (calls : s'.calls = Function.update s.calls caller state) (workers : s'.workers = s.workers)
      (few : ∀ width helperCount submitted, state = .ensurePersistentWorkers width (.submit helperCount submitted) →
        helperCount ≤ maxTasks - 1) (entered : (s.calls caller).entered = true → state.entered = true)
  | started (width helperCount submitted : Nat) (stands : s.calls caller = .ensurePersistentWorkers width
      (.submit helperCount submitted))
      (more : submitted < helperCount)
      (calls : s'.calls = Function.update s.calls caller (.ensurePersistentWorkers width (.submit helperCount (submitted + 1))))
      (workers : s'.workers = Function.update s.workers submitted .starting)

-- A call that hands out workers.
def CallState.submitting : CallState → Bool
  | .ensurePersistentWorkers _ (.submit _ _) => true
  | _ => false

theorem CallMoved.aside {caller : C} {state : CallState} (calls : s'.calls = Function.update s.calls caller state)
    (workers : s'.workers = s.workers) (elsewhere : state.submitting = false) (entered : state.entered = true) :
    CallMoved s s' caller := by
  refine .onward state calls workers (fun width helperCount submitted same => ?_) (fun _ => entered)
  rw [same] at elsewhere
  cases elsewhere

theorem ensure_persistent_workers_moves {caller : C} {width : Nat} {stage : EnsureStage} {accepted : Bool}
    (stands : s.calls caller = .ensurePersistentWorkers width stage)
    (taken : ensurePersistentWorkers accepted s caller width stage = some s') : CallMoved s s' caller := by
  cases stage with
  | submit helperCount submitted =>
    simp only [ensurePersistentWorkers] at taken
    split at taken
    · rename_i more
      cases taken
      exact .started width helperCount submitted stands more.1 rfl rfl
    · split at taken <;> cases taken <;> exact .aside rfl rfl rfl rfl
  | prepare =>
    simp only [ensurePersistentWorkers] at taken
    split at taken <;> cases taken
    · exact .aside rfl rfl rfl rfl
    · refine .onward _ rfl rfl (fun _ helperCount _ same => ?_) (fun _ => rfl)
      cases same
      exact configured_helper_count_le s
  | _ =>
    simp only [ensurePersistentWorkers] at taken
    split at taken <;> cases taken <;> exact .aside rfl rfl rfl rfl

theorem run_persistent_moves {caller : C} {width : Nat} {stage : PersistentStage}
    (taken : runPersistent requests s caller width stage = some s') : CallMoved s s' caller := by
  cases stage with
  | choose =>
    simp only [runPersistent] at taken
    split at taken
    · cases taken
      exact .aside rfl rfl rfl rfl
    · split at taken
      · cases taken
        exact .aside rfl rfl rfl rfl
      · split at taken <;> cases taken <;> exact .aside rfl rfl rfl rfl
  | publish firstHelper stored =>
    simp only [runPersistent] at taken
    split at taken <;> cases taken
    · obtain ⟨_, _, _, _, _, _, _, effect⟩ := publish_frame caller width firstHelper stored s
      rw [effect]
      exact .aside rfl rfl rfl rfl
    · exact .aside rfl rfl rfl rfl
  | own firstHelper body =>
    obtain ⟨begun, ended, next, effect⟩ := call_task_frame requests s caller caller 0 body
    simp only [runPersistent, effect] at taken
    split at taken <;> cases taken <;> exact .aside rfl rfl rfl rfl
  | _ =>
    simp only [runPersistent] at taken
    split at taken <;> cases taken <;> exact .aside rfl rfl rfl rfl

theorem ensure_io_threaded_moves {caller : C} {width : Nat} {stage : EnsureIoStage}
    (taken : ensureIoThreaded s caller width stage = some s') : CallMoved s s' caller := by
  cases stage with
  | _ =>
    simp only [ensureIoThreaded] at taken
    split at taken <;> cases taken <;> exact .aside rfl rfl rfl rfl

theorem run_group_moves {caller : C} {width : Nat} {stage : GroupStage} {accepted : Bool}
    (taken : runGroup requests accepted s caller width stage = some s') : CallMoved s s' caller := by
  cases stage with
  | submit index submitted =>
    simp only [runGroup] at taken
    split at taken
    · split at taken <;> cases taken <;> exact .aside rfl rfl rfl rfl
    · cases taken
      exact .aside rfl rfl rfl rfl
  | inline index submitted body =>
    obtain ⟨begun, ended, next, effect⟩ := call_task_frame requests s caller caller index body
    simp only [runGroup, effect] at taken
    split at taken <;> cases taken <;> exact .aside rfl rfl rfl rfl
  | own submitted body =>
    obtain ⟨begun, ended, next, effect⟩ := call_task_frame requests s caller caller 0 body
    simp only [runGroup, effect] at taken
    split at taken
    · cases taken
      exact .aside rfl rfl rfl rfl
    · split at taken <;> cases taken <;> exact .aside rfl rfl rfl rfl
  | _ =>
    simp only [runGroup] at taken
    split at taken <;> cases taken <;> exact .aside rfl rfl rfl rfl

theorem shutdown_moves {caller : C} {stage : ShutdownStage} (taken : shutdown s caller stage = some s') : CallMoved s s' caller := by
  cases stage with
  | look =>
    simp only [shutdown] at taken
    split at taken
    · cases taken
    · cases taken
      exact .aside rfl rfl rfl rfl
    · cases taken
      exact .aside rfl rfl rfl rfl
    · split at taken <;> cases taken <;> exact .aside rfl rfl rfl rfl
  | reset =>
    cases taken
    exact .aside rfl rfl rfl rfl
  | unlock =>
    cases taken
    exact .aside rfl rfl rfl rfl
  | _ =>
    simp only [shutdown] at taken
    split at taken <;> cases taken <;> exact .aside rfl rfl rfl rfl

theorem enter_moves {caller : C} (stands : s.calls caller = .start) (taken : enter requests s caller = some s') :
    CallMoved s s' caller := by
  have outside : ∀ state : CallState, (s.calls caller).entered = true → state.entered = true := by
    intro state entered
    rw [stands] at entered
    cases entered
  unfold enter at taken
  have sizes : ∀ count width helperCount submitted, (if count ≤ 1 then CallState.returned false else .entering count) =
      .ensurePersistentWorkers width (.submit helperCount submitted) → helperCount ≤ maxTasks - 1 := by
    intro count width helperCount submitted same
    split at same <;> cases same
  cases request : requests caller with
  | shutdown =>
    simp only [request] at taken
    split at taken <;> cases taken
    exact .aside rfl rfl rfl rfl
  | _ =>
    simp only [request] at taken
    cases taken
    exact .onward _ rfl rfl (sizes _) (outside _)

theorem step_call_moves {caller : C} {accepted : Bool} (taken : stepCall requests accepted s caller = some s') :
    CallMoved s s' caller := by
  cases stands : s.calls caller with
  | start =>
    simp only [stepCall, stands] at taken
    exact enter_moves stands taken
  | entering width =>
    simp only [stepCall, stands] at taken
    split at taken
    · cases taken
      exact .aside rfl rfl rfl rfl
    · split at taken <;> cases taken <;> exact .aside rfl rfl rfl rfl
  | ensurePersistentWorkers width stage =>
    simp only [stepCall, stands] at taken
    exact ensure_persistent_workers_moves stands taken
  | runPersistent width stage =>
    simp only [stepCall, stands] at taken
    exact run_persistent_moves taken
  | ensureIoThreaded width stage =>
    simp only [stepCall, stands] at taken
    exact ensure_io_threaded_moves taken
  | runGroup width stage =>
    simp only [stepCall, stands] at taken
    exact run_group_moves taken
  | leaving answer =>
    simp only [stepCall, stands] at taken
    cases taken
    exact .aside rfl rfl rfl rfl
  | shutdown stage =>
    simp only [stepCall, stands] at taken
    exact shutdown_moves taken
  | returned answer => simp only [stepCall, stands, reduceCtorEq] at taken

theorem helper_moves {caller : C} {index : Nat} (taken : stepHelper requests s caller index = some s') :
    ∃ state begun ended next, s' = { s with begun := begun, ended := ended, next := next }.helper caller index state := by
  cases running : s.helpers caller index with
  | running body =>
    obtain ⟨begun, ended, next, effect⟩ := call_task_frame requests s caller caller index body
    simp only [stepHelper, running, effect] at taken
    split at taken <;> cases taken <;> exact ⟨_, begun, ended, next, rfl⟩
  | _ => simp only [stepHelper, running, reduceCtorEq] at taken

-- No worker beyond the arrays of the pool.
structure Bounded (s : Pool C) : Prop where
  workers : ∀ worker, maxTasks - 1 ≤ worker → s.workers worker = .absent
  asked : ∀ caller width helperCount submitted, s.calls caller = .ensurePersistentWorkers width (.submit helperCount submitted) →
    helperCount ≤ maxTasks - 1

theorem Bounded.call {caller : C} (bounded : Bounded s) (moved : CallMoved s s' caller) : Bounded s' := by
  cases moved with
  | onward state calls workers few entered =>
    constructor
    · intro worker beyond
      rw [workers]
      exact bounded.workers worker beyond
    · intro other width helperCount submitted stands
      rw [calls] at stands
      by_cases same : other = caller
      · subst same
        rw [Function.update_self] at stands
        exact few width helperCount submitted stands
      · rw [Function.update_of_ne same] at stands
        exact bounded.asked other width helperCount submitted stands
  | started width helperCount submitted stands more calls workers =>
    have asked := bounded.asked caller width helperCount submitted stands
    constructor
    · intro worker beyond
      rw [workers, Function.update_of_ne (by omega)]
      exact bounded.workers worker beyond
    · intro other otherWidth otherCount otherSubmitted standing
      rw [calls] at standing
      by_cases same : other = caller
      · subst same
        rw [Function.update_self] at standing
        cases standing
        exact asked
      · rw [Function.update_of_ne same] at standing
        exact bounded.asked other otherWidth otherCount otherSubmitted standing

theorem step_bounded (s next : Pool C) (action : Action C) (bounded : Bounded s) (taken : step requests s action = some next) :
    Bounded next := by
  cases action with
  | setMaxThreads limit =>
    cases taken
    exact ⟨bounded.workers, bounded.asked⟩
  | call caller accepted => exact bounded.call (step_call_moves taken)
  | worker worker =>
    have present := (worker_busy taken).1
    obtain ⟨state, _, _, _, _, _, _, rfl⟩ := worker_moves taken
    refine ⟨fun other beyond => ?_, bounded.asked⟩
    have apart : other ≠ worker := fun same => present (same ▸ bounded.workers other beyond)
    simpa only [Function.update_of_ne apart] using bounded.workers other beyond
  | helper caller index =>
    obtain ⟨state, _, _, _, rfl⟩ := helper_moves taken
    exact ⟨bounded.workers, bounded.asked⟩

end Zynum.ThreadPool
