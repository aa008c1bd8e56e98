import Zynum.Execution.ThreadPoolProgress

set_option autoImplicit false

/- Every step made by the holder of io_busy, or for it, uses up some of the work
   its call has left, and it holds io_busy until it has returned. -/
namespace Zynum.ThreadPool

open JobBoard

variable {C : Type} {requests : C → Request} {s s' : Pool C} {caller : C}

-- The steps a task function still takes, where drawing a job is paid for by the job.
def Body.work (queued : Bool) : Body → Nat
  | .called => if queued then 1 else 2
  | .working _ => if queued then 2 else 1

def restWork (queued : Bool) : Option Body → Nat
  | some body => body.work queued
  | none => 0

-- A worker's way through its loop body. One that waits has nothing to do until it is bumped.
def WorkerState.work (queued : Bool) (generation : BitVec 32) : WorkerState C → Nat
  | .absent => 0
  | .starting => 2
  | .announcing _ => 1
  | .idle seen => if seen = generation then 0 else 11
  | .woken _ => 10
  | .readTaskFn _ => 9
  | .readTasks _ _ => 8
  | .readCount _ _ _ => 7
  | .readActive _ _ _ _ => 6
  | .readFirst _ _ _ _ _ => 5
  | .running _ _ _ _ body => 2 + body.work queued
  | .acknowledging _ => 1
  | .exiting => 2
  | .exited => 1

def HelperState.work (queued : Bool) : HelperState → Nat
  | .running body => 1 + body.work queued
  | _ => 0

-- Each stage counts what the workers and threads it still asks for will do.
def EnsureIoStage.work (width : Nat) : EnsureIoStage → Nat
  | .check => 10 + 6 * width
  | .look => 9 + 6 * width
  | .await => 8 + 6 * width
  | .prepare => 8 + 6 * width

def GroupStage.work (queued : Bool) (width : Nat) : GroupStage → Nat
  | .grant => 7 + 6 * width
  | .submit index _ => 6 + 6 * (width - index)
  | .inline index _ body => 7 + 6 * (width - (index + 1)) + body.work queued
  | .own _ body => 3 + body.work queued
  | .await => 2

def PersistentStage.work (queued : Bool) (width : Nat) : PersistentStage → Nat
  | .choose => 16 + 12 * width
  | .publish _ stored => 7 + 12 * width + (8 - stored)
  | .bump _ bumped => 6 + 12 * (width - 1 - bumped)
  | .own _ body => 3 + body.work queued
  | .collect _ => 2

def EnsureStage.work (width : Nat) : EnsureStage → Nat
  | .check => 21 + 12 * width + 3 * maxTasks
  | .look => 20 + 12 * width + 3 * maxTasks
  | .await => 19 + 12 * width
  | .prepare => 19 + 12 * width + 3 * maxTasks
  | .submit helperCount submitted => 18 + 12 * width + 3 * (helperCount - submitted)
  | .gather _ => 17 + 12 * width

def ShutdownStage.work (employed : Nat) : ShutdownStage → Nat
  | .look => 7 + 12 * employed
  | .dismiss workerCount told => 6 + 12 * (workerCount - told)
  | .collect _ => 5
  | .await => 4
  | .reset => 3
  | .io => 2
  | .unlock => 1

def CallState.work (queued : Bool) (employed : Nat) : CallState → Nat
  | .ensurePersistentWorkers width stage => stage.work width
  | .runPersistent width stage => stage.work queued width
  | .ensureIoThreaded width stage => stage.work width
  | .runGroup width stage => stage.work queued width
  | .leaving _ => 1
  | .shutdown stage => stage.work employed
  | _ => 0

def jobsLeft (requests : C → Request) (caller : C) (s : Pool C) : Nat := 2 * ((requests caller).jobs - s.next caller)

def workersWork (requests : C → Request) (caller : C) (s : Pool C) : Nat :=
  effort (maxTasks - 1) (fun worker => (s.workers worker).work (requests caller).isQueued (s.generation worker))

def helpersWork (requests : C → Request) (caller : C) (s : Pool C) : Nat :=
  effort (requests caller).jobs (fun index => (s.helpers caller index).work (requests caller).isQueued)

def workLeft (requests : C → Request) (caller : C) (s : Pool C) : Nat :=
  (s.calls caller).work (requests caller).isQueued s.workerCount + workersWork requests caller s + helpersWork requests caller s +
    jobsLeft requests caller s

theorem body_work_le (queued : Bool) (body : Body) : body.work queued ≤ 2 := by
  cases body with
  | called => cases queued <;> decide
  | working job => cases queued <;> simp [Body.work]

theorem worker_work_le (queued : Bool) (generation : BitVec 32) (state : WorkerState C) : state.work queued generation ≤ 11 := by
  cases state with
  | idle seen =>
    simp only [WorkerState.work]
    split
    · exact Nat.zero_le 11
    · exact Nat.le_refl 11
  | running seen taskFn tasks index body =>
    have few := body_work_le queued body
    simp only [WorkerState.work]
    omega
  | _ => simp [WorkerState.work]

variable [DecidableEq C]

theorem call_task_work (requests : C → Request) (s : Pool C) (caller : C) (index : Nat) (body : Body) :
    restWork (requests caller).isQueued (callTask requests s caller caller index body).2 +
        jobsLeft requests caller (callTask requests s caller caller index body).1 <
      body.work (requests caller).isQueued + jobsLeft requests caller s := by
  cases queued : (requests caller).isQueued with
  | true =>
    rw [call_task_queued queued]
    cases body with
    | called =>
      by_cases left : s.next caller < (requests caller).jobs
      · rw [execute_draws s left]
        have drawn : ((s.drawn caller).begins caller caller (s.next caller)).next caller = s.next caller + 1 := drawn_at s caller
        simp only [restWork, Body.work, if_true, jobsLeft, drawn]
        omega
      · rw [execute_runs_out s (Nat.le_of_not_lt left)]
        simp only [restWork, Body.work, if_true, jobsLeft, drawn_at]
        omega
    | working job => exact Nat.add_lt_add_right (Nat.lt_succ_self 1) _
  | false =>
    cases body with
    | called =>
      rw [call_task_begins queued]
      exact Nat.add_lt_add_right (Nat.lt_succ_self 1) _
    | working job =>
      rw [call_task_ends queued]
      exact Nat.add_lt_add_right Nat.zero_lt_one _

-- The step of one worker: what it and the jobs amount to together becomes less.
def Lighter (requests : C → Request) (caller : C) (worker : Nat) (s s' : Pool C) : Prop :=
  (s'.workers worker).work (requests caller).isQueued (s.generation worker) + jobsLeft requests caller s' <
    (s.workers worker).work (requests caller).isQueued (s.generation worker) + jobsLeft requests caller s

omit [DecidableEq C] in
theorem lighter_of_state {worker : Nat} {before state : WorkerState C} (stands : s.workers worker = before)
    (workers : s'.workers = Function.update s.workers worker state) (next : s'.next = s.next)
    (less : state.work (requests caller).isQueued (s.generation worker) < before.work (requests caller).isQueued
      (s.generation worker)) :
    Lighter requests caller worker s s' := by
  have jobs : jobsLeft requests caller s' = jobsLeft requests caller s := by rw [jobsLeft, next, jobsLeft]
  rw [Lighter, workers, Function.update_self, stands, jobs]
  exact Nat.add_lt_add_right less _

theorem Assembling.lighter {submitted worker : Nat} (gathering : Assembling s submitted) (inside : worker < submitted)
    (taken : stepWorker requests s worker = some s') : Lighter requests caller worker s s' := by
  have arriving := gathering.arriving worker inside
  cases state : s.workers worker with
  | starting =>
    simp only [stepWorker, state] at taken
    cases taken
    exact lighter_of_state state rfl rfl (Nat.lt_succ_self 1)
  | announcing seen =>
    rw [state] at arriving
    have current : seen = s.generation worker := arriving
    simp only [stepWorker, state] at taken
    cases taken
    refine lighter_of_state state rfl rfl ?_
    simp only [WorkerState.work, if_pos current]
    exact Nat.zero_lt_one
  | idle seen =>
    rw [state] at arriving
    exact absurd arriving ((worker_busy taken).2 seen state)
  | _ =>
    rw [state] at arriving
    exact absurd arriving not_false

theorem Dismissing.lighter {workerCount told worker : Nat} (dismissal : Dismissing s workerCount told) (inside : worker < told)
    (taken : stepWorker requests s worker = some s') : Lighter requests caller worker s s' := by
  have leaving := dismissal.leaving worker inside
  cases state : s.workers worker with
  | idle seen =>
    have apart := (worker_busy taken).2 seen state
    simp only [stepWorker, state, if_neg (Ne.symm apart)] at taken
    cases taken
    refine lighter_of_state state rfl rfl ?_
    simp only [WorkerState.work, if_neg apart]
    exact Nat.lt_succ_self 10
  | woken seen =>
    simp only [stepWorker, state, dismissal.asked, if_true] at taken
    cases taken
    exact lighter_of_state state rfl rfl (by decide : 2 < 10)
  | exiting =>
    simp only [stepWorker, state] at taken
    cases taken
    exact lighter_of_state state rfl rfl (Nat.lt_succ_self 1)
  | exited =>
    simp only [stepWorker, state] at taken
    cases taken
    exact lighter_of_state state rfl rfl Nat.zero_lt_one
  | absent => exact absurd state (worker_busy taken).1
  | _ =>
    rw [state] at leaving
    exact absurd leaving not_false

theorem Dispatching.lighter {width firstHelper bumped helper : Nat} (dispatch : Dispatching s caller width firstHelper bumped)
    (inside : helper < bumped) (taken : stepWorker requests s (firstHelper + helper) = some s') :
    Lighter requests caller (firstHelper + helper) s s' := by
  have serving := dispatch.serving helper inside
  cases state : s.workers (firstHelper + helper) with
  | idle seen =>
    have apart := (worker_busy taken).2 seen state
    simp only [stepWorker, state, if_neg (Ne.symm apart)] at taken
    cases taken
    refine lighter_of_state state rfl rfl ?_
    simp only [WorkerState.work, if_neg apart]
    exact Nat.lt_succ_self 10
  | woken seen =>
    simp only [stepWorker, state, dispatch.opened, Bool.false_eq_true, if_false] at taken
    cases taken
    exact lighter_of_state state rfl rfl (Nat.lt_succ_self 9)
  | readTaskFn seen =>
    simp only [stepWorker, state] at taken
    cases taken
    exact lighter_of_state state rfl rfl (Nat.lt_succ_self 8)
  | readTasks seen taskFn =>
    simp only [stepWorker, state] at taken
    cases taken
    exact lighter_of_state state rfl rfl (Nat.lt_succ_self 7)
  | readCount seen taskFn tasks =>
    simp only [stepWorker, state] at taken
    cases taken
    exact lighter_of_state state rfl rfl (Nat.lt_succ_self 6)
  | readActive seen taskFn tasks count =>
    simp only [stepWorker, state] at taken
    cases taken
    exact lighter_of_state state rfl rfl (Nat.lt_succ_self 5)
  | readFirst seen taskFn tasks count activeHelpers =>
    rw [state] at serving
    have current : seen = s.generation (firstHelper + helper) := serving.1
    simp only [stepWorker, state] at taken
    split at taken
    · cases taken
      refine lighter_of_state state rfl rfl ?_
      simp only [WorkerState.work, if_pos current]
      exact Nat.zero_lt_succ 4
    · cases taken
      refine lighter_of_state state rfl rfl ?_
      split
      · have few := body_work_le (requests caller).isQueued .called
        simp only [WorkerState.work]
        omega
      · exact (by decide : 1 < 5)
  | running seen taskFn tasks index body =>
    rw [state] at serving
    obtain ⟨_, rfl, rfl, _⟩ := serving
    have less := call_task_work requests s tasks index body
    simp only [stepWorker, state] at taken
    unfold Lighter
    split at taken
    · rename_i rest answer
      cases taken
      rw [answer] at less
      simp only [Pool.worker, Function.update_self, state, WorkerState.work]
      simp only [restWork] at less
      change 2 + rest.work _ + jobsLeft requests tasks (callTask requests s tasks tasks index body).1 < _
      omega
    · rename_i answer
      cases taken
      rw [answer] at less
      simp only [Pool.worker, Function.update_self, state, WorkerState.work]
      simp only [restWork] at less
      change 1 + jobsLeft requests tasks (callTask requests s tasks tasks index body).1 < _
      omega
  | acknowledging seen =>
    rw [state] at serving
    have current : seen = s.generation (firstHelper + helper) := serving
    simp only [stepWorker, state] at taken
    cases taken
    refine lighter_of_state state rfl rfl ?_
    simp only [WorkerState.work, if_pos current]
    exact Nat.zero_lt_one
  | _ =>
    rw [state] at serving
    exact absurd serving not_false

theorem call_self (s : Pool C) (caller : C) (state : CallState) : (s.call caller state).calls caller = state := by
  simp only [Pool.call, Function.update_self]

-- A step of the call that moves no thread but its own, and finishes no job.
structure SameThreads (s s' : Pool C) : Prop where
  workers : s'.workers = s.workers
  generation : s'.generation = s.generation
  helpers : s'.helpers = s.helpers
  next : s'.next = s.next

theorem SameThreads.work {before state : CallState} (same : SameThreads s s') (stands : s.calls caller = before)
    (less : state.work (requests caller).isQueued s'.workerCount < before.work (requests caller).isQueued s.workerCount) :
    workLeft requests caller (s'.call caller state) < workLeft requests caller s := by
  have workers : workersWork requests caller s' = workersWork requests caller s := by
    rw [workersWork, same.workers, same.generation, workersWork]
  have helpers : helpersWork requests caller s' = helpersWork requests caller s := by rw [helpersWork, same.helpers, helpersWork]
  have jobs : jobsLeft requests caller s' = jobsLeft requests caller s := by rw [jobsLeft, same.next, jobsLeft]
  rw [workLeft, workLeft, call_self, stands]
  change state.work _ s'.workerCount + workersWork requests caller s' + helpersWork requests caller s' + jobsLeft requests
    caller s' < _
  omega

theorem work_for_worker {before state : CallState} (worker most : Nat) (stands : s.calls caller = before)
    (helpers : s'.helpers = s.helpers) (next : s'.next = s.next)
    (others : ∀ other, other ≠ worker → s'.workers other = s.workers other ∧ s'.generation other = s.generation other)
    (handed : (s'.workers worker).work (requests caller).isQueued (s'.generation worker) ≤ most)
    (less : state.work (requests caller).isQueued s'.workerCount + most < before.work (requests caller).isQueued s.workerCount) :
    workLeft requests caller (s'.call caller state) < workLeft requests caller s := by
  have workers : workersWork requests caller s' ≤ workersWork requests caller s +
      (s'.workers worker).work (requests caller).isQueued (s'.generation worker) :=
    effort_grows (fun other apart => by rw [(others other apart).1, (others other apart).2])
  have helped : helpersWork requests caller s' = helpersWork requests caller s := by rw [helpersWork, helpers, helpersWork]
  have jobs : jobsLeft requests caller s' = jobsLeft requests caller s := by rw [jobsLeft, next, jobsLeft]
  rw [workLeft, workLeft, call_self, stands]
  change state.work _ s'.workerCount + workersWork requests caller s' + helpersWork requests caller s' + jobsLeft requests
    caller s' < _
  omega

theorem helpers_work_of (requests : C → Request) (s : Pool C) (caller : C) (index : Nat) (state : HelperState) :
    helpersWork requests caller (s.helper caller index state) = effort (requests caller).jobs (fun other =>
      (Function.update (s.helpers caller) index state other).work (requests caller).isQueued) := by
  simp only [helpersWork, Pool.helper, Function.update_self]

theorem work_for_helper {before state : CallState} (index : Nat) (stands : s.calls caller = before)
    (less : state.work (requests caller).isQueued s.workerCount + 3 < before.work (requests caller).isQueued s.workerCount) :
    workLeft requests caller ((s.helper caller index (.running .called)).call caller state) < workLeft requests caller s := by
  have helped : helpersWork requests caller (s.helper caller index (.running .called)) ≤
      helpersWork requests caller s + (HelperState.running .called).work (requests caller).isQueued := by
    have mine : (Function.update (s.helpers caller) index (.running .called) index).work (requests caller).isQueued =
        (HelperState.running .called).work (requests caller).isQueued := by rw [Function.update_self]
    rw [helpers_work_of, ← mine]
    exact effort_grows (fun other apart => by rw [Function.update_of_ne apart])
  have few := body_work_le (requests caller).isQueued .called
  rw [workLeft, workLeft, call_self, stands]
  change state.work _ s.workerCount + workersWork requests caller s + helpersWork requests caller
    (s.helper caller index (.running .called)) +
    jobsLeft requests caller s < _
  simp only [HelperState.work] at helped
  omega

theorem work_of_call {before state : CallState} {index : Nat} {body : Body} (stands : s.calls caller = before)
    (less : state.work (requests caller).isQueued s.workerCount + body.work (requests caller).isQueued ≤
      before.work (requests caller).isQueued s.workerCount +
        restWork (requests caller).isQueued (callTask requests s caller caller index body).2) :
    workLeft requests caller ((callTask requests s caller caller index body).1.call caller state) < workLeft requests caller s := by
  obtain ⟨begun, ended, next, frame⟩ := call_task_frame requests s caller caller index body
  have jobs := call_task_work requests s caller index body
  rw [workLeft, workLeft, call_self, stands]
  rw [frame] at jobs ⊢
  change state.work _ s.workerCount + workersWork requests caller s + helpersWork requests caller s +
    jobsLeft requests caller { s with begun := begun, ended := ended, next := next } < _
  omega

theorem ensure_persistent_workers_work {width : Nat} {stage : EnsureStage} {accepted : Bool}
    (stands : s.calls caller = .ensurePersistentWorkers width stage)
    (taken : ensurePersistentWorkers accepted s caller width stage = some s') : workLeft requests caller s' < workLeft
    requests caller s := by
  cases stage with
  | submit helperCount submitted =>
    simp only [ensurePersistentWorkers] at taken
    split at taken
    · rename_i more
      cases taken
      refine work_for_worker submitted 2 stands ?_ ?_ ?_ ?_ ?_
      · rfl
      · rfl
      · intro other apart
        simp only [Pool.worker, Function.update_of_ne apart, true_and]
      · simp only [Pool.worker, Function.update_self, WorkerState.work]
        exact Nat.le_refl 2
      · simp only [CallState.work, EnsureStage.work]
        omega
    · split at taken <;> cases taken <;> refine SameThreads.work ?_ stands ?_
      · exact ⟨rfl, rfl, rfl, rfl⟩
      · simp only [CallState.work, EnsureIoStage.work, EnsureStage.work]
        omega
      · exact ⟨rfl, rfl, rfl, rfl⟩
      · simp only [CallState.work, EnsureStage.work]
        omega
  | _ =>
    have few := configured_helper_count_le s
    simp only [ensurePersistentWorkers] at taken
    split at taken <;> cases taken <;> refine SameThreads.work ?_ stands ?_ <;>
      first
      | exact ⟨rfl, rfl, rfl, rfl⟩
      | (simp only [CallState.work, EnsureIoStage.work, EnsureStage.work, PersistentStage.work]; omega)

theorem run_persistent_work {width : Nat} {stage : PersistentStage} (stands : s.calls caller = .runPersistent width stage)
    (taken : runPersistent requests s caller width stage = some s') : workLeft requests caller s' < workLeft requests caller s := by
  cases stage with
  | choose =>
    simp only [runPersistent] at taken
    split at taken
    · cases taken
      refine SameThreads.work ⟨rfl, rfl, rfl, rfl⟩ stands ?_
      simp only [CallState.work, EnsureIoStage.work, PersistentStage.work]
      omega
    · split at taken
      · cases taken
        refine SameThreads.work ⟨rfl, rfl, rfl, rfl⟩ stands ?_
        simp only [CallState.work, EnsureIoStage.work, PersistentStage.work]
        omega
      · split at taken <;> cases taken <;> refine SameThreads.work ⟨rfl, rfl, rfl, rfl⟩ stands ?_ <;>
          simp only [CallState.work, EnsureIoStage.work, PersistentStage.work] <;> omega
  | publish firstHelper stored =>
    simp only [runPersistent] at taken
    split at taken <;> cases taken <;> refine SameThreads.work ?_ stands ?_
    · obtain ⟨_, _, _, _, _, _, _, effect⟩ := publish_frame caller width firstHelper stored s
      rw [effect]
      exact ⟨rfl, rfl, rfl, rfl⟩
    · obtain ⟨_, _, _, _, _, _, _, effect⟩ := publish_frame caller width firstHelper stored s
      rw [effect]
      simp only [CallState.work, PersistentStage.work]
      omega
    · exact ⟨rfl, rfl, rfl, rfl⟩
    · simp only [CallState.work, PersistentStage.work]
      omega
  | bump firstHelper bumped =>
    simp only [runPersistent] at taken
    split at taken <;> cases taken
    · refine work_for_worker (firstHelper + bumped) 11 stands ?_ ?_ ?_ (worker_work_le _ _ _) ?_
      · rfl
      · rfl
      · intro other apart
        simp only [Pool.bump, Function.update_of_ne apart, true_and]
      · simp only [CallState.work, PersistentStage.work]
        omega
    · have few := body_work_le (requests caller).isQueued .called
      refine SameThreads.work ⟨rfl, rfl, rfl, rfl⟩ stands ?_
      simp only [CallState.work, PersistentStage.work]
      omega
  | own firstHelper body =>
    simp only [runPersistent] at taken
    split at taken
    · rename_i rest answer
      cases taken
      refine work_of_call stands ?_
      rw [answer]
      simp only [CallState.work, PersistentStage.work, restWork]
      omega
    · rename_i answer
      cases taken
      refine work_of_call stands ?_
      rw [answer]
      simp only [CallState.work, PersistentStage.work, restWork]
      omega
  | collect firstHelper =>
    simp only [runPersistent] at taken
    split at taken <;> cases taken
    exact SameThreads.work ⟨rfl, rfl, rfl, rfl⟩ stands (Nat.lt_succ_self 1)

theorem ensure_io_threaded_work {width : Nat} {stage : EnsureIoStage} (stands : s.calls caller = .ensureIoThreaded width stage)
    (taken : ensureIoThreaded s caller width stage = some s') : workLeft requests caller s' < workLeft requests caller s := by
  cases stage with
  | _ =>
    simp only [ensureIoThreaded] at taken
    split at taken <;> cases taken <;> refine SameThreads.work ?_ stands ?_ <;>
      first
      | exact ⟨rfl, rfl, rfl, rfl⟩
      | (simp only [CallState.work, EnsureIoStage.work, GroupStage.work]; omega)

theorem run_group_work {width : Nat} {stage : GroupStage} {accepted : Bool} (stands : s.calls caller = .runGroup width stage)
    (taken : runGroup requests accepted s caller width stage = some s') : workLeft requests caller s' < workLeft requests
    caller s := by
  cases stage with
  | grant =>
    simp only [runGroup] at taken
    split at taken <;> cases taken <;> refine SameThreads.work ⟨rfl, rfl, rfl, rfl⟩ stands ?_ <;>
      simp only [CallState.work, GroupStage.work] <;> omega
  | submit index submitted =>
    have few := body_work_le (requests caller).isQueued .called
    simp only [runGroup] at taken
    split at taken
    · split at taken <;> cases taken
      · refine work_for_helper index stands ?_
        simp only [CallState.work, GroupStage.work]
        omega
      · refine SameThreads.work ⟨rfl, rfl, rfl, rfl⟩ stands ?_
        simp only [CallState.work, GroupStage.work]
        omega
    · cases taken
      refine SameThreads.work ⟨rfl, rfl, rfl, rfl⟩ stands ?_
      simp only [CallState.work, GroupStage.work]
      omega
  | inline index submitted body =>
    simp only [runGroup] at taken
    split at taken
    · rename_i rest answer
      cases taken
      refine work_of_call stands ?_
      rw [answer]
      simp only [CallState.work, GroupStage.work, restWork]
      omega
    · rename_i answer
      cases taken
      refine work_of_call stands ?_
      rw [answer]
      simp only [CallState.work, GroupStage.work, restWork]
      omega
  | own submitted body =>
    simp only [runGroup] at taken
    split at taken
    · rename_i rest answer
      cases taken
      refine work_of_call stands ?_
      rw [answer]
      simp only [CallState.work, GroupStage.work, restWork]
      omega
    · rename_i answer
      split at taken <;> cases taken <;> refine work_of_call stands ?_ <;> rw [answer] <;>
        simp only [CallState.work, GroupStage.work, restWork] <;> omega
  | await =>
    simp only [runGroup] at taken
    split at taken <;> cases taken
    exact SameThreads.work ⟨rfl, rfl, rfl, rfl⟩ stands (Nat.lt_succ_self 1)

theorem shutdown_work {stage : ShutdownStage} (stands : s.calls caller = .shutdown stage)
    (taken : shutdown s caller stage = some s') : workLeft requests caller s' < workLeft requests caller s := by
  cases stage with
  | look =>
    simp only [shutdown] at taken
    split at taken
    · cases taken
    · cases taken
      refine SameThreads.work ⟨rfl, rfl, rfl, rfl⟩ stands ?_
      simp only [CallState.work, ShutdownStage.work]
      omega
    · cases taken
      refine SameThreads.work ⟨rfl, rfl, rfl, rfl⟩ stands ?_
      simp only [CallState.work, ShutdownStage.work]
      omega
    · split at taken <;> cases taken <;> refine SameThreads.work ?_ stands ?_ <;>
        first
        | exact ⟨rfl, rfl, rfl, rfl⟩
        | (simp only [CallState.work, ShutdownStage.work]; omega)
  | dismiss workerCount told =>
    simp only [shutdown] at taken
    split at taken <;> cases taken
    · refine work_for_worker told 11 stands ?_ ?_ ?_ (worker_work_le _ _ _) ?_
      · rfl
      · rfl
      · intro other apart
        simp only [Pool.bump, Function.update_of_ne apart, true_and]
      · simp only [CallState.work, ShutdownStage.work]
        omega
    · refine SameThreads.work ⟨rfl, rfl, rfl, rfl⟩ stands ?_
      simp only [CallState.work, ShutdownStage.work]
      omega
  | io =>
    simp only [shutdown] at taken
    split at taken <;> cases taken
    refine SameThreads.work ?_ stands ?_
    · exact ⟨rfl, rfl, rfl, rfl⟩
    · exact Nat.lt_succ_self 1
  | reset =>
    cases taken
    refine SameThreads.work ?_ stands ?_
    · exact ⟨rfl, rfl, rfl, rfl⟩
    · exact Nat.lt_succ_self 2
  | unlock =>
    cases taken
    refine SameThreads.work ?_ stands ?_
    · exact ⟨rfl, rfl, rfl, rfl⟩
    · exact Nat.lt_succ_self 0
  | collect workerCount =>
    simp only [shutdown] at taken
    split at taken <;> cases taken
    exact SameThreads.work ⟨rfl, rfl, rfl, rfl⟩ stands (Nat.lt_succ_self 4)
  | await =>
    simp only [shutdown] at taken
    split at taken <;> cases taken
    exact SameThreads.work ⟨rfl, rfl, rfl, rfl⟩ stands (Nat.lt_succ_self 3)

theorem call_work {accepted : Bool} (holding : (s.calls caller).holds = true)
    (taken : stepCall requests accepted s caller = some s') : workLeft requests caller s' < workLeft requests caller s := by
  cases stands : s.calls caller with
  | ensurePersistentWorkers width stage =>
    simp only [stepCall, stands] at taken
    exact ensure_persistent_workers_work stands taken
  | runPersistent width stage =>
    simp only [stepCall, stands] at taken
    exact run_persistent_work stands taken
  | ensureIoThreaded width stage =>
    simp only [stepCall, stands] at taken
    exact ensure_io_threaded_work stands taken
  | runGroup width stage =>
    simp only [stepCall, stands] at taken
    exact run_group_work stands taken
  | leaving answer =>
    simp only [stepCall, stands] at taken
    cases taken
    refine SameThreads.work ?_ stands ?_
    · exact ⟨rfl, rfl, rfl, rfl⟩
    · exact Nat.lt_succ_self 0
  | shutdown stage =>
    simp only [stepCall, stands] at taken
    exact shutdown_work stands taken
  | start =>
    rw [stands] at holding
    cases holding
  | entering width =>
    rw [stands] at holding
    cases holding
  | returned answer =>
    rw [stands] at holding
    cases holding

omit [DecidableEq C] in
theorem Inv.helper_within {index : Nat} {body : Body} (inv : Inv requests s) (running : s.helpers caller index = .running body) :
    index < (requests caller).jobs := by
  obtain ⟨width, stage, stands⟩ := inv.helper_call running
  have grouped := inv.grouped caller
  have sized := inv.sized caller
  rw [stands] at grouped sized
  obtain ⟨wide, within⟩ := sized
  have few := wide.few
  have present : s.helpers caller index ≠ .absent := by rw [running]; exact nofun
  have below : index < width := by
    cases stage with
    | grant => exact absurd (grouped index) present
    | submit reached submitted => exact Nat.lt_of_lt_of_le (Spread.within grouped index present).2 within.2
    | inline reached submitted own => exact Nat.lt_trans (Spread.within grouped index present).2 within.2
    | own submitted own => exact (Spread.within grouped index present).2
    | await => exact (Spread.within grouped index present).2
  omega

theorem helper_work {other : C} {index : Nat} (inv : Inv requests s) (holding : (s.calls caller).holds = true)
    (taken : stepHelper requests s other index = some s') : workLeft requests caller s' < workLeft requests caller s := by
  cases running : s.helpers other index with
  | running body =>
    obtain ⟨width, stage, stands⟩ := inv.helper_call running
    have same := inv.alone other caller (by rw [stands]; rfl) holding
    subst same
    have inside := inv.helper_within running
    have jobs := call_task_work requests s other index body
    obtain ⟨begun, ended, next, frame⟩ := call_task_frame requests s other other index body
    -- What the thread and the jobs have left, once the thread is in its next state.
    have moved : ∀ state : HelperState,
        state.work (requests other).isQueued ≤ 1 + restWork (requests other).isQueued (callTask requests s other other index body).2 →
        workLeft requests other ((callTask requests s other other index body).1.helper other index state) < workLeft
        requests other s := by
      intro state small
      have before : (s.helpers other index).work (requests other).isQueued = 1 + body.work (requests other).isQueued := by
        rw [running]; rfl
      have change := effort_change (fun index => (s.helpers other index).work (requests other).isQueued)
        (fun index' => (Function.update (s.helpers other) index state index').work (requests other).isQueued) inside
        (fun elsewhere apart => by rw [Function.update_of_ne apart])
      rw [Function.update_self, before] at change
      rw [workLeft, workLeft, helpers_work_of]
      rw [frame] at jobs ⊢
      change (s.calls other).work _ s.workerCount + workersWork requests other s +
        effort (requests other).jobs (fun index' => (Function.update (s.helpers other) index state index').work
          (requests other).isQueued) +
        jobsLeft requests other { s with begun := begun, ended := ended, next := next } < _
      rw [helpersWork]
      omega
    simp only [stepHelper, running] at taken
    split at taken
    · rename_i rest answer
      cases taken
      apply moved
      rw [answer]
      exact Nat.le_refl _
    · rename_i answer
      cases taken
      exact moved .finished (Nat.zero_le _)
  | _ => simp only [stepHelper, running, reduceCtorEq] at taken

theorem worker_work {worker : Nat} (inv : Inv requests s) (bounded : Bounded s) (holding : (s.calls caller).holds = true)
    (taken : stepWorker requests s worker = some s') : workLeft requests caller s' < workLeft requests caller s := by
  obtain ⟨present, busy⟩ := worker_busy taken
  obtain ⟨other, holds, engaged⟩ := inv.engaged present busy
  have same := inv.alone other caller holds holding
  subst same
  have lighter : Lighter requests other worker s s' := by
    cases engaged with
    | assembling submitted gathering inside => exact gathering.lighter inside taken
    | dispatching width firstHelper bumped helper stage stands dispatch inside place =>
      subst place
      exact dispatch.lighter inside taken
    | dismissing workerCount told dismissal inside => exact dismissal.lighter inside taken
  have employed : worker < maxTasks - 1 := by
    by_contra beyond
    exact present (bounded.workers worker (Nat.le_of_not_lt beyond))
  obtain ⟨state, readyCount, exitedCount, doneCount, begun, ended, next, effect⟩ := worker_moves taken
  have calls : s'.calls = s.calls := by rw [effect]
  have count : s'.workerCount = s.workerCount := by rw [effect]
  have helpers : helpersWork requests other s' = helpersWork requests other s := by
    rw [effect]
    rfl
  have generation : s'.generation = s.generation := by rw [effect]
  have workers : ∀ elsewhere, elsewhere ≠ worker → s'.workers elsewhere = s.workers elsewhere := fun elsewhere apart => by
    rw [effect]
    exact Function.update_of_ne apart _ _
  have change : workersWork requests other s' + (s.workers worker).work (requests other).isQueued (s.generation worker) =
      workersWork requests other s + (s'.workers worker).work (requests other).isQueued (s.generation worker) := by
    rw [workersWork, generation]
    exact effort_change (fun worker => (s.workers worker).work (requests other).isQueued (s.generation worker))
      (fun worker => (s'.workers worker).work (requests other).isQueued (s.generation worker)) employed
      (fun elsewhere apart => by rw [workers elsewhere apart])
  rw [Lighter] at lighter
  rw [workLeft, workLeft, calls, count, helpers]
  omega

theorem outsider_step {other : C} {accepted : Bool} (inv : Inv requests s) (holding : (s.calls other).holds = true)
    (apart : caller ≠ other)
    (taken : stepCall requests accepted s caller = some s') : ∃ state, s' = s.call caller state := by
  have busy := inv.busy other holding
  cases stands : s.calls caller with
  | start =>
    simp only [stepCall, stands, enter] at taken
    cases request : requests caller with
    | shutdown => simp only [request, busy, if_true, reduceCtorEq] at taken
    | _ =>
      simp only [request] at taken
      cases taken
      exact ⟨_, rfl⟩
  | entering width =>
    simp only [stepCall, stands, busy, if_true] at taken
    cases taken
    exact ⟨_, rfl⟩
  | returned answer => simp only [stepCall, stands, reduceCtorEq] at taken
  | _ => exact absurd (inv.alone caller other (by rw [stands]; rfl) holding) apart

-- The steps of other calls leave all of this alone: they come no further than asking for io_busy.
theorem outsider_work {other : C} {accepted : Bool} (inv : Inv requests s) (holding : (s.calls caller).holds = true)
    (apart : other ≠ caller) (taken : stepCall requests accepted s other = some s') :
    workLeft requests caller s' = workLeft requests caller s := by
  obtain ⟨state, rfl⟩ := outsider_step inv holding apart taken
  have mine : (s.call other state).calls caller = s.calls caller := Function.update_of_ne (Ne.symm apart) _ _
  rw [workLeft, mine]
  rfl

-- The steps of a call that holds io_busy, of the workers, and of the threads of a group.
def Action.serves (caller : C) : Action C → Bool
  | .setMaxThreads _ => false
  | .call other _ => decide (other = caller)
  | .worker _ => true
  | .helper _ _ => true

theorem returned_stays {answer : Bool} {action : Action C} (returned : s.calls caller = .returned answer)
    (taken : step requests s action = some s') : s'.calls caller = .returned answer := by
  cases action with
  | setMaxThreads limit =>
    cases taken
    exact returned
  | call other accepted =>
    by_cases mine : other = caller
    · subst mine
      simp only [step, stepCall, returned, reduceCtorEq] at taken
    · cases step_call_moves taken with
      | onward state calls workers few entered => rw [calls, Function.update_of_ne (Ne.symm mine), returned]
      | started width helperCount submitted stands more calls workers => rw [calls, Function.update_of_ne (Ne.symm mine), returned]
  | worker worker =>
    obtain ⟨_, _, _, _, _, _, _, effect⟩ := worker_moves taken
    rw [effect]
    exact returned
  | helper other index =>
    obtain ⟨_, _, _, _, effect⟩ := helper_moves taken
    rw [effect]
    exact returned

theorem holds_or_returned {action : Action C} (holding : (s.calls caller).holds = true) (taken : step requests s action = some s') :
    (s'.calls caller).holds = true ∨ ∃ answer, s'.calls caller = .returned answer := by
  have granted : ∀ state : CallState, state.entered = true → state.holds = true ∨ ∃ answer, state = .returned answer := by
    intro state entered
    cases state with
    | start => cases entered
    | entering width => cases entered
    | returned answer => exact .inr ⟨answer, rfl⟩
    | _ => exact .inl rfl
  have before : (s.calls caller).entered = true := by
    cases stands : s.calls caller with
    | start =>
      rw [stands] at holding
      cases holding
    | entering width =>
      rw [stands] at holding
      cases holding
    | _ => rfl
  cases action with
  | setMaxThreads limit =>
    cases taken
    exact .inl holding
  | call other accepted =>
    by_cases mine : other = caller
    · subst mine
      cases step_call_moves taken with
      | onward state calls workers few entered =>
        rw [calls, Function.update_self]
        exact granted state (entered before)
      | started width helperCount submitted stands more calls workers =>
        rw [calls, Function.update_self]
        exact granted _ rfl
    · cases step_call_moves taken with
      | onward state calls workers few entered =>
        rw [calls, Function.update_of_ne (Ne.symm mine)]
        exact .inl holding
      | started width helperCount submitted stands more calls workers =>
        rw [calls, Function.update_of_ne (Ne.symm mine)]
        exact .inl holding
  | worker worker =>
    obtain ⟨_, _, _, _, _, _, _, effect⟩ := worker_moves taken
    rw [effect]
    exact .inl holding
  | helper other index =>
    obtain ⟨_, _, _, _, effect⟩ := helper_moves taken
    rw [effect]
    exact .inl holding

end Zynum.ThreadPool
