import Zynum.Execution.ThreadPoolSteps

set_option autoImplicit false

/- What the pool promises its callers, for every interleaving: every task of an
   accepted dispatch once and before the call returns, nothing of a refused one,
   no task of one call under the pointer of another or beside the tasks of
   another, and a shutdown that leaves no thread. -/
namespace Zynum.ThreadPool

open JobBoard

variable {C : Type} [DecidableEq C] {requests : C → Request} {s : Pool C}

-- Two calls on three threads, the generation counters about to wrap: a dispatch of three tasks, and a shutdown.
def smallRequests : Bool → Request
  | false => .runLowLatency 3
  | true => .shutdown

def smallPool : Pool Bool where
  maxThreads := 3
  ioInit := .cold
  ioBusy := false
  persistentInit := .cold
  workerCount := 0
  readyCount := 0
  exitedCount := 0
  generation _ := 0xFFFFFFFF#32
  activeHelpers := 0
  firstHelper := 0
  doneCount := 0
  jobCount := 0
  doneTarget := 0
  shutdownRequested := false
  taskFn := true
  tasks := true
  calls _ := .start
  workers _ := .absent
  helpers _ _ := .absent
  next _ := 0
  begun _ _ := []
  ended _ _ := []

def smallState (actions : List (Action Bool)) : Pool Bool := (runActions smallRequests smallPool actions).getD smallPool

-- Up to the point where the second worker is inside its task.
def dispatchActions : List (Action Bool) :=
  List.replicate 8 (.call false true) ++ List.replicate 2 (.worker 0) ++ List.replicate 2 (.worker 1) ++
    List.replicate 13 (.call false true) ++ List.replicate 8 (.worker 1)

def returnActions : List (Action Bool) :=
  dispatchActions ++ List.replicate 10 (.worker 0) ++ List.replicate 2 (.worker 1) ++ List.replicate 4 (.call false true)

def shutdownActions : List (Action Bool) :=
  returnActions ++ List.replicate 5 (.call true true) ++ List.replicate 4 (.worker 0) ++ List.replicate 4 (.worker 1) ++
    List.replicate 4 (.call true true)

theorem small_reachable (actions : List (Action Bool)) (runs : (runActions smallRequests smallPool actions).isSome = true) :
    Reachable smallRequests (smallState actions) := by
  have begins : Initial smallPool := ⟨rfl, rfl, rfl, fun _ => rfl, fun _ => rfl, fun _ _ => rfl, fun _ => rfl, fun _ _ =>
    rfl, fun _ _ => rfl⟩
  obtain ⟨state, run⟩ := Option.isSome_iff_exists.mp runs
  apply reachable_run begins actions
  rw [smallState, run]
  rfl

omit [DecidableEq C] in
theorem Inv.executed (inv : Inv requests s) (caller : C) :
    (s.calls caller = .returned true →
      (s.begun caller caller).Perm (List.range (requests caller).jobs) ∧
        (s.ended caller caller).Perm (List.range (requests caller).jobs)) ∧
    (s.calls caller = .returned false → s.begun caller caller = [] ∧ s.ended caller caller = []) ∧
    ∀ other, other ≠ caller → s.begun caller other = [] ∧ s.begun other caller = [] := by
  have recorded := inv.recorded caller
  refine ⟨fun returned => ?_, fun returned => ?_, fun other apart => ?_⟩
  · rw [returned] at recorded
    have complete : Complete (requests caller).jobs (s.begun caller caller) (s.ended caller caller) := recorded
    exact ⟨complete.begun, complete.ended⟩
  · rw [returned] at recorded
    have untouched : Untouched s caller := recorded
    exact ⟨untouched.begun, untouched.ended⟩
  · exact ⟨(inv.unmixed caller other (Ne.symm apart)).1, (inv.unmixed other caller apart).1⟩

theorem dispatch_exactly_once (requests : C → Request) (s : Pool C) (reachable : Reachable requests s) (caller : C) :
    (s.calls caller = .returned true →
      (s.begun caller caller).Perm (List.range (requests caller).jobs) ∧
        (s.ended caller caller).Perm (List.range (requests caller).jobs)) ∧
    (s.calls caller = .returned false → s.begun caller caller = [] ∧ s.ended caller caller = []) ∧
    ∀ other, other ≠ caller → s.begun caller other = [] ∧ s.begun other caller = [] :=
  (reachable_inv reachable).executed caller

theorem dispatch_exactly_once_small : (smallState returnActions).calls false = .returned true ∧
    ((smallState returnActions).ended false false).Perm (List.range 3) :=
  ⟨by decide +kernel, ((dispatch_exactly_once smallRequests _ (small_reachable returnActions (by decide +kernel)) false).1
    (by decide +kernel)).2⟩

-- Every call site of a run of a kernel, with the interleaving of the pool its dispatch took part in.
structure Dispatcher (C : Type) [DecidableEq C] where
  requests : Site → Nat → C → Request
  state : Site → Nat → Pool C
  caller : Site → Nat → C
  reachable : ∀ site count, Reachable (requests site count) (state site count)
  jobs : ∀ site count, (requests site count (caller site count)).jobs = count

-- The order in which the tasks of an accepted dispatch ended.
def answer (s : Pool C) (caller : C) : Option (List Nat) :=
  if s.calls caller = .returned true then some (s.ended caller caller) else none

theorem Dispatcher.complete (dispatcher : Dispatcher C) (site : Site) (count : Nat) (order : List Nat)
    (accepted : answer (dispatcher.state site count) (dispatcher.caller site count) = some order) : order.Perm
    (List.range count) := by
  unfold answer at accepted
  split at accepted
  · rename_i returned
    cases accepted
    have exact := (reachable_inv (dispatcher.reachable site count)).executed (dispatcher.caller site count)
    have ended := (exact.1 returned).2
    rwa [dispatcher.jobs] at ended
  · cases accepted

-- What the kernels assume of a dispatch, kept by the pool.
def Dispatcher.runtime (dispatcher : Dispatcher C) (arch : Arch) (maxThreads : Site → Nat) (tasks : Site → Nat → Nat)
    (workspace : Site → Nat → Bool) : Runtime where
  arch := arch
  maxThreads := maxThreads
  taskCount := tasks
  dispatch site count := answer (dispatcher.state site count) (dispatcher.caller site count)
  workspace := workspace
  dispatch_complete := dispatcher.complete

-- What the tasks begun for a dispatch have made of a state, each of them taken as a whole.
def Dispatcher.effect {σ : Type} (dispatcher : Dispatcher C) (site : Site) (count : Nat) (task : Nat → σ → σ) (state : σ) : σ :=
  ((dispatcher.state site count).begun (dispatcher.caller site count) (dispatcher.caller site count)).foldl
    (fun current index => task index current) state

theorem Dispatcher.refused {σ : Type} (dispatcher : Dispatcher C) (arch : Arch) (maxThreads : Site → Nat) (tasks : Site → Nat → Nat)
    (workspace : Site → Nat → Bool) (site : Site) (count : Nat)
    (refused : (dispatcher.state site count).calls (dispatcher.caller site count) = .returned false) (task : Nat → σ →
      σ) (state : σ) :
    (dispatcher.runtime arch maxThreads tasks workspace).runTasks site count task state = none ∧
      dispatcher.effect site count task state = state := by
  have executed := (reachable_inv (dispatcher.reachable site count)).executed (dispatcher.caller site count)
  constructor
  · have answered : answer (dispatcher.state site count) (dispatcher.caller site count) = none := by
      rw [answer, refused, if_neg (fun same => by cases same)]
    change (answer _ _).map _ = none
    rw [answered]
    rfl
  · rw [Dispatcher.effect, (executed.2.1 refused).1]
    rfl

-- A thread of the pool inside a task function, with the pointer and the index it was given.
inductive Executing (s : Pool C) : C → C → Nat → Body → Prop where
  | worker (worker index : Nat) (seen : BitVec 32) (taskFn tasks : C) (body : Body)
      (running : s.workers worker = .running seen taskFn tasks index body) : Executing s taskFn tasks index body
  | helper (caller : C) (index : Nat) (body : Body) (running : s.helpers caller index = .running body) :
      Executing s caller caller index body

def CallState.width : CallState → Option Nat
  | .runPersistent width _ => some width
  | .runGroup width _ => some width
  | _ => none

-- An index of the dispatch that is not its caller's, and inside it a job of the request.
structure Belongs (request : Request) (state : CallState) (index : Nat) (body : Body) : Prop where
  dispatched : ∃ width, state.width = some width ∧ width ≤ request.jobs ∧ 0 < index ∧ index < width
  job : ∀ job, body = .working job → job < request.jobs ∧ (request.isQueued = false → job = index)

omit [DecidableEq C] in
theorem Board.working {request : Request} {slots : Nat → Slot} {begun ended : List Nat} {next slot job : Nat}
    (board : Board request slots begun ended next) (working : slots slot = .working job) :
    job < request.jobs ∧ (request.isQueued = false → job = slot) := by
  cases queued : request.isQueued with
  | true =>
    rw [board_queued queued] at board
    exact ⟨(board.held slot job working).2.1, fun direct => Bool.noConfusion direct⟩
  | false =>
    rw [board_direct queued] at board
    have own := (board slot).mine job working
    have inside := Direct.inside board (by rw [working]; exact Slot.noConfusion)
    exact ⟨own ▸ Nat.lt_of_not_le inside, fun _ => own⟩

omit [DecidableEq C] in
theorem Inv.running_worker (inv : Inv requests s) {worker index : Nat} {seen : BitVec 32} {taskFn tasks : C} {body : Body}
    (running : s.workers worker = .running seen taskFn tasks index body) :
    taskFn = tasks ∧ ∃ width stage, s.calls tasks = .runPersistent width stage := by
  have present : s.workers worker ≠ .absent := by rw [running]; exact nofun
  have busy : ∀ generation, s.workers worker = .idle generation → generation ≠ s.generation worker := by rw [running]; exact nofun
  obtain ⟨caller, _, engaged⟩ := inv.engaged present busy
  cases engaged with
  | assembling submitted gathering inside =>
    have arriving := gathering.arriving worker inside
    rw [running] at arriving
    exact absurd arriving not_false
  | dispatching width firstHelper bumped helper stage stands dispatch inside place =>
    have serving := dispatch.serving helper inside
    rw [← place, running] at serving
    obtain ⟨_, rfl, rfl, _⟩ := serving
    exact ⟨rfl, width, stage, stands⟩
  | dismissing workerCount told dismissal inside =>
    have leaving := dismissal.leaving worker inside
    rw [running] at leaving
    exact absurd leaving not_false

omit [DecidableEq C] in
theorem Dispatching.belongs {caller : C} {width firstHelper bumped worker index : Nat} {seen : BitVec 32} {taskFn tasks : C}
    {body : Body} {own : Slot} {stage : PersistentStage} (dispatch : Dispatching s caller width firstHelper bumped)
    (board : BoardOf requests caller (crew own bumped (helperSlots s firstHelper)) s) (wide : Wide (requests caller) width)
    (running : s.workers worker = .running seen taskFn tasks index body) :
    Belongs (requests caller) (.runPersistent width stage) index body := by
  obtain ⟨helper, inside, place⟩ := dispatch.helper (by rw [running]; exact nofun) (by rw [running]; exact nofun)
  have serving := dispatch.serving helper inside
  rw [← place, running] at serving
  obtain ⟨_, _, _, mine⟩ := serving
  have within := dispatch.within
  refine ⟨⟨width, rfl, wide.few, by omega, by omega⟩, fun job working => ?_⟩
  rw [mine]
  apply Board.working board
  rw [crew, if_pos inside, helperSlots, ← place, running, working]
  rfl

omit [DecidableEq C] in
theorem Inv.worker_belongs (inv : Inv requests s) {worker index : Nat} {seen : BitVec 32} {taskFn tasks : C} {body : Body}
    (running : s.workers worker = .running seen taskFn tasks index body) :
    Belongs (requests tasks) (s.calls tasks) index body := by
  obtain ⟨_, width, stage, stands⟩ := inv.running_worker running
  have staffed := inv.staffed tasks (by rw [stands]; rfl)
  have recorded := inv.recorded tasks
  have wide := inv.sized tasks
  rw [stands] at staffed recorded wide
  rw [stands]
  -- before the first bump everyone is at rest
  have resting : ¬ Resting s := by
    intro rest
    have placed := rest.placed worker
    rw [running] at placed
    split at placed
    · cases placed
    · cases placed
  cases stage with
  | choose => exact absurd staffed.1 resting
  | publish firstHelper stored => exact absurd staffed.1 resting
  | bump firstHelper bumped => exact Dispatching.belongs staffed recorded wide running
  | own firstHelper body => exact Dispatching.belongs staffed recorded wide running
  | collect firstHelper => exact Dispatching.belongs staffed recorded wide running

omit [DecidableEq C] in
theorem Spread.belongs {caller : C} {helpers : Nat → HelperState} {width reached index : Nat} {body : Body} {submitted : Bool}
    {own : Slot} {stage : GroupStage} {slots : Nat → Slot} (spread : Spread helpers reached submitted) (short : reached ≤ width)
    (wide : Wide (requests caller) width) (board : BoardOf requests caller slots s)
    (apart : index < reached → slots index = crew own (reached - 1) (groupSlots helpers) index)
    (running : helpers index = .running body) : Belongs (requests caller) (.runGroup width stage) index body := by
  obtain ⟨some, inside⟩ := spread.within index (by rw [running]; exact nofun)
  refine ⟨⟨width, rfl, wide.few, some, Nat.lt_of_lt_of_le inside short⟩, fun job working => ?_⟩
  apply Board.working board
  rw [apart inside, (crew_helper own helpers .finished some (by omega)).1, running, working]
  rfl

omit [DecidableEq C] in
theorem Inv.helper_belongs (inv : Inv requests s) {caller : C} {index : Nat} {body : Body}
    (running : s.helpers caller index = .running body) : Belongs (requests caller) (s.calls caller) index body := by
  obtain ⟨width, stage, stands⟩ := inv.helper_call running
  have grouped := inv.grouped caller
  have recorded := inv.recorded caller
  have sized := inv.sized caller
  rw [stands] at grouped recorded sized
  rw [stands]
  obtain ⟨wide, within⟩ := sized
  cases stage with
  | grant => exact absurd (grouped index) (by rw [running]; exact nofun)
  | submit reached submitted => exact Spread.belongs grouped within.2 wide recorded (fun _ => rfl) running
  | inline reached submitted own =>
    exact Spread.belongs grouped (Nat.le_of_lt within.2) wide recorded
      (fun below => Function.update_of_ne (Nat.ne_of_lt below) _ _) running
  | own submitted own => exact Spread.belongs grouped (Nat.le_refl width) wide recorded (fun _ => rfl) running
  | await => exact Spread.belongs grouped (Nat.le_refl width) wide recorded (fun _ => rfl) running

omit [DecidableEq C] in
theorem Inv.executing (inv : Inv requests s) {taskFn tasks : C} {index : Nat} {body : Body}
    (executing : Executing s taskFn tasks index body) :
    taskFn = tasks ∧ (s.calls tasks).holds = true ∧ Belongs (requests tasks) (s.calls tasks) index body := by
  cases executing with
  | worker worker index seen taskFn tasks body running =>
    obtain ⟨same, width, stage, stands⟩ := inv.running_worker running
    exact ⟨same, by rw [stands]; rfl, inv.worker_belongs running⟩
  | helper caller index body running =>
    obtain ⟨width, stage, stands⟩ := inv.helper_call running
    exact ⟨rfl, by rw [stands]; rfl, inv.helper_belongs running⟩

-- Whoever is inside a task function is there for the one call that holds io_busy, with that call's pointer and an index of its own.
theorem executing_for_the_holder (requests : C → Request) (s : Pool C) (reachable : Reachable requests s) (taskFn tasks : C)
    (index : Nat) (body : Body) (executing : Executing s taskFn tasks index body) :
    taskFn = tasks ∧ s.ioBusy = true ∧ (s.calls tasks).holds = true ∧ Belongs (requests tasks) (s.calls tasks) index body ∧
      ∀ otherFn otherTasks otherIndex otherBody, Executing s otherFn otherTasks otherIndex otherBody → otherTasks = tasks := by
  have inv := reachable_inv reachable
  obtain ⟨same, holding, belongs⟩ := inv.executing executing
  exact ⟨same, inv.busy tasks holding, holding, belongs,
    fun otherFn otherTasks otherIndex otherBody other => inv.alone otherTasks tasks (inv.executing other).2.1 holding⟩

theorem executing_for_the_holder_small : (smallState dispatchActions).ioBusy = true ∧
    Belongs (smallRequests false) ((smallState dispatchActions).calls false) 2 (.working 2) := by
  have running : (smallState dispatchActions).workers 1 = .running 0 false false 2 (.working 2) := by decide +kernel
  have holder := executing_for_the_holder smallRequests _ (small_reachable dispatchActions (by decide +kernel)) false false 2
    (.working 2) (.worker 1 2 0 false false (.working 2) running)
  exact ⟨holder.2.1, holder.2.2.2.1⟩

-- From the moment a shutdown holds io_busy nobody is inside a task function, and when it gives io_busy back no thread is left.
theorem shutdown_leaves_nothing (requests : C → Request) (s : Pool C) (reachable : Reachable requests s) (caller : C)
    (stage : ShutdownStage) (stands : s.calls caller = .shutdown stage) :
    (∀ taskFn tasks index body, ¬ Executing s taskFn tasks index body) ∧
    (stage = .unlock → s.persistentInit = .cold ∧ s.ioInit = .cold ∧ ∀ worker, s.workers worker = .absent) := by
  have inv := reachable_inv reachable
  have holding : (s.calls caller).holds = true := by rw [stands]; rfl
  constructor
  · intro taskFn tasks index body executing
    have elsewhere : ∀ other, (s.calls other).holds = true → s.calls other = .shutdown stage := by
      intro other holds
      rw [inv.alone other caller holds holding, stands]
    cases executing with
    | worker worker index seen taskFn tasks body running =>
      obtain ⟨_, width, own, serving⟩ := inv.running_worker running
      have same := elsewhere _ (by rw [serving]; rfl)
      rw [serving] at same
      cases same
    | helper other index body running =>
      obtain ⟨width, own, serving⟩ := inv.helper_call running
      have same := elsewhere _ (by rw [serving]; rfl)
      rw [serving] at same
      cases same
  · intro last
    have staffed := inv.staffed caller holding
    rw [stands, last] at staffed
    exact ⟨staffed.cold, staffed.ioCold, staffed.absent⟩

theorem shutdown_leaves_nothing_small : (smallState shutdownActions).workers 1 = .absent :=
  ((shutdown_leaves_nothing smallRequests _ (small_reachable shutdownActions (by decide +kernel)) true .unlock
    (by decide +kernel)).2 rfl).2.2 1

end Zynum.ThreadPool
