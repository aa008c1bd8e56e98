import Zynum.Runtime
import Mathlib.Logic.Function.Basic
import Mathlib.Logic.Relation

set_option autoImplicit false

/- The thread pool: persistent workers with one generation counter each, the
   group path through the standard library's threads, the shared queue, and
   shutdown. A step is one access to a shared variable by one thread; a run is
   any interleaving of such steps, of any number of calls from any threads, so
   a call made from inside a task is one more call. Accesses take effect in the
   order of the program. A call's task function and task pointer are known by
   the call they belong to: the pool only copies them.

   Waiting is a step that is not enabled yet; the module Futex puts the spinning,
   sleeping and waking of the workers and of their callers back. Loops that only
   spin on io_busy or an init state, and the library's group.await, stay so.
   Affinity and the thread-local caches do not appear. -/
namespace Zynum.ThreadPool

def maxTasks : Nat := 64

def helperThreadCount (maxThreads maxHelpers : Nat) : Nat :=
  if maxThreads ≤ 1 then 0 else min (maxThreads - 1) maxHelpers

-- The four values of an init state: 0, 1, 2 and 3.
inductive InitState where
  | cold
  | starting
  | ready
  | failed
  deriving DecidableEq, Repr

inductive Request where
  | run (count : Nat)
  | runLowLatency (count : Nat)
  | runQueued (count workerLimit : Nat)
  | shutdown
  deriving DecidableEq, Repr

def Request.jobs : Request → Nat
  | .run count => count
  | .runLowLatency count => count
  | .runQueued count _ => count
  | .shutdown => 0

def Request.isQueued : Request → Bool
  | .runQueued _ _ => true
  | _ => false

-- A task function under way: called with its index, or inside one of its jobs.
inductive Body where
  | called
  | working (job : Nat)
  deriving DecidableEq, Repr

inductive EnsureStage where
  | check
  | look
  | await
  | prepare
  | submit (helperCount submitted : Nat)
  | gather (submitted : Nat)
  deriving DecidableEq, Repr

inductive PersistentStage where
  | choose
  | publish (firstHelper stored : Nat)
  | bump (firstHelper bumped : Nat)
  | own (firstHelper : Nat) (body : Body)
  | collect (firstHelper : Nat)
  deriving DecidableEq, Repr

inductive EnsureIoStage where
  | check
  | look
  | await
  | prepare
  deriving DecidableEq, Repr

inductive GroupStage where
  | grant
  | submit (index : Nat) (submitted : Bool)
  | inline (index : Nat) (submitted : Bool) (body : Body)
  | own (submitted : Bool) (body : Body)
  | await
  deriving DecidableEq, Repr

inductive ShutdownStage where
  | look
  | dismiss (workerCount told : Nat)
  | collect (workerCount : Nat)
  | await
  | reset
  | io
  | unlock
  deriving DecidableEq, Repr

-- Where a call stands. The calls from ensurePersistentWorkers on hold io_busy until they have returned.
inductive CallState where
  | start
  | entering (width : Nat)
  | ensurePersistentWorkers (width : Nat) (stage : EnsureStage)
  | runPersistent (width : Nat) (stage : PersistentStage)
  | ensureIoThreaded (width : Nat) (stage : EnsureIoStage)
  | runGroup (width : Nat) (stage : GroupStage)
  | leaving (answer : Bool)
  | shutdown (stage : ShutdownStage)
  | returned (answer : Bool)
  deriving DecidableEq, Repr

variable {C : Type}

inductive WorkerState (C : Type) where
  | absent
  | starting
  | announcing (seen : BitVec 32)
  | idle (seen : BitVec 32)
  | woken (seen : BitVec 32)
  | readTaskFn (seen : BitVec 32)
  | readTasks (seen : BitVec 32) (taskFn : C)
  | readCount (seen : BitVec 32) (taskFn tasks : C)
  | readActive (seen : BitVec 32) (taskFn tasks : C) (count : Nat)
  | readFirst (seen : BitVec 32) (taskFn tasks : C) (count activeHelpers : Nat)
  | running (seen : BitVec 32) (taskFn tasks : C) (index : Nat) (body : Body)
  | acknowledging (seen : BitVec 32)
  | exiting
  | exited
  deriving DecidableEq

inductive HelperState where
  | absent
  | running (body : Body)
  | finished
  deriving DecidableEq, Repr

def HelperState.isRunning : HelperState → Bool
  | .running _ => true
  | _ => false

-- The variables of the file, the queue of each call, and what has been begun and ended so far
-- by a task function under a task pointer.
structure Pool (C : Type) where
  maxThreads : Nat
  ioInit : InitState
  ioBusy : Bool
  persistentInit : InitState
  workerCount : Nat
  readyCount : Nat
  exitedCount : Nat
  generation : Nat → BitVec 32
  activeHelpers : Nat
  firstHelper : Nat
  doneCount : Nat
  jobCount : Nat
  doneTarget : Nat
  shutdownRequested : Bool
  taskFn : C
  tasks : C
  calls : C → CallState
  workers : Nat → WorkerState C
  helpers : C → Nat → HelperState
  next : C → Nat
  begun : C → C → List Nat
  ended : C → C → List Nat

def configuredHelperCount (s : Pool C) : Nat := helperThreadCount s.maxThreads (maxTasks - 1)

def taskCount (maxThreads items minItemsPerTask : Nat) : Nat :=
  if maxThreads ≤ 1 ∨ items < minItemsPerTask * 2 then 1
  else min (min maxThreads maxTasks) (max 1 (items / minItemsPerTask))

def Pool.worker (s : Pool C) (worker : Nat) (state : WorkerState C) : Pool C :=
  { s with workers := Function.update s.workers worker state }

def Pool.bump (s : Pool C) (worker : Nat) : Pool C :=
  { s with generation := Function.update s.generation worker (s.generation worker + 1) }

section Steps

variable [DecidableEq C]

def Pool.call (s : Pool C) (caller : C) (state : CallState) : Pool C :=
  { s with calls := Function.update s.calls caller state }

def Pool.helper (s : Pool C) (caller : C) (index : Nat) (state : HelperState) : Pool C :=
  { s with helpers := Function.update s.helpers caller (Function.update (s.helpers caller) index state) }

def Pool.begins (s : Pool C) (taskFn tasks : C) (job : Nat) : Pool C :=
  { s with begun := Function.update s.begun taskFn (Function.update (s.begun taskFn) tasks (s.begun taskFn tasks ++ [job])) }

def Pool.ends (s : Pool C) (taskFn tasks : C) (job : Nat) : Pool C :=
  { s with ended := Function.update s.ended taskFn (Function.update (s.ended taskFn) tasks (s.ended taskFn tasks ++ [job])) }

variable (requests : C → Request)

-- One step of Queue.execute: draw an index, or come back from the job that was drawn.
def execute (s : Pool C) (taskFn tasks : C) (body : Body) : Pool C × Option Body :=
  match body with
  | .called =>
    let index := s.next tasks
    let s := { s with next := Function.update s.next tasks (index + 1) }
    if (requests tasks).jobs ≤ index then (s, none) else (s.begins taskFn tasks index, some (.working index))
  | .working job => (s.ends taskFn tasks job, some .called)

-- One step of task_fn(tasks, index); none once it has returned.
def callTask (s : Pool C) (taskFn tasks : C) (index : Nat) (body : Body) : Pool C × Option Body :=
  if (requests taskFn).isQueued then execute requests s taskFn tasks body
  else
    match body with
    | .called => (s.begins taskFn tasks index, some (.working index))
    | .working job => (s.ends taskFn tasks job, none)

-- The stores that publish a dispatch, in the order they are made.
def publish (caller : C) (width firstHelper stored : Nat) (s : Pool C) : Pool C :=
  match stored with
  | 0 => { s with taskFn := caller }
  | 1 => { s with tasks := caller }
  | 2 => { s with jobCount := width }
  | 3 => { s with doneCount := 0 }
  | 4 => { s with doneTarget := width - 1 }
  | 5 => { s with firstHelper := firstHelper }
  | _ => { s with activeHelpers := width - 1 }

def ensurePersistentWorkers (accepted : Bool) (s : Pool C) (caller : C) (width : Nat) (stage : EnsureStage) : Option (Pool C) :=
  let goto (s : Pool C) (stage : EnsureStage) : Option (Pool C) := some (s.call caller (.ensurePersistentWorkers width stage))
  let answerTrue (s : Pool C) : Option (Pool C) := some (s.call caller (.runPersistent width .choose))
  let answerFalse (s : Pool C) : Option (Pool C) := some (s.call caller (.ensureIoThreaded width .check))
  match stage with
  | .check => if configuredHelperCount s = 0 then answerFalse s else goto s .look
  | .look =>
    match s.persistentInit with
    | .ready => answerTrue s
    | .failed => answerFalse s
    | .cold => goto { s with persistentInit := .starting } .prepare
    | .starting => goto s .await
  | .await =>
    match s.persistentInit with
    | .ready => answerTrue s
    | .failed => answerFalse s
    | _ => none
  | .prepare =>
    let helperCount := configuredHelperCount s
    if helperCount = 0 then answerFalse { s with persistentInit := .failed }
    else goto { s with shutdownRequested := false, exitedCount := 0, readyCount := 0 } (.submit helperCount 0)
  | .submit helperCount submitted =>
    if submitted < helperCount ∧ accepted = true then
      goto (s.worker submitted .starting) (.submit helperCount (submitted + 1))
    else if submitted = 0 then answerFalse { s with persistentInit := .failed }
    else goto { s with workerCount := submitted } (.gather submitted)
  | .gather submitted => if submitted ≤ s.readyCount then answerTrue { s with persistentInit := .ready } else none

def runPersistent (s : Pool C) (caller : C) (width : Nat) (stage : PersistentStage) : Option (Pool C) :=
  let goto (s : Pool C) (stage : PersistentStage) : Option (Pool C) := some (s.call caller (.runPersistent width stage))
  let answerFalse : Option (Pool C) := some (s.call caller (.ensureIoThreaded width .check))
  match stage with
  | .choose =>
    let workers := s.workerCount
    let taskHelpers := width - 1
    if workers = 0 then answerFalse
    else if workers < taskHelpers ∨ configuredHelperCount s < taskHelpers then answerFalse
    else if taskHelpers = 0 then answerFalse
    else goto s (.publish (if width = 3 ∧ taskHelpers + 2 ≤ workers then 2 else 0) 0)
  | .publish firstHelper stored =>
    if stored < 7 then goto (publish caller width firstHelper stored s) (.publish firstHelper (stored + 1))
    else goto s (.bump firstHelper 0)
  | .bump firstHelper bumped =>
    if bumped < width - 1 then goto (s.bump (firstHelper + bumped)) (.bump firstHelper (bumped + 1))
    else goto s (.own firstHelper .called)
  | .own firstHelper body =>
    let (s, rest) := callTask requests s caller caller 0 body
    match rest with
    | some body => goto s (.own firstHelper body)
    | none => goto s (.collect firstHelper)
  | .collect _ => if s.doneTarget ≤ s.doneCount then some (s.call caller (.leaving true)) else none

def ensureIoThreaded (s : Pool C) (caller : C) (width : Nat) (stage : EnsureIoStage) : Option (Pool C) :=
  let goto (s : Pool C) (stage : EnsureIoStage) : Option (Pool C) := some (s.call caller (.ensureIoThreaded width stage))
  let answerTrue (s : Pool C) : Option (Pool C) := some (s.call caller (.runGroup width .grant))
  let answerFalse (s : Pool C) : Option (Pool C) := some (s.call caller (.leaving false))
  match stage with
  | .check => if configuredHelperCount s = 0 then answerFalse s else goto s .look
  | .look =>
    match s.ioInit with
    | .ready => answerTrue s
    | .failed => answerFalse s
    | .cold => goto { s with ioInit := .starting } .prepare
    | .starting => goto s .await
  | .await =>
    match s.ioInit with
    | .ready => answerTrue s
    | .failed => answerFalse s
    | _ => none
  | .prepare =>
    if configuredHelperCount s = 0 then answerFalse { s with ioInit := .failed } else answerTrue { s with ioInit := .ready }

def runGroup (accepted : Bool) (s : Pool C) (caller : C) (width : Nat) (stage : GroupStage) : Option (Pool C) :=
  let goto (s : Pool C) (stage : GroupStage) : Option (Pool C) := some (s.call caller (.runGroup width stage))
  match stage with
  | .grant =>
    if configuredHelperCount s < width - 1 then some (s.call caller (.leaving false)) else goto s (.submit 1 false)
  | .submit index submitted =>
    if index < width then
      if accepted then goto (s.helper caller index (.running .called)) (.submit (index + 1) true)
      else goto s (.inline index submitted .called)
    else goto s (.own submitted .called)
  | .inline index submitted body =>
    let (s, rest) := callTask requests s caller caller index body
    match rest with
    | some body => goto s (.inline index submitted body)
    | none => goto s (.submit (index + 1) submitted)
  | .own submitted body =>
    let (s, rest) := callTask requests s caller caller 0 body
    match rest with
    | some body => goto s (.own submitted body)
    | none => if submitted then goto s .await else some (s.call caller (.leaving true))
  | .await =>
    if ∀ index, index < width → (s.helpers caller index).isRunning = false then some (s.call caller (.leaving true)) else none

-- shutdownPersistentLocked, shutdownIoThreadedLocked and the release of io_busy.
def shutdown (s : Pool C) (caller : C) (stage : ShutdownStage) : Option (Pool C) :=
  let goto (s : Pool C) (stage : ShutdownStage) : Option (Pool C) := some (s.call caller (.shutdown stage))
  match stage with
  | .look =>
    match s.persistentInit with
    | .starting => none
    | .failed => goto { s with persistentInit := .cold } .io
    | .cold => goto s .io
    | .ready =>
      if s.workerCount = 0 then goto s .reset
      else goto { s with shutdownRequested := true, exitedCount := 0 } (.dismiss s.workerCount 0)
  | .dismiss workerCount told =>
    if told < workerCount then goto (s.bump told) (.dismiss workerCount (told + 1)) else goto s (.collect workerCount)
  | .collect workerCount => if workerCount ≤ s.exitedCount then goto s .await else none
  | .await => if ∀ worker, worker < s.workerCount → s.workers worker = .absent then goto s .reset else none
  | .reset =>
    goto { s with workerCount := 0, readyCount := 0, exitedCount := 0, shutdownRequested := false, persistentInit := .cold } .io
  | .io =>
    match s.ioInit with
    | .starting => none
    | _ => goto { s with ioInit := .cold } .unlock
  | .unlock => some ({ s with ioBusy := false }.call caller (.returned true))

-- The first step of a call: how many tasks it dispatches, and whether there is anything to dispatch.
def enter (s : Pool C) (caller : C) : Option (Pool C) :=
  let goto (width : Nat) : Option (Pool C) := some (s.call caller (if width ≤ 1 then .returned false else .entering width))
  match requests caller with
  | .run count => goto count
  | .runLowLatency count => goto count
  | .runQueued count workerLimit => goto (min count (min workerLimit (configuredHelperCount s + 1)))
  | .shutdown => if s.ioBusy then none else some ({ s with ioBusy := true }.call caller (.shutdown .look))

def stepCall (accepted : Bool) (s : Pool C) (caller : C) : Option (Pool C) :=
  match s.calls caller with
  | .start => enter requests s caller
  | .entering width =>
    if s.ioBusy then some (s.call caller (.returned false))
    else
      let s := { s with ioBusy := true }
      match requests caller with
      | .run _ => some (s.call caller (.ensureIoThreaded width .check))
      | _ => some (s.call caller (.ensurePersistentWorkers width .check))
  | .ensurePersistentWorkers width stage => ensurePersistentWorkers accepted s caller width stage
  | .runPersistent width stage => runPersistent requests s caller width stage
  | .ensureIoThreaded width stage => ensureIoThreaded s caller width stage
  | .runGroup width stage => runGroup requests accepted s caller width stage
  | .leaving answer => some ({ s with ioBusy := false }.call caller (.returned answer))
  | .shutdown stage => shutdown s caller stage
  | .returned _ => none

-- One step of runPersistentWorker.
def stepWorker (s : Pool C) (worker : Nat) : Option (Pool C) :=
  match s.workers worker with
  | .absent => none
  | .starting => some (s.worker worker (.announcing (s.generation worker)))
  | .announcing seen => some ({ s with readyCount := s.readyCount + 1 }.worker worker (.idle seen))
  | .idle seen => if s.generation worker = seen then none else some (s.worker worker (.woken (s.generation worker)))
  | .woken seen => some (s.worker worker (if s.shutdownRequested then .exiting else .readTaskFn seen))
  | .readTaskFn seen => some (s.worker worker (.readTasks seen s.taskFn))
  | .readTasks seen taskFn => some (s.worker worker (.readCount seen taskFn s.tasks))
  | .readCount seen taskFn tasks => some (s.worker worker (.readActive seen taskFn tasks s.jobCount))
  | .readActive seen taskFn tasks count => some (s.worker worker (.readFirst seen taskFn tasks count s.activeHelpers))
  | .readFirst seen taskFn tasks count activeHelpers =>
    let firstHelper := s.firstHelper
    if worker < firstHelper ∨ firstHelper + activeHelpers ≤ worker then some (s.worker worker (.idle seen))
    else
      let index := worker - firstHelper + 1
      some (s.worker worker (if index < count then .running seen taskFn tasks index .called else .acknowledging seen))
  | .running seen taskFn tasks index body =>
    let (s, rest) := callTask requests s taskFn tasks index body
    match rest with
    | some body => some (s.worker worker (.running seen taskFn tasks index body))
    | none => some (s.worker worker (.acknowledging seen))
  | .acknowledging seen => some ({ s with doneCount := s.doneCount + 1 }.worker worker (.idle seen))
  | .exiting => some ({ s with exitedCount := s.exitedCount + 1 }.worker worker .exited)
  | .exited => some (s.worker worker .absent)

-- One step of runIoTask in a thread of the group.
def stepHelper (s : Pool C) (caller : C) (index : Nat) : Option (Pool C) :=
  match s.helpers caller index with
  | .running body =>
    let (s, rest) := callTask requests s caller caller index body
    match rest with
    | some body => some (s.helper caller index (.running body))
    | none => some (s.helper caller index .finished)
  | _ => none

-- accepted is the answer of the library when a thread is asked for. Anyone may change the thread limit at any time.
inductive Action (C : Type) where
  | setMaxThreads (limit : Nat)
  | call (caller : C) (accepted : Bool)
  | worker (worker : Nat)
  | helper (caller : C) (index : Nat)

def step (s : Pool C) (action : Action C) : Option (Pool C) :=
  match action with
  | .setMaxThreads limit => some { s with maxThreads := limit }
  | .call caller accepted => stepCall requests accepted s caller
  | .worker worker => stepWorker requests s worker
  | .helper caller index => stepHelper requests s caller index

def runActions (s : Pool C) (actions : List (Action C)) : Option (Pool C) :=
  match actions with
  | [] => some s
  | action :: rest => (step requests s action).bind (fun next => runActions next rest)

end Steps

-- The file as it is loaded. The generation counters and the published values may hold anything.
structure Initial (s : Pool C) : Prop where
  ioInit : s.ioInit = .cold
  persistentInit : s.persistentInit = .cold
  free : s.ioBusy = false
  calls : ∀ caller, s.calls caller = .start
  workers : ∀ worker, s.workers worker = .absent
  helpers : ∀ caller index, s.helpers caller index = .absent
  next : ∀ caller, s.next caller = 0
  begun : ∀ taskFn tasks, s.begun taskFn tasks = []
  ended : ∀ taskFn tasks, s.ended taskFn tasks = []

section Runs

variable [DecidableEq C] {requests : C → Request}

def Step (requests : C → Request) (s next : Pool C) : Prop := ∃ action, step requests s action = some next

def Reachable (requests : C → Request) (s : Pool C) : Prop :=
  ∃ initial, Initial initial ∧ Relation.ReflTransGen (Step requests) initial s

theorem reachable_invariant {holds : Pool C → Prop} (start : ∀ s, Initial s → holds s)
    (preserved : ∀ s next action, holds s → step requests s action = some next → holds next) {s : Pool C}
    (reachable : Reachable requests s) : holds s := by
  obtain ⟨initial, begins, run⟩ := reachable
  induction run with
  | refl => exact start initial begins
  | tail _ taken ih =>
    obtain ⟨action, answer⟩ := taken
    exact preserved _ _ action ih answer

theorem reachable_run {initial s : Pool C} (begins : Initial initial) (actions : List (Action C))
    (run : runActions requests initial actions = some s) : Reachable requests s := by
  refine ⟨initial, begins, ?_⟩
  clear begins
  induction actions generalizing initial with
  | nil =>
    cases run
    exact .refl
  | cons action rest ih =>
    obtain ⟨between, taken, remaining⟩ := Option.bind_eq_some_iff.mp run
    exact .head ⟨action, taken⟩ (ih remaining)

end Runs

end Zynum.ThreadPool
