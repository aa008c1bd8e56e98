import Zynum.Execution.ThreadPoolReturns

set_option autoImplicit false

/- The pool with its spinning, sleeping and waking, over the steps of ThreadPool.
   A thread that waits for a word loads it, spins, and calls futexWait with the
   value it saw; a thread that has changed a word calls futexWake afterwards.
   futexWait compares and falls asleep in one step, and may return for no reason
   at any time. That also covers the early wakes of macOS, which only add to the
   ones the code makes everywhere. -/
namespace Zynum.ThreadPool

variable {C : Type}

def persistentSpinIters : Nat := 500000
def persistentDoneSpinIters : Nat := 100000

-- The words a call sleeps on. A worker sleeps on its own generation.
inductive Counter where
  | ready
  | done
  | exited
  deriving DecidableEq, Repr

-- What a call is about to do. While it looks it takes the steps of the pool; spins counts
-- the loads since it began to wait, roused stands for woke_sleepers.
inductive CallWait where
  | looking (roused : Bool) (spins : Nat)
  | notifying (worker : Nat)
  | rousing (told : Nat)
  | watching (counter : Counter) (expected : Nat)
  | asleep (counter : Counter)
  deriving DecidableEq, Repr

inductive WorkerWait where
  | looking (spins : Nat)
  | reading
  | checking (exited : Nat)
  | notifying (counter : Counter)
  | watching (seen : BitVec 32)
  | asleep
  deriving DecidableEq, Repr

-- targets holds the local done_target of each worker.
structure FutexPool (C : Type) where
  pool : Pool C
  calls : C → CallWait
  workers : Nat → WorkerWait
  targets : Nat → Nat

def Pool.counter (s : Pool C) : Counter → Nat
  | .ready => s.readyCount
  | .done => s.doneCount
  | .exited => s.exitedCount

def CallWait.woken (counter : Counter) : CallWait → CallWait
  | .asleep other => if other = counter then .looking true 0 else .asleep other
  | wait => wait

def WorkerWait.woken : WorkerWait → WorkerWait
  | .asleep => .looking (persistentSpinIters + 1)
  | wait => wait

-- futexWake on a counter. At most one call sleeps on it, so waking one is waking all.
def FutexPool.wakeCalls (f : FutexPool C) (counter : Counter) : FutexPool C :=
  { f with calls := fun caller => (f.calls caller).woken counter }

-- futexWake on the generation of a worker.
def FutexPool.wakeWorker (f : FutexPool C) (worker : Nat) : FutexPool C :=
  { f with workers := Function.update f.workers worker (f.workers worker).woken }

def FutexPool.worker (f : FutexPool C) (worker : Nat) (wait : WorkerWait) : FutexPool C :=
  { f with workers := Function.update f.workers worker wait }

def CallState.followUp : CallState → CallWait
  | .shutdown (.dismiss workerCount told) => if told < workerCount then .notifying told else .looking false 0
  | _ => .looking false 0

-- The load of a waiting loop that did not find what it waits for.
def lookAgain (s : Pool C) (state : CallState) (roused : Bool) (spins : Nat) : Option CallWait :=
  match state with
  | .ensurePersistentWorkers _ (.gather _) => some (.watching .ready s.readyCount)
  | .runPersistent _ (.collect _) =>
    if spins < persistentDoneSpinIters then some (.looking roused (spins + 1))
    else if roused then some (.watching .done s.doneCount)
    else some (.rousing 0)
  | .shutdown (.collect _) => some (.watching .exited s.exitedCount)
  | _ => none

section Steps

variable [DecidableEq C] (requests : C → Request)

def FutexPool.call (f : FutexPool C) (caller : C) (wait : CallWait) : FutexPool C :=
  { f with calls := Function.update f.calls caller wait }

def futexCall (accepted : Bool) (f : FutexPool C) (caller : C) : Option (FutexPool C) :=
  match f.calls caller with
  | .looking roused spins =>
    match stepCall requests accepted f.pool caller with
    | some pool => some ({ f with pool := pool }.call caller (f.pool.calls caller).followUp)
    | none => (lookAgain f.pool (f.pool.calls caller) roused spins).map (fun wait => f.call caller wait)
  | .notifying worker => some ((f.wakeWorker worker).call caller (.looking false 0))
  | .rousing told =>
    match f.pool.calls caller with
    | .runPersistent width (.collect firstHelper) =>
      if told < width - 1 then some ((f.wakeWorker (firstHelper + told)).call caller (.rousing (told + 1)))
      else some (f.call caller (.looking true persistentDoneSpinIters))
    | _ => none
  | .watching counter expected =>
    some (f.call caller (if f.pool.counter counter = expected then .asleep counter else .looking true 0))
  | .asleep _ => none

def FutexPool.followUp (f : FutexPool C) (worker : Nat) : WorkerWait :=
  match f.pool.workers worker with
  | .announcing _ => .notifying .ready
  | .readCount _ _ _ => .reading
  | .acknowledging _ => if f.targets worker ≤ f.pool.doneCount + 1 then .notifying .done else .looking 0
  | .exiting => .checking (f.pool.exitedCount + 1)
  | _ => .looking 0

def futexWorker (f : FutexPool C) (worker : Nat) : Option (FutexPool C) :=
  match f.workers worker with
  | .looking spins =>
    match stepWorker requests f.pool worker with
    | some pool => some ({ f with pool := pool }.worker worker (f.followUp worker))
    | none =>
      match f.pool.workers worker with
      | .idle seen => some (f.worker worker (if spins ≤ persistentSpinIters then .looking (spins + 1) else .watching seen))
      | _ => none
  | .reading =>
    some ({ f with targets := Function.update f.targets worker f.pool.doneTarget }.worker worker (.looking 0))
  | .checking exited => some (f.worker worker (if f.pool.workerCount ≤ exited then .notifying .exited else .looking 0))
  | .notifying counter => some ((f.wakeCalls counter).worker worker (.looking 0))
  | .watching seen =>
    some (f.worker worker (if f.pool.generation worker = seen then .asleep else .looking (persistentSpinIters + 1)))
  | .asleep => none

-- Besides the threads' own steps, a sleeper may come back without having been woken.
inductive FutexAction (C : Type) where
  | act (action : Action C)
  | strayCall (caller : C)
  | strayWorker (worker : Nat)

def FutexAction.serves (caller : C) : FutexAction C → Bool
  | .act action => action.serves caller
  | _ => false

def FutexAction.stray : FutexAction C → Bool
  | .act _ => false
  | _ => true

def futexStep (f : FutexPool C) : FutexAction C → Option (FutexPool C)
  | .act (.setMaxThreads limit) => some { f with pool := { f.pool with maxThreads := limit } }
  | .act (.call caller accepted) => futexCall requests accepted f caller
  | .act (.worker worker) => futexWorker requests f worker
  | .act (.helper caller index) => (stepHelper requests f.pool caller index).map (fun pool => { f with pool := pool })
  | .strayCall caller =>
    match f.calls caller with
    | .asleep counter => some (f.call caller ((f.calls caller).woken counter))
    | _ => none
  | .strayWorker worker => if f.workers worker = .asleep then some (f.wakeWorker worker) else none

def runFutex (f : FutexPool C) (actions : List (FutexAction C)) : Option (FutexPool C) :=
  match actions with
  | [] => some f
  | action :: rest => (futexStep requests f action).bind (fun next => runFutex next rest)

end Steps

structure FutexInitial (f : FutexPool C) : Prop where
  pool : Initial f.pool
  calls : ∀ caller, f.calls caller = .looking false 0
  workers : ∀ worker, f.workers worker = .looking 0

section Runs

variable [DecidableEq C] {requests : C → Request} {f f' : FutexPool C}

def FutexReachable (requests : C → Request) (f : FutexPool C) : Prop :=
  ∃ initial actions, FutexInitial initial ∧ runFutex requests initial actions = some f

theorem futex_invariant (holds : FutexPool C → Prop) (start : ∀ f, FutexInitial f → holds f)
    (preserved : ∀ f next action, holds f → futexStep requests f action = some next → holds next)
    (reachable : FutexReachable requests f) : holds f := by
  obtain ⟨initial, actions, begins, run⟩ := reachable
  have holding := start initial begins
  clear begins
  induction actions generalizing initial with
  | nil =>
    cases run
    exact holding
  | cons action rest ih =>
    obtain ⟨between, taken, remaining⟩ := Option.bind_eq_some_iff.mp run
    exact ih between remaining (preserved initial between action holding taken)

-- A step of the layer is a step of the pool by the same thread, or none at all.
theorem futex_step_pool {action : FutexAction C} (taken : futexStep requests f action = some f') :
    f'.pool = f.pool ∨ ∃ inner, action = .act inner ∧ step requests f.pool inner = some f'.pool := by
  cases action with
  | strayCall caller =>
    cases wait : f.calls caller with
    | asleep counter =>
      simp only [futexStep, wait] at taken
      cases taken
      exact .inl rfl
    | _ => simp only [futexStep, wait, reduceCtorEq] at taken
  | strayWorker worker =>
    simp only [futexStep] at taken
    split at taken <;> cases taken
    exact .inl rfl
  | act inner =>
    cases inner with
    | setMaxThreads limit =>
      cases taken
      exact .inr ⟨.setMaxThreads limit, rfl, rfl⟩
    | helper caller index =>
      obtain ⟨pool, moved, rfl⟩ := Option.map_eq_some_iff.mp taken
      exact .inr ⟨.helper caller index, rfl, moved⟩
    | call caller accepted =>
      simp only [futexStep, futexCall] at taken
      cases wait : f.calls caller with
      | looking roused spins =>
        simp only [wait] at taken
        cases moved : stepCall requests accepted f.pool caller with
        | some pool =>
          simp only [moved] at taken
          cases taken
          exact .inr ⟨.call caller accepted, rfl, moved⟩
        | none =>
          simp only [moved] at taken
          obtain ⟨next, _, rfl⟩ := Option.map_eq_some_iff.mp taken
          exact .inl rfl
      | rousing told =>
        simp only [wait] at taken
        split at taken
        · split at taken <;> cases taken <;> exact .inl rfl
        · cases taken
      | asleep counter => simp only [wait, reduceCtorEq] at taken
      | _ =>
        simp only [wait] at taken
        cases taken
        exact .inl rfl
    | worker worker =>
      simp only [futexStep, futexWorker] at taken
      cases wait : f.workers worker with
      | looking spins =>
        simp only [wait] at taken
        cases moved : stepWorker requests f.pool worker with
        | some pool =>
          simp only [moved] at taken
          cases taken
          exact .inr ⟨.worker worker, rfl, moved⟩
        | none =>
          simp only [moved] at taken
          split at taken <;> cases taken
          exact .inl rfl
      | asleep => simp only [wait, reduceCtorEq] at taken
      | _ =>
        simp only [wait] at taken
        cases taken
        exact .inl rfl

theorem futex_reachable_pool (reachable : FutexReachable requests f) : Reachable requests f.pool := by
  refine futex_invariant (fun f => Reachable requests f.pool) (fun f initial => ⟨f.pool, initial.pool, .refl⟩)
    (fun f next action before taken => ?_) reachable
  obtain ⟨initial, begins, run⟩ := before
  refine ⟨initial, begins, ?_⟩
  rcases futex_step_pool taken with same | ⟨inner, _, moved⟩
  · rw [same]
    exact run
  · exact run.tail ⟨inner, moved⟩

end Runs

end Zynum.ThreadPool
