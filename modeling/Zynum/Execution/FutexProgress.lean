import Zynum.Execution.FutexSteps

set_option autoImplicit false

/- With sleeping and waking the holder of io_busy is never stuck: whoever it waits
   for is awake, or about to be woken by someone who is. And the pool with its
   waits keeps what the pool promises without them. -/
namespace Zynum.ThreadPool

variable {C : Type}

section Progress

variable [DecidableEq C] {requests : C → Request} {s s' : Pool C} {f f' : FutexPool C} {caller : C} {accepted : Bool}

-- A sleeper is woken by someone else: a step that is no stray return of a wait.
def FutexMovable (requests : C → Request) (f : FutexPool C) (caller : C) : Prop :=
  ∃ action : Action C, action.serves caller = true ∧ (futexStep requests f (.act action)).isSome = true

omit [DecidableEq C] in
theorem look_again_some {counter : Counter} {state : CallState} (waits : state.waitsOn = some counter) (s : Pool C) (roused : Bool)
    (spins : Nat) : (lookAgain s state roused spins).isSome = true := by
  cases state with
  | ensurePersistentWorkers width stage =>
    cases stage <;> cases waits
    rfl
  | runPersistent width stage =>
    cases stage <;> cases waits
    rw [lookAgain]
    split
    · rfl
    · split <;> rfl
  | shutdown stage =>
    cases stage <;> cases waits
    rfl
  | _ => cases waits

theorem look_enabled {roused : Bool} {spins : Nat} (looking : f.calls caller = .looking roused spins)
    (goes : (stepCall requests accepted f.pool caller).isSome = true ∨ ∃ counter, (f.pool.calls caller).waitsOn = some counter) :
    (futexCall requests accepted f caller).isSome = true := by
  simp only [futexCall, looking]
  cases moved : stepCall requests accepted f.pool caller with
  | some pool => rfl
  | none =>
    rw [moved] at goes
    rcases goes with enabled | ⟨counter, waits⟩
    · cases enabled
    · rw [Option.isSome_map]
      exact look_again_some waits f.pool roused spins

theorem waiting_reached {counter : Counter} (waits : (s.calls caller).waitsOn = some counter)
    (enabled : (stepCall requests accepted s caller).isSome = true) : s.target (s.calls caller) ≤ s.counter counter := by
  cases stands : s.calls caller with
  | ensurePersistentWorkers width stage =>
    rw [stands] at waits
    cases stage <;> cases waits
    simp only [stepCall, stands, ensurePersistentWorkers] at enabled
    split at enabled
    · assumption
    · cases enabled
  | runPersistent width stage =>
    rw [stands] at waits
    cases stage <;> cases waits
    simp only [stepCall, stands, runPersistent] at enabled
    split at enabled
    · assumption
    · cases enabled
  | shutdown stage =>
    rw [stands] at waits
    cases stage <;> cases waits
    simp only [stepCall, stands, shutdown] at enabled
    split at enabled
    · assumption
    · cases enabled
  | _ =>
    rw [stands] at waits
    cases waits

theorem worker_enabled {worker : Nat} (awake : f.workers worker ≠ .asleep)
    (enabled : (stepWorker requests f.pool worker).isSome = true) : (futexWorker requests f worker).isSome = true := by
  cases wait : f.workers worker with
  | looking spins =>
    obtain ⟨pool, moved⟩ := Option.isSome_iff_exists.mp enabled
    simp only [futexWorker, wait, moved, Option.isSome_some]
  | asleep => exact absurd wait awake
  | _ => simp only [futexWorker, wait, Option.isSome_some]

theorem teller_enabled {counter : Counter} {worker : Nat} (tells : Tells f counter worker) :
    (futexWorker requests f worker).isSome = true := by
  rcases tells with wait | ⟨_, _, wait, _⟩
  · simp only [futexWorker, wait, Option.isSome_some]
  · simp only [futexWorker, wait, Option.isSome_some]

theorem FutexInv.call_enabled (inv : FutexInv requests f) (awake : ∀ counter, f.calls caller ≠ .asleep counter)
    (goes : (stepCall requests accepted f.pool caller).isSome = true ∨ ∃ counter, (f.pool.calls caller).waitsOn = some counter) :
    (futexCall requests accepted f caller).isSome = true := by
  have fits := inv.calls caller
  cases wait : f.calls caller with
  | looking roused spins => exact look_enabled wait goes
  | notifying worker => simp only [futexCall, wait, Option.isSome_some]
  | watching counter expected => simp only [futexCall, wait, Option.isSome_some]
  | asleep counter => exact absurd wait (awake counter)
  | rousing told =>
    rw [wait] at fits
    have waits : (f.pool.calls caller).waitsOn = some .done := fits
    cases stands : f.pool.calls caller with
    | runPersistent width stage =>
      rw [stands] at waits
      cases stage <;> cases waits
      simp only [futexCall, wait, stands]
      split <;> rfl
    | ensurePersistentWorkers width stage =>
      rw [stands] at waits
      cases stage <;> cases waits
    | shutdown stage =>
      rw [stands] at waits
      cases stage <;> cases waits
    | _ =>
      rw [stands] at waits
      cases waits

theorem FutexInv.rouser_enabled {worker : Nat} (inv : FutexInv requests f)
    (rouses : Rouses worker (f.calls caller) (f.pool.calls caller)) : (futexCall requests true f caller).isSome = true := by
  have fits := inv.calls caller
  have awake : ∀ counter, f.calls caller ≠ .asleep counter := by
    intro counter asleep
    rw [asleep] at fits rouses
    have waits : (f.pool.calls caller).waitsOn = some counter := fits
    cases stands : f.pool.calls caller with
    | runPersistent width stage =>
      rw [stands] at waits rouses
      cases stage <;> cases waits
      rcases rouses with ⟨_, same⟩ | ⟨_, same, _⟩
      · cases same
      · cases same
    | shutdown stage =>
      rw [stands] at waits rouses
      cases stage <;> cases waits
      exact rouses
    | _ =>
      rw [stands] at rouses
      exact rouses
  apply inv.call_enabled awake
  cases stands : f.pool.calls caller with
  | runPersistent width stage =>
    rw [stands] at rouses
    cases stage with
    | bump firstHelper bumped =>
      simp only [stepCall, stands, runPersistent]
      split <;> exact .inl rfl
    | own firstHelper body =>
      simp only [stepCall, stands, runPersistent]
      split <;> exact .inl rfl
    | collect firstHelper => exact .inr ⟨.done, rfl⟩
    | _ => exact absurd rouses not_false
  | shutdown stage =>
    rw [stands] at rouses
    cases stage with
    | dismiss workerCount told =>
      simp only [stepCall, stands, shutdown]
      split <;> exact .inl rfl
    | _ => exact absurd rouses not_false
  | _ =>
    rw [stands] at rouses
    exact absurd rouses not_false

theorem FutexInv.movable (inv : FutexInv requests f) (holding : (f.pool.calls caller).holds = true) :
    FutexMovable requests f caller := by
  have mine : ∀ accepted, (Action.call caller accepted : Action C).serves caller = true := fun _ => decide_eq_true rfl
  cases holder_movable inv.pool caller holding with
  | call accepted enabled =>
    by_cases asleep : ∃ counter, f.calls caller = .asleep counter
    · obtain ⟨counter, asleep⟩ := asleep
      have fits := inv.calls caller
      rw [asleep] at fits
      rcases inv.heard caller counter asleep with short | ⟨worker, tells⟩
      · exact absurd (waiting_reached fits enabled) (Nat.not_le_of_lt short)
      · exact ⟨.worker worker, rfl, teller_enabled tells⟩
    · exact ⟨.call caller accepted, mine accepted,
        inv.call_enabled (fun counter same => asleep ⟨counter, same⟩) (.inl enabled)⟩
  | worker worker enabled =>
    by_cases asleep : f.workers worker = .asleep
    · have fits := inv.workers worker
      rw [asleep] at fits
      obtain ⟨seen, idle⟩ := fits
      obtain ⟨next, moved⟩ := Option.isSome_iff_exists.mp enabled
      obtain ⟨other, rouses⟩ := inv.roused worker seen asleep idle ((worker_busy moved).2 seen idle)
      have same := inv.pool.alone other caller (rouses_holds rouses) holding
      subst same
      exact ⟨.call other true, mine true, inv.rouser_enabled rouses⟩
    · exact ⟨.worker worker, rfl, worker_enabled asleep enabled⟩
  | helper index enabled =>
    refine ⟨.helper caller index, rfl, ?_⟩
    rw [futexStep, Option.isSome_map]
    exact enabled

-- Whatever its threads wait for or sleep on, the holder of io_busy can be served; no word has two sleepers to choose from.
theorem holder_never_stuck (requests : C → Request) (f : FutexPool C) (reachable : FutexReachable requests f) (caller : C)
    (holding : (f.pool.calls caller).holds = true) :
    FutexMovable requests f caller ∧
      ∀ other counter, f.calls other = .asleep counter → other = caller := by
  have inv := futex_reachable_inv reachable
  refine ⟨inv.movable holding, fun other counter asleep => ?_⟩
  have fits := inv.calls other
  rw [asleep] at fits
  exact inv.pool.alone other caller (waits_hold fits) holding

-- The two calls of the small pool again. The first starts its workers and sleeps until they are ready; one of them
-- has reported and is about to wake it.
def smallFutex : FutexPool Bool := ⟨smallPool, fun _ => .looking false 0, fun _ => .looking 0, fun _ => 0⟩

def sleepActions : List (FutexAction Bool) :=
  List.replicate 10 (.act (.call false true)) ++ List.replicate 2 (.act (.worker 0))

def smallFutexState (actions : List (FutexAction Bool)) : FutexPool Bool :=
  (runFutex smallRequests smallFutex actions).getD smallFutex

theorem small_futex_reachable (actions : List (FutexAction Bool))
    (runs : (runFutex smallRequests smallFutex actions).isSome = true) :
    FutexReachable smallRequests (smallFutexState actions) := by
  have pool : Initial smallFutex.pool :=
    ⟨rfl, rfl, rfl, fun _ => rfl, fun _ => rfl, fun _ _ => rfl, fun _ => rfl, fun _ _ => rfl, fun _ _ => rfl⟩
  obtain ⟨state, run⟩ := Option.isSome_iff_exists.mp runs
  refine ⟨smallFutex, actions, ⟨pool, fun _ => rfl, fun _ => rfl⟩, ?_⟩
  rw [smallFutexState, run]
  rfl

theorem holder_never_stuck_small : (smallFutexState sleepActions).calls false = .asleep .ready ∧
    FutexMovable smallRequests (smallFutexState sleepActions) false :=
  ⟨by decide +kernel, (holder_never_stuck smallRequests _ (small_futex_reachable sleepActions (by decide +kernel)) false
    (by decide +kernel)).1⟩

end Progress

section Dispatch

variable [DecidableEq C] {requests : C → Request}

-- What a call is promised when it returns, and whom a thread inside a task function works for.
theorem waiting_pool_executes_once (requests : C → Request) (f : FutexPool C) (reachable : FutexReachable requests f) :
    (∀ caller,
      (f.pool.calls caller = .returned true →
        (f.pool.begun caller caller).Perm (List.range (requests caller).jobs) ∧
          (f.pool.ended caller caller).Perm (List.range (requests caller).jobs)) ∧
      (f.pool.calls caller = .returned false → f.pool.begun caller caller = [] ∧ f.pool.ended caller caller = []) ∧
      ∀ other, other ≠ caller → f.pool.begun caller other = [] ∧ f.pool.begun other caller = []) ∧
    ∀ taskFn tasks index body, Executing f.pool taskFn tasks index body →
      taskFn = tasks ∧ (f.pool.calls tasks).holds = true ∧ Belongs (requests tasks) (f.pool.calls tasks) index body ∧
        ∀ otherFn otherTasks otherIndex otherBody, Executing f.pool otherFn otherTasks otherIndex otherBody →
          otherTasks = tasks := by
  have inv := reachable_inv (futex_reachable_pool reachable)
  refine ⟨inv.executed, fun taskFn tasks index body executing => ?_⟩
  obtain ⟨same, holding, belongs⟩ := inv.executing executing
  exact ⟨same, holding, belongs,
    fun otherFn otherTasks otherIndex otherBody other => inv.alone otherTasks tasks (inv.executing other).2.1 holding⟩

-- The sleeping call is woken, dispatches its three tasks to itself and its two workers, and returns.
def wokenActions : List (FutexAction Bool) :=
  sleepActions ++ [.act (.worker 0)] ++ List.replicate 3 (.act (.worker 1)) ++ List.replicate 16 (.act (.call false true)) ++
    List.replicate 11 (.act (.worker 0)) ++ List.replicate 11 (.act (.worker 1)) ++ List.replicate 2 (.act (.call false true))

theorem waiting_pool_executes_once_small : (smallFutexState wokenActions).pool.calls false = .returned true ∧
    ((smallFutexState wokenActions).pool.ended false false).Perm (List.range 3) :=
  ⟨by decide +kernel, (((waiting_pool_executes_once smallRequests _
    (small_futex_reachable wokenActions (by decide +kernel))).1 false).1 (by decide +kernel)).2⟩

end Dispatch

end Zynum.ThreadPool
