import Zynum.Execution.Futex

set_option autoImplicit false

/- No wake-up is lost. A call sleeps only while the word it waits for is short or
   a worker is about to wake it, and a worker that sleeps behind its generation
   will be woken by the call that bumped it. -/
namespace Zynum.ThreadPool

variable {C : Type}

def CallState.waitsOn : CallState → Option Counter
  | .ensurePersistentWorkers _ (.gather _) => some .ready
  | .runPersistent _ (.collect _) => some .done
  | .shutdown (.collect _) => some .exited
  | _ => none

def Pool.target (s : Pool C) : CallState → Nat
  | .ensurePersistentWorkers _ (.gather submitted) => submitted
  | .runPersistent _ (.collect _) => s.doneTarget
  | .shutdown (.collect workerCount) => workerCount
  | _ => 0

def CallWait.Fits (s : Pool C) (state : CallState) : CallWait → Prop
  | .looking _ _ => True
  | .notifying worker => ∃ workerCount, state = .shutdown (.dismiss workerCount (worker + 1))
  | .rousing _ => state.waitsOn = some .done
  | .watching counter expected => state.waitsOn = some counter ∧ expected < s.target state
  | .asleep counter => state.waitsOn = some counter

def WorkerState.isReading : WorkerState C → Bool
  | .readActive _ _ _ _ => true
  | _ => false

def WorkerWait.Fits (state : WorkerState C) : WorkerWait → Prop
  | .looking _ => True
  | .reading => state.isReading = true
  | .checking _ => state = .exited
  | .notifying .exited => state = .exited
  | .notifying _ => ∃ seen, state = .idle seen
  | .watching seen => state = .idle seen
  | .asleep => ∃ seen, state = .idle seen

-- The worker has loaded done_target for the dispatch it works for.
def WorkerState.targeted (wait : WorkerWait) : WorkerState C → Bool
  | .readActive _ _ _ _ => wait != .reading
  | .readFirst _ _ _ _ _ => true
  | .running _ _ _ _ _ => true
  | .acknowledging _ => true
  | _ => false

def Tells (f : FutexPool C) (counter : Counter) (worker : Nat) : Prop :=
  f.workers worker = .notifying counter ∨
    counter = .exited ∧ ∃ exited, f.workers worker = .checking exited ∧ f.pool.workerCount ≤ exited

-- A call that will still wake the worker before it sleeps itself.
def Rouses (worker : Nat) (wait : CallWait) : CallState → Prop
  | .runPersistent _ (.bump _ _) => True
  | .runPersistent _ (.own _ _) => True
  | .runPersistent _ (.collect firstHelper) =>
    (∃ spins, wait = .looking false spins) ∨ ∃ told, wait = .rousing told ∧ (worker < firstHelper ∨ firstHelper + told ≤ worker)
  | .shutdown (.dismiss _ _) => wait = .notifying worker
  | _ => False

structure FutexInv (requests : C → Request) (f : FutexPool C) : Prop where
  pool : Inv requests f.pool
  bounded : Bounded f.pool
  calls : ∀ caller, (f.calls caller).Fits f.pool (f.pool.calls caller)
  workers : ∀ worker, (f.workers worker).Fits (f.pool.workers worker)
  targets : ∀ worker, (f.pool.workers worker).targeted (f.workers worker) = true → f.targets worker = f.pool.doneTarget
  heard : ∀ caller counter, f.calls caller = .asleep counter →
    f.pool.counter counter < f.pool.target (f.pool.calls caller) ∨ ∃ worker, Tells f counter worker
  roused : ∀ worker seen, f.workers worker = .asleep → f.pool.workers worker = .idle seen → seen ≠ f.pool.generation worker →
    ∃ caller, Rouses worker (f.calls caller) (f.pool.calls caller)

theorem waits_hold {state : CallState} {counter : Counter} (waits : state.waitsOn = some counter) : state.holds = true := by
  cases state with
  | start => cases waits
  | entering width => cases waits
  | returned answer => cases waits
  | _ => rfl

theorem fits_holds {s : Pool C} {state : CallState} {wait : CallWait} (fits : wait.Fits s state)
    (aside : ∀ roused spins, wait ≠ .looking roused spins) : state.holds = true := by
  cases wait with
  | looking roused spins => exact absurd rfl (aside roused spins)
  | notifying worker =>
    obtain ⟨workerCount, stands⟩ := fits
    rw [stands]
    rfl
  | rousing told => exact waits_hold fits
  | watching counter expected => exact waits_hold fits.1
  | asleep counter => exact waits_hold fits

theorem absent_looks {wait : WorkerWait} (fits : wait.Fits (.absent : WorkerState C)) : ∃ spins, wait = .looking spins := by
  cases wait with
  | looking spins => exact ⟨spins, rfl⟩
  | reading => cases fits
  | checking exited => cases fits
  | watching seen => cases fits
  | asleep =>
    obtain ⟨_, idle⟩ := fits
    cases idle
  | notifying counter =>
    cases counter with
    | exited => cases fits
    | _ =>
      obtain ⟨_, idle⟩ := fits
      cases idle

theorem rouses_holds {worker : Nat} {wait : CallWait} {state : CallState} (rouses : Rouses worker wait state) :
    state.holds = true := by
  cases state with
  | start => exact absurd rouses not_false
  | entering width => exact absurd rouses not_false
  | returned answer => exact absurd rouses not_false
  | _ => rfl

theorem rouses_woken {worker : Nat} {wait : CallWait} {state : CallState} (counter : Counter) (rouses : Rouses worker wait state) :
    Rouses worker (wait.woken counter) state := by
  cases wait with
  | asleep other =>
    cases state with
    | runPersistent width stage =>
      cases stage with
      | bump firstHelper bumped => exact True.intro
      | own firstHelper body => exact True.intro
      | collect firstHelper =>
        rcases rouses with ⟨_, same⟩ | ⟨_, same, _⟩
        · cases same
        · cases same
      | _ => exact absurd rouses not_false
    | shutdown stage =>
      cases stage with
      | dismiss workerCount told => cases rouses
      | _ => exact absurd rouses not_false
    | _ => exact absurd rouses not_false
  | _ => exact rouses

theorem woken_fits {s : Pool C} {state : CallState} {wait : CallWait} (counter : Counter) (fits : wait.Fits s state) :
    (wait.woken counter).Fits s state := by
  cases wait with
  | asleep other =>
    rw [CallWait.woken]
    split
    · exact True.intro
    · exact fits
  | _ => exact fits

theorem woken_asleep {wait : CallWait} {counter other : Counter} (asleep : wait.woken counter = .asleep other) :
    wait = .asleep other ∧ other ≠ counter := by
  cases wait with
  | asleep here =>
    rw [CallWait.woken] at asleep
    split at asleep
    · cases asleep
    · rename_i apart
      cases asleep
      exact ⟨rfl, apart⟩
  | _ => cases asleep

theorem wake_worker_awake (f : FutexPool C) (worker : Nat) : (f.wakeWorker worker).workers worker ≠ .asleep := by
  have here : (f.wakeWorker worker).workers worker = (f.workers worker).woken := Function.update_self _ _ _
  rw [here]
  cases f.workers worker with
  | _ => exact WorkerWait.noConfusion

section Waits

variable [DecidableEq C] {requests : C → Request} {f : FutexPool C}

theorem FutexInv.call_waits (inv : FutexInv requests f) (caller : C) (wait : CallWait)
    (fits : wait.Fits f.pool (f.pool.calls caller))
    (heard : ∀ counter, wait = .asleep counter → f.pool.counter counter < f.pool.target (f.pool.calls caller))
    (rouses : ∀ worker seen, f.workers worker = .asleep → f.pool.workers worker = .idle seen →
      seen ≠ f.pool.generation worker → Rouses worker (f.calls caller) (f.pool.calls caller) →
      Rouses worker wait (f.pool.calls caller)) : FutexInv requests (f.call caller wait) where
  pool := inv.pool
  bounded := inv.bounded
  calls other := by
    by_cases same : other = caller
    · subst same
      simpa only [FutexPool.call, Function.update_self] using fits
    · simpa only [FutexPool.call, Function.update_of_ne same] using inv.calls other
  workers := inv.workers
  targets := inv.targets
  heard other counter asleep := by
    by_cases same : other = caller
    · subst same
      simp only [FutexPool.call, Function.update_self] at asleep
      exact .inl (heard counter asleep)
    · simp only [FutexPool.call, Function.update_of_ne same] at asleep
      exact inv.heard other counter asleep
  roused worker seen asleep idle behind := by
    obtain ⟨other, before⟩ := inv.roused worker seen asleep idle behind
    refine ⟨other, ?_⟩
    by_cases same : other = caller
    · subst same
      simpa only [FutexPool.call, Function.update_self] using rouses worker seen asleep idle behind before
    · simpa only [FutexPool.call, Function.update_of_ne same] using before

omit [DecidableEq C] in
theorem FutexInv.wake_calls (inv : FutexInv requests f) (counter : Counter) : FutexInv requests (f.wakeCalls counter) where
  pool := inv.pool
  bounded := inv.bounded
  calls caller := woken_fits counter (inv.calls caller)
  workers := inv.workers
  targets := inv.targets
  heard caller other asleep := inv.heard caller other (woken_asleep asleep).1
  roused worker seen asleep idle behind := by
    obtain ⟨caller, rouses⟩ := inv.roused worker seen asleep idle behind
    exact ⟨caller, rouses_woken counter rouses⟩

omit [DecidableEq C] in
theorem FutexInv.worker_waits (inv : FutexInv requests f) (worker : Nat) (wait : WorkerWait)
    (fits : wait.Fits (f.pool.workers worker))
    (targeted : (f.pool.workers worker).targeted wait = true → f.targets worker = f.pool.doneTarget)
    (tells : ∀ caller counter, f.calls caller = .asleep counter → Tells f counter worker → Tells (f.worker worker wait)
      counter worker)
    (sleeps : wait = .asleep → f.pool.workers worker = .idle (f.pool.generation worker)) :
    FutexInv requests (f.worker worker wait) := by
  have elsewhere : ∀ other, other ≠ worker → (f.worker worker wait).workers other = f.workers other := fun other apart =>
    Function.update_of_ne apart _ _
  have here : (f.worker worker wait).workers worker = wait := Function.update_self _ _ _
  refine ⟨inv.pool, inv.bounded, inv.calls, fun other => ?_, fun other targets => ?_, fun caller counter asleep => ?_,
    fun other seen asleep idle behind => ?_⟩
  · by_cases same : other = worker
    · subst same
      rw [here]
      exact fits
    · rw [elsewhere other same]
      exact inv.workers other
  · by_cases same : other = worker
    · subst same
      rw [here] at targets
      exact targeted targets
    · rw [elsewhere other same] at targets
      exact inv.targets other targets
  · rcases inv.heard caller counter asleep with short | ⟨teller, told⟩
    · exact .inl short
    · refine .inr ⟨teller, ?_⟩
      by_cases same : teller = worker
      · subst same
        exact tells caller counter asleep told
      · rw [Tells, elsewhere teller same]
        exact told
  · by_cases same : other = worker
    · subst same
      rw [here] at asleep
      have current : f.pool.workers other = .idle seen := idle
      rw [sleeps asleep, WorkerState.idle.injEq] at current
      exact absurd current.symm behind
    · rw [elsewhere other same] at asleep
      exact inv.roused other seen asleep idle behind

omit [DecidableEq C] in
theorem FutexInv.wake_worker (inv : FutexInv requests f) (worker : Nat) : FutexInv requests (f.wakeWorker worker) := by
  have fits := inv.workers worker
  have targets := inv.targets worker
  -- only a sleeper is touched
  refine inv.worker_waits worker (f.workers worker).woken ?_ (fun targeted => ?_) (fun caller counter _ tells => ?_)
    (fun asleep => ?_)
  · cases wait : f.workers worker with
    | asleep => exact True.intro
    | _ =>
      rw [wait] at fits
      exact fits
  · cases wait : f.workers worker with
    | asleep =>
      rw [wait] at fits targeted
      obtain ⟨seen, idle⟩ := fits
      rw [idle] at targeted
      cases targeted
    | _ =>
      rw [wait] at targets targeted
      exact targets targeted
  · have same : (f.worker worker (f.workers worker).woken).workers worker = (f.workers worker).woken := Function.update_self _ _ _
    rcases tells with notifying | ⟨rfl, exited, checking, all⟩
    · exact .inl (by rw [same, notifying]; rfl)
    · exact .inr ⟨rfl, exited, by rw [same, checking]; rfl, all⟩
  · cases wait : f.workers worker with
    | _ =>
      rw [wait] at asleep
      cases asleep

end Waits

end Zynum.ThreadPool
