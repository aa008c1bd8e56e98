import Zynum.Execution.FutexProgress

set_option autoImplicit false

/- The holder of io_busy returns: its own steps, those of the workers and of its
   group, spins and failed waits included, use up the work its call has left. A
   wait that returns for no reason gives a little of it back. That a task ends is
   a step of the thread inside it. -/
namespace Zynum.ThreadPool

open JobBoard

variable {C : Type}

-- The loads and calls a waiting thread may still make before it sleeps or goes on.
def CallWait.work (s : Pool C) : CallWait → Nat
  | .looking true spins => persistentDoneSpinIters - spins + 2
  | .looking false spins => persistentDoneSpinIters - spins + 4 * maxTasks + 5
  | .notifying _ => persistentDoneSpinIters + 4 * maxTasks + 9
  | .rousing told => 4 * (maxTasks - told) + 4
  | .watching counter expected => if s.counter counter = expected then 1 else persistentDoneSpinIters + 3
  | .asleep _ => 0

def WorkerWait.work (generation : BitVec 32) : WorkerWait → Nat
  | .looking spins => persistentSpinIters + 1 - spins + 3
  | .reading => persistentSpinIters + 5
  | .checking _ => persistentSpinIters + persistentDoneSpinIters + 8
  | .notifying _ => persistentSpinIters + persistentDoneSpinIters + 7
  | .watching seen => if generation = seen then 2 else 4
  | .asleep => 0

-- What a step of the pool may give its own thread, and a return without reason, to do.
def stepCost : Nat := 2 * persistentSpinIters + 3 * persistentDoneSpinIters + 8 * maxTasks + 30
def strayCost : Nat := persistentDoneSpinIters + 5

def waitsWork (f : FutexPool C) : Nat :=
  effort (maxTasks - 1) (fun worker => (f.workers worker).work (f.pool.generation worker))

def futexWork (requests : C → Request) (caller : C) (f : FutexPool C) : Nat :=
  stepCost * workLeft requests caller f.pool + (f.calls caller).work f.pool + waitsWork f

theorem call_wait_work_le (s s' : Pool C) (wait : CallWait) : wait.work s' ≤ wait.work s + persistentDoneSpinIters + 2 := by
  cases wait with
  | watching counter expected =>
    simp only [CallWait.work]
    split <;> split <;> omega
  | looking roused spins => cases roused <;> simp only [CallWait.work] <;> omega
  | _ =>
    simp only [CallWait.work]
    omega

theorem call_woken_work (s : Pool C) (counter : Counter) (wait : CallWait) :
    (wait.woken counter).work s ≤ wait.work s + persistentDoneSpinIters + 2 := by
  cases wait with
  | asleep other =>
    rw [CallWait.woken]
    split
    · simp only [CallWait.work]
      omega
    · omega
  | _ =>
    simp only [CallWait.woken]
    omega

theorem worker_woken_work (generation : BitVec 32) (wait : WorkerWait) :
    wait.woken.work generation ≤ wait.work generation + 3 := by
  cases wait with
  | asleep =>
    simp only [WorkerWait.woken, WorkerWait.work]
    omega
  | _ =>
    simp only [WorkerWait.woken]
    omega

theorem bumped_work (generation bumped : BitVec 32) (wait : WorkerWait) : wait.work bumped ≤ wait.work generation + 2 := by
  cases wait with
  | watching seen =>
    simp only [WorkerWait.work]
    split <;> split <;> omega
  | _ =>
    simp only [WorkerWait.work]
    omega

theorem look_again_work {s : Pool C} {state : CallState} {roused : Bool} {spins : Nat} {wait : CallWait}
    (looks : lookAgain s state roused spins = some wait) : wait.work s < (CallWait.looking roused spins).work s := by
  have small : ∀ counter, (CallWait.watching counter (s.counter counter)).work s = 1 := fun counter => if_pos rfl
  have large : 1 < (CallWait.looking roused spins).work s := by
    cases roused <;> simp only [CallWait.work] <;> omega
  cases state with
  | ensurePersistentWorkers width stage =>
    cases stage <;> cases looks
    exact (small .ready).trans_lt large
  | runPersistent width stage =>
    cases stage with
    | collect firstHelper =>
      simp only [lookAgain] at looks
      split at looks
      · rename_i more
        cases looks
        cases roused <;> simp only [CallWait.work] <;> omega
      · split at looks
        · cases looks
          exact (small .done).trans_lt large
        · rename_i unroused
          cases looks
          rw [Bool.not_eq_true] at unroused
          subst unroused
          simp only [CallWait.work]
          omega
    | _ => cases looks
  | shutdown stage =>
    cases stage <;> cases looks
    exact (small .exited).trans_lt large
  | _ => cases looks

section Work

variable {s s' : Pool C} {f f' : FutexPool C} {caller : C} {worker : Nat}

theorem waits_work_grows (worker : Nat) (others : ∀ other, other ≠ worker →
      (f'.workers other).work (f'.pool.generation other) = (f.workers other).work (f.pool.generation other)) {more : Nat}
    (grown : (f'.workers worker).work (f'.pool.generation worker) ≤ (f.workers worker).work (f.pool.generation worker) + more) :
    waitsWork f' ≤ waitsWork f + more := by
  by_cases inside : worker < maxTasks - 1
  · have change := effort_change (fun other => (f.workers other).work (f.pool.generation other))
      (fun other => (f'.workers other).work (f'.pool.generation other)) inside others
    rw [waitsWork, waitsWork]
    omega
  · have same : waitsWork f' = waitsWork f :=
      effort_congr (fun other below => others other (fun equal => inside (equal ▸ below)))
    omega

theorem waits_work_change (f g : FutexPool C) (wait : WorkerWait) (inside : worker < maxTasks - 1)
    (generation : g.pool.generation = f.pool.generation) (workers : g.workers = f.workers) :
    waitsWork (g.worker worker wait) + (f.workers worker).work (f.pool.generation worker) =
      waitsWork f + wait.work (f.pool.generation worker) := by
  have here : (g.worker worker wait).workers worker = wait := Function.update_self _ _ _
  have change := effort_change (fun other => (f.workers other).work (f.pool.generation other))
    (fun other => ((g.worker worker wait).workers other).work (f.pool.generation other)) inside (fun other apart =>
      congrArg (WorkerWait.work (f.pool.generation other)) ((Function.update_of_ne apart _ _).trans (congrFun workers other)))
  rw [here] at change
  have same : (g.worker worker wait).pool.generation = f.pool.generation := generation
  rw [waitsWork, waitsWork, same]
  exact change

theorem wake_worker_work (f : FutexPool C) (worker : Nat) : waitsWork (f.wakeWorker worker) ≤ waitsWork f + 3 := by
  have elsewhere : ∀ other, other ≠ worker → (f.wakeWorker worker).workers other = f.workers other := fun other apart =>
    Function.update_of_ne apart _ _
  have here : (f.wakeWorker worker).workers worker = (f.workers worker).woken := Function.update_self _ _ _
  refine waits_work_grows worker (fun other apart => ?_) ?_
  · rw [elsewhere other apart]
    rfl
  · rw [here]
    exact worker_woken_work _ _

variable [DecidableEq C] {requests : C → Request} {accepted : Bool}

theorem call_words_work (words : CallWords s s' caller) (f : FutexPool C) (pool : f.pool = s) :
    waitsWork { f with pool := s' } ≤ waitsWork f + 2 := by
  have bumped : ∀ told, (∀ other, other ≠ told → s'.generation other = s.generation other) →
      waitsWork { f with pool := s' } ≤ waitsWork f + 2 := by
    intro told others
    refine waits_work_grows told (fun other apart => ?_) (bumped_work _ _ _)
    change (f.workers other).work (s'.generation other) = _
    rw [others other apart, pool]
  cases words with
  | kept generation doneTarget => exact bumped 0 (fun other _ => by rw [generation])
  | published width firstHelper stored stands generation => exact bumped 0 (fun other _ => by rw [generation])
  | bumped width firstHelper told stands effect =>
    refine bumped (firstHelper + told) (fun other apart => ?_)
    rw [effect]
    exact Function.update_of_ne apart _ _
  | dismissed workerCount told stands more effect =>
    refine bumped told (fun other apart => ?_)
    rw [effect]
    exact Function.update_of_ne apart _ _

omit [DecidableEq C] in
theorem follow_up_work (s : Pool C) (state : CallState) : state.followUp.work s ≤ persistentDoneSpinIters + 4 * maxTasks + 9 := by
  have looking : (CallWait.looking false 0).work s ≤ persistentDoneSpinIters + 4 * maxTasks + 9 := by
    simp only [CallWait.work]
    omega
  cases state with
  | shutdown stage =>
    cases stage with
    | dismiss workerCount told =>
      rw [CallState.followUp]
      split
      · exact Nat.le_refl _
      · exact looking
    | _ => exact looking
  | _ => exact looking

omit [DecidableEq C] in
theorem worker_follow_up_work (f : FutexPool C) (worker : Nat) (generation : BitVec 32) :
    (f.followUp worker).work generation ≤ persistentSpinIters + persistentDoneSpinIters + 8 := by
  rw [FutexPool.followUp]
  split
  · simp only [WorkerWait.work]
    omega
  · simp only [WorkerWait.work]
    omega
  · split
    · simp only [WorkerWait.work]
      omega
    · simp only [WorkerWait.work]
      omega
  · simp only [WorkerWait.work]
    omega
  · simp only [WorkerWait.work]
    omega

theorem step_pays {before after waits waits' : Nat} (less : after < before) (few : waits' < waits + stepCost) :
    stepCost * after + waits' < stepCost * before + waits := by
  have product : stepCost * (after + 1) ≤ stepCost * before := Nat.mul_le_mul_left stepCost less
  rw [Nat.mul_add, Nat.mul_one] at product
  omega

omit [DecidableEq C] in
theorem few_helpers {width firstHelper : Nat} (bounded : Bounded s) (dispatch : Dispatching s caller width firstHelper (width - 1)) :
    width - 1 ≤ maxTasks := by
  by_contra many
  have serving := dispatch.serving (width - 1 - 1) (by omega)
  rw [bounded.workers _ (by omega)] at serving
  exact serving

theorem call_waits_self (f : FutexPool C) (caller : C) (wait : CallWait) : (f.call caller wait).calls caller = wait :=
  Function.update_self _ _ _

-- A call that only turns to something else takes its own work along.
theorem call_turns (requests : C → Request) (wait : CallWait) (less : wait.work f.pool < (f.calls caller).work f.pool) :
    futexWork requests caller (f.call caller wait) < futexWork requests caller f := by
  rw [futexWork, futexWork, call_waits_self]
  change stepCost * workLeft requests caller f.pool + wait.work f.pool + waitsWork f < _
  omega

-- A call that wakes a worker on the way pays for what the worker does with it.
theorem call_turns_waking (requests : C → Request) (worker : Nat) (wait : CallWait)
    (less : wait.work f.pool + 3 < (f.calls caller).work f.pool) :
    futexWork requests caller ((f.wakeWorker worker).call caller wait) < futexWork requests caller f := by
  have woken := wake_worker_work f worker
  rw [futexWork, futexWork, call_waits_self]
  change stepCost * workLeft requests caller f.pool + wait.work f.pool + waitsWork (f.wakeWorker worker) < _
  omega

theorem call_moves_work {pool : Pool C} (holding : (f.pool.calls caller).holds = true)
    (moved : stepCall requests accepted f.pool caller = some pool) :
    futexWork requests caller ({ f with pool := pool }.call caller (f.pool.calls caller).followUp) <
      futexWork requests caller f := by
  have less := call_work holding moved
  have next := follow_up_work pool (f.pool.calls caller)
  have bumped := call_words_work (step_call_words moved) f rfl
  rw [futexWork, futexWork, call_waits_self, Nat.add_assoc, Nat.add_assoc]
  refine step_pays less ?_
  change (f.pool.calls caller).followUp.work pool + waitsWork { f with pool := pool } < _
  rw [stepCost]
  omega

theorem futex_call_work (inv : FutexInv requests f) (holding : (f.pool.calls caller).holds = true)
    (taken : futexCall requests accepted f caller = some f') : futexWork requests caller f' < futexWork requests caller f := by
  cases wait : f.calls caller with
  | looking roused spins =>
    simp only [futexCall, wait] at taken
    cases moved : stepCall requests accepted f.pool caller with
    | some pool =>
      simp only [moved, Option.some.injEq] at taken
      subst taken
      exact call_moves_work holding moved
    | none =>
      simp only [moved] at taken
      obtain ⟨next, looks, rfl⟩ := Option.map_eq_some_iff.mp taken
      exact call_turns requests next (wait ▸ look_again_work looks)
  | notifying worker =>
    simp only [futexCall, wait, Option.some.injEq] at taken
    subst taken
    refine call_turns_waking requests worker _ ?_
    rw [wait]
    simp only [CallWait.work]
    omega
  | rousing told =>
    simp only [futexCall, wait] at taken
    cases stands : f.pool.calls caller with
    | runPersistent width stage =>
      cases stage with
      | collect firstHelper =>
        have staffed := inv.pool.staffed caller holding
        rw [stands] at staffed
        have few := few_helpers inv.bounded staffed
        simp only [stands] at taken
        split at taken
        · cases taken
          refine call_turns_waking requests (firstHelper + told) _ ?_
          rw [wait]
          simp only [CallWait.work]
          omega
        · cases taken
          refine call_turns requests _ ?_
          rw [wait]
          simp only [CallWait.work]
          omega
      | _ =>
        simp only [stands] at taken
        cases taken
    | _ =>
      simp only [stands] at taken
      cases taken
  | watching counter expected =>
    simp only [futexCall, wait, Option.some.injEq] at taken
    subst taken
    refine call_turns requests _ ?_
    rw [wait]
    split
    · rename_i same
      simp only [CallWait.work, if_pos same]
      omega
    · rename_i apart
      simp only [CallWait.work, if_neg apart]
      omega
  | asleep counter => simp only [futexCall, wait, reduceCtorEq] at taken

omit [DecidableEq C] in
theorem FutexInv.employed (inv : FutexInv requests f) (present : f.pool.workers worker ≠ .absent) : worker < maxTasks - 1 := by
  by_contra beyond
  exact present (inv.bounded.workers worker (Nat.le_of_not_lt beyond))

omit [DecidableEq C] in
theorem FutexInv.waiting_employed (inv : FutexInv requests f) (worker : Nat) (aside : ∀ spins, f.workers worker ≠ .looking spins) :
    worker < maxTasks - 1 := by
  refine inv.employed (fun absent => ?_)
  have fits := inv.workers worker
  rw [absent] at fits
  obtain ⟨spins, looks⟩ := absent_looks fits
  exact aside spins looks

omit [DecidableEq C] in
-- A worker that only turns to something else takes its own work along.
theorem worker_turns (requests : C → Request) (caller : C) (targets : Nat → Nat) (wait : WorkerWait) (inside : worker < maxTasks - 1)
    (less : wait.work (f.pool.generation worker) < (f.workers worker).work (f.pool.generation worker)) :
    futexWork requests caller ({ f with targets := targets }.worker worker wait) < futexWork requests caller f := by
  have change := waits_work_change f { f with targets := targets } wait inside rfl rfl
  rw [futexWork, futexWork]
  change stepCost * workLeft requests caller f.pool + (f.calls caller).work f.pool + _ < _
  omega

theorem worker_moves_work {pool : Pool C} (inv : FutexInv requests f) (holding : (f.pool.calls caller).holds = true)
    (moved : stepWorker requests f.pool worker = some pool) :
    futexWork requests caller ({ f with pool := pool }.worker worker (f.followUp worker)) < futexWork requests caller f := by
  have less := worker_work inv.pool inv.bounded holding moved
  have next := worker_follow_up_work f worker (f.pool.generation worker)
  have call := call_wait_work_le f.pool pool (f.calls caller)
  have generation : pool.generation = f.pool.generation := by
    obtain ⟨_, _, _, _, _, _, _, effect⟩ := worker_moves moved
    rw [effect]
  have change := waits_work_change f { f with pool := pool } (f.followUp worker) (inv.employed (worker_busy moved).1)
    generation rfl
  rw [futexWork, futexWork, Nat.add_assoc, Nat.add_assoc]
  refine step_pays less ?_
  change (f.calls caller).work pool + _ < _
  rw [stepCost]
  omega

theorem futex_worker_work (inv : FutexInv requests f) (holding : (f.pool.calls caller).holds = true)
    (taken : futexWorker requests f worker = some f') : futexWork requests caller f' < futexWork requests caller f := by
  cases wait : f.workers worker with
  | looking spins =>
    simp only [futexWorker, wait] at taken
    cases moved : stepWorker requests f.pool worker with
    | some pool =>
      simp only [moved, Option.some.injEq] at taken
      subst taken
      exact worker_moves_work inv holding moved
    | none =>
      simp only [moved] at taken
      cases state : f.pool.workers worker with
      | idle seen =>
        have current : f.pool.generation worker = seen := by
          simp only [stepWorker, state] at moved
          split at moved
          · assumption
          · cases moved
        simp only [state, Option.some.injEq] at taken
        subst taken
        refine worker_turns requests caller f.targets _ (inv.employed (by rw [state]; exact fun absent => by cases absent)) ?_
        rw [wait]
        split
        · simp only [WorkerWait.work]
          omega
        · simp only [WorkerWait.work, if_pos current]
          omega
      | _ =>
        simp only [state] at taken
        cases taken
  | asleep => simp only [futexWorker, wait, reduceCtorEq] at taken
  | notifying counter =>
    have inside := inv.waiting_employed worker (by rw [wait]; exact fun _ => WorkerWait.noConfusion)
    simp only [futexWorker, wait, Option.some.injEq] at taken
    subst taken
    have woken := call_woken_work f.pool counter (f.calls caller)
    have change := waits_work_change f (f.wakeCalls counter) (.looking 0) inside rfl rfl
    rw [futexWork, futexWork]
    change stepCost * workLeft requests caller f.pool + ((f.calls caller).woken counter).work f.pool + _ < _
    rw [wait] at change
    simp only [WorkerWait.work] at change
    omega
  | reading =>
    have inside := inv.waiting_employed worker (by rw [wait]; exact fun _ => WorkerWait.noConfusion)
    simp only [futexWorker, wait, Option.some.injEq] at taken
    subst taken
    refine worker_turns requests caller _ _ inside ?_
    rw [wait]
    simp only [WorkerWait.work]
    omega
  | checking exited =>
    have inside := inv.waiting_employed worker (by rw [wait]; exact fun _ => WorkerWait.noConfusion)
    simp only [futexWorker, wait, Option.some.injEq] at taken
    subst taken
    refine worker_turns requests caller f.targets _ inside ?_
    rw [wait]
    split
    · simp only [WorkerWait.work]
      omega
    · simp only [WorkerWait.work]
      omega
  | watching seen =>
    have inside := inv.waiting_employed worker (by rw [wait]; exact fun _ => WorkerWait.noConfusion)
    simp only [futexWorker, wait, Option.some.injEq] at taken
    subst taken
    refine worker_turns requests caller f.targets _ inside ?_
    rw [wait]
    split
    · rename_i same
      simp only [WorkerWait.work, if_pos same]
      omega
    · rename_i apart
      simp only [WorkerWait.work, if_neg apart]
      omega

omit [DecidableEq C] in
theorem look_again_holds {state : CallState} {roused : Bool} {spins : Nat} {wait : CallWait}
    (looks : lookAgain s state roused spins = some wait) : state.holds = true := by
  cases state with
  | start => cases looks
  | entering width => cases looks
  | returned answer => cases looks
  | _ => rfl

theorem futex_outsider_work {other : C} (inv : FutexInv requests f) (holding : (f.pool.calls caller).holds = true)
    (apart : other ≠ caller) (taken : futexCall requests accepted f other = some f') :
    futexWork requests caller f' = futexWork requests caller f := by
  have idle : (f.pool.calls other).holds ≠ true := fun holds => apart (inv.pool.alone other caller holds holding)
  have fits := inv.calls other
  cases wait : f.calls other with
  | looking roused spins =>
    simp only [futexCall, wait] at taken
    cases moved : stepCall requests accepted f.pool other with
    | some pool =>
      simp only [moved, Option.some.injEq] at taken
      subst taken
      have same := outsider_work inv.pool holding apart moved
      obtain ⟨state, rfl⟩ := outsider_step inv.pool holding apart moved
      have mine : ({ f with pool := f.pool.call other state }.call other (f.pool.calls other).followUp).calls caller =
          f.calls caller := Function.update_of_ne (Ne.symm apart) _ _
      have words : (f.calls caller).work (f.pool.call other state) = (f.calls caller).work f.pool := by
        cases f.calls caller with
        | watching counter expected => cases counter <;> rfl
        | looking roused spins => cases roused <;> rfl
        | _ => rfl
      rw [futexWork, futexWork, mine]
      change stepCost * workLeft requests caller (f.pool.call other state) + (f.calls caller).work (f.pool.call other state) +
        waitsWork f = _
      rw [same, words]
    | none =>
      simp only [moved] at taken
      obtain ⟨next, looks, _⟩ := Option.map_eq_some_iff.mp taken
      exact absurd (look_again_holds looks) idle
  | _ => exact absurd (fits_holds fits (by rw [wait]; exact fun _ _ => CallWait.noConfusion)) idle

omit [DecidableEq C] in
theorem unseen_work (requests : C → Request) (caller : C) (f : FutexPool C) (s' : Pool C)
    (calls : ∀ counter, s'.counter counter = f.pool.counter counter)
    (generation : s'.generation = f.pool.generation) :
    futexWork requests caller { f with pool := s' } + stepCost * workLeft requests caller f.pool =
      futexWork requests caller f + stepCost * workLeft requests caller s' := by
  have words : (f.calls caller).work s' = (f.calls caller).work f.pool := by
    cases f.calls caller with
    | watching counter expected => simp only [CallWait.work, calls counter]
    | looking roused spins => cases roused <;> simp only [CallWait.work]
    | _ => simp only [CallWait.work]
  have waits : waitsWork { f with pool := s' } = waitsWork f := by simp only [waitsWork, generation]
  rw [futexWork, futexWork, waits]
  change stepCost * workLeft requests caller s' + (f.calls caller).work s' + _ + _ = _
  rw [words]
  omega

theorem futex_helper_work {index : Nat} {other : C} (inv : FutexInv requests f) (holding : (f.pool.calls caller).holds = true)
    (moved : stepHelper requests f.pool other index = some s') :
    futexWork requests caller { f with pool := s' } < futexWork requests caller f := by
  have less := helper_work inv.pool holding moved
  obtain ⟨state, begun, ended, next, effect⟩ := helper_moves moved
  have same := unseen_work requests caller f s'
    (fun counter => by rw [effect]; cases counter <;> rfl) (by rw [effect]; rfl)
  have product : stepCost * (workLeft requests caller s' + 1) ≤ stepCost * workLeft requests caller f.pool :=
    Nat.mul_le_mul_left stepCost less
  have cost : 0 < stepCost := Nat.zero_lt_succ _
  rw [Nat.mul_add, Nat.mul_one] at product
  omega

theorem stray_call_work (requests : C → Request) (f : FutexPool C) (caller other : C) (counter : Counter) :
    futexWork requests caller (f.call other ((f.calls other).woken counter)) ≤ futexWork requests caller f + strayCost := by
  have woken : ((f.call other ((f.calls other).woken counter)).calls caller).work f.pool ≤
      (f.calls caller).work f.pool + persistentDoneSpinIters + 2 := by
    by_cases mine : other = caller
    · subst mine
      have here : (f.call other ((f.calls other).woken counter)).calls other = (f.calls other).woken counter :=
        Function.update_self _ _ _
      rw [here]
      exact call_woken_work f.pool counter _
    · have kept : (f.call other ((f.calls other).woken counter)).calls caller = f.calls caller :=
        Function.update_of_ne (Ne.symm mine) _ _
      rw [kept]
      omega
  have waits : waitsWork (f.call other ((f.calls other).woken counter)) = waitsWork f := rfl
  have pool : (f.call other ((f.calls other).woken counter)).pool = f.pool := rfl
  rw [futexWork, futexWork, waits, pool, strayCost]
  omega

theorem futex_step_work {action : FutexAction C} (inv : FutexInv requests f) (holding : (f.pool.calls caller).holds = true)
    (taken : futexStep requests f action = some f') :
    futexWork requests caller f' + (action.serves caller).toNat ≤ futexWork requests caller f + strayCost * action.stray.toNat := by
  cases action with
  | act inner =>
    simp only [FutexAction.serves, FutexAction.stray, Bool.toNat_false, Nat.mul_zero, Nat.add_zero]
    cases inner with
    | setMaxThreads limit =>
      cases taken
      have same := unseen_work requests caller f { f.pool with maxThreads := limit }
        (fun counter => by cases counter <;> rfl) rfl
      have work : workLeft requests caller { f.pool with maxThreads := limit } = workLeft requests caller f.pool := rfl
      rw [work] at same
      have equal := Nat.add_right_cancel same
      simp only [Action.serves, Bool.toNat_false, Nat.add_zero]
      exact Nat.le_of_eq equal
    | call other accepted =>
      by_cases mine : other = caller
      · subst mine
        have less := futex_call_work inv holding taken
        simp only [Action.serves, decide_true, Bool.toNat_true]
        omega
      · have same := futex_outsider_work inv holding mine taken
        simp only [Action.serves, decide_eq_false mine, Bool.toNat_false]
        omega
    | worker worker =>
      have less := futex_worker_work inv holding taken
      simp only [Action.serves, Bool.toNat_true]
      omega
    | helper other index =>
      obtain ⟨pool, moved, rfl⟩ := Option.map_eq_some_iff.mp taken
      have less := futex_helper_work inv holding moved
      simp only [Action.serves, Bool.toNat_true]
      omega
  | strayCall other =>
    simp only [FutexAction.serves, FutexAction.stray, Bool.toNat_false, Bool.toNat_true, Nat.mul_one, Nat.add_zero]
    cases wait : f.calls other with
    | asleep counter =>
      simp only [futexStep, wait, Option.some.injEq] at taken
      subst taken
      have woken := stray_call_work requests f caller other counter
      rw [wait] at woken
      exact woken
    | _ =>
      simp only [futexStep, wait] at taken
      cases taken
  | strayWorker other =>
    simp only [FutexAction.serves, FutexAction.stray, Bool.toNat_false, Bool.toNat_true, Nat.mul_one, Nat.add_zero]
    simp only [futexStep] at taken
    split at taken
    · cases taken
      have woken := wake_worker_work f other
      have calls : (f.wakeWorker other).calls = f.calls := rfl
      have pool : (f.wakeWorker other).pool = f.pool := rfl
      rw [futexWork, futexWork, calls, pool, strayCost]
      omega
    · cases taken

end Work

section Runs

variable [DecidableEq C] {requests : C → Request} {f f' : FutexPool C} {caller : C}

theorem futex_returned_stays {answer : Bool} (actions : List (FutexAction C)) (returned : f.pool.calls caller = .returned answer)
    (run : runFutex requests f actions = some f') : f'.pool.calls caller = .returned answer := by
  induction actions generalizing f with
  | nil =>
    cases run
    exact returned
  | cons action rest ih =>
    obtain ⟨between, taken, remaining⟩ := Option.bind_eq_some_iff.mp run
    refine ih ?_ remaining
    rcases futex_step_pool taken with same | ⟨inner, _, moved⟩
    · rw [same]
      exact returned
    · exact returned_stays returned moved

theorem futex_holds_or_returned {action : FutexAction C} (holding : (f.pool.calls caller).holds = true)
    (taken : futexStep requests f action = some f') :
    (f'.pool.calls caller).holds = true ∨ ∃ answer, f'.pool.calls caller = .returned answer := by
  rcases futex_step_pool taken with same | ⟨inner, _, moved⟩
  · rw [same]
    exact .inl holding
  · exact holds_or_returned holding moved

-- However the steps are ordered, a call that still holds io_busy was served no more than it has work left.
theorem futex_served_at_most (actions : List (FutexAction C)) (inv : FutexInv requests f)
    (holding : (f.pool.calls caller).holds = true) (run : runFutex requests f actions = some f')
    (still : (f'.pool.calls caller).holds = true) :
    actions.countP (FutexAction.serves caller) ≤ futexWork requests caller f + strayCost * actions.countP FutexAction.stray := by
  induction actions generalizing f with
  | nil => exact Nat.zero_le _
  | cons action rest ih =>
    obtain ⟨between, taken, remaining⟩ := Option.bind_eq_some_iff.mp run
    have less := futex_step_work inv holding taken
    rcases futex_holds_or_returned holding taken with holds | ⟨answer, returned⟩
    · have later := ih (futex_step_keeps f between action inv taken) holds remaining
      have serves : List.countP (FutexAction.serves caller) (action :: rest) =
          rest.countP (FutexAction.serves caller) + (action.serves caller).toNat := by
        rw [List.countP_cons]
        cases action.serves caller <;> rfl
      have strays : List.countP FutexAction.stray (action :: rest) = rest.countP FutexAction.stray + action.stray.toNat := by
        rw [List.countP_cons]
        cases action.stray <;> rfl
      rw [serves, strays, Nat.mul_add]
      omega
    · rw [futex_returned_stays rest returned remaining] at still
      cases still

-- Some order of steps without a stray return, all of them made for the call, takes it to the end.
theorem futex_finishes (inv : FutexInv requests f) (holding : (f.pool.calls caller).holds = true) :
    ∃ actions f' answer, (∀ action ∈ actions, action.stray = false) ∧ runFutex requests f actions = some f' ∧
      f'.pool.calls caller = .returned answer := by
  induction left : futexWork requests caller f using Nat.strong_induction_on generalizing f with
  | _ left ih =>
    obtain ⟨action, serves, enabled⟩ := inv.movable holding
    obtain ⟨between, taken⟩ := Option.isSome_iff_exists.mp enabled
    have less := futex_step_work inv holding taken
    simp only [FutexAction.serves, FutexAction.stray, serves, Bool.toNat_true, Bool.toNat_false, Nat.mul_zero, Nat.add_zero] at less
    rcases futex_holds_or_returned holding taken with holds | ⟨answer, returned⟩
    · obtain ⟨actions, last, answer, awake, run, returned⟩ :=
        ih (futexWork requests caller between) (by omega) (futex_step_keeps f between _ inv taken) holds rfl
      refine ⟨.act action :: actions, last, answer, ?_, Option.bind_eq_some_iff.mpr ⟨between, taken, run⟩, returned⟩
      intro other member
      rcases List.mem_cons.mp member with same | later
      · rw [same]
        rfl
      · exact awake other later
    · refine ⟨[.act action], between, answer, ?_, Option.bind_eq_some_iff.mpr ⟨between, taken, rfl⟩, returned⟩
      intro other member
      rw [List.mem_singleton.mp member]
      rfl

-- The work a call has left bounds the steps made for it while it holds io_busy, whatever the order, and it comes to an end.
theorem holder_returns (requests : C → Request) (f : FutexPool C) (reachable : FutexReachable requests f) (caller : C)
    (holding : (f.pool.calls caller).holds = true) :
    (∀ actions f', runFutex requests f actions = some f' → (f'.pool.calls caller).holds = true →
      actions.countP (FutexAction.serves caller) ≤ futexWork requests caller f + strayCost * actions.countP FutexAction.stray) ∧
    ∃ actions f' answer, (∀ action ∈ actions, action.stray = false) ∧ runFutex requests f actions = some f' ∧
      f'.pool.calls caller = .returned answer := by
  have inv := futex_reachable_inv reachable
  exact ⟨fun actions f' run still => futex_served_at_most actions inv holding run still, futex_finishes inv holding⟩

-- The sleeping call of the small pool is woken and returns.
theorem holder_returns_small : (smallFutexState sleepActions).calls false = .asleep .ready ∧
    ∃ actions f' answer, (∀ action ∈ actions, action.stray = false) ∧
      runFutex smallRequests (smallFutexState sleepActions) actions = some f' ∧ f'.pool.calls false = .returned answer :=
  ⟨by decide +kernel, (holder_returns smallRequests _ (small_futex_reachable sleepActions (by decide +kernel)) false
    (by decide +kernel)).2⟩

end Runs

end Zynum.ThreadPool
