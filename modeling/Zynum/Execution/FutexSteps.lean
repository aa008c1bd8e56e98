import Zynum.Execution.FutexInvariant

set_option autoImplicit false

/- Every step of the layer keeps its invariant: the steps of the pool with what
   follows them, and the loads, sleeps and wakes between them. -/
namespace Zynum.ThreadPool

variable {C : Type}

section Steps

variable [DecidableEq C] {requests : C → Request} {s s' : Pool C} {f f' : FutexPool C} {caller : C} {accepted : Bool}

-- What a step of a call does to the words that workers look at.
inductive CallWords (s s' : Pool C) (caller : C) : Prop where
  | kept (generation : s'.generation = s.generation) (doneTarget : s'.doneTarget = s.doneTarget)
  | published (width firstHelper stored : Nat) (stands : s.calls caller = .runPersistent width (.publish firstHelper stored))
      (generation : s'.generation = s.generation)
  | bumped (width firstHelper bumped : Nat) (stands : s.calls caller = .runPersistent width (.bump firstHelper bumped))
      (effect : s' = (s.bump (firstHelper + bumped)).call caller (.runPersistent width (.bump firstHelper (bumped + 1))))
  | dismissed (workerCount told : Nat) (stands : s.calls caller = .shutdown (.dismiss workerCount told)) (more : told < workerCount)
      (effect : s' = (s.bump told).call caller (.shutdown (.dismiss workerCount (told + 1))))

theorem run_persistent_words {width : Nat} {stage : PersistentStage} (stands : s.calls caller = .runPersistent width stage)
    (taken : runPersistent requests s caller width stage = some s') : CallWords s s' caller := by
  cases stage with
  | choose =>
    simp only [runPersistent] at taken
    split at taken
    · cases taken
      exact .kept rfl rfl
    · split at taken
      · cases taken
        exact .kept rfl rfl
      · split at taken <;> cases taken <;> exact .kept rfl rfl
  | publish firstHelper stored =>
    simp only [runPersistent] at taken
    split at taken <;> cases taken
    · refine .published width firstHelper stored stands ?_
      obtain ⟨_, _, _, _, _, _, _, effect⟩ := publish_frame caller width firstHelper stored s
      rw [effect]
      rfl
    · exact .kept rfl rfl
  | bump firstHelper bumped =>
    simp only [runPersistent] at taken
    split at taken <;> cases taken
    · exact .bumped width firstHelper bumped stands rfl
    · exact .kept rfl rfl
  | own firstHelper body =>
    obtain ⟨begun, ended, next, effect⟩ := call_task_frame requests s caller caller 0 body
    simp only [runPersistent, effect] at taken
    split at taken <;> cases taken <;> exact .kept rfl rfl
  | collect firstHelper =>
    simp only [runPersistent] at taken
    split at taken <;> cases taken
    exact .kept rfl rfl

theorem run_group_words {width : Nat} {stage : GroupStage} (taken : runGroup requests accepted s caller width stage = some s') :
    CallWords s s' caller := by
  cases stage with
  | submit index submitted =>
    simp only [runGroup] at taken
    split at taken
    · split at taken <;> cases taken <;> exact .kept rfl rfl
    · cases taken
      exact .kept rfl rfl
  | inline index submitted body =>
    obtain ⟨begun, ended, next, effect⟩ := call_task_frame requests s caller caller index body
    simp only [runGroup, effect] at taken
    split at taken <;> cases taken <;> exact .kept rfl rfl
  | own submitted body =>
    obtain ⟨begun, ended, next, effect⟩ := call_task_frame requests s caller caller 0 body
    simp only [runGroup, effect] at taken
    split at taken
    · cases taken
      exact .kept rfl rfl
    · split at taken <;> cases taken <;> exact .kept rfl rfl
  | _ =>
    simp only [runGroup] at taken
    split at taken <;> cases taken <;> exact .kept rfl rfl

theorem ensure_words {width : Nat} {stage : EnsureStage} (taken : ensurePersistentWorkers accepted s caller width stage = some s') :
    CallWords s s' caller := by
  cases stage with
  | submit helperCount submitted =>
    simp only [ensurePersistentWorkers] at taken
    split at taken
    · cases taken
      exact .kept rfl rfl
    · split at taken <;> cases taken <;> exact .kept rfl rfl
  | _ =>
    simp only [ensurePersistentWorkers] at taken
    split at taken <;> cases taken <;> exact .kept rfl rfl

theorem shutdown_words {stage : ShutdownStage} (stands : s.calls caller = .shutdown stage)
    (taken : shutdown s caller stage = some s') : CallWords s s' caller := by
  cases stage with
  | look =>
    simp only [shutdown] at taken
    split at taken
    · cases taken
    · cases taken
      exact .kept rfl rfl
    · cases taken
      exact .kept rfl rfl
    · split at taken <;> cases taken <;> exact .kept rfl rfl
  | dismiss workerCount told =>
    simp only [shutdown] at taken
    split at taken <;> cases taken
    · rename_i more
      exact .dismissed workerCount told stands more rfl
    · exact .kept rfl rfl
  | reset =>
    cases taken
    exact .kept rfl rfl
  | unlock =>
    cases taken
    exact .kept rfl rfl
  | _ =>
    simp only [shutdown] at taken
    split at taken <;> cases taken
    exact .kept rfl rfl

theorem step_call_words (taken : stepCall requests accepted s caller = some s') : CallWords s s' caller := by
  cases stands : s.calls caller with
  | start =>
    simp only [stepCall, stands, enter] at taken
    cases request : requests caller with
    | shutdown =>
      simp only [request] at taken
      split at taken <;> cases taken
      exact .kept rfl rfl
    | _ =>
      simp only [request] at taken
      cases taken
      exact .kept rfl rfl
  | entering width =>
    simp only [stepCall, stands] at taken
    split at taken
    · cases taken
      exact .kept rfl rfl
    · split at taken <;> cases taken <;> exact .kept rfl rfl
  | ensurePersistentWorkers width stage =>
    simp only [stepCall, stands] at taken
    exact ensure_words taken
  | runPersistent width stage =>
    simp only [stepCall, stands] at taken
    exact run_persistent_words stands taken
  | ensureIoThreaded width stage =>
    simp only [stepCall, stands] at taken
    cases stage with
    | _ =>
      simp only [ensureIoThreaded] at taken
      split at taken <;> cases taken <;> exact .kept rfl rfl
  | runGroup width stage =>
    simp only [stepCall, stands] at taken
    exact run_group_words taken
  | leaving answer =>
    simp only [stepCall, stands] at taken
    cases taken
    exact .kept rfl rfl
  | shutdown stage =>
    simp only [stepCall, stands] at taken
    exact shutdown_words stands taken
  | returned answer => simp only [stepCall, stands, reduceCtorEq] at taken

theorem look_again_fits {roused : Bool} {spins : Nat} {wait : CallWait} (stuck : stepCall requests accepted s caller = none)
    (looks : lookAgain s (s.calls caller) roused spins = some wait) : wait.Fits s (s.calls caller) := by
  cases stands : s.calls caller with
  | ensurePersistentWorkers width stage =>
    rw [stands] at looks
    cases stage with
    | gather submitted =>
      simp only [stepCall, stands, ensurePersistentWorkers] at stuck
      split at stuck
      · cases stuck
      · rename_i short
        cases looks
        exact ⟨rfl, Nat.lt_of_not_le short⟩
    | _ => cases looks
  | runPersistent width stage =>
    rw [stands] at looks
    cases stage with
    | collect firstHelper =>
      simp only [stepCall, stands, runPersistent] at stuck
      split at stuck
      · cases stuck
      · rename_i short
        simp only [lookAgain] at looks
        split at looks
        · cases looks
          exact True.intro
        · split at looks <;> cases looks
          · exact ⟨rfl, Nat.lt_of_not_le short⟩
          · rfl
    | _ => cases looks
  | shutdown stage =>
    rw [stands] at looks
    cases stage with
    | collect workerCount =>
      simp only [stepCall, stands, shutdown] at stuck
      split at stuck
      · cases stuck
      · rename_i short
        cases looks
        exact ⟨rfl, Nat.lt_of_not_le short⟩
    | _ => cases looks
  | _ =>
    rw [stands] at looks
    cases looks

omit [DecidableEq C] in
theorem look_again_rouses {roused : Bool} {spins worker : Nat} {state : CallState} {wait : CallWait}
    (looks : lookAgain s state roused spins = some wait) (rouses : Rouses worker (.looking roused spins) state) :
    Rouses worker wait state := by
  cases state with
  | runPersistent width stage =>
    cases stage with
    | collect firstHelper =>
      have unroused : roused = false := by
        rcases rouses with ⟨_, same⟩ | ⟨_, same, _⟩
        · cases same
          rfl
        · cases same
      simp only [lookAgain, unroused] at looks
      split at looks
      · cases looks
        exact .inl ⟨_, rfl⟩
      · cases looks
        exact .inr ⟨0, rfl, by omega⟩
    | bump firstHelper bumped => cases looks
    | own firstHelper body => cases looks
    | _ => exact absurd rouses not_false
  | shutdown stage =>
    cases stage with
    | dismiss workerCount told => cases rouses
    | _ => exact absurd rouses not_false
  | _ => exact absurd rouses not_false

omit [DecidableEq C] in
theorem FutexInv.told_all {width firstHelper told worker : Nat} {seen : BitVec 32} (inv : FutexInv requests f)
    (stands : f.pool.calls caller = .runPersistent width (.collect firstHelper)) (all : ¬ told < width - 1)
    (untold : worker < firstHelper ∨ firstHelper + told ≤ worker) (idle : f.pool.workers worker = .idle seen) :
    seen = f.pool.generation worker := by
  have staffed := inv.pool.staffed caller (by rw [stands]; rfl)
  rw [stands] at staffed
  have dispatch : Dispatching f.pool caller width firstHelper (width - 1) := staffed
  have placed := dispatch.others worker (by omega)
  rw [idle] at placed
  split at placed
  · exact WorkerState.idle.inj placed
  · cases placed

theorem call_keeps_others {other : C} (taken : stepCall requests accepted s caller = some s') (apart : other ≠ caller) :
    s'.calls other = s.calls other := by
  cases step_call_moves taken with
  | onward state calls workers few entered => rw [calls, Function.update_of_ne apart]
  | started width helperCount submitted stands more calls workers => rw [calls, Function.update_of_ne apart]

theorem call_keeps_workers (inv : Inv requests s) (taken : stepCall requests accepted s caller = some s') (worker : Nat) :
    s'.workers worker = s.workers worker ∨ s.workers worker = .absent ∧ s'.workers worker = .starting := by
  cases step_call_moves taken with
  | onward state calls workers few entered =>
    rw [workers]
    exact .inl rfl
  | started width helperCount submitted stands more calls workers =>
    have staffed := inv.staffed caller (by rw [stands]; rfl)
    rw [stands] at staffed
    rw [workers]
    by_cases same : worker = submitted
    · subst same
      rw [Function.update_self]
      exact .inr ⟨Assembling.others staffed worker (Nat.le_refl _), rfl⟩
    · rw [Function.update_of_ne same]
      exact .inl rfl

theorem follow_up_fits (taken : stepCall requests accepted s caller = some s') :
    (s.calls caller).followUp.Fits s' (s'.calls caller) := by
  cases stands : s.calls caller with
  | shutdown stage =>
    cases stage with
    | dismiss workerCount told =>
      simp only [stepCall, stands, shutdown] at taken
      rw [CallState.followUp]
      split at taken <;> cases taken
      · rename_i more
        rw [if_pos more]
        exact ⟨workerCount, call_self _ caller _⟩
      · rename_i all
        rw [if_neg all]
        exact True.intro
    | _ => exact True.intro
  | _ => exact True.intro

omit [DecidableEq C] in
theorem follow_up_awake (state : CallState) (counter : Counter) : state.followUp ≠ .asleep counter := by
  cases state with
  | shutdown stage =>
    cases stage with
    | dismiss workerCount told =>
      rw [CallState.followUp]
      split
      · exact CallWait.noConfusion
      · exact CallWait.noConfusion
    | _ => exact CallWait.noConfusion
  | _ => exact CallWait.noConfusion

theorem step_rouses {roused : Bool} {spins worker : Nat} (inv : Inv requests s)
    (taken : stepCall requests accepted s caller = some s')
    (rouses : Rouses worker (.looking roused spins) (s.calls caller)) :
    Rouses worker (s.calls caller).followUp (s'.calls caller) ∨ Resting s := by
  cases stands : s.calls caller with
  | runPersistent width stage =>
    have staffed := inv.staffed caller (by rw [stands]; rfl)
    rw [stands] at rouses staffed
    simp only [stepCall, stands] at taken
    cases stage with
    | bump firstHelper bumped =>
      simp only [runPersistent] at taken
      split at taken <;> cases taken
      · rw [call_self]
        exact .inl True.intro
      · rw [call_self]
        exact .inl True.intro
    | own firstHelper body =>
      simp only [runPersistent] at taken
      split at taken <;> cases taken
      · rw [call_self]
        exact .inl True.intro
      · rw [call_self]
        exact .inl (.inl ⟨0, rfl⟩)
    | collect firstHelper =>
      have dispatch : Dispatching s caller width firstHelper (width - 1) := staffed
      simp only [runPersistent] at taken
      split at taken <;> cases taken
      rename_i all
      rw [dispatch.doneTarget, dispatch.done] at all
      exact .inr (dispatch.collected all)
    | _ => exact absurd rouses not_false
  | shutdown stage =>
    rw [stands] at rouses
    cases stage with
    | dismiss workerCount told => cases rouses
    | _ => exact absurd rouses not_false
  | _ =>
    rw [stands] at rouses
    exact absurd rouses not_false

omit [DecidableEq C] in
theorem Resting.current {worker : Nat} {seen : BitVec 32} (rest : Resting s) (idle : s.workers worker = .idle seen) :
    seen = s.generation worker := by
  have placed := rest.placed worker
  rw [idle] at placed
  split at placed
  · exact WorkerState.idle.inj placed
  · cases placed

theorem FutexInv.others_fit {other : C} (inv : FutexInv requests f) (moved : stepCall requests accepted f.pool caller = some s')
    (apart : other ≠ caller) : (f.calls other).Fits s' (s'.calls other) := by
  have fits := inv.calls other
  rw [call_keeps_others moved apart]
  cases wait : f.calls other with
  | looking roused spins => exact True.intro
  | _ =>
    rw [wait] at fits
    have holding := fits_holds fits (fun _ _ => CallWait.noConfusion)
    obtain ⟨state, rfl⟩ := outsider_step inv.pool holding (Ne.symm apart) moved
    exact fits

theorem FutexInv.others_heard {other : C} {counter : Counter} (inv : FutexInv requests f)
    (moved : stepCall requests accepted f.pool caller = some s') (apart : other ≠ caller) (asleep : f.calls other = .asleep counter) :
    s'.counter counter < s'.target (s'.calls other) ∨ ∃ worker, Tells { f with pool := s' } counter worker := by
  have fits := inv.calls other
  rw [asleep] at fits
  rw [call_keeps_others moved apart]
  obtain ⟨state, rfl⟩ := outsider_step inv.pool (waits_hold fits) (Ne.symm apart) moved
  exact inv.heard other counter asleep

theorem FutexInv.workers_fit (inv : FutexInv requests f) (moved : stepCall requests accepted f.pool caller = some s')
    (worker : Nat) : (f.workers worker).Fits (s'.workers worker) := by
  have fits := inv.workers worker
  rcases call_keeps_workers inv.pool moved worker with same | ⟨absent, starts⟩
  · rw [same]
    exact fits
  · rw [absent] at fits
    obtain ⟨spins, looks⟩ := absent_looks fits
    rw [looks]
    exact True.intro

theorem FutexInv.targets_kept {worker : Nat} (inv : FutexInv requests f)
    (moved : stepCall requests accepted f.pool caller = some s')
    (targeted : (s'.workers worker).targeted (f.workers worker) = true) : f.targets worker = s'.doneTarget := by
  rcases call_keeps_workers inv.pool moved worker with same | ⟨absent, starts⟩
  · rw [same] at targeted
    have before := inv.targets worker targeted
    cases step_call_words moved with
    | kept generation doneTarget => rw [doneTarget, before]
    | bumped width firstHelper bumped stands effect =>
      rw [effect]
      exact before
    | dismissed workerCount told stands more effect =>
      rw [effect]
      exact before
    | published width firstHelper stored stands generation =>
      -- nobody serves a dispatch that is still being published
      have staffed := inv.pool.staffed caller (by rw [stands]; rfl)
      rw [stands] at staffed
      have placed := staffed.1.placed worker
      split at placed
      · rw [placed] at targeted
        cases targeted
      · rw [placed] at targeted
        cases targeted
  · rw [starts] at targeted
    cases targeted

-- Whoever would wake a late worker still does so after the step.
theorem FutexInv.still_roused {roused : Bool} {spins worker : Nat} {seen : BitVec 32} (inv : FutexInv requests f)
    (looking : f.calls caller = .looking roused spins) (moved : stepCall requests accepted f.pool caller = some s')
    (asleep : f.workers worker = .asleep) (idle : f.pool.workers worker = .idle seen) (late : seen ≠ f.pool.generation worker) :
    ∃ other, Rouses worker (({ f with pool := s' }.call caller (f.pool.calls caller).followUp).calls other)
      (s'.calls other) := by
  obtain ⟨other, rouses⟩ := inv.roused worker seen asleep idle late
  refine ⟨other, ?_⟩
  by_cases same : other = caller
  · subst same
    rw [looking] at rouses
    simp only [FutexPool.call, Function.update_self]
    rcases step_rouses inv.pool moved rouses with rouses | rest
    · exact rouses
    · exact absurd (rest.current idle) late
  · simp only [FutexPool.call, Function.update_of_ne same]
    rw [call_keeps_others moved same]
    exact rouses

theorem FutexInv.late_roused {roused : Bool} {spins worker : Nat} {seen : BitVec 32} (inv : FutexInv requests f)
    (looking : f.calls caller = .looking roused spins) (moved : stepCall requests accepted f.pool caller = some s')
    (asleep : f.workers worker = .asleep) (idle : f.pool.workers worker = .idle seen) (behind : seen ≠ s'.generation worker) :
    ∃ other, Rouses worker (({ f with pool := s' }.call caller (f.pool.calls caller).followUp).calls other)
      (s'.calls other) := by
  have kept : seen ≠ f.pool.generation worker → _ := inv.still_roused looking moved asleep idle
  cases step_call_words moved with
  | kept generation doneTarget => exact kept (generation ▸ behind)
  | published width firstHelper stored stands generation => exact kept (generation ▸ behind)
  | bumped width firstHelper bumped stands effect =>
    refine ⟨caller, ?_⟩
    rw [effect, call_self]
    exact True.intro
  | dismissed workerCount told stands more effect =>
    by_cases mine : worker = told
    · refine ⟨caller, ?_⟩
      simp only [FutexPool.call, Function.update_self]
      rw [effect, call_self, stands, CallState.followUp, if_pos more, mine]
      rfl
    · have same : s'.generation worker = f.pool.generation worker := by
        rw [effect]
        exact Function.update_of_ne mine _ _
      exact kept (same ▸ behind)

theorem FutexInv.call_steps {roused : Bool} {spins : Nat} (inv : FutexInv requests f)
    (looking : f.calls caller = .looking roused spins)
    (moved : stepCall requests accepted f.pool caller = some s') :
    FutexInv requests ({ f with pool := s' }.call caller (f.pool.calls caller).followUp) where
  pool := step_call_keeps inv.pool moved
  bounded := inv.bounded.call (step_call_moves moved)
  calls other := by
    by_cases same : other = caller
    · subst same
      simpa only [FutexPool.call, Function.update_self] using follow_up_fits moved
    · simpa only [FutexPool.call, Function.update_of_ne same] using inv.others_fit moved same
  workers := inv.workers_fit moved
  targets worker targeted := inv.targets_kept moved targeted
  heard other counter asleep := by
    by_cases same : other = caller
    · subst same
      simp only [FutexPool.call, Function.update_self] at asleep
      exact absurd asleep (follow_up_awake _ counter)
    · simp only [FutexPool.call, Function.update_of_ne same] at asleep
      exact inv.others_heard moved same asleep
  roused worker seen asleep idle behind := by
    have idle : s'.workers worker = .idle seen := idle
    have before : f.pool.workers worker = .idle seen := by
      rcases call_keeps_workers inv.pool moved worker with same | ⟨_, starts⟩
      · exact same.symm.trans idle
      · cases starts.symm.trans idle
    exact inv.late_roused looking moved asleep before behind

def WorkerState.raises : WorkerState C → Option Counter
  | .announcing _ => some .ready
  | .acknowledging _ => some .done
  | .exiting => some .exited
  | _ => none

structure WorkerFollows (f : FutexPool C) (s' : Pool C) (worker : Nat) : Prop where
  fits : (f.followUp worker).Fits (s'.workers worker)
  awake : f.followUp worker ≠ .asleep
  targeted : ∀ spins, (s'.workers worker).targeted (f.followUp worker) = true →
    (f.pool.workers worker).targeted (.looking spins) = true
  counted : ∀ counter, s'.counter counter = f.pool.counter counter ∨
    (f.pool.workers worker).raises = some counter ∧ s'.counter counter = f.pool.counter counter + 1

omit [DecidableEq C] in
theorem worker_self (s : Pool C) (worker : Nat) (state : WorkerState C) : (s.worker worker state).workers worker = state :=
  Function.update_self _ _ _

omit [DecidableEq C] in
theorem worker_follow_up_awake (f : FutexPool C) (worker : Nat) : f.followUp worker ≠ .asleep := by
  rw [FutexPool.followUp]
  cases f.pool.workers worker with
  | acknowledging seen =>
    dsimp only
    split
    · exact WorkerWait.noConfusion
    · exact WorkerWait.noConfusion
  | _ => exact WorkerWait.noConfusion

omit [DecidableEq C] in
-- A step that is followed by nothing and raises nothing.
theorem WorkerFollows.plain {worker : Nat} {state : WorkerState C} (effect : s' = f.pool.worker worker state)
    (follow : f.followUp worker = .looking 0)
    (targeted : state.targeted (.looking 0) = true → ∀ spins, (f.pool.workers worker).targeted (.looking spins) = true) :
    WorkerFollows f s' worker where
  fits := by
    rw [follow]
    exact True.intro
  awake := worker_follow_up_awake f worker
  targeted spins now := by
    rw [effect, worker_self, follow] at now
    exact targeted now spins
  counted counter := by
    rw [effect]
    cases counter with
    | _ => exact .inl rfl

omit [DecidableEq C] in
theorem WorkerFollows.raising {worker : Nat} {state : WorkerState C} (raised : Counter) (here : s'.workers worker = state)
    (raises : (f.pool.workers worker).raises = some raised) (more : s'.counter raised = f.pool.counter raised + 1)
    (others : ∀ counter, counter ≠ raised → s'.counter counter = f.pool.counter counter)
    (fits : (f.followUp worker).Fits state)
    (targeted : state.targeted (f.followUp worker) = true → ∀ spins, (f.pool.workers worker).targeted (.looking spins) = true) :
    WorkerFollows f s' worker where
  fits := by
    rw [here]
    exact fits
  awake := worker_follow_up_awake f worker
  targeted spins now := by
    rw [here] at now
    exact targeted now spins
  counted counter := by
    by_cases same : counter = raised
    · rw [same]
      exact .inr ⟨raises, more⟩
    · exact .inl (others counter same)

theorem step_worker_follows {worker : Nat} (taken : stepWorker requests f.pool worker = some s') : WorkerFollows f s' worker := by
  cases state : f.pool.workers worker with
  | absent => simp only [stepWorker, state, reduceCtorEq] at taken
  | starting =>
    simp only [stepWorker, state, Option.some.injEq] at taken
    exact .plain taken.symm (by rw [FutexPool.followUp, state]) (fun now => by cases now)
  | announcing seen =>
    simp only [stepWorker, state, Option.some.injEq] at taken
    subst taken
    refine .raising .ready (worker_self _ worker (.idle seen)) (by rw [state]; rfl) rfl (fun counter other => ?_)
      (by rw [FutexPool.followUp, state]; exact ⟨seen, rfl⟩) (fun now => by cases now)
    cases counter with
    | ready => exact absurd rfl other
    | _ => rfl
  | idle seen =>
    simp only [stepWorker, state] at taken
    split at taken
    · cases taken
    · cases taken
      exact .plain rfl (by rw [FutexPool.followUp, state]) (fun now => by cases now)
  | woken seen =>
    simp only [stepWorker, state, Option.some.injEq] at taken
    refine .plain taken.symm (by rw [FutexPool.followUp, state]) (fun now => ?_)
    split at now
    · cases now
    · cases now
  | readTaskFn seen =>
    simp only [stepWorker, state, Option.some.injEq] at taken
    exact .plain taken.symm (by rw [FutexPool.followUp, state]) (fun now => by cases now)
  | readTasks seen taskFn =>
    simp only [stepWorker, state, Option.some.injEq] at taken
    exact .plain taken.symm (by rw [FutexPool.followUp, state]) (fun now => by cases now)
  | readCount seen taskFn tasks =>
    simp only [stepWorker, state, Option.some.injEq] at taken
    have follow : f.followUp worker = .reading := by rw [FutexPool.followUp, state]
    refine ⟨?_, worker_follow_up_awake f worker, fun spins now => ?_, fun counter => .inl ?_⟩
    · rw [follow, ← taken, worker_self]
      rfl
    · rw [← taken, worker_self, follow] at now
      cases now
    · rw [← taken]
      cases counter with
      | _ => rfl
  | readActive seen taskFn tasks count =>
    simp only [stepWorker, state, Option.some.injEq] at taken
    exact .plain taken.symm (by rw [FutexPool.followUp, state]) (fun _ _ => by rw [state]; rfl)
  | readFirst seen taskFn tasks count activeHelpers =>
    simp only [stepWorker, state] at taken
    split at taken <;> cases taken <;>
      exact .plain rfl (by rw [FutexPool.followUp, state]) (fun _ _ => by rw [state]; rfl)
  | running seen taskFn tasks index body =>
    obtain ⟨begun, ended, next, effect⟩ := call_task_frame requests f.pool taskFn tasks index body
    have follow : f.followUp worker = .looking 0 := by rw [FutexPool.followUp, state]
    have fits : ∀ after : WorkerState C, (f.followUp worker).Fits after := by
      intro after
      rw [follow]
      exact True.intro
    have inside : ∀ spins, (f.pool.workers worker).targeted (.looking spins) = true := fun _ => by rw [state]; rfl
    simp only [stepWorker, state, effect] at taken
    split at taken <;> cases taken <;> refine ⟨fits _, worker_follow_up_awake f worker, fun spins _ => inside spins,
      fun counter => .inl ?_⟩ <;> cases counter <;> rfl
  | acknowledging seen =>
    simp only [stepWorker, state, Option.some.injEq] at taken
    subst taken
    refine .raising .done (worker_self _ worker (.idle seen)) (by rw [state]; rfl) rfl (fun counter other => ?_) ?_
      (fun _ _ => by rw [state]; rfl)
    · cases counter with
      | done => exact absurd rfl other
      | _ => rfl
    · rw [FutexPool.followUp, state]
      dsimp only
      split
      · exact ⟨seen, rfl⟩
      · exact True.intro
  | exiting =>
    simp only [stepWorker, state, Option.some.injEq] at taken
    subst taken
    refine .raising .exited (worker_self _ worker .exited) (by rw [state]; rfl) rfl (fun counter other => ?_)
      (by rw [FutexPool.followUp, state]; rfl) (fun now => by cases now)
    cases counter with
    | exited => exact absurd rfl other
    | _ => rfl
  | exited =>
    simp only [stepWorker, state, Option.some.injEq] at taken
    exact .plain taken.symm (by rw [FutexPool.followUp, state]) (fun now => by cases now)

omit [DecidableEq C] in
-- The worker that brings a counter to its target tells the call that waits for it.
theorem FutexInv.raise_tells {worker : Nat} {counter : Counter} (inv : FutexInv requests f)
    (waits : (f.pool.calls caller).waitsOn = some counter) (raises : (f.pool.workers worker).raises = some counter)
    (reached : f.pool.target (f.pool.calls caller) ≤ f.pool.counter counter + 1) :
    f.followUp worker = .notifying counter ∨
      counter = .exited ∧ ∃ exited, f.followUp worker = .checking exited ∧ f.pool.workerCount ≤ exited := by
  have staffed := inv.pool.staffed caller (waits_hold waits)
  cases state : f.pool.workers worker with
  | announcing seen =>
    rw [state] at raises
    cases raises
    exact .inl (by rw [FutexPool.followUp, state])
  | acknowledging seen =>
    have target := inv.targets worker
    rw [state] at raises target
    cases raises
    cases stands : f.pool.calls caller with
    | runPersistent width stage =>
      rw [stands] at waits reached
      cases stage with
      | collect firstHelper =>
        have all : f.targets worker ≤ f.pool.doneCount + 1 := (target rfl).trans_le reached
        exact .inl (by rw [FutexPool.followUp, state]; exact if_pos all)
      | _ => cases waits
    | ensurePersistentWorkers width stage =>
      rw [stands] at waits
      cases stage <;> cases waits
    | shutdown stage =>
      rw [stands] at waits
      cases stage <;> cases waits
    | _ =>
      rw [stands] at waits
      cases waits
  | exiting =>
    rw [state] at raises
    cases raises
    cases stands : f.pool.calls caller with
    | shutdown stage =>
      rw [stands] at waits reached staffed
      cases stage with
      | collect workerCount =>
        have dismissal : Dismissing f.pool workerCount workerCount := staffed
        refine .inr ⟨rfl, f.pool.exitedCount + 1, by rw [FutexPool.followUp, state], ?_⟩
        rw [dismissal.count]
        exact reached
      | _ => cases waits
    | ensurePersistentWorkers width stage =>
      rw [stands] at waits
      cases stage <;> cases waits
    | runPersistent width stage =>
      rw [stands] at waits
      cases stage <;> cases waits
    | _ =>
      rw [stands] at waits
      cases waits
  | _ =>
    rw [state] at raises
    cases raises

omit [DecidableEq C] in
theorem target_same (doneTarget : s'.doneTarget = s.doneTarget) (state : CallState) : s'.target state = s.target state := by
  cases state with
  | runPersistent width stage =>
    cases stage with
    | collect firstHelper => exact doneTarget
    | _ => rfl
  | ensurePersistentWorkers width stage => cases stage <;> rfl
  | shutdown stage => cases stage <;> rfl
  | _ => rfl

omit [DecidableEq C] in
theorem fits_same {state : CallState} {wait : CallWait} (doneTarget : s'.doneTarget = s.doneTarget) (fits : wait.Fits s state) :
    wait.Fits s' state := by
  cases wait with
  | watching counter expected => exact ⟨fits.1, (target_same doneTarget state).symm ▸ fits.2⟩
  | _ => exact fits

theorem FutexInv.worker_heard {worker spins : Nat} {counter : Counter} (inv : FutexInv requests f)
    (looking : f.workers worker = .looking spins) (moved : stepWorker requests f.pool worker = some s')
    (asleep : f.calls caller = .asleep counter) :
    s'.counter counter < s'.target (s'.calls caller) ∨
      ∃ teller, Tells ({ f with pool := s' }.worker worker (f.followUp worker)) counter teller := by
  have waits := inv.calls caller
  rw [asleep] at waits
  obtain ⟨state, readyCount, exitedCount, doneCount, begun, ended, next, effect⟩ := worker_moves moved
  have calls : s'.calls = f.pool.calls := by rw [effect]
  have doneTarget : s'.doneTarget = f.pool.doneTarget := by rw [effect]
  have workerCount : s'.workerCount = f.pool.workerCount := by rw [effect]
  rw [calls, target_same doneTarget]
  rcases inv.heard caller counter asleep with short | ⟨teller, tells⟩
  · rcases (step_worker_follows moved).counted counter with same | ⟨raises, raised⟩
    · rw [same]
      exact .inl short
    · by_cases reached : f.pool.target (f.pool.calls caller) ≤ f.pool.counter counter + 1
      · refine .inr ⟨worker, ?_⟩
        simp only [Tells, FutexPool.worker, Function.update_self, workerCount]
        exact inv.raise_tells waits raises reached
      · rw [raised]
        exact .inl (Nat.lt_of_not_le reached)
  · have apart : teller ≠ worker := by
      intro same
      rw [same, Tells, looking] at tells
      rcases tells with notifying | ⟨_, _, checking, _⟩
      · cases notifying
      · cases checking
    refine .inr ⟨teller, ?_⟩
    simp only [Tells, FutexPool.worker, Function.update_of_ne apart, workerCount]
    exact tells

theorem FutexInv.worker_steps {worker spins : Nat} (inv : FutexInv requests f) (looking : f.workers worker = .looking spins)
    (moved : stepWorker requests f.pool worker = some s') :
    FutexInv requests ({ f with pool := s' }.worker worker (f.followUp worker)) := by
  have follows := step_worker_follows moved
  have bounded := step_bounded f.pool s' (.worker worker) inv.bounded moved
  have kept := step_worker_keeps inv.pool moved
  obtain ⟨state, readyCount, exitedCount, doneCount, begun, ended, next, effect⟩ := worker_moves moved
  have calls : s'.calls = f.pool.calls := by rw [effect]
  have doneTarget : s'.doneTarget = f.pool.doneTarget := by rw [effect]
  have generation : s'.generation = f.pool.generation := by rw [effect]
  have workers : ∀ other, other ≠ worker → s'.workers other = f.pool.workers other := fun other apart => by
    rw [effect]
    exact Function.update_of_ne apart _ _
  refine ⟨kept, bounded, fun caller => ?_, fun other => ?_, fun other targeted => ?_, fun caller counter asleep => ?_,
    fun other seen asleep idle behind => ?_⟩
  · change (f.calls caller).Fits s' (s'.calls caller)
    rw [calls]
    exact fits_same doneTarget (inv.calls caller)
  · by_cases same : other = worker
    · subst same
      simpa only [FutexPool.worker, Function.update_self] using follows.fits
    · simpa only [FutexPool.worker, Function.update_of_ne same, workers other same] using inv.workers other
  · change f.targets other = s'.doneTarget
    rw [doneTarget]
    by_cases same : other = worker
    · subst same
      simp only [FutexPool.worker, Function.update_self] at targeted
      exact inv.targets other (looking ▸ follows.targeted spins targeted)
    · simp only [FutexPool.worker, Function.update_of_ne same, workers other same] at targeted
      exact inv.targets other targeted
  · exact inv.worker_heard looking moved asleep
  · by_cases same : other = worker
    · subst same
      simp only [FutexPool.worker, Function.update_self] at asleep
      exact absurd asleep follows.awake
    · simp only [FutexPool.worker, Function.update_of_ne same, workers other same, generation] at asleep idle behind
      change ∃ caller, Rouses other (f.calls caller) (s'.calls caller)
      rw [calls]
      exact inv.roused other seen asleep idle behind

-- Nothing that a waiting thread looks at.
structure Unseen (s s' : Pool C) : Prop where
  calls : s'.calls = s.calls
  workers : s'.workers = s.workers
  generation : s'.generation = s.generation
  workerCount : s'.workerCount = s.workerCount
  doneTarget : s'.doneTarget = s.doneTarget
  counters : ∀ counter, s'.counter counter = s.counter counter

omit [DecidableEq C] in
theorem FutexInv.aside (inv : FutexInv requests f) (unseen : Unseen f.pool s') (kept : Inv requests s') (bounded : Bounded s') :
    FutexInv requests { f with pool := s' } := by
  refine ⟨kept, bounded, fun caller => ?_, fun worker => ?_, fun worker targeted => ?_, fun caller counter asleep => ?_,
    fun worker seen asleep idle behind => ?_⟩
  · change (f.calls caller).Fits s' (s'.calls caller)
    rw [unseen.calls]
    exact fits_same unseen.doneTarget (inv.calls caller)
  · change (f.workers worker).Fits (s'.workers worker)
    rw [unseen.workers]
    exact inv.workers worker
  · have targeted : (s'.workers worker).targeted (f.workers worker) = true := targeted
    rw [unseen.workers] at targeted
    exact (inv.targets worker targeted).trans unseen.doneTarget.symm
  · change s'.counter counter < s'.target (s'.calls caller) ∨ ∃ worker, f.workers worker = .notifying counter ∨
      counter = .exited ∧ ∃ exited, f.workers worker = .checking exited ∧ s'.workerCount ≤ exited
    rw [unseen.counters, unseen.calls, target_same unseen.doneTarget, unseen.workerCount]
    exact inv.heard caller counter asleep
  · have idle : s'.workers worker = .idle seen := idle
    have behind : seen ≠ s'.generation worker := behind
    rw [unseen.workers] at idle
    rw [unseen.generation] at behind
    change ∃ caller, Rouses worker (f.calls caller) (s'.calls caller)
    rw [unseen.calls]
    exact inv.roused worker seen asleep idle behind

omit [DecidableEq C] in
theorem look_again_awake {roused : Bool} {spins : Nat} {state : CallState} {wait : CallWait} (counter : Counter)
    (looks : lookAgain s state roused spins = some wait) : wait ≠ .asleep counter := by
  cases state with
  | ensurePersistentWorkers width stage =>
    cases stage <;> cases looks
    exact CallWait.noConfusion
  | runPersistent width stage =>
    cases stage with
    | collect firstHelper =>
      simp only [lookAgain] at looks
      split at looks
      · cases looks
        exact CallWait.noConfusion
      · split at looks <;> cases looks <;> exact CallWait.noConfusion
    | _ => cases looks
  | shutdown stage =>
    cases stage <;> cases looks
    exact CallWait.noConfusion
  | _ => cases looks

omit [DecidableEq C] in
-- A call about to sleep has woken everyone it had to wake.
theorem watching_rouses {counter : Counter} {expected worker : Nat} {state : CallState} (waits : state.waitsOn = some counter) :
    ¬ Rouses worker (.watching counter expected) state := by
  intro rouses
  cases state with
  | runPersistent width stage =>
    cases stage with
    | collect firstHelper =>
      rcases rouses with ⟨_, same⟩ | ⟨_, same, _⟩
      · cases same
      · cases same
    | _ => cases waits
  | shutdown stage =>
    cases stage with
    | dismiss workerCount told => cases waits
    | _ => exact rouses
  | _ => exact rouses

theorem FutexInv.rouses_on {told : Nat} (inv : FutexInv requests f) (wait : f.calls caller = .rousing told)
    (taken : futexCall requests accepted f caller = some f') : FutexInv requests f' := by
  simp only [futexCall, wait] at taken
  cases stands : f.pool.calls caller with
  | runPersistent width stage =>
    cases stage with
    | collect firstHelper =>
      have rousing : ∀ other, Rouses other (f.calls caller) (f.pool.calls caller) →
          other < firstHelper ∨ firstHelper + told ≤ other := by
        intro other rouses
        rw [wait, stands] at rouses
        rcases rouses with ⟨_, same⟩ | ⟨_, same, untold⟩
        · cases same
        · cases same
          exact untold
      simp only [stands] at taken
      split at taken
      · simp only [Option.some.injEq] at taken
        subst taken
        refine (inv.wake_worker (firstHelper + told)).call_waits caller _ ?_ (fun _ => CallWait.noConfusion)
          (fun other _ asleep _ _ rouses => ?_)
        · change (f.pool.calls caller).waitsOn = some .done
          rw [stands]
          rfl
        · have untold := rousing other rouses
          have apart : other ≠ firstHelper + told := by
            intro same
            rw [same] at asleep
            exact wake_worker_awake f _ asleep
          change Rouses other _ (f.pool.calls caller)
          rw [stands]
          exact .inr ⟨told + 1, rfl, by omega⟩
      · rename_i all
        simp only [Option.some.injEq] at taken
        subst taken
        refine inv.call_waits caller _ True.intro (fun _ => CallWait.noConfusion) (fun other seen _ idle behind rouses => ?_)
        exact absurd (inv.told_all stands all (rousing other rouses) idle) behind
    | _ =>
      simp only [stands] at taken
      cases taken
  | _ =>
    simp only [stands] at taken
    cases taken

theorem futex_call_keeps (inv : FutexInv requests f) (taken : futexCall requests accepted f caller = some f') :
    FutexInv requests f' := by
  have fits := inv.calls caller
  cases wait : f.calls caller with
  | looking roused spins =>
    simp only [futexCall, wait] at taken
    cases moved : stepCall requests accepted f.pool caller with
    | some pool =>
      simp only [moved, Option.some.injEq] at taken
      subst taken
      exact inv.call_steps wait moved
    | none =>
      simp only [moved] at taken
      obtain ⟨next, looks, rfl⟩ := Option.map_eq_some_iff.mp taken
      refine inv.call_waits caller next (look_again_fits moved looks) (fun counter asleep => ?_) (fun worker _ _ _ _ rouses => ?_)
      · exact absurd asleep (look_again_awake counter looks)
      · rw [wait] at rouses
        exact look_again_rouses looks rouses
  | notifying worker =>
    simp only [futexCall, wait, Option.some.injEq] at taken
    subst taken
    rw [wait] at fits
    obtain ⟨workerCount, stands⟩ := fits
    refine (inv.wake_worker worker).call_waits caller _ True.intro (fun _ => CallWait.noConfusion)
      (fun other _ asleep _ _ rouses => ?_)
    -- the one worker it would still wake has just been woken
    have rouses : Rouses other (f.calls caller) (f.pool.calls caller) := rouses
    rw [wait, stands] at rouses
    cases rouses
    exact absurd asleep (wake_worker_awake f worker)
  | rousing told => exact inv.rouses_on wait taken
  | watching counter expected =>
    rw [wait] at fits
    simp only [futexCall, wait, Option.some.injEq] at taken
    subst taken
    have rouses : ∀ worker, ¬ Rouses worker (f.calls caller) (f.pool.calls caller) := by
      intro worker
      rw [wait]
      exact watching_rouses fits.1
    split
    · rename_i same
      refine inv.call_waits caller _ fits.1 (fun other asleep => ?_) (fun worker _ _ _ _ now => absurd now (rouses worker))
      cases asleep
      rw [same]
      exact fits.2
    · exact inv.call_waits caller _ True.intro (fun _ => CallWait.noConfusion)
        (fun worker _ _ _ _ now => absurd now (rouses worker))
  | asleep counter => simp only [futexCall, wait, reduceCtorEq] at taken

omit [DecidableEq C] in
theorem FutexInv.reads {worker : Nat} (inv : FutexInv requests f) (reading : f.workers worker = .reading) (target : Nat) :
    FutexInv requests { f with targets := Function.update f.targets worker target } where
  pool := inv.pool
  bounded := inv.bounded
  calls := inv.calls
  workers := inv.workers
  targets other targeted := by
    by_cases same : other = worker
    · subst same
      have fits := inv.workers other
      have targeted : (f.pool.workers other).targeted (f.workers other) = true := targeted
      rw [reading] at fits targeted
      cases state : f.pool.workers other with
      | readActive seen taskFn tasks count =>
        rw [state] at targeted
        cases targeted
      | _ =>
        rw [state] at fits
        cases fits
    · exact (Function.update_of_ne same _ _).trans (inv.targets other targeted)
  heard := inv.heard
  roused := inv.roused

omit [DecidableEq C] in
-- An idle worker may do anything but sleep behind its generation.
theorem FutexInv.idle_waits {worker : Nat} {seen : BitVec 32} (inv : FutexInv requests f)
    (idle : f.pool.workers worker = .idle seen) (quiet : ∀ counter, ¬ Tells f counter worker) (wait : WorkerWait)
    (fits : wait.Fits (.idle seen : WorkerState C)) (sleeps : wait = .asleep → f.pool.generation worker = seen) :
    FutexInv requests (f.worker worker wait) := by
  refine inv.worker_waits worker wait (by rw [idle]; exact fits) (fun targeted => ?_)
    (fun _ counter _ tells => absurd tells (quiet counter)) (fun asleep => ?_)
  · rw [idle] at targeted
    cases targeted
  · rw [idle, sleeps asleep]

omit [DecidableEq C] in
theorem tells_nothing (f : FutexPool C) (worker : Nat) (notifying : ∀ counter, f.workers worker ≠ .notifying counter)
    (checking : ∀ exited, f.workers worker ≠ .checking exited) (counter : Counter) : ¬ Tells f counter worker := by
  intro tells
  rcases tells with same | ⟨_, exited, same, _⟩
  · exact notifying counter same
  · exact checking exited same

theorem futex_worker_keeps {worker : Nat} (inv : FutexInv requests f) (taken : futexWorker requests f worker = some f') :
    FutexInv requests f' := by
  have fits := inv.workers worker
  cases wait : f.workers worker with
  | looking spins =>
    simp only [futexWorker, wait] at taken
    cases moved : stepWorker requests f.pool worker with
    | some pool =>
      simp only [moved, Option.some.injEq] at taken
      subst taken
      exact inv.worker_steps wait moved
    | none =>
      simp only [moved] at taken
      cases state : f.pool.workers worker with
      | idle seen =>
        have quiet := tells_nothing f worker (by rw [wait]; exact fun _ => WorkerWait.noConfusion)
          (by rw [wait]; exact fun _ => WorkerWait.noConfusion)
        simp only [state, Option.some.injEq] at taken
        subst taken
        split
        · exact inv.idle_waits state quiet _ True.intro WorkerWait.noConfusion
        · exact inv.idle_waits state quiet _ rfl WorkerWait.noConfusion
      | _ =>
        simp only [state] at taken
        cases taken
  | reading =>
    rw [wait] at fits
    simp only [futexWorker, wait, Option.some.injEq] at taken
    subst taken
    have read := inv.reads wait f.pool.doneTarget
    refine read.worker_waits worker _ True.intro (fun _ => Function.update_self _ _ _) (fun _ counter _ tells => ?_)
      WorkerWait.noConfusion
    rcases tells with same | ⟨_, _, same, _⟩
    · cases wait.symm.trans same
    · cases wait.symm.trans same
  | checking exited =>
    rw [wait] at fits
    simp only [futexWorker, wait, Option.some.injEq] at taken
    subst taken
    have state : f.pool.workers worker = .exited := fits
    split
    · refine inv.worker_waits worker _ state (by rw [state]; exact Bool.noConfusion) (fun _ counter _ tells => ?_)
        WorkerWait.noConfusion
      rcases tells with same | ⟨rfl, _⟩
      · cases wait.symm.trans same
      · exact .inl (Function.update_self _ _ _)
    · rename_i short
      refine inv.worker_waits worker _ True.intro (by rw [state]; exact Bool.noConfusion) (fun _ counter _ tells => ?_)
        WorkerWait.noConfusion
      rcases tells with same | ⟨_, _, same, all⟩
      · cases wait.symm.trans same
      · cases wait.symm.trans same
        exact absurd all short
  | notifying counter =>
    rw [wait] at fits
    simp only [futexWorker, wait, Option.some.injEq] at taken
    subst taken
    have unserving : (f.pool.workers worker).targeted (.looking 0) = false := by
      cases counter with
      | exited => rw [show f.pool.workers worker = .exited from fits]; rfl
      | ready =>
        obtain ⟨_, idle⟩ := fits
        rw [idle]
        rfl
      | done =>
        obtain ⟨_, idle⟩ := fits
        rw [idle]
        rfl
    refine (inv.wake_calls counter).worker_waits worker _ True.intro (fun targeted => ?_) (fun caller other asleep tells => ?_)
      WorkerWait.noConfusion
    · cases unserving.symm.trans targeted
    · -- whoever slept on the counter is awake now
      have apart := (woken_asleep asleep).2
      rcases tells with same | ⟨_, _, same, _⟩
      · cases wait.symm.trans same
        exact absurd rfl apart
      · cases wait.symm.trans same
  | watching seen =>
    rw [wait] at fits
    have quiet := tells_nothing f worker (by rw [wait]; exact fun _ => WorkerWait.noConfusion)
      (by rw [wait]; exact fun _ => WorkerWait.noConfusion)
    simp only [futexWorker, wait, Option.some.injEq] at taken
    subst taken
    split
    · rename_i same
      exact inv.idle_waits fits quiet _ ⟨seen, rfl⟩ (fun _ => same)
    · exact inv.idle_waits fits quiet _ True.intro WorkerWait.noConfusion
  | asleep => simp only [futexWorker, wait, reduceCtorEq] at taken

theorem futex_step_keeps (f f' : FutexPool C) (action : FutexAction C) (inv : FutexInv requests f)
    (taken : futexStep requests f action = some f') : FutexInv requests f' := by
  cases action with
  | act inner =>
    cases inner with
    | call caller accepted => exact futex_call_keeps inv taken
    | worker worker => exact futex_worker_keeps inv taken
    | setMaxThreads limit =>
      cases taken
      exact inv.aside ⟨rfl, rfl, rfl, rfl, rfl, fun counter => by cases counter <;> rfl⟩ (inv.pool.limit limit)
        ⟨inv.bounded.workers, inv.bounded.asked⟩
    | helper caller index =>
      obtain ⟨pool, moved, rfl⟩ := Option.map_eq_some_iff.mp taken
      have bounded := step_bounded f.pool pool (.helper caller index) inv.bounded moved
      have kept := step_helper_keeps inv.pool moved
      obtain ⟨state, begun, ended, next, effect⟩ := helper_moves moved
      rw [effect] at bounded kept ⊢
      exact inv.aside ⟨rfl, rfl, rfl, rfl, rfl, fun counter => by cases counter <;> rfl⟩ kept bounded
  | strayCall caller =>
    have fits := inv.calls caller
    cases wait : f.calls caller with
    | asleep counter =>
      simp only [futexStep, wait, Option.some.injEq] at taken
      subst taken
      have woken : (CallWait.asleep counter).woken counter = .looking true 0 := if_pos rfl
      rw [wait] at fits
      rw [woken]
      refine inv.call_waits caller _ True.intro (fun _ => CallWait.noConfusion) (fun worker _ _ _ _ rouses => ?_)
      have woken := rouses_woken counter rouses
      rw [wait, CallWait.woken, if_pos rfl] at woken
      exact woken
    | _ =>
      simp only [futexStep, wait] at taken
      cases taken
  | strayWorker worker =>
    simp only [futexStep] at taken
    split at taken
    · cases taken
      exact inv.wake_worker worker
    · cases taken

omit [DecidableEq C] in
theorem futex_inv_initial (requests : C → Request) (f : FutexPool C) (initial : FutexInitial f) : FutexInv requests f where
  pool := inv_initial requests f.pool initial.pool
  bounded := ⟨fun worker _ => initial.pool.workers worker, fun caller _ _ _ stands => by
    rw [initial.pool.calls caller] at stands
    cases stands⟩
  calls caller := by
    rw [initial.calls caller]
    exact True.intro
  workers worker := by
    rw [initial.workers worker]
    exact True.intro
  targets worker targeted := by
    rw [initial.pool.workers worker] at targeted
    cases targeted
  heard caller counter asleep := by
    rw [initial.calls caller] at asleep
    cases asleep
  roused worker seen asleep := by
    rw [initial.workers worker] at asleep
    cases asleep

theorem futex_reachable_inv (reachable : FutexReachable requests f) : FutexInv requests f :=
  futex_invariant (FutexInv requests) (futex_inv_initial requests) futex_step_keeps reachable

end Steps

end Zynum.ThreadPool
