import Zynum.Execution.ThreadPool
import Zynum.Foundation.JobBoard

set_option autoImplicit false

/- What the workers are doing while the pool rests, while workers are being
   started, during a dispatch and during a shutdown, and that a step of a
   worker leaves each of these as it is. -/
namespace Zynum.ThreadPool

open JobBoard

variable {C : Type}

-- A worker one bump behind sees a new generation, also where the counter wraps.
theorem bumped_differs (seen : BitVec 32) : seen + 1 ≠ seen := by
  intro same
  have one : (1 : BitVec 32) = 0 := BitVec.add_right_eq_self.mp same
  exact absurd one (by decide)

def WorkerState.isIdle (generation : BitVec 32) : WorkerState C → Bool
  | .idle seen => seen == generation
  | _ => false

def WorkerState.isGone : WorkerState C → Bool
  | .exited => true
  | .absent => true
  | _ => false

-- The pool with no dispatch and no shutdown under way.
structure Resting (s : Pool C) : Prop where
  settled : s.persistentInit ≠ .starting
  opened : s.persistentInit = .ready → s.shutdownRequested = false
  placed : ∀ worker, s.workers worker =
    if s.persistentInit = .ready ∧ worker < s.workerCount then .idle (s.generation worker) else .absent

def Arriving (generation : BitVec 32) : WorkerState C → Prop
  | .starting => True
  | .announcing seen => seen = generation
  | .idle seen => seen = generation
  | _ => False

-- The first workers have been started and are on their way to their loops.
structure Assembling (s : Pool C) (submitted : Nat) : Prop where
  starting : s.persistentInit = .starting
  opened : s.shutdownRequested = false
  arriving : ∀ worker, worker < submitted → Arriving (s.generation worker) (s.workers worker)
  others : ∀ worker, submitted ≤ worker → s.workers worker = .absent
  ready : s.readyCount = headcount submitted (fun worker => (s.workers worker).isIdle (s.generation worker))

-- A worker that has been bumped for a dispatch and may have got anywhere in its loop body.
def Serving (caller : C) (width index : Nat) (generation : BitVec 32) : WorkerState C → Prop
  | .idle seen => seen = generation ∨ generation = seen + 1
  | .woken seen => seen = generation
  | .readTaskFn seen => seen = generation
  | .readTasks seen taskFn => seen = generation ∧ taskFn = caller
  | .readCount seen taskFn tasks => seen = generation ∧ taskFn = caller ∧ tasks = caller
  | .readActive seen taskFn tasks count => seen = generation ∧ taskFn = caller ∧ tasks = caller ∧ count = width
  | .readFirst seen taskFn tasks count activeHelpers =>
    seen = generation ∧ taskFn = caller ∧ tasks = caller ∧ count = width ∧ activeHelpers = width - 1
  | .running seen taskFn tasks job _ => seen = generation ∧ taskFn = caller ∧ tasks = caller ∧ job = index
  | .acknowledging seen => seen = generation
  | _ => False

-- The stores of a dispatch that have been made.
structure Published (s : Pool C) (caller : C) (width firstHelper stored : Nat) : Prop where
  taskFn : 0 < stored → s.taskFn = caller
  tasks : 1 < stored → s.tasks = caller
  jobCount : 2 < stored → s.jobCount = width
  doneCount : 3 < stored → s.doneCount = 0
  doneTarget : 4 < stored → s.doneTarget = width - 1
  firstHelper : 5 < stored → s.firstHelper = firstHelper
  activeHelpers : 6 < stored → s.activeHelpers = width - 1

structure Dispatching (s : Pool C) (caller : C) (width firstHelper bumped : Nat) : Prop where
  ready : s.persistentInit = .ready
  opened : s.shutdownRequested = false
  fits : firstHelper + (width - 1) ≤ s.workerCount
  within : bumped ≤ width - 1
  taskFn : s.taskFn = caller
  tasks : s.tasks = caller
  jobCount : s.jobCount = width
  doneTarget : s.doneTarget = width - 1
  first : s.firstHelper = firstHelper
  activeHelpers : s.activeHelpers = width - 1
  serving : ∀ helper, helper < bumped →
    Serving caller width (helper + 1) (s.generation (firstHelper + helper)) (s.workers (firstHelper + helper))
  others : ∀ worker, worker < firstHelper ∨ firstHelper + bumped ≤ worker →
    s.workers worker = if worker < s.workerCount then .idle (s.generation worker) else .absent
  done : s.doneCount =
    headcount bumped (fun helper => (s.workers (firstHelper + helper)).isIdle (s.generation (firstHelper + helper)))

-- A worker that has been bumped for a shutdown.
def Leaving (generation : BitVec 32) : WorkerState C → Prop
  | .idle seen => generation = seen + 1
  | .woken _ => True
  | .exiting => True
  | .exited => True
  | .absent => True
  | _ => False

structure Dismissing (s : Pool C) (workerCount told : Nat) : Prop where
  ready : s.persistentInit = .ready
  asked : s.shutdownRequested = true
  count : s.workerCount = workerCount
  within : told ≤ workerCount
  leaving : ∀ worker, worker < told → Leaving (s.generation worker) (s.workers worker)
  others : ∀ worker, told ≤ worker → s.workers worker = if worker < workerCount then .idle (s.generation worker) else .absent
  gone : s.exitedCount = headcount told (fun worker => (s.workers worker).isGone)

-- The records of every other call, and of functions that got another call's pointer.
structure SameElsewhere (caller : C) (s s' : Pool C) : Prop where
  begun : ∀ taskFn tasks, ¬ (taskFn = caller ∧ tasks = caller) → s'.begun taskFn tasks = s.begun taskFn tasks
  ended : ∀ taskFn tasks, ¬ (taskFn = caller ∧ tasks = caller) → s'.ended taskFn tasks = s.ended taskFn tasks
  next : ∀ other, other ≠ caller → s'.next other = s.next other

def SameRecords (s s' : Pool C) : Prop := s'.begun = s.begun ∧ s'.ended = s.ended ∧ s'.next = s.next

theorem SameRecords.elsewhere {s s' : Pool C} (same : SameRecords s s') (caller : C) : SameElsewhere caller s s' :=
  ⟨fun _ _ _ => by rw [same.1], fun _ _ _ => by rw [same.2.1], fun _ _ => by rw [same.2.2]⟩

section Steps

variable [DecidableEq C] {requests : C → Request} {s s' : Pool C} {worker : Nat}

theorem execute_frame (requests : C → Request) (s : Pool C) (taskFn tasks : C) (body : Body) :
    ∃ begun ended next, (execute requests s taskFn tasks body).1 = { s with begun := begun, ended := ended, next := next } := by
  cases body with
  | called =>
    by_cases passed : (requests tasks).jobs ≤ s.next tasks
    · simp only [execute, if_pos passed]
      exact ⟨_, _, _, rfl⟩
    · simp only [execute, if_neg passed]
      exact ⟨_, _, _, rfl⟩
  | working job => exact ⟨_, _, _, rfl⟩

theorem call_task_frame (requests : C → Request) (s : Pool C) (taskFn tasks : C) (index : Nat) (body : Body) :
    ∃ begun ended next, (callTask requests s taskFn tasks index body).1 =
    { s with begun := begun, ended := ended, next := next } := by
  cases queued : (requests taskFn).isQueued with
  | true =>
    simp only [callTask, if_pos queued]
    exact execute_frame requests s taskFn tasks body
  | false =>
    cases body <;> simp only [callTask, queued] <;> exact ⟨_, _, _, rfl⟩

theorem worker_moves (taken : stepWorker requests s worker = some s') :
    ∃ state readyCount exitedCount doneCount begun ended next, s' = { s with
      workers := Function.update s.workers worker state, readyCount := readyCount, exitedCount := exitedCount,
      doneCount := doneCount, begun := begun, ended := ended, next := next } := by
  unfold stepWorker at taken
  cases state : s.workers worker with
  | absent => simp only [state, reduceCtorEq] at taken
  | running seen taskFn tasks index body =>
    obtain ⟨begun, ended, next, effect⟩ := call_task_frame requests s taskFn tasks index body
    simp only [state, effect] at taken
    split at taken <;> cases taken <;> exact ⟨_, _, _, _, _, _, _, rfl⟩
  | idle seen =>
    simp only [state] at taken
    split at taken <;> cases taken
    exact ⟨_, _, _, _, _, _, _, rfl⟩
  | readFirst seen taskFn tasks count activeHelpers =>
    simp only [state] at taken
    split at taken <;> cases taken <;> exact ⟨_, _, _, _, _, _, _, rfl⟩
  | _ =>
    simp only [state] at taken
    cases taken
    exact ⟨_, _, _, _, _, _, _, rfl⟩

theorem Resting.still (rest : Resting s) : stepWorker requests s worker = none := by
  have placed := rest.placed worker
  by_cases employed : s.persistentInit = .ready ∧ worker < s.workerCount
  · rw [if_pos employed] at placed
    simp only [stepWorker, placed, if_pos]
  · rw [if_neg employed] at placed
    simp only [stepWorker, placed]

omit [DecidableEq C] in
theorem Assembling.replace {submitted readyCount : Nat} {state : WorkerState C} (gathering : Assembling s submitted)
    (inside : worker < submitted) (before : (s.workers worker).isIdle (s.generation worker) = false)
    (arriving : Arriving (s.generation worker) state)
    (counted : readyCount = s.readyCount + if state.isIdle (s.generation worker) = true then 1 else 0) :
    Assembling { s with workers := Function.update s.workers worker state, readyCount := readyCount } submitted := by
  constructor
  · exact gathering.starting
  · exact gathering.opened
  · intro other below
    by_cases same : other = worker
    · subst same
      simpa only [Function.update_self] using arriving
    · simpa only [Function.update_of_ne same] using gathering.arriving other below
  · intro other beyond
    have apart : other ≠ worker := by omega
    simpa only [Function.update_of_ne apart] using gathering.others other beyond
  · change readyCount = _
    rw [counted, gathering.ready]
    exact (headcount_replace s.workers (fun other state => state.isIdle (s.generation other)) id state Function.injective_id
      inside before).symm

theorem Assembling.moves {submitted : Nat} (gathering : Assembling s submitted) (taken : stepWorker requests s worker = some s') :
    Assembling s' submitted ∧ SameRecords s s' := by
  by_cases inside : worker < submitted
  · have arriving := gathering.arriving worker inside
    cases state : s.workers worker with
    | starting =>
      simp only [stepWorker, state, Option.some.injEq] at taken
      subst taken
      exact ⟨gathering.replace inside (by rw [state]; rfl) rfl rfl, rfl, rfl, rfl⟩
    | announcing seen =>
      rw [state] at arriving
      have current : seen = s.generation worker := arriving
      simp only [stepWorker, state, Option.some.injEq] at taken
      subst taken
      have counted : (WorkerState.idle seen : WorkerState C).isIdle (s.generation worker) = true := beq_iff_eq.mpr current
      exact ⟨gathering.replace inside (by rw [state]; rfl) current (by rw [if_pos counted]), rfl, rfl, rfl⟩
    | idle seen =>
      rw [state] at arriving
      have current : seen = s.generation worker := arriving
      simp only [stepWorker, state, current, if_true, reduceCtorEq] at taken
    | _ => exact absurd arriving (by rw [state]; exact nofun)
  · simp only [stepWorker, gathering.others worker (Nat.le_of_not_lt inside), reduceCtorEq] at taken

omit [DecidableEq C] in
theorem Dispatching.replace {caller : C} {width firstHelper bumped helper doneCount : Nat} {state : WorkerState C}
    (dispatch : Dispatching s caller width firstHelper bumped) (inside : helper < bumped)
    (before : (s.workers (firstHelper + helper)).isIdle (s.generation (firstHelper + helper)) = false)
    (serving : Serving caller width (helper + 1) (s.generation (firstHelper + helper)) state)
    (counted : doneCount = s.doneCount + if state.isIdle (s.generation (firstHelper + helper)) = true then 1 else 0)
    (begun ended : C → C → List Nat) (next : C → Nat) :
    Dispatching { s with
      workers := Function.update s.workers (firstHelper + helper) state, doneCount := doneCount,
      begun := begun, ended := ended, next := next } caller width firstHelper bumped := by
  constructor
  · exact dispatch.ready
  · exact dispatch.opened
  · exact dispatch.fits
  · exact dispatch.within
  · exact dispatch.taskFn
  · exact dispatch.tasks
  · exact dispatch.jobCount
  · exact dispatch.doneTarget
  · exact dispatch.first
  · exact dispatch.activeHelpers
  · intro other below
    by_cases same : other = helper
    · subst same
      simpa only [Function.update_self] using serving
    · have apart : firstHelper + other ≠ firstHelper + helper := fun equal => same (Nat.add_left_cancel equal)
      simpa only [Function.update_of_ne apart] using dispatch.serving other below
  · intro other outside
    have apart : other ≠ firstHelper + helper := by omega
    simpa only [Function.update_of_ne apart] using dispatch.others other outside
  · change doneCount = _
    rw [counted, dispatch.done]
    exact (headcount_replace s.workers (fun other state => state.isIdle (s.generation (firstHelper + other))) (firstHelper + ·) state
      (fun _ _ same => Nat.add_left_cancel same) inside before).symm

omit [DecidableEq C] in
theorem Dispatching.helper {caller : C} {width firstHelper bumped : Nat} (dispatch : Dispatching s caller width firstHelper bumped)
    (busy : ∀ generation, s.workers worker = .idle generation → generation ≠ s.generation worker)
    (present : s.workers worker ≠ .absent) : ∃ helper, helper < bumped ∧ worker = firstHelper + helper := by
  by_contra outside
  have apart : worker < firstHelper ∨ firstHelper + bumped ≤ worker := by
    by_contra inside
    exact outside ⟨worker - firstHelper, by omega, by omega⟩
  have placed := dispatch.others worker apart
  by_cases employed : worker < s.workerCount
  · rw [if_pos employed] at placed
    exact busy _ placed rfl
  · rw [if_neg employed] at placed
    exact present placed

omit [DecidableEq C] in
theorem Dismissing.replace {workerCount told exitedCount : Nat} {state : WorkerState C} (dismissal : Dismissing s workerCount told)
    (inside : worker < told) (leaving : Leaving (s.generation worker) state)
    (counted : exitedCount = headcount told (fun other => (Function.update s.workers worker state other).isGone)) :
    Dismissing { s with workers := Function.update s.workers worker state, exitedCount := exitedCount } workerCount told := by
  constructor
  · exact dismissal.ready
  · exact dismissal.asked
  · exact dismissal.count
  · exact dismissal.within
  · intro other below
    by_cases same : other = worker
    · subst same
      simpa only [Function.update_self] using leaving
    · simpa only [Function.update_of_ne same] using dismissal.leaving other below
  · intro other beyond
    have apart : other ≠ worker := by omega
    simpa only [Function.update_of_ne apart] using dismissal.others other beyond
  · exact counted

omit [DecidableEq C] in
theorem Dismissing.stays {workerCount told : Nat} {state : WorkerState C} (dismissal : Dismissing s workerCount told)
    (same : state.isGone = (s.workers worker).isGone) :
    s.exitedCount = headcount told (fun other => (Function.update s.workers worker state other).isGone) := by
  rw [dismissal.gone]
  apply headcount_congr
  intro other _
  by_cases here : other = worker
  · subst here
    rw [Function.update_self, same]
  · rw [Function.update_of_ne here]

theorem Dismissing.moves {workerCount told : Nat} (dismissal : Dismissing s workerCount told)
    (taken : stepWorker requests s worker = some s') : Dismissing s' workerCount told ∧ SameRecords s s' := by
  by_cases inside : worker < told
  · have leaving := dismissal.leaving worker inside
    cases state : s.workers worker with
    | idle seen =>
      rw [state] at leaving
      have behind : s.generation worker = seen + 1 := leaving
      have apart : s.generation worker ≠ seen := fun same => bumped_differs seen (behind.symm.trans same)
      simp only [stepWorker, state, if_neg apart, Option.some.injEq] at taken
      subst taken
      exact ⟨dismissal.replace inside True.intro (dismissal.stays (by rw [state]; rfl)), rfl, rfl, rfl⟩
    | woken seen =>
      simp only [stepWorker, state, dismissal.asked, if_true, Option.some.injEq] at taken
      subst taken
      exact ⟨dismissal.replace inside True.intro (dismissal.stays (by rw [state]; rfl)), rfl, rfl, rfl⟩
    | exiting =>
      simp only [stepWorker, state, Option.some.injEq] at taken
      subst taken
      have leaves : Leaving (s.generation worker) (WorkerState.exited : WorkerState C) := True.intro
      refine ⟨dismissal.replace inside leaves ?_, rfl, rfl, rfl⟩
      rw [dismissal.gone]
      exact (headcount_replace s.workers (fun _ state => state.isGone) id .exited Function.injective_id inside
        (by rw [id, state]; rfl)).symm
    | exited =>
      simp only [stepWorker, state, Option.some.injEq] at taken
      subst taken
      exact ⟨dismissal.replace inside True.intro (dismissal.stays (by rw [state]; rfl)), rfl, rfl, rfl⟩
    | absent => simp only [stepWorker, state, reduceCtorEq] at taken
    | _ => exact absurd leaving (by rw [state]; exact nofun)
  · have placed := dismissal.others worker (Nat.le_of_not_lt inside)
    by_cases employed : worker < workerCount
    · rw [if_pos employed] at placed
      simp only [stepWorker, placed, if_true, reduceCtorEq] at taken
    · rw [if_neg employed] at placed
      simp only [stepWorker, placed, reduceCtorEq] at taken

end Steps

end Zynum.ThreadPool
