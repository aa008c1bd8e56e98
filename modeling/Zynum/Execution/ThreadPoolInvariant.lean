import Zynum.Execution.ThreadPoolJobs

set_option autoImplicit false

/- The invariant of the pool. At most one call holds io_busy. Where that call
   stands says what the workers, the threads of its group and its jobs are
   doing; without one the pool is at rest. Every step keeps it. -/
namespace Zynum.ThreadPool

open JobBoard

variable {C : Type}

def CallState.holds : CallState → Bool
  | .start => false
  | .entering _ => false
  | .returned _ => false
  | _ => true

-- The states of a call in which nothing of it has been begun and no thread of its group exists.
def CallState.plain : CallState → Bool
  | .runPersistent _ .choose => true
  | .runPersistent _ (.publish _ _) => true
  | .runPersistent _ _ => false
  | .runGroup _ .grant => true
  | .runGroup _ _ => false
  | .leaving answer => !answer
  | .returned answer => !answer
  | _ => true

structure Wide (request : Request) (width : Nat) : Prop where
  wide : 2 ≤ width
  few : width ≤ request.jobs
  fits : request.isQueued = false → request.jobs = width

def GroupStage.Within (width : Nat) : GroupStage → Prop
  | .submit index _ => 0 < index ∧ index ≤ width
  | .inline index _ _ => 0 < index ∧ index < width
  | _ => True

def Sized (request : Request) : CallState → Prop
  | .entering width => Wide request width
  | .ensurePersistentWorkers width _ => Wide request width
  | .runPersistent width _ => Wide request width
  | .ensureIoThreaded width _ => Wide request width
  | .runGroup width stage => Wide request width ∧ stage.Within width
  | .shutdown _ => request = .shutdown
  | _ => True

structure Unstaffed (s : Pool C) : Prop where
  starting : s.persistentInit = .starting
  absent : ∀ worker, s.workers worker = .absent

-- The pool between a shutdown and the release of io_busy.
structure Closed (s : Pool C) : Prop where
  cold : s.persistentInit = .cold
  ioCold : s.ioInit = .cold
  absent : ∀ worker, s.workers worker = .absent

-- The two loops that wait for another thread to settle an init state are never entered: io_busy keeps others out.
def Staffed (s : Pool C) (caller : C) : CallState → Prop
  | .ensurePersistentWorkers _ .await => False
  | .ensureIoThreaded _ .await => False
  | .ensurePersistentWorkers _ .prepare => Unstaffed s
  | .ensurePersistentWorkers _ (.submit _ submitted) => Assembling s submitted
  | .ensurePersistentWorkers _ (.gather submitted) => Assembling s submitted ∧ s.workerCount = submitted
  | .runPersistent _ .choose => Resting s ∧ s.persistentInit = .ready
  | .runPersistent width (.publish firstHelper stored) =>
    Resting s ∧ s.persistentInit = .ready ∧ firstHelper + (width - 1) ≤ s.workerCount ∧ Published s caller width firstHelper stored
  | .runPersistent width (.bump firstHelper bumped) => Dispatching s caller width firstHelper bumped
  | .runPersistent width (.own firstHelper _) => Dispatching s caller width firstHelper (width - 1)
  | .runPersistent width (.collect firstHelper) => Dispatching s caller width firstHelper (width - 1)
  | .shutdown (.dismiss workerCount told) => Dismissing s workerCount told
  | .shutdown (.collect workerCount) => Dismissing s workerCount workerCount
  | .shutdown .await => Dismissing s s.workerCount s.workerCount ∧ ∀ worker, worker < s.workerCount → (s.workers worker).isGone = true
  | .shutdown .reset => ∀ worker, s.workers worker = .absent
  | .shutdown .io => Resting s ∧ s.persistentInit = .cold
  | .shutdown .unlock => Closed s
  | _ => Resting s

-- The threads of a group: those asked for up to an index, if any was given.
structure Spread (helpers : Nat → HelperState) (index : Nat) (submitted : Bool) : Prop where
  within : ∀ helper, helpers helper ≠ .absent → 0 < helper ∧ helper < index
  nobody : submitted = false → ∀ helper, helpers helper = .absent

def Grouped (helpers : Nat → HelperState) : CallState → Prop
  | .runGroup _ (.submit index submitted) => Spread helpers index submitted
  | .runGroup _ (.inline index submitted _) => Spread helpers index submitted
  | .runGroup width (.own submitted _) => Spread helpers width submitted
  | .runGroup width .await => Spread helpers width true
  | .leaving true => ∀ helper, (helpers helper).isRunning = false
  | .returned true => ∀ helper, (helpers helper).isRunning = false
  | _ => ∀ helper, helpers helper = .absent

def groupSlots (helpers : Nat → HelperState) (helper : Nat) : Slot := (helpers (helper + 1)).slot

structure Untouched (s : Pool C) (caller : C) : Prop where
  begun : s.begun caller caller = []
  ended : s.ended caller caller = []
  next : s.next caller = 0

def Recorded (requests : C → Request) (s : Pool C) (caller : C) : CallState → Prop
  | .runPersistent _ (.bump firstHelper bumped) => BoardOf requests caller (crew .waiting bumped (helperSlots s firstHelper)) s
  | .runPersistent width (.own firstHelper body) =>
    BoardOf requests caller (crew body.slot (width - 1) (helperSlots s firstHelper)) s
  | .runPersistent width (.collect firstHelper) => BoardOf requests caller (crew .spent (width - 1) (helperSlots s firstHelper)) s
  | .runGroup _ (.submit index _) => BoardOf requests caller (crew .waiting (index - 1) (groupSlots (s.helpers caller))) s
  | .runGroup _ (.inline index _ body) =>
    BoardOf requests caller (Function.update (crew .waiting (index - 1) (groupSlots (s.helpers caller))) index body.slot) s
  | .runGroup width (.own _ body) => BoardOf requests caller (crew body.slot (width - 1) (groupSlots (s.helpers caller))) s
  | .runGroup width .await => BoardOf requests caller (crew .spent (width - 1) (groupSlots (s.helpers caller))) s
  | .leaving true => Complete (requests caller).jobs (s.begun caller caller) (s.ended caller caller)
  | .returned true => Complete (requests caller).jobs (s.begun caller caller) (s.ended caller caller)
  | _ => Untouched s caller

structure Inv (requests : C → Request) (s : Pool C) : Prop where
  alone : ∀ first second, (s.calls first).holds = true → (s.calls second).holds = true → first = second
  busy : ∀ caller, (s.calls caller).holds = true → s.ioBusy = true
  held : s.ioBusy = true → ∃ caller, (s.calls caller).holds = true
  rest : s.ioBusy = false → Resting s
  io : s.ioInit = .starting → ∃ caller width, s.calls caller = .ensureIoThreaded width .prepare
  staffed : ∀ caller, (s.calls caller).holds = true → Staffed s caller (s.calls caller)
  grouped : ∀ caller, Grouped (s.helpers caller) (s.calls caller)
  recorded : ∀ caller, Recorded requests s caller (s.calls caller)
  sized : ∀ caller, Sized (requests caller) (s.calls caller)
  unmixed : ∀ taskFn tasks, taskFn ≠ tasks → s.begun taskFn tasks = [] ∧ s.ended taskFn tasks = []

theorem inv_initial (requests : C → Request) (s : Pool C) (initial : Initial s) : Inv requests s where
  alone first _ holds _ := by
    rw [initial.calls first] at holds
    cases holds
  busy caller holds := by
    rw [initial.calls caller] at holds
    cases holds
  held busy := by
    rw [initial.free] at busy
    cases busy
  rest _ := by
    have cold := initial.persistentInit
    constructor
    · rw [cold]
      exact nofun
    · intro ready
      cases cold.symm.trans ready
    · intro worker
      rw [initial.workers worker, cold]
      rfl
  io starting := nomatch initial.ioInit.symm.trans starting
  staffed caller holds := by
    rw [initial.calls caller] at holds
    cases holds
  grouped caller := by
    rw [initial.calls caller]
    exact initial.helpers caller
  recorded caller := by
    rw [initial.calls caller]
    exact ⟨initial.begun caller caller, initial.ended caller caller, initial.next caller⟩
  sized caller := by
    rw [initial.calls caller]
    exact True.intro
  unmixed taskFn tasks _ := ⟨initial.begun taskFn tasks, initial.ended taskFn tasks⟩

theorem plain_grouped {state : CallState} (plain : state.plain = true) (helpers : Nat → HelperState) :
    Grouped helpers state = ∀ helper, helpers helper = .absent := by
  cases state with
  | runGroup width stage => cases stage <;> first | rfl | cases plain
  | leaving answer => cases answer <;> first | rfl | cases plain
  | returned answer => cases answer <;> first | rfl | cases plain
  | _ => rfl

theorem plain_recorded {state : CallState} (plain : state.plain = true) (requests : C → Request) (s : Pool C) (caller : C) :
    Recorded requests s caller state = Untouched s caller := by
  cases state with
  | runPersistent width stage => cases stage <;> first | rfl | cases plain
  | runGroup width stage => cases stage <;> first | rfl | cases plain
  | leaving answer => cases answer <;> first | rfl | cases plain
  | returned answer => cases answer <;> first | rfl | cases plain
  | _ => rfl

theorem recorded_congr {requests : C → Request} {s s' : Pool C} {caller : C} {state : CallState} (idle : state.holds = false)
    (begun : s'.begun caller caller = s.begun caller caller) (ended : s'.ended caller caller = s.ended caller caller)
    (next : s'.next caller = s.next caller) (recorded : Recorded requests s caller state) : Recorded requests s' caller state := by
  have untouched : Untouched s caller → Untouched s' caller := fun same =>
    ⟨begun.trans same.begun, ended.trans same.ended, next.trans same.next⟩
  cases state with
  | start => exact untouched recorded
  | entering width => exact untouched recorded
  | returned answer =>
    cases answer with
    | true =>
      rw [Recorded, begun, ended]
      exact recorded
    | false => exact untouched recorded
  | _ => cases idle

theorem staffed_aside {s : Pool C} {caller : C} {state : CallState} (staffed : Staffed s caller state) (calls : C → CallState)
    (maxThreads : Nat) : Staffed { s with calls := calls, maxThreads := maxThreads } caller state := by
  have resting : Resting s → Resting { s with calls := calls, maxThreads := maxThreads } := fun rest =>
    ⟨rest.settled, rest.opened, rest.placed⟩
  have assembling : ∀ submitted, Assembling s submitted → Assembling { s with calls := calls, maxThreads := maxThreads } submitted :=
    fun _ gathering => ⟨gathering.starting, gathering.opened, gathering.arriving, gathering.others, gathering.ready⟩
  have dispatching : ∀ width firstHelper bumped, Dispatching s caller width firstHelper bumped →
      Dispatching { s with calls := calls, maxThreads := maxThreads } caller width firstHelper bumped := fun _ _ _ dispatch =>
    ⟨dispatch.ready, dispatch.opened, dispatch.fits, dispatch.within, dispatch.taskFn, dispatch.tasks, dispatch.jobCount,
      dispatch.doneTarget, dispatch.first, dispatch.activeHelpers, dispatch.serving, dispatch.others, dispatch.done⟩
  have dismissing : ∀ workerCount told, Dismissing s workerCount told →
      Dismissing { s with calls := calls, maxThreads := maxThreads } workerCount told := fun _ _ dismissal =>
    ⟨dismissal.ready, dismissal.asked, dismissal.count, dismissal.within, dismissal.leaving, dismissal.others, dismissal.gone⟩
  cases state with
  | ensurePersistentWorkers width stage =>
    cases stage with
    | prepare => exact ⟨staffed.starting, staffed.absent⟩
    | submit helperCount submitted => exact assembling submitted staffed
    | gather submitted => exact ⟨assembling submitted staffed.1, staffed.2⟩
    | await => exact staffed
    | _ => exact resting staffed
  | ensureIoThreaded width stage =>
    cases stage with
    | await => exact staffed
    | _ => exact resting staffed
  | runPersistent width stage =>
    cases stage with
    | choose => exact ⟨resting staffed.1, staffed.2⟩
    | publish firstHelper stored =>
      obtain ⟨rest, ready, fits, published⟩ := staffed
      exact ⟨resting rest, ready, fits, ⟨published.taskFn, published.tasks, published.jobCount, published.doneCount,
        published.doneTarget, published.firstHelper, published.activeHelpers⟩⟩
    | bump firstHelper bumped => exact dispatching width firstHelper bumped staffed
    | own firstHelper body => exact dispatching width firstHelper _ staffed
    | collect firstHelper => exact dispatching width firstHelper _ staffed
  | shutdown stage =>
    cases stage with
    | dismiss workerCount told => exact dismissing workerCount told staffed
    | collect workerCount => exact dismissing workerCount workerCount staffed
    | await => exact ⟨dismissing _ _ staffed.1, staffed.2⟩
    | reset => exact staffed
    | io => exact ⟨resting staffed.1, staffed.2⟩
    | unlock => exact ⟨staffed.cold, staffed.ioCold, staffed.absent⟩
    | look => exact resting staffed
  | _ => exact resting staffed

theorem recorded_aside {requests : C → Request} {s : Pool C} {caller : C} {state : CallState}
    (recorded : Recorded requests s caller state)
    (calls : C → CallState) (maxThreads : Nat) :
    Recorded requests { s with calls := calls, maxThreads := maxThreads } caller state := by
  cases plain : state.plain with
  | true =>
    rw [plain_recorded plain] at recorded ⊢
    exact ⟨recorded.begun, recorded.ended, recorded.next⟩
  | false =>
    cases state with
    | runPersistent width stage => cases stage <;> first | exact recorded | cases plain
    | runGroup width stage => cases stage <;> first | exact recorded | cases plain
    | leaving answer => cases answer <;> first | exact recorded | cases plain
    | returned answer => cases answer <;> first | exact recorded | cases plain
    | _ => cases plain

-- What the holder of io_busy has a worker for.
inductive Engaged (s : Pool C) (caller : C) (worker : Nat) : Prop where
  | assembling (submitted : Nat) (gathering : Assembling s submitted) (inside : worker < submitted)
  | dispatching (width firstHelper bumped helper : Nat) (stage : PersistentStage)
      (stands : s.calls caller = .runPersistent width stage)
      (dispatch : Dispatching s caller width firstHelper bumped) (inside : helper < bumped) (place : worker = firstHelper + helper)
  | dismissing (workerCount told : Nat) (dismissal : Dismissing s workerCount told) (inside : worker < told)

section Steps

variable [DecidableEq C] {requests : C → Request} {s s' : Pool C} {caller : C} {state : CallState}

-- A step by, or on behalf of, the call that holds io_busy.
theorem Inv.owner (inv : Inv requests s) (holding : (s.calls caller).holds = true)
    (calls : s'.calls = Function.update s.calls caller state) (stays : state.holds = true) (busy : s'.ioBusy = s.ioBusy)
    (helpers : ∀ other, other ≠ caller → s'.helpers other = s.helpers other) (elsewhere : SameElsewhere caller s s')
    (io : s'.ioInit = .starting → ∃ width, state = .ensureIoThreaded width .prepare) (staffed : Staffed s' caller state)
    (grouped : Grouped (s'.helpers caller) state) (recorded : Recorded requests s' caller state)
    (sized : Sized (requests caller) state) : Inv requests s' := by
  have mine : s'.calls caller = state := by rw [calls, Function.update_self]
  have others : ∀ other, other ≠ caller → s'.calls other = s.calls other := fun other apart => by
    rw [calls, Function.update_of_ne apart]
  have only : ∀ other, (s'.calls other).holds = true → other = caller := by
    intro other holds
    by_contra apart
    rw [others other apart] at holds
    exact apart (inv.alone other caller holds holding)
  have taken : s'.ioBusy = true := busy.trans (inv.busy caller holding)
  constructor
  · intro first second one two
    rw [only first one, only second two]
  · intro other _
    exact taken
  · intro _
    exact ⟨caller, by rw [mine]; exact stays⟩
  · intro free
    cases taken.symm.trans free
  · intro starting
    obtain ⟨width, same⟩ := io starting
    exact ⟨caller, width, mine.trans same⟩
  · intro other holds
    have same := only other holds
    subst same
    rw [mine]
    exact staffed
  · intro other
    by_cases same : other = caller
    · subst same
      rw [mine]
      exact grouped
    · rw [others other same, helpers other same]
      exact inv.grouped other
  · intro other
    by_cases same : other = caller
    · subst same
      rw [mine]
      exact recorded
    · rw [others other same]
      have idle : (s.calls other).holds = false := by
        cases holds : (s.calls other).holds with
        | true => exact absurd (inv.alone other caller holds holding) same
        | false => rfl
      exact recorded_congr idle (elsewhere.begun other other (fun both => same both.1))
        (elsewhere.ended other other (fun both => same both.1)) (elsewhere.next other same) (inv.recorded other)
  · intro other
    by_cases same : other = caller
    · subst same
      rw [mine]
      exact sized
    · rw [others other same]
      exact inv.sized other
  · intro taskFn tasks apart
    have elsewhereHere : ¬ (taskFn = caller ∧ tasks = caller) := fun both => apart (both.1.trans both.2.symm)
    rw [elsewhere.begun taskFn tasks elsewhereHere, elsewhere.ended taskFn tasks elsewhereHere]
    exact inv.unmixed taskFn tasks apart

-- A step that moves the call on and touches neither another call, nor a group, nor the records.
structure Onward (s s' : Pool C) (caller : C) (state : CallState) : Prop where
  calls : s'.calls = Function.update s.calls caller state
  busy : s'.ioBusy = s.ioBusy
  helpers : s'.helpers = s.helpers
  records : SameRecords s s'

theorem Inv.plain {before : CallState} (inv : Inv requests s) (stands : s.calls caller = before)
    (idle : before.holds = true ∧ before.plain = true) (idleAfter : state.holds = true ∧ state.plain = true)
    (onward : Onward s s' caller state) (io : s'.ioInit = .starting → ∃ width, state = .ensureIoThreaded width .prepare)
    (staffed : Staffed s' caller state) (sized : Sized (requests caller) state) : Inv requests s' := by
  have grouped := inv.grouped caller
  rw [stands, plain_grouped idle.2] at grouped
  have recorded := inv.recorded caller
  rw [stands, plain_recorded idle.2] at recorded
  obtain ⟨begun, ended, next⟩ := onward.records
  apply inv.owner (by rw [stands]; exact idle.1) onward.calls idleAfter.1 onward.busy (fun other _ => by rw [onward.helpers])
    (onward.records.elsewhere caller) io staffed
  · rw [plain_grouped idleAfter.2, onward.helpers]
    exact grouped
  · rw [plain_recorded idleAfter.2]
    exact ⟨by rw [begun]; exact recorded.begun, by rw [ended]; exact recorded.ended, by rw [next]; exact recorded.next⟩
  · exact sized

omit [DecidableEq C] in
theorem Inv.io_settled (inv : Inv requests s) (holding : (s.calls caller).holds = true)
    (elsewhere : ∀ width, s.calls caller ≠ .ensureIoThreaded width .prepare) : s.ioInit ≠ .starting := by
  intro starting
  obtain ⟨other, width, same⟩ := inv.io starting
  have one := inv.alone other caller (by rw [same]; rfl) holding
  subst one
  exact elsewhere width same

omit [DecidableEq C] in
-- A worker that is not waiting for the next dispatch works for the call that holds io_busy.
theorem Inv.engaged (inv : Inv requests s) {worker : Nat} (present : s.workers worker ≠ .absent)
    (busy : ∀ seen, s.workers worker = .idle seen → seen ≠ s.generation worker) :
    ∃ caller, (s.calls caller).holds = true ∧ Engaged s caller worker := by
  have resting : ¬ Resting s := by
    intro rest
    have placed := rest.placed worker
    split at placed
    · exact busy _ placed rfl
    · exact present placed
  have taken : s.ioBusy = true := by
    by_contra free
    exact resting (inv.rest (Bool.eq_false_iff.mpr free))
  obtain ⟨caller, holding⟩ := inv.held taken
  refine ⟨caller, holding, ?_⟩
  have staffed := inv.staffed caller holding
  have assembling : ∀ submitted, Assembling s submitted → Engaged s caller worker := by
    intro submitted gathering
    by_cases inside : worker < submitted
    · exact .assembling submitted gathering inside
    · exact absurd (gathering.others worker (Nat.le_of_not_lt inside)) present
  have dispatching : ∀ width firstHelper bumped stage, s.calls caller = .runPersistent width stage →
      Dispatching s caller width firstHelper bumped → Engaged s caller worker := by
    intro width firstHelper bumped stage stands dispatch
    obtain ⟨helper, inside, rfl⟩ := dispatch.helper busy present
    exact .dispatching width firstHelper bumped helper stage stands dispatch inside rfl
  have dismissing : ∀ workerCount told, Dismissing s workerCount told → Engaged s caller worker := by
    intro workerCount told dismissal
    by_cases inside : worker < told
    · exact .dismissing workerCount told dismissal inside
    · have placed := dismissal.others worker (Nat.le_of_not_lt inside)
      split at placed
      · exact absurd rfl (busy _ placed)
      · exact absurd placed present
  cases stands : s.calls caller with
  | runPersistent width stage =>
    rw [stands] at staffed
    cases stage with
    | choose => exact absurd staffed.1 resting
    | publish firstHelper stored => exact absurd staffed.1 resting
    | bump firstHelper bumped => exact dispatching _ _ _ _ stands staffed
    | own firstHelper body => exact dispatching _ _ _ _ stands staffed
    | collect firstHelper => exact dispatching _ _ _ _ stands staffed
  | ensurePersistentWorkers width stage =>
    rw [stands] at staffed
    cases stage with
    | prepare => exact absurd (staffed.absent worker) present
    | submit helperCount submitted => exact assembling _ staffed
    | gather submitted => exact assembling _ staffed.1
    | await => exact absurd staffed not_false
    | _ => exact absurd staffed resting
  | ensureIoThreaded width stage =>
    rw [stands] at staffed
    cases stage with
    | await => exact absurd staffed not_false
    | _ => exact absurd staffed resting
  | shutdown stage =>
    rw [stands] at staffed
    cases stage with
    | look => exact absurd staffed resting
    | dismiss workerCount told => exact dismissing _ _ staffed
    | collect workerCount => exact dismissing _ _ staffed
    | await => exact dismissing _ _ staffed.1
    | reset => exact absurd (staffed worker) present
    | io => exact absurd staffed.1 resting
    | unlock => exact absurd (staffed.absent worker) present
  | start =>
    rw [stands] at holding
    cases holding
  | entering width =>
    rw [stands] at holding
    cases holding
  | returned answer =>
    rw [stands] at holding
    cases holding
  | _ =>
    rw [stands] at staffed
    exact absurd staffed resting

end Steps

end Zynum.ThreadPool
