import Zynum.Execution.ThreadPoolInvariant

set_option autoImplicit false

/- Every step of a call keeps the invariant, one function of the pool at a time. -/
namespace Zynum.ThreadPool

open JobBoard

variable {C : Type} {s : Pool C}

theorem Assembling.submits {submitted : Nat} (gathering : Assembling s submitted) :
    Assembling (s.worker submitted .starting) (submitted + 1) := by
  constructor
  · exact gathering.starting
  · exact gathering.opened
  · intro worker below
    by_cases same : worker = submitted
    · subst same
      simp only [Pool.worker, Function.update_self]
      exact True.intro
    · simpa only [Pool.worker, Function.update_of_ne same] using gathering.arriving worker (by omega)
  · intro worker beyond
    have apart : worker ≠ submitted := by omega
    simpa only [Pool.worker, Function.update_of_ne apart] using gathering.others worker (by omega)
  · change s.readyCount =
      headcount (submitted + 1) (fun worker => (Function.update s.workers submitted .starting worker).isIdle (s.generation worker))
    rw [gathering.ready, headcount_succ, Function.update_self]
    change _ = _ + 0
    rw [Nat.add_zero]
    symm
    apply headcount_congr
    intro worker below
    rw [Function.update_of_ne (Nat.ne_of_lt below)]

theorem Assembling.gathered {submitted : Nat} (gathering : Assembling s submitted) (all : submitted ≤ s.readyCount)
    (count : s.workerCount = submitted) : Resting { s with persistentInit := .ready } := by
  rw [gathering.ready] at all
  constructor
  · exact nofun
  · exact fun _ => gathering.opened
  · intro worker
    change s.workers worker = _
    by_cases employed : worker < submitted
    · have arrived := headcount_all all employed
      rw [if_pos ⟨rfl, count ▸ employed⟩]
      cases state : s.workers worker with
      | idle seen =>
        rw [state] at arrived
        exact congrArg WorkerState.idle (beq_iff_eq.mp arrived)
      | _ =>
        rw [state] at arrived
        cases arrived
    · rw [if_neg (fun both => employed (count ▸ both.2))]
      exact gathering.others worker (Nat.le_of_not_lt employed)

theorem Unstaffed.opens (empty : Unstaffed s) :
    Assembling { s with shutdownRequested := false, exitedCount := 0, readyCount := 0 } 0 :=
  ⟨empty.starting, rfl, fun _ below => absurd below (Nat.not_lt_zero _), fun worker _ => empty.absent worker, rfl⟩

theorem resting_empty (absent : ∀ worker, s.workers worker = .absent) (settled : s.persistentInit ≠ .starting)
    (unready : s.persistentInit ≠ .ready) : Resting s :=
  ⟨settled, fun ready => absurd ready unready, fun worker => by rw [absent worker, if_neg (fun both => unready both.1)]⟩

theorem Resting.empty (rest : Resting s) (unready : s.persistentInit ≠ .ready) (worker : Nat) : s.workers worker = .absent := by
  rw [rest.placed worker, if_neg (fun both => unready both.1)]

section Calls

variable [DecidableEq C] {requests : C → Request} {s' : Pool C} {caller : C} {width : Nat} {accepted : Bool}

theorem ensure_persistent_workers_keeps {stage : EnsureStage} (inv : Inv requests s)
    (stands : s.calls caller = .ensurePersistentWorkers width stage)
    (taken : ensurePersistentWorkers accepted s caller width stage = some s') : Inv requests s' := by
  have holding : (s.calls caller).holds = true := by rw [stands]; rfl
  have sized := inv.sized caller
  have staffed := inv.staffed caller holding
  have io := inv.io_settled holding (fun _ => by rw [stands]; exact nofun)
  rw [stands] at sized staffed
  cases stage with
  | check =>
    have rest : Resting s := staffed
    simp only [ensurePersistentWorkers] at taken
    split at taken <;> cases taken
    · exact inv.plain stands ⟨rfl, rfl⟩ ⟨rfl, rfl⟩ ⟨rfl, rfl, rfl, rfl, rfl, rfl⟩ (fun starting => absurd starting io)
        ⟨rest.settled, rest.opened, rest.placed⟩ sized
    · exact inv.plain stands ⟨rfl, rfl⟩ ⟨rfl, rfl⟩ ⟨rfl, rfl, rfl, rfl, rfl, rfl⟩ (fun starting => absurd starting io)
        ⟨rest.settled, rest.opened, rest.placed⟩ sized
  | look =>
    have rest : Resting s := staffed
    cases init : s.persistentInit with
    | ready =>
      simp only [ensurePersistentWorkers, init] at taken
      cases taken
      exact inv.plain stands ⟨rfl, rfl⟩ ⟨rfl, rfl⟩ ⟨rfl, rfl, rfl, rfl, rfl, rfl⟩ (fun starting => absurd starting io)
        ⟨⟨rest.settled, rest.opened, rest.placed⟩, init⟩ sized
    | failed =>
      simp only [ensurePersistentWorkers, init] at taken
      cases taken
      exact inv.plain stands ⟨rfl, rfl⟩ ⟨rfl, rfl⟩ ⟨rfl, rfl, rfl, rfl, rfl, rfl⟩ (fun starting => absurd starting io)
        ⟨rest.settled, rest.opened, rest.placed⟩ sized
    | cold =>
      simp only [ensurePersistentWorkers, init] at taken
      cases taken
      exact inv.plain stands ⟨rfl, rfl⟩ ⟨rfl, rfl⟩ ⟨rfl, rfl, rfl, rfl, rfl, rfl⟩ (fun starting => absurd starting io)
        ⟨rfl, rest.empty (by rw [init]; exact nofun)⟩ sized
    | starting => exact absurd init rest.settled
  | await => exact absurd staffed not_false
  | prepare =>
    have empty : Unstaffed s := staffed
    simp only [ensurePersistentWorkers] at taken
    split at taken <;> cases taken
    · exact inv.plain stands ⟨rfl, rfl⟩ ⟨rfl, rfl⟩ ⟨rfl, rfl, rfl, rfl, rfl, rfl⟩ (fun starting => absurd starting io)
        (resting_empty empty.absent nofun nofun) sized
    · have opened := empty.opens
      exact inv.plain stands ⟨rfl, rfl⟩ ⟨rfl, rfl⟩ ⟨rfl, rfl, rfl, rfl, rfl, rfl⟩ (fun starting => absurd starting io)
        ⟨opened.starting, opened.opened, opened.arriving, opened.others, opened.ready⟩ sized
  | submit helperCount submitted =>
    have gathering : Assembling s submitted := staffed
    simp only [ensurePersistentWorkers] at taken
    split at taken
    · cases taken
      have submits := gathering.submits
      exact inv.plain stands ⟨rfl, rfl⟩ ⟨rfl, rfl⟩ ⟨rfl, rfl, rfl, rfl, rfl, rfl⟩ (fun starting => absurd starting io)
        ⟨submits.starting, submits.opened, submits.arriving, submits.others, submits.ready⟩ sized
    · split at taken <;> cases taken
      · rename_i nobody
        exact inv.plain stands ⟨rfl, rfl⟩ ⟨rfl, rfl⟩ ⟨rfl, rfl, rfl, rfl, rfl, rfl⟩ (fun starting => absurd starting io)
          (resting_empty (fun worker => gathering.others worker (by omega)) nofun nofun) sized
      · exact inv.plain stands ⟨rfl, rfl⟩ ⟨rfl, rfl⟩ ⟨rfl, rfl, rfl, rfl, rfl, rfl⟩ (fun starting => absurd starting io)
          ⟨⟨gathering.starting, gathering.opened, gathering.arriving, gathering.others, gathering.ready⟩, rfl⟩ sized
  | gather submitted =>
    obtain ⟨gathering, count⟩ : Assembling s submitted ∧ s.workerCount = submitted := staffed
    simp only [ensurePersistentWorkers] at taken
    split at taken <;> cases taken
    rename_i all
    have rest := gathering.gathered all count
    exact inv.plain stands ⟨rfl, rfl⟩ ⟨rfl, rfl⟩ ⟨rfl, rfl, rfl, rfl, rfl, rfl⟩ (fun starting => absurd starting io)
      ⟨⟨rest.settled, rest.opened, rest.placed⟩, rfl⟩ sized

theorem ensure_io_threaded_keeps {stage : EnsureIoStage} (inv : Inv requests s)
    (stands : s.calls caller = .ensureIoThreaded width stage) (taken : ensureIoThreaded s caller width stage = some s') :
    Inv requests s' := by
  have holding : (s.calls caller).holds = true := by rw [stands]; rfl
  have sized := inv.sized caller
  have staffed := inv.staffed caller holding
  rw [stands] at sized staffed
  have wide : Wide (requests caller) width := sized
  cases stage with
  | check =>
    have rest : Resting s := staffed
    have io := inv.io_settled holding (fun _ => by rw [stands]; exact nofun)
    simp only [ensureIoThreaded] at taken
    split at taken <;> cases taken
    · exact inv.plain stands ⟨rfl, rfl⟩ ⟨rfl, rfl⟩ ⟨rfl, rfl, rfl, rfl, rfl, rfl⟩ (fun starting => absurd starting io)
        ⟨rest.settled, rest.opened, rest.placed⟩ True.intro
    · exact inv.plain stands ⟨rfl, rfl⟩ ⟨rfl, rfl⟩ ⟨rfl, rfl, rfl, rfl, rfl, rfl⟩ (fun starting => absurd starting io)
        ⟨rest.settled, rest.opened, rest.placed⟩ wide
  | look =>
    have rest : Resting s := staffed
    have io := inv.io_settled holding (fun _ => by rw [stands]; exact nofun)
    cases init : s.ioInit with
    | ready =>
      simp only [ensureIoThreaded, init] at taken
      cases taken
      exact inv.plain stands ⟨rfl, rfl⟩ ⟨rfl, rfl⟩ ⟨rfl, rfl, rfl, rfl, rfl, rfl⟩ (fun starting => absurd starting io)
        ⟨rest.settled, rest.opened, rest.placed⟩ ⟨wide, True.intro⟩
    | failed =>
      simp only [ensureIoThreaded, init] at taken
      cases taken
      exact inv.plain stands ⟨rfl, rfl⟩ ⟨rfl, rfl⟩ ⟨rfl, rfl, rfl, rfl, rfl, rfl⟩ (fun starting => absurd starting io)
        ⟨rest.settled, rest.opened, rest.placed⟩ True.intro
    | cold =>
      simp only [ensureIoThreaded, init] at taken
      cases taken
      exact inv.plain stands ⟨rfl, rfl⟩ ⟨rfl, rfl⟩ ⟨rfl, rfl, rfl, rfl, rfl, rfl⟩ (fun _ => ⟨width, rfl⟩)
        ⟨rest.settled, rest.opened, rest.placed⟩ wide
    | starting => exact absurd init io
  | await => exact absurd staffed not_false
  | prepare =>
    have rest : Resting s := staffed
    simp only [ensureIoThreaded] at taken
    split at taken <;> cases taken
    · exact inv.plain stands ⟨rfl, rfl⟩ ⟨rfl, rfl⟩ ⟨rfl, rfl, rfl, rfl, rfl, rfl⟩ nofun
        ⟨rest.settled, rest.opened, rest.placed⟩ True.intro
    · exact inv.plain stands ⟨rfl, rfl⟩ ⟨rfl, rfl⟩ ⟨rfl, rfl, rfl, rfl, rfl, rfl⟩ nofun
        ⟨rest.settled, rest.opened, rest.placed⟩ ⟨wide, True.intro⟩

omit [DecidableEq C] in
theorem Published.stores {firstHelper stored : Nat} (published : Published s caller width firstHelper stored) (more : stored < 7) :
    Published (publish caller width firstHelper stored s) caller width firstHelper (stored + 1) := by
  obtain ⟨taskFn, tasks, jobCount, doneCount, doneTarget, first, activeHelpers⟩ := published
  have cases : stored = 0 ∨ stored = 1 ∨ stored = 2 ∨ stored = 3 ∨ stored = 4 ∨ stored = 5 ∨ stored = 6 := by omega
  obtain rfl | rfl | rfl | rfl | rfl | rfl | rfl := cases <;> constructor <;> simp_all [publish]

omit [DecidableEq C] in
theorem publish_frame (caller : C) (width firstHelper stored : Nat) (s : Pool C) :
    ∃ taskFn tasks jobCount doneCount doneTarget first activeHelpers, publish caller width firstHelper stored s = { s with
      taskFn := taskFn, tasks := tasks, jobCount := jobCount, doneCount := doneCount, doneTarget := doneTarget,
      firstHelper := first, activeHelpers := activeHelpers } := by
  unfold publish
  split <;> exact ⟨_, _, _, _, _, _, _, rfl⟩

omit [DecidableEq C] in
theorem Resting.dispatches {firstHelper : Nat} (rest : Resting s) (ready : s.persistentInit = .ready)
    (fits : firstHelper + (width - 1) ≤ s.workerCount) {stored : Nat} (published : Published s caller width firstHelper stored)
    (all : 7 ≤ stored) : Dispatching s caller width firstHelper 0 := by
  constructor
  · exact ready
  · exact rest.opened ready
  · exact fits
  · exact Nat.zero_le _
  · exact published.taskFn (by omega)
  · exact published.tasks (by omega)
  · exact published.jobCount (by omega)
  · exact published.doneTarget (by omega)
  · exact published.firstHelper (by omega)
  · exact published.activeHelpers (by omega)
  · exact fun _ below => absurd below (Nat.not_lt_zero _)
  · intro worker _
    rw [rest.placed worker]
    simp only [ready, true_and]
  · exact published.doneCount (by omega)

omit [DecidableEq C] in
theorem Dispatching.bumps {firstHelper bumped : Nat} (dispatch : Dispatching s caller width firstHelper bumped)
    (more : bumped < width - 1) : Dispatching (s.bump (firstHelper + bumped)) caller width firstHelper (bumped + 1) := by
  have fits := dispatch.fits
  have idle := dispatch.others (firstHelper + bumped) (Or.inr (Nat.le_refl _))
  rw [if_pos (by omega)] at idle
  have apart : ∀ worker, worker ≠ firstHelper + bumped → (s.bump (firstHelper + bumped)).generation worker = s.generation worker :=
    fun worker other => Function.update_of_ne other _ _
  have here : (s.bump (firstHelper + bumped)).generation (firstHelper + bumped) = s.generation (firstHelper + bumped) + 1 :=
    Function.update_self _ _ _
  constructor
  · exact dispatch.ready
  · exact dispatch.opened
  · exact dispatch.fits
  · exact more
  · exact dispatch.taskFn
  · exact dispatch.tasks
  · exact dispatch.jobCount
  · exact dispatch.doneTarget
  · exact dispatch.first
  · exact dispatch.activeHelpers
  · intro helper below
    change Serving caller width (helper + 1) _ (s.workers (firstHelper + helper))
    by_cases last : helper = bumped
    · subst last
      rw [here, idle]
      exact Or.inr rfl
    · rw [apart _ (by omega)]
      exact dispatch.serving helper (by omega)
  · intro worker outside
    change s.workers worker = if worker < s.workerCount then _ else _
    rw [apart _ (by omega)]
    exact dispatch.others worker (by omega)
  · change s.doneCount = headcount (bumped + 1) (fun helper => (s.workers (firstHelper + helper)).isIdle _)
    rw [dispatch.done, headcount_succ, here, idle]
    have behind : (WorkerState.idle (s.generation (firstHelper + bumped)) : WorkerState C).isIdle
        (s.generation (firstHelper + bumped) + 1) = false :=
      beq_eq_false_iff_ne.mpr (Ne.symm (bumped_differs _))
    rw [behind]
    change _ = _ + 0
    rw [Nat.add_zero]
    apply headcount_congr
    intro helper below
    rw [apart _ (by omega)]

omit [DecidableEq C] in
theorem Dispatching.records {firstHelper bumped : Nat} (dispatch : Dispatching s caller width firstHelper bumped)
    (begun ended : C → C → List Nat) (next : C → Nat) :
    Dispatching { s with begun := begun, ended := ended, next := next } caller width firstHelper bumped :=
  ⟨dispatch.ready, dispatch.opened, dispatch.fits, dispatch.within, dispatch.taskFn, dispatch.tasks, dispatch.jobCount,
    dispatch.doneTarget, dispatch.first, dispatch.activeHelpers, dispatch.serving, dispatch.others, dispatch.done⟩

omit [DecidableEq C] in
theorem Dispatching.bumped_slots {firstHelper bumped : Nat} (dispatch : Dispatching s caller width firstHelper bumped)
    (more : bumped < width - 1) :
    crew .waiting (bumped + 1) (helperSlots (s.bump (firstHelper + bumped)) firstHelper) =
      crew .waiting bumped (helperSlots s firstHelper) := by
  have fits := dispatch.fits
  have idle := dispatch.others (firstHelper + bumped) (Or.inr (Nat.le_refl _))
  rw [if_pos (by omega)] at idle
  have behind : helperSlots (s.bump (firstHelper + bumped)) firstHelper bumped = .waiting := by
    have apart : s.generation (firstHelper + bumped) ≠ s.generation (firstHelper + bumped) + 1 := Ne.symm (bumped_differs _)
    change WorkerState.slot (Function.update s.generation _ _ _) (s.workers (firstHelper + bumped)) = _
    rw [Function.update_self, idle, WorkerState.slot, if_neg apart]
  rw [crew_wait _ _ _ behind]
  apply crew_congr
  intro helper below
  change WorkerState.slot (Function.update s.generation _ _ _) (s.workers (firstHelper + helper)) = _
  rw [Function.update_of_ne (by omega), helperSlots]

omit [DecidableEq C] in
theorem Untouched.board (untouched : Untouched s caller) (others : Nat → Slot) :
    BoardOf requests caller (crew .waiting 0 others) s := by
  rw [BoardOf, untouched.begun, untouched.ended, untouched.next, crew_nobody]
  exact board_opened (requests caller)

theorem Dispatching.onCall {firstHelper bumped : Nat} {state : CallState} (dispatch : Dispatching s caller width firstHelper bumped) :
    Dispatching (s.call caller state) caller width firstHelper bumped :=
  ⟨dispatch.ready, dispatch.opened, dispatch.fits, dispatch.within, dispatch.taskFn, dispatch.tasks, dispatch.jobCount,
    dispatch.doneTarget, dispatch.first, dispatch.activeHelpers, dispatch.serving, dispatch.others, dispatch.done⟩

omit [DecidableEq C] in
theorem helper_over {firstHelper helper : Nat}
    (all : width - 1 ≤ headcount (width - 1)
      (fun helper => (s.workers (firstHelper + helper)).isIdle (s.generation (firstHelper + helper)))) (below : helper < width - 1) :
    helperSlots s firstHelper helper = .spent := by
  have idle := headcount_all all below
  cases state : s.workers (firstHelper + helper) with
  | idle seen =>
    rw [state] at idle
    rw [helperSlots, state, WorkerState.slot, if_pos (beq_iff_eq.mp idle)]
  | _ =>
    rw [state] at idle
    cases idle

omit [DecidableEq C] in
theorem Dispatching.collected {firstHelper : Nat} (dispatch : Dispatching s caller width firstHelper (width - 1))
    (all : width - 1 ≤ headcount (width - 1)
      (fun helper => (s.workers (firstHelper + helper)).isIdle (s.generation (firstHelper + helper)))) : Resting s := by
  have fits := dispatch.fits
  constructor
  · rw [dispatch.ready]
    exact nofun
  · exact fun _ => dispatch.opened
  · intro worker
    simp only [dispatch.ready, true_and]
    by_cases outside : worker < firstHelper ∨ firstHelper + (width - 1) ≤ worker
    · exact dispatch.others worker outside
    · have helper : worker = firstHelper + (worker - firstHelper) := by omega
      have idle := headcount_all all (show worker - firstHelper < width - 1 by omega)
      simp only [← helper] at idle
      rw [if_pos (by omega)]
      cases state : s.workers worker with
      | idle seen =>
        rw [state] at idle
        exact congrArg WorkerState.idle (beq_iff_eq.mp idle)
      | _ =>
        rw [state] at idle
        cases idle

theorem own_board {size : Nat} {others : Nat → Slot} {body : Body} (board : BoardOf requests caller (crew body.slot size others) s) :
    BoardOf requests caller (crew (restSlot (callTask requests s caller caller 0 body).2) size others)
      (callTask requests s caller caller 0 body).1 := by
  have moved := call_task_board requests s caller 0 body (crew body.slot size others) rfl board
  rw [crew_own] at moved
  exact moved

theorem run_persistent_keeps {stage : PersistentStage} (inv : Inv requests s) (stands : s.calls caller = .runPersistent width stage)
    (taken : runPersistent requests s caller width stage = some s') : Inv requests s' := by
  have holding : (s.calls caller).holds = true := by rw [stands]; rfl
  have sized := inv.sized caller
  have staffed := inv.staffed caller holding
  have recorded := inv.recorded caller
  have grouped := inv.grouped caller
  have io := inv.io_settled holding (fun _ => by rw [stands]; exact nofun)
  rw [stands] at sized staffed recorded grouped
  have wide : Wide (requests caller) width := sized
  cases stage with
  | choose =>
    obtain ⟨rest, ready⟩ : Resting s ∧ s.persistentInit = .ready := staffed
    have back : Inv requests (s.call caller (.ensureIoThreaded width .check)) :=
      inv.plain stands ⟨rfl, rfl⟩ ⟨rfl, rfl⟩ ⟨rfl, rfl, rfl, rfl, rfl, rfl⟩ (fun starting => absurd starting io)
        ⟨rest.settled, rest.opened, rest.placed⟩ wide
    simp only [runPersistent] at taken
    split at taken
    · cases taken
      exact back
    split at taken
    · cases taken
      exact back
    split at taken <;> cases taken
    · exact back
    · rename_i enough _
      have fits : (if width = 3 ∧ width - 1 + 2 ≤ s.workerCount then 2 else 0) + (width - 1) ≤ s.workerCount := by
        split <;> omega
      exact inv.plain stands ⟨rfl, rfl⟩ ⟨rfl, rfl⟩ ⟨rfl, rfl, rfl, rfl, rfl, rfl⟩ (fun starting => absurd starting io)
        ⟨⟨rest.settled, rest.opened, rest.placed⟩, ready, fits, ⟨nofun, nofun, nofun, nofun, nofun, nofun, nofun⟩⟩ wide
  | publish firstHelper stored =>
    obtain ⟨rest, ready, fits, published⟩ : Resting s ∧ s.persistentInit = .ready ∧ firstHelper + (width - 1) ≤ s.workerCount ∧
      Published s caller width firstHelper stored := staffed
    simp only [runPersistent] at taken
    split at taken <;> cases taken
    · rename_i more
      have stores := published.stores more
      obtain ⟨_, _, _, _, _, _, _, effect⟩ := publish_frame caller width firstHelper stored s
      rw [effect] at stores ⊢
      exact inv.plain stands ⟨rfl, rfl⟩ ⟨rfl, rfl⟩ ⟨rfl, rfl, rfl, rfl, rfl, rfl⟩ (fun starting => absurd starting io)
        ⟨⟨rest.settled, rest.opened, rest.placed⟩, ready, fits, ⟨stores.taskFn, stores.tasks, stores.jobCount, stores.doneCount,
          stores.doneTarget, stores.firstHelper, stores.activeHelpers⟩⟩ wide
    · rename_i all
      have dispatch := rest.dispatches ready fits published (Nat.le_of_not_lt all)
      exact inv.owner holding rfl rfl rfl (fun _ _ => rfl) ⟨fun _ _ _ => rfl, fun _ _ _ => rfl, fun _ _ => rfl⟩
        (fun starting => absurd starting io) dispatch.onCall grouped (Untouched.board recorded _) wide
  | bump firstHelper bumped =>
    have dispatch : Dispatching s caller width firstHelper bumped := staffed
    simp only [runPersistent] at taken
    split at taken <;> cases taken
    · rename_i more
      refine inv.owner holding rfl rfl rfl (fun _ _ => rfl) ⟨fun _ _ _ => rfl, fun _ _ _ => rfl, fun _ _ => rfl⟩
        (fun starting => absurd starting io) (dispatch.bumps more).onCall grouped ?_ wide
      have board : BoardOf requests caller (crew .waiting bumped (helperSlots s firstHelper)) s := recorded
      rw [← dispatch.bumped_slots more] at board
      exact board
    · rename_i all
      have complete : bumped = width - 1 := Nat.le_antisymm dispatch.within (Nat.le_of_not_lt all)
      subst complete
      refine inv.owner holding rfl rfl rfl (fun _ _ => rfl) ⟨fun _ _ _ => rfl, fun _ _ _ => rfl, fun _ _ => rfl⟩
        (fun starting => absurd starting io) dispatch.onCall grouped ?_ wide
      have first : crew .waiting (width - 1) (helperSlots s firstHelper) 0 = .waiting := rfl
      have called := Board.enters recorded first (fun direct => by rw [wide.fits direct]; have := wide.wide; omega)
      rw [crew_own] at called
      exact called
  | own firstHelper body =>
    have dispatch : Dispatching s caller width firstHelper (width - 1) := staffed
    have board := own_board recorded
    have elsewhere := call_task_elsewhere requests s caller 0 body
    obtain ⟨begun, ended, next, effect⟩ := call_task_frame requests s caller caller 0 body
    rw [effect] at board elsewhere
    cases rest : (callTask requests s caller caller 0 body).2 with
    | some body =>
      simp only [runPersistent, rest, effect] at taken
      rw [rest] at board
      cases taken
      exact inv.owner holding rfl rfl rfl (fun _ _ => rfl) ⟨elsewhere.begun, elsewhere.ended, elsewhere.next⟩
        (fun starting => absurd starting io) (dispatch.records begun ended next).onCall grouped board wide
    | none =>
      simp only [runPersistent, rest, effect] at taken
      rw [rest] at board
      cases taken
      exact inv.owner holding rfl rfl rfl (fun _ _ => rfl) ⟨elsewhere.begun, elsewhere.ended, elsewhere.next⟩
        (fun starting => absurd starting io) (dispatch.records begun ended next).onCall grouped board wide
  | collect firstHelper =>
    have dispatch : Dispatching s caller width firstHelper (width - 1) := staffed
    simp only [runPersistent] at taken
    split at taken <;> cases taken
    rename_i all
    rw [dispatch.doneTarget, dispatch.done] at all
    have rest := dispatch.collected all
    exact inv.owner holding rfl rfl rfl (fun _ _ => rfl) ⟨fun _ _ _ => rfl, fun _ _ _ => rfl, fun _ _ => rfl⟩
      (fun starting => absurd starting io) ⟨rest.settled, rest.opened, rest.placed⟩
      (fun helper => congrArg HelperState.isRunning (grouped helper))
      (Board.complete recorded (by have := wide.wide; omega) wide.fits (fun _ below => helper_over all below)) True.intro

omit [DecidableEq C] in
theorem helper_slot_spent {state : HelperState} (still : state.isRunning = false) : state.slot = .spent := by
  cases state with
  | running body => cases still
  | _ => rfl

omit [DecidableEq C] in
theorem Spread.absent {helpers : Nat → HelperState} {index helper : Nat} {submitted : Bool} (spread : Spread helpers index submitted)
    (beyond : index ≤ helper) : helpers helper = .absent := by
  by_contra present
  have within := spread.within helper present
  omega

omit [DecidableEq C] in
theorem Spread.submits {helpers : Nat → HelperState} {index : Nat} {submitted : Bool} (spread : Spread helpers index submitted)
    (some : 0 < index) (state : HelperState) : Spread (Function.update helpers index state) (index + 1) true := by
  constructor
  · intro helper present
    by_cases same : helper = index
    · subst same
      exact ⟨some, Nat.lt_succ_self helper⟩
    · rw [Function.update_of_ne same] at present
      have within := spread.within helper present
      exact ⟨within.1, Nat.lt_succ_of_lt within.2⟩
  · exact nofun

omit [DecidableEq C] in
theorem Spread.skips {helpers : Nat → HelperState} {index : Nat} {submitted : Bool} (spread : Spread helpers index submitted) :
    Spread helpers (index + 1) submitted := by
  constructor
  · intro helper present
    have within := spread.within helper present
    exact ⟨within.1, Nat.lt_succ_of_lt within.2⟩
  · exact spread.nobody

omit [DecidableEq C] in
theorem submitted_slots (helpers : Nat → HelperState) {index : Nat} (some : 0 < index) :
    crew .waiting (index + 1 - 1) (groupSlots (Function.update helpers index (.running .called))) =
      Function.update (crew .waiting (index - 1) (groupSlots helpers)) index .called := by
  cases index with
  | zero => cases some
  | succ past =>
    have called : groupSlots (Function.update helpers (past + 1) (.running .called)) past = .called := by
      rw [groupSlots, Function.update_self]
      rfl
    have others : crew .waiting past (groupSlots (Function.update helpers (past + 1) (.running .called))) =
        crew .waiting past (groupSlots helpers) := by
      apply crew_congr
      intro helper below
      rw [groupSlots, Function.update_of_ne (by omega), groupSlots]
    rw [Nat.add_sub_cancel, Nat.add_sub_cancel, crew_grow, called, others]

omit [DecidableEq C] in
theorem inlined_slots (helpers : Nat → HelperState) {index : Nat} (some : 0 < index) (absent : helpers index = .absent) :
    Function.update (crew .waiting (index - 1) (groupSlots helpers)) index .spent = crew .waiting (index + 1 - 1)
    (groupSlots helpers) := by
  cases index with
  | zero => cases some
  | succ past =>
    rw [Nat.add_sub_cancel, Nat.add_sub_cancel, crew_grow, groupSlots, absent]
    rfl

omit [DecidableEq C] in
theorem next_waiting (own : Slot) (others : Nat → Slot) {index : Nat} (some : 0 < index) : crew own (index - 1) others
    index = .waiting := by
  cases index with
  | zero => cases some
  | succ past => rw [crew, if_neg (by omega)]

theorem run_group_keeps {stage : GroupStage} (inv : Inv requests s) (stands : s.calls caller = .runGroup width stage)
    (taken : runGroup requests accepted s caller width stage = some s') : Inv requests s' := by
  have holding : (s.calls caller).holds = true := by rw [stands]; rfl
  have sized := inv.sized caller
  have staffed := inv.staffed caller holding
  have recorded := inv.recorded caller
  have grouped := inv.grouped caller
  have io := inv.io_settled holding (fun _ => by rw [stands]; exact nofun)
  rw [stands] at sized staffed recorded grouped
  obtain ⟨wide, within⟩ : Wide (requests caller) width ∧ stage.Within width := sized
  have two := wide.wide
  have rest : Resting s := staffed
  cases stage with
  | grant =>
    simp only [runGroup] at taken
    split at taken <;> cases taken
    · exact inv.plain stands ⟨rfl, rfl⟩ ⟨rfl, rfl⟩ ⟨rfl, rfl, rfl, rfl, rfl, rfl⟩ (fun starting => absurd starting io)
        ⟨rest.settled, rest.opened, rest.placed⟩ True.intro
    · have absent : ∀ helper, s.helpers caller helper = .absent := grouped
      have nobody : Spread (s.helpers caller) 1 false := ⟨fun helper present => absurd (absent helper) present, fun _ => absent⟩
      exact inv.owner holding rfl rfl rfl (fun _ _ => rfl) ⟨fun _ _ _ => rfl, fun _ _ _ => rfl, fun _ _ => rfl⟩
        (fun starting => absurd starting io) ⟨rest.settled, rest.opened, rest.placed⟩ nobody (Untouched.board recorded _)
        ⟨wide, by constructor <;> omega⟩
  | submit index submitted =>
    have spread : Spread (s.helpers caller) index submitted := grouped
    have board : BoardOf requests caller (crew .waiting (index - 1) (groupSlots (s.helpers caller))) s := recorded
    obtain ⟨some, bounded⟩ : 0 < index ∧ index ≤ width := within
    simp only [runGroup] at taken
    split at taken
    · rename_i more
      have called := Board.enters board (next_waiting .waiting _ some) (fun direct => by rw [wide.fits direct]; exact more)
      split at taken <;> cases taken
      · refine inv.owner holding rfl rfl rfl (fun _ apart => Function.update_of_ne apart _ _)
          ⟨fun _ _ _ => rfl, fun _ _ _ => rfl, fun _ _ => rfl⟩ (fun starting => absurd starting io)
          ⟨rest.settled, rest.opened, rest.placed⟩ ?_ ?_ ⟨wide, Nat.succ_pos index, more⟩
        · change Grouped (Function.update s.helpers caller _ caller) _
          rw [Function.update_self]
          exact spread.submits some _
        · change BoardOf requests caller (crew .waiting (index + 1 - 1) (groupSlots (Function.update s.helpers caller _ caller))) _
          rw [Function.update_self, submitted_slots _ some]
          exact called
      · exact inv.owner holding rfl rfl rfl (fun _ _ => rfl) ⟨fun _ _ _ => rfl, fun _ _ _ => rfl, fun _ _ => rfl⟩
          (fun starting => absurd starting io) ⟨rest.settled, rest.opened, rest.placed⟩ spread called ⟨wide, some, more⟩
    · rename_i all
      have complete : index = width := Nat.le_antisymm bounded (Nat.le_of_not_lt all)
      subst complete
      cases taken
      have first : crew .waiting (index - 1) (groupSlots (s.helpers caller)) 0 = .waiting := rfl
      have called := Board.enters board first (fun direct => by rw [wide.fits direct]; exact some)
      rw [crew_own] at called
      exact inv.owner holding rfl rfl rfl (fun _ _ => rfl) ⟨fun _ _ _ => rfl, fun _ _ _ => rfl, fun _ _ => rfl⟩
        (fun starting => absurd starting io) ⟨rest.settled, rest.opened, rest.placed⟩ spread called ⟨wide, True.intro⟩
  | inline index submitted body =>
    have spread : Spread (s.helpers caller) index submitted := grouped
    obtain ⟨some, bounded⟩ : 0 < index ∧ index < width := within
    have board := call_task_board requests s caller index body _ (Function.update_self _ _ _) recorded
    rw [Function.update_idem] at board
    have elsewhere := call_task_elsewhere requests s caller index body
    obtain ⟨begun, ended, next, effect⟩ := call_task_frame requests s caller caller index body
    rw [effect] at board elsewhere
    cases result : (callTask requests s caller caller index body).2 with
    | some body =>
      simp only [runGroup, result, effect] at taken
      rw [result] at board
      cases taken
      exact inv.owner holding rfl rfl rfl (fun _ _ => rfl) ⟨elsewhere.begun, elsewhere.ended, elsewhere.next⟩
        (fun starting => absurd starting io) ⟨rest.settled, rest.opened, rest.placed⟩ spread board ⟨wide, some, bounded⟩
    | none =>
      simp only [runGroup, result, effect] at taken
      rw [result, restSlot, inlined_slots _ some (spread.absent (Nat.le_refl index))] at board
      cases taken
      exact inv.owner holding rfl rfl rfl (fun _ _ => rfl) ⟨elsewhere.begun, elsewhere.ended, elsewhere.next⟩
        (fun starting => absurd starting io) ⟨rest.settled, rest.opened, rest.placed⟩ spread.skips board
        ⟨wide, Nat.succ_pos index, bounded⟩
  | own submitted body =>
    have spread : Spread (s.helpers caller) width submitted := grouped
    have board := own_board recorded
    have elsewhere := call_task_elsewhere requests s caller 0 body
    obtain ⟨begun, ended, next, effect⟩ := call_task_frame requests s caller caller 0 body
    rw [effect] at board elsewhere
    cases result : (callTask requests s caller caller 0 body).2 with
    | some body =>
      simp only [runGroup, result, effect] at taken
      rw [result] at board
      cases taken
      exact inv.owner holding rfl rfl rfl (fun _ _ => rfl) ⟨elsewhere.begun, elsewhere.ended, elsewhere.next⟩
        (fun starting => absurd starting io) ⟨rest.settled, rest.opened, rest.placed⟩ spread board ⟨wide, True.intro⟩
    | none =>
      simp only [runGroup, result, effect] at taken
      rw [result] at board
      cases submitted with
      | true =>
        cases taken
        exact inv.owner holding rfl rfl rfl (fun _ _ => rfl) ⟨elsewhere.begun, elsewhere.ended, elsewhere.next⟩
          (fun starting => absurd starting io) ⟨rest.settled, rest.opened, rest.placed⟩ spread board ⟨wide, True.intro⟩
      | false =>
        cases taken
        have absent := spread.nobody rfl
        exact inv.owner holding rfl rfl rfl (fun _ _ => rfl) ⟨elsewhere.begun, elsewhere.ended, elsewhere.next⟩
          (fun starting => absurd starting io) ⟨rest.settled, rest.opened, rest.placed⟩
          (fun helper => congrArg HelperState.isRunning (absent helper))
          (Board.complete board (by omega) wide.fits (fun helper _ => helper_slot_spent (congrArg HelperState.isRunning (absent _))))
          True.intro
  | await =>
    have spread : Spread (s.helpers caller) width true := grouped
    simp only [runGroup] at taken
    split at taken <;> cases taken
    rename_i finished
    have still : ∀ helper, (s.helpers caller helper).isRunning = false := by
      intro helper
      by_cases inside : helper < width
      · exact finished helper inside
      · rw [spread.absent (Nat.le_of_not_lt inside)]
        rfl
    exact inv.owner holding rfl rfl rfl (fun _ _ => rfl) ⟨fun _ _ _ => rfl, fun _ _ _ => rfl, fun _ _ => rfl⟩
      (fun starting => absurd starting io) ⟨rest.settled, rest.opened, rest.placed⟩ still
      (Board.complete recorded (by omega) wide.fits (fun helper _ => helper_slot_spent (still _))) True.intro

omit [DecidableEq C] in
theorem Resting.dismisses (rest : Resting s) (ready : s.persistentInit = .ready) :
    Dismissing { s with shutdownRequested := true, exitedCount := 0 } s.workerCount 0 := by
  constructor
  · exact ready
  · rfl
  · rfl
  · exact Nat.zero_le _
  · exact fun _ below => absurd below (Nat.not_lt_zero _)
  · intro worker _
    have placed := rest.placed worker
    simp only [ready, true_and] at placed
    exact placed
  · rfl

omit [DecidableEq C] in
theorem Dismissing.bumps {workerCount told : Nat} (dismissal : Dismissing s workerCount told) (more : told < workerCount) :
    Dismissing (s.bump told) workerCount (told + 1) := by
  have idle := dismissal.others told (Nat.le_refl told)
  rw [if_pos more] at idle
  constructor
  · exact dismissal.ready
  · exact dismissal.asked
  · exact dismissal.count
  · exact more
  · intro worker below
    change Leaving (Function.update s.generation told _ worker) (s.workers worker)
    by_cases last : worker = told
    · subst last
      rw [Function.update_self, idle]
      rfl
    · rw [Function.update_of_ne last]
      exact dismissal.leaving worker (by omega)
  · intro worker beyond
    change s.workers worker = if worker < workerCount then .idle (Function.update s.generation told _ worker) else .absent
    rw [Function.update_of_ne (by omega)]
    exact dismissal.others worker (by omega)
  · change s.exitedCount = _
    rw [dismissal.gone, headcount_succ]
    change _ = headcount told (fun worker => (s.workers worker).isGone) + if (s.workers told).isGone = true then 1 else 0
    rw [idle]
    rfl

omit [DecidableEq C] in
theorem Dismissing.finished {workerCount : Nat} (dismissal : Dismissing s workerCount workerCount)
    (absent : ∀ worker, worker < s.workerCount → s.workers worker = .absent) (worker : Nat) : s.workers worker = .absent := by
  by_cases employed : worker < workerCount
  · exact absent worker (by rw [dismissal.count]; exact employed)
  · have placed := dismissal.others worker (Nat.le_of_not_lt employed)
    rw [if_neg employed] at placed
    exact placed

theorem Inv.release {answer : Bool} (inv : Inv requests s) (holding : (s.calls caller).holds = true) (settled : s.ioInit ≠ .starting)
    (rest : Resting s) (grouped : Grouped (s.helpers caller) (.returned answer))
    (recorded : Recorded requests s caller (.returned answer)) :
    Inv requests ({ s with ioBusy := false }.call caller (.returned answer)) := by
  have others : ∀ other, other ≠ caller → ({ s with ioBusy := false }.call caller (.returned answer)).calls other = s.calls other :=
    fun other apart => Function.update_of_ne apart _ _
  have mine : ({ s with ioBusy := false }.call caller (.returned answer)).calls caller = .returned answer :=
    Function.update_self _ _ _
  have nobody : ∀ other, (({ s with ioBusy := false }.call caller (.returned answer)).calls other).holds = false := by
    intro other
    by_cases same : other = caller
    · subst same
      rw [mine]
      rfl
    · rw [others other same]
      cases holds : (s.calls other).holds with
      | true => exact absurd (inv.alone other caller holds holding) same
      | false => rfl
  have never : ∀ other, (({ s with ioBusy := false }.call caller (.returned answer)).calls other).holds ≠ true :=
    fun other holds => by
    rw [nobody other] at holds
    cases holds
  constructor
  · exact fun first _ holds _ => absurd holds (never first)
  · exact fun other holds => absurd holds (never other)
  · exact nofun
  · exact fun _ => ⟨rest.settled, rest.opened, rest.placed⟩
  · exact fun starting => absurd starting settled
  · exact fun other holds => absurd holds (never other)
  · intro other
    by_cases same : other = caller
    · subst same
      rw [mine]
      exact grouped
    · rw [others other same]
      exact inv.grouped other
  · intro other
    by_cases same : other = caller
    · subst same
      rw [mine]
      exact recorded_congr (s := s) rfl rfl rfl rfl recorded
    · have idle := nobody other
      rw [others other same] at idle ⊢
      exact recorded_congr (s := s) idle rfl rfl rfl (inv.recorded other)
  · intro other
    by_cases same : other = caller
    · subst same
      rw [mine]
      exact True.intro
    · rw [others other same]
      exact inv.sized other
  · exact inv.unmixed

theorem shutdown_keeps {stage : ShutdownStage} (inv : Inv requests s) (stands : s.calls caller = .shutdown stage)
    (taken : shutdown s caller stage = some s') : Inv requests s' := by
  have holding : (s.calls caller).holds = true := by rw [stands]; rfl
  have sized := inv.sized caller
  have staffed := inv.staffed caller holding
  have io := inv.io_settled holding (fun _ => by rw [stands]; exact nofun)
  rw [stands] at sized staffed
  cases stage with
  | look =>
    have rest : Resting s := staffed
    cases init : s.persistentInit with
    | starting => exact absurd init rest.settled
    | failed =>
      simp only [shutdown, init] at taken
      cases taken
      exact inv.plain stands ⟨rfl, rfl⟩ ⟨rfl, rfl⟩ ⟨rfl, rfl, rfl, rfl, rfl, rfl⟩ (fun starting => absurd starting io)
        ⟨resting_empty (rest.empty (by rw [init]; exact nofun)) nofun nofun, rfl⟩ sized
    | cold =>
      simp only [shutdown, init] at taken
      cases taken
      exact inv.plain stands ⟨rfl, rfl⟩ ⟨rfl, rfl⟩ ⟨rfl, rfl, rfl, rfl, rfl, rfl⟩ (fun starting => absurd starting io)
        ⟨⟨rest.settled, rest.opened, rest.placed⟩, init⟩ sized
    | ready =>
      simp only [shutdown, init] at taken
      split at taken <;> cases taken
      · rename_i nobody
        have absent : ∀ worker, s.workers worker = .absent := by
          intro worker
          rw [rest.placed worker, if_neg (by omega)]
        exact inv.plain stands ⟨rfl, rfl⟩ ⟨rfl, rfl⟩ ⟨rfl, rfl, rfl, rfl, rfl, rfl⟩ (fun starting => absurd starting io) absent sized
      · have dismissal := rest.dismisses init
        exact inv.plain stands ⟨rfl, rfl⟩ ⟨rfl, rfl⟩ ⟨rfl, rfl, rfl, rfl, rfl, rfl⟩ (fun starting => absurd starting io)
          ⟨rfl, dismissal.asked, dismissal.count, dismissal.within, dismissal.leaving, dismissal.others, dismissal.gone⟩ sized
  | dismiss workerCount told =>
    have dismissal : Dismissing s workerCount told := staffed
    simp only [shutdown] at taken
    split at taken <;> cases taken
    · rename_i more
      have bumps := dismissal.bumps more
      exact inv.plain stands ⟨rfl, rfl⟩ ⟨rfl, rfl⟩ ⟨rfl, rfl, rfl, rfl, rfl, rfl⟩ (fun starting => absurd starting io)
        ⟨bumps.ready, bumps.asked, bumps.count, bumps.within, bumps.leaving, bumps.others, bumps.gone⟩ sized
    · rename_i all
      have complete : told = workerCount := Nat.le_antisymm dismissal.within (Nat.le_of_not_lt all)
      subst complete
      exact inv.plain stands ⟨rfl, rfl⟩ ⟨rfl, rfl⟩ ⟨rfl, rfl, rfl, rfl, rfl, rfl⟩ (fun starting => absurd starting io)
        ⟨dismissal.ready, dismissal.asked, dismissal.count, dismissal.within, dismissal.leaving, dismissal.others,
          dismissal.gone⟩ sized
  | collect workerCount =>
    have dismissal : Dismissing s workerCount workerCount := staffed
    have count := dismissal.count
    subst count
    simp only [shutdown] at taken
    split at taken <;> cases taken
    rename_i all
    rw [dismissal.gone] at all
    exact inv.plain stands ⟨rfl, rfl⟩ ⟨rfl, rfl⟩ ⟨rfl, rfl, rfl, rfl, rfl, rfl⟩ (fun starting => absurd starting io)
      ⟨⟨dismissal.ready, dismissal.asked, dismissal.count, dismissal.within, dismissal.leaving, dismissal.others, dismissal.gone⟩,
        fun _ employed => headcount_all all employed⟩ sized
  | await =>
    obtain ⟨dismissal, _⟩ : Dismissing s s.workerCount s.workerCount ∧
      ∀ worker, worker < s.workerCount → (s.workers worker).isGone = true := staffed
    simp only [shutdown] at taken
    split at taken <;> cases taken
    rename_i absent
    exact inv.plain stands ⟨rfl, rfl⟩ ⟨rfl, rfl⟩ ⟨rfl, rfl, rfl, rfl, rfl, rfl⟩ (fun starting => absurd starting io)
      (dismissal.finished absent) sized
  | reset =>
    have absent : ∀ worker, s.workers worker = .absent := staffed
    cases taken
    exact inv.plain stands ⟨rfl, rfl⟩ ⟨rfl, rfl⟩ ⟨rfl, rfl, rfl, rfl, rfl, rfl⟩ (fun starting => absurd starting io)
      ⟨resting_empty absent nofun nofun, rfl⟩ sized
  | io =>
    obtain ⟨rest, cold⟩ : Resting s ∧ s.persistentInit = .cold := staffed
    have absent := rest.empty (by rw [cold]; exact nofun)
    cases init : s.ioInit with
    | starting => exact absurd init io
    | _ =>
      simp only [shutdown, init] at taken
      cases taken
      exact inv.plain stands ⟨rfl, rfl⟩ ⟨rfl, rfl⟩ ⟨rfl, rfl, rfl, rfl, rfl, rfl⟩ nofun ⟨cold, rfl, absent⟩ sized
  | unlock =>
    have closed : Closed s := staffed
    have grouped := inv.grouped caller
    have recorded := inv.recorded caller
    have request : requests caller = .shutdown := sized
    rw [stands] at grouped recorded
    have untouched : Untouched s caller := recorded
    cases taken
    apply inv.release holding io (resting_empty closed.absent (by rw [closed.cold]; exact nofun) (by rw [closed.cold]; exact nofun))
    · exact fun helper => congrArg HelperState.isRunning (grouped helper)
    · rw [Recorded, untouched.begun, untouched.ended, request]
      exact ⟨.nil, .nil⟩

theorem Inv.outsider {before state : CallState} (inv : Inv requests s) (stands : s.calls caller = before)
    (outside : before.holds = false ∧ before.plain = true) (after : state.holds = false ∧ state.plain = true)
    (sized : Sized (requests caller) state) : Inv requests (s.call caller state) := by
  have others : ∀ other, other ≠ caller → (s.call caller state).calls other = s.calls other :=
    fun other apart => Function.update_of_ne apart _ _
  have mine : (s.call caller state).calls caller = state := Function.update_self _ _ _
  have owner : ∀ other, ((s.call caller state).calls other).holds = true → other ≠ caller ∧ (s.calls other).holds = true := by
    intro other holds
    by_cases same : other = caller
    · subst same
      rw [mine, after.1] at holds
      cases holds
    · rw [others other same] at holds
      exact ⟨same, holds⟩
  have grouped := inv.grouped caller
  have recorded := inv.recorded caller
  rw [stands, plain_grouped outside.2] at grouped
  rw [stands, plain_recorded outside.2] at recorded
  constructor
  · exact fun first second one two => inv.alone first second (owner first one).2 (owner second two).2
  · exact fun other holds => inv.busy other (owner other holds).2
  · intro busy
    obtain ⟨other, holds⟩ := inv.held busy
    have apart : other ≠ caller := fun same => by
      rw [same, stands, outside.1] at holds
      cases holds
    exact ⟨other, by rw [others other apart]; exact holds⟩
  · intro free
    have rest := inv.rest free
    exact ⟨rest.settled, rest.opened, rest.placed⟩
  · intro starting
    obtain ⟨other, width, same⟩ := inv.io starting
    have apart : other ≠ caller := fun equal => by
      rw [equal, stands] at same
      rw [same] at outside
      cases outside.1
    exact ⟨other, width, by rw [others other apart]; exact same⟩
  · intro other holds
    obtain ⟨apart, held⟩ := owner other holds
    rw [others other apart]
    exact staffed_aside (inv.staffed other held) _ s.maxThreads
  · intro other
    by_cases same : other = caller
    · subst same
      rw [mine, plain_grouped after.2]
      exact grouped
    · rw [others other same]
      exact inv.grouped other
  · intro other
    by_cases same : other = caller
    · subst same
      rw [mine, plain_recorded after.2]
      exact ⟨recorded.begun, recorded.ended, recorded.next⟩
    · rw [others other same]
      exact recorded_aside (inv.recorded other) _ s.maxThreads
  · intro other
    by_cases same : other = caller
    · subst same
      rw [mine]
      exact sized
    · rw [others other same]
      exact inv.sized other
  · exact inv.unmixed

theorem Inv.lock {before state : CallState} (inv : Inv requests s) (stands : s.calls caller = before)
    (outside : before.holds = false ∧ before.plain = true) (free : s.ioBusy = false)
    (inside : state.holds = true ∧ state.plain = true)
    (staffed : Resting s → Staffed ({ s with ioBusy := true }.call caller state) caller state)
    (sized : Sized (requests caller) state) :
    Inv requests ({ s with ioBusy := true }.call caller state) := by
  have nobody : ∀ other, (s.calls other).holds ≠ true := by
    intro other holds
    cases free.symm.trans (inv.busy other holds)
  have others : ∀ other, other ≠ caller → ({ s with ioBusy := true }.call caller state).calls other = s.calls other :=
    fun other apart => Function.update_of_ne apart _ _
  have mine : ({ s with ioBusy := true }.call caller state).calls caller = state := Function.update_self _ _ _
  have only : ∀ other, (({ s with ioBusy := true }.call caller state).calls other).holds = true → other = caller := by
    intro other holds
    by_contra apart
    rw [others other apart] at holds
    exact nobody other holds
  have grouped := inv.grouped caller
  have recorded := inv.recorded caller
  rw [stands, plain_grouped outside.2] at grouped
  rw [stands, plain_recorded outside.2] at recorded
  constructor
  · intro first second one two
    rw [only first one, only second two]
  · exact fun _ _ => rfl
  · exact fun _ => ⟨caller, by rw [mine]; exact inside.1⟩
  · exact nofun
  · intro starting
    obtain ⟨other, width, same⟩ := inv.io starting
    exact absurd (by rw [same]; rfl) (nobody other)
  · intro other holds
    have same := only other holds
    subst same
    rw [mine]
    exact staffed (inv.rest free)
  · intro other
    by_cases same : other = caller
    · subst same
      rw [mine, plain_grouped inside.2]
      exact grouped
    · rw [others other same]
      exact inv.grouped other
  · intro other
    by_cases same : other = caller
    · subst same
      rw [mine, plain_recorded inside.2]
      exact ⟨recorded.begun, recorded.ended, recorded.next⟩
    · rw [others other same]
      have idle : (s.calls other).holds = false := Bool.eq_false_iff.mpr (nobody other)
      exact recorded_congr (s := s) idle rfl rfl rfl (inv.recorded other)
  · intro other
    by_cases same : other = caller
    · subst same
      rw [mine]
      exact sized
    · rw [others other same]
      exact inv.sized other
  · exact inv.unmixed

theorem enter_keeps (inv : Inv requests s) (stands : s.calls caller = .start) (taken : enter requests s caller = some s') :
    Inv requests s' := by
  have sizes : ∀ width, width ≤ (requests caller).jobs → ((requests caller).isQueued = false → (requests caller).jobs = width) →
      Inv requests (s.call caller (if width ≤ 1 then .returned false else .entering width)) := by
    intro width few fits
    by_cases small : width ≤ 1
    · rw [if_pos small]
      exact inv.outsider stands ⟨rfl, rfl⟩ ⟨rfl, rfl⟩ True.intro
    · rw [if_neg small]
      exact inv.outsider stands ⟨rfl, rfl⟩ ⟨rfl, rfl⟩ ⟨by omega, few, fits⟩
  cases request : requests caller with
  | run count =>
    simp only [enter, request] at taken
    cases taken
    exact sizes count (by rw [request]; exact Nat.le_refl _) (fun _ => by rw [request]; rfl)
  | runLowLatency count =>
    simp only [enter, request] at taken
    cases taken
    exact sizes count (by rw [request]; exact Nat.le_refl _) (fun _ => by rw [request]; rfl)
  | runQueued count workerLimit =>
    simp only [enter, request] at taken
    cases taken
    exact sizes _ (by rw [request]; exact Nat.min_le_left _ _) (fun direct => by rw [request] at direct; cases direct)
  | shutdown =>
    simp only [enter, request] at taken
    split at taken <;> cases taken
    rename_i free
    exact inv.lock stands ⟨rfl, rfl⟩ (Bool.eq_false_iff.mpr free) ⟨rfl, rfl⟩
      (fun rest => ⟨rest.settled, rest.opened, rest.placed⟩) request

theorem step_call_keeps (inv : Inv requests s) (taken : stepCall requests accepted s caller = some s') : Inv requests s' := by
  cases stands : s.calls caller with
  | start =>
    simp only [stepCall, stands] at taken
    exact enter_keeps inv stands taken
  | entering width =>
    have wide : Wide (requests caller) width := by
      have sized := inv.sized caller
      rw [stands] at sized
      exact sized
    simp only [stepCall, stands] at taken
    split at taken
    · cases taken
      exact inv.outsider stands ⟨rfl, rfl⟩ ⟨rfl, rfl⟩ True.intro
    · rename_i free
      have idle : s.ioBusy = false := Bool.eq_false_iff.mpr free
      split at taken <;> cases taken
      · exact inv.lock stands ⟨rfl, rfl⟩ idle ⟨rfl, rfl⟩ (fun rest => ⟨rest.settled, rest.opened, rest.placed⟩) wide
      · exact inv.lock stands ⟨rfl, rfl⟩ idle ⟨rfl, rfl⟩ (fun rest => ⟨rest.settled, rest.opened, rest.placed⟩) wide
  | ensurePersistentWorkers width stage =>
    simp only [stepCall, stands] at taken
    exact ensure_persistent_workers_keeps inv stands taken
  | runPersistent width stage =>
    simp only [stepCall, stands] at taken
    exact run_persistent_keeps inv stands taken
  | ensureIoThreaded width stage =>
    simp only [stepCall, stands] at taken
    exact ensure_io_threaded_keeps inv stands taken
  | runGroup width stage =>
    simp only [stepCall, stands] at taken
    exact run_group_keeps inv stands taken
  | leaving answer =>
    have holding : (s.calls caller).holds = true := by rw [stands]; rfl
    have staffed := inv.staffed caller holding
    have grouped := inv.grouped caller
    have recorded := inv.recorded caller
    rw [stands] at staffed grouped recorded
    simp only [stepCall, stands] at taken
    cases taken
    have settled := inv.io_settled holding (fun _ => by rw [stands]; exact nofun)
    cases answer with
    | true => exact inv.release holding settled staffed grouped recorded
    | false => exact inv.release holding settled staffed grouped recorded
  | shutdown stage =>
    simp only [stepCall, stands] at taken
    exact shutdown_keeps inv stands taken
  | returned answer => simp only [stepCall, stands, reduceCtorEq] at taken

theorem Inv.worker_step {worker : Nat} (inv : Inv requests s) (holding : (s.calls caller).holds = true)
    (taken : stepWorker requests s worker = some s') (elsewhere : SameElsewhere caller s s')
    (staffed : Staffed s' caller (s.calls caller)) (recorded : Recorded requests s' caller (s.calls caller)) : Inv requests s' := by
  obtain ⟨state, _, _, _, begun, ended, next, effect⟩ := worker_moves taken
  have calls : s'.calls = Function.update s.calls caller (s.calls caller) := by
    rw [effect, Function.update_eq_self]
  have helpers : s'.helpers = s.helpers := by rw [effect]
  have io : s'.ioInit = s.ioInit := by rw [effect]
  apply inv.owner holding calls holding (by rw [effect]) (fun _ _ => by rw [helpers]) elsewhere _ staffed _ recorded
    (inv.sized caller)
  · intro starting
    obtain ⟨other, width, same⟩ := inv.io (io.symm.trans starting)
    have one := inv.alone other caller (by rw [same]; rfl) holding
    subst one
    exact ⟨width, same⟩
  · rw [helpers]
    exact inv.grouped caller

theorem Dismissing.vanishes {worker : Nat} (dismissal : Dismissing s s.workerCount s.workerCount)
    (gone : ∀ worker, worker < s.workerCount → (s.workers worker).isGone = true) (taken : stepWorker requests s worker = some s') :
    s' = s.worker worker .absent := by
  have employed : worker < s.workerCount := by
    by_contra outside
    have placed := dismissal.others worker (Nat.le_of_not_lt outside)
    rw [if_neg outside] at placed
    exact (worker_busy taken).1 placed
  have left := gone worker employed
  cases state : s.workers worker with
  | exited =>
    simp only [stepWorker, state, Option.some.injEq] at taken
    exact taken.symm
  | absent => exact absurd state (worker_busy taken).1
  | _ =>
    rw [state] at left
    cases left

omit [DecidableEq C] in
theorem recorded_kept {state : CallState} (records : SameRecords s s') (plain : state.plain = true)
    (recorded : Recorded requests s caller state) : Recorded requests s' caller state := by
  rw [plain_recorded plain] at recorded ⊢
  obtain ⟨begun, ended, next⟩ := records
  exact ⟨by rw [begun]; exact recorded.begun, by rw [ended]; exact recorded.ended, by rw [next]; exact recorded.next⟩

theorem step_worker_keeps {worker : Nat} (inv : Inv requests s) (taken : stepWorker requests s worker = some s') : Inv
    requests s' := by
  have moving := worker_busy taken
  have resting : Resting s → Inv requests s' := fun rest => by
    rw [rest.still] at taken
    cases taken
  cases busy : s.ioBusy with
  | false => exact resting (inv.rest busy)
  | true =>
    obtain ⟨caller, holding⟩ := inv.held busy
    have staffed := inv.staffed caller holding
    have recorded := inv.recorded caller
    have sized := inv.sized caller
    have worked := inv.worker_step holding taken
    cases stands : s.calls caller with
    | ensurePersistentWorkers width stage =>
      rw [stands] at staffed recorded worked
      cases stage with
      | prepare => exact absurd (staffed.absent worker) moving.1
      | submit helperCount submitted =>
        have moved := Assembling.moves staffed taken
        exact worked (moved.2.elsewhere caller) moved.1 (recorded_kept moved.2 rfl recorded)
      | gather submitted =>
        obtain ⟨gathering, count⟩ : Assembling s submitted ∧ s.workerCount = submitted := staffed
        have moved := gathering.moves taken
        have same : s'.workerCount = s.workerCount := by
          obtain ⟨_, _, _, _, _, _, _, rfl⟩ := worker_moves taken
          rfl
        exact worked (moved.2.elsewhere caller) ⟨moved.1, same.trans count⟩ (recorded_kept moved.2 rfl recorded)
      | await => exact absurd staffed not_false
      | _ => exact resting staffed
    | ensureIoThreaded width stage =>
      rw [stands] at staffed
      cases stage with
      | await => exact absurd staffed not_false
      | _ => exact resting staffed
    | runPersistent width stage =>
      rw [stands] at staffed recorded worked sized
      have wide : Wide (requests caller) width := sized
      cases stage with
      | choose => exact resting staffed.1
      | publish firstHelper stored => exact resting staffed.1
      | bump firstHelper bumped =>
        have served := Dispatching.moves staffed wide.fits recorded taken
        exact worked served.elsewhere served.dispatching served.board
      | own firstHelper body =>
        have served := Dispatching.moves staffed wide.fits recorded taken
        exact worked served.elsewhere served.dispatching served.board
      | collect firstHelper =>
        have served := Dispatching.moves staffed wide.fits recorded taken
        exact worked served.elsewhere served.dispatching served.board
    | shutdown stage =>
      rw [stands] at staffed recorded worked
      cases stage with
      | dismiss workerCount told =>
        have moved := Dismissing.moves staffed taken
        exact worked (moved.2.elsewhere caller) moved.1 (recorded_kept moved.2 rfl recorded)
      | collect workerCount =>
        have moved := Dismissing.moves staffed taken
        exact worked (moved.2.elsewhere caller) moved.1 (recorded_kept moved.2 rfl recorded)
      | await =>
        obtain ⟨dismissal, gone⟩ : Dismissing s s.workerCount s.workerCount ∧
          ∀ worker, worker < s.workerCount → (s.workers worker).isGone = true := staffed
        have moved := dismissal.moves taken
        have vanished := dismissal.vanishes gone taken
        have count : s'.workerCount = s.workerCount := by rw [vanished]; rfl
        have still : ∀ other, other < s'.workerCount → (s'.workers other).isGone = true := by
          intro other employed
          rw [vanished]
          by_cases same : other = worker
          · subst same
            simp only [Pool.worker, Function.update_self, WorkerState.isGone]
          · simp only [Pool.worker, Function.update_of_ne same]
            exact gone other (count ▸ employed)
        have dismissed : Dismissing s' s'.workerCount s'.workerCount := by
          rw [count]
          exact moved.1
        exact worked (moved.2.elsewhere caller) ⟨dismissed, still⟩ (recorded_kept moved.2 rfl recorded)
      | reset => exact absurd (staffed worker) moving.1
      | io => exact resting staffed.1
      | unlock => exact absurd (staffed.absent worker) moving.1
      | look => exact resting staffed
    | start =>
      rw [stands] at holding
      cases holding
    | entering width =>
      rw [stands] at holding
      cases holding
    | returned answer =>
      rw [stands] at holding
      cases holding
    | _ =>
      rw [stands] at staffed
      exact resting staffed

omit [DecidableEq C] in
theorem group_slots_replace (helpers : Nat → HelperState) (helper : Nat) (state : HelperState) :
    groupSlots (Function.update helpers (helper + 1) state) = Function.update (groupSlots helpers) helper state.slot := by
  funext other
  by_cases same : other = helper
  · subst same
    rw [Function.update_self, groupSlots, Function.update_self]
  · rw [Function.update_of_ne same, groupSlots, groupSlots, Function.update_of_ne (fun equal => same (Nat.succ.inj equal))]

omit [DecidableEq C] in
theorem crew_helper (own : Slot) {size index : Nat} (helpers : Nat → HelperState) (state : HelperState) (some : 0 < index)
    (inside : index - 1 < size) : crew own size (groupSlots helpers) index = (helpers index).slot ∧
    crew own size (groupSlots (Function.update helpers index state)) = Function.update
    (crew own size (groupSlots helpers)) index state.slot := by
  cases index with
  | zero => cases some
  | succ helper =>
    rw [Nat.add_sub_cancel] at inside
    constructor
    · rw [crew, if_pos inside, groupSlots]
    · rw [group_slots_replace, crew_update _ _ _ _ _ inside]

omit [DecidableEq C] in
theorem Spread.replace {helpers : Nat → HelperState} {index helper : Nat} {submitted : Bool} (spread : Spread helpers index submitted)
    (present : helpers helper ≠ .absent) (state : HelperState) : Spread (Function.update helpers helper state) index submitted := by
  constructor
  · intro other there
    by_cases same : other = helper
    · subst same
      exact spread.within other present
    · rw [Function.update_of_ne same] at there
      exact spread.within other there
  · intro nobody
    exact absurd (spread.nobody nobody helper) present

theorem Inv.helper_step {stage : GroupStage} {index : Nat} {body : Body} {state : HelperState} (inv : Inv requests s)
    (stands : s.calls caller = .runGroup width stage) (running : s.helpers caller index = .running body)
    (slot : state.slot = restSlot (callTask requests s caller caller index body).2) :
    Inv requests ((callTask requests s caller caller index body).1.helper caller index state) := by
  have holding : (s.calls caller).holds = true := by rw [stands]; rfl
  have sized := inv.sized caller
  have staffed := inv.staffed caller holding
  have recorded := inv.recorded caller
  have grouped := inv.grouped caller
  have io := inv.io_settled holding (fun _ => by rw [stands]; exact nofun)
  rw [stands] at sized staffed recorded grouped
  have rest : Resting s := staffed
  have present : s.helpers caller index ≠ .absent := by rw [running]; exact nofun
  have called : (s.helpers caller index).slot = body.slot := by rw [running]; rfl
  have board := fun slots here recorded => call_task_board requests s caller index body slots here recorded
  have elsewhere := call_task_elsewhere requests s caller index body
  obtain ⟨begun, ended, next, effect⟩ := call_task_frame requests s caller caller index body
  rw [← slot] at board
  rw [effect] at board elsewhere ⊢
  have mine : ({ s with begun := begun, ended := ended, next := next }.helper caller index state).helpers caller =
      Function.update (s.helpers caller) index state := Function.update_self _ _ _
  have stays : ({ s with begun := begun, ended := ended, next := next }.helper caller index state).calls =
      Function.update s.calls caller (.runGroup width stage) := by
    rw [← stands, Function.update_eq_self]
    rfl
  apply inv.owner holding stays rfl rfl (fun _ apart => Function.update_of_ne apart _ _)
    ⟨elsewhere.begun, elsewhere.ended, elsewhere.next⟩ (fun starting => absurd starting io) ⟨rest.settled, rest.opened, rest.placed⟩
    _ _ sized
  · rw [mine]
    cases stage with
    | grant => exact absurd (grouped index) present
    | submit reached submitted => exact Spread.replace grouped present state
    | inline reached submitted own => exact Spread.replace grouped present state
    | own submitted own => exact Spread.replace grouped present state
    | await => exact Spread.replace grouped present state
  · cases stage with
    | grant => exact absurd (grouped index) present
    | submit reached submitted =>
      obtain ⟨some, inside⟩ := Spread.within grouped index present
      obtain ⟨here, after⟩ := crew_helper .waiting (s.helpers caller) state some (show index - 1 < reached - 1 by omega)
      rw [Recorded, mine, after]
      exact board _ (here.trans called) recorded
    | inline reached submitted own =>
      obtain ⟨some, inside⟩ := Spread.within grouped index present
      have apart : index ≠ reached := Nat.ne_of_lt inside
      obtain ⟨here, after⟩ := crew_helper .waiting (s.helpers caller) state some (show index - 1 < reached - 1 by omega)
      rw [Recorded, mine, after, Function.update_comm apart]
      exact board _ (by rw [Function.update_of_ne apart, here, called]) recorded
    | own submitted own =>
      obtain ⟨some, inside⟩ := Spread.within grouped index present
      obtain ⟨here, after⟩ := crew_helper own.slot (s.helpers caller) state some (show index - 1 < width - 1 by omega)
      rw [Recorded, mine, after]
      exact board _ (here.trans called) recorded
    | await =>
      obtain ⟨some, inside⟩ := Spread.within grouped index present
      obtain ⟨here, after⟩ := crew_helper .spent (s.helpers caller) state some (show index - 1 < width - 1 by omega)
      rw [Recorded, mine, after]
      exact board _ (here.trans called) recorded

omit [DecidableEq C] in
theorem Inv.helper_call {index : Nat} {body : Body} (inv : Inv requests s) (running : s.helpers caller index = .running body) :
    ∃ width stage, s.calls caller = .runGroup width stage := by
  have grouped := inv.grouped caller
  cases stands : s.calls caller with
  | runGroup width stage => exact ⟨width, stage, rfl⟩
  | leaving answer =>
    rw [stands] at grouped
    cases answer with
    | true => exact absurd (grouped index) (by rw [running]; exact nofun)
    | false => exact absurd (grouped index) (by rw [running]; exact nofun)
  | returned answer =>
    rw [stands] at grouped
    cases answer with
    | true => exact absurd (grouped index) (by rw [running]; exact nofun)
    | false => exact absurd (grouped index) (by rw [running]; exact nofun)
  | _ =>
    rw [stands] at grouped
    exact absurd (grouped index) (by rw [running]; exact nofun)

theorem step_helper_keeps {index : Nat} (inv : Inv requests s) (taken : stepHelper requests s caller index = some s') :
    Inv requests s' := by
  cases running : s.helpers caller index with
  | running body =>
    obtain ⟨width, stage, stands⟩ := inv.helper_call running
    cases rest : (callTask requests s caller caller index body).2 with
    | some body =>
      simp only [stepHelper, running, rest, Option.some.injEq] at taken
      subst taken
      exact inv.helper_step stands running (by rw [rest]; rfl)
    | none =>
      simp only [stepHelper, running, rest, Option.some.injEq] at taken
      subst taken
      exact inv.helper_step stands running (by rw [rest]; rfl)
  | _ => simp only [stepHelper, running, reduceCtorEq] at taken

omit [DecidableEq C] in
theorem Inv.limit (inv : Inv requests s) (maxThreads : Nat) : Inv requests { s with maxThreads := maxThreads } where
  alone := inv.alone
  busy := inv.busy
  held := inv.held
  rest free := ⟨(inv.rest free).settled, (inv.rest free).opened, (inv.rest free).placed⟩
  io := inv.io
  staffed caller holds := staffed_aside (inv.staffed caller holds) s.calls maxThreads
  grouped := inv.grouped
  recorded caller := recorded_aside (inv.recorded caller) s.calls maxThreads
  sized := inv.sized
  unmixed := inv.unmixed

theorem step_keeps (s next : Pool C) (action : Action C) (inv : Inv requests s) (taken : step requests s action = some next) :
    Inv requests next := by
  cases action with
  | setMaxThreads limit =>
    cases taken
    exact inv.limit limit
  | call caller accepted => exact step_call_keeps inv taken
  | worker worker => exact step_worker_keeps inv taken
  | helper caller index => exact step_helper_keeps inv taken

theorem reachable_inv (reachable : Reachable requests s) : Inv requests s :=
  reachable_invariant (inv_initial requests) step_keeps reachable

end Calls

end Zynum.ThreadPool
