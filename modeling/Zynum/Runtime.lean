import Zynum.Indexing

set_option autoImplicit false

/- What a kernel cannot decide itself: how many tasks its work heuristics ask
   for, whether the pool accepts a dispatch and in which order the tasks take
   effect, and whether a thread-local workspace is available. Every call site of
   a run has its own path, so two calls may be answered differently. -/
namespace Zynum

abbrev Site := List Nat

inductive Arch where
  | x86_64
  | aarch64
  | other
  deriving DecidableEq, Repr

structure Runtime where
  arch : Arch
  maxThreads : Site → Nat
  taskCount : Site → Nat → Nat
  dispatch : Site → Nat → Option (List Nat)
  workspace : Site → Nat → Bool
  dispatch_complete : ∀ site count order, dispatch site count = some order → order.Perm (List.range count)

-- A runtime with one thread: the pool refuses everything.
def Runtime.sequential : Runtime where
  arch := .x86_64
  maxThreads _ := 1
  taskCount _ _ := 1
  dispatch _ _ := none
  workspace _ _ := true
  dispatch_complete _ _ _ accepted := nomatch accepted

-- A runtime that splits every call into so many tasks and takes every dispatch.
def Runtime.splitting (tasks : Nat) : Runtime where
  arch := .x86_64
  maxThreads _ := tasks
  taskCount _ _ := tasks
  dispatch _ count := some (List.range count)
  workspace _ _ := true
  dispatch_complete _ _ _ accepted := by rw [← Option.some.inj accepted]

universe u
variable {σ : Type u}

def Runtime.runTasks (rt : Runtime) (site : Site) (count : Nat) (task : Nat → σ → σ) (state : σ) : Option σ :=
  (rt.dispatch site count).map (fun order => order.foldl (fun current index => task index current) state)

theorem run_tasks_accepted {rt : Runtime} {site : Site} {count : Nat} {task : Nat → σ → σ} {state next : σ}
    (accepted : rt.runTasks site count task state = some next) :
    ∃ order : List Nat, order.Perm (List.range count) ∧ next = order.foldl (fun current index => task index current) state := by
  obtain ⟨order, answer, result⟩ := Option.map_eq_some_iff.mp accepted
  exact ⟨order, rt.dispatch_complete site count order answer, result.symm⟩

end Zynum
