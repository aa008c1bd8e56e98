import Zynum.Vector.BlocksExact

set_option autoImplicit false

/- A walk that only reads: whichever blocks it loads, its state passes through
   the elements in order. -/
namespace Zynum.LevelOne

open ArrayProgram

variable {α R A : Type}

def foldElements [Zero R] (step : Nat → (Nat → R) → A → A) (x : Operand α) (piece : Piece) (state : A) : Program α R A := do
  let xb ← loadElements x piece
  pure (loop piece.count (fun i => step (piece.first + i) (piece.element x.width xb i)) state)

def orElse (first second : Program α R (Option A)) : Program α R (Option A) := do
  match ← first with
  | some answer => pure (some answer)
  | none => second

-- A step that looks at the components of its element only.
def ElementStep (width : Nat) (step : Nat → (Nat → R) → A → A) : Prop :=
  ∀ index value value' state, (∀ component, component < width → value component = value' component) →
    step index value state = step index value' state

variable [Zero R] [DecidableEq α] {x : Operand α}

theorem run_fold_elements {piece : Piece} {step : Nat → (Nat → R) → A → A} (state : A) (memory : α → R)
    (fits : piece.Fits x) (stepped : 0 < piece.step) (elementwise : ElementStep x.width step) :
    (foldElements step x piece state).run memory =
      (loopRange piece.first (piece.first + piece.count) (fun i => step i (x.element memory i)) state, memory) := by
  have read : ((loadElements x piece).run memory).2 = memory := by rw [loadElements, run_load_active]
  rw [foldElements, Program.run_do, Program.run_pure, read]
  refine Prod.ext ?_ rfl
  rw [loopRange, Nat.add_sub_cancel_left]
  refine loop_congr piece.count _ _ state (fun i current small => elementwise _ _ _ _ (fun component inside => ?_))
  exact active_element fits stepped memory i component small inside

omit [Zero R] in
theorem run_walk_holding (holds : A → Prop) (body : Piece → A → Program α R A) (step : Nat → A → A) (pieces : List Piece)
    (first last : Nat) (state : A) (memory : α → R) (consecutive : Consecutive pieces first last) (start : holds state)
    (each : ∀ piece current, piece ∈ pieces → holds current →
      (body piece current).run memory = (loopRange piece.first (piece.first + piece.count) step current, memory) ∧
        holds (loopRange piece.first (piece.first + piece.count) step current)) :
    (Program.foldItems pieces body state).run memory = (loopRange first last step state, memory) ∧
      holds (loopRange first last step state) := by
  induction pieces generalizing first state with
  | nil =>
    have same : first = last := consecutive
    rw [same, loopRange, Nat.sub_self]
    exact ⟨rfl, start⟩
  | cons piece rest ih =>
    have here := consecutive.1
    obtain ⟨ran, held⟩ := each piece state List.mem_cons_self start
    rw [here] at ran held
    have later := ih (first + piece.count) _ consecutive.2 held
      (fun other current member => each other current (List.mem_cons_of_mem _ member))
    rw [loop_range_append first (first + piece.count) last step state (Nat.le_add_right _ _) consecutive.2.le] at later
    rw [Program.run_fold_items_cons, ran]
    exact later

omit [Zero R] in
theorem run_walk (body : Piece → A → Program α R A) (step : Nat → A → A) (pieces : List Piece) (first last : Nat) (state : A)
    (memory : α → R) (consecutive : Consecutive pieces first last)
    (each : ∀ piece current, piece ∈ pieces → (body piece current).run memory =
      (loopRange piece.first (piece.first + piece.count) step current, memory)) :
    (Program.foldItems pieces body state).run memory = (loopRange first last step state, memory) :=
  (run_walk_holding (fun _ => True) body step pieces first last state memory consecutive trivial
    (fun piece current member _ => ⟨each piece current member, trivial⟩)).1

theorem run_element_walk {step : Nat → (Nat → R) → A → A} {pieces : List Piece} {first last : Nat} (state : A)
    (memory : α → R) (consecutive : Consecutive pieces first last)
    (fits : ∀ piece, piece ∈ pieces → piece.Fits x ∧ 0 < piece.step) (elementwise : ElementStep x.width step) :
    (Program.foldItems pieces (foldElements step x) state).run memory =
      (loopRange first last (fun i => step i (x.element memory i)) state, memory) :=
  run_walk _ _ pieces first last state memory consecutive (fun piece current member =>
    run_fold_elements current memory (fits piece member).1 (fits piece member).2 elementwise)

omit [Zero R] in
theorem run_or_else {first second : Program α R (Option A)} {memory : α → R} {answer : Option A}
    (alone : first.run memory = (answer, memory)) :
    (orElse first second).run memory = answer.elim (second.run memory) (fun found => (some found, memory)) := by
  rw [orElse, Program.run_do, alone]
  cases answer <;> rfl

end Zynum.LevelOne
