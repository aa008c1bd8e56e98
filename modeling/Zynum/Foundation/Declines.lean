import Zynum.Foundation.CellUpdate

set_option autoImplicit false

/- Attempts that may decline: whatever they do before they give up, the state they
   hand back is the one they were given. -/
namespace ArrayProgram

universe u
variable {σ : Type u}

def Declines (attempt : σ → Bool × σ) : Prop := ∀ state, (attempt state).1 = false → (attempt state).2 = state

theorem declines_at_once : Declines (fun state : σ => (false, state)) := fun _ _ => rfl

theorem declines_never (run : σ → σ) : Declines (fun state => (true, run state)) := fun _ answer => by cases answer

theorem declines_guard {first second : σ → Bool × σ} (condition : Prop) [Decidable condition] (left : Declines first)
    (right : Declines second) : Declines (fun state => if condition then first state else second state) := by
  by_cases holds : condition
  · simpa only [holds, if_true] using left
  · simpa only [holds, if_false] using right

theorem declines_answered (dispatch : σ → Option σ) : Declines (fun state => answered (dispatch state) state) := by
  intro state answer
  simp only at answer ⊢
  cases outcome : dispatch state with
  | none => rfl
  | some done =>
    rw [outcome] at answer
    cases answer

theorem Declines.or_try {first second : σ → Bool × σ} (left : Declines first) (right : Declines second) :
    Declines (fun state => orTry (first state) second) := by
  intro state answer
  simp only at answer ⊢
  cases earlier : (first state).1 with
  | true =>
    rw [orTry, if_pos earlier, earlier] at answer
    cases answer
  | false =>
    rw [orTry, if_neg (by rw [earlier]; exact Bool.false_ne_true), left state earlier] at answer ⊢
    exact right state answer

-- Whoever falls back starts from the state the attempt was given.
def NoTrace (attempt : σ → Bool × σ) : Prop :=
  ∀ state, (attempt state).1 = false → (attempt state).2 = state ∧ ∀ fallback, orElse (attempt state) fallback = fallback state

theorem Declines.no_trace {attempt : σ → Bool × σ} (declines : Declines attempt) : NoTrace attempt := by
  intro state answer
  have same := declines state answer
  refine ⟨same, fun fallback => ?_⟩
  rw [orElse, if_neg (by rw [answer]; exact Bool.false_ne_true), same]

end ArrayProgram
