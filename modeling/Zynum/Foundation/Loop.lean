import Mathlib.Algebra.BigOperators.Intervals
import Mathlib.Algebra.BigOperators.Ring.Finset
import Mathlib.Data.Set.Lattice
import Mathlib.Tactic
import Mathlib.Order.CompletePartialOrder

set_option autoImplicit false

/- Counted loops over an explicit state. A loop that can meet illegal behaviour
   runs in Option; none is the trap. -/
namespace ArrayProgram

-- The numeral two of a ring, whose fact is shared by name.
instance at_least_two : Nat.AtLeastTwo 2 := inferInstance

universe u
variable {σ : Type u}

def loop (count : Nat) (body : Nat → σ → σ) (state : σ) : σ :=
  match count with
  | 0 => state
  | done + 1 => body done (loop done body state)

def loopRange (first last : Nat) (body : Nat → σ → σ) (state : σ) : σ :=
  loop (last - first) (fun step => body (first + step)) state

def trappingLoop (count : Nat) (body : Nat → σ → Option σ) (state : σ) : Option σ :=
  match count with
  | 0 => some state
  | done + 1 => (trappingLoop done body state).bind (body done)

-- A counted range whose start lies past its end is illegal.
def trappingRange (first last : Nat) (body : Nat → σ → Option σ) (state : σ) : Option σ :=
  if first ≤ last then trappingLoop (last - first) (fun step => body (first + step)) state else none

@[simp] theorem loop_zero (body : Nat → σ → σ) (state : σ) : loop 0 body state = state := rfl

@[simp] theorem loop_succ (count : Nat) (body : Nat → σ → σ) (state : σ) :
    loop (count + 1) body state = body count (loop count body state) := rfl

theorem loop_invariant (count : Nat) (body : Nat → σ → σ) (state : σ) (holds : Nat → σ → Prop)
    (initial : holds 0 state)
    (preserved : ∀ done current, done < count → holds done current → holds (done + 1) (body done current)) :
    holds count (loop count body state) := by
  induction count with
  | zero => exact initial
  | succ count ih =>
    have before : holds count (loop count body state) :=
      ih (fun done current small => preserved done current (Nat.lt_succ_of_lt small))
    exact preserved count _ (Nat.lt_succ_self count) before

theorem loop_congr (count : Nat) (first second : Nat → σ → σ) (state : σ)
    (same : ∀ step current, step < count → first step current = second step current) :
    loop count first state = loop count second state := by
  induction count with
  | zero => rfl
  | succ count ih =>
    rw [loop_succ, loop_succ, ih (fun step current small => same step current (Nat.lt_succ_of_lt small))]
    exact same count _ (Nat.lt_succ_self count)

theorem loop_split (first rest : Nat) (body : Nat → σ → σ) (state : σ) :
    loop (first + rest) body state = loop rest (fun step => body (first + step)) (loop first body state) := by
  induction rest with
  | zero => rfl
  | succ rest ih => rw [← Nat.add_assoc, loop_succ, loop_succ, ih]

theorem loop_fixed (count : Nat) (body : Nat → σ → σ) (state : σ)
    (fixed : ∀ step, step < count → body step state = state) : loop count body state = state := by
  induction count with
  | zero => rfl
  | succ count ih =>
    rw [loop_succ, ih (fun step small => fixed step (Nat.lt_succ_of_lt small))]
    exact fixed count (Nat.lt_succ_self count)

theorem loop_accumulate {M : Type u} [AddCommMonoid M] (count : Nat) (term : Nat → M) (initial : M) :
    loop count (fun step total => total + term step) initial = initial + ∑ step ∈ Finset.range count, term step := by
  induction count with
  | zero => simp only [loop_zero, Finset.range_zero, Finset.sum_empty, add_zero]
  | succ count ih => rw [loop_succ, ih, Finset.sum_range_succ, add_assoc]

theorem loop_range_accumulate {M : Type u} [AddCommMonoid M] (first last : Nat) (term : Nat → M) (initial : M) :
    loopRange first last (fun step total => total + term step) initial =
      initial + ∑ step ∈ Finset.Ico first last, term step := by
  rw [loopRange, loop_accumulate, Finset.sum_Ico_eq_sum_range]

theorem loop_range_append (first middle last : Nat) (body : Nat → σ → σ) (state : σ) (before : first ≤ middle)
    (after : middle ≤ last) :
    loopRange middle last body (loopRange first middle body state) = loopRange first last body state := by
  have length : last - first = (middle - first) + (last - middle) := by omega
  rw [loopRange, loopRange, loopRange, length, loop_split]
  refine loop_congr _ _ _ _ (fun index current _ => ?_)
  rw [← Nat.add_assoc, Nat.add_sub_cancel' before]

theorem trapping_loop_total (count : Nat) (body : Nat → σ → Option σ) (step : Nat → σ → σ) (state : σ)
    (total : ∀ done current, done < count → body done current = some (step done current)) :
    trappingLoop count body state = some (loop count step state) := by
  induction count with
  | zero => rfl
  | succ count ih =>
    rw [trappingLoop, ih (fun done current small => total done current (Nat.lt_succ_of_lt small))]
    exact total count _ (Nat.lt_succ_self count)

theorem trapping_loop_choose (count : Nat) (body : Nat → σ → Option σ) (good : Nat → (σ → σ) → Prop)
    (each : ∀ step, step < count → ∃ total, (∀ state, body step state = some (total state)) ∧ good step total) :
    ∃ totals : Nat → σ → σ, (∀ state, trappingLoop count body state = some (loop count totals state)) ∧
      ∀ step, step < count → good step (totals step) := by
  classical
  let totals : Nat → σ → σ := fun step =>
    if small : step < count then (each step small).choose else fun state => state
  have chosen : ∀ step, step < count → (∀ state, body step state = some (totals step state)) ∧ good step (totals step) := by
    intro step small
    simp only [totals, small, dif_pos]
    exact (each step small).choose_spec
  refine ⟨totals, fun state => ?_, fun step small => (chosen step small).2⟩
  exact trapping_loop_total count body totals state (fun done current small => (chosen done small).1 current)

theorem trapping_range_total (first last : Nat) (body : Nat → σ → Option σ) (step : Nat → σ → σ) (state : σ)
    (ordered : first ≤ last)
    (total : ∀ index current, first ≤ index → index < last → body index current = some (step index current)) :
    trappingRange first last body state = some (loopRange first last step state) := by
  rw [trappingRange, if_pos ordered]
  exact trapping_loop_total _ _ (fun done => step (first + done)) state
    (fun done current small => total (first + done) current (by omega) (by omega))

theorem trapping_loop_trap (count : Nat) (body : Nat → σ → Option σ) (state : σ) (bad : Nat)
    (reached : bad < count) (trap : ∀ current, body bad current = none) :
    trappingLoop count body state = none := by
  induction count with
  | zero => exact absurd reached (Nat.not_lt_zero bad)
  | succ count ih =>
    rw [trappingLoop]
    by_cases earlier : bad < count
    · rw [ih earlier]
      rfl
    · have last : bad = count := by omega
      cases trappingLoop count body state with
      | none => rfl
      | some current => simpa only [last, Option.bind_some] using trap current

end ArrayProgram
