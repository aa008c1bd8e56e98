import Zynum.Vector.Givens

set_option autoImplicit false

/- rotmg of core/vector/operations.zig over exact reals. Its two rescaling loops
   run on fuel; that some fuel is enough is proved. -/
namespace Zynum.LevelOne

section Rotmg

variable {R : Type} [Field R] [LinearOrder R]

def gam : R := 4096
def gamsq : R := gam * gam
def rgamsq : R := 1 / gamsq

-- The locals of rotmg, with d1, d2 and x1 behind their pointers.
structure RotmgState (R : Type) where
  d1 : R
  d2 : R
  x1 : R
  flag : R
  h11 : R
  h12 : R
  h21 : R
  h22 : R

-- Before a rescaling the entries a flag leaves implicit are filled in.
def RotmgState.explicit (state : RotmgState R) : RotmgState R :=
  if state.flag = 0 then { state with h11 := 1, h22 := 1, flag := -1 }
  else if state.flag > 0 then { state with h21 := -1, h12 := 1, flag := -1 }
  else state

def rescaleFirst (state : RotmgState R) : RotmgState R :=
  if state.d1 ≤ rgamsq then
    { state with d1 := state.d1 * gamsq, x1 := state.x1 / gam, h11 := state.h11 / gam, h12 := state.h12 / gam }
  else { state with d1 := state.d1 / gamsq, x1 := state.x1 * gam, h11 := state.h11 * gam, h12 := state.h12 * gam }

def rescaleSecond (state : RotmgState R) : RotmgState R :=
  if |state.d2| ≤ rgamsq then { state with d2 := state.d2 * gamsq, h21 := state.h21 / gam, h22 := state.h22 / gam }
  else { state with d2 := state.d2 / gamsq, h21 := state.h21 * gam, h22 := state.h22 * gam }

-- while (size <= rgamsq or size >= gamsq)
def rescaleLoop (size : RotmgState R → R) (step : RotmgState R → RotmgState R) : Nat → RotmgState R → Option (RotmgState R)
  | 0, _ => none
  | fuel + 1, state =>
    if size state ≤ rgamsq ∨ size state ≥ gamsq then rescaleLoop size step fuel (step state) else some state

def rescaleFirstLoop : Nat → RotmgState R → Option (RotmgState R) :=
  rescaleLoop (fun state => state.d1) (fun state => rescaleFirst state.explicit)

def rescaleSecondLoop : Nat → RotmgState R → Option (RotmgState R) :=
  rescaleLoop (fun state => |state.d2|) (fun state => rescaleSecond state.explicit)

inductive RotmgExit where
  | negativeFirst
  | unchanged
  | negativeDeterminant
  | negativeSecond
  | rotated
  deriving DecidableEq, Repr

def zeroedState : RotmgState R := ⟨0, 0, 0, -1, 0, 0, 0, 0⟩

-- Everything before the rescaling loops.
def rotmgStart (d1 d2 x1 y1 : R) : Option (RotmgExit × RotmgState R) :=
  if d1 < 0 then some (.negativeFirst, zeroedState)
  else
    let p2 := d2 * y1
    if p2 = 0 then some (.unchanged, ⟨d1, d2, x1, -2, 0, 0, 0, 0⟩)
    else
      let p1 := d1 * x1
      let q2 := p2 * y1
      let q1 := p1 * x1
      if |q1| > |q2| then do
        let h21 ← divided (-y1) x1
        let h12 ← divided p2 p1
        let u := 1 - h12 * h21
        if u > 0 then
          let first ← divided d1 u
          let second ← divided d2 u
          return (.rotated, ⟨first, second, x1 * u, 0, 0, h12, h21, 0⟩)
        else return (.negativeDeterminant, { zeroedState with h12 := h12, h21 := h21 })
      else if q2 < 0 then some (.negativeSecond, zeroedState)
      else do
        let h11 ← divided p1 p2
        let h22 ← divided x1 y1
        let u := 1 + h11 * h22
        let first ← divided d2 u
        let second ← divided d1 u
        return (.rotated, ⟨first, second, y1 * u, 1, h11, 0, 0, h22⟩)

-- Only the entries the flag names are stored.
def storeParam (state : RotmgState R) (param : Nat → R) : Nat → R :=
  let flagged := Function.update param 0 state.flag
  if state.flag < 0 then
    Function.update (Function.update (Function.update (Function.update flagged 1 state.h11) 2 state.h21) 3 state.h12) 4
      state.h22
  else if state.flag = 0 then Function.update (Function.update flagged 2 state.h21) 3 state.h12
  else Function.update (Function.update flagged 1 state.h11) 4 state.h22

structure RotmgResult (R : Type) where
  exit : RotmgExit
  d1 : R
  d2 : R
  x1 : R
  param : Nat → R

def rotmg (fuel : Nat) (d1 d2 x1 y1 : R) (param : Nat → R) : Option (RotmgResult R) := do
  let (exit, state) ← rotmgStart d1 d2 x1 y1
  if exit = .unchanged then return ⟨exit, d1, d2, x1, Function.update param 0 (-2)⟩
  else if exit = .negativeFirst then return ⟨exit, state.d1, state.d2, state.x1, storeParam state param⟩
  else
    let state ← (if state.d1 ≠ 0 then rescaleFirstLoop fuel state else some state)
    let state ← (if state.d2 ≠ 0 then rescaleSecondLoop fuel state else some state)
    return ⟨exit, state.d1, state.d2, state.x1, storeParam state param⟩

/- The matrix of a flag and its entries. -/
section Matrix

def ModifiedRotation.matrix (h : ModifiedRotation R) : Matrix (Fin 2) (Fin 2) R :=
  if h.flag < 0 then !![h.h11, h.h12; h.h21, h.h22]
  else if h.flag = 0 then !![1, h.h12; h.h21, 1]
  else !![h.h11, 1; -1, h.h22]

theorem rotm_rule_first (h : ModifiedRotation R) (w z : Nat → R) (lane : Nat) :
    (rotmRule h).first w z lane = h.matrix 0 0 * w lane + h.matrix 0 1 * z lane := by
  rw [rotmRule, ModifiedRotation.matrix]
  split
  · change w lane * h.h11 + z lane * h.h12 = h.h11 * w lane + h.h12 * z lane
    ring
  split
  · change z lane * h.h12 + w lane = 1 * w lane + h.h12 * z lane
    ring
  · change w lane * h.h11 + z lane = h.h11 * w lane + 1 * z lane
    ring

theorem rotm_rule_second (h : ModifiedRotation R) (w z : Nat → R) (lane : Nat) :
    (rotmRule h).second w z lane = h.matrix 1 0 * w lane + h.matrix 1 1 * z lane := by
  rw [rotmRule, ModifiedRotation.matrix]
  split
  · change w lane * h.h21 + z lane * h.h22 = h.h21 * w lane + h.h22 * z lane
    ring
  split
  · change w lane * h.h21 + z lane = h.h21 * w lane + 1 * z lane
    ring
  · change z lane * h.h22 - w lane = -1 * w lane + h.h22 * z lane
    ring

def RotmgState.rotation (state : RotmgState R) : ModifiedRotation R :=
  ⟨state.flag, state.h11, state.h21, state.h12, state.h22⟩

theorem read_store_param (state : RotmgState R) (param : Nat → R) :
    (readParam (storeParam state param)).matrix = state.rotation.matrix := by
  rw [storeParam]
  rcases lt_trichotomy state.flag 0 with negative | zero | positive
  · rw [if_pos negative]
    simp [readParam, ModifiedRotation.matrix, RotmgState.rotation, negative, le_of_lt negative]
  · rw [if_neg (by rw [zero]; exact lt_irrefl 0), if_pos zero]
    simp [readParam, ModifiedRotation.matrix, RotmgState.rotation, zero]
  · rw [if_neg (lt_asymm positive), if_neg (ne_of_gt positive)]
    simp [readParam, ModifiedRotation.matrix, RotmgState.rotation, positive, lt_asymm positive,
      ne_of_gt positive]

end Matrix

/- What every step keeps: the matrix maps (x1, y1) to the state's x1 and zero, and
   carries the weights of the state back to those of the call. -/
section Invariant

structure Transforms (d1 d2 x1 y1 : R) (state : RotmgState R) : Prop where
  flagged : state.flag = -1 ∨ state.flag = 0 ∨ state.flag = 1
  onto : state.rotation.matrix 0 0 * x1 + state.rotation.matrix 0 1 * y1 = state.x1
  clears : state.rotation.matrix 1 0 * x1 + state.rotation.matrix 1 1 * y1 = 0
  firstWeight : state.d1 * (state.rotation.matrix 0 0 * state.rotation.matrix 0 0) +
    state.d2 * (state.rotation.matrix 1 0 * state.rotation.matrix 1 0) = d1
  cross : state.d1 * (state.rotation.matrix 0 0 * state.rotation.matrix 0 1) +
    state.d2 * (state.rotation.matrix 1 0 * state.rotation.matrix 1 1) = 0
  secondWeight : state.d1 * (state.rotation.matrix 0 1 * state.rotation.matrix 0 1) +
    state.d2 * (state.rotation.matrix 1 1 * state.rotation.matrix 1 1) = d2

variable [IsStrictOrderedRing R] {d1 d2 x1 y1 : R} {state : RotmgState R}

theorem gam_positive : 0 < (gam : R) := by
  rw [gam]
  positivity

theorem gamsq_large : 1 < (gamsq : R) := by
  rw [gamsq, gam]
  norm_num

theorem rgamsq_small : (rgamsq : R) < 1 := by
  rw [rgamsq, div_lt_one (zero_lt_one.trans gamsq_large)]
  exact gamsq_large

theorem rgamsq_mul_gamsq : (rgamsq : R) * gamsq = 1 := by
  rw [rgamsq, one_div_mul_cancel (ne_of_gt (zero_lt_one.trans gamsq_large))]

omit [IsStrictOrderedRing R] in
theorem explicit_flagged (state : RotmgState R) (flagged : state.flag = -1 ∨ state.flag = 0 ∨ state.flag = 1) :
    state.explicit.flag = -1 ∨ state.explicit.flag = 0 ∨ state.explicit.flag = 1 := by
  rw [RotmgState.explicit]
  split
  · exact .inl rfl
  split
  · exact .inl rfl
  · exact flagged

theorem explicit_flag (state : RotmgState R) : state.explicit.flag < 0 := by
  rw [RotmgState.explicit]
  split
  · exact neg_one_lt_zero
  split
  · exact neg_one_lt_zero
  · rename_i nonzero nonpositive
    exact lt_of_le_of_ne (not_lt.mp nonpositive) nonzero

omit [IsStrictOrderedRing R] in
theorem explicit_kept (state : RotmgState R) :
    state.explicit.d1 = state.d1 ∧ state.explicit.d2 = state.d2 ∧ state.explicit.x1 = state.x1 := by
  rw [RotmgState.explicit]
  split
  · exact ⟨rfl, rfl, rfl⟩
  split
  · exact ⟨rfl, rfl, rfl⟩
  · exact ⟨rfl, rfl, rfl⟩

theorem explicit_matrix (state : RotmgState R) :
    state.explicit.rotation.matrix = state.rotation.matrix := by
  rw [RotmgState.explicit]
  split
  · rename_i zero
    simp [RotmgState.rotation, ModifiedRotation.matrix, zero]
  split
  · rename_i positive
    simp [RotmgState.rotation, ModifiedRotation.matrix, lt_asymm positive, ne_of_gt positive]
  · rfl

theorem Transforms.explicit (transforms : Transforms d1 d2 x1 y1 state) : Transforms d1 d2 x1 y1 state.explicit := by
  obtain ⟨sameFirst, sameSecond, sameX⟩ := explicit_kept state
  obtain ⟨flagged, onto, clears, firstWeight, cross, secondWeight⟩ := transforms
  refine ⟨explicit_flagged state flagged, ?_, ?_, ?_, ?_, ?_⟩ <;> rw [explicit_matrix]
  · rw [sameX, onto]
  · exact clears
  · rw [sameFirst, sameSecond, firstWeight]
  · rw [sameFirst, sameSecond, cross]
  · rw [sameFirst, sameSecond, secondWeight]

omit [LinearOrder R] [IsStrictOrderedRing R] in
theorem rescaled_weight {factor : R} (nonzero : factor ≠ 0) (d a b : R) :
    d * (factor * factor) * (a / factor * (b / factor)) = d * (a * b) ∧
      d / (factor * factor) * (a * factor * (b * factor)) = d * (a * b) := by
  constructor
  · field_simp
  · field_simp

omit [IsStrictOrderedRing R] in
theorem matrix_negative (h : ModifiedRotation R) (negative : h.flag < 0) : h.matrix = !![h.h11, h.h12; h.h21, h.h22] := by
  rw [ModifiedRotation.matrix, if_pos negative]

theorem Transforms.rescale_first (transforms : Transforms d1 d2 x1 y1 state) (negative : state.flag < 0) :
    Transforms d1 d2 x1 y1 (rescaleFirst state) := by
  have nonzero : (gam : R) ≠ 0 := ne_of_gt gam_positive
  obtain ⟨flagged, onto, clears, firstWeight, cross, secondWeight⟩ := transforms
  have scaled := fun d a b => (rescaled_weight nonzero d a b).1
  have unscaled := fun d a b => (rescaled_weight nonzero d a b).2
  rw [matrix_negative _ negative] at onto clears firstWeight cross secondWeight
  rw [rescaleFirst]
  split
  · refine ⟨flagged, ?_, ?_, ?_, ?_, ?_⟩ <;> rw [matrix_negative _ negative]
    · change state.h11 / gam * x1 + state.h12 / gam * y1 = state.x1 / gam
      rw [← show state.h11 * x1 + state.h12 * y1 = state.x1 from onto]
      ring
    · exact clears
    · exact (congrArg (· + _) (scaled _ _ _)).trans firstWeight
    · exact (congrArg (· + _) (scaled _ _ _)).trans cross
    · exact (congrArg (· + _) (scaled _ _ _)).trans secondWeight
  · refine ⟨flagged, ?_, ?_, ?_, ?_, ?_⟩ <;> rw [matrix_negative _ negative]
    · change state.h11 * gam * x1 + state.h12 * gam * y1 = state.x1 * gam
      rw [← show state.h11 * x1 + state.h12 * y1 = state.x1 from onto]
      ring
    · exact clears
    · exact (congrArg (· + _) (unscaled _ _ _)).trans firstWeight
    · exact (congrArg (· + _) (unscaled _ _ _)).trans cross
    · exact (congrArg (· + _) (unscaled _ _ _)).trans secondWeight

theorem Transforms.rescale_second (transforms : Transforms d1 d2 x1 y1 state) (negative : state.flag < 0) :
    Transforms d1 d2 x1 y1 (rescaleSecond state) := by
  have nonzero : (gam : R) ≠ 0 := ne_of_gt gam_positive
  obtain ⟨flagged, onto, clears, firstWeight, cross, secondWeight⟩ := transforms
  have scaled := fun d a b => (rescaled_weight nonzero d a b).1
  have unscaled := fun d a b => (rescaled_weight nonzero d a b).2
  rw [matrix_negative _ negative] at onto clears firstWeight cross secondWeight
  have row : state.h21 * x1 + state.h22 * y1 = 0 := clears
  rw [rescaleSecond]
  split
  · refine ⟨flagged, ?_, ?_, ?_, ?_, ?_⟩ <;> rw [matrix_negative _ negative]
    · exact onto
    · change state.h21 / gam * x1 + state.h22 / gam * y1 = 0
      rw [show state.h21 / gam * x1 + state.h22 / gam * y1 = (state.h21 * x1 + state.h22 * y1) / gam by ring, row, zero_div]
    · exact (congrArg (_ + ·) (scaled _ _ _)).trans firstWeight
    · exact (congrArg (_ + ·) (scaled _ _ _)).trans cross
    · exact (congrArg (_ + ·) (scaled _ _ _)).trans secondWeight
  · refine ⟨flagged, ?_, ?_, ?_, ?_, ?_⟩ <;> rw [matrix_negative _ negative]
    · exact onto
    · change state.h21 * gam * x1 + state.h22 * gam * y1 = 0
      rw [show state.h21 * gam * x1 + state.h22 * gam * y1 = (state.h21 * x1 + state.h22 * y1) * gam by ring, row, zero_mul]
    · exact (congrArg (_ + ·) (unscaled _ _ _)).trans firstWeight
    · exact (congrArg (_ + ·) (unscaled _ _ _)).trans cross
    · exact (congrArg (_ + ·) (unscaled _ _ _)).trans secondWeight

end Invariant

/- A size that every turn multiplies or divides by gamsq comes to lie between the limits. -/
section Loops

variable [IsStrictOrderedRing R]

def Inside (size : R) : Prop := rgamsq < size ∧ size < gamsq

-- A turn moves the size by one factor towards the limits and keeps the invariant.
structure Rescales (size : RotmgState R → R) (step : RotmgState R → RotmgState R) (invariant : RotmgState R → Prop) :
    Prop where
  grows : ∀ state, size state ≤ rgamsq → size (step state) = size state * gamsq
  shrinks : ∀ state, ¬ size state ≤ rgamsq → size (step state) = size state / gamsq
  keeps : ∀ state, invariant state → invariant (step state)

variable {size : RotmgState R → R} {step : RotmgState R → RotmgState R} {invariant : RotmgState R → Prop}

omit [IsStrictOrderedRing R] in
def Settles (size : RotmgState R → R) (step : RotmgState R → RotmgState R) (invariant : RotmgState R → Prop)
    (state : RotmgState R) : Prop :=
  ∃ fuel final, (∀ more, fuel ≤ more → rescaleLoop size step more state = some final) ∧ invariant final ∧
    Inside (size final)

omit [IsStrictOrderedRing R] in
theorem settles_inside {state : RotmgState R} (keeps : invariant state) (inside : Inside (size state)) :
    Settles size step invariant state := by
  refine ⟨1, state, fun more enough => ?_, keeps, inside⟩
  obtain ⟨fuel, rfl⟩ := Nat.exists_eq_add_of_le' enough
  rw [rescaleLoop, if_neg]
  intro outside
  rcases outside with low | high
  · exact absurd low (not_le.mpr inside.1)
  · exact absurd high (not_le.mpr inside.2)

omit [IsStrictOrderedRing R] in
theorem settles_step {state : RotmgState R} (outside : size state ≤ rgamsq ∨ size state ≥ gamsq)
    (next : Settles size step invariant (step state)) : Settles size step invariant state := by
  obtain ⟨fuel, final, ends, keeps, inside⟩ := next
  refine ⟨fuel + 1, final, fun more enough => ?_, keeps, inside⟩
  obtain ⟨fuel', rfl⟩ := Nat.exists_eq_add_of_le' (Nat.le_of_add_left_le enough)
  rw [rescaleLoop, if_pos outside]
  exact ends fuel' (by omega)

theorem settles_small (rescales : Rescales size step invariant) (turns : Nat) (state : RotmgState R)
    (keeps : invariant state) (below : size state < gamsq) (reached : rgamsq < size state * gamsq ^ turns) :
    Settles size step invariant state := by
  induction turns generalizing state with
  | zero =>
    rw [pow_zero, mul_one] at reached
    exact settles_inside keeps ⟨reached, below⟩
  | succ turns ih =>
    by_cases low : size state ≤ rgamsq
    · have grown := rescales.grows state low
      refine settles_step (.inl low) (ih _ (rescales.keeps state keeps) ?_ ?_)
      · have bound := mul_le_mul_of_nonneg_right low (le_of_lt (zero_lt_one.trans (gamsq_large (R := R))))
        rw [rgamsq_mul_gamsq] at bound
        rw [grown]
        exact bound.trans_lt gamsq_large
      · rw [grown, mul_assoc, ← pow_succ']
        exact reached
    · exact settles_inside keeps ⟨not_le.mp low, below⟩

theorem settles_large (rescales : Rescales size step invariant) (turns : Nat) (state : RotmgState R)
    (keeps : invariant state) (above : rgamsq < size state) (reached : size state < gamsq ^ (turns + 1)) :
    Settles size step invariant state := by
  have positive : 0 < (gamsq : R) := zero_lt_one.trans gamsq_large
  induction turns generalizing state with
  | zero =>
    rw [zero_add, pow_one] at reached
    exact settles_inside keeps ⟨above, reached⟩
  | succ turns ih =>
    by_cases high : size state ≥ gamsq
    · have shrunk := rescales.shrinks state (not_le.mpr above)
      refine settles_step (.inr high) (ih _ (rescales.keeps state keeps) ?_ ?_)
      · rw [shrunk]
        exact rgamsq_small.trans_le ((one_le_div positive).mpr high)
      · rw [shrunk, div_lt_iff₀ positive, ← pow_succ]
        exact reached
    · exact settles_inside keeps ⟨above, not_le.mp high⟩

theorem settles [Archimedean R] (rescales : Rescales size step invariant) (state : RotmgState R) (keeps : invariant state)
    (positive : 0 < size state) : Settles size step invariant state := by
  by_cases above : rgamsq < size state
  · obtain ⟨turns, reached⟩ := pow_unbounded_of_one_lt (size state) (gamsq_large (R := R))
    refine settles_large rescales turns state keeps above (reached.trans ?_)
    exact pow_lt_pow_right₀ gamsq_large (Nat.lt_succ_self turns)
  · have below := (not_lt.mp above).trans_lt (rgamsq_small.trans gamsq_large)
    obtain ⟨turns, reached⟩ := pow_unbounded_of_one_lt (1 / size state) (gamsq_large (R := R))
    refine settles_small rescales turns state keeps below (rgamsq_small.trans ?_)
    rw [div_lt_iff₀ positive, mul_comm] at reached
    exact reached

variable {d1 d2 x1 y1 : R}

theorem first_rescales (d1 d2 x1 y1 : R) :
    Rescales (fun state => state.d1) (fun state => rescaleFirst state.explicit) (Transforms d1 d2 x1 y1) where
  grows state low := by
    have kept := (explicit_kept state).1
    rw [rescaleFirst, if_pos (kept ▸ low)]
    exact congrArg (· * gamsq) kept
  shrinks state high := by
    have kept := (explicit_kept state).1
    rw [rescaleFirst, if_neg (kept ▸ high)]
    exact congrArg (· / gamsq) kept
  keeps state transforms := transforms.explicit.rescale_first (explicit_flag state)

omit [IsStrictOrderedRing R] in
theorem rescale_second_first (state : RotmgState R) : (rescaleSecond state.explicit).d1 = state.d1 := by
  rw [rescaleSecond]
  split
  · exact (explicit_kept state).1
  · exact (explicit_kept state).1

theorem second_rescales (d1 d2 x1 y1 first : R) :
    Rescales (fun state => |state.d2|) (fun state => rescaleSecond state.explicit)
      (fun state => Transforms d1 d2 x1 y1 state ∧ state.d1 = first) where
  grows state low := by
    have kept := (explicit_kept state).2.1
    have positive : (0 : R) ≤ gamsq := le_of_lt (zero_lt_one.trans gamsq_large)
    rw [rescaleSecond, if_pos (kept ▸ low)]
    change |state.explicit.d2 * gamsq| = |state.d2| * gamsq
    rw [kept, abs_mul, abs_of_nonneg positive]
  shrinks state high := by
    have kept := (explicit_kept state).2.1
    have positive : (0 : R) ≤ gamsq := le_of_lt (zero_lt_one.trans gamsq_large)
    rw [rescaleSecond, if_neg (kept ▸ high)]
    change |state.explicit.d2 / gamsq| = |state.d2| / gamsq
    rw [kept, abs_div, abs_of_nonneg positive]
  keeps state both :=
    ⟨both.1.explicit.rescale_second (explicit_flag state), (rescale_second_first state).trans both.2⟩

end Loops

section Start

variable [IsStrictOrderedRing R] {d1 d2 x1 y1 : R}

theorem determinant_positive (x_nonzero : x1 ≠ 0) (d_positive : 0 < d1) (larger : |d2 * y1 * y1| < |d1 * x1 * x1|) :
    0 < 1 - d2 * y1 / (d1 * x1) * (-y1 / x1) := by
  have square : 0 < d1 * x1 * x1 := by
    rw [mul_assoc]
    exact mul_pos d_positive (mul_self_pos.mpr x_nonzero)
  rw [abs_of_pos square] at larger
  have lower := (abs_lt.mp larger).1
  have same : 1 - d2 * y1 / (d1 * x1) * (-y1 / x1) = (d1 * x1 * x1 + d2 * y1 * y1) / (d1 * x1 * x1) := by
    field_simp
    ring
  rw [same]
  exact div_pos (by linarith) square

theorem larger_nonzero (larger : |d2 * y1 * y1| < |d1 * x1 * x1|) : d1 * x1 ≠ 0 :=
  left_ne_zero_of_mul (abs_pos.mp ((abs_nonneg _).trans_lt larger))

theorem larger_determinant (nonneg : 0 ≤ d1) (larger : |d2 * y1 * y1| < |d1 * x1 * x1|) :
    0 < 1 - d2 * y1 / (d1 * x1) * (-y1 / x1) := by
  have p1 := larger_nonzero larger
  exact determinant_positive (right_ne_zero_of_mul p1) (lt_of_le_of_ne nonneg (left_ne_zero_of_mul p1).symm) larger

theorem plain_first (x_nonzero : x1 ≠ 0) (d_nonzero : d1 ≠ 0) {h12 h21 u : R} (second : h12 = d2 * y1 / (d1 * x1))
    (first : h21 = -y1 / x1) (determinant : u = 1 - h12 * h21) (nonzero : u ≠ 0) :
    Transforms d1 d2 x1 y1 ⟨d1 / u, d2 / u, x1 * u, 0, 0, h12, h21, 0⟩ := by
  have row : h21 * x1 = -y1 := by rw [first, div_mul_cancel₀ _ x_nonzero]
  have weight : d1 * h12 = -(d2 * h21) := by
    rw [first, second]
    field_simp
  have matrix : (⟨d1 / u, d2 / u, x1 * u, 0, 0, h12, h21, 0⟩ : RotmgState R).rotation.matrix = !![1, h12; h21, 1] := by
    rw [ModifiedRotation.matrix]
    exact (if_neg (lt_irrefl 0)).trans (if_pos rfl)
  refine ⟨.inr (.inl rfl), ?_, ?_, ?_, ?_, ?_⟩ <;> rw [matrix]
  · change 1 * x1 + h12 * y1 = x1 * u
    rw [determinant]
    linear_combination h12 * row
  · change h21 * x1 + 1 * y1 = 0
    linear_combination row
  · change d1 / u * (1 * 1) + d2 / u * (h21 * h21) = d1
    field_simp
    rw [determinant]
    linear_combination h21 * weight
  · change d1 / u * (1 * h12) + d2 / u * (h21 * 1) = 0
    field_simp
    linear_combination weight
  · change d1 / u * (h12 * h12) + d2 / u * (1 * 1) = d2
    field_simp
    rw [determinant]
    linear_combination h12 * weight

theorem plain_second (y_nonzero : y1 ≠ 0) (d_nonzero : d2 ≠ 0) {h11 h22 u : R} (first : h11 = d1 * x1 / (d2 * y1))
    (second : h22 = x1 / y1) (determinant : u = 1 + h11 * h22) (nonzero : u ≠ 0) :
    Transforms d1 d2 x1 y1 ⟨d2 / u, d1 / u, y1 * u, 1, h11, 0, 0, h22⟩ := by
  have row : h22 * y1 = x1 := by rw [second, div_mul_cancel₀ _ y_nonzero]
  have weight : d2 * h11 = d1 * h22 := by
    rw [first, second]
    field_simp
  have matrix : (⟨d2 / u, d1 / u, y1 * u, 1, h11, 0, 0, h22⟩ : RotmgState R).rotation.matrix = !![h11, 1; -1, h22] := by
    rw [ModifiedRotation.matrix]
    exact (if_neg (not_lt.mpr zero_le_one)).trans (if_neg one_ne_zero)
  refine ⟨.inr (.inr rfl), ?_, ?_, ?_, ?_, ?_⟩ <;> rw [matrix]
  · change h11 * x1 + 1 * y1 = y1 * u
    rw [determinant]
    linear_combination -h11 * row
  · change -1 * x1 + h22 * y1 = 0
    linear_combination row
  · change d2 / u * (h11 * h11) + d1 / u * (-1 * -1) = d1
    field_simp
    rw [determinant]
    linear_combination h11 * weight
  · change d2 / u * (h11 * 1) + d1 / u * (-1 * h22) = 0
    field_simp
    linear_combination weight
  · change d2 / u * (1 * 1) + d1 / u * (h22 * h22) = d2
    field_simp
    rw [determinant]
    linear_combination -h22 * weight

-- The zeroed exit for q2 < 0, with no larger q1.
def SecondNegative (d1 d2 x1 y1 : R) : Prop :=
  d2 * y1 * y1 < 0 ∧ |d1 * x1 * x1| ≤ |d2 * y1 * y1|

inductive Started (d1 d2 x1 y1 : R) : RotmgExit → RotmgState R → Prop where
  | unchanged (state : RotmgState R) (empty : d2 * y1 = 0) : Started d1 d2 x1 y1 .unchanged state
  | negativeSecond (some : d2 * y1 ≠ 0) (negative : SecondNegative d1 d2 x1 y1) :
    Started d1 d2 x1 y1 .negativeSecond zeroedState
  | rotated (state : RotmgState R) (some : d2 * y1 ≠ 0) (other : ¬ SecondNegative d1 d2 x1 y1) (positive : 0 < state.d1)
    (transforms : Transforms d1 d2 x1 y1 state) : Started d1 d2 x1 y1 .rotated state

theorem rotmg_start (x1 y1 d2 : R) (nonneg : 0 ≤ d1) :
    ∃ exit state, rotmgStart d1 d2 x1 y1 = some (exit, state) ∧ Started d1 d2 x1 y1 exit state := by
  rw [rotmgStart, if_neg (not_lt.mpr nonneg)]
  dsimp only
  by_cases p2 : d2 * y1 = 0
  · rw [if_pos p2]
    exact ⟨_, _, rfl, .unchanged _ p2⟩
  rw [if_neg p2]
  have d2_nonzero : d2 ≠ 0 := left_ne_zero_of_mul p2
  have y_nonzero : y1 ≠ 0 := right_ne_zero_of_mul p2
  by_cases larger : |d1 * x1 * x1| > |d2 * y1 * y1|
  · have p1 := larger_nonzero larger
    have x_nonzero : x1 ≠ 0 := right_ne_zero_of_mul p1
    have d_nonzero : d1 ≠ 0 := left_ne_zero_of_mul p1
    have positive : 0 < d1 := lt_of_le_of_ne nonneg d_nonzero.symm
    have determinant := larger_determinant nonneg larger
    have nonzero := ne_of_gt determinant
    rw [if_pos larger]
    simp only [divided_nonzero _ x_nonzero, divided_nonzero _ p1, Option.bind_eq_bind, Option.bind_some,
      gt_iff_lt, if_pos determinant, divided_nonzero _ nonzero]
    exact ⟨_, _, rfl, .rotated _ p2 (fun zeroed => not_le.mpr larger zeroed.2) (div_pos positive determinant)
      (plain_first x_nonzero d_nonzero rfl rfl rfl nonzero)⟩
  · rw [if_neg larger]
    by_cases negative : d2 * y1 * y1 < 0
    · rw [if_pos negative]
      exact ⟨_, _, rfl, .negativeSecond p2 ⟨negative, not_lt.mp larger⟩⟩
    rw [if_neg negative]
    have square := mul_self_pos.mpr y_nonzero
    have positive : 0 < d2 := by
      rw [mul_assoc] at negative
      refine lt_of_le_of_ne (not_lt.mp (fun below => negative ?_)) d2_nonzero.symm
      exact mul_neg_of_neg_of_pos below square
    have determinant : 0 < 1 + d1 * x1 / (d2 * y1) * (x1 / y1) := by
      have same : d1 * x1 / (d2 * y1) * (x1 / y1) = d1 * (x1 * x1) / (d2 * (y1 * y1)) := by field_simp
      have quotient := div_nonneg (mul_nonneg nonneg (mul_self_nonneg x1)) (le_of_lt (mul_pos positive square))
      rw [same]
      linarith [zero_lt_one (α := R)]
    have nonzero := ne_of_gt determinant
    simp only [divided_nonzero _ p2, divided_nonzero _ y_nonzero, Option.bind_eq_bind, Option.bind_some,
      divided_nonzero _ nonzero]
    exact ⟨_, _, rfl, .rotated _ p2 (fun zeroed => negative zeroed.1) (div_pos positive determinant)
      (plain_second y_nonzero d2_nonzero rfl rfl rfl nonzero)⟩

end Start

/- The result of a whole call. -/
section Result

-- The matrix rotm applies for a parameter array, column by column.
def decoded (param : Nat → R) : Matrix (Fin 2) (Fin 2) R :=
  let rule := rotmRule (readParam param)
  !![rule.first (fun _ => 1) (fun _ => 0) 0, rule.first (fun _ => 0) (fun _ => 1) 0;
     rule.second (fun _ => 1) (fun _ => 0) 0, rule.second (fun _ => 0) (fun _ => 1) 0]

theorem decoded_matrix (param : Nat → R) : decoded param = (readParam param).matrix := by
  ext i j
  fin_cases i <;> fin_cases j <;> simp [decoded, rotm_rule_first, rotm_rule_second]

structure ModifiedGivens (d1 d2 x1 y1 : R) (result : RotmgResult R) : Prop where
  flagged : result.param 0 = -1 ∨ result.param 0 = 0 ∨ result.param 0 = 1
  onto : (rotmRule (readParam result.param)).first (fun _ => x1) (fun _ => y1) 0 = result.x1
  clears : (rotmRule (readParam result.param)).second (fun _ => x1) (fun _ => y1) 0 = 0
  weights : (decoded result.param).transpose * Matrix.diagonal ![result.d1, result.d2] * decoded result.param =
    Matrix.diagonal ![d1, d2]
  firstInside : result.d1 ≠ 0 → Inside result.d1
  secondInside : result.d2 ≠ 0 → Inside |result.d2|

-- The zeroed exit: no weights, no point and a matrix of zeros.
structure Zeroed (result : RotmgResult R) : Prop where
  first : result.d1 = 0
  second : result.d2 = 0
  point : result.x1 = 0
  stored : readParam result.param = ⟨-1, 0, 0, 0, 0⟩

-- What a call leaves, told by the stored flag and by its arguments.
structure RotmgLaw (d1 d2 x1 y1 : R) (result : RotmgResult R) : Prop where
  unchanged : result.param 0 = -2 ↔ d2 * y1 = 0
  zeroed : Zeroed result ↔ SecondNegative d1 d2 x1 y1
  rotates : result.param 0 ≠ -2 → ¬ Zeroed result → ModifiedGivens d1 d2 x1 y1 result
  reached : result.exit ≠ .negativeDeterminant

variable {d1 d2 x1 y1 : R}

theorem store_param_flag (state : RotmgState R) (param : Nat → R) : storeParam state param 0 = state.flag := by
  rw [storeParam]
  split
  · simp
  split
  · simp
  · simp

theorem Transforms.modified_givens {state : RotmgState R} (transforms : Transforms d1 d2 x1 y1 state) (exit : RotmgExit)
    (param : Nat → R) (first : Inside state.d1) (second : state.d2 ≠ 0 → Inside |state.d2|) :
    ModifiedGivens d1 d2 x1 y1 ⟨exit, state.d1, state.d2, state.x1, storeParam state param⟩ := by
  obtain ⟨flagged, onto, clears, firstWeight, cross, secondWeight⟩ := transforms
  refine ⟨?_, ?_, ?_, ?_, fun _ => first, second⟩
  · rw [← store_param_flag state param] at flagged
    exact flagged
  · rw [rotm_rule_first, read_store_param]
    exact onto
  · rw [rotm_rule_second, read_store_param]
    exact clears
  · rw [decoded_matrix, read_store_param]
    ext i j
    fin_cases i <;> fin_cases j <;>
      simp [Matrix.mul_apply, Fin.sum_univ_two, Matrix.diagonal_apply]
    · linear_combination firstWeight
    · linear_combination cross
    · linear_combination cross
    · linear_combination secondWeight

variable [IsStrictOrderedRing R] [Archimedean R]

theorem rescaled {state : RotmgState R} (positive : 0 < state.d1) (transforms : Transforms d1 d2 x1 y1 state) :
    ∃ fuel middle final, (∀ more, fuel ≤ more → rescaleFirstLoop more state = some middle) ∧ middle.d1 ≠ 0 ∧
      (∀ more, fuel ≤ more → (if middle.d2 ≠ 0 then rescaleSecondLoop more middle else some middle) = some final) ∧
      Transforms d1 d2 x1 y1 final ∧ Inside final.d1 ∧ (final.d2 ≠ 0 → Inside |final.d2|) := by
  obtain ⟨fuel, middle, ends, keeps, inside⟩ := settles (first_rescales d1 d2 x1 y1) state transforms positive
  have small : (0 : R) < rgamsq := one_div_pos.mpr (zero_lt_one.trans gamsq_large)
  have nonzero : middle.d1 ≠ 0 := ne_of_gt (small.trans inside.1)
  by_cases empty : middle.d2 = 0
  · refine ⟨fuel, middle, middle, ends, nonzero, fun more _ => ?_, keeps, inside, fun some => absurd empty some⟩
    rw [if_neg (not_not.mpr empty)]
  · obtain ⟨fuel', final, ends', keeps', inside'⟩ :=
      settles (second_rescales d1 d2 x1 y1 middle.d1) middle ⟨keeps, rfl⟩ (abs_pos.mpr empty)
    refine ⟨max fuel fuel', middle, final, fun more enough => ends more ((le_max_left _ _).trans enough), nonzero,
      fun more enough => ?_, keeps'.1, keeps'.2 ▸ inside, fun _ => inside'⟩
    rw [if_pos empty]
    exact ends' more ((le_max_right _ _).trans enough)

omit [Archimedean R] in
theorem unchanged_law (empty : d2 * y1 = 0) (param : Nat → R) :
    RotmgLaw d1 d2 x1 y1 ⟨.unchanged, d1, d2, x1, Function.update param 0 (-2)⟩ := by
  have flag : Function.update param 0 (-2) 0 = (-2 : R) := Function.update_self 0 (-2) param
  refine ⟨⟨fun _ => empty, fun _ => flag⟩, ⟨fun zeroed => ?_, fun negative => ?_⟩, fun changed => absurd flag changed,
    RotmgExit.noConfusion⟩
  · have other : Function.update param 0 (-2) 0 = (-1 : R) := congrArg ModifiedRotation.flag zeroed.stored
    rw [flag] at other
    exact absurd other (by norm_num)
  · have square := negative.1
    rw [empty, zero_mul] at square
    exact absurd square (lt_irrefl 0)

omit [Archimedean R] in
theorem negative_second_law (some : d2 * y1 ≠ 0) (negative : SecondNegative d1 d2 x1 y1) (param : Nat → R) :
    RotmgLaw d1 d2 x1 y1 ⟨.negativeSecond, 0, 0, 0, storeParam zeroedState param⟩ := by
  have flag : storeParam zeroedState param 0 = (-1 : R) := store_param_flag zeroedState param
  have zeroed : Zeroed (⟨.negativeSecond, 0, 0, 0, storeParam zeroedState param⟩ : RotmgResult R) :=
    ⟨rfl, rfl, rfl, by simp [readParam, storeParam, zeroedState]⟩
  refine ⟨⟨fun other => ?_, fun empty => absurd empty some⟩, ⟨fun _ => negative, fun _ => zeroed⟩,
    fun _ other => absurd zeroed other, RotmgExit.noConfusion⟩
  exact absurd (flag.symm.trans other) (by norm_num)

omit [Archimedean R] in
theorem ModifiedGivens.law {result : RotmgResult R} (givens : ModifiedGivens d1 d2 x1 y1 result) (some : d2 * y1 ≠ 0)
    (other : ¬ SecondNegative d1 d2 x1 y1) (weight : result.d1 ≠ 0) (rotated : result.exit = .rotated) :
    RotmgLaw d1 d2 x1 y1 result := by
  refine ⟨⟨fun flag => ?_, fun empty => absurd empty some⟩, ⟨fun zeroed => absurd zeroed.first weight, fun negative =>
    absurd negative other⟩, fun _ _ => givens, by rw [rotated]; exact RotmgExit.noConfusion⟩
  rcases givens.flagged with explicit | unit | swapped
  · rw [explicit] at flag
    exact absurd flag (by norm_num)
  · rw [unit] at flag
    exact absurd flag (by norm_num)
  · rw [swapped] at flag
    exact absurd flag (by norm_num)

theorem rotmg_modified_givens (d1 d2 x1 y1 : R) (param : Nat → R) (nonneg : 0 ≤ d1) :
    ∃ fuel result, (∀ more, fuel ≤ more → rotmg more d1 d2 x1 y1 param = some result) ∧
      RotmgLaw d1 d2 x1 y1 result ∧
      (|d2 * y1 * y1| < |d1 * x1 * x1| → 0 < 1 - d2 * y1 / (d1 * x1) * (-y1 / x1)) := by
  have determinant : |d2 * y1 * y1| < |d1 * x1 * x1| → 0 < 1 - d2 * y1 / (d1 * x1) * (-y1 / x1) :=
    fun larger => larger_determinant nonneg larger
  obtain ⟨exit, state, start, started⟩ := rotmg_start x1 y1 d2 nonneg
  cases started with
  | unchanged _ empty =>
    refine ⟨0, ⟨.unchanged, d1, d2, x1, Function.update param 0 (-2)⟩, fun more _ => ?_, unchanged_law empty param,
      determinant⟩
    rw [rotmg, start]
    rfl
  | negativeSecond some negative =>
    refine ⟨0, ⟨.negativeSecond, 0, 0, 0, storeParam zeroedState param⟩, fun more _ => ?_,
      negative_second_law some negative param, determinant⟩
    rw [rotmg, start]
    simp only [Option.bind_eq_bind, Option.bind_some, reduceCtorEq, if_false, zeroedState, ne_eq, not_true]
    rfl
  | rotated _ some other positive transforms =>
    obtain ⟨fuel, middle, final, first, nonzero, second, transforms', inside, inside'⟩ := rescaled positive transforms
    have small : (0 : R) < rgamsq := one_div_pos.mpr (zero_lt_one.trans gamsq_large)
    refine ⟨fuel, ⟨.rotated, final.d1, final.d2, final.x1, storeParam final param⟩, fun more enough => ?_,
      (transforms'.modified_givens .rotated param inside inside').law some other (ne_of_gt (small.trans inside.1)) rfl,
      determinant⟩
    rw [rotmg, start]
    simp only [Option.bind_eq_bind, Option.bind_some, reduceCtorEq, if_false, if_pos (ne_of_gt positive),
      first more enough, second more enough]
    rfl

-- Weights far below rgamsq and the point (3, 4).
theorem rotmg_modified_givens_three_four :
    ∃ fuel result, (∀ more, fuel ≤ more → rotmg more (1 / 2 ^ 60 : ℚ) (1 / 2 ^ 60) 3 4 (fun _ => 0) = some result) ∧
      result.param 0 ≠ -2 ∧ ¬ Zeroed result ∧ ModifiedGivens (1 / 2 ^ 60) (1 / 2 ^ 60) 3 4 result := by
  obtain ⟨fuel, result, returns, law, _⟩ :=
    rotmg_modified_givens (1 / 2 ^ 60 : ℚ) (1 / 2 ^ 60) 3 4 (fun _ => 0) (by norm_num)
  have changed : result.param 0 ≠ -2 := fun flag => absurd (law.unchanged.mp flag) (by norm_num)
  have some : ¬ Zeroed result := fun zeroed => absurd (law.zeroed.mp zeroed).1 (by norm_num)
  exact ⟨fuel, result, returns, changed, some, law.rotates changed some⟩

end Result

end Rotmg

end Zynum.LevelOne
