import Zynum.Vector.Norm
import Zynum.Vector.Sums

set_option autoImplicit false

/- What one pass over a range returns. The pass that looks for the largest
   magnitude first takes a range without a nonzero number for a zero vector,
   also when some of its components are not numbers. -/
namespace Zynum.Norm

open ArrayProgram LevelOne WithNan

variable {K : Type} [Field K] [LinearOrder K]

def squares (x : Operand Nat) (memory : Nat → WithNan K) (i : Nat) : WithNan K :=
  ∑ part ∈ Finset.range x.width, x.element memory i part * x.element memory i part

def rangeSquares (x : Operand Nat) (memory : Nat → WithNan K) (first last : Nat) : WithNan K :=
  ∑ i ∈ Finset.Ico first last, squares x memory i

-- No component of the range is a nonzero number.
def Weightless (x : Operand Nat) (memory : Nat → WithNan K) (first last : Nat) : Prop :=
  ∀ i part, first ≤ i → i < last → part < x.width → x.element memory i part = 0 ∨ x.element memory i part = nan

section Root

variable [IsStrictOrderedRing K] (ops : NormOps K)

theorem root_unique {root square : K} (nonneg : 0 ≤ root) (same : root * root = square) : ops.sqrt square = root := by
  have positive : 0 ≤ square := same ▸ mul_self_nonneg root
  exact (mul_self_inj (ops.sqrt_nonneg square positive) nonneg).mp ((ops.sqrt_square square positive).trans same.symm)

theorem square_root_zero : squareRoot ops 0 = 0 := congrArg number (root_unique ops (le_refl 0) (mul_zero 0))

theorem scaled_root {scale square total : K} (nonneg : 0 ≤ scale) (inside : 0 ≤ square)
    (same : scale * scale * square = total) : scale * ops.sqrt square = ops.sqrt total := by
  refine (root_unique ops (mul_nonneg nonneg (ops.sqrt_nonneg square inside)) ?_).symm
  rw [mul_mul_mul_comm, ops.sqrt_square square inside, same]

end Root

section Passes

variable {x : Operand Nat} {pieces : List Piece} {first last : Nat} (memory : Nat → WithNan K)

omit [LinearOrder K] in
theorem add_squares_sum (width : Nat) (value : Nat → WithNan K) (sum : WithNan K) :
    addSquares width value sum = sum + ∑ part ∈ Finset.range width, value part * value part :=
  loop_accumulate width _ sum

omit [LinearOrder K] in
theorem run_sum_of_squares (consecutive : Consecutive pieces first last) (fits : Walkable x pieces) :
    (sumOfSquares x pieces).run memory = (rangeSquares x memory first last, memory) := by
  have elementwise : ElementStep x.width (fun _ : Nat => addSquares (K := K) x.width) := by
    intro index value value' state same
    exact loop_congr x.width _ _ state (fun part sum small => by rw [same part small])
  rw [sumOfSquares, run_element_walk 0 memory consecutive fits elementwise]
  have terms : (fun i => addSquares x.width (x.element memory i)) = fun i sum => sum + squares x memory i :=
    funext fun i => funext fun sum => add_squares_sum x.width (x.element memory i) sum
  rw [terms, loop_range_accumulate, zero_add]
  rfl

variable [IsStrictOrderedRing K]

theorem largest_part_scale (width : Nat) (value : Nat → WithNan K) (scale : K) (nonneg : 0 ≤ scale) :
    ∃ next : K, largestPart width value (number scale) = number next ∧ 0 ≤ next ∧
      (next = 0 ↔ scale = 0 ∧ ∀ part, part < width → value part = 0 ∨ value part = nan) := by
  induction width with
  | zero => exact ⟨scale, rfl, nonneg, fun zero => ⟨zero, fun part small => absurd small (Nat.not_lt_zero part)⟩, And.left⟩
  | succ width ih =>
    obtain ⟨best, total, above, zero⟩ := ih
    have unfolded : largestPart (width + 1) value (number scale) = (number best).largest (value width).magnitude := by
      rw [← total]
      rfl
    have split : (∀ part, part < width + 1 → value part = 0 ∨ value part = nan) ↔
        (∀ part, part < width → value part = 0 ∨ value part = nan) ∧ (value width = 0 ∨ value width = nan) := by
      refine ⟨fun all => ⟨fun part small => all part (by omega), all width (by omega)⟩, fun parts part small => ?_⟩
      rcases Nat.lt_succ_iff_lt_or_eq.mp small with before | rfl
      · exact parts.1 part before
      · exact parts.2
    rw [unfolded, split, ← and_assoc, ← zero]
    cases here : value width with
    | nan => exact ⟨best, rfl, above, fun none => ⟨none, .inr rfl⟩, And.left⟩
    | number a =>
      refine ⟨max best |a|, rfl, le_max_of_le_left above, fun none => ?_, ?_⟩
      · have low : best = 0 := le_antisymm (none ▸ le_max_left best |a|) above
        have flat : a = 0 := abs_nonpos_iff.mp (none ▸ le_max_right best |a|)
        exact ⟨low, .inl (congrArg number flat)⟩
      · rintro ⟨rfl, flat | absent⟩
        · rw [number.inj flat, abs_zero, max_self]
        · exact nomatch absent

theorem run_scale (consecutive : Consecutive pieces first last) (fits : Walkable x pieces) :
    ∃ scale : K, (Program.foldItems pieces (foldElements (fun _ => largestPart x.width) x) 0).run memory =
      (number scale, memory) ∧ 0 ≤ scale ∧ (scale = 0 ↔ Weightless x memory first last) := by
  have elementwise : ElementStep x.width (fun _ : Nat => largestPart (K := K) x.width) := by
    intro index value value' state same
    exact loop_congr x.width _ _ state (fun part best small => by rw [same part small])
  rw [run_element_walk 0 memory consecutive fits elementwise]
  have walked := loop_invariant (last - first) (fun step => largestPart x.width (x.element memory (first + step))) 0
    (fun done state => ∃ scale : K, state = number scale ∧ 0 ≤ scale ∧
      (scale = 0 ↔ Weightless x memory first (first + done)))
    ⟨0, rfl, le_refl 0, fun _ i part low high => by omega, fun _ => rfl⟩ (by
      rintro done _ small ⟨scale, rfl, nonneg, zero⟩
      obtain ⟨next, same, above, none⟩ := largest_part_scale x.width (x.element memory (first + done)) scale nonneg
      refine ⟨next, same, above, none.trans ?_⟩
      rw [zero]
      constructor
      · rintro ⟨before, here⟩ i part low high inside
        by_cases earlier : i < first + done
        · exact before i part low earlier inside
        · rw [show i = first + done by omega]
          exact here part inside
      · exact fun all => ⟨fun i part low high inside => all i part low (by omega) inside,
          fun part inside => all (first + done) part (by omega) (by omega) inside⟩)
  obtain ⟨scale, same, nonneg, zero⟩ := walked
  refine ⟨scale, ?_, nonneg, ?_⟩
  · rw [loopRange, same]
  · rw [zero, Nat.add_sub_cancel' consecutive.le]

end Passes

section Scaled

variable [IsStrictOrderedRing K] (ops : NormOps K) {x : Operand Nat} {pieces : List Piece} {first last : Nat}
  (memory : Nat → WithNan K)

open Classical in
noncomputable def rangeNorm (blind : Bool) (x : Operand Nat) (memory : Nat → WithNan K) (first last : Nat) : WithNan K :=
  if blind = true ∧ Weightless x memory first last then 0 else squareRoot ops (rangeSquares x memory first last)

def shrink (scale : K) : K →+ K := AddMonoidHom.mk' (fun a => a / (scale * scale)) (fun a b => add_div a b _)

omit [IsStrictOrderedRing K] in
theorem quotient_number (a : K) {b : K} (nonzero : b ≠ 0) : quotient (number a) (number b) = some (number (a / b)) :=
  if_neg nonzero

omit [IsStrictOrderedRing K] in
theorem scaled_part (reciprocal : Bool) {scale : K} (nonzero : scale ≠ 0) (value : WithNan K) :
    scaledPart reciprocal (number scale) value = some (value.map (· / scale)) := by
  have inverse : quotient 1 (number scale) = some (number (1 / scale)) := quotient_number 1 nonzero
  cases reciprocal with
  | true =>
    rw [scaledPart, if_pos rfl, inverse, Option.map_some]
    cases value with
    | nan => rfl
    | number a =>
      rw [number_mul, mul_one_div]
      rfl
  | false =>
    cases value with
    | nan => rfl
    | number a => exact quotient_number a nonzero

omit [IsStrictOrderedRing K] in
theorem add_scaled_squares (reciprocal : Bool) {scale : K} (nonzero : scale ≠ 0) (width : Nat) (value : Nat → WithNan K)
    (sum : Checked K) :
    addScaled reciprocal (number scale) width value sum =
      sum.map (fun total => total + (∑ part ∈ Finset.range width, value part * value part).map (shrink scale)) := by
  have squared : ∀ part, (value part).map (· / scale) * (value part).map (· / scale) =
      (value part * value part).map (shrink scale) := by
    intro part
    cases value part with
    | nan => rfl
    | number a => exact congrArg number (div_mul_div_comm a scale a scale)
  have walked : ∀ count, addScaled reciprocal (number scale) count value sum =
      sum.map (fun total => total + ∑ part ∈ Finset.range count, (value part * value part).map (shrink scale)) := by
    intro count
    induction count with
    | zero =>
      simp only [addScaled, loop_zero, Finset.range_zero, Finset.sum_empty, add_zero, Option.map_id']
    | succ count ih =>
      rw [addScaled, loop_succ, ← addScaled, ih, scaled_part reciprocal nonzero, Option.bind_some, squared]
      simp only [Option.map_map, Function.comp_def, Finset.sum_range_succ, add_assoc]
  rw [walked, map_of_sum]

theorem rescaled_root (scale : K) (positive : 0 < scale) (total : WithNan K) (nonneg : ∀ a, total = number a → 0 ≤ a) :
    number scale * squareRoot ops (total.map (shrink scale)) = squareRoot ops total := by
  cases total with
  | nan => rfl
  | number a =>
    have square : 0 < scale * scale := mul_pos positive positive
    exact congrArg number (scaled_root ops positive.le (div_nonneg (nonneg a rfl) square.le) (mul_div_cancel₀ a square.ne'))

omit [LinearOrder K] [IsStrictOrderedRing K] in
theorem square_number (value : WithNan K) (a : K) (same : value * value = number a) : ∃ b, value = number b ∧ a = b * b := by
  cases value with
  | nan => exact nomatch same
  | number b => exact ⟨b, rfl, (number.inj same).symm⟩

theorem sum_nonneg_number {ι : Type} (indices : Finset ι) (term : ι → WithNan K)
    (each : ∀ i a, term i = number a → 0 ≤ a) (a : K) (same : ∑ i ∈ indices, term i = number a) : 0 ≤ a := by
  classical
  induction indices using Finset.induction_on generalizing a with
  | empty => exact (number.inj same).le
  | insert i rest fresh ih =>
    rw [Finset.sum_insert fresh] at same
    cases here : term i with
    | nan => rw [here] at same; exact nomatch same
    | number b =>
      cases others : ∑ j ∈ rest, term j with
      | nan => rw [here, others] at same; exact nomatch same
      | number c =>
        rw [here, others] at same
        exact number.inj same ▸ add_nonneg (each i b here) (ih c others)

theorem range_squares_nonneg (x : Operand Nat) (first last : Nat) (a : K)
    (same : rangeSquares x memory first last = number a) : 0 ≤ a := by
  refine sum_nonneg_number _ _ (fun i b here => sum_nonneg_number _ _ (fun part c square => ?_) b here) a same
  obtain ⟨d, _, rfl⟩ := square_number _ c square
  exact mul_self_nonneg d

omit [LinearOrder K] [IsStrictOrderedRing K] in
theorem loop_map_some (count : Nat) (term : Nat → WithNan K) (start : WithNan K) :
    loop count (fun index (sum : Checked K) => sum.map (fun total => total + term index)) (some start) =
      some (start + ∑ index ∈ Finset.range count, term index) := by
  induction count with
  | zero => rw [loop_zero, Finset.range_zero, Finset.sum_empty, add_zero]
  | succ count ih => rw [loop_succ, ih, Option.map_some, add_assoc, Finset.sum_range_succ]

omit [IsStrictOrderedRing K] in
theorem run_scaled_squares {scale : K} (nonzero : scale ≠ 0) (consecutive : Consecutive pieces first last)
    (fits : Walkable x pieces) (reciprocal : Piece → Bool) :
    (Program.foldItems pieces (fun piece =>
      foldElements (fun _ => addScaled (reciprocal piece) (number scale) x.width) x piece) (some 0)).run memory =
      (some ((rangeSquares x memory first last).map (shrink scale)), memory) := by
  rw [run_walk _ (fun i sum => sum.map (fun total => total + (squares x memory i).map (shrink scale))) pieces first last
    (some 0) memory consecutive (fun piece current member => ?_)]
  · rw [loopRange, loop_map_some, zero_add, ← map_of_sum, rangeSquares, Finset.sum_Ico_eq_sum_range]
  · have elementwise : ElementStep x.width (fun _ : Nat => addScaled (reciprocal piece) (number scale) x.width) := by
      intro index value value' state same
      refine (add_scaled_squares _ nonzero _ value state).trans
        (Eq.trans ?_ (add_scaled_squares _ nonzero _ value' state).symm)
      have values : ∑ part ∈ Finset.range x.width, value part * value part =
          ∑ part ∈ Finset.range x.width, value' part * value' part :=
        Finset.sum_congr rfl (fun part inside => by rw [same part (Finset.mem_range.mp inside)])
      rw [values]
    rw [run_fold_elements current memory (fits piece member).1 (fits piece member).2 elementwise]
    refine congrArg (fun total => (total, memory)) (loop_congr _ _ _ _ (fun step sum _ => ?_))
    exact add_scaled_squares _ nonzero x.width _ sum

theorem run_scaled_norm (strict : Bool) (consecutive : Consecutive pieces first last) (fits : Walkable x pieces) :
    (scaledNorm ops strict x pieces).run memory = (some (some (rangeNorm ops true x memory first last)), memory) := by
  obtain ⟨scale, found, nonneg, zero⟩ := run_scale memory consecutive fits
  rw [scaledNorm, Program.run_do, found]
  dsimp only
  by_cases flat : scale = 0
  · rw [if_pos (number_eq_zero.mpr flat), rangeNorm, if_pos ⟨rfl, zero.mp flat⟩]
    rfl
  · have inverse : quotient 1 (number scale) = some (number (1 / scale)) := quotient_number 1 flat
    have exact : reciprocalFinite strict (number scale) = some true := by
      rw [reciprocalFinite, inverse]
      cases strict <;> rfl
    rw [if_neg (fun same => flat (number_eq_zero.mp same)),
      if_neg (show ¬(!(number scale : WithNan K).isFinite) = true from Bool.false_ne_true), exact]
    dsimp only
    rw [Program.run_do, run_scaled_squares memory flat consecutive fits (fun piece =>
        decide (piece.count ≠ 1) && (!strict || !(number scale).less (number ops.floatMin))), Program.run_pure, rangeNorm,
      if_neg (fun blind => flat (zero.mpr blind.2)), Option.map_some]
    exact congrArg (fun norm => (some (some norm), memory))
      (rescaled_root ops scale (lt_of_le_of_ne nonneg (Ne.symm flat)) _ (range_squares_nonneg memory x first last))

-- Only a range with a component that is not a number tells the passes apart.
theorem range_norm_seen (blind : Bool) (x : Operand Nat) (first last : Nat)
    (numbers : rangeSquares x memory first last ≠ nan) :
    rangeNorm ops blind x memory first last = squareRoot ops (rangeSquares x memory first last) := by
  rw [rangeNorm]
  split
  · rename_i weightless
    have zero : rangeSquares x memory first last = 0 := by
      refine Finset.sum_eq_zero (fun i member => Finset.sum_eq_zero (fun part inside => ?_))
      have bounds := Finset.mem_Ico.mp member
      rcases weightless.2 i part bounds.1 bounds.2 (Finset.mem_range.mp inside) with flat | absent
      · rw [flat]
        exact congrArg number (mul_zero 0)
      · refine absurd ((sum_nan_iff _ _).mpr ⟨i, member, (sum_nan_iff _ _).mpr ⟨part, inside, ?_⟩⟩) numbers
        rw [absent, nan_mul]
    rw [zero, square_root_zero]
  · rfl

theorem range_norm_nan_iff (blind : Bool) (x : Operand Nat) (first last : Nat) :
    rangeNorm ops blind x memory first last = nan ↔
      rangeSquares x memory first last = nan ∧ (blind = true → ¬Weightless x memory first last) := by
  by_cases numbers : rangeSquares x memory first last = nan
  · rw [rangeNorm, numbers]
    split
    · rename_i weightless
      exact ⟨nofun, fun seen => absurd weightless.2 (seen.2 weightless.1)⟩
    · rename_i seen
      exact ⟨fun _ => ⟨rfl, fun reduced weightless => seen ⟨reduced, weightless⟩⟩, fun _ => rfl⟩
  · rw [range_norm_seen ops memory blind x first last numbers]
    refine ⟨fun absent => absurd ?_ numbers, fun seen => absurd seen.1 numbers⟩
    cases total : rangeSquares x memory first last with
    | nan => rfl
    | number a => rw [total] at absent; exact nomatch absent

end Scaled

section Unit

variable [IsStrictOrderedRing K] (ops : NormOps K) (memory : Nat → WithNan K)

-- The leaf that sums the squares at once takes ranges of this length.
def onePass (machine : NormMachine) (precision : Precision) (length : Nat) : Bool :=
  match machine.kernel precision with
  | none => false
  | some kernel =>
    match kernel.fast with
    | none => false
    | some cfg => decide (cfg.vectorThreshold ≤ length)

variable {first last : Nat} (ordered : first ≤ last)

include ordered

omit [IsStrictOrderedRing K] in
theorem run_fast_norm (precision : Precision) (cfg : VectorConfig) (start : Nat) :
    ∃ answer, (fastNorm ops precision cfg (cellsFrom start) first last).run memory = (answer, memory) ∧
      (∀ norm, answer = some norm →
        norm = some (squareRoot ops (rangeSquares (Operand.unit 1 (cellsFrom start)) memory first last))) ∧
      (last - first < cfg.vectorThreshold → answer = none) ∧
      (cfg.vectorThreshold ≤ last - first → answer = none →
        rangeSquares (Operand.unit 1 (cellsFrom start)) memory first last ≠ nan) := by
  unfold fastNorm
  dsimp only
  by_cases short : last - first < cfg.vectorThreshold
  · rw [if_pos short]
    exact ⟨none, rfl, nofun, fun _ => rfl, fun long => absurd short (by omega)⟩
  rw [if_neg short]
  have sums : ∀ counts, (sumOfSquares (Operand.unit 1 (cellsFrom start)) (unitPlan counts first last)).run memory =
      (rangeSquares (Operand.unit 1 (cellsFrom start)) memory first last, memory) := fun counts =>
    run_sum_of_squares memory (unit_plan_consecutive counts first last ordered)
      (walkable_unit 1 _ (unit_plan_step counts first last))
  cases precision with
  | single =>
    dsimp only
    rw [Program.run_do, sums]
    dsimp only
    split
    · exact ⟨_, rfl, fun norm same => (Option.some.inj same).symm, fun less => absurd less short, nofun⟩
    · rw [Program.run_do, sums]
      exact ⟨_, rfl, fun norm same => (Option.some.inj same).symm, fun less => absurd less short, nofun⟩
  | double =>
    dsimp only
    rw [Program.run_do, sums]
    dsimp only
    split
    · rename_i absent
      have same := (is_nan_iff _).mp absent
      exact ⟨_, rfl, fun norm found => by rw [← Option.some.inj found, same]; rfl,
        fun less => absurd less short, nofun⟩
    · rename_i present
      split
      · exact ⟨none, rfl, nofun, fun _ => rfl, fun _ _ same => present ((is_nan_iff _).mpr same)⟩
      · exact ⟨_, rfl, fun norm same => (Option.some.inj same).symm, fun less => absurd less short, nofun⟩

theorem run_kernel_scaled (precision : Precision) (cfg : VectorConfig) (start : Nat) :
    ∃ answer, (kernelScaledNorm ops precision cfg (cellsFrom start) first last).run memory = (answer, memory) ∧
      ∀ norm, answer = some norm → norm = some (rangeNorm ops true (Operand.unit 1 (cellsFrom start)) memory first last) := by
  rw [kernelScaledNorm]
  dsimp only
  split
  · exact ⟨none, rfl, nofun⟩
  · rw [run_scaled_norm ops memory false (unit_plan_consecutive _ first last ordered)
      (walkable_unit 1 _ (unit_plan_step _ first last))]
    exact ⟨_, rfl, fun norm same => (Option.some.inj same).symm⟩

theorem run_nrm2_unit_real (machine : NormMachine) (precision : Precision) (start : Nat) :
    (nrm2UnitReal ops machine precision (cellsFrom start) first last).run memory =
      (some (some (rangeNorm ops (!onePass machine precision (last - first)) (Operand.unit 1 (cellsFrom start)) memory first
        last)), memory) := by
  have portable := run_scaled_norm ops memory (x := Operand.unit 1 (cellsFrom start)) false
    (unit_plan_consecutive (realLaneCounts machine.base precision) first last ordered)
    (walkable_unit 1 _ (unit_plan_step _ first last))
  -- Either some leaf answers with the norm, or none does and the portable loops follow.
  have leaves : ∃ answer, (kernelNorm ops machine precision (cellsFrom start) first last).run memory = (answer, memory) ∧
      (∀ norm, answer = some norm → norm =
        some (rangeNorm ops (!onePass machine precision (last - first)) (Operand.unit 1 (cellsFrom start)) memory first last)) ∧
      (answer = none → rangeNorm ops true (Operand.unit 1 (cellsFrom start)) memory first last =
        rangeNorm ops (!onePass machine precision (last - first)) (Operand.unit 1 (cellsFrom start)) memory first last) := by
    unfold kernelNorm onePass
    cases machine.kernel precision with
    | none => exact ⟨none, rfl, nofun, fun _ => rfl⟩
    | some kernel =>
      obtain ⟨slow, ranSlow, foundSlow⟩ := run_kernel_scaled ops memory ordered precision kernel.scaled start
      dsimp only
      cases kernel.fast with
      | none => exact ⟨slow, ranSlow, foundSlow, fun _ => rfl⟩
      | some cfg =>
        obtain ⟨fast, ranFast, foundFast, short, settled⟩ := run_fast_norm ops memory ordered precision cfg start
        dsimp only
        rw [run_or_else ranFast]
        by_cases long : cfg.vectorThreshold ≤ last - first
        · have direct : rangeNorm ops (!decide (cfg.vectorThreshold ≤ last - first)) (Operand.unit 1 (cellsFrom start)) memory
              first last = squareRoot ops (rangeSquares (Operand.unit 1 (cellsFrom start)) memory first last) := by
            rw [decide_eq_true long, rangeNorm, if_neg (fun blind => absurd blind.1 Bool.false_ne_true)]
          rw [direct]
          cases fast with
          | some norm =>
            exact ⟨some norm, rfl, fun other same => Option.some.inj same ▸ foundFast norm rfl, nofun⟩
          | none =>
            have seen := range_norm_seen ops memory true _ first last (settled long rfl)
            rw [Option.elim_none, ranSlow, ← seen]
            exact ⟨slow, rfl, foundSlow, fun _ => rfl⟩
        · rw [decide_eq_false long, short (by omega), Option.elim_none, ranSlow]
          exact ⟨slow, rfl, foundSlow, fun _ => rfl⟩
  obtain ⟨answer, ran, found, missed⟩ := leaves
  rw [nrm2UnitReal, run_or_else ran]
  cases answer with
  | none => rw [Option.elim_none, portable, missed rfl]
  | some norm => rw [Option.elim_some, found norm rfl]

end Unit

end Zynum.Norm
