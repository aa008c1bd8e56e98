import Zynum.Vector.LargestMagnitudeExact

set_option autoImplicit false

/- The unit, stride-2 and strided loops of iamax over one range. -/
namespace Zynum.Iamax

open ArrayProgram LevelOne WithNan Search

variable {K : Type} [AddCommGroup K] [LinearOrder K] (memory : Nat → WithNan K)

section Unit

variable [IsOrderedAddMonoid K] (machine : IamaxMachine) (kind : ElementKind) (start first last : Nat)

omit [IsOrderedAddMonoid K] in
theorem run_kernel_plain (cfg : VectorConfig) (ordered : first ≤ last) :
    ∃ answer, (kernelPlain kind cfg (cellsFrom start) first last).run memory = (answer, memory) ∧
      ∀ index, answer = some index → index = leafAnswer (Operand.unit kind.width (cellsFrom start)) memory first last := by
  rw [kernelPlain]
  split
  · rename_i empty
    exact ⟨_, rfl, fun index same => by rw [← Option.some.inj same, leafAnswer, if_pos empty]⟩
  split
  · exact ⟨none, rfl, nofun⟩
  · rw [Program.run_do, run_scan_unit memory start kind _ _ (by omega), Program.run_pure]
    exact ⟨_, rfl, fun index same => (Option.some.inj same).symm⟩

theorem run_kernel_iamax (ordered : first ≤ last) :
    ∃ answer, (kernelIamax machine kind (cellsFrom start) first last).run memory = (answer, memory) ∧
      ∀ index, answer = some index → index = leafAnswer (Operand.unit kind.width (cellsFrom start)) memory first last := by
  unfold kernelIamax
  cases machine.kernel kind with
  | none => exact ⟨none, rfl, nofun⟩
  | some kernel =>
    dsimp only
    split
    · exact ⟨none, rfl, nofun⟩
    cases batched : kernel.batched with
    | none => exact run_kernel_plain memory kind start first last kernel.plain ordered
    | some cfg =>
      obtain ⟨fast, ran, found⟩ := run_unit_batched first last memory start kind cfg
        (kernel.batched_pair cfg batched)
      dsimp only
      rw [run_or_else ran]
      cases fast with
      | none => exact run_kernel_plain memory kind start first last kernel.plain ordered
      | some index => exact ⟨_, rfl, fun other same => found other same⟩

theorem run_iamax_unit (ordered : first ≤ last) :
    (iamaxUnit machine kind (cellsFrom start) first last).run memory =
      (leafAnswer (Operand.unit kind.width (cellsFrom start)) memory first last, memory) := by
  have leaves : ∃ answer, ((if !kind.isComplex && decide (last = first) then pure (some 0)
      else kernelIamax machine kind (cellsFrom start) first last) : Program Nat (WithNan K) (Option Nat)).run memory =
        (answer, memory) ∧
      ∀ index, answer = some index → index = leafAnswer (Operand.unit kind.width (cellsFrom start)) memory first last := by
    split
    · rename_i empty
      have same : last = first := of_decide_eq_true (Bool.and_eq_true_iff.mp empty).2
      exact ⟨_, rfl, fun index answer => by rw [← Option.some.inj answer, leafAnswer, if_pos same]⟩
    · exact run_kernel_iamax memory machine kind start first last ordered
  obtain ⟨answer, ran, found⟩ := leaves
  rw [iamaxUnit, Program.run_do, ran]
  cases answer with
  | some index => rw [found index rfl]; rfl
  | none =>
    dsimp only
    split
    · rename_i empty
      rw [leafAnswer, if_pos empty]
      rfl
    · exact run_scan_unit memory start kind _ _ (by omega)

end Unit

section Stride2

variable (machine : IamaxMachine) (kind : ElementKind) (start : Nat) {first last : Nat}

theorem run_iamax_stride2 (strict : Bool) (some : first < last) :
    (iamaxStride2 strict machine kind (cellsFrom start) first last).run memory =
      (leafAnswer (Operand.stride2 kind.width (cellsFrom start)) memory first last, memory) := by
  have plain : ∀ begin lanes seed, begin ≤ last → let count := stride2Blocks strict (4 * lanes) (last - begin)
      (scan seed (Operand.stride2 kind.width (cellsFrom start)) (blocks count (4 * lanes) 2 begin)
        (stride2Plan strict lanes (begin + count * (4 * lanes)) last) first).run
          memory = ((scanRange (magnitude (Operand.stride2 kind.width (cellsFrom start)) memory) begin last (first,
            magnitude (Operand.stride2 kind.width (cellsFrom start)) memory first)).1 - first + 1, memory) := by
    intro begin lanes seed inside count
    have fit : count * (4 * lanes) ≤ last - begin := stride2_blocks_fit strict (4 * lanes) (last - begin)
    refine run_scan memory seed (blocks_consecutive _ _ 2 begin) (stride2_plan_consecutive strict lanes _ last (by omega))
      (fun piece member => ?_) (walkable_stride2 strict lanes _ last _ _)
    obtain ⟨block, _, rfl⟩ := mem_blocks.mp member
    exact ⟨fits_stride2 _ _ rfl, Nat.zero_lt_two⟩
  rw [iamaxStride2, leaf_answer_some memory _ some, largestIndex]
  cases kind.isComplex with
  | true =>
    rw [← scan_from_first _ some]
    exact plain first _ _ some.le
  | false => exact plain (first + 1) _ _ some

theorem run_skip_nan {x : Operand Nat} (first remaining : Nat) (total : first + remaining = last) :
    ∃ found, (skipNan x first remaining).run memory = (found, memory) ∧ first ≤ found ∧ found ≤ last ∧
      (∀ j, first ≤ j → j < found → magnitude x memory j = nan) ∧ (found < last → magnitude x memory found ≠ nan) := by
  induction remaining generalizing first with
  | zero => exact ⟨first, rfl, Nat.le_refl _, by omega, fun j low high => by omega, fun more => by omega⟩
  | succ remaining ih =>
    obtain ⟨kept, loaded⟩ := run_first memory (x := x) first
    rw [skipNan, Program.run_do, kept, loaded]
    by_cases absent : magnitude x memory first = nan
    · rw [if_pos ((is_nan_iff _).mpr absent)]
      obtain ⟨found, ran, low, high, skipped, here⟩ := ih (first + 1) (by omega)
      refine ⟨found, ran, by omega, high, fun j lower upper => ?_, here⟩
      rcases Nat.eq_or_lt_of_le lower with rfl | later
      · exact absent
      · exact skipped j later upper
    · rw [if_neg (fun same => absent ((is_nan_iff _).mp same))]
      exact ⟨first, rfl, Nat.le_refl _, by omega, fun j low high => by omega, fun _ => absent⟩

theorem run_task_candidate (ordered : first ≤ last) :
    ∃ found, (∀ j, first ≤ j → j < found → magnitude (Operand.stride2 kind.width (cellsFrom start)) memory j = nan) ∧
      first ≤ found ∧ found ≤ last ∧
      (found < last → magnitude (Operand.stride2 kind.width (cellsFrom start)) memory found ≠ nan) ∧
      (iamaxStride2TaskCandidate machine kind (cellsFrom start) first last).run memory =
        (if found = last then 0
          else found - first + leafAnswer (Operand.stride2 kind.width (cellsFrom start)) memory found last, memory) := by
  obtain ⟨found, ran, low, high, skipped, here⟩ := run_skip_nan memory (x := Operand.stride2 kind.width (cellsFrom start))
    first (last - first) (show first + (last - first) = last by omega)
  refine ⟨found, skipped, low, high, here, ?_⟩
  rw [iamaxStride2TaskCandidate, Program.run_do, ran]
  dsimp only
  split
  · rfl
  · rw [Program.run_do, run_iamax_stride2 memory machine kind start true (by omega), Program.run_pure]

end Stride2

section Strided

variable {x : Operand Nat} {n : Nat}

theorem run_iamax_scalar (some : 0 < n) :
    (iamaxScalar x n).run memory = (leafAnswer x memory 0 n, memory) := by
  obtain ⟨kept, loaded⟩ := run_first memory (x := x) 0
  rw [iamaxScalar, Program.run_do, kept, loaded, Program.run_do,
    run_compare memory _ (singles_consecutive (show 1 ≤ n by omega)) (walkable_singles x 1 n), leaf_answer_some memory x some]
  rfl

omit [AddCommGroup K] in
theorem better_chain_asymm {left right : Nat × WithNan K} (above : betterChain left right = true) :
    betterChain right left = false := by
  obtain ⟨i, a⟩ := left
  obtain ⟨j, b⟩ := right
  rw [betterChain, Bool.or_eq_true] at above
  rw [betterChain, Bool.or_eq_false_iff]
  cases a with
  | nan =>
    rcases above with less | tie
    · rw [less_nan] at less; exact absurd less Bool.false_ne_true
    · obtain ⟨same, lower⟩ := of_decide_eq_true tie
      exact ⟨rfl, decide_eq_false (fun both => by have := both.2; omega)⟩
  | number a =>
    cases b with
    | nan =>
      rcases above with less | tie
      · exact nomatch less
      · exact nomatch (of_decide_eq_true tie).1
    | number b =>
      rw [less_number, decide_eq_true_iff] at above
      rw [less_number]
      rcases above with less | tie
      · refine ⟨decide_eq_false (not_lt.mpr less.le), decide_eq_false (fun both => ?_)⟩
        exact absurd (number.inj both.1) less.ne
      · obtain ⟨same, lower⟩ := of_decide_eq_true tie
        refine ⟨decide_eq_false (not_lt.mpr (number.inj same).ge), decide_eq_false (fun both => ?_)⟩
        have := both.2
        omega

omit [AddCommGroup K] in
theorem combine_chains (count : Nat) (chains : Nat → Nat × WithNan K) (start target : Nat × WithNan K)
    (above : ∀ lane, lane < count → chains lane = target ∨ betterChain target (chains lane) = true)
    (begin : start = target ∨ betterChain target start = true)
    (reached : start = target ∨ ∃ lane, lane < count ∧ chains lane = target) :
    loop count (fun lane best => if betterChain (chains lane) best then chains lane else best) start = target := by
  have walked := loop_invariant count
    (fun lane best => if betterChain (chains lane) best then chains lane else best) start
    (fun done best => best = target ∨
      (betterChain target best = true ∧ start ≠ target ∧ ∀ lane, lane < done → chains lane ≠ target)) ?_ ?_
  · rcases walked with same | ⟨_, fresh, missing⟩
    · exact same
    · rcases reached with same | ⟨lane, small, found⟩
      · exact absurd same fresh
      · exact absurd found (missing lane small)
  · by_cases same : start = target
    · exact .inl same
    · exact .inr ⟨begin.resolve_left same, same, fun lane small => absurd small (Nat.not_lt_zero lane)⟩
  · rintro lane best small (rfl | ⟨below, fresh, missing⟩)
    · rcases above lane small with same | less
      · rw [same]
        exact .inl (ite_self _)
      · rw [better_chain_asymm less, if_neg Bool.false_ne_true]
        exact .inl rfl
    · rcases above lane small with same | less
      · rw [same, below, if_pos rfl]
        exact .inl rfl
      · by_cases same : chains lane = target
        · rw [same, below, if_pos rfl]
          exact .inl rfl
        · refine .inr ⟨?_, fresh, fun other inside => ?_⟩
          · split
            · exact less
            · exact below
          · rcases Nat.lt_succ_iff_lt_or_eq.mp inside with before | rfl
            · exact missing other before
            · exact same

def laneValue (value : Nat → WithNan K) (lane i : Nat) : WithNan K := if (i - 1) % 4 = lane then value i else nan

omit [AddCommGroup K] in
theorem chains_scan (value : Nat → WithNan K) (last : Nat) (best : Nat × WithNan K) :
    loopRange 1 last (fun i (chains : Nat → Nat × WithNan K) =>
      Function.update chains ((i - 1) % 4) (Search.better i (value i) (chains ((i - 1) % 4)))) (fun _ => best) =
      fun lane => scanRange (laneValue value lane) 1 last best := by
  have walked := loop_invariant (last - 1) (fun step (chains : Nat → Nat × WithNan K) =>
    Function.update chains ((1 + step - 1) % 4) (Search.better (1 + step) (value (1 + step)) (chains ((1 + step - 1) % 4))))
    (fun _ => best) (fun done chains => ∀ lane, chains lane = scanRange (laneValue value lane) 1 (1 + done) best)
    (fun lane => rfl) (by
      intro done chains small before lane
      rw [← scan_append (1 + done) _ (by omega) (show 1 + done ≤ 1 + (done + 1) by omega), ← before lane]
      have one : scanRange (laneValue value lane) (1 + done) (1 + (done + 1)) (chains lane) =
          Search.better (1 + done) (laneValue value lane (1 + done)) (chains lane) := by
        rw [scanRange, loopRange, show 1 + (done + 1) - (1 + done) = 1 by omega]
        rfl
      rw [one, laneValue]
      by_cases here : (1 + done - 1) % 4 = lane
      · rw [here, Function.update_self, if_pos rfl]
      · rw [Function.update_of_ne (Ne.symm here), if_neg here, better_nan])
  funext lane
  rw [loopRange, walked lane]
  by_cases some : 1 ≤ last
  · rw [Nat.add_sub_cancel' some]
  · rw [scanRange, scanRange, loopRange, loopRange, show 1 + (last - 1) - 1 = 0 by omega, show last - 1 = 0 by omega]

omit [AddCommGroup K] [LinearOrder K] in
theorem lane_value_iff (value : Nat → WithNan K) (lane i : Nat) (a : K) :
    laneValue value lane i = number a ↔ (i - 1) % 4 = lane ∧ value i = number a := by
  rw [laneValue]
  split
  · rename_i here
    exact ⟨fun same => ⟨here, same⟩, And.right⟩
  · rename_i other
    exact ⟨nofun, fun both => absurd both.1 other⟩

omit [AddCommGroup K] in
theorem chains_combined (value : Nat → WithNan K) (last : Nat) (b : K) :
    loop 4 (fun lane best => if betterChain (scanRange (laneValue value lane) 1 last (0, number b)) best then
        scanRange (laneValue value lane) 1 last (0, number b) else best) (0, number b) =
      scanRange value 1 last (0, number b) := by
  have beaten : ∀ (g : Nat) (M : K), b < M → betterChain (g, number M) (0, number b) = true := by
    intro g M less
    rw [betterChain, less_number, decide_eq_true less, Bool.true_or]
  have flat : (∀ j a, 1 ≤ j → j < last → value j = number a → a ≤ b) →
      ∀ lane, scanRange (laneValue value lane) 1 last (0, number b) = (0, number b) := fun below lane =>
    scan_below 0 b (fun j a low high here => below j a low high ((lane_value_iff value lane j a).mp here).2)
  rcases first_largest_exists value 1 last with absent | ⟨g, M, found⟩
  · have below : ∀ j a, 1 ≤ j → j < last → value j = number a → a ≤ b := fun j a low high here => by
      rw [absent j low high] at here
      exact nomatch here
    rw [scan_below 0 b below]
    exact combine_chains 4 _ _ _ (fun lane _ => .inl (flat below lane)) (.inl rfl) (.inl rfl)
  by_cases less : b < M
  · rw [found.scan_above 0 less]
    have own : scanRange (laneValue value ((g - 1) % 4)) 1 last (0, number b) = (g, number M) := by
      have lane : FirstLargest (laneValue value ((g - 1) % 4)) 1 last g M :=
        ⟨found.lower, found.upper, (lane_value_iff _ _ _ _).mpr ⟨rfl, found.here⟩,
          fun j a low high here => found.largest j a low high ((lane_value_iff _ _ _ _).mp here).2,
          fun j a low high here => found.earlier j a low high ((lane_value_iff _ _ _ _).mp here).2⟩
      exact lane.scan_above 0 less
    refine combine_chains 4 _ _ _ (fun lane _ => ?_) (.inr (beaten g M less))
      (.inr ⟨(g - 1) % 4, Nat.mod_lt _ (by decide), own⟩)
    by_cases mine : (g - 1) % 4 = lane
    · exact .inl (mine ▸ own)
    refine .inr ?_
    rcases first_largest_exists (laneValue value lane) 1 last with absent | ⟨i, m, chain⟩
    · rw [scan_nans _ absent]
      exact beaten g M less
    by_cases larger : b < m
    · rw [chain.scan_above 0 larger]
      obtain ⟨home, here⟩ := (lane_value_iff _ _ _ _).mp chain.here
      rcases lt_or_eq_of_le (found.largest i m chain.lower chain.upper here) with smaller | same
      · rw [betterChain, less_number, decide_eq_true smaller, Bool.true_or]
      · have later : g < i := by
          rcases Nat.lt_trichotomy g i with before | together | after
          · exact before
          · exact absurd (together ▸ home) mine
          · exact absurd same (found.earlier i m chain.lower after here).ne
        rw [betterChain, same, decide_eq_true ⟨rfl, later⟩, Bool.or_true]
    · rw [chain.below 0 (not_lt.mp larger)]
      exact beaten g M less
  · have below : ∀ j a, 1 ≤ j → j < last → value j = number a → a ≤ b := fun j a low high here =>
      (found.largest j a low high here).trans (not_lt.mp less)
    rw [scan_below 0 b below]
    exact combine_chains 4 _ _ _ (fun lane _ => .inl (flat below lane)) (.inl rfl) (.inl rfl)

theorem run_iamax_strided_real (some : 0 < n) :
    (iamaxStridedReal x n).run memory = (leafAnswer x memory 0 n, memory) := by
  obtain ⟨kept, loaded⟩ := run_first memory (x := x) 0
  rw [iamaxStridedReal, Program.run_do, kept, loaded, leaf_answer_some memory x some, largestIndex]
  cases value : magnitude x memory 0 with
  | nan =>
    rw [scan_of_nan]
    rfl
  | number b =>
    have chains := run_walk _ _ (singles 1 (1 + 4 * ((n - 1) / 4))) 1 (1 + 4 * ((n - 1) / 4)) (fun _ => (0, number b)) memory
      (singles_consecutive (by omega)) (fun piece current member =>
        run_magnitudes memory (fun index value (chains : Nat → Nat × WithNan K) =>
          Function.update chains ((index - 1) % 4) (Search.better index value (chains ((index - 1) % 4)))) current
          (walkable_singles x _ _ piece member).1 (walkable_singles x _ _ piece member).2)
    dsimp only
    rw [if_neg (fun same => by cases same), Program.run_do, chains, chains_scan]
    dsimp only
    rw [chains_combined, Program.run_do, run_compare memory _ (singles_consecutive (by omega)) (walkable_singles x _ n),
      scan_append _ _ (by omega) (by omega), Program.run_pure, Nat.sub_zero]

end Strided

end Zynum.Iamax
