import Zynum.Vector.LargestMagnitude
import Zynum.Vector.Sums

set_option autoImplicit false

/- Every leaf of iamax finds what the element-by-element scan of its range
   finds: a block is skipped only if nothing in it beats the best element. -/
namespace Zynum.Iamax

open ArrayProgram LevelOne WithNan Search

variable {K : Type} [AddCommGroup K] [LinearOrder K]

def magnitude (x : Operand Nat) (memory : Nat → WithNan K) (i : Nat) : WithNan K := abs1 x.width (x.element memory i)

def largestIndex (value : Nat → WithNan K) (first last : Nat) : Nat :=
  (scanRange value (first + 1) last (first, value first)).1

section Scanning

variable {x : Operand Nat} {pieces : List Piece} {first last : Nat} (memory : Nat → WithNan K)

theorem abs1_step {A : Type} (width : Nat) (step : Nat → WithNan K → A → A) :
    ElementStep width (fun index (value : Nat → WithNan K) state => step index (abs1 width value) state) := by
  intro index value value' state same
  have magnitudes : abs1 width value = abs1 width value' :=
    loop_congr width _ _ 0 (fun part sum small => by rw [same part small])
  change step index (abs1 width value) state = step index (abs1 width value') state
  rw [magnitudes]

theorem run_compare (best : Nat × WithNan K) (consecutive : Consecutive pieces first last) (fits : Walkable x pieces) :
    (compare x pieces best).run memory = (scanRange (magnitude x memory) first last best, memory) :=
  run_element_walk best memory consecutive fits (abs1_step x.width Search.better)

theorem run_magnitudes {A : Type} {piece : Piece} (step : Nat → WithNan K → A → A) (state : A) (fits : piece.Fits x)
    (stepped : 0 < piece.step) :
    (foldElements (fun index value state => step index (abs1 x.width value) state) x piece state).run memory =
      (loopRange piece.first (piece.first + piece.count) (fun i => step i (magnitude x memory i)) state, memory) :=
  run_fold_elements state memory fits stepped (abs1_step x.width step)

theorem run_first (first : Nat) :
    ((loadElements x ⟨first, 1, 1⟩).run memory).2 = memory ∧
      abs1 x.width (Piece.element ⟨first, 1, 1⟩ x.width ((loadElements x ⟨first, 1, 1⟩).run memory).1 0) =
        magnitude x memory first := by
  refine ⟨by rw [loadElements, run_load_active], ?_⟩
  refine loop_congr x.width _ _ 0 (fun part sum small => ?_)
  rw [active_element (fits_single x rfl) Nat.one_pos memory 0 part Nat.one_pos small]
  rfl

omit [AddCommGroup K] in
theorem block_maximum (value : Nat → WithNan K) (first last : Nat) (seed : WithNan K) (j : Nat) (a : K) (low : first ≤ j)
    (high : j < last) (here : value j = number a) :
    ∃ t, loopRange first last (fun i top => top.largest (value i)) seed = number t ∧ a ≤ t := by
  have walked := loop_invariant (last - first) (fun step (top : WithNan K) => top.largest (value (first + step))) seed
    (fun done top => ∀ i a, first ≤ i → i < first + done → value i = number a → ∃ t, top = number t ∧ a ≤ t)
    (fun i a lower upper _ => by omega) (by
      intro done top small before i a lower upper same
      rcases Nat.lt_succ_iff_lt_or_eq.mp (show i < (first + done) + 1 from upper) with earlier | rfl
      · obtain ⟨t, rfl, below⟩ := before i a lower earlier same
        cases value (first + done) with
        | nan => exact ⟨t, rfl, below⟩
        | number b => exact ⟨max t b, rfl, below.trans (le_max_left t b)⟩
      · rw [same]
        cases top with
        | nan => exact ⟨a, rfl, le_refl a⟩
        | number t => exact ⟨max t a, rfl, le_max_right t a⟩)
  exact walked j a low (by omega) here

theorem run_scan_block {piece : Piece} (seed : WithNan K) (best : Nat × WithNan K) (fits : piece.Fits x)
    (stepped : 0 < piece.step) :
    (scanBlock seed x piece best).run memory =
      (scanRange (magnitude x memory) piece.first (piece.first + piece.count) best, memory) := by
  rw [scanBlock, Program.run_do,
    run_magnitudes memory (fun _ value top => top.largest value) seed fits stepped]
  dsimp only
  split
  · exact run_compare memory best (singles_consecutive (Nat.le_add_right _ _)) (walkable_singles x _ _)
  · rename_i below
    rw [Program.run_pure]
    obtain ⟨k, value⟩ := best
    refine congrArg (fun state => (state, memory)) ?_
    cases value with
    | nan => exact (scan_of_nan _ _ _ k).symm
    | number b =>
      refine (scan_below k b (fun j a low high here => ?_)).symm
      obtain ⟨t, top, above⟩ := block_maximum (magnitude x memory) piece.first (piece.first + piece.count) seed j a low high here
      refine above.trans (not_lt.mp (fun larger => below ?_))
      rw [top, less_number, decide_eq_true larger]

theorem run_scan (seed : WithNan K) {unrolled rest : List Piece} {start middle : Nat}
    (before : Consecutive unrolled start middle) (after : Consecutive rest middle last) (fitsUnrolled : Walkable x unrolled)
    (fitsRest : Walkable x rest) :
    (scan seed x unrolled rest first).run memory =
      ((scanRange (magnitude x memory) start last (first, magnitude x memory first)).1 - first + 1, memory) := by
  obtain ⟨kept, loaded⟩ := run_first memory (x := x) first
  rw [scan, Program.run_do, kept, loaded, Program.run_do,
    run_walk _ (fun i best => Search.better i (magnitude x memory i) best) unrolled start middle _ memory before
      (fun piece current member =>
        run_scan_block memory 0 current (fitsUnrolled piece member).1 (fitsUnrolled piece member).2)]
  dsimp only
  rw [Program.run_do, run_walk _ (fun i best => Search.better i (magnitude x memory i) best) rest middle last _ memory after
      (fun piece current member => ?_)]
  · rw [loop_range_append start middle last _ _ before.le after.le]
    rfl
  · rw [scanPiece]
    split
    · rename_i one
      have whole := run_compare memory (x := x) current
        (show Consecutive [piece] piece.first (piece.first + piece.count) from ⟨rfl, rfl⟩) (fun other same => by
          rw [List.mem_singleton.mp same]
          exact fitsRest piece member)
      exact whole
    · exact run_scan_block memory seed current (fitsRest piece member).1 (fitsRest piece member).2

end Scanning

section Batched

variable [IsOrderedAddMonoid K] {x : Operand Nat} (memory : Nat → WithNan K)

theorem magnitude_nonneg (i : Nat) (a : K) (here : magnitude x memory i = number a) : 0 ≤ a := by
  have walked := loop_invariant x.width (fun part sum => sum + (x.element memory i part).magnitude) (0 : WithNan K)
    (fun _ sum => ∀ b, sum = number b → 0 ≤ b) (fun b same => (number.inj same).le) (by
      intro part sum _ before b same
      cases value : x.element memory i part with
      | nan => rw [value] at same; exact nomatch (add_nan sum).symm.trans same
      | number c =>
        rw [value] at same
        cases sum with
        | nan => exact nomatch same
        | number d => exact number.inj same ▸ add_nonneg (before d rfl) (abs_nonneg c))
  exact walked a here

omit [AddCommGroup K] [IsOrderedAddMonoid K] in
theorem select_number (t a : K) : select (number t) (number a) = number (if t < a then a else t) := by
  rw [select, less_number]
  by_cases larger : t < a
  · rw [if_pos larger, decide_eq_true larger, if_pos rfl]
  · rw [if_neg larger, decide_eq_false larger, if_neg Bool.false_ne_true]

omit [AddCommGroup K] [IsOrderedAddMonoid K] in
theorem select_nan (top : WithNan K) : select top nan = top := by
  rw [select, less_nan]
  exact if_neg Bool.false_ne_true

omit [IsOrderedAddMonoid K] in
theorem batch_maximum (value : Nat → WithNan K) (first last : Nat) :
    ∃ t, loopRange first last (fun i top => select top (value i)) 0 = number t ∧ 0 ≤ t ∧
      (∀ j a, first ≤ j → j < last → value j = number a → a ≤ t) ∧
      (0 < t → ∃ j, first ≤ j ∧ j < last ∧ value j = number t) := by
  have walked := loop_invariant (last - first) (fun step (top : WithNan K) => select top (value (first + step))) 0
    (fun done top => ∃ t, top = number t ∧ 0 ≤ t ∧ (∀ j a, first ≤ j → j < first + done → value j = number a → a ≤ t) ∧
      (0 < t → ∃ j, first ≤ j ∧ j < first + done ∧ value j = number t))
    ⟨0, rfl, le_refl 0, fun j a low high _ => by omega, fun more => absurd more (lt_irrefl 0)⟩ ?_
  · obtain ⟨t, top, nonneg, below, reached⟩ := walked
    exact ⟨t, top, nonneg, fun j a low high => below j a low (by omega),
      fun more => by obtain ⟨j, low, high, here⟩ := reached more; exact ⟨j, low, by omega, here⟩⟩
  · rintro done _ small ⟨t, rfl, nonneg, below, reached⟩
    have split : ∀ j, j < first + (done + 1) → j < first + done ∨ j = first + done := fun j high => by omega
    cases here : value (first + done) with
    | nan =>
      rw [select_nan]
      refine ⟨t, rfl, nonneg, fun j a low high same => ?_, fun more => ?_⟩
      · rcases split j high with before | rfl
        · exact below j a low before same
        · rw [here] at same; exact nomatch same
      · obtain ⟨j, low, high, found⟩ := reached more
        exact ⟨j, low, by omega, found⟩
    | number a =>
      rw [select_number]
      by_cases larger : t < a
      · rw [if_pos larger]
        refine ⟨a, rfl, nonneg.trans larger.le, fun j b low high same => ?_,
          fun _ => ⟨first + done, Nat.le_add_right _ _, by omega, here⟩⟩
        rcases split j high with before | rfl
        · exact (below j b low before same).trans larger.le
        · rw [here] at same; exact (number.inj same).ge
      · rw [if_neg larger]
        refine ⟨t, rfl, nonneg, fun j b low high same => ?_, fun more => ?_⟩
        · rcases split j high with before | rfl
          · exact below j b low before same
          · rw [here] at same; exact number.inj same ▸ not_lt.mp larger
        · obtain ⟨j, low, high, found⟩ := reached more
          exact ⟨j, low, by omega, found⟩

section Equal

omit [AddCommGroup K] [IsOrderedAddMonoid K] in
theorem equal_missing (value : Nat → WithNan K) (top : WithNan K) (first last : Nat)
    (fresh : ∀ j, first ≤ j → j < last → value j ≠ top) :
    loopRange first last (fun i (found : Option Nat) => if found.isNone && value i = top then some i else found) none = none := by
  refine loop_fixed _ _ _ (fun step small => ?_)
  have other : decide (value (first + step) = top) = false := decide_eq_false (fresh _ (by omega) (by omega))
  change (if (Option.isNone none && decide (value (first + step) = top)) = true then some (first + step) else none) = none
  rw [other]
  rfl

omit [AddCommGroup K] [IsOrderedAddMonoid K] in
theorem equal_found (value : Nat → WithNan K) (top : WithNan K) (first last i : Nat) (low : first ≤ i) (high : i < last)
    (here : value i = top) (fresh : ∀ j, first ≤ j → j < i → value j ≠ top) :
    loopRange first last (fun i (found : Option Nat) => if found.isNone && value i = top then some i else found) none = some i := by
  rw [← loop_range_append first i last _ none low high.le, equal_missing value top first i fresh,
    ← loop_range_append i (i + 1) last _ none (Nat.le_succ i) high]
  have hit : loopRange i (i + 1) (fun i (found : Option Nat) => if found.isNone && value i = top then some i else found) none =
      some i := by
    rw [loopRange, Nat.add_sub_cancel_left, loop_succ, loop_zero, Nat.add_zero, decide_eq_true here]
    rfl
  rw [hit]
  exact loop_fixed _ _ _ (fun _ _ => rfl)

end Equal

omit [IsOrderedAddMonoid K] in
theorem run_find_equal (keep : WithNan K → WithNan K) (top : WithNan K) (pieces : List Piece) (first last i : Nat)
    (consecutive : Consecutive pieces first last) (fits : Walkable x pieces) (low : first ≤ i) (high : i < last)
    (here : keep (magnitude x memory i) = top) (fresh : ∀ j, first ≤ j → j < i → keep (magnitude x memory j) ≠ top) :
    (findEqual keep x top pieces).run memory = (some i, memory) := by
  induction pieces generalizing first with
  | nil =>
    have same : first = last := consecutive
    omega
  | cons piece rest ih =>
    have start := consecutive.1
    obtain ⟨fit, stepped⟩ := fits piece List.mem_cons_self
    rw [findEqual, Program.run_do, run_magnitudes memory
      (fun index value (found : Option Nat) => if found.isNone && keep value = top then some index else found) none fit stepped,
      start]
    dsimp only
    by_cases inside : i < first + piece.count
    · have found := equal_found (fun j => keep (magnitude x memory j)) top first (first + piece.count) i low inside here fresh
      rw [found]
      rfl
    · have missing := equal_missing (fun j => keep (magnitude x memory j)) top first (first + piece.count)
        (fun j lower upper => fresh j lower (by omega))
      rw [missing]
      exact ih (first + piece.count) consecutive.2 (fun other member => fits other (List.mem_cons_of_mem _ member)) (by omega)
        (fun j lower upper => fresh j (by omega) upper)

-- What a batch may put in the place of a magnitude: the same value, or zero for one that is not positive.
def Keeps (keep : WithNan K → WithNan K) : Prop :=
  ∀ value : WithNan K, (∀ a, value = number a → ∃ b, keep value = number b ∧ a ≤ b) ∧
    ∀ t, 0 < t → (keep value = number t ↔ value = number t)

omit [IsOrderedAddMonoid K] in
theorem keeps_id : Keeps (id : WithNan K → WithNan K) :=
  fun _ => ⟨fun a same => ⟨a, same, le_refl a⟩, fun _ _ => Iff.rfl⟩

omit [IsOrderedAddMonoid K] in
theorem keeps_positive : Keeps (positive : WithNan K → WithNan K) := by
  intro value
  cases value with
  | nan =>
    have zero : positive (nan : WithNan K) = number 0 := select_nan _
    refine ⟨nofun, fun t more => ⟨fun same => ?_, nofun⟩⟩
    exact absurd (number.inj (zero.symm.trans same)) more.ne
  | number a =>
    have kept : positive (number a) = number (if 0 < a then a else 0) := select_number 0 a
    rw [kept]
    refine ⟨fun b same => ⟨_, rfl, ?_⟩, fun t more => ?_⟩
    · rw [← number.inj same]
      split
      · exact le_refl a
      · rename_i small
        exact not_lt.mp small
    · split
      · exact Iff.rfl
      · rename_i small
        constructor
        · exact fun same => absurd (number.inj same) more.ne
        · exact fun same => absurd (number.inj same ▸ more) small

omit [IsOrderedAddMonoid K] in
theorem run_batch_block (keep : WithNan K → WithNan K) (keeps : Keeps keep) (lanes k : Nat) (b : K) (nonneg : 0 ≤ b)
    {piece : Piece} (plain : piece.step = 1) (whole : piece.count / lanes * lanes = piece.count)
    (walkable : ∀ pieces : List Piece, (∀ piece, piece ∈ pieces → piece.step = 1) → Walkable x pieces) :
    (batchBlock keep x lanes piece (k, number b)).run memory =
      (scanRange (magnitude x memory) piece.first (piece.first + piece.count) (k, number b), memory) := by
  have fits := walkable [piece] (fun other same => List.mem_singleton.mp same ▸ plain) piece (List.mem_singleton.mpr rfl)
  obtain ⟨t, top, _, below, reached⟩ := batch_maximum (fun i => keep (magnitude x memory i)) piece.first (piece.first + piece.count)
  rw [batchBlock, Program.run_do, run_magnitudes memory (fun _ value top => select top (keep value)) 0 fits.1
    fits.2, top]
  dsimp only
  rw [less_number]
  have values : ∀ j a, piece.first ≤ j → j < piece.first + piece.count → magnitude x memory j = number a → a ≤ t := by
    intro j a low high here
    obtain ⟨c, kept, above⟩ := (keeps (magnitude x memory j)).1 a here
    exact above.trans (below j c low high kept)
  by_cases larger : b < t
  · have more : 0 < t := nonneg.trans_lt larger
    obtain ⟨j, low, high, here⟩ := reached more
    rcases first_largest_exists (magnitude x memory) piece.first (piece.first + piece.count) with absent | ⟨i, m, found⟩
    · rw [absent j low high, (keeps nan).2 t more] at here
      exact nomatch here
    have same : m = t := le_antisymm (values i m found.lower found.upper found.here)
      (found.largest j t low high (((keeps _).2 t more).mp here))
    subst same
    have vectors := blocks_consecutive (piece.count / lanes) lanes 1 piece.first
    rw [whole] at vectors
    rw [decide_eq_true larger, if_pos rfl, Program.run_do, run_find_equal memory keep (number m)
      (blocks (piece.count / lanes) lanes 1 piece.first) piece.first (piece.first + piece.count) i vectors
      (walkable _ (fun other member => by
        obtain ⟨block, _, rfl⟩ := mem_blocks.mp member
        rfl)) found.lower found.upper (((keeps _).2 m more).mpr found.here)
      (fun j low high same => lt_irrefl m (found.earlier j m low high (((keeps _).2 m more).mp same))), Program.run_pure,
      found.scan_above k larger]
    rfl
  · rw [decide_eq_false larger, if_neg Bool.false_ne_true, Program.run_pure]
    exact congrArg (fun state => (state, memory))
      (scan_below k b (fun j a low high here => (values j a low high here).trans (not_lt.mp larger))).symm

-- The best element so far is a number that is not negative.
def Counted (best : Nat × WithNan K) : Prop := ∃ k b, best = (k, number b) ∧ 0 ≤ b

omit [IsOrderedAddMonoid K] in
theorem run_batches (keep : WithNan K → WithNan K) (keeps : Keeps keep) (lanes batch first count : Nat)
    (best : Nat × WithNan K) (counted : Counted best) (whole : batch / lanes * lanes = batch)
    (walkable : ∀ pieces : List Piece, (∀ piece, piece ∈ pieces → piece.step = 1) → Walkable x pieces) :
    (Program.foldItems (blocks count batch 1 first) (batchBlock keep x lanes) best).run memory =
        (scanRange (magnitude x memory) first (first + count * batch) best, memory) ∧
      Counted (scanRange (magnitude x memory) first (first + count * batch) best) := by
  refine run_walk_holding Counted _ (fun i => Search.better i (magnitude x memory i)) (blocks count batch 1 first) first _ best memory
    (blocks_consecutive count batch 1 first) counted ?_
  rintro piece _ member ⟨k, b, rfl, nonneg⟩
  obtain ⟨block, _, rfl⟩ := mem_blocks.mp member
  refine ⟨run_batch_block memory keep keeps lanes k b nonneg rfl whole walkable, ?_⟩
  obtain ⟨k', b', ends, above⟩ := scan_grows (magnitude x memory) (first + block * batch)
    (first + block * batch + batch) k b
  exact ⟨k', b', ends, nonneg.trans above⟩

end Batched

section Leaves

variable [IsOrderedAddMonoid K] {first last : Nat} (memory : Nat → WithNan K) (start : Nat)

def leafAnswer (x : Operand Nat) (memory : Nat → WithNan K) (first last : Nat) : Nat :=
  if last = first then 0 else largestIndex (magnitude x memory) first last - first + 1

omit [IsOrderedAddMonoid K] in
theorem leaf_answer_some (x : Operand Nat) (some : first < last) :
    leafAnswer x memory first last = largestIndex (magnitude x memory) first last - first + 1 := if_neg (by omega)

omit [AddCommGroup K] [IsOrderedAddMonoid K] in
theorem scan_from_first (value : Nat → WithNan K) (some : first < last) :
    scanRange value first last (first, value first) = scanRange value (first + 1) last (first, value first) := by
  rw [← scan_append (first + 1) _ (Nat.le_succ first) some]
  refine congrArg (scanRange value (first + 1) last) ?_
  rw [scanRange, loopRange, Nat.add_sub_cancel_left, loop_succ, loop_zero, Nat.add_zero, Search.better]
  have quiet : (value first).less (value first) = false := by
    cases value first with
    | nan => rfl
    | number a => rw [less_number, decide_eq_false (lt_irrefl a)]
  rw [quiet, if_neg Bool.false_ne_true]

omit [IsOrderedAddMonoid K] in
theorem run_scan_unit (kind : ElementKind) (unroll : Nat) (laneCounts : List Nat) (some : first < last) :
    (scanUnit kind unroll laneCounts (cellsFrom start) first last).run memory =
      (leafAnswer (Operand.unit kind.width (cellsFrom start)) memory first last, memory) := by
  have plain : ∀ begin, begin ≤ last → let count := (last - begin) / (unroll / kind.width)
      (scan .nan (Operand.unit kind.width (cellsFrom start)) (blocks count (unroll / kind.width) 1 begin)
        (unitPlan (laneCounts.map (fun lanes => lanes / kind.width)) (begin + count * (unroll / kind.width)) last) first).run
          memory = ((scanRange (magnitude (Operand.unit kind.width (cellsFrom start)) memory) begin last (first,
            magnitude (Operand.unit kind.width (cellsFrom start)) memory first)).1 - first + 1, memory) := by
    intro begin inside count
    have fit : count * (unroll / kind.width) ≤ last - begin := Nat.div_mul_le_self _ _
    refine run_scan memory .nan (blocks_consecutive _ _ 1 begin) (unit_plan_consecutive _ _ last (by omega))
      (walkable_unit _ _ (fun piece member => ?_)) (walkable_unit _ _ (unit_plan_step _ _ last))
    obtain ⟨block, _, rfl⟩ := mem_blocks.mp member
    rfl
  rw [scanUnit, leaf_answer_some memory _ some, largestIndex]
  cases kind.isComplex with
  | true =>
    rw [← scan_from_first _ some]
    exact plain first some.le
  | false => exact plain (first + 1) some

variable (first last) in
theorem run_unit_batched (kind : ElementKind) (cfg : VectorConfig) (pair : 2 ≤ cfg.laneCount) :
    ∃ answer, (iamaxUnitBatched kind cfg (cellsFrom start) first last).run memory = (answer, memory) ∧
      ∀ index, answer = some index → index = leafAnswer (Operand.unit kind.width (cellsFrom start)) memory first last := by
  unfold iamaxUnitBatched
  dsimp only
  generalize compacts : (kind.isComplex && decide (kind.precision = .double) && decide (cfg.laneCount = 4)) = compact
  generalize counts : (if (!kind.isComplex || compact) = true then cfg.laneCount else cfg.laneCount / 2) = count
  generalize searches : (if compact = true then count / 2 else count) = searchCount
  have several : 0 < count := by
    rw [← counts]
    split <;> omega
  have vectors : searchCount ∣ count := by
    cases compact with
    | false => rw [← searches, if_neg Bool.false_ne_true]
    | true =>
      have four : cfg.laneCount = 4 := of_decide_eq_true (Bool.and_eq_true_iff.mp compacts).2
      rw [Bool.or_true, if_pos rfl, four] at counts
      rw [← searches, if_pos rfl, ← counts]
      decide
  by_cases short : last - first < count * cfg.unrollVectors * 4
  · rw [if_pos short]
    exact ⟨none, rfl, nofun⟩
  rw [if_neg short]
  have batch : 0 < count * cfg.unrollVectors * 4 := by
    have unrolled := Nat.mul_pos several cfg.some_unroll
    omega
  have some : first < last := by omega
  obtain ⟨kept, loaded⟩ := run_first memory (x := Operand.unit kind.width (cellsFrom start)) first
  have width : (Operand.unit kind.width (cellsFrom start)).width = kind.width := rfl
  rw [width] at loaded
  rw [Program.run_do, kept, loaded]
  have walkable : ∀ pieces : List Piece, (∀ piece, piece ∈ pieces → piece.step = 1) →
      Walkable (Operand.unit kind.width (cellsFrom start)) pieces := fun pieces plain => walkable_unit _ _ plain
  generalize Operand.unit kind.width (cellsFrom start) = operand at *
  have answer := leaf_answer_some memory operand some
  rw [largestIndex] at answer
  cases value : magnitude operand memory first with
  | nan =>
    rw [value, scan_of_nan, Nat.sub_self, Nat.zero_add] at answer
    exact ⟨_, rfl, fun index same => (Option.some.inj same).symm.trans answer.symm⟩
  | number b =>
    have counted : Counted (first, number b) := ⟨first, b, rfl, magnitude_nonneg memory first b value⟩
    have divides : searchCount ∣ count * cfg.unrollVectors * 4 := ((vectors.mul_right _).mul_right _)
    generalize count * cfg.unrollVectors * 4 = size at *
    generalize batches : (last - first) / size = total
    have fit : total * size ≤ last - first := batches ▸ Nat.div_mul_le_self _ _
    obtain ⟨ranBatches, counted⟩ := run_batches memory id keeps_id searchCount size first total (first, number b) counted
      (Nat.div_mul_cancel divides) walkable
    generalize middles : first + total * size = middle at *
    generalize singleVectors : (last - middle) / searchCount = rest
    have fit' : rest * searchCount ≤ last - middle := singleVectors ▸ Nat.div_mul_le_self _ _
    obtain ⟨ranVectors, _⟩ := run_batches memory positive keeps_positive searchCount searchCount middle rest _ counted
      (Nat.div_mul_cancel (Nat.dvd_refl searchCount)) walkable
    generalize tails : middle + rest * searchCount = tail at *
    have ranSingles := run_compare memory (x := operand) (scanRange (magnitude operand memory) middle tail
      (scanRange (magnitude operand memory) first middle (first, number b))) (singles_consecutive (show tail ≤ last by omega))
      (walkable_singles operand tail last)
    refine ⟨_, ?_, fun index same => (Option.some.inj same).symm⟩
    rw [if_neg nofun, Program.run_do, ranBatches, Program.run_do, ranVectors, Program.run_do, ranSingles, Program.run_pure,
      answer, scan_append _ _ (by omega) (by omega), scan_append _ _ (by omega) (by omega), ← value, scan_from_first _ some]

end Leaves

end Zynum.Iamax
