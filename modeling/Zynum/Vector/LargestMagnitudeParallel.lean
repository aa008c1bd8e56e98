import Zynum.Vector.LargestMagnitudeRoutes

set_option autoImplicit false

/- The tasks of iamax only read, so each answers as it would alone; what the
   whole call answers, and when that is the first largest magnitude. -/
namespace Zynum.Iamax

open ArrayProgram LevelOne WithNan Search

variable {K : Type} [AddCommGroup K] [LinearOrder K]

section Reading

variable {x : Operand Nat} {machine : IamaxMachine} {kind : ElementKind} {start : Nat}

theorem reads_compare (pieces : List Piece) (best : Nat × WithNan K) (memory : Nat → WithNan K) :
    (compare x pieces best).Respects ∅ Set.univ memory :=
  reads_fold_elements _ pieces best memory

theorem reads_scan_block (seed : WithNan K) (piece : Piece) (best : Nat × WithNan K) (memory : Nat → WithNan K) :
    (scanBlock seed x piece best).Respects ∅ Set.univ memory := by
  refine Program.respects_bind (Program.respects_bind (reads_elements memory) trivial) ?_
  split
  · exact reads_compare _ _ _
  · trivial

theorem reads_scan (seed : WithNan K) (unrolled rest : List Piece) (first : Nat) (memory : Nat → WithNan K) :
    (scan seed x unrolled rest first).Respects ∅ Set.univ memory := by
  refine Program.respects_bind (reads_elements memory) (Program.respects_bind
    (respects_fold_items unrolled _ _ _ (fun piece current best _ => reads_scan_block 0 piece best current))
    (Program.respects_bind (respects_fold_items rest _ _ _ (fun piece current best _ => ?_)) trivial))
  rw [scanPiece]
  split
  · exact reads_compare _ _ _
  · exact reads_scan_block _ _ _ _

theorem reads_find_equal (keep : WithNan K → WithNan K) (top : WithNan K) (pieces : List Piece) (memory : Nat → WithNan K) :
    (findEqual keep x top pieces).Respects ∅ Set.univ memory := by
  induction pieces generalizing memory with
  | nil => trivial
  | cons piece rest ih =>
    refine Program.respects_bind (Program.respects_bind (reads_elements memory) trivial) ?_
    split
    · trivial
    · exact ih _

theorem reads_batch_block (keep : WithNan K → WithNan K) (lanes : Nat) (piece : Piece) (best : Nat × WithNan K)
    (memory : Nat → WithNan K) : (batchBlock keep x lanes piece best).Respects ∅ Set.univ memory := by
  refine Program.respects_bind (Program.respects_bind (reads_elements memory) trivial) ?_
  split
  · exact Program.respects_bind (reads_find_equal keep _ _ _) trivial
  · trivial

theorem reads_unit_batched (cfg : VectorConfig) (first last : Nat) (memory : Nat → WithNan K) :
    (iamaxUnitBatched kind cfg (cellsFrom start) first last).Respects ∅ Set.univ memory := by
  unfold iamaxUnitBatched
  dsimp only
  generalize (if (!kind.isComplex || _) = true then cfg.laneCount else cfg.laneCount / 2) = count
  generalize count * cfg.unrollVectors * 4 = batch
  by_cases short : last - first < batch
  · rw [if_pos short]
    trivial
  rw [if_neg short]
  refine Program.respects_bind (reads_elements memory) ?_
  split
  · trivial
  exact Program.respects_bind (respects_fold_items _ _ _ _ (fun piece current best _ => reads_batch_block id _ piece best current))
    (Program.respects_bind
      (respects_fold_items _ _ _ _ (fun piece current best _ => reads_batch_block positive _ piece best current))
      (Program.respects_bind (reads_compare _ _ _) trivial))

theorem reads_kernel_plain (cfg : VectorConfig) (first last : Nat) (memory : Nat → WithNan K) :
    (kernelPlain kind cfg (cellsFrom start) first last).Respects ∅ Set.univ memory := by
  rw [kernelPlain]
  split
  · trivial
  split
  · trivial
  · exact Program.respects_bind (reads_scan _ _ _ _ memory) trivial

theorem reads_kernel_iamax (first last : Nat) (memory : Nat → WithNan K) :
    (kernelIamax machine kind (cellsFrom start) first last).Respects ∅ Set.univ memory := by
  unfold kernelIamax
  cases machine.kernel kind with
  | none => trivial
  | some kernel =>
    dsimp only
    split
    · trivial
    cases kernel.batched with
    | none => exact reads_kernel_plain _ _ _ memory
    | some cfg =>
      exact reads_or_else (fun current => reads_unit_batched cfg first last current)
        (fun current => reads_kernel_plain kernel.plain first last current)

theorem reads_iamax_unit (first last : Nat) (memory : Nat → WithNan K) :
    (iamaxUnit machine kind (cellsFrom start) first last).Respects ∅ Set.univ memory := by
  unfold iamaxUnit
  refine Program.respects_bind ?_ ?_
  · split
    · trivial
    · exact reads_kernel_iamax first last memory
  · split
    · trivial
    split
    · trivial
    · exact reads_scan _ _ _ _ _

theorem reads_skip_nan (first remaining : Nat) (memory : Nat → WithNan K) :
    (skipNan x first remaining).Respects ∅ Set.univ memory := by
  induction remaining generalizing first memory with
  | zero => trivial
  | succ remaining ih =>
    refine Program.respects_bind (reads_elements memory) ?_
    split
    · exact ih _ _
    · trivial

theorem reads_task_candidate (first last : Nat) (memory : Nat → WithNan K) :
    (iamaxStride2TaskCandidate machine kind (cellsFrom start) first last).Respects ∅ Set.univ memory := by
  refine Program.respects_bind (reads_skip_nan _ _ memory) ?_
  split
  · trivial
  · exact Program.respects_bind (reads_scan _ _ _ _ _) trivial

end Reading

section Forks

variable {machine : IamaxMachine} {kind : ElementKind} {start : Nat}

def acceptedTasks (machine : IamaxMachine) (site : Site) (n : Nat) : Nat :=
  let count := machine.base.runtime.taskCount site n
  if 1 < count ∧ (machine.base.runtime.dispatch site count).isSome then count else 1

def unitTasks (machine : IamaxMachine) (kind : ElementKind) (site : Site) (n : Nat) : Nat :=
  if machine.base.runtime.arch = .x86_64 ∨ (machine.base.runtime.arch = .aarch64 ∧ kind.isComplex = true) then
    acceptedTasks machine site n
  else 1

noncomputable def heardIndex (x : Operand Nat) (count n : Nat) (memory : Nat → WithNan K) : Nat :=
  (scanRange (heard (magnitude x memory) count (evenBound n count)) 0 n (0, magnitude x memory 0)).1 + 1

theorem heard_alone (x : Operand Nat) (n : Nat) (some : 0 < n) (memory : Nat → WithNan K) :
    heardIndex x 1 n memory = leafAnswer x memory 0 n := by
  have splits := even_splits n 1 Nat.one_pos
  rw [heardIndex, leaf_answer_some memory x some, largestIndex, Nat.sub_zero, ← scan_from_first _ some]
  cases first : magnitude x memory 0 with
  | nan => rw [scan_of_nan, scan_of_nan]
  | number b =>
    rw [scan_congr _ (fun i _ inside => ?_)]
    obtain ⟨task, small, member⟩ := splits.owner i (Nat.zero_le i) inside
    rw [heard_share splits small member, heardFrom, Nat.lt_one_iff.mp small, splits.start, first]
    exact if_neg (fun same => by cases same)

theorem fork_returns {site : Site} {n : Nat} {x : Operand Nat} {task : Nat → Nat → Program Nat (WithNan K) Nat}
    {execution : Execution Nat (WithNan K) Nat Nat} (share : (Nat → WithNan K) → Nat → Nat → WithNan K)
    (accepted : forkIamax machine site n x task = some execution)
    (reads : ∀ first last memory, (task first last).Respects ∅ Set.univ memory)
    (stands : ∀ first last memory best, first ≤ last →
      (if ((task first last).run memory).1 = 0 then best
        else Search.better (first + (((task first last).run memory).1 - 1))
          (magnitude x memory (first + (((task first last).run memory).1 - 1))) best) =
        scanRange (share memory first) first last best) :
    acceptedTasks machine site n = machine.base.runtime.taskCount site n ∧
      0 < machine.base.runtime.taskCount site n ∧
      Returns execution (fun memory => (loop (machine.base.runtime.taskCount site n) (fun index =>
        scanRange (share memory (evenBound n (machine.base.runtime.taskCount site n) index))
          (evenBound n (machine.base.runtime.taskCount site n) index)
          (evenBound n (machine.base.runtime.taskCount site n) (index + 1))) (0, magnitude x memory 0)).1 + 1) := by
  rw [forkIamax] at accepted
  split at accepted
  · exact nomatch accepted
  rename_i several
  obtain ⟨dispatched, taken⟩ := Option.ite_none_right_eq_some.mp accepted
  refine ⟨if_pos ⟨by omega, dispatched⟩, by omega, ?_⟩
  rw [← Option.some.inj taken]
  generalize machine.base.runtime.taskCount site n = count at several
  have splits := even_splits n count (by omega)
  rintro memory result final ⟨results, middle, finishes, rest⟩
  obtain ⟨ends, still⟩ := Pool.finishes_reading (fun index _ => reads _ _ memory) finishes
  have best := run_best_candidate (x := x) memory count (evenBound n count) results
    (fun index => share memory (evenBound n count index)) (fun index best small => by
      rw [ends index small]
      exact stands _ _ memory best (splits.ordered index small))
  rw [still] at rest
  obtain ⟨same, kept⟩ := Prod.mk.inj (best.symm.trans rest)
  exact ⟨same.symm, kept.symm⟩

variable [IsOrderedAddMonoid K] {n : Nat} {site : Site}

theorem unit_returns {execution : Execution Nat (WithNan K) Nat Nat}
    (accepted : parallelIamaxUnit machine kind site n (cellsFrom start) = Option.some execution) :
    Returns execution (heardIndex (Operand.unit kind.width (cellsFrom start)) (unitTasks machine kind site n) n) := by
  rw [parallelIamaxUnit] at accepted
  obtain ⟨arch, forked⟩ := Option.ite_none_right_eq_some.mp accepted
  obtain ⟨tasks, several, returns⟩ := fork_returns
    (fun memory first => heardFrom (magnitude (Operand.unit kind.width (cellsFrom start)) memory) first) forked
    (fun first last memory => reads_iamax_unit first last memory) (fun first last memory best ordered => by
      rw [run_iamax_unit memory machine kind start first last ordered]
      exact unit_candidate _ memory first last ordered best)
  rw [unitTasks, if_pos arch, tasks]
  have splits := even_splits n (machine.base.runtime.taskCount site n) several
  refine returns.congr (fun memory => ?_)
  rw [heardIndex, ← scan_shares _ splits]
  refine congrArg (fun best : Nat × WithNan K => best.1 + 1) (loop_congr _ _ _ _ (fun index best small => ?_))
  exact scan_congr best (fun i low high => (heard_share splits small ⟨low, high⟩).symm)

omit [IsOrderedAddMonoid K] in
theorem unit_alone
    (declined : parallelIamaxUnit machine kind site n (cellsFrom start) = (none : Option (Execution Nat (WithNan K) Nat Nat))) :
    unitTasks machine kind site n = 1 := by
  rw [unitTasks]
  split
  · rename_i arch
    rw [parallelIamaxUnit, if_pos arch, forkIamax] at declined
    rw [acceptedTasks]
    split at declined
    · rename_i one
      exact if_neg (fun several => absurd several.1 (by omega))
    · split at declined
      · exact nomatch declined
      · rename_i refused
        exact if_neg (fun several => refused several.2)
  · rfl

omit [IsOrderedAddMonoid K] in
theorem candidate_returns {execution : Execution Nat (WithNan K) Nat Nat} (some : 0 < n)
    (accepted : forkIamax machine site n (Operand.stride2 kind.width (cellsFrom start))
      (iamaxStride2TaskCandidate machine kind (cellsFrom start)) = Option.some execution) :
    Returns execution (fun memory => leafAnswer (Operand.stride2 kind.width (cellsFrom start)) memory 0 n) := by
  obtain ⟨_, several, returns⟩ := fork_returns
    (fun memory _ => magnitude (Operand.stride2 kind.width (cellsFrom start)) memory) accepted
    (fun first last memory => reads_task_candidate first last memory) (fun first last memory best ordered => by
      obtain ⟨found, skipped, low, high, here, ran⟩ := run_task_candidate memory machine kind start ordered
      refine stride2_candidate _ memory first found last low high skipped here best _ ?_
      rw [ran])
  refine returns.congr (fun memory => ?_)
  rw [scan_shares _ (even_splits n _ several), leaf_answer_some memory _ some, largestIndex, ← scan_from_first _ some, Nat.sub_zero]

end Forks

section Calls

variable [IsOrderedAddMonoid K] {machine : IamaxMachine} {kind : ElementKind} {start : Nat} {n incx : Int}

-- What a call answers: the shares of a unit-stride call may not be heard.
noncomputable def answered (machine : IamaxMachine) (kind : ElementKind) (site : Site) (n : Int) (start : Nat) (incx : Int)
    (memory : Nat → WithNan K) : Nat :=
  let operand := Operand.strided kind.width n incx (cellsFrom start)
  if incx = 1 then heardIndex operand (unitTasks machine kind site (toUsize n)) (toUsize n) memory
  else leafAnswer operand memory 0 (toUsize n)

theorem iamax_returns (site : Site) (some : 1 ≤ n) (forward : 0 < incx) :
    Returns (iamax machine kind site n (cellsFrom start) incx) (answered (K := K) machine kind site n start incx) := by
  have count : 0 < toUsize n := by
    rw [toUsize]
    omega
  rw [iamax, if_neg (by omega)]
  by_cases unit : incx = 1
  · rw [if_pos unit]
    subst unit
    have meaning : ∀ memory : Nat → WithNan K, answered machine kind site n start 1 memory =
        heardIndex (Operand.unit kind.width (cellsFrom start)) (unitTasks machine kind site (toUsize n)) (toUsize n) memory := by
      intro memory
      rw [answered, if_pos rfl, unit_strided]
    cases accepted : parallelIamaxUnit (K := K) machine kind site (toUsize n) (cellsFrom start) with
    | some execution => exact (unit_returns accepted).congr (fun memory => (meaning memory).symm)
    | none =>
      refine returns_single (fun memory => ?_)
      rw [meaning, unit_alone accepted, heard_alone _ _ count]
      exact run_iamax_unit memory machine kind start 0 _ (Nat.zero_le _)
  have meaning : ∀ memory : Nat → WithNan K, answered machine kind site n start incx memory =
      leafAnswer (Operand.strided kind.width n incx (cellsFrom start)) memory 0 (toUsize n) := fun _ => if_neg unit
  rw [if_neg unit]
  split
  · exact returns_single (fun memory => (run_iamax_strided_real memory count).trans (by rw [meaning]))
  split
  · rename_i two
    refine returns_single (fun memory => (run_iamax_stride2 memory machine kind start false count).trans ?_)
    rw [meaning, of_decide_eq_true (Bool.and_eq_true_iff.mp two).2, stride2_strided]
  · exact returns_single (fun memory => (run_iamax_scalar memory count).trans (by rw [meaning]))

theorem entry_iamax_returns (site : Site) (some : 1 ≤ n) (forward : 0 < incx) :
    Returns (entryIamax machine kind site n (cellsFrom start) incx)
      (answered (K := K) machine kind (1 :: site) n start incx) := by
  have ordinary : Returns (iamax machine kind (1 :: site) n (cellsFrom start) incx)
      (answered (K := K) machine kind (1 :: site) n start incx) := iamax_returns (1 :: site) some forward
  rw [entryIamax]
  split
  · rename_i target
    have two : incx = 2 := by
      have asked := target.1
      simp only [targetUnary, Bool.and_eq_true, decide_eq_true_eq] at asked
      exact asked.1.2
    subst two
    have count : 0 < toUsize n := by
      rw [toUsize]
      omega
    have meaning : ∀ memory : Nat → WithNan K, answered machine kind (1 :: site) n start 2 memory =
        leafAnswer (Operand.stride2 kind.width (cellsFrom start)) memory 0 (toUsize n) := by
      intro memory
      rw [answered, if_neg (by decide), stride2_strided]
    rintro memory result final ⟨results, middle, finishes, rest⟩
    obtain ⟨ends, still⟩ := Pool.finishes_reading (fun index _ => by
      exact Program.respects_bind (reads_elements memory) trivial) finishes
    obtain ⟨_, loaded⟩ := run_first memory (x := Operand.stride2 kind.width (cellsFrom start)) 0
    have first : results 0 = if (magnitude (Operand.stride2 kind.width (cellsFrom start)) memory 0).isNan then 1 else 0 := by
      rw [ends 0 Nat.one_pos, ← loaded, Program.run_do]
      rfl
    dsimp only at rest
    rw [still, first] at rest
    rw [meaning]
    cases value : magnitude (Operand.stride2 kind.width (cellsFrom start)) memory 0 with
    | nan =>
      rw [value] at rest
      obtain ⟨same, kept⟩ := Prod.mk.inj (show (1, memory) = (result, final) from rest)
      refine ⟨same.symm.trans ?_, kept.symm⟩
      rw [leaf_answer_some memory _ count, largest_index_nan value]
    | number b =>
      rw [value] at rest
      have called : Returns ((forkIamax machine (0 :: site) (toUsize n) (Operand.stride2 kind.width (cellsFrom start))
          (iamaxStride2TaskCandidate machine kind (cellsFrom start))).getD (iamax machine kind (1 :: site) n (cellsFrom start) 2))
            (answered (K := K) machine kind (1 :: site) n start 2) :=
        returns_get_d (fun execution accepted => (candidate_returns count accepted).congr (fun memory => (meaning memory).symm))
          ordinary
      rw [← meaning]
      exact called memory result final rest
  · exact ordinary

-- The exports call operations.iamax; abi_entry.zig has the dispatch in front of it.
def iamaxCall (dispatched : Bool) (machine : IamaxMachine) (kind : ElementKind) (site : Site) (n : Int) (x : Nat → Nat)
    (incx : Int) : Execution Nat (WithNan K) Nat Nat :=
  if dispatched then entryIamax machine kind site n x incx else iamax machine kind site n x incx

def calledSite (dispatched : Bool) (site : Site) : Site := if dispatched then 1 :: site else site

theorem iamax_call_returns (dispatched : Bool) (site : Site) (some : 1 ≤ n) (forward : 0 < incx) :
    Returns (iamaxCall dispatched machine kind site n (cellsFrom start) incx)
      (answered (K := K) machine kind (calledSite dispatched site) n start incx) := by
  cases dispatched with
  | true => exact entry_iamax_returns site some forward
  | false => exact iamax_returns site some forward

-- A unit-stride call whose shares are all heard finds the first largest magnitude, and no other.
theorem iamax_exact (dispatched : Bool) (machine : IamaxMachine) (kind : ElementKind) (site : Site) (n : Int) (start : Nat)
    (incx : Int) (some : 1 ≤ n) (forward : 0 < incx) (memory : Nat → WithNan K) :
    (∀ result final, (iamaxCall dispatched machine kind site n (cellsFrom start) incx).Outcome memory result final →
      IsLargest (magnitude (Operand.strided kind.width n incx (cellsFrom start)) memory) (toUsize n) result) ↔
    ¬ (incx = 1 ∧ Unheard (magnitude (Operand.strided kind.width n incx (cellsFrom start)) memory)
      (unitTasks machine kind (calledSite dispatched site) (toUsize n)) (toUsize n)
      (evenBound (toUsize n) (unitTasks machine kind (calledSite dispatched site) (toUsize n)))) := by
  have returns : Returns (iamaxCall dispatched machine kind site n (cellsFrom start) incx)
      (answered (K := K) machine kind (calledSite dispatched site) n start incx) :=
    iamax_call_returns dispatched site some forward
  generalize calledSite dispatched site = inner at *
  have count : 0 < toUsize n := by
    rw [toUsize]
    omega
  have tasks : 0 < unitTasks machine kind inner (toUsize n) := by
    rw [unitTasks, acceptedTasks]
    split
    · split
      · omega
      · exact Nat.one_pos
    · exact Nat.one_pos
  have answer : IsLargest (magnitude (Operand.strided kind.width n incx (cellsFrom start)) memory) (toUsize n)
      (answered machine kind inner n start incx memory) ↔
      ¬ (incx = 1 ∧ Unheard (magnitude (Operand.strided kind.width n incx (cellsFrom start)) memory)
        (unitTasks machine kind inner (toUsize n)) (toUsize n)
        (evenBound (toUsize n) (unitTasks machine kind inner (toUsize n)))) := by
    rw [answered]
    split
    · rename_i unit
      rw [heardIndex, heard_is_largest (even_splits _ _ tasks) count, and_iff_right unit]
    · rename_i other
      rw [leaf_answer_some memory _ count, Nat.sub_zero]
      exact iff_of_true (scan_is_largest _ count) (fun unheard => other unheard.1)
  rw [← answer]
  constructor
  · intro norm
    obtain ⟨result, final, outcome⟩ := Execution.outcome_exists
      (iamaxCall dispatched machine kind site n (cellsFrom start) incx) memory
    rw [← (returns memory result final outcome).1]
    exact norm result final outcome
  · intro largest result final outcome
    rw [(returns memory result final outcome).1]
    exact largest

def splitMachine : IamaxMachine := ⟨splitVectors, fun _ => none⟩

-- Two shares of a vector of threes.
theorem iamax_exact_threes :
    (∃ result final, (iamaxCall false splitMachine ⟨false, .double⟩ [] 4 (cellsFrom 0) 1).Outcome
      (fun _ => number (3 : Int)) result final) ∧
    ∀ result final, (iamaxCall false splitMachine ⟨false, .double⟩ [] 4 (cellsFrom 0) 1).Outcome
      (fun _ => number (3 : Int)) result final →
        IsLargest (magnitude (Operand.strided 1 4 1 (cellsFrom 0)) (fun _ => number (3 : Int))) (toUsize 4) result := by
  refine ⟨Execution.outcome_exists _ _, (iamax_exact false splitMachine ⟨false, .double⟩ [] 4 0 1 (by decide)
    (by decide) (fun _ => number (3 : Int))).mpr ?_⟩
  rintro ⟨_, _, _, _, absent, _⟩
  cases (show number (3 : Int) = nan from absent)

def fourValues (cell : Nat) : WithNan Int := if cell = 2 then nan else number (if cell = 3 then 5 else 1)

theorem maximum_behind_nan_lost :
    ¬ ∀ result final, (iamaxCall false splitMachine ⟨false, .double⟩ [] 4 (cellsFrom 0) 1).Outcome fourValues result final →
      IsLargest (magnitude (Operand.strided 1 4 1 (cellsFrom 0)) fourValues) (toUsize 4) result := by
  intro largest
  have unheard : Unheard (magnitude (Operand.strided 1 4 1 (cellsFrom 0)) fourValues) 2 4 (evenBound 4 2) := by
    refine ⟨by decide, 1, by decide, by decide, 3, 5, ⟨by decide, by decide⟩, by decide, fun j a before here => ?_,
      fun j a after inside here => ?_⟩
    · have small : j < 2 := before
      rcases (show j = 0 ∨ j = 1 by omega) with rfl | rfl
      · exact number.inj (show number (1 : Int) = number a from here) ▸ by decide
      · exact number.inj (show number (1 : Int) = number a from here) ▸ by decide
    · have high : 4 ≤ j := after
      omega
  obtain ⟨result, final, outcome⟩ := Execution.outcome_exists (iamaxCall false splitMachine ⟨false, .double⟩ [] 4 (cellsFrom 0) 1)
    fourValues
  have first := largest result final outcome
  rw [(iamax_call_returns false [] (by decide) (by decide) fourValues result final outcome).1] at first
  exact (heard_is_largest (even_splits 4 2 (by decide)) (by decide)).mp first unheard

end Calls

end Zynum.Iamax
