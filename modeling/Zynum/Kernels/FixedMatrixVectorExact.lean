import Zynum.Kernels.FixedMatrixVectorLoops
import Mathlib.Tactic.Ring

set_option autoImplicit false

/- The no-transpose kernels: every stored element of A is multiplied once, whatever
   the lanes, the unrolled rows and the columns of a block. -/
namespace Zynum.FixedMatrix

open ArrayProgram LevelOne FixedVector

section Reading

variable {R T : Type}

theorem run_fold_reads {count : Nat} {body : Nat → T → Program Nat R T} {f : Nat → T → T} {memory : Nat → R}
    (reads : ∀ k state, k < count → (body k state).run memory = (f k state, memory)) (state : T) :
    (Program.fold count body state).run memory = (loop count f state, memory) := by
  induction count with
  | zero => rfl
  | succ count ih =>
    rw [Program.run_fold_succ, ih (fun k state small => reads k state (Nat.lt_succ_of_lt small))]
    exact reads count _ (Nat.lt_succ_self count)

theorem loop_update (count : Nat) (value : Nat → T) (start : Nat → T) {col : Nat} (small : col < count) :
    loop count (fun k state => Function.update state k (value k)) start col = value col := by
  induction count with
  | zero => exact absurd small (Nat.not_lt_zero col)
  | succ count ih =>
    rw [loop_succ]
    by_cases last : col = count
    · rw [last, Function.update_self]
    · rw [Function.update_of_ne last]
      exact ih (by omega)

theorem run_gather {cols : Nat} {body : Nat → (Nat → T) → Program Nat R (Nat → T)} {value : Nat → T} {memory : Nat → R}
    (reads : ∀ col state, (body col state).run memory = (Function.update state col (value col), memory))
    (start : Nat → T) : ∃ scalars, (Program.fold cols body start).run memory = (scalars, memory) ∧
      ∀ col, col < cols → scalars col = value col :=
  ⟨_, run_fold_reads (fun col state _ => reads col state) start, fun _ small => loop_update cols value start small⟩

theorem loop_lanes [AddCommMonoid R] (count : Nat) (gain : Nat → Nat → R) (step : Nat → (Nat → R) → Nat → R)
    (adds : ∀ col state lane, step col state lane = state lane + gain col lane) (start : Nat → R) (lane : Nat) :
    loop count step start lane = start lane + ∑ col ∈ Finset.range count, gain col lane := by
  induction count with
  | zero => rw [loop_zero, Finset.range_zero, Finset.sum_empty, add_zero]
  | succ count ih => rw [loop_succ, adds, ih, Finset.sum_range_succ, add_assoc]

end Reading

section Sound

variable {R : Type} [AddCommMonoid R] {allowed : Set Nat} {length y : Nat} {holds : (Nat → R) → Prop}
  {gain : (Nat → R) → Nat → R}

theorem adding_sound (width : Nat)
    (stable : ∀ before after : Nat → R, AgreeOff (rowCells y length) before after → holds before → holds after)
    (reads : ∀ before after : Nat → R, AgreeOff (rowCells y length) before after →
      ∀ cell, cell < length → gain before cell = gain after cell) :
    (rowLaw holds y (fun memory cell => memory (cellsFrom y cell) + gain memory cell) (fun _ _ => ()) allowed).Sound
      width length := by
  refine ⟨fun cell other _ _ different same => different (by rw [cells_from_injective y same]), ?_, fun _ _ _ _ => rfl, ?_⟩
  · intro before after cell small agree
    have own : before (cellsFrom y cell) = after (cellsFrom y cell) := agree _ (fun other _ different same =>
      different (by rw [cells_from_injective y same]))
    have off : AgreeOff (rowCells y length) before after := fun place outside =>
      agree place (fun other small' _ same => outside ⟨other, small', same⟩)
    exact congrArg₂ (· + ·) own (reads before after off cell small)
  · intro before after agree
    exact stable before after (fun place outside => agree place (fun other small same => outside ⟨other, small, same⟩))

variable {T : Type} {contribution : (Nat → R) → Nat → Nat → R} {first last : Nat}

theorem adds_after_gather {gather : Program Nat R T} {loops : T → Program Nat R Unit}
    (holds : T → (Nat → R) → Prop)
    (within : gather.Within allowed (fun _ => True))
    (gathers : ∀ memory, ∃ state, gather.run memory = (state, memory) ∧ holds state memory)
    (does : ∀ state, (rowLaw (holds state) y (fun memory cell => memory (cellsFrom y cell) +
      ∑ col ∈ Finset.Ico first last, contribution memory col cell) (fun _ _ => ()) allowed).Does (loops state) 0 length) :
    Adds allowed length y contribution (gather >>= loops) first last := by
  refine ⟨within.bind (fun state _ => (does state).inside ()), fun memory => ?_⟩
  obtain ⟨state, ran, held⟩ := gathers memory
  obtain ⟨_, final, ran', overwrites, _⟩ := (does state).works () memory held
  rw [Program.run_do, ran, ran']
  refine overwrites.of_eq (Set.ext fun cell => ?_)
  simp only [rowLaw, id_eq, Set.mem_ofPred_eq, Set.mem_Ico, Nat.zero_le, true_and]

end Sound

section Blocks

variable {R : Type} [CommRing R] {allowed : Set Nat} {y : Nat}

theorem run_block_vector {cols lanes i : Nat} {column : Nat → Nat} {step : Nat → (Nat → R) → (Nat → R) → Nat → R}
    (gain : Nat → (Nat → R) → Nat → R) (adds : ∀ col av yv lane, step col av yv lane = yv lane + gain col av lane)
    (memory : Nat → R) :
    ((do
      let yv ← loadVec lanes (cellsFrom y) i
      let yv ← Program.fold cols (fun col (yv : Nat → R) => do
        let av ← loadVec lanes (cellsFrom (column col)) i
        pure (step col av yv)) yv
      storeVec lanes (cellsFrom y) i yv : Program Nat R Unit).run memory).2 =
    ((storeVec lanes (cellsFrom y) i (fun lane => (if lane < lanes then memory (cellsFrom y (i + lane)) else 0) +
      ∑ col ∈ Finset.range cols, gain col (fun lane => if lane < lanes then memory (cellsFrom (column col) (i + lane)) else 0)
        lane)).run memory).2 := by
  rw [Program.run_do, run_load_vec, Program.run_do, run_fold_reads (f := fun col yv => step col
    (fun lane => if lane < lanes then memory (cellsFrom (column col) (i + lane)) else 0) yv) (fun col state _ => by
      rw [Program.run_do, run_load_vec]
      rfl)]
  have lanewise := loop_lanes cols (fun col => gain col
    (fun lane => if lane < lanes then memory (cellsFrom (column col) (i + lane)) else 0)) _
    (fun col state lane => adds col _ state lane)
    (fun lane => if lane < lanes then memory (cellsFrom y (i + lane)) else 0)
  exact congrArg (fun values => ((storeVec lanes (cellsFrom y) i values).run memory).2) (funext lanewise)

theorem within_block_vector {cols lanes i length : Nat} {column : Nat → Nat}
    {step : Nat → (Nat → R) → (Nat → R) → Nat → R} (rowY : rowCells y length ⊆ allowed)
    (rows : ∀ col, col < cols → rowCells (column col) length ⊆ allowed) (fits : i + lanes ≤ length) :
    (do
      let yv ← loadVec lanes (cellsFrom y) i
      let yv ← Program.fold cols (fun col (yv : Nat → R) => do
        let av ← loadVec lanes (cellsFrom (column col)) i
        pure (step col av yv)) yv
      storeVec lanes (cellsFrom y) i yv : Program Nat R Unit).Within allowed (fun _ => True) := by
  refine (within_load_vec rowY fits).bind (fun _ _ => (Program.within_fold allowed (fun _ => True) cols _ _ trivial ?_).bind
    (fun _ _ => within_store_vec _ rowY fits))
  exact fun col _ small _ => (within_load_vec (rows col small) fits).bind (fun _ _ => trivial)

end Blocks

section Real

variable {R : Type} [CommRing R] [DecidableEq R] {cfg : MatrixVectorConfig} {m n a x y : Nat} {lda : Int} {alpha : R}

-- What column col adds to a row of the product A x.
def realColumn (alpha : R) (a : Nat) (lda : Int) (x : Nat) (memory : Nat → R) (col row : Nat) : R :=
  alpha * (memory (cellsFrom (columnAt 1 a lda 0 col) row) * memory (cellsFrom x col))

omit [DecidableEq R] in
theorem real_column_reads (apartA : Disjoint (rowCells y m) (entryCells 1 a lda m n))
    (apartX : Disjoint (rowCells y m) (rowCells x n)) : ReadsApart m y n (realColumn alpha a lda x) := by
  intro before after agree col small cell inside
  have entry := agree.same apartA (column_cells small ⟨cell, by omega, rfl⟩)
  have scalar := agree.same apartX (⟨col, small, rfl⟩ : cellsFrom x col ∈ rowCells x n)
  rw [realColumn, realColumn, entry, scalar]

omit [DecidableEq R] in
theorem no_trans_block {cols j : Nat} (fits : j + cols ≤ n) (apartA : Disjoint (rowCells y m) (entryCells 1 a lda m n))
    (apartX : Disjoint (rowCells y m) (rowCells x n)) :
    Adds (rowCells y m ∪ (entryCells 1 a lda m n ∪ rowCells x n)) m y (realColumn alpha a lda x)
      (gemvNoTransCols cfg cols m alpha (cellsFrom a) lda (cellsFrom x) (cellsFrom y) j) j (j + cols) := by
  have rowY : rowCells y m ⊆ rowCells y m ∪ (entryCells 1 a lda m n ∪ rowCells x n) := Set.subset_union_left
  have rowX : rowCells x n ⊆ rowCells y m ∪ (entryCells 1 a lda m n ∪ rowCells x n) :=
    Set.subset_union_right.trans Set.subset_union_right
  have rows : ∀ col, col < cols → rowCells (columnAt 1 a lda 0 (j + col)) m ⊆
      rowCells y m ∪ (entryCells 1 a lda m n ∪ rowCells x n) := by
    intro col small place member
    rw [← Nat.one_mul m] at member
    exact .inr (.inl (column_cells (by omega) member))
  simp only [gemvNoTransCols, entry_from]
  refine adds_after_gather (fun scalars memory => ∀ col, col < cols → scalars col = alpha * memory (cellsFrom x (j + col)))
    (Program.within_fold _ _ _ _ _ trivial (fun col _ small _ => (within_get rowX (by omega) rfl).bind (fun _ _ => trivial)))
    (fun memory => run_gather (fun col state => rfl) _) (fun scalars => ?_)
  have reads : ReadsApart m y n (realColumn alpha a lda x) := real_column_reads apartA apartX
  refine does_vector_loops (adding_sound 1 ?_ ?_) _ (one_dvd _) (fun tail _ => one_dvd tail) (one_dvd _) _ _
    (fun lanes _ i _ inside => does_of_store (within_block_vector rowY rows inside) (fun memory held => ?_))
    (fun i _ inside => does_of_store ?_ (fun memory held => ?_))
  · intro before after agree held col small
    rw [held col small, agree.same apartX (⟨j + col, by omega, rfl⟩ : cellsFrom x (j + col) ∈ rowCells x n)]
  · intro before after agree cell small
    refine Finset.sum_congr rfl (fun col member => reads before after agree col ?_ cell small)
    exact (Finset.mem_Ico.mp member).2.trans_le fits
  · refine ⟨_, run_block_vector (fun col av lane => av lane * scalars col) (fun col av yv lane => add_comm _ _) memory,
      fun lane small => ?_⟩
    rw [if_pos small, Finset.sum_Ico_eq_sum_range, Nat.add_sub_cancel_left]
    refine congrArg _ (Finset.sum_congr rfl (fun col member => ?_))
    dsimp only
    rw [if_pos small, held col (Finset.mem_range.mp member), realColumn]
    ring
  · refine (within_get rowY inside rfl).bind (fun _ _ => (Program.within_fold _ (fun _ => True) _ _ _ trivial ?_).bind
      (fun _ _ => ⟨rowY ⟨i, inside, rfl⟩, trivial⟩))
    exact fun col _ small _ => (within_get (rows col small) inside rfl).bind (fun _ _ =>
      (within_get rowX (by omega) rfl).bind (fun _ _ => trivial))
  · refine ⟨fun _ => memory (cellsFrom y i) + ∑ col ∈ Finset.Ico j (j + cols), realColumn alpha a lda x memory col i, ?_,
      fun lane small => ?_⟩
    · rw [Program.run_do, Program.run_get, Program.run_do, run_fold_reads (f := fun col yi => yi +
        realColumn alpha a lda x memory (j + col) i) (fun col state _ => ?_), loop_accumulate, Finset.sum_Ico_eq_sum_range,
        Nat.add_sub_cancel_left]
      · rfl
      · refine Prod.ext ?_ rfl
        change memory (cellsFrom (columnAt 1 a lda 0 (j + col)) i) * (alpha * memory (cellsFrom x (j + col))) + state = _
        rw [realColumn]
        ring
    · rw [Nat.lt_one_iff.mp small]
      rfl

theorem no_trans_column {j : Nat} (small : j + 1 ≤ n) (apartA : Disjoint (rowCells y m) (entryCells 1 a lda m n)) :
    Adds (rowCells y m ∪ (entryCells 1 a lda m n ∪ rowCells x n)) m y (realColumn alpha a lda x)
      (do
        let xj ← Program.get (cellsFrom x j)
        if alpha * xj ≠ 0 then axpyColumn cfg m (alpha * xj) (entryFrom 1 (cellsFrom a) lda 0 j) (cellsFrom y) else pure ())
      j (j + 1) := by
  have rowX : rowCells x n ⊆ rowCells y m ∪ (entryCells 1 a lda m n ∪ rowCells x n) :=
    Set.subset_union_right.trans Set.subset_union_right
  have column : rowCells (columnAt 1 a lda 0 j) m ⊆ entryCells 1 a lda m n := by
    intro place member
    rw [← Nat.one_mul m] at member
    exact column_cells (by omega) member
  have apart : Apart m (columnAt 1 a lda 0 j) y := apart_of_disjoint (apartA.mono_right column)
  have clear : Clear m (columnAt 1 a lda 0 j) y := .inr apart
  simp only [entry_from]
  have does := fun scale : R => real_affine_loops cfg.laneCount cfg.rowUnrollVectors [] .axpy scale 0 clear
  have more : rowCells (columnAt 1 a lda 0 j) m ∪ rowCells y m ⊆ rowCells y m ∪ (entryCells 1 a lda m n ∪ rowCells x n) :=
    Set.union_subset (column.trans (Set.subset_union_left.trans Set.subset_union_right)) Set.subset_union_left
  have one : ∀ memory row, ∑ col ∈ Finset.Ico j (j + 1), realColumn alpha a lda x memory col row =
      alpha * (memory (cellsFrom (columnAt 1 a lda 0 j) row) * memory (cellsFrom x j)) := by
    intro memory row
    rw [Nat.Ico_succ_singleton, Finset.sum_singleton]
    rfl
  constructor
  · refine (within_get rowX (by omega) rfl).bind (fun xj _ => ?_)
    split
    · exact within_larger more ((does (alpha * xj)).inside ())
    · trivial
  · intro memory
    rw [Program.run_do, Program.run_get]
    dsimp only
    split
    · obtain ⟨_, final, ran, overwrites, _⟩ := (does (alpha * memory (cellsFrom x j))).works () memory trivial
      rw [axpyColumn, ran]
      refine (overwrites.of_eq (Set.ext fun cell => ?_)).congr (fun cell _ => ?_)
      · simp only [rowLaw, id_eq, Set.mem_ofPred_eq, Set.mem_Ico, Nat.zero_le, true_and]
      · rw [one]
        change alpha * memory (cellsFrom x j) * memory (cellsFrom (columnAt 1 a lda 0 j) cell) + memory (cellsFrom y cell) = _
        ring
    · rename_i zero
      rw [not_not] at zero
      refine ⟨fun cell _ => ?_, fun _ _ => rfl⟩
      rw [one, mul_comm (memory (cellsFrom (columnAt 1 a lda 0 j) cell)), ← mul_assoc, zero, zero_mul, add_zero]
      rfl

theorem no_trans_body (cfg : MatrixVectorConfig) (alpha : R) (apartA : Disjoint (rowCells y m) (entryCells 1 a lda m n))
    (apartX : Disjoint (rowCells y m) (rowCells x n)) :
    Adds (rowCells y m ∪ (entryCells 1 a lda m n ∪ rowCells x n)) m y (realColumn alpha a lda x)
      (gemvNoTransUnitRealBody cfg m n alpha (cellsFrom a) lda (cellsFrom x) (cellsFrom y)) 0 n :=
  chain_columns (fun first last program => Adds _ m y (realColumn alpha a lda x) program first last) cfg _ _
    (fun i => adds_nothing i) (fun _ _ _ _ _ early late low high inside =>
      early.then late (real_column_reads apartA apartX) low high inside)
      (fun _ _ fits => no_trans_block fits apartA apartX) (fun _ small => no_trans_column small apartA)

end Real

section Complex

theorem within_get_complex {R : Type} {allowed : Set Nat} {x length i : Nat} (row : rowCells x length ⊆ allowed)
    (small : 2 * i + 1 < length) : (getComplex (cellsFrom x) i : Program Nat R (Cplx R)).Within allowed (fun _ => True) :=
  (within_get row (by omega) rfl).bind (fun _ _ => (within_get row small rfl).bind (fun _ _ => trivial))

variable {R : Type} [CommRing R] {cfg : MatrixVectorConfig} {m n a x y : Nat} {lda : Int} {alpha : Cplx R}

theorem component_zero (cell : Nat) : component (0 : Cplx R) cell = 0 := by
  rw [component]
  split <;> rfl

theorem component_add (left right : Cplx R) (cell : Nat) :
    component (left + right) cell = component left cell + component right cell := by
  rw [component, component, component]
  split <;> rfl

theorem component_sum (columns : Finset Nat) (value : Nat → Cplx R) (cell : Nat) :
    component (∑ col ∈ columns, value col) cell = ∑ col ∈ columns, component (value col) cell := by
  classical
  induction columns using Finset.induction_on with
  | empty => exact component_zero cell
  | insert col rest new ih => rw [Finset.sum_insert new, Finset.sum_insert new, component_add, ih]

omit [CommRing R] in
theorem component_at (memory : Nat → R) (y cell : Nat) :
    component (complexAt memory y (cell / 2)) cell = memory (cellsFrom y cell) := by
  rw [component]
  split
  · have even : 2 * (cell / 2) = cell := by omega
    rw [complexAt, even]
  · have odd : 2 * (cell / 2) + 1 = cell := by omega
    rw [complexAt, odd]

omit [CommRing R] in
theorem component_pair (value : Cplx R) {e lane : Nat} (small : lane < 2) :
    (if lane = 0 then value.re else value.im) = component value (2 * e + lane) := by
  have parity : (2 * e + lane) % 2 = 0 ↔ lane = 0 := by omega
  rw [component]
  simp only [parity]

theorem complex_gain_lane {lanes i lane : Nat} (even : 2 ∣ lanes) (start : 2 ∣ i) (small : lane < lanes) (coefficient : Cplx R)
    (memory : Nat → R) (column : Nat) :
    (if lane < lanes then memory (cellsFrom column (i + lane)) else 0) * coefficient.re +
        (if pairSwapMask lane < lanes then memory (cellsFrom column (i + pairSwapMask lane)) else 0) *
          pairSignVector coefficient.im lane =
      component (coefficient * complexAt memory column ((i + lane) / 2)) (i + lane) := by
  rw [if_pos small, if_pos (swap_small even small), component]
  by_cases first : lane % 2 = 0
  · obtain ⟨here, value⟩ := lane_even start first memory column
    rw [if_pos here, value, pairSignVector, pairPatternVector, if_pos first, Cplx.mul_re]
    ring
  · obtain ⟨here, value⟩ := lane_odd start first memory column
    rw [if_neg here, value, pairSignVector, pairPatternVector, if_neg first, Cplx.mul_im]
    ring

theorem complex_update_lane (fused : Bool) (values addend : Nat → R) (coefficient : Cplx R) (lane : Nat) :
    complexUpdateVector fused values coefficient addend lane =
      addend lane + (values lane * coefficient.re + values (pairSwapMask lane) * pairSignVector coefficient.im lane) := by
  rw [complexUpdateVector]
  split
  · ring
  · rw [complexScaleVec]

def complexColumn (alpha : Cplx R) (a : Nat) (lda : Int) (x : Nat) (memory : Nat → R) (col cell : Nat) : R :=
  component (alpha * (complexAt memory (columnAt 2 a lda 0 col) (cell / 2) * complexAt memory x col)) cell

omit [CommRing R] in
theorem complex_same {before after : Nat → R} {row other : Set Nat} {start length i : Nat} (agree : AgreeOff row before after)
    (apart : Disjoint row other) (inside : rowCells start length ⊆ other) (small : 2 * i + 1 < length) :
    complexAt before start i = complexAt after start i := by
  rw [complexAt, complexAt, agree.same apart (inside ⟨2 * i, by omega, rfl⟩), agree.same apart (inside ⟨2 * i + 1, small, rfl⟩)]

theorem complex_column_reads (apartA : Disjoint (rowCells y (2 * m)) (entryCells 2 a lda m n))
    (apartX : Disjoint (rowCells y (2 * m)) (rowCells x (2 * n))) :
    ReadsApart (2 * m) y n (complexColumn alpha a lda x) := by
  intro before after agree col small cell inside
  rw [complexColumn, complexColumn, complex_same agree apartA (column_cells small) (by omega),
    complex_same agree apartX Set.Subset.rfl (by omega)]

theorem complex_no_trans_block {cols j : Nat} (even : 2 ∣ cfg.laneCount) (fits : j + cols ≤ n)
    (apartA : Disjoint (rowCells y (2 * m)) (entryCells 2 a lda m n))
    (apartX : Disjoint (rowCells y (2 * m)) (rowCells x (2 * n))) :
    Adds (rowCells y (2 * m) ∪ (entryCells 2 a lda m n ∪ rowCells x (2 * n))) (2 * m) y (complexColumn alpha a lda x)
      (complexGemvNoTransCols cfg cols m alpha (cellsFrom a) lda (cellsFrom x) (cellsFrom y) j) j (j + cols) := by
  have rowY : rowCells y (2 * m) ⊆ rowCells y (2 * m) ∪ (entryCells 2 a lda m n ∪ rowCells x (2 * n)) := Set.subset_union_left
  have rowX : rowCells x (2 * n) ⊆ rowCells y (2 * m) ∪ (entryCells 2 a lda m n ∪ rowCells x (2 * n)) :=
    Set.subset_union_right.trans Set.subset_union_right
  have rows : ∀ col, col < cols → rowCells (columnAt 2 a lda 0 (j + col)) (2 * m) ⊆
      rowCells y (2 * m) ∪ (entryCells 2 a lda m n ∪ rowCells x (2 * n)) :=
    fun col small place member => .inr (.inl (column_cells (by omega) member))
  simp only [complexGemvNoTransCols, entry_from]
  refine adds_after_gather
    (fun coeffs memory => ∀ col, col < cols → coeffs col = alpha * complexAt memory x (j + col))
    (Program.within_fold _ _ _ _ _ trivial (fun col _ small _ => (within_get_complex rowX (by omega)).bind
      (fun _ _ => trivial))) (fun memory => run_gather (fun col state => rfl) _) (fun coeffs => ?_)
  have reads : ReadsApart (2 * m) y n (complexColumn alpha a lda x) := complex_column_reads apartA apartX
  refine does_vector_loops (adding_sound 2 ?_ ?_) _ even (fun tail member => absurd member List.not_mem_nil) (Dvd.intro m rfl)
    _ _ (fun lanes whole i start inside => does_of_store (within_block_vector rowY rows inside) (fun memory held => ?_))
    (fun i start inside => does_of_store ?_ (fun memory held => ?_))
  · intro before after agree held col small
    rw [held col small, complex_same agree apartX Set.Subset.rfl (by omega)]
  · intro before after agree cell small
    refine Finset.sum_congr rfl (fun col member => reads before after agree col ?_ cell small)
    exact (Finset.mem_Ico.mp member).2.trans_le fits
  · refine ⟨_, run_block_vector _ (fun col av yv lane => complex_update_lane cfg.fuseComplexUpdates av yv (coeffs col) lane)
      memory, fun lane small => ?_⟩
    rw [if_pos small, Finset.sum_Ico_eq_sum_range, Nat.add_sub_cancel_left]
    refine congrArg _ (Finset.sum_congr rfl (fun col member => ?_))
    rw [complex_gain_lane whole start small, held col (Finset.mem_range.mp member), complexColumn]
    exact congrArg (fun value => component value (i + lane)) (by ring)
  · have second : i + 1 < 2 * m := by omega
    refine (within_get rowY (by omega) rfl).bind (fun _ _ => (within_get rowY second rfl).bind (fun _ _ =>
      (Program.within_fold _ (fun _ => True) _ _ _ trivial ?_).bind
        (fun _ _ => ⟨rowY ⟨i, by omega, rfl⟩, rowY ⟨i + 1, second, rfl⟩, trivial⟩)))
    exact fun col _ small _ => (within_get (rows col small) (by omega) rfl).bind (fun _ _ =>
      (within_get (rows col small) second rfl).bind (fun _ _ => trivial))
  · obtain ⟨e, rfl⟩ := start
    rw [Program.run_do, Program.run_get, Program.run_do, Program.run_get, Program.run_do,
      run_fold_reads (f := fun col out => out + coeffs col * complexAt memory (columnAt 2 a lda 0 (j + col)) e)
        (fun col state _ => rfl), loop_accumulate]
    refine ⟨fun lane => if lane = 0 then _ else _, rfl, fun lane small => ?_⟩
    have half : (2 * e + lane) / 2 = e := by omega
    dsimp only
    rw [component_pair _ small, component_add, component_sum, Finset.sum_Ico_eq_sum_range, Nat.add_sub_cancel_left]
    refine congrArg₂ (· + ·) ?_ (Finset.sum_congr rfl (fun col member => ?_))
    · rw [← component_at memory y (2 * e + lane), half]
      rfl
    · rw [complexColumn, half, held col (Finset.mem_range.mp member)]
      exact congrArg (fun value => component value (2 * e + lane)) (by ring)

end Complex

end Zynum.FixedMatrix
