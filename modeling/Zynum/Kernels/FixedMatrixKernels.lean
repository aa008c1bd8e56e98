import Zynum.Kernels.FixedRankOne
import Zynum.Kernels.FixedSymmetric

set_option autoImplicit false

/- The answers of the fixed-width matrix-vector kernels: what an accepted call has
   stored, and that a declined one has stored nothing. -/
namespace Zynum.FixedMatrix

open ArrayProgram LevelOne FixedVector

section Answers

variable {R ι : Type} {allowed : Set Nat} {program : Program Nat R Unit} {cells : Set ι} {address : ι → Nat}
  {value : (Nat → R) → ι → R}

theorem kernel_answer {refused accepted : Prop} [Decidable refused] (opposite : ¬ refused ↔ accepted)
    (inside : accepted → program.Within allowed (fun _ => True))
    (overwrites : accepted → ∀ memory, Overwrites cells address (value memory) memory (program.run memory).2) :
    KernelUpdates (if refused then pure false else do program; pure true) accepted allowed cells address value := by
  by_cases no : refused
  · rw [if_pos no]
    exact ⟨trivial, fun yes => absurd no (opposite.mpr yes), fun _ _ => rfl⟩
  · rw [if_neg no]
    have yes := opposite.mp no
    refine ⟨(inside yes).bind (fun _ _ => trivial), fun _ memory => ?_, fun declined => absurd yes declined⟩
    rw [Program.run_do]
    exact ⟨rfl, overwrites yes memory⟩

theorem useful_answer {ok : Bool} (inside : program.Within allowed (fun _ => True))
    (overwrites : ∀ memory, Overwrites cells address (value memory) memory (program.run memory).2) :
    KernelUpdates (if !ok then pure false else do program; pure true) (ok = true) allowed cells address value :=
  kernel_answer (by cases ok <;> simp) (fun _ => inside) (fun _ => overwrites)

end Answers

section Scaling

variable {R : Type} [CommRing R] [DecidableEq R] {cfg : MatrixVectorConfig} {n y : Nat} {beta : R}

theorem scale_unit (cfg : MatrixVectorConfig) (n y : Nat) (beta : R) : (scaleUnit cfg n beta (cellsFrom y)).Within
    (rowCells y n) (fun _ => True) ∧
    ∀ memory, Overwrites {cell | cell < n} (cellsFrom y) (fun i => beta * memory (cellsFrom y i)) memory
      ((scaleUnit cfg n beta (cellsFrom y)).run memory).2 := by
  rw [scaleUnit]
  split
  · rename_i one
    refine ⟨trivial, fun memory => ⟨fun i _ => ?_, fun _ _ => rfl⟩⟩
    rw [one, one_mul]
    rfl
  split
  · rename_i zero
    refine ⟨within_store_cells n (cellsFrom y) (fun _ => 0) (fun i small => ⟨i, small, rfl⟩), fun memory => ?_⟩
    refine (run_store_cells n (cellsFrom y) (cells_from_injective y) (fun _ => 0) memory).congr (fun i _ => ?_)
    rw [zero, zero_mul]
  · have does := real_affine_loops cfg.laneCount cfg.rowUnrollVectors [] .scal beta 0 (.inl rfl : Clear n y y)
    refine ⟨within_larger (Set.union_subset Set.Subset.rfl Set.Subset.rfl) (does.inside ()), fun memory => ?_⟩
    obtain ⟨_, final, ran, overwrites, _⟩ := does.works () memory trivial
    rw [ran]
    refine (overwrites.of_eq (Set.ext fun cell => ?_)).congr (fun cell _ => rfl)
    simp only [rowLaw, id_eq, Set.mem_ofPred_eq, Set.mem_Ico, Nat.zero_le, true_and]

theorem scaled_answer (cfg : MatrixVectorConfig) (beta : R) {ok : Bool} {allowed : Set Nat} {program : Program Nat R Unit}
    {gain : (Nat → R) → Nat → R} (row : rowCells y n ⊆ allowed) (inside : program.Within allowed (fun _ => True))
    (adds : ∀ memory, Overwrites {cell | cell < n} (cellsFrom y) (fun i => memory (cellsFrom y i) + gain memory i) memory
      (program.run memory).2)
    (reads : ∀ before after, AgreeOff (rowCells y n) before after → ∀ i, i < n → gain before i = gain after i) :
    KernelUpdates (if !ok then pure false else do scaleUnit cfg n beta (cellsFrom y); program; pure true) (ok = true) allowed
      {cell | cell < n} (cellsFrom y) (fun memory i => beta * memory (cellsFrom y i) + gain memory i) := by
  cases ok with
  | false => exact ⟨trivial, fun yes => absurd yes Bool.false_ne_true, fun _ _ => rfl⟩
  | true =>
    obtain ⟨within, scales⟩ := scale_unit cfg n y beta
    refine ⟨(within_larger row within).bind (fun _ _ => inside.bind (fun _ _ => trivial)), fun _ memory => ?_,
      fun declined => absurd rfl declined⟩
    change (Program.run (do scaleUnit cfg n beta (cellsFrom y); program; pure true) memory).1 = true ∧
      Overwrites _ _ _ _ (Program.run (do scaleUnit cfg n beta (cellsFrom y); program; pure true) memory).2
    rw [Program.run_do, Program.run_do]
    have scaled := scales memory
    generalize ((scaleUnit cfg n beta (cellsFrom y)).run memory).2 = middle at scaled ⊢
    have added := adds middle
    have agree : AgreeOff (rowCells y n) memory middle := overwrites_agree scaled (fun _ small => small)
    refine ⟨rfl, fun i small => ?_, fun other outside => ?_⟩
    · exact (added.written i small).trans (by rw [scaled.written i small, reads memory middle agree i small])
    · exact (added.kept other outside).trans (scaled.kept other outside)

end Scaling

section Regions

variable {R : Type} [AddCommMonoid R] {allowed : Set Nat} {width y n m : Nat} {program : Program Nat R Unit}
  {gain : (Nat → R) → Nat × Nat → R} {column : Nat → Nat}

theorem filled_row (some : 0 < width)
    (fills : Fills allowed (fun _ => True) (elementAt width y) gain (block 0 width 0 n) program) (memory : Nat → R) :
    Overwrites {cell | cell < width * n} (cellsFrom y)
      (fun cell => memory (cellsFrom y cell) + gain memory (cell % width, cell / width)) memory (program.run memory).2 := by
  have filled := fills.fills memory trivial
  have here : ∀ cell, place (elementAt width y) (cell % width, cell / width) = cellsFrom y cell := by
    intro cell
    change y + width * (cell / width) + cell % width = y + cell
    rw [Nat.add_assoc, Nat.div_add_mod]
  constructor
  · intro cell small
    have member : (cell % width, cell / width) ∈ block 0 width 0 n :=
      ⟨⟨Nat.zero_le _, Nat.mod_lt cell some⟩, ⟨Nat.zero_le _, Nat.div_lt_of_lt_mul small⟩⟩
    have written := filled.written _ member
    rw [here] at written
    exact written
  · intro other outside
    refine filled.kept other ?_
    rintro ⟨row, col⟩ ⟨rows, columns⟩ same
    have next : width * (col + 1) ≤ width * n := Nat.mul_le_mul_left width columns.2
    have row' : row < width := rows.2
    rw [Nat.mul_succ] at next
    refine outside (width * col + row) (show width * col + row < width * n by omega) ?_
    exact (Nat.add_assoc y (width * col) row).symm.trans same

theorem filled_grid (fills : Fills allowed (fun _ => True) column gain (block 0 m 0 n) program) (memory : Nat → R) :
    Overwrites {cell | cell.1 < m ∧ cell.2 < n} (place column) (fun cell => memory (place column cell) + gain memory cell) memory
      (program.run memory).2 := by
  refine (fills.fills memory trivial).of_eq (Set.ext fun cell => ?_)
  simp only [block, Set.mem_ofPred_eq, Set.mem_Ico, Nat.zero_le, true_and]

end Regions

section Kernels

variable {R : Type} [CommRing R] [DecidableEq R] (cfg : MatrixVectorConfig) {m n a x y : Nat} {lda : Int}

theorem real_no_trans_kernels (alpha beta : R) (apartA : Disjoint (rowCells y m) (entryCells 1 a lda m n))
    (apartX : Disjoint (rowCells y m) (rowCells x n)) :
    KernelUpdates (gemvNoTransUnitReal cfg m n alpha (cellsFrom a) lda (cellsFrom x) (cellsFrom y)) (useful cfg m n = true)
        (rowCells y m ∪ (entryCells 1 a lda m n ∪ rowCells x n)) {i | i < m} (cellsFrom y)
        (fun memory i => memory (cellsFrom y i) +
          ∑ j ∈ Finset.range n, alpha * (memory (cellsFrom (columnAt 1 a lda 0 j) i) * memory (cellsFrom x j))) ∧
      KernelUpdates (gemvNoTransFullUnitReal cfg m n alpha (cellsFrom a) lda (cellsFrom x) beta (cellsFrom y))
        (useful cfg m n = true) (rowCells y m ∪ (entryCells 1 a lda m n ∪ rowCells x n)) {i | i < m} (cellsFrom y)
        (fun memory i => beta * memory (cellsFrom y i) +
          ∑ j ∈ Finset.range n, alpha * (memory (cellsFrom (columnAt 1 a lda 0 j) i) * memory (cellsFrom x j))) := by
  have body := no_trans_body cfg alpha apartA apartX
  rw [Finset.range_eq_Ico]
  exact ⟨useful_answer body.inside body.adds, scaled_answer cfg beta Set.subset_union_left body.inside body.adds
    (fun before after agree i small => Finset.sum_congr rfl (fun j member =>
      real_column_reads apartA apartX before after agree j (Finset.mem_Ico.mp member).2 i small))⟩

omit [DecidableEq R] in
theorem complex_no_trans_kernel (alpha : Cplx R) (even : 2 ∣ cfg.laneCount)
    (apartA : Disjoint (rowCells y (2 * m)) (entryCells 2 a lda m n))
    (apartX : Disjoint (rowCells y (2 * m)) (rowCells x (2 * n))) :
    KernelUpdates (gemvNoTransUnitComplex cfg m n alpha (cellsFrom a) lda (cellsFrom x) (cellsFrom y))
      (usefulComplex cfg m n = true) (rowCells y (2 * m) ∪ (entryCells 2 a lda m n ∪ rowCells x (2 * n))) {cell | cell < 2 * m}
      (cellsFrom y) (fun memory cell => memory (cellsFrom y cell) + ∑ j ∈ Finset.range n,
        component (alpha * (complexAt memory (columnAt 2 a lda 0 j) (cell / 2) * complexAt memory x j)) cell) := by
  have reads : ReadsApart (2 * m) y n (complexColumn alpha a lda x) := complex_column_reads apartA apartX
  have body : Adds (rowCells y (2 * m) ∪ (entryCells 2 a lda m n ∪ rowCells x (2 * n))) (2 * m) y (complexColumn alpha a lda x)
      (columnLoops cfg n (fun cols j => complexGemvNoTransCols cfg cols m alpha (cellsFrom a) lda (cellsFrom x) (cellsFrom y) j)
        (fun j => complexGemvNoTransCols cfg 1 m alpha (cellsFrom a) lda (cellsFrom x) (cellsFrom y) j)) 0 n :=
    chain_columns (fun first last program => Adds _ (2 * m) y (complexColumn alpha a lda x) program first last) cfg _ _
      (fun i => adds_nothing i) (fun _ _ _ _ _ early late low high inside => early.then late reads low high inside)
      (fun _ _ fits => complex_no_trans_block even fits apartA apartX)
      (fun _ small => complex_no_trans_block even small apartA apartX)
  rw [Finset.range_eq_Ico]
  exact useful_answer body.inside body.adds

theorem real_trans_kernels (alpha beta : R) (apartA : Disjoint (rowCells y n) (entryCells 1 a lda m n))
    (apartX : Disjoint (rowCells y n) (rowCells x m)) :
    KernelUpdates (gemvTransUnitReal cfg m n alpha (cellsFrom a) lda (cellsFrom x) (cellsFrom y)) (useful cfg m n = true)
        (rowCells y n ∪ (entryCells 1 a lda m n ∪ rowCells x m)) {j | j < n} (cellsFrom y)
        (fun memory j => memory (cellsFrom y j) +
          alpha * ∑ i ∈ Finset.range m, memory (cellsFrom (columnAt 1 a lda 0 j) i) * memory (cellsFrom x i)) ∧
      KernelUpdates (gemvTransFullUnitReal cfg m n alpha (cellsFrom a) lda (cellsFrom x) beta (cellsFrom y))
        (useful cfg m n = true) (rowCells y n ∪ (entryCells 1 a lda m n ∪ rowCells x m)) {j | j < n} (cellsFrom y)
        (fun memory j => beta * memory (cellsFrom y j) +
          alpha * ∑ i ∈ Finset.range m, memory (cellsFrom (columnAt 1 a lda 0 j) i) * memory (cellsFrom x i)) := by
  have body := trans_body cfg alpha apartA apartX
  have adds : ∀ memory : Nat → R, Overwrites {j | j < n} (cellsFrom y) (fun j => memory (cellsFrom y j) +
      alpha * columnDot a lda x m memory j) memory
        ((gemvTransUnitRealBody cfg m n alpha (cellsFrom a) lda (cellsFrom x) (cellsFrom y)).run memory).2 := by
    intro memory
    have row := filled_row Nat.one_pos body memory
    rw [Nat.one_mul] at row
    refine row.congr (fun j _ => ?_)
    rw [realDot, Nat.div_one]
  exact ⟨useful_answer body.inside adds, scaled_answer cfg beta Set.subset_union_left body.inside adds
    (fun before after agree j small => congrArg (alpha * ·) (column_dot_same agree apartA apartX small))⟩

theorem complex_trans_kernel (alpha : Cplx R) (doConj : Bool) (even : 2 ∣ cfg.laneCount)
    (apartA : Disjoint (rowCells y (2 * n)) (entryCells 2 a lda m n))
    (apartX : Disjoint (rowCells y (2 * n)) (rowCells x (2 * m))) :
    KernelUpdates (gemvTransUnitComplex cfg m n alpha (cellsFrom a) lda (cellsFrom x) (cellsFrom y) doConj)
      (usefulComplex cfg m n = true) (rowCells y (2 * n) ∪ (entryCells 2 a lda m n ∪ rowCells x (2 * m))) {cell | cell < 2 * n}
      (cellsFrom y) (fun memory cell => memory (cellsFrom y cell) + component (alpha * ∑ i ∈ Finset.range m,
        conjIf doConj (complexAt memory (columnAt 2 a lda 0 (cell / 2)) i) * complexAt memory x i) cell) := by
  have body : Fills (rowCells y (2 * n) ∪ (entryCells 2 a lda m n ∪ rowCells x (2 * m))) (fun _ => True) (elementAt 2 y)
      (complexDot doConj alpha a lda x m) (block 0 2 0 n)
      (columnLoops cfg n (fun cols j => complexGemvTransCols cfg cols m alpha (cellsFrom a) lda (cellsFrom x) (cellsFrom y) doConj j)
        (fun j => complexGemvTransCols cfg 1 m alpha (cellsFrom a) lda (cellsFrom x) (cellsFrom y) doConj j)) :=
    fills_columns cfg (complex_dot_frame apartA apartX (fun _ _ _ held => held))
      (fun _ _ fits => complex_trans_block even fits apartA apartX)
      (fun _ small => complex_trans_block even small apartA apartX)
  refine useful_answer body.inside (fun memory => (filled_row Nat.two_pos body memory).congr (fun cell _ => ?_))
  rw [complexDot, complexColumnDot, component, component, Nat.mod_mod]

theorem real_ger_kernel (alpha : R) (wide : m ≤ toUsize lda) (apartX : Disjoint (entryCells 1 a lda m n) (rowCells x m))
    (apartY : Disjoint (entryCells 1 a lda m n) (rowCells y n)) :
    KernelUpdates (gerUnitReal cfg m n alpha (cellsFrom x) (cellsFrom y) (cellsFrom a) lda) (useful cfg m n = true)
      (entryCells 1 a lda m n ∪ (rowCells x m ∪ rowCells y n)) {cell : Nat × Nat | cell.1 < m ∧ cell.2 < n}
      (place (columnAt 1 a lda 0)) (fun memory cell => memory (place (columnAt 1 a lda 0) cell) +
        alpha * (memory (cellsFrom x cell.1) * memory (cellsFrom y cell.2))) := by
  have body : Fills (entryCells 1 a lda m n ∪ (rowCells x m ∪ rowCells y n)) (fun _ => True) (columnAt 1 a lda 0)
      (realOuter alpha x y) (block 0 m 0 n)
      (columnLoops cfg n (fun cols j => gerCols cfg cols m alpha (cellsFrom x) (cellsFrom y) (cellsFrom a) lda j) (fun j => do
        let yj ← Program.get (cellsFrom y j)
        if alpha * yj ≠ 0 then axpyColumn cfg m (alpha * yj) (cellsFrom x) (entryFrom 1 (cellsFrom a) lda 0 j) else pure ())) :=
    fills_columns cfg (real_outer_frame wide apartX apartY (fun _ _ _ held => held))
      (fun _ _ fits => ger_block wide fits apartX apartY) (fun _ small => ger_column small apartX)
  exact useful_answer body.inside (filled_grid body)

omit [DecidableEq R] in
theorem complex_ger_kernel (alpha : Cplx R) (conjugateY : Bool) (even : 2 ∣ cfg.laneCount) (wide : m ≤ toUsize lda)
    (apartX : Disjoint (entryCells 2 a lda m n) (rowCells x (2 * m)))
    (apartY : Disjoint (entryCells 2 a lda m n) (rowCells y (2 * n))) :
    KernelUpdates (gerUnitComplex cfg m n alpha (cellsFrom x) (cellsFrom y) (cellsFrom a) lda conjugateY)
      (usefulComplex cfg m n = true) (entryCells 2 a lda m n ∪ (rowCells x (2 * m) ∪ rowCells y (2 * n)))
      {cell : Nat × Nat | cell.1 < 2 * m ∧ cell.2 < n} (place (columnAt 2 a lda 0))
      (fun memory cell => memory (place (columnAt 2 a lda 0) cell) +
        component (alpha * (complexAt memory x (cell.1 / 2) * conjIf conjugateY (complexAt memory y cell.2))) cell.1) := by
  have body : Fills (entryCells 2 a lda m n ∪ (rowCells x (2 * m) ∪ rowCells y (2 * n))) (fun _ => True) (columnAt 2 a lda 0)
      (complexOuter alpha conjugateY x y) (block 0 (2 * m) 0 n)
      (columnLoops cfg n
        (fun cols j => complexGerCols cfg cols m alpha (cellsFrom x) (cellsFrom y) (cellsFrom a) lda conjugateY j)
        (fun j => complexGerCols cfg 1 m alpha (cellsFrom x) (cellsFrom y) (cellsFrom a) lda conjugateY j)) :=
    fills_columns cfg (complex_outer_frame wide apartX apartY (fun _ _ _ held => held))
      (fun _ _ fits => complex_ger_block even wide fits apartX apartY)
      (fun _ small => complex_ger_block even wide small apartX apartY)
  exact useful_answer body.inside (filled_grid body)

end Kernels

section Symmetric

variable {R T : Type} [CommRing R] [CommRing T] {kernels : ColumnKernels Nat R T} {read : (Nat → R) → Nat → Nat → T}
  {part : T → Nat → R} {conj : T → T} {n a x y : Nat} {lda : Int} {alpha : T} {upper : Bool}

def owner (upper : Bool) (row col : Nat) : Nat := if upper then max row col else min row col

def symmetricEntry (kernels : ColumnKernels Nat R T) (read : (Nat → R) → Nat → Nat → T) (conj : T → T) (upper : Bool) (a : Nat)
    (lda : Int) (memory : Nat → R) (row col : Nat) : T :=
  if row = col then kernels.symmetricDiagonal (read memory (columnAt kernels.width a lda 0 col) col)
  else if owner upper row col = col then read memory (columnAt kernels.width a lda 0 col) row
  else conj (read memory (columnAt kernels.width a lda 0 row) col)

theorem off_diagonal_owned {row col : Nat} (row' : row < n) : row ∈ offDiagonalRows upper n col ↔ row ≠ col ∧ owner upper
    row col = col := by
  cases upper with
  | true =>
    rw [offDiagonalRows, if_pos rfl, owner, if_pos rfl, Finset.mem_range]
    omega
  | false =>
    rw [offDiagonalRows, if_neg Bool.false_ne_true, owner, if_neg Bool.false_ne_true, Finset.mem_Ico]
    omega

theorem owner_comm (row col : Nat) : owner upper row col = owner upper col row := by
  rw [owner, owner, max_comm, min_comm]

theorem owner_own (upper : Bool) (row col : Nat) : owner upper row col = row ∨ owner upper row col = col := by
  rw [owner]
  split <;> omega

omit [CommRing R] in
theorem column_share_owned (memory : Nat → R) {row col : Nat} (row' : row < n) (col' : col < n) :
    columnShare kernels read conj upper n alpha a lda x memory col row =
      alpha * ∑ j ∈ Finset.range n with owner upper row j = col,
        symmetricEntry kernels read conj upper a lda memory row j * read memory x j := by
  rw [columnShare]
  by_cases diagonal : row = col
  · rw [if_pos diagonal]
    subst diagonal
    have split : {j ∈ Finset.range n | owner upper row j = row} = insert row (offDiagonalRows upper n row) := by
      ext j
      rw [Finset.mem_insert, Finset.mem_filter, Finset.mem_range]
      by_cases inside : j < n
      · rw [off_diagonal_owned inside, owner_comm]
        by_cases same : j = row
        · rw [same, owner, max_self, min_self, ite_self]
          simp [row']
        · simp [same, inside]
      · have outside : j ∉ offDiagonalRows upper n row := by
          rw [offDiagonalRows]
          split
          · rw [Finset.mem_range]
            omega
          · rw [Finset.mem_Ico]
            omega
        constructor
        · rintro ⟨small, _⟩
          exact absurd small inside
        · rintro (rfl | member)
          · exact absurd row' inside
          · exact absurd member outside
    have new : row ∉ offDiagonalRows upper n row := fun member => ((off_diagonal_owned row').mp member).1 rfl
    rw [split, Finset.sum_insert new, symmetricEntry, if_pos rfl]
    refine congrArg (fun sum => alpha * (_ + sum)) (Finset.sum_congr rfl (fun j member => ?_))
    have inside : j < n := by
      rw [offDiagonalRows] at member
      split at member
      · exact (Finset.mem_range.mp member).trans row'
      · exact (Finset.mem_Ico.mp member).2
    obtain ⟨different, owned⟩ := (off_diagonal_owned inside).mp member
    have other : owner upper row j ≠ j := by
      rw [owner_comm, owned]
      exact different.symm
    rw [symmetricEntry, if_neg different.symm, if_neg other]
  · rw [if_neg diagonal]
    by_cases owned : owner upper row col = col
    · rw [if_pos ((off_diagonal_owned row').mpr ⟨diagonal, owned⟩)]
      have only : {j ∈ Finset.range n | owner upper row j = col} = {col} := by
        ext j
        rw [Finset.mem_singleton, Finset.mem_filter, Finset.mem_range]
        constructor
        · rintro ⟨_, here⟩
          rcases owner_own upper row j with same | same
          · exact absurd (same.symm.trans here) diagonal
          · exact same.symm.trans here
        · rintro rfl
          exact ⟨col', owned⟩
      rw [only, Finset.sum_singleton, symmetricEntry, if_neg diagonal, if_pos owned]
      ring
    · rw [if_neg (fun member => owned ((off_diagonal_owned row').mp member).2)]
      have none : {j ∈ Finset.range n | owner upper row j = col} = ∅ := by
        ext j
        rw [Finset.mem_filter]
        refine ⟨fun both => ?_, fun member => absurd member (Finset.notMem_empty j)⟩
        have here := both.2
        rcases owner_own upper row j with same | same
        · exact absurd (same.symm.trans here) diagonal
        · have equal : j = col := same.symm.trans here
          exact absurd (equal ▸ here) owned
      rw [none, Finset.sum_empty, mul_zero]

omit [CommRing R] in
theorem column_shares (memory : Nat → R) {row j0 j1 : Nat} (row' : row < n) (inside : j1 ≤ n) :
    ∑ col ∈ Finset.Ico j0 j1, columnShare kernels read conj upper n alpha a lda x memory col row =
      alpha * ∑ j ∈ Finset.range n with owner upper row j ∈ Finset.Ico j0 j1,
        symmetricEntry kernels read conj upper a lda memory row j * read memory x j := by
  rw [Finset.sum_congr rfl (fun col member => column_share_owned memory row' ((Finset.mem_Ico.mp member).2.trans_le inside)),
    ← Finset.mul_sum]
  refine congrArg (alpha * ·) ?_
  rw [← Finset.sum_fiberwise_of_maps_to (g := fun j => owner upper row j) (fun j member => (Finset.mem_filter.mp member).2)]
  refine Finset.sum_congr rfl (fun col member => Finset.sum_congr ?_ (fun _ _ => rfl))
  ext j
  rw [Finset.mem_filter, Finset.mem_filter, Finset.mem_filter]
  constructor
  · rintro ⟨small, here⟩
    exact ⟨⟨small, here ▸ member⟩, here⟩
  · rintro ⟨⟨small, _⟩, here⟩
    exact ⟨small, here⟩

theorem part_sum (meets : kernels.Meets read part conj) (columns : Finset Nat) (value : Nat → T) (cell : Nat) :
    ∑ col ∈ columns, part (value col) cell = part (∑ col ∈ columns, value col) cell := by
  classical
  induction columns using Finset.induction_on with
  | empty => exact (meets.part_zero cell).symm
  | insert col rest new ih => rw [Finset.sum_insert new, Finset.sum_insert new, meets.part_add, ih]

theorem symmetric_columns_kernel (meets : kernels.Meets read part conj) (upper hermitian : Bool) (j0 j1 : Nat) (alpha : T)
    (apartA : Disjoint (rowCells y (kernels.width * n)) (entryCells kernels.width a lda n n))
    (apartX : Disjoint (rowCells y (kernels.width * n)) (rowCells x (kernels.width * n))) :
    KernelUpdates (symmetricColumnsUnit kernels upper hermitian n j0 j1 alpha (cellsFrom a) lda (cellsFrom x) (cellsFrom y))
      (hermitian = kernels.hermitian ∧ n ≠ 0 ∧ j0 < j1 ∧ j1 ≤ n ∧ 0 < lda)
      (rowCells y (kernels.width * n) ∪ (entryCells kernels.width a lda n n ∪ rowCells x (kernels.width * n)))
      {cell | cell < kernels.width * n} (cellsFrom y) (fun memory cell => memory (cellsFrom y cell) +
        part (alpha * ∑ j ∈ Finset.range n with owner upper (cell / kernels.width) j ∈ Finset.Ico j0 j1,
          symmetricEntry kernels read conj upper a lda memory (cell / kernels.width) j * read memory x j) cell) := by
  rw [symmetricColumnsUnit]
  by_cases kind : hermitian = kernels.hermitian
  · rw [if_neg (not_not.mpr kind)]
    refine kernel_answer ?_ (fun accepted => ?_) (fun accepted memory => ?_)
    · rw [and_iff_right kind]
      omega
    · exact (symmetric_columns meets accepted.2.2.1.le accepted.2.2.2.1 apartA apartX).inside
    · refine ((symmetric_columns meets accepted.2.2.1.le accepted.2.2.2.1 apartA apartX).adds memory).congr (fun cell small => ?_)
      have row : cell / kernels.width < n := Nat.div_lt_of_lt_mul small
      rw [← column_shares memory row accepted.2.2.2.1, ← part_sum meets]
      rfl
  · rw [if_pos kind]
    exact ⟨trivial, fun accepted => absurd accepted.1 kind, fun _ _ => rfl⟩

end Symmetric

section Placement

variable {ly lx : Nat}

theorem output_before_matrix (ly lx width m n : Nat) (lda : Int) :
    Disjoint (rowCells 0 ly) (entryCells width (ly + lx) lda m n) := by
  refine Set.disjoint_left.mpr (fun place output entry => ?_)
  obtain ⟨i, small, rfl⟩ := output
  obtain ⟨col, _, cell, _, same⟩ := entry
  simp only [cellsFrom, columnAt] at same
  omega

theorem output_before_input : Disjoint (rowCells 0 ly) (rowCells ly lx) := by
  refine Set.disjoint_left.mpr (fun place output input => ?_)
  obtain ⟨i, small, rfl⟩ := output
  obtain ⟨j, _, same⟩ := input
  simp only [cellsFrom] at same
  omega

end Placement

-- Every kernel, whatever lanes, unrolls and work limits it is built with. The elements of an output lie apart from
-- every input.
theorem fixed_matrix_kernels {R : Type} [CommRing R] [DecidableEq R] (cfg : MatrixVectorConfig) (m n a x y : Nat) (lda : Int) :
    (∀ alpha beta : R, Disjoint (rowCells y m) (entryCells 1 a lda m n) → Disjoint (rowCells y m) (rowCells x n) →
      KernelUpdates (gemvNoTransUnitReal cfg m n alpha (cellsFrom a) lda (cellsFrom x) (cellsFrom y)) (useful cfg m n = true)
          (rowCells y m ∪ (entryCells 1 a lda m n ∪ rowCells x n)) {i | i < m} (cellsFrom y)
          (fun memory i => memory (cellsFrom y i) +
            ∑ j ∈ Finset.range n, alpha * (memory (cellsFrom (columnAt 1 a lda 0 j) i) * memory (cellsFrom x j))) ∧
        KernelUpdates (gemvNoTransFullUnitReal cfg m n alpha (cellsFrom a) lda (cellsFrom x) beta (cellsFrom y))
          (useful cfg m n = true) (rowCells y m ∪ (entryCells 1 a lda m n ∪ rowCells x n)) {i | i < m} (cellsFrom y)
          (fun memory i => beta * memory (cellsFrom y i) +
            ∑ j ∈ Finset.range n, alpha * (memory (cellsFrom (columnAt 1 a lda 0 j) i) * memory (cellsFrom x j)))) ∧
    (∀ alpha : Cplx R, 2 ∣ cfg.laneCount → Disjoint (rowCells y (2 * m)) (entryCells 2 a lda m n) →
      Disjoint (rowCells y (2 * m)) (rowCells x (2 * n)) →
      KernelUpdates (gemvNoTransUnitComplex cfg m n alpha (cellsFrom a) lda (cellsFrom x) (cellsFrom y))
        (usefulComplex cfg m n = true) (rowCells y (2 * m) ∪ (entryCells 2 a lda m n ∪ rowCells x (2 * n)))
        {cell | cell < 2 * m} (cellsFrom y) (fun memory cell => memory (cellsFrom y cell) + ∑ j ∈ Finset.range n,
          component (alpha * (complexAt memory (columnAt 2 a lda 0 j) (cell / 2) * complexAt memory x j)) cell)) ∧
    (∀ alpha beta : R, Disjoint (rowCells y n) (entryCells 1 a lda m n) → Disjoint (rowCells y n) (rowCells x m) →
      KernelUpdates (gemvTransUnitReal cfg m n alpha (cellsFrom a) lda (cellsFrom x) (cellsFrom y)) (useful cfg m n = true)
          (rowCells y n ∪ (entryCells 1 a lda m n ∪ rowCells x m)) {j | j < n} (cellsFrom y)
          (fun memory j => memory (cellsFrom y j) +
            alpha * ∑ i ∈ Finset.range m, memory (cellsFrom (columnAt 1 a lda 0 j) i) * memory (cellsFrom x i)) ∧
        KernelUpdates (gemvTransFullUnitReal cfg m n alpha (cellsFrom a) lda (cellsFrom x) beta (cellsFrom y))
          (useful cfg m n = true) (rowCells y n ∪ (entryCells 1 a lda m n ∪ rowCells x m)) {j | j < n} (cellsFrom y)
          (fun memory j => beta * memory (cellsFrom y j) +
            alpha * ∑ i ∈ Finset.range m, memory (cellsFrom (columnAt 1 a lda 0 j) i) * memory (cellsFrom x i))) ∧
    (∀ (alpha : Cplx R) (doConj : Bool), 2 ∣ cfg.laneCount → Disjoint (rowCells y (2 * n)) (entryCells 2 a lda m n) →
      Disjoint (rowCells y (2 * n)) (rowCells x (2 * m)) →
      KernelUpdates (gemvTransUnitComplex cfg m n alpha (cellsFrom a) lda (cellsFrom x) (cellsFrom y) doConj)
        (usefulComplex cfg m n = true) (rowCells y (2 * n) ∪ (entryCells 2 a lda m n ∪ rowCells x (2 * m)))
        {cell | cell < 2 * n} (cellsFrom y) (fun memory cell => memory (cellsFrom y cell) +
          component (alpha * ∑ i ∈ Finset.range m,
            conjIf doConj (complexAt memory (columnAt 2 a lda 0 (cell / 2)) i) * complexAt memory x i) cell)) ∧
    (∀ alpha : R, (m : Int) ≤ lda → Disjoint (entryCells 1 a lda m n) (rowCells x m) →
      Disjoint (entryCells 1 a lda m n) (rowCells y n) →
      KernelUpdates (gerUnitReal cfg m n alpha (cellsFrom x) (cellsFrom y) (cellsFrom a) lda) (useful cfg m n = true)
        (entryCells 1 a lda m n ∪ (rowCells x m ∪ rowCells y n)) {cell : Nat × Nat | cell.1 < m ∧ cell.2 < n}
        (place (columnAt 1 a lda 0)) (fun memory cell => memory (place (columnAt 1 a lda 0) cell) +
          alpha * (memory (cellsFrom x cell.1) * memory (cellsFrom y cell.2)))) ∧
    (∀ (alpha : Cplx R) (conjugateY : Bool), 2 ∣ cfg.laneCount → (m : Int) ≤ lda →
      Disjoint (entryCells 2 a lda m n) (rowCells x (2 * m)) → Disjoint (entryCells 2 a lda m n) (rowCells y (2 * n)) →
      KernelUpdates (gerUnitComplex cfg m n alpha (cellsFrom x) (cellsFrom y) (cellsFrom a) lda conjugateY)
        (usefulComplex cfg m n = true) (entryCells 2 a lda m n ∪ (rowCells x (2 * m) ∪ rowCells y (2 * n)))
        {cell : Nat × Nat | cell.1 < 2 * m ∧ cell.2 < n} (place (columnAt 2 a lda 0))
        (fun memory cell => memory (place (columnAt 2 a lda 0) cell) +
          component (alpha * (complexAt memory x (cell.1 / 2) * conjIf conjugateY (complexAt memory y cell.2))) cell.1)) ∧
    (∀ (upper hermitian : Bool) (j0 j1 : Nat) (alpha : R), Disjoint (rowCells y n) (entryCells 1 a lda n n) →
      Disjoint (rowCells y n) (rowCells x n) →
      KernelUpdates (symmetricColumnsUnit (realColumnKernels cfg) upper hermitian n j0 j1 alpha (cellsFrom a) lda (cellsFrom x)
          (cellsFrom y)) (hermitian = false ∧ n ≠ 0 ∧ j0 < j1 ∧ j1 ≤ n ∧ 0 < lda)
        (rowCells y n ∪ (entryCells 1 a lda n n ∪ rowCells x n)) {i | i < n} (cellsFrom y)
        (fun memory i => memory (cellsFrom y i) +
          alpha * ∑ j ∈ Finset.range n with owner upper i j ∈ Finset.Ico j0 j1,
            symmetricEntry (realColumnKernels cfg) (fun memory start i => memory (cellsFrom start i)) id upper a lda memory i j *
              memory (cellsFrom x j))) ∧
    (∀ (upper hermitian : Bool) (j0 j1 : Nat) (alpha : Cplx R), 2 ∣ cfg.laneCount →
      Disjoint (rowCells y (2 * n)) (entryCells 2 a lda n n) → Disjoint (rowCells y (2 * n)) (rowCells x (2 * n)) →
      KernelUpdates (symmetricColumnsUnit (complexColumnKernels cfg) upper hermitian n j0 j1 alpha (cellsFrom a) lda (cellsFrom x)
          (cellsFrom y)) (hermitian = true ∧ n ≠ 0 ∧ j0 < j1 ∧ j1 ≤ n ∧ 0 < lda)
        (rowCells y (2 * n) ∪ (entryCells 2 a lda n n ∪ rowCells x (2 * n))) {cell | cell < 2 * n} (cellsFrom y)
        (fun memory cell => memory (cellsFrom y cell) +
          component (alpha * ∑ j ∈ Finset.range n with owner upper (cell / 2) j ∈ Finset.Ico j0 j1,
            symmetricEntry (complexColumnKernels cfg) complexAt (conjIf true) upper a lda memory (cell / 2) j *
              complexAt memory x j) cell)) ∧
    (∀ coefficient : R, KernelAxpyDots (symmetricAxpyDotUnitReal cfg n coefficient a x y)
      (n = 0 ∨ coefficient = 0 ∨ (Apart n a y ∧ Apart n x y)) (rowCells a n ∪ rowCells x n ∪ rowCells y n) n y
      (fun memory => ∑ i ∈ Finset.range n, memory (cellsFrom a i) * memory (cellsFrom x i))
      (fun memory i => memory (cellsFrom y i) + coefficient * memory (cellsFrom a i))) := by
  have wide : (m : Int) ≤ lda → m ≤ toUsize lda := by
    intro large
    simp only [toUsize]
    omega
  refine ⟨fun alpha beta apartA apartX => real_no_trans_kernels cfg alpha beta apartA apartX,
    fun alpha even apartA apartX => complex_no_trans_kernel cfg alpha even apartA apartX,
    fun alpha beta apartA apartX => real_trans_kernels cfg alpha beta apartA apartX,
    fun alpha doConj even apartA apartX => complex_trans_kernel cfg alpha doConj even apartA apartX,
    fun alpha large apartX apartY => real_ger_kernel cfg alpha (wide large) apartX apartY,
    fun alpha conjugateY even large apartX apartY => complex_ger_kernel cfg alpha conjugateY even (wide large) apartX apartY,
    fun upper hermitian j0 j1 alpha apartA apartX => ?_, fun upper hermitian j0 j1 alpha even apartA apartX => ?_,
    fun coefficient => symmetric_axpy_dot⟩
  · have length : (realColumnKernels cfg : ColumnKernels Nat R R).width * n = n := Nat.one_mul n
    have columns := symmetric_columns_kernel (n := n) (a := a) (x := x) (y := y) (real_column_kernels cfg) upper hermitian j0 j1
      alpha (by rw [length]; exact apartA) (by rw [length]; exact apartX)
    rw [length] at columns
    refine columns.congr rfl (fun memory i => ?_)
    rw [show i / (realColumnKernels cfg : ColumnKernels Nat R R).width = i from Nat.div_one i]
  · exact symmetric_columns_kernel (complex_column_kernels even) upper hermitian j0 j1 alpha apartA apartX

-- Columns eight apart, four of them at a time and then the last; a Hermitian matrix of which only the lower triangle is read.
theorem fixed_matrix_kernels_small :
    let cfg : MatrixVectorConfig := ⟨2, 2, 4, 0, 0, true, by decide, by decide, by decide⟩
    ∀ memory : Nat → Int,
      let product := (gemvNoTransUnitReal cfg 7 5 3 (cellsFrom 12) 8 (cellsFrom 7) (cellsFrom 0)).run memory
      let dots := (gemvTransUnitComplex cfg 7 5 ⟨3, 1⟩ (cellsFrom 24) 8 (cellsFrom 10) (cellsFrom 0) true).run memory
      let hermitian := (symmetricColumnsUnit (complexColumnKernels cfg) false true 5 1 3 ⟨3, 1⟩ (cellsFrom 20) 8 (cellsFrom 10)
        (cellsFrom 0)).run memory
      (product.1 = true ∧ product.2 (cellsFrom 0 6) = memory (cellsFrom 0 6) + ∑ j ∈ Finset.range 5,
          3 * (memory (cellsFrom (columnAt 1 12 8 0 j) 6) * memory (cellsFrom 7 j))) ∧
        (dots.1 = true ∧ dots.2 (cellsFrom 0 9) = memory (cellsFrom 0 9) + component (⟨3, 1⟩ * ∑ i ∈ Finset.range 7,
          conjIf true (complexAt memory (columnAt 2 24 8 0 4) i) * complexAt memory 10 i) 9) ∧
        hermitian.1 = true := by
  intro cfg memory product dots hermitian
  have real := fixed_matrix_kernels (R := Int) cfg 7 5 12 7 0 8
  have complex := fixed_matrix_kernels (R := Int) cfg 7 5 24 10 0 8
  have square := fixed_matrix_kernels (R := Int) cfg 5 5 20 10 0 8
  have added := (real.1 3 0 (output_before_matrix 7 5 1 7 5 8) output_before_input).1.accepts (by decide) memory
  have dotted := (complex.2.2.2.1 ⟨3, 1⟩ true (by decide) (output_before_matrix 10 14 2 7 5 8) output_before_input).accepts
    (by decide) memory
  have columns := (square.2.2.2.2.2.2.2.1 false true 1 3 ⟨3, 1⟩ (by decide) (output_before_matrix 10 10 2 5 5 8)
    output_before_input).accepts (by decide) memory
  exact ⟨⟨added.1, added.2.written 6 (by decide)⟩, ⟨dotted.1, dotted.2.written 9 (by decide)⟩, columns.1⟩

end Zynum.FixedMatrix
