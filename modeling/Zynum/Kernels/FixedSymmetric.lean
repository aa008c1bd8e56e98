import Zynum.Kernels.FixedTransposed

set_option autoImplicit false

/- symmetricColumnsUnit and symmetricAxpyDotUnitReal: a stored column is used once
   as a column of A and once, reflected, as a row. -/
namespace Zynum.FixedMatrix

open ArrayProgram LevelOne FixedVector

section Specification

variable {R T : Type} [CommRing R] [CommRing T]

-- What the column kernels promise: elements as read and stored, and one exact axpy and dot product each.
structure ColumnKernels.Meets (kernels : ColumnKernels Nat R T) (read : (Nat → R) → Nat → Nat → T) (part : T → Nat → R)
    (conj : T → T) : Prop where
  part_add : ∀ left right cell, part (left + right) cell = part left cell + part right cell
  part_zero : ∀ cell, part 0 cell = 0
  part_shift : ∀ value k cell, part value (kernels.width * k + cell) = part value cell
  part_read : ∀ memory start cell, part (read memory start (cell / kernels.width)) cell = memory (cellsFrom start cell)
  some : 0 < kernels.width
  shift : ∀ memory start k i, read memory (start + kernels.width * k) i = read memory start (k + i)
  same : ∀ before after start i, (∀ cell, cell / kernels.width = i → before (cellsFrom start cell) = after (cellsFrom start cell)) →
    read before start i = read after start i
  gets : ∀ start i memory, (kernels.get (cellsFrom start) i).run memory = (read memory start i, memory)
  getWithin : ∀ start i (allowed : Set Nat), (∀ cell, cell / kernels.width = i → cellsFrom start cell ∈ allowed) →
    (kernels.get (cellsFrom start) i).Within allowed (fun _ => True)
  puts : ∀ start i value memory, Overwrites {cell | cell / kernels.width = i} (cellsFrom start) (part value) memory
    ((kernels.put (cellsFrom start) i value).run memory).2
  putWithin : ∀ start i value (allowed : Set Nat), (∀ cell, cell / kernels.width = i → cellsFrom start cell ∈ allowed) →
    (kernels.put (cellsFrom start) i value).Within allowed (fun _ => True)
  axpys : ∀ n alpha a x memory, Apart (kernels.width * n) a x →
    Overwrites {cell | cell < kernels.width * n} (cellsFrom x)
      (fun cell => part (alpha * read memory a (cell / kernels.width) + read memory x (cell / kernels.width)) cell) memory
      ((kernels.triangularAxpyUnit n alpha (cellsFrom a) (cellsFrom x)).run memory).2
  axpyWithin : ∀ n alpha a x, Apart (kernels.width * n) a x → (kernels.triangularAxpyUnit n alpha (cellsFrom a) (cellsFrom x)).Within
    (rowCells a (kernels.width * n) ∪ rowCells x (kernels.width * n)) (fun _ => True)
  dots : ∀ n a x memory, (kernels.triangularDotUnit n (cellsFrom a) (cellsFrom x)).run memory =
    (∑ i ∈ Finset.range n, conj (read memory a i) * read memory x i, memory)
  dotWithin : ∀ n a x, (kernels.triangularDotUnit n (cellsFrom a) (cellsFrom x)).Within
    (rowCells a (kernels.width * n) ∪ rowCells x (kernels.width * n)) (fun _ => True)

end Specification

section Instances

variable {R : Type} [CommRing R] [DecidableEq R]

omit [DecidableEq R] in
theorem real_column_kernels (cfg : MatrixVectorConfig) :
    (realColumnKernels cfg : ColumnKernels Nat R R).Meets (fun memory start i => memory (cellsFrom start i)) (fun value _ => value)
      id where
  part_add _ _ _ := rfl
  part_zero _ := rfl
  part_shift _ _ _ := rfl
  part_read memory start cell := by rw [realColumnKernels, Nat.div_one]
  some := Nat.one_pos
  shift memory start k i := by
    change memory (start + 1 * k + i) = memory (start + (k + i))
    rw [Nat.one_mul, Nat.add_assoc]
  same before after start i agree := agree i (Nat.div_one i)
  gets _ _ _ := rfl
  getWithin start i allowed inside := ⟨inside i (Nat.div_one i), fun _ => trivial⟩
  puts start i value memory := by
    constructor
    · intro cell here
      have same : cell = i := (Nat.div_one cell).symm.trans here
      rw [same]
      exact Function.update_self _ _ _
    · intro other outside
      exact Function.update_of_ne (fun same => outside i (Nat.div_one i) same.symm) _ _
  putWithin start i value allowed inside := ⟨inside i (Nat.div_one i), trivial⟩
  axpys n alpha a x memory apart := by
    have length : (realColumnKernels cfg : ColumnKernels Nat R R).width * n = n := Nat.one_mul n
    rw [length] at apart ⊢
    obtain ⟨_, final, ran, overwrites, _⟩ := (real_affine_loops cfg.laneCount cfg.rowUnrollVectors [] .axpy alpha 0
      (.inr apart)).works () memory trivial
    change Overwrites _ _ _ _ ((realAffineLoops cfg.laneCount cfg.rowUnrollVectors [] .axpy n alpha (cellsFrom a) 0
      (cellsFrom x)).run memory).2
    rw [ran]
    refine (overwrites.of_eq (Set.ext fun cell => ?_)).congr (fun cell _ => ?_)
    · simp only [rowLaw, id_eq, Set.mem_ofPred_eq, Set.mem_Ico, Nat.zero_le, true_and]
    · change _ = alpha * memory (cellsFrom a (cell / 1)) + memory (cellsFrom x (cell / 1))
      rw [Nat.div_one]
      rfl
  axpyWithin n alpha a x apart := by
    have length : (realColumnKernels cfg : ColumnKernels Nat R R).width * n = n := Nat.one_mul n
    rw [length] at apart ⊢
    exact (real_affine_loops cfg.laneCount cfg.rowUnrollVectors [] .axpy alpha 0 (.inr apart)).inside ()
  dots n a x memory := (dot_loops (n := n) (x := a) (y := x) (id : R → R) cfg.laneCount cfg.rowUnrollVectors []).2 memory
  dotWithin n a x := by
    have length : (realColumnKernels cfg : ColumnKernels Nat R R).width * n = n := Nat.one_mul n
    rw [length]
    exact (dot_loops (n := n) (x := a) (y := x) (id : R → R) cfg.laneCount cfg.rowUnrollVectors []).1

theorem complex_column_kernels {cfg : MatrixVectorConfig} (even : 2 ∣ cfg.laneCount) :
    (complexColumnKernels cfg : ColumnKernels Nat R (Cplx R)).Meets complexAt component (conjIf true) where
  part_add left right cell := component_add left right cell
  part_zero cell := component_zero cell
  part_shift value k cell := by
    have parity : (2 * k + cell) % 2 = cell % 2 := by omega
    change component value (2 * k + cell) = component value cell
    rw [component, component, parity]
  part_read memory start cell := component_at memory start cell
  some := Nat.two_pos
  shift memory start k i := by
    have cells : ∀ cell, cellsFrom (start + 2 * k) (2 * i + cell) = cellsFrom start (2 * (k + i) + cell) := by
      intro cell
      change start + 2 * k + (2 * i + cell) = start + (2 * (k + i) + cell)
      omega
    exact Cplx.ext_parts (congrArg memory (cells 0)) (congrArg memory (cells 1))
  same before after start i agree := by
    have even : (2 * i) / 2 = i := by omega
    have odd : (2 * i + 1) / 2 = i := by omega
    exact Cplx.ext_parts (agree (2 * i) even) (agree (2 * i + 1) odd)
  gets _ _ _ := rfl
  getWithin start i allowed inside := by
    have even : (2 * i) / 2 = i := by omega
    have odd : (2 * i + 1) / 2 = i := by omega
    exact ⟨inside (2 * i) even, fun _ => ⟨inside (2 * i + 1) odd, fun _ => trivial⟩⟩
  puts start i value memory := by
    have stored := store_vec start 2 (2 * i) (fun lane => if lane = 0 then value.re else value.im) memory
    refine (stored.of_eq (Set.ext fun cell => ?_)).congr (fun cell here => ?_)
    · change 2 * i ≤ cell ∧ cell < 2 * i + 2 ↔ cell / 2 = i
      omega
    · have half : cell / 2 = i := here
      have lane : cell - 2 * i < 2 := by omega
      have whole : 2 * i + (cell - 2 * i) = cell := by omega
      rw [component_pair value lane, whole]
  putWithin start i value allowed inside := by
    have even : (2 * i) / 2 = i := by omega
    have odd : (2 * i + 1) / 2 = i := by omega
    exact ⟨inside (2 * i) even, inside (2 * i + 1) odd, trivial⟩
  axpys n alpha a x memory apart := by
    obtain ⟨_, final, ran, overwrites, _⟩ := (complex_affine_loops cfg.fuseComplexUpdates cfg.rowUnrollVectors [] .axpy alpha 0
      even (fun tail member => absurd member List.not_mem_nil) (.inr apart)).works () memory trivial
    change Overwrites _ _ _ _ ((complexAffineLoops cfg.fuseComplexUpdates cfg.laneCount cfg.rowUnrollVectors [] .axpy n alpha
      (cellsFrom a) 0 (cellsFrom x)).run memory).2
    rw [ran]
    refine (overwrites.of_eq (Set.ext fun cell => ?_)).congr (fun cell _ => rfl)
    simp only [rowLaw, id_eq, Set.mem_ofPred_eq, Set.mem_Ico, Nat.zero_le, true_and]
    rfl
  axpyWithin n alpha a x apart :=
    (complex_affine_loops cfg.fuseComplexUpdates cfg.rowUnrollVectors [] .axpy alpha 0 even
      (fun tail member => absurd member List.not_mem_nil) (.inr apart)).inside ()
  dots n a x memory := (complex_dot_loops (n := n) (x := a) (y := x) true cfg.fuseComplexUpdates cfg.rowUnrollVectors even).2 memory
  dotWithin n a x := (complex_dot_loops (n := n) (x := a) (y := x) true cfg.fuseComplexUpdates cfg.rowUnrollVectors even).1

end Instances

section Columns

variable {R T : Type} [CommRing R] [CommRing T] {kernels : ColumnKernels Nat R T} {read : (Nat → R) → Nat → Nat → T}
  {part : T → Nat → R} {conj : T → T} {n a x y : Nat} {lda : Int} {alpha : T} {upper : Bool}

def offDiagonalRows (upper : Bool) (n col : Nat) : Finset Nat := if upper then Finset.range col else Finset.Ico (col + 1) n

def columnShare (kernels : ColumnKernels Nat R T) (read : (Nat → R) → Nat → Nat → T) (conj : T → T) (upper : Bool) (n : Nat)
    (alpha : T) (a : Nat) (lda : Int) (x : Nat) (memory : Nat → R) (col row : Nat) : T :=
  if row = col then
    alpha * (kernels.symmetricDiagonal (read memory (columnAt kernels.width a lda 0 col) col) * read memory x col +
      ∑ i ∈ offDiagonalRows upper n col, conj (read memory (columnAt kernels.width a lda 0 col) i) * read memory x i)
  else if row ∈ offDiagonalRows upper n col then
    alpha * read memory x col * read memory (columnAt kernels.width a lda 0 col) row
  else 0

def sharedColumn (kernels : ColumnKernels Nat R T) (read : (Nat → R) → Nat → Nat → T) (part : T → Nat → R) (conj : T → T)
    (upper : Bool) (n : Nat) (alpha : T) (a : Nat) (lda : Int) (x : Nat) (memory : Nat → R) (col cell : Nat) : R :=
  part (columnShare kernels read conj upper n alpha a lda x memory col (cell / kernels.width)) cell

omit [CommRing R] [CommRing T] in
theorem element_inside {width start length i cell : Nat} (some : 0 < width) (small : i < length) (here : cell / width = i) :
    cellsFrom start cell ∈ rowCells start (width * length) :=
  ⟨cell, by rw [Nat.mul_comm]; exact (Nat.div_lt_iff_lt_mul some).mp (here ▸ small), rfl⟩

theorem shared_column_reads (meets : kernels.Meets read part conj)
    (apartA : Disjoint (rowCells y (kernels.width * n)) (entryCells kernels.width a lda n n))
    (apartX : Disjoint (rowCells y (kernels.width * n)) (rowCells x (kernels.width * n))) :
    ReadsApart (kernels.width * n) y n (sharedColumn kernels read part conj upper n alpha a lda x) := by
  intro before after agree col small cell _
  have entries : ∀ i, i < n → read before (columnAt kernels.width a lda 0 col) i =
      read after (columnAt kernels.width a lda 0 col) i := fun i inside => meets.same _ _ _ _ (fun cell here =>
    agree.same apartA (column_cells small (element_inside meets.some inside here)))
  have scalars : ∀ i, i < n → read before x i = read after x i := fun i inside => meets.same _ _ _ _ (fun cell here =>
    agree.same apartX (element_inside meets.some inside here))
  have rows : ∀ i, i ∈ offDiagonalRows upper n col → i < n := by
    intro i member
    rw [offDiagonalRows] at member
    split at member
    · exact (Finset.mem_range.mp member).trans small
    · exact (Finset.mem_Ico.mp member).2
  rw [sharedColumn, sharedColumn, columnShare, columnShare, entries col small, scalars col small,
    Finset.sum_congr rfl (fun i member => by rw [entries i (rows i member), scalars i (rows i member)])]
  by_cases listed : cell / kernels.width ∈ offDiagonalRows upper n col
  · rw [entries _ (rows _ listed)]
  · rw [if_neg listed, if_neg listed]

omit [CommRing R] [CommRing T] in
theorem column_below (width a : Nat) (lda : Int) (row col : Nat) :
    columnAt width a lda row col = columnAt width a lda 0 col + width * row := by
  rw [columnAt, columnAt, matIndex, matIndex, Nat.zero_add, Nat.mul_add]
  omega

theorem diagonal_read (meets : kernels.Meets read part conj) (memory : Nat → R) (j : Nat) :
    read memory (columnAt kernels.width a lda 0 0) (matIndex lda j j) = read memory (columnAt kernels.width a lda 0 j) j := by
  rw [columnAt, columnAt, meets.shift, meets.shift]
  refine congrArg (read memory a) ?_
  rw [matIndex, matIndex, matIndex]
  omega

omit [CommRing R] [CommRing T] in
theorem diagonal_inside {width j cell : Nat} (some : 0 < width) (small : j < n) (here : cell / width = matIndex lda j j) :
    cellsFrom (columnAt width a lda 0 0) cell ∈ entryCells width a lda n n := by
  rw [matIndex] at here
  have low : (j + j * toUsize lda) * width ≤ cell := (Nat.le_div_iff_mul_le some).mp (Nat.le_of_eq here.symm)
  have start : width * (j * toUsize lda) ≤ cell := by
    refine le_trans ?_ low
    rw [Nat.mul_comm]
    exact Nat.mul_le_mul_right width (Nat.le_add_left _ _)
  obtain ⟨rest, rfl⟩ := Nat.exists_eq_add_of_le start
  rw [Nat.mul_add_div some] at here
  refine ⟨j, small, rest, (Nat.div_lt_iff_lt_mul some).mp ?_ |>.trans_eq (Nat.mul_comm n width), ?_⟩
  · omega
  · change a + width * (0 + j * toUsize lda) + rest = a + width * (0 + 0 * toUsize lda) + (width * (j * toUsize lda) + rest)
    rw [Nat.zero_add, Nat.zero_add, Nat.zero_mul, Nat.mul_zero, Nat.add_zero, Nat.add_assoc]

variable {j row0 count : Nat}

theorem axpy_stage (lda : Int) (x : Nat) (alpha : T) (meets : kernels.Meets read part conj) (fits : row0 + count ≤ n) (small : j < n)
    (apartA : Disjoint (rowCells y (kernels.width * n)) (entryCells kernels.width a lda n n)) :
    (if count ≠ 0 then do
        let xj ← kernels.get (cellsFrom x) j
        kernels.triangularAxpyUnit count (alpha * xj) (cellsFrom (columnAt kernels.width a lda row0 j))
          (cellsFrom (y + kernels.width * row0))
      else pure () : Program Nat R Unit).Within
        (rowCells y (kernels.width * n) ∪ (entryCells kernels.width a lda n n ∪ rowCells x (kernels.width * n))) (fun _ => True) ∧
    ∀ memory, Overwrites {cell | row0 ≤ cell / kernels.width ∧ cell / kernels.width < row0 + count} (cellsFrom y)
      (fun cell => memory (cellsFrom y cell) +
        part (alpha * read memory x j * read memory (columnAt kernels.width a lda 0 j) (cell / kernels.width)) cell) memory
      ((if count ≠ 0 then do
        let xj ← kernels.get (cellsFrom x) j
        kernels.triangularAxpyUnit count (alpha * xj) (cellsFrom (columnAt kernels.width a lda row0 j))
          (cellsFrom (y + kernels.width * row0))
      else pure () : Program Nat R Unit).run memory).2 := by
  by_cases empty : count = 0
  · rw [if_neg (not_not.mpr empty), empty]
    refine ⟨trivial, fun memory => (overwrites_nothing _ _ memory).of_eq (Set.ext fun cell => ?_)⟩
    exact ⟨False.elim, fun rows => Nat.lt_irrefl row0 (rows.1.trans_lt rows.2)⟩
  rw [if_pos empty, column_below]
  have inside : kernels.width * row0 + kernels.width * count ≤ kernels.width * n := by
    rw [← Nat.mul_add]
    exact Nat.mul_le_mul_left _ fits
  have rowY : rowCells (y + kernels.width * row0) (kernels.width * count) ⊆ rowCells y (kernels.width * n) := row_part inside
  have rowA : rowCells (columnAt kernels.width a lda 0 j + kernels.width * row0) (kernels.width * count) ⊆
      entryCells kernels.width a lda n n := (row_part inside).trans (column_cells small)
  have apart := apart_of_disjoint (apartA.mono rowY rowA)
  constructor
  · refine (meets.getWithin x j _ (fun cell here => .inr (.inr (element_inside meets.some small here)))).bind (fun xj _ => ?_)
    refine within_larger (Set.union_subset ?_ ?_) (meets.axpyWithin count (alpha * xj) _ _ apart)
    · exact rowA.trans (Set.subset_union_left.trans Set.subset_union_right)
    · exact rowY.trans Set.subset_union_left
  · intro memory
    rw [Program.run_do, meets.gets]
    have stored := meets.axpys count (alpha * read memory x j) _ _ memory apart
    constructor
    · rintro cell ⟨low, high⟩
      have start : kernels.width * row0 ≤ cell := by
        rw [Nat.mul_comm]
        exact (Nat.le_div_iff_mul_le meets.some).mp low
      have stop : cell < kernels.width * (row0 + count) := by
        rw [Nat.mul_comm]
        exact (Nat.div_lt_iff_lt_mul meets.some).mp high
      rw [Nat.mul_add] at stop
      obtain ⟨c, rfl⟩ := Nat.exists_eq_add_of_le start
      have shifted : cellsFrom (y + kernels.width * row0) c = cellsFrom y (kernels.width * row0 + c) := Nat.add_assoc _ _ _
      have quotient : (kernels.width * row0 + c) / kernels.width = row0 + c / kernels.width := Nat.mul_add_div meets.some row0 c
      have written := stored.written c (Nat.lt_of_add_lt_add_left stop)
      rw [shifted] at written
      rw [quotient, ← meets.shift, meets.part_shift, written, meets.part_add, meets.part_read, shifted, add_comm]
    · intro other outside
      refine stored.kept other (fun c within same => ?_)
      refine outside (kernels.width * row0 + c) ?_ ((Nat.add_assoc _ _ _).symm.trans same)
      have below : c / kernels.width < count := Nat.div_lt_of_lt_mul within
      rw [Set.mem_ofPred_eq, Nat.mul_add_div meets.some]
      exact ⟨Nat.le_add_right _ _, Nat.add_lt_add_left below _⟩

theorem dot_stage (lda : Int) (a x y : Nat) (meets : kernels.Meets read part conj) (fits : row0 + count ≤ n) (small : j < n) :
    (if count ≠ 0 then kernels.triangularDotUnit count (cellsFrom (columnAt kernels.width a lda row0 j))
        (cellsFrom (x + kernels.width * row0)) else pure 0 : Program Nat R T).Within
        (rowCells y (kernels.width * n) ∪ (entryCells kernels.width a lda n n ∪ rowCells x (kernels.width * n))) (fun _ => True) ∧
    ∀ memory, (if count ≠ 0 then kernels.triangularDotUnit count (cellsFrom (columnAt kernels.width a lda row0 j))
        (cellsFrom (x + kernels.width * row0)) else pure 0 : Program Nat R T).run memory =
      (∑ i ∈ Finset.Ico row0 (row0 + count), conj (read memory (columnAt kernels.width a lda 0 j) i) * read memory x i, memory) := by
  by_cases empty : count = 0
  · rw [if_neg (not_not.mpr empty), empty]
    refine ⟨trivial, fun memory => ?_⟩
    rw [Nat.add_zero, Finset.Ico_self, Finset.sum_empty]
    rfl
  rw [if_pos empty, column_below]
  have inside : kernels.width * row0 + kernels.width * count ≤ kernels.width * n := by
    rw [← Nat.mul_add]
    exact Nat.mul_le_mul_left _ fits
  constructor
  · refine within_larger (Set.union_subset ?_ ?_) (meets.dotWithin count _ _)
    · exact ((row_part inside).trans (column_cells small)).trans (Set.subset_union_left.trans Set.subset_union_right)
    · exact (row_part inside).trans (Set.subset_union_right.trans Set.subset_union_right)
  · intro memory
    rw [meets.dots, Finset.sum_Ico_eq_sum_range, Nat.add_sub_cancel_left]
    refine Prod.ext ?_ rfl
    simp only [meets.shift]

theorem symmetric_column (meets : kernels.Meets read part conj) (small : j < n)
    (apartA : Disjoint (rowCells y (kernels.width * n)) (entryCells kernels.width a lda n n))
    (apartX : Disjoint (rowCells y (kernels.width * n)) (rowCells x (kernels.width * n))) :
    Adds (rowCells y (kernels.width * n) ∪ (entryCells kernels.width a lda n n ∪ rowCells x (kernels.width * n)))
      (kernels.width * n) y (sharedColumn kernels read part conj upper n alpha a lda x)
      (symmetricColumn kernels upper n alpha (cellsFrom a) lda (cellsFrom x) (cellsFrom y) j) j (j + 1) := by
  obtain ⟨row0, sameRow⟩ : ∃ row0, row0 = if upper then 0 else j + 1 := ⟨_, rfl⟩
  obtain ⟨count, sameCount⟩ : ∃ count, count = if upper then j else n - row0 := ⟨_, rfl⟩
  have rows : offDiagonalRows upper n j = Finset.Ico row0 (row0 + count) := by
    cases upper with
    | true => rw [offDiagonalRows, if_pos rfl, sameCount, sameRow, if_pos rfl, if_pos rfl, Nat.zero_add, Finset.range_eq_Ico]
    | false =>
      have whole : j + 1 + (n - (j + 1)) = n := by omega
      rw [offDiagonalRows, if_neg Bool.false_ne_true, sameCount, sameRow, if_neg Bool.false_ne_true,
        if_neg Bool.false_ne_true, whole]
  have fits : row0 + count ≤ n := by
    cases upper with
    | true =>
      rw [if_pos rfl] at sameRow sameCount
      omega
    | false =>
      rw [if_neg Bool.false_ne_true] at sameRow sameCount
      omega
  have offDiagonal : ¬ (row0 ≤ j ∧ j < row0 + count) := by
    cases upper with
    | true =>
      rw [if_pos rfl] at sameRow sameCount
      omega
    | false =>
      rw [if_neg Bool.false_ne_true] at sameRow
      omega
  have shifted : ∀ ptr, (fun cell => cellsFrom ptr (kernels.width * row0 + cell)) = cellsFrom (ptr + kernels.width * row0) :=
    fun ptr => funext fun cell => (Nat.add_assoc ptr _ cell).symm
  have rowX : ∀ cell, cell / kernels.width = j → cellsFrom x cell ∈
      rowCells y (kernels.width * n) ∪ (entryCells kernels.width a lda n n ∪ rowCells x (kernels.width * n)) :=
    fun cell here => .inr (.inr (element_inside meets.some small here))
  have rowY : ∀ cell, cell / kernels.width = j → cellsFrom y cell ∈
      rowCells y (kernels.width * n) ∪ (entryCells kernels.width a lda n n ∪ rowCells x (kernels.width * n)) :=
    fun cell here => .inl (element_inside meets.some small here)
  obtain ⟨firstInside, first⟩ := axpy_stage lda x alpha meets fits small apartA
  obtain ⟨secondInside, second⟩ := dot_stage lda a x y meets fits small
  simp only [symmetricColumn, entry_from, ← sameRow, ← sameCount, shifted]
  constructor
  · refine firstInside.bind (fun _ _ => secondInside.bind (fun _ _ => (meets.getWithin _ _ _ (fun cell here =>
      .inr (.inl (diagonal_inside meets.some small here)))).bind (fun _ _ => (meets.getWithin _ _ _ rowX).bind (fun _ _ =>
        (meets.getWithin _ _ _ rowY).bind (fun _ _ => meets.putWithin _ _ _ _ rowY)))))
  · intro memory
    have direct := first memory
    rw [Program.run_do]
    generalize (Program.run _ memory).2 = middle at direct ⊢
    rw [Program.run_do, second, Program.run_do, meets.gets, Program.run_do, meets.gets, Program.run_do, meets.gets,
      diagonal_read meets]
    have agree : AgreeOff (rowCells y (kernels.width * n)) memory middle := overwrites_agree direct (fun cell inRows => by
      rw [Nat.mul_comm]
      exact (Nat.div_lt_iff_lt_mul meets.some).mp (inRows.2.trans_le fits))
    have entries : ∀ i, i < n → read middle (columnAt kernels.width a lda 0 j) i = read memory (columnAt kernels.width a lda 0 j) i :=
      fun i inside => (meets.same _ _ _ _ (fun cell here =>
        agree.same apartA (column_cells small (element_inside meets.some inside here)))).symm
    have scalars : ∀ i, i < n → read middle x i = read memory x i := fun i inside => (meets.same _ _ _ _ (fun cell here =>
      agree.same apartX (element_inside meets.some inside here))).symm
    have untouched : ∀ cell, ¬ (row0 ≤ cell / kernels.width ∧ cell / kernels.width < row0 + count) →
        middle (cellsFrom y cell) = memory (cellsFrom y cell) := fun cell outside =>
      direct.kept _ (fun other inRows same => outside (cells_from_injective y same ▸ inRows))
    have result : read middle y j = read memory y j := meets.same _ _ _ _ (fun cell here =>
      untouched cell (here ▸ offDiagonal))
    have sums : ∑ i ∈ Finset.Ico row0 (row0 + count), conj (read middle (columnAt kernels.width a lda 0 j) i) * read middle x i =
        ∑ i ∈ Finset.Ico row0 (row0 + count), conj (read memory (columnAt kernels.width a lda 0 j) i) * read memory x i :=
      Finset.sum_congr rfl (fun i member => by
        have inside : i < n := (Finset.mem_Ico.mp member).2.trans_le fits
        rw [entries i inside, scalars i inside])
    rw [result, sums, entries j small, scalars j small]
    have last := meets.puts y j (read memory y j + alpha * (kernels.symmetricDiagonal (read memory
      (columnAt kernels.width a lda 0 j) j) * read memory x j + ∑ i ∈ Finset.Ico row0 (row0 + count),
        conj (read memory (columnAt kernels.width a lda 0 j) i) * read memory x i)) middle
    constructor
    · intro cell inside
      rw [Nat.Ico_succ_singleton, Finset.sum_singleton, sharedColumn, columnShare, rows]
      by_cases here : cell / kernels.width = j
      · rw [if_pos here, last.written cell here, meets.part_add]
        refine congrArg (· + _) ?_
        rw [← here, meets.part_read]
      · rw [if_neg here, last.kept (cellsFrom y cell) (fun other member same => here (cells_from_injective y same ▸ member))]
        by_cases listed : cell / kernels.width ∈ Finset.Ico row0 (row0 + count)
        · rw [if_pos listed, direct.written cell (Finset.mem_Ico.mp listed)]
        · rw [if_neg listed, untouched cell (fun inRows => listed (Finset.mem_Ico.mpr inRows)), meets.part_zero, add_zero]
    · intro other outside
      rw [last.kept other (fun cell here => outside cell ?_), direct.kept other (fun cell inRows => outside cell ?_)]
      · change cell < kernels.width * n
        rw [Nat.mul_comm]
        exact (Nat.div_lt_iff_lt_mul meets.some).mp (inRows.2.trans_le fits)
      · change cell < kernels.width * n
        rw [Nat.mul_comm]
        exact (Nat.div_lt_iff_lt_mul meets.some).mp (by rw [show cell / kernels.width = j from here]; exact small)

theorem symmetric_columns {j0 j1 : Nat} (meets : kernels.Meets read part conj) (ordered : j0 ≤ j1) (inside : j1 ≤ n)
    (apartA : Disjoint (rowCells y (kernels.width * n)) (entryCells kernels.width a lda n n))
    (apartX : Disjoint (rowCells y (kernels.width * n)) (rowCells x (kernels.width * n))) :
    Adds (rowCells y (kernels.width * n) ∪ (entryCells kernels.width a lda n n ∪ rowCells x (kernels.width * n)))
      (kernels.width * n) y (sharedColumn kernels read part conj upper n alpha a lda x)
      (Program.each (j1 - j0) (fun step =>
        symmetricColumn kernels upper n alpha (cellsFrom a) lda (cellsFrom x) (cellsFrom y) (j0 + step))) j0 j1 := by
  have columns := (chain_fold (fun first last program => Adds (rowCells y (kernels.width * n) ∪
      (entryCells kernels.width a lda n n ∪ rowCells x (kernels.width * n))) (kernels.width * n) y
      (sharedColumn kernels read part conj upper n alpha a lda x) program first last) (fun step => j0 + step) (j1 - j0)
    (fun step => symmetricColumn kernels upper n alpha (cellsFrom a) lda (cellsFrom x) (cellsFrom y) (j0 + step))
    (fun first => adds_nothing first)
    (fun _ _ _ _ _ early late low high bounded => early.then late (shared_column_reads meets apartA apartX) low high bounded)
    (fun step _ => Nat.le_succ (j0 + step)) (by omega) (fun step small => symmetric_column meets (by omega) apartA apartX)).1
  have whole : j0 + (j1 - j0) = j1 := Nat.add_sub_cancel' ordered
  rw [whole] at columns
  exact columns

end Columns

section AxpyDot

variable {R : Type} [CommRing R] [DecidableEq R] {cfg : MatrixVectorConfig} {n a x y : Nat} {coefficient : R}

structure KernelAxpyDots (program : Program Nat R (Option R)) (accepted : Prop) (allowed : Set Nat) (n y : Nat)
    (sum : (Nat → R) → R) (value : (Nat → R) → Nat → R) : Prop where
  inside : program.Within allowed (fun _ => True)
  accepts : accepted → ∀ memory, (program.run memory).1 = some (sum memory) ∧
    Overwrites {cell | cell < n} (cellsFrom y) (value memory) memory (program.run memory).2
  declines : ¬ accepted → ∀ memory, program.run memory = (none, memory)

theorem close_iff (n x y : Nat) : (if x < y then y - x else x - y) < n ↔ ¬ Apart n x y := by
  rw [Apart]
  split <;> omega

def axpyDotLaw (coefficient : R) (n a x y : Nat) (allowed : Set Nat) : Law Nat Nat R R :=
  rowLaw (fun _ => True) y (fun memory i => memory (cellsFrom y i) + coefficient * memory (cellsFrom a i))
    (fun memory i => if i < n then memory (cellsFrom a i) * memory (cellsFrom x i) else 0) allowed

omit [DecidableEq R] in
theorem axpy_dot_sound {allowed : Set Nat} (apartA : Apart n a y) (apartX : Apart n x y) :
    (axpyDotLaw coefficient n a x y allowed).Sound 1 n := by
  refine ⟨fun cell other _ _ different same => different (by rw [cells_from_injective y same]), ?_, ?_, fun _ _ _ held => held⟩
  · intro before after cell small agree
    have own := agree (cellsFrom y cell) (fun other _ different same => different (by rw [cells_from_injective y same]))
    have input := agree (cellsFrom a cell) (fun other small' different =>
      clear_cell (.inr apartA) small small' rfl different)
    change before (cellsFrom y cell) + coefficient * before (cellsFrom a cell) = _
    rw [own, input]
    rfl
  · intro before after i agree
    have apart : ∀ z, Apart n z y → i < n → before (cellsFrom z i) = after (cellsFrom z i) := by
      intro z apart small
      refine agree _ (fun other inside same => ?_)
      have cells : y + other = z + i := same
      have small' : other < n := inside
      rw [Apart] at apart
      omega
    change (if i < n then before (cellsFrom a i) * before (cellsFrom x i) else 0) = _
    split
    · rename_i small
      rw [apart a apartA small, apart x apartX small]
      exact (if_pos small).symm
    · rename_i large
      exact (if_neg large).symm

omit [DecidableEq R] in
theorem axpy_dot_pass (coefficient : R) (lanes unroll : Nat) (apartA : Apart n a y) (apartX : Apart n x y) :
    (axpyDotLaw coefficient n a x y (rowCells a n ∪ rowCells x n ∪ rowCells y n)).Works (fun _ : Unit => 0) id
      (fun _ => vectorSums lanes unroll [] 1 n
        (fun lanes i acc => do
          let av ← loadVec lanes (cellsFrom a) i
          let xv ← loadVec lanes (cellsFrom x) i
          let yv ← loadVec lanes (cellsFrom y) i
          storeVec lanes (cellsFrom y) i (fun lane => av lane * coefficient + yv lane)
          pure (fun lane => av lane * xv lane + acc lane))
        (fun _ value => value)
        (fun i sum => do
          let av ← Program.get (cellsFrom a i)
          let xv ← Program.get (cellsFrom x i)
          let yv ← Program.get (cellsFrom y i)
          Program.put (cellsFrom y i) (av * coefficient + yv)
          pure (av * xv + sum))) 0 n := by
  have rowA : rowCells a n ⊆ rowCells a n ∪ rowCells x n ∪ rowCells y n := Set.subset_union_left.trans Set.subset_union_left
  have rowX : rowCells x n ⊆ rowCells a n ∪ rowCells x n ∪ rowCells y n := Set.subset_union_right.trans Set.subset_union_left
  have rowY : rowCells y n ⊆ rowCells a n ∪ rowCells x n ∪ rowCells y n := Set.subset_union_right
  refine works_vector_sums (axpy_dot_sound apartA apartX) unroll [] (fun _ => AddMonoidHom.id R) (one_dvd _)
    (fun tail member => absurd member List.not_mem_nil) (one_dvd n) _ _ (fun i _ fits => ?_)
    (fun tail member => absurd member List.not_mem_nil) (fun i _ fits => ?_)
  · refine works_lanes (fun _ => AddMonoidHom.id R) _ (fun acc => (within_load_vec rowA fits).bind (fun _ _ =>
      (within_load_vec rowX fits).bind (fun _ _ => (within_load_vec rowY fits).bind (fun _ _ =>
        (within_store_vec _ rowY fits).bind (fun _ _ => trivial))))) (fun acc memory _ => ?_)
    rw [Program.run_do, run_load_vec, Program.run_do, run_load_vec, Program.run_do, run_load_vec, Program.run_do]
    refine ⟨_, _, rfl, stored_values _ memory (fun lane small => ?_), fun lane small => ?_⟩
    · dsimp only
      rw [if_pos small, if_pos small]
      change _ = memory (cellsFrom y (i + lane)) + coefficient * memory (cellsFrom a (i + lane))
      ring
    · have inside : i + lane < n := by omega
      dsimp only
      rw [if_pos small, if_pos small]
      exact (if_pos inside).symm
  · refine ⟨fun sum => (within_get rowA fits rfl).bind (fun _ _ => (within_get rowX fits rfl).bind (fun _ _ =>
      (within_get rowY fits rfl).bind (fun _ _ => ⟨rowY ⟨i, fits, rfl⟩, trivial⟩))), fun sum memory _ => ?_⟩
    have stored : Overwrites {cell | id cell ∈ Set.Ico i (i + 1)} (cellsFrom y)
        (fun cell => memory (cellsFrom y cell) + coefficient * memory (cellsFrom a cell)) memory
        ((storeVec 1 (cellsFrom y) i (fun _ => memory (cellsFrom a i) * coefficient + memory (cellsFrom y i))).run memory).2 := by
      refine stored_values _ memory (fun lane small => ?_)
      rw [Nat.lt_one_iff.mp small, Nat.add_zero]
      ring
    refine ⟨_, _, rfl, stored, ?_⟩
    rw [Nat.Ico_succ_singleton, Finset.sum_singleton, id, id]
    exact (add_comm _ _).trans (congrArg (sum + ·) (if_pos fits).symm)

omit [CommRing R] [DecidableEq R] in
theorem run_some {program : Program Nat R R} {sum : R} {memory final : Nat → R} (ran : program.run memory = (sum, final)) :
    (do
      let sum ← program
      pure (some sum) : Program Nat R (Option R)).run memory = (some sum, final) := by
  rw [Program.run_do, ran]
  rfl

theorem symmetric_axpy_dot :
    KernelAxpyDots (symmetricAxpyDotUnitReal cfg n coefficient a x y)
      (n = 0 ∨ coefficient = 0 ∨ (Apart n a y ∧ Apart n x y)) (rowCells a n ∪ rowCells x n ∪ rowCells y n) n y
      (fun memory => ∑ i ∈ Finset.range n, memory (cellsFrom a i) * memory (cellsFrom x i))
      (fun memory i => memory (cellsFrom y i) + coefficient * memory (cellsFrom a i)) := by
  rw [symmetricAxpyDotUnitReal]
  by_cases empty : n = 0
  · rw [if_pos empty]
    refine ⟨trivial, fun _ memory => ⟨?_, fun cell small => ?_, fun _ _ => rfl⟩, fun declined => absurd (.inl empty) declined⟩
    · rw [empty, Finset.range_zero, Finset.sum_empty]
      rfl
    · exact absurd (empty ▸ small : cell < 0) (Nat.not_lt_zero cell)
  rw [if_neg empty]
  by_cases zero : coefficient = 0
  · rw [if_pos zero]
    obtain ⟨inside, sums⟩ := dot_loops (n := n) (x := a) (y := x) (id : R → R) cfg.laneCount cfg.rowUnrollVectors []
    refine ⟨(within_larger Set.subset_union_left inside).bind (fun _ _ => trivial), fun _ memory => ?_,
      fun declined => absurd (.inr (.inl zero)) declined⟩
    have ran : (realDotUnit cfg n (fun i => a + i) (fun i => x + i)).run memory = _ := sums memory
    rw [Program.run_do, ran]
    refine ⟨rfl, fun cell small => ?_, fun _ _ => rfl⟩
    rw [zero, zero_mul, add_zero]
    rfl
  rw [if_neg zero]
  by_cases apart : Apart n a y ∧ Apart n x y
  · obtain ⟨apartA, apartX⟩ := apart
    have pass := axpy_dot_pass coefficient cfg.laneCount cfg.rowUnrollVectors apartA apartX
    rw [if_neg (by rw [close_iff, close_iff, not_or, not_not, not_not]; exact ⟨apartA, apartX⟩)]
    refine ⟨(pass.inside ()).bind (fun _ _ => trivial), fun _ memory => ?_,
      fun declined => absurd (.inr (.inr ⟨apartA, apartX⟩)) declined⟩
    obtain ⟨sum, final, ran, overwrites, total⟩ := pass.works () memory trivial
    have ran' := run_some ran
    have value : sum = ∑ i ∈ Finset.range n, memory (cellsFrom a i) * memory (cellsFrom x i) := by
      rw [← id_eq sum, total, zero_add, Finset.range_eq_Ico]
      exact Finset.sum_congr rfl (fun i member => if_pos (Finset.mem_Ico.mp member).2)
    rw [← value]
    have written : ∀ after, after = final → Overwrites {cell | cell < n} (cellsFrom y)
        (fun i => memory (cellsFrom y i) + coefficient * memory (cellsFrom a i)) memory after := by
      rintro _ rfl
      refine overwrites.of_eq (Set.ext fun cell => ?_)
      change 0 ≤ cell ∧ cell < n ↔ cell < n
      omega
    exact ⟨congrArg Prod.fst ran', written _ (congrArg Prod.snd ran')⟩
  · rw [if_pos (by rw [close_iff, close_iff, ← not_and_or]; exact apart)]
    refine ⟨trivial, fun accepted => ?_, fun _ memory => rfl⟩
    rcases accepted with none | none | both
    · exact absurd none empty
    · exact absurd none zero
    · exact absurd both apart

end AxpyDot

end Zynum.FixedMatrix
