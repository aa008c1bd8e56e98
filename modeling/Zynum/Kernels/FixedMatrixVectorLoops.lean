import Zynum.Kernels.FixedMatrixVector
import Zynum.Kernels.FixedVectorSums

set_option autoImplicit false

/- Column blocks, their two tails and the single columns cover [0, n). A block
   adds to every cell of the output what its columns contribute. -/
namespace Zynum.FixedMatrix

open ArrayProgram LevelOne FixedVector

variable {R : Type}

section Driver

variable {holds : Nat → Nat → Program Nat R Unit → Prop} {n : Nat}

theorem chain_fold (holds : Nat → Nat → Program Nat R Unit → Prop) (bound : Nat → Nat) (count : Nat) (body : Nat → Program Nat R Unit)
    (nothing : ∀ i, holds i i (.done ()))
    (andThen : ∀ i j k program next, holds i j program → holds j k next → i ≤ j → j ≤ k → k ≤ n →
      holds i k (program.bind (fun _ => next)))
    (ordered : ∀ turn, turn < count → bound turn ≤ bound (turn + 1)) (inside : bound count ≤ n)
    (each : ∀ turn, turn < count → holds (bound turn) (bound (turn + 1)) (body turn)) :
    holds (bound 0) (bound count) (Program.each count body) ∧ bound 0 ≤ bound count := by
  induction count with
  | zero => exact ⟨nothing _, Nat.le_refl _⟩
  | succ count ih =>
    have step := ordered count (Nat.lt_succ_self count)
    obtain ⟨before, low⟩ := ih (fun turn small => ordered turn (Nat.lt_succ_of_lt small)) (step.trans inside)
      (fun turn small => each turn (Nat.lt_succ_of_lt small))
    exact ⟨andThen _ _ _ _ _ before (each count (Nat.lt_succ_self count)) low step inside, low.trans step⟩

theorem chain_while {first last : Nat} (step : Nat) (body : Nat → Program Nat R Unit) (nothing : ∀ i, holds i i (.done ()))
    (andThen : ∀ i j k program next, holds i j program → holds j k next → i ≤ j → j ≤ k → k ≤ n →
      holds i k (program.bind (fun _ => next)))
    (inside : first ≤ last) (bounded : last ≤ n) (each : ∀ j, j + step ≤ n → holds j (j + step) (body j)) :
    holds first (reached step first last) (whileFits step first last (fun j _ => body j) ()) := by
  have blocks := chain_fold holds (fun turn => first + turn * step) ((last - first) / step) (fun turn => body (first + turn * step))
    nothing andThen (fun turn _ => by rw [Nat.succ_mul]; omega) ((reached_le inside).trans bounded) (fun turn small => by
      have next : first + (turn + 1) * step = first + turn * step + step := by rw [Nat.succ_mul]; omega
      rw [next]
      exact each _ ((turn_inside small).trans bounded))
  rw [Nat.zero_mul, Nat.add_zero] at blocks
  exact blocks.1

theorem chain_tails {first : Nat} (tails : List Nat) (body : Nat → Nat → Program Nat R Unit)
    (nothing : ∀ i, holds i i (.done ()))
    (andThen : ∀ i j k program next, holds i j program → holds j k next → i ≤ j → j ≤ k → k ≤ n →
      holds i k (program.bind (fun _ => next)))
    (inside : first ≤ n) (each : ∀ cols j, j + cols ≤ n → holds j (j + cols) (body cols j)) :
    holds first (tailsReached tails first n) (tailLoops tails first n body) := by
  induction tails generalizing first with
  | nil => exact nothing first
  | cons cols shorter ih =>
    have blocks := chain_while cols (body cols) nothing andThen inside (Nat.le_refl n) (each cols)
    exact andThen _ _ _ _ _ blocks (ih (reached_le inside)) (le_reached _ _ _) (le_tails_reached _ _ _)
      (tails_reached_le shorter (reached_le inside))

-- What every block and every single column does to its own columns, the loops do to all of them.
theorem chain_columns (holds : Nat → Nat → Program Nat R Unit → Prop) (cfg : MatrixVectorConfig)
    (run : Nat → Nat → Program Nat R Unit) (single : Nat → Program Nat R Unit)
    (nothing : ∀ i, holds i i (.done ()))
    (andThen : ∀ i j k program next, holds i j program → holds j k next → i ≤ j → j ≤ k → k ≤ n →
      holds i k (program.bind (fun _ => next)))
    (block : ∀ cols j, j + cols ≤ n → holds j (j + cols) (run cols j))
    (column : ∀ j, j + 1 ≤ n → holds j (j + 1) (single j)) : holds 0 n (columnLoops cfg n run single) := by
  have blocks := chain_while cfg.colUnroll (run cfg.colUnroll) nothing andThen (Nat.zero_le n) (Nat.le_refl n)
    (block cfg.colUnroll)
  have inside : reached cfg.colUnroll 0 n ≤ n := reached_le (Nat.zero_le n)
  rw [columnLoops]
  dsimp only
  generalize reached cfg.colUnroll 0 n = j at blocks inside ⊢
  have shorter := chain_tails (tailColumnBlocks cfg) run nothing andThen inside block
  have inside' := tails_reached_le (tailColumnBlocks cfg) inside
  have low := le_tails_reached (tailColumnBlocks cfg) j n
  generalize tailsReached (tailColumnBlocks cfg) j n = k at shorter inside' low ⊢
  have rest := chain_while 1 single nothing andThen inside' (Nat.le_refl n) column
  rw [reached_last (one_dvd k) (one_dvd n) inside'] at rest
  exact andThen _ _ _ _ _ blocks (andThen _ _ _ _ _ shorter rest low inside' (Nat.le_refl n)) (Nat.zero_le j) inside
    (Nat.le_refl n)

theorem chain_vectors (holds : Nat → Nat → Program Nat R Unit → Prop) {width lanes unroll : Nat}
    (vector : Nat → Nat → Program Nat R Unit) (scalar : Nat → Program Nat R Unit) (nothing : ∀ i, holds i i (.done ()))
    (andThen : ∀ i j k program next, holds i j program → holds j k next → i ≤ j → j ≤ k → k ≤ n →
      holds i k (program.bind (fun _ => next))) (whole : width ∣ lanes) (finish : width ∣ n)
    (each : ∀ i, width ∣ i → i + lanes ≤ n → holds i (i + lanes) (vector lanes i))
    (single : ∀ i, width ∣ i → i + width ≤ n → holds i (i + width) (scalar i)) :
    holds 0 n (vectorLoops lanes unroll [] width n vector scalar) := by
  have nothing' : ∀ i, width ∣ i → width ∣ i ∧ holds i i (.done ()) := fun i start => ⟨start, nothing i⟩
  have andThen' : ∀ i j k program next, (width ∣ i → width ∣ j ∧ holds i j program) → (width ∣ j → width ∣ k ∧ holds j k next) →
      i ≤ j → j ≤ k → k ≤ n → width ∣ i → width ∣ k ∧ holds i k (program.bind (fun _ => next)) := by
    intro i j k program next early late low high inside start
    obtain ⟨middle, first⟩ := early start
    obtain ⟨last, second⟩ := late middle
    exact ⟨last, andThen i j k program next first second low high inside⟩
  have one : ∀ i, i + lanes ≤ n → width ∣ i → width ∣ i + lanes ∧ holds i (i + lanes) (vector lanes i) :=
    fun i fits start => ⟨Nat.dvd_add start whole, each i start fits⟩
  have several : ∀ i, i + lanes * unroll ≤ n → width ∣ i → width ∣ i + lanes * unroll ∧
      holds i (i + lanes * unroll) (Program.each unroll (fun k => vector lanes (i + k * lanes))) := by
    intro i fits
    have vectors := chain_fold (fun i j program => width ∣ i → width ∣ j ∧ holds i j program) (fun k => i + k * lanes)
      unroll (fun k => vector lanes (i + k * lanes)) nothing' andThen' (fun k _ => by rw [Nat.succ_mul]; omega)
      (by rw [Nat.mul_comm]; exact fits) (fun k small => by
        have upper : (k + 1) * lanes ≤ unroll * lanes := Nat.mul_le_mul_right lanes small
        have next : i + (k + 1) * lanes = i + k * lanes + lanes := by rw [Nat.succ_mul]; omega
        rw [Nat.mul_comm unroll lanes] at upper
        rw [next]
        exact one _ (by omega))
    rw [Nat.zero_mul, Nat.add_zero, Nat.mul_comm unroll lanes] at vectors
    exact vectors.1
  have unrolled := chain_while (lanes * unroll) (fun i => Program.each unroll (fun k => vector lanes (i + k * lanes))) nothing'
    andThen' (Nat.zero_le n) (Nat.le_refl n) several
  have inside : reached (lanes * unroll) 0 n ≤ n := reached_le (Nat.zero_le n)
  rw [vectorLoops]
  dsimp only
  generalize reached (lanes * unroll) 0 n = i at unrolled inside ⊢
  have vectors := chain_while lanes (fun i => vector lanes i) nothing' andThen' inside (Nat.le_refl n) one
  have inside' : reached lanes i n ≤ n := reached_le inside
  have low := le_reached lanes i n
  generalize reached lanes i n = j at vectors inside' low ⊢
  obtain ⟨first, done⟩ := unrolled (Nat.dvd_zero width)
  obtain ⟨second, done'⟩ := vectors first
  have rest := chain_while width scalar nothing' andThen' inside' (Nat.le_refl n)
    (fun i fits start => ⟨Nat.dvd_add start (Nat.dvd_refl width), single i start fits⟩)
  rw [reached_last second finish inside'] at rest
  have tail := andThen _ _ _ _ _ (nothing j) (rest second).2 (Nat.le_refl j) inside' (Nat.le_refl n)
  exact andThen _ _ _ _ _ done (andThen _ _ _ _ _ done' tail low inside' (Nat.le_refl n)) (Nat.zero_le i) inside (Nat.le_refl n)

end Driver

section Regions

def columnAt (width a : Nat) (lda : Int) (row col : Nat) : Nat := a + width * matIndex lda row col

theorem entry_from (width a : Nat) (lda : Int) (row col : Nat) :
    entryFrom width (cellsFrom a) lda row col = cellsFrom (columnAt width a lda row col) := by
  funext cell
  exact (Nat.add_assoc a _ cell).symm

def entryCells (width a : Nat) (lda : Int) (m n : Nat) : Set Nat :=
  {place | ∃ col, col < n ∧ place ∈ rowCells (columnAt width a lda 0 col) (width * m)}

theorem column_cells {width a m n col : Nat} {lda : Int} (small : col < n) :
    rowCells (columnAt width a lda 0 col) (width * m) ⊆ entryCells width a lda m n := fun _ member => ⟨col, small, member⟩

theorem row_part {start offset count length : Nat} (fits : offset + count ≤ length) :
    rowCells (start + offset) count ⊆ rowCells start length := by
  rintro _ ⟨i, small, rfl⟩
  exact ⟨offset + i, by omega, (Nat.add_assoc start offset i).symm⟩

theorem apart_of_disjoint {length x y : Nat} (apart : Disjoint (rowCells y length) (rowCells x length)) : Apart length x y := by
  by_contra crossing
  rw [Apart, not_or] at crossing
  by_cases order : x ≤ y
  · refine Set.disjoint_left.mp apart ⟨0, by omega, rfl⟩ ⟨y - x, by omega, ?_⟩
    change x + (y - x) = y + 0
    omega
  · refine Set.disjoint_left.mp apart ⟨x - y, by omega, rfl⟩ ⟨0, by omega, ?_⟩
    change x + 0 = y + (x - y)
    omega

def AgreeOff (row : Set Nat) (before after : Nat → R) : Prop := ∀ place, place ∉ row → before place = after place

theorem AgreeOff.same {row other : Set Nat} {before after : Nat → R} (agree : AgreeOff row before after)
    (apart : Disjoint row other) {place : Nat} (member : place ∈ other) : before place = after place :=
  agree place (fun inside => Set.disjoint_left.mp apart inside member)

theorem overwrites_agree {cells : Set Nat} {value : Nat → R} {before after : Nat → R} {y length : Nat}
    (overwrites : Overwrites cells (cellsFrom y) value before after) (inside : ∀ cell, cell ∈ cells → cell < length) :
    AgreeOff (rowCells y length) before after := fun place outside =>
  (overwrites.kept place (fun cell member same => outside ⟨cell, inside cell member, same⟩)).symm

end Regions

theorem within_larger {A : Type} {allowed larger : Set Nat} {program : Program Nat R A} (more : allowed ⊆ larger)
    (inside : program.Within allowed (fun _ => True)) : program.Within larger (fun _ => True) := by
  induction program with
  | done result => trivial
  | load place rest ih => exact ⟨more inside.1, fun value => ih value (inside.2 value)⟩
  | discard place rest ih => exact ⟨more inside.1, ih inside.2⟩
  | store place value rest ih => exact ⟨more inside.1, ih inside.2⟩

section Adding

variable [AddCommMonoid R] {allowed : Set Nat} {length y n : Nat} {contribution : (Nat → R) → Nat → Nat → R}

-- Every cell of the output gains what the columns [first, last) contribute, and nothing else changes.
structure Adds (allowed : Set Nat) (length y : Nat) (contribution : (Nat → R) → Nat → Nat → R)
    (program : Program Nat R Unit) (first last : Nat) : Prop where
  inside : program.Within allowed (fun _ => True)
  adds : ∀ memory, Overwrites {cell | cell < length} (cellsFrom y)
    (fun cell => memory (cellsFrom y cell) + ∑ col ∈ Finset.Ico first last, contribution memory col cell)
    memory (program.run memory).2

def ReadsApart (length y n : Nat) (contribution : (Nat → R) → Nat → Nat → R) : Prop :=
  ∀ before after : Nat → R, AgreeOff (rowCells y length) before after → ∀ col, col < n → ∀ cell, cell < length →
    contribution before col cell = contribution after col cell

theorem adds_nothing (first : Nat) : Adds allowed length y contribution (.done ()) first first := by
  refine ⟨trivial, fun memory => ⟨fun cell _ => ?_, fun _ _ => rfl⟩⟩
  rw [Finset.Ico_self, Finset.sum_empty, add_zero]
  rfl

theorem Adds.then {program next : Program Nat R Unit} {first middle last : Nat}
    (early : Adds allowed length y contribution program first middle)
    (late : Adds allowed length y contribution next middle last) (reads : ReadsApart length y n contribution)
    (low : first ≤ middle) (high : middle ≤ last) (inside : last ≤ n) :
    Adds allowed length y contribution (program.bind (fun _ => next)) first last := by
  refine ⟨early.inside.bind (fun _ _ => late.inside), fun memory => ?_⟩
  rw [Program.run_bind]
  have head := early.adds memory
  have tail := late.adds (program.run memory).2
  generalize (program.run memory).2 = between at head tail ⊢
  have agree : AgreeOff (rowCells y length) memory between := overwrites_agree head (fun cell member => member)
  constructor
  · intro cell small
    rw [tail.written cell small, head.written cell small, add_assoc, ← Finset.sum_Ico_consecutive _ low high]
    have same : ∑ col ∈ Finset.Ico middle last, contribution between col cell =
        ∑ col ∈ Finset.Ico middle last, contribution memory col cell := Finset.sum_congr rfl (fun col member =>
      (reads memory between agree col ((Finset.mem_Ico.mp member).2.trans_le inside) cell small).symm)
    rw [same]
  · intro place outside
    rw [tail.kept place outside, head.kept place outside]

end Adding

section Filling

variable [AddCommMonoid R] {T : Type} {allowed : Set Nat} {holds : (Nat → R) → Prop} {column : Nat → Nat}
  {gain : (Nat → R) → Nat × Nat → R} {grid cells others : Set (Nat × Nat)}

def place (column : Nat → Nat) (cell : Nat × Nat) : Nat := cellsFrom (column cell.2) cell.1

-- Every cell of the set gains its own amount, and nothing else changes.
structure Fills (allowed : Set Nat) (holds : (Nat → R) → Prop) (column : Nat → Nat) (gain : (Nat → R) → Nat × Nat → R)
    (cells : Set (Nat × Nat)) (program : Program Nat R Unit) : Prop where
  inside : program.Within allowed (fun _ => True)
  fills : ∀ memory, holds memory → Overwrites cells (place column) (fun cell => memory (place column cell) + gain memory cell)
    memory (program.run memory).2

def SameOff (column : Nat → Nat) (grid : Set (Nat × Nat)) (before after : Nat → R) : Prop :=
  AgreeOff (place column '' grid) before after

-- The cells lie apart, and neither the gains nor what has to hold depends on one of them.
structure Frame (holds : (Nat → R) → Prop) (column : Nat → Nat) (gain : (Nat → R) → Nat × Nat → R)
    (grid : Set (Nat × Nat)) : Prop where
  apart : Set.InjOn (place column) grid
  stable : ∀ before after, SameOff column grid before after → holds before → holds after
  reads : ∀ before after, SameOff column grid before after → ∀ cell, cell ∈ grid → gain before cell = gain after cell

theorem fills_nothing : Fills allowed holds column gain ∅ (.done ()) :=
  ⟨trivial, fun memory _ => overwrites_nothing _ _ memory⟩

theorem Fills.of_eq {program : Program Nat R Unit} (fills : Fills allowed holds column gain cells program)
    (same : cells = others) : Fills allowed holds column gain others program := same ▸ fills

theorem Fills.then {program next : Program Nat R Unit} (early : Fills allowed holds column gain cells program)
    (late : Fills allowed holds column gain others next) (frame : Frame holds column gain grid) (inside : cells ⊆ grid)
    (inside' : others ⊆ grid) (apart : Disjoint cells others) :
    Fills allowed holds column gain (cells ∪ others) (program.bind (fun _ => next)) := by
  refine ⟨early.inside.bind (fun _ _ => late.inside), fun memory held => ?_⟩
  rw [Program.run_bind]
  have head := early.fills memory held
  generalize (program.run memory).2 = between at head ⊢
  have same : SameOff column grid memory between := fun other outside =>
    (head.kept other (fun cell member hit => outside ⟨cell, inside member, hit⟩)).symm
  have tail := late.fills between (frame.stable memory between same held)
  have different : ∀ cell other, cell ∈ cells → other ∈ others → place column other ≠ place column cell :=
    fun cell other member member' hit => Set.disjoint_left.mp apart member
      (frame.apart (inside' member') (inside member) hit ▸ member')
  refine head.then (tail.congr (fun cell member => ?_)) different
  rw [head.kept _ (fun other member' => (different other cell member' member).symm),
    frame.reads memory between same cell (inside' member)]

theorem fills_after_gather {gather : Program Nat R T} {program : T → Program Nat R Unit} (promise : T → (Nat → R) → Prop)
    (within : gather.Within allowed (fun _ => True))
    (gathers : ∀ memory, holds memory → ∃ state, gather.run memory = (state, memory) ∧ promise state memory)
    (fills : ∀ state, Fills allowed (fun memory => holds memory ∧ promise state memory) column gain cells (program state)) :
    Fills allowed holds column gain cells (gather >>= program) := by
  refine ⟨within.bind (fun state _ => (fills state).inside), fun memory held => ?_⟩
  obtain ⟨state, ran, kept⟩ := gathers memory held
  rw [Program.run_do, ran]
  exact (fills state).fills memory ⟨held, kept⟩

def block (firstRow lastRow firstCol lastCol : Nat) : Set (Nat × Nat) :=
  {cell | cell.1 ∈ Set.Ico firstRow lastRow ∧ cell.2 ∈ Set.Ico firstCol lastCol}

theorem fills_of_store {program : Program Nat R Unit} {lanes i col : Nat} (within : program.Within allowed (fun _ => True))
    (stores : ∀ memory, holds memory → ∃ values, (program.run memory).2 =
        ((storeVec lanes (cellsFrom (column col)) i values).run memory).2 ∧
      ∀ lane, lane < lanes → values lane = memory (place column (i + lane, col)) + gain memory (i + lane, col)) :
    Fills allowed holds column gain (block i (i + lanes) col (col + 1)) program := by
  refine ⟨within, fun memory held => ?_⟩
  obtain ⟨values, ran, meaning⟩ := stores memory held
  rw [ran]
  have stored : Overwrites {cell | id cell ∈ Set.Ico i (i + lanes)} (cellsFrom (column col))
      (fun row => memory (place column (row, col)) + gain memory (row, col)) memory
      ((storeVec lanes (cellsFrom (column col)) i values).run memory).2 := stored_values values memory meaning
  constructor
  · rintro ⟨row, other⟩ ⟨rows, columns⟩
    have here : other = col := Nat.le_antisymm (Nat.le_of_lt_succ columns.2) columns.1
    subst here
    exact stored.written row rows
  · intro other outside
    exact stored.kept other (fun row rows => outside (row, col) ⟨rows, ⟨Nat.le_refl col, Nat.lt_succ_self col⟩⟩)

theorem fills_of_column {program : Program Nat R Unit} {lanes col : Nat} (within : program.Within allowed (fun _ => True))
    (stores : ∀ memory, holds memory → ∃ values, (program.run memory).2 =
        ((storeVec lanes (cellsFrom (column col)) 0 values).run memory).2 ∧
      ∀ lane, lane < lanes → values lane = memory (place column (lane, col)) + gain memory (lane, col)) :
    Fills allowed holds column gain (block 0 lanes col (col + 1)) program := by
  have filled : Fills allowed holds column gain (block 0 (0 + lanes) col (col + 1)) program := by
    refine fills_of_store within (fun memory held => ?_)
    obtain ⟨values, ran, meaning⟩ := stores memory held
    refine ⟨values, ran, fun lane small => ?_⟩
    rw [Nat.zero_add]
    exact meaning lane small
  rwa [Nat.zero_add] at filled

theorem block_sub {i j k l rows cols : Nat} (high : j ≤ rows) (right : l ≤ cols) : block i j k l ⊆ block 0 rows 0 cols :=
  fun _ member => ⟨⟨Nat.zero_le _, member.1.2.trans_le high⟩, ⟨Nat.zero_le _, member.2.2.trans_le right⟩⟩

variable {rows cols : Nat}

theorem Fills.down {program next : Program Nat R Unit} {i j k first last : Nat}
    (early : Fills allowed holds column gain (block i j first last) program)
    (late : Fills allowed holds column gain (block j k first last) next) (frame : Frame holds column gain (block 0 rows 0 cols))
    (low : i ≤ j) (high : j ≤ k) (inside : k ≤ rows) (inside' : last ≤ cols) :
    Fills allowed holds column gain (block i k first last) (program.bind (fun _ => next)) := by
  refine (early.then late frame (block_sub (high.trans inside) inside') (block_sub inside inside') ?_).of_eq
    (Set.ext fun cell => ?_)
  · exact Set.disjoint_left.mpr (fun cell member member' => Nat.lt_irrefl j (member'.1.1.trans_lt member.1.2))
  · simp only [block, Set.mem_union, Set.mem_ofPred_eq, Set.mem_Ico]
    omega

theorem Fills.across {program next : Program Nat R Unit} {i j k first last : Nat}
    (early : Fills allowed holds column gain (block first last i j) program)
    (late : Fills allowed holds column gain (block first last j k) next) (frame : Frame holds column gain (block 0 rows 0 cols))
    (low : i ≤ j) (high : j ≤ k) (inside : k ≤ cols) (inside' : last ≤ rows) :
    Fills allowed holds column gain (block first last i k) (program.bind (fun _ => next)) := by
  refine (early.then late frame (block_sub inside' (high.trans inside)) (block_sub inside' inside) ?_).of_eq
    (Set.ext fun cell => ?_)
  · exact Set.disjoint_left.mpr (fun cell member member' => Nat.lt_irrefl j (member'.2.1.trans_lt member.2.2))
  · simp only [block, Set.mem_union, Set.mem_ofPred_eq, Set.mem_Ico]
    omega

theorem no_rows {i first last : Nat} : (∅ : Set (Nat × Nat)) = block i i first last :=
  Set.ext fun _ => ⟨False.elim, fun member => Nat.lt_irrefl i (member.1.1.trans_lt member.1.2)⟩

theorem no_columns {i first last : Nat} : (∅ : Set (Nat × Nat)) = block first last i i :=
  Set.ext fun _ => ⟨False.elim, fun member => Nat.lt_irrefl i (member.2.1.trans_lt member.2.2)⟩

theorem fills_each {j count first last : Nat} {body : Nat → Program Nat R Unit}
    (frame : Frame holds column gain (block 0 rows 0 cols)) (fits : j + count ≤ cols) (inside : last ≤ rows)
    (each : ∀ col, col < count → Fills allowed holds column gain (block first last (j + col) (j + col + 1)) (body col)) :
    Fills allowed holds column gain (block first last j (j + count)) (Program.each count body) :=
  (chain_fold (fun first' last' program => Fills allowed holds column gain (block first last first' last') program)
    (fun col => j + col) count body (fun _ => fills_nothing.of_eq no_columns)
    (fun _ _ _ _ _ early late low high bounded => early.across late frame low high bounded inside)
    (fun col _ => Nat.le_succ (j + col)) fits each).1

theorem fills_vectors {lanes unroll width first last : Nat} {vector : Nat → Nat → Program Nat R Unit}
    {scalar : Nat → Program Nat R Unit} (frame : Frame holds column gain (block 0 rows 0 cols)) (inside : last ≤ cols)
    (whole : width ∣ lanes) (finish : width ∣ rows)
    (each : ∀ i, width ∣ i → i + lanes ≤ rows → Fills allowed holds column gain (block i (i + lanes) first last) (vector lanes i))
    (single : ∀ i, width ∣ i → i + width ≤ rows → Fills allowed holds column gain (block i (i + width) first last) (scalar i)) :
    Fills allowed holds column gain (block 0 rows first last) (vectorLoops lanes unroll [] width rows vector scalar) :=
  chain_vectors (fun first' last' program => Fills allowed holds column gain (block first' last' first last) program) vector scalar
    (fun _ => fills_nothing.of_eq no_rows)
    (fun _ _ _ _ _ early late low high bounded => early.down late frame low high bounded inside) whole finish each single

theorem fills_columns {length n : Nat} (cfg : MatrixVectorConfig) {run : Nat → Nat → Program Nat R Unit}
    {single : Nat → Program Nat R Unit} (frame : Frame holds column gain (block 0 length 0 n))
    (each : ∀ cols j, j + cols ≤ n → Fills allowed holds column gain (block 0 length j (j + cols)) (run cols j))
    (one : ∀ j, j + 1 ≤ n → Fills allowed holds column gain (block 0 length j (j + 1)) (single j)) :
    Fills allowed holds column gain (block 0 length 0 n) (columnLoops cfg n run single) :=
  chain_columns (fun first last program => Fills allowed holds column gain (block 0 length first last) program) cfg run single
    (fun _ => fills_nothing.of_eq no_columns)
    (fun _ _ _ _ _ early late low high bounded => early.across late frame low high bounded (Nat.le_refl length)) each one

end Filling

end Zynum.FixedMatrix
