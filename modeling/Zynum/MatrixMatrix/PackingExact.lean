import Zynum.MatrixMatrix.Packing
import Zynum.MatrixVector.TriangularExact

set_option autoImplicit false

/- What the block packers write and what they read, and any tiling of a matrix
   put together from its packed blocks. -/
namespace Zynum

open ArrayProgram

-- The packers over a source of which not every element may be touched: a read of
-- an element that is not there traps.
section CheckedReads

variable {T : Type} [Scalar T]

def fillChecked (rows cols : Nat) (item : Nat → Nat → Option T) (buffer : Mem T) : Option (Mem T) :=
  trappingLoop cols (fun j buffer => trappingLoop rows (fun i buffer =>
    (item i j).map (fun value => Function.update buffer (i + j * rows) value)) buffer) buffer

def readGeneral (mode : TransposeMode) (read : Nat → Option T) (ld : Int) (row col : Nat) : Option T :=
  if mode = .noTrans then read (matIndex ld row col)
  else (read (matIndex ld col row)).map (fun item => if mode = .conjTrans then conj item else item)

def readSymmetric (triangle : Triangle) (hermitian : Bool) (read : Nat → Option T) (ld : Int) (globalRow globalCol : Nat) :
    Option T :=
  let direct := stored triangle globalRow globalCol
  let item := if direct then read (matIndex ld globalRow globalCol) else read (matIndex ld globalCol globalRow)
  item.map (fun value =>
    let value := if hermitian && !direct then conj value else value
    if hermitian ∧ globalRow = globalCol then realOnly value else value)

def readTriangular [Zero T] [One T] (triangle : Triangle) (mode : TransposeMode) (diagonal : Diagonal)
    (read : Nat → Option T) (ld : Int) (opRow opCol : Nat) : Option T :=
  let sourceRow := if mode = .noTrans then opRow else opCol
  let sourceCol := if mode = .noTrans then opCol else opRow
  let kept := stored triangle sourceRow sourceCol
  let item := if !kept then some 0 else if sourceRow = sourceCol ∧ diagonal = .unit then some 1
    else read (matIndex ld sourceRow sourceCol)
  item.map (fun value => if kept ∧ mode = .conjTrans then conj value else value)

def packGeneralChecked (mode : TransposeMode) (read : Nat → Option T) (ld : Int) (row0 col0 rows cols : Nat) (buffer : Mem T) :
    Option (Mem T) :=
  if rows = 0 ∨ cols = 0 then some buffer
  else fillChecked rows cols (fun i j => readGeneral mode read ld (row0 + i) (col0 + j)) buffer

def packSymmetricChecked (triangle : Triangle) (hermitian : Bool) (read : Nat → Option T) (ld : Int)
    (row0 col0 rows cols : Nat) (buffer : Mem T) : Option (Mem T) :=
  fillChecked rows cols (fun i j => readSymmetric triangle hermitian read ld (row0 + i) (col0 + j)) buffer

def packTriangularChecked [Zero T] [One T] (triangle : Triangle) (mode : TransposeMode) (diagonal : Diagonal)
    (read : Nat → Option T) (ld : Int) (row0 col0 rows cols : Nat) (buffer : Mem T) : Option (Mem T) :=
  fillChecked rows cols (fun i j => readTriangular triangle mode diagonal read ld (row0 + i) (col0 + j)) buffer

-- The source elements a block may touch: its own ones, in the stored triangle, and
-- off a unit diagonal.
def generalSource (mode : TransposeMode) (ld : Int) (row0 col0 rows cols : Nat) : Set Nat :=
  {place | ∃ cell ∈ tileCells row0 rows col0 cols,
    place = if mode = .noTrans then matIndex ld cell.1 cell.2 else matIndex ld cell.2 cell.1}

def symmetricSource (triangle : Triangle) (ld : Int) (row0 col0 rows cols : Nat) : Set Nat :=
  {place | ∃ row col, stored triangle row col = true ∧
    ((row, col) ∈ tileCells row0 rows col0 cols ∨ (col, row) ∈ tileCells row0 rows col0 cols) ∧ place = matIndex ld row col}

def triangularSource (triangle : Triangle) (mode : TransposeMode) (diagonal : Diagonal) (ld : Int)
    (row0 col0 rows cols : Nat) : Set Nat :=
  {place | ∃ row col, stored triangle row col = true ∧ ¬ (row = col ∧ diagonal = .unit) ∧
    (if mode = .noTrans then (row, col) else (col, row)) ∈ tileCells row0 rows col0 cols ∧ place = matIndex ld row col}

omit [Scalar T] in
theorem fill_checked (rows cols : Nat) (item : Nat → Nat → Option T) (value : Nat → Nat → T) (buffer : Mem T)
    (reads : ∀ i j, i < rows → j < cols → item i j = some (value i j)) :
    fillChecked rows cols item buffer =
      some (loop cols (fun j buffer => loop rows (fun i buffer =>
        Function.update buffer (i + j * rows) (value i j)) buffer) buffer) := by
  apply trapping_loop_total
  intro j current inColumns
  apply trapping_loop_total
  intro i current inRows
  rw [reads i j inRows inColumns]
  rfl

theorem block_cell (row0 col0 rows cols i j : Nat) (inRows : i < rows) (inColumns : j < cols) :
    (row0 + i, col0 + j) ∈ tileCells row0 rows col0 cols :=
  ⟨⟨Nat.le_add_right _ _, Nat.add_lt_add_left inRows row0⟩, Nat.le_add_right _ _, Nat.add_lt_add_left inColumns col0⟩

theorem pack_general_reads (mode : TransposeMode) (source : Mem T) (ld : Int) (row0 col0 rows cols : Nat) (buffer : Mem T)
    (read : Nat → Option T)
    (allowed : ∀ place ∈ generalSource mode ld row0 col0 rows cols, read place = some (source place)) :
    packGeneralChecked mode read ld row0 col0 rows cols buffer =
      some (packGeneralOpBlock mode source ld row0 col0 rows cols buffer) := by
  rw [packGeneralChecked, packGeneralOpBlock]
  by_cases empty : rows = 0 ∨ cols = 0
  · rw [if_pos empty, if_pos empty]
  · rw [if_neg empty, if_neg empty]
    by_cases straight : mode = .noTrans
    · rw [if_pos straight]
      apply fill_checked
      intro i j inRows inColumns
      have touched := allowed _ ⟨_, block_cell row0 col0 rows cols i j inRows inColumns, rfl⟩
      rw [if_pos straight] at touched
      rw [readGeneral, if_pos straight, touched]
      congr 2
      simp only [matIndex]
      omega
    · rw [if_neg straight]
      apply fill_checked
      intro i j inRows inColumns
      have touched := allowed _ ⟨_, block_cell row0 col0 rows cols i j inRows inColumns, rfl⟩
      rw [if_neg straight] at touched
      rw [readGeneral, if_neg straight, touched]
      rfl

theorem pack_symmetric_reads (triangle : Triangle) (hermitian : Bool) (source : Mem T) (ld : Int)
    (row0 col0 rows cols : Nat) (buffer : Mem T) (read : Nat → Option T)
    (allowed : ∀ place ∈ symmetricSource triangle ld row0 col0 rows cols, read place = some (source place)) :
    packSymmetricChecked triangle hermitian read ld row0 col0 rows cols buffer =
      some (packSymmetricBlock triangle hermitian source ld row0 col0 rows cols buffer) := by
  apply fill_checked
  intro i j inRows inColumns
  have cell := block_cell row0 col0 rows cols i j inRows inColumns
  simp only [readSymmetric, packedSymmetricValue]
  cases inside : stored triangle (row0 + i) (col0 + j) with
  | true =>
    have touched := allowed (matIndex ld (row0 + i) (col0 + j)) ⟨_, _, inside, Or.inl cell, rfl⟩
    rw [if_pos rfl, if_pos rfl, touched]
    rfl
  | false =>
    have mirrored := stored_flip triangle _ _ inside
    have touched := allowed (matIndex ld (col0 + j) (row0 + i)) ⟨_, _, mirrored, Or.inr cell, rfl⟩
    rw [if_neg Bool.false_ne_true, if_neg Bool.false_ne_true, touched]
    rfl

theorem pack_triangular_reads [Zero T] [One T] (triangle : Triangle) (mode : TransposeMode) (diagonal : Diagonal)
    (source : Mem T) (ld : Int) (row0 col0 rows cols : Nat) (buffer : Mem T) (read : Nat → Option T)
    (allowed : ∀ place ∈ triangularSource triangle mode diagonal ld row0 col0 rows cols, read place = some (source place)) :
    packTriangularChecked triangle mode diagonal read ld row0 col0 rows cols buffer =
      some (packTriangularOpBlock triangle mode diagonal source ld row0 col0 rows cols buffer) := by
  apply fill_checked
  intro i j inRows inColumns
  have cell := block_cell row0 col0 rows cols i j inRows inColumns
  have moved : (if mode = .noTrans then
        ((if mode = .noTrans then row0 + i else col0 + j), (if mode = .noTrans then col0 + j else row0 + i))
      else ((if mode = .noTrans then col0 + j else row0 + i), (if mode = .noTrans then row0 + i else col0 + j))) =
      (row0 + i, col0 + j) := by
    by_cases straight : mode = .noTrans
    · simp only [straight, if_true]
    · simp only [straight, if_false]
  simp only [readTriangular, packedTriangularValue]
  generalize (if mode = .noTrans then row0 + i else col0 + j) = sourceRow at moved
  generalize (if mode = .noTrans then col0 + j else row0 + i) = sourceCol at moved
  cases inside : stored triangle sourceRow sourceCol with
  | false => rfl
  | true =>
    by_cases unit : sourceRow = sourceCol ∧ diagonal = .unit
    · simp only [unit, and_self, Bool.not_true, Bool.false_eq_true, if_true, if_false, Option.map_some]
    · have touched := allowed (matIndex ld sourceRow sourceCol) ⟨_, _, inside, unit, by rw [moved]; exact cell, rfl⟩
      simp only [unit, Bool.not_true, Bool.false_eq_true, if_false, touched, Option.map_some]

end CheckedReads

section Tiling

variable {T : Type}

structure Block where
  row0 : Nat
  col0 : Nat
  rows : Nat
  cols : Nat
  deriving DecidableEq, Repr

def Block.cells (block : Block) : Set (Nat × Nat) := tileCells block.row0 block.rows block.col0 block.cols

structure Tiling (m n : Nat) (blocks : List Block) : Prop where
  inside : ∀ block ∈ blocks, ∀ cell ∈ block.cells, cell ∈ matrixCells m n
  covered : ∀ cell ∈ matrixCells m n, ∃ block ∈ blocks, cell ∈ block.cells

def placeBlock (block : Block) (packed : Mem T) (ldd : Int) (dense : Mem T) : Mem T :=
  loop block.cols (fun j dense => loop block.rows (fun i dense =>
    Function.update dense (matIndex ldd (block.row0 + i) (block.col0 + j)) (packed (i + j * block.rows))) dense) dense

def reassemble (pack : Nat → Nat → Nat → Nat → Mem T → Mem T) (buffer : Block → Mem T) (ldd : Int) (blocks : List Block)
    (dense : Mem T) : Mem T :=
  blocks.foldl (fun dense block =>
    placeBlock block (pack block.row0 block.col0 block.rows block.cols (buffer block)) ldd dense) dense

theorem place_block_updates (block : Block) (packed : Mem T) (ldd : Int) (m n : Nat) (fits : m ≤ toUsize ldd)
    (inside : ∀ cell ∈ block.cells, cell ∈ matrixCells m n) (entry : Nat → Nat → T)
    (holds : ∀ i j, i < block.rows → j < block.cols → packed (i + j * block.rows) = entry (block.row0 + i) (block.col0 + j)) :
    Updates block.cells (cellAddress ldd) (fun cell _ => entry cell.1 cell.2) (placeBlock block packed ldd) := by
  have shifted : ∀ cell : Nat × Nat, cellAddress ldd (block.row0 + cell.1, block.col0 + cell.2) =
      matIndex ldd (block.row0 + cell.1) (block.col0 + cell.2) := fun _ => rfl
  have injective : Set.InjOn (fun cell : Nat × Nat => cellAddress ldd (block.row0 + cell.1, block.col0 + cell.2))
      (matrixCells block.rows block.cols) := by
    intro cell member cell' member' same
    have placed := inside _ (block_cell block.row0 block.col0 block.rows block.cols cell.1 cell.2 member.1 member.2)
    have placed' := inside _ (block_cell block.row0 block.col0 block.rows block.cols cell'.1 cell'.2 member'.1 member'.2)
    have equal := matrix_cells_injective m n ldd fits placed placed' same
    simp only [Prod.mk.injEq] at equal
    exact Prod.ext (by omega) (by omega)
  have filled := updates_grid block.rows block.cols
    (fun cell : Nat × Nat => cellAddress ldd (block.row0 + cell.1, block.col0 + cell.2))
    (fun cell _ => packed (cell.1 + cell.2 * block.rows)) injective
  have named := filled.congr rfl (fun cell old member => holds cell.1 cell.2 member.1 member.2)
  refine (Updates.reindex (fun cell : Nat × Nat => (block.row0 + cell.1, block.col0 + cell.2)) named).congr ?_ (fun _ _ _ => rfl)
  apply Set.Subset.antisymm
  · rintro cell ⟨offset, member, rfl⟩
    exact block_cell block.row0 block.col0 block.rows block.cols offset.1 offset.2 member.1 member.2
  · rintro ⟨row, col⟩ ⟨⟨lower, upper⟩, left, right⟩
    simp only at lower upper left right
    refine ⟨(row - block.row0, col - block.col0), ⟨by simp only; omega, by simp only; omega⟩, ?_⟩
    simp only [Prod.mk.injEq]
    omega

theorem reassemble_matrix (m n : Nat) (pack : Nat → Nat → Nat → Nat → Mem T → Mem T) (entry : Nat → Nat → T)
    (packs : ∀ row0 col0 rows cols buffer i j, i < rows → j < cols →
      pack row0 col0 rows cols buffer (i + j * rows) = entry (row0 + i) (col0 + j))
    (buffer : Block → Mem T) (ldd : Int) (fits : m ≤ toUsize ldd) (blocks : List Block) (tiling : Tiling m n blocks)
    (dense : Mem T) :
    (∀ i j, i < m → j < n → reassemble pack buffer ldd blocks dense (matIndex ldd i j) = entry i j) ∧
    ∀ place, (∀ i j, i < m → j < n → matIndex ldd i j ≠ place) →
      reassemble pack buffer ldd blocks dense place = dense place := by
  have each : ∀ block, block ∈ blocks → Updates block.cells (cellAddress ldd) (fun cell _ => entry cell.1 cell.2)
      (placeBlock block (pack block.row0 block.col0 block.rows block.cols (buffer block)) ldd) := by
    intro block member
    exact place_block_updates block _ ldd m n fits (tiling.inside block member) entry
      (fun i j inRows inColumns => packs _ _ _ _ _ i j inRows inColumns)
  have injective : Set.InjOn (cellAddress ldd) {cell | ∃ block, block ∈ blocks ∧ cell ∈ block.cells} := by
    intro cell first cell' second same
    obtain ⟨block, member, inside⟩ := first
    obtain ⟨block', member', inside'⟩ := second
    exact matrix_cells_injective m n ldd fits (tiling.inside block member cell inside)
      (tiling.inside block' member' cell' inside') same
  have settled := Updates.settle (fun cell : Nat × Nat => entry cell.1 cell.2) blocks Block.cells _ each injective dense
  refine ⟨fun i j inRows inColumns => ?_, fun place apart => ?_⟩
  · exact settled.1 (i, j) (tiling.covered (i, j) ⟨inRows, inColumns⟩)
  · exact settled.2 place (fun block member cell inside => by
      have placed := tiling.inside block member cell inside
      exact apart cell.1 cell.2 placed.1 placed.2)

end Tiling

section Exact

variable {T : Type} [Scalar T]

-- One packed block: the destination, the elements read, and what the rest of the
-- source cannot change.
structure PacksBlock (rows cols : Nat) (entry : Nat → Nat → T) (touched : Set Nat) (source : Mem T)
    (pack : Mem T → Mem T → Mem T) (checked : (Nat → Option T) → Mem T → Option (Mem T)) : Prop where
  slots : Set.BijOn (fun cell : Nat × Nat => cell.1 + cell.2 * rows) (matrixCells rows cols) (Set.Iio (rows * cols))
  entries : ∀ buffer i j, i < rows → j < cols → pack source buffer (i + j * rows) = entry i j
  kept : ∀ buffer place, rows * cols ≤ place → pack source buffer place = buffer place
  reads : ∀ read, (∀ place ∈ touched, read place = some (source place)) →
    ∀ buffer, checked read buffer = some (pack source buffer)
  settled : ∀ source', (∀ place ∈ touched, source' place = source place) → ∀ buffer, pack source' buffer = pack source buffer

theorem block_slots (rows cols : Nat) :
    Set.BijOn (fun cell : Nat × Nat => cell.1 + cell.2 * rows) (matrixCells rows cols) (Set.Iio (rows * cols)) := by
  refine ⟨?_, ?_, ?_⟩
  · intro cell inside
    have next : (cell.2 + 1) * rows ≤ cols * rows := Nat.mul_le_mul_right rows inside.2
    have row : cell.1 < rows := inside.1
    rw [Nat.succ_mul] at next
    rw [Set.mem_Iio, Nat.mul_comm rows cols]
    simp only
    omega
  · have injective := matrix_cells_injective rows cols rows (by rw [toUsize, Int.toNat_natCast])
    intro cell inside cell' inside' same
    apply injective inside inside'
    simp only [cellAddress, mat_index_natural]
    exact same
  · intro place small
    have some : 0 < rows := Nat.pos_of_mul_pos_right (Nat.zero_lt_of_lt small)
    refine ⟨(place % rows, place / rows), ⟨Nat.mod_lt place some, Nat.div_lt_of_lt_mul small⟩, ?_⟩
    have split := Nat.mod_add_div place rows
    simp only
    rw [Nat.mul_comm (place / rows)]
    exact split

omit [Scalar T] in
theorem packs_block (rows cols : Nat) (entry : Nat → Nat → T) (touched : Set Nat) (source : Mem T)
    (pack : Mem T → Mem T → Mem T) (checked : (Nat → Option T) → Mem T → Option (Mem T))
    (writes : Updates (matrixCells rows cols) (cellAddress rows) (fun cell _ => entry cell.1 cell.2) (pack source))
    (reads : ∀ source' read, (∀ place ∈ touched, read place = some (source' place)) →
      ∀ buffer, checked read buffer = some (pack source' buffer)) :
    PacksBlock rows cols entry touched source pack checked := by
  refine ⟨block_slots rows cols, ?_, ?_, reads source, ?_⟩
  · intro buffer i j inRows inColumns
    rw [← mat_index_natural]
    exact writes.written buffer (i, j) ⟨inRows, inColumns⟩
  · intro buffer place past
    apply writes.kept
    intro cell inside same
    have slot := (block_slots rows cols).mapsTo inside
    simp only [cellAddress, mat_index_natural] at same
    rw [Set.mem_Iio] at slot
    omega
  · intro source' agree buffer
    have one := reads source' (fun place => some (source' place)) (fun _ _ => rfl) buffer
    have other := reads source (fun place => some (source' place)) (fun place member => congrArg some (agree place member)) buffer
    exact Option.some.inj (one.symm.trans other)

theorem pack_general_op_block_updates (mode : TransposeMode) (source : Mem T) (ld : Int) (row0 col0 rows cols : Nat) :
    Updates (matrixCells rows cols) (cellAddress rows)
      (fun cell _ => opEntry mode (denseEntry source ld) (row0 + cell.1) (col0 + cell.2))
      (packGeneralOpBlock mode source ld row0 col0 rows cols) := by
  by_cases empty : rows = 0 ∨ cols = 0
  · have nothing : matrixCells rows cols = ∅ := by
      rw [Set.eq_empty_iff_forall_notMem]
      intro cell inside
      have row : cell.1 < rows := inside.1
      have col : cell.2 < cols := inside.2
      omega
    have idle : packGeneralOpBlock mode source ld row0 col0 rows cols = fun buffer => buffer := by
      funext buffer
      rw [packGeneralOpBlock, if_pos empty]
    rw [nothing, idle]
    exact updates_nothing _ _
  · refine ⟨fun buffer cell inside => ?_, fun buffer place apart => ?_⟩
    · exact pack_general_op_block_entry mode source ld row0 col0 rows cols buffer cell.1 cell.2 inside.1 inside.2
    · rw [packGeneralOpBlock, if_neg empty]
      split
      · exact (block_fill_updates rows cols (fun i j => source (matIndex ld row0 (col0 + j) + i))).kept buffer place apart
      · exact (block_fill_updates rows cols (fun i j => if mode = .conjTrans then conj (source (matIndex ld (col0 + j) (row0 + i)))
          else source (matIndex ld (col0 + j) (row0 + i)))).kept buffer place apart

variable [CommRing T] [LawfulScalar T]

theorem pack_triangular_op_block_updates (triangle : Triangle) (mode : TransposeMode) (diagonal : Diagonal) (source : Mem T)
    (ld : Int) (row0 col0 rows cols : Nat) :
    Updates (matrixCells rows cols) (cellAddress rows)
      (fun cell _ => triValue triangle diagonal mode source ld (row0 + cell.1) (col0 + cell.2))
      (packTriangularOpBlock triangle mode diagonal source ld row0 col0 rows cols) :=
  (block_fill_updates rows cols (fun i j =>
    packedTriangularValue triangle mode diagonal source ld (row0 + i) (col0 + j))).congr rfl
      (fun _ _ _ => packed_triangular_value _ _ _ _ _ _ _)

theorem structured_packers_exact (uplo : Triangle) (mode : TransposeMode) (diag : Diagonal) (hermitian : Bool)
    (source : Mem T) (ld : Int) :
    (∀ row0 col0 rows cols,
      PacksBlock rows cols (fun i j => opEntry mode (denseEntry source ld) (row0 + i) (col0 + j))
        (generalSource mode ld row0 col0 rows cols) source
        (fun source => packGeneralOpBlock mode source ld row0 col0 rows cols)
        (fun read => packGeneralChecked mode read ld row0 col0 rows cols) ∧
      PacksBlock rows cols (fun i j => completion hermitian uplo (denseEntry source ld) (row0 + i) (col0 + j))
        (symmetricSource uplo ld row0 col0 rows cols) source
        (fun source => packSymmetricBlock uplo hermitian source ld row0 col0 rows cols)
        (fun read => packSymmetricChecked uplo hermitian read ld row0 col0 rows cols) ∧
      PacksBlock rows cols (fun i j => triangle uplo diag mode (denseEntry source ld) (row0 + i) (col0 + j))
        (triangularSource uplo mode diag ld row0 col0 rows cols) source
        (fun source => packTriangularOpBlock uplo mode diag source ld row0 col0 rows cols)
        (fun read => packTriangularChecked uplo mode diag read ld row0 col0 rows cols)) ∧
    (∀ (m n : Nat) (blocks : List Block) (ldd : Int) (buffer : Block → Mem T) (dense : Mem T) (i j : Nat),
      Tiling m n blocks → m ≤ toUsize ldd → i < m → j < n →
        reassemble (packGeneralOpBlock mode source ld) buffer ldd blocks dense (matIndex ldd i j) =
          opEntry mode (denseEntry source ld) i j ∧
        reassemble (packSymmetricBlock uplo hermitian source ld) buffer ldd blocks dense (matIndex ldd i j) =
          completion hermitian uplo (denseEntry source ld) i j ∧
        reassemble (packTriangularOpBlock uplo mode diag source ld) buffer ldd blocks dense (matIndex ldd i j) =
          triangle uplo diag mode (denseEntry source ld) i j) := by
  have general : ∀ row0 col0 rows cols, PacksBlock rows cols
      (fun i j => opEntry mode (denseEntry source ld) (row0 + i) (col0 + j)) (generalSource mode ld row0 col0 rows cols) source
      (fun source => packGeneralOpBlock mode source ld row0 col0 rows cols)
      (fun read => packGeneralChecked mode read ld row0 col0 rows cols) := by
    intro row0 col0 rows cols
    apply packs_block
    · exact pack_general_op_block_updates mode source ld row0 col0 rows cols
    · intro source' read allowed buffer
      exact pack_general_reads mode source' ld row0 col0 rows cols buffer read allowed
  have symmetric : ∀ row0 col0 rows cols, PacksBlock rows cols
      (fun i j => completion hermitian uplo (denseEntry source ld) (row0 + i) (col0 + j))
      (symmetricSource uplo ld row0 col0 rows cols) source
      (fun source => packSymmetricBlock uplo hermitian source ld row0 col0 rows cols)
      (fun read => packSymmetricChecked uplo hermitian read ld row0 col0 rows cols) := by
    intro row0 col0 rows cols
    apply packs_block
    · simp only [← sym_value_completion]
      exact pack_symmetric_block_updates uplo hermitian source ld row0 col0 rows cols
    · intro source' read allowed buffer
      exact pack_symmetric_reads uplo hermitian source' ld row0 col0 rows cols buffer read allowed
  have triangular : ∀ row0 col0 rows cols, PacksBlock rows cols
      (fun i j => triangle uplo diag mode (denseEntry source ld) (row0 + i) (col0 + j))
      (triangularSource uplo mode diag ld row0 col0 rows cols) source
      (fun source => packTriangularOpBlock uplo mode diag source ld row0 col0 rows cols)
      (fun read => packTriangularChecked uplo mode diag read ld row0 col0 rows cols) := by
    intro row0 col0 rows cols
    apply packs_block
    · rw [← tri_value_triangle]
      exact pack_triangular_op_block_updates uplo mode diag source ld row0 col0 rows cols
    · intro source' read allowed buffer
      exact pack_triangular_reads uplo mode diag source' ld row0 col0 rows cols buffer read allowed
  refine ⟨fun row0 col0 rows cols => ⟨general row0 col0 rows cols, symmetric row0 col0 rows cols,
    triangular row0 col0 rows cols⟩, ?_⟩
  intro m n blocks ldd buffer dense i j tiling fits inRows inColumns
  refine ⟨?_, ?_, ?_⟩
  · exact (reassemble_matrix m n _ _ (fun row0 col0 rows cols => (general row0 col0 rows cols).entries) buffer ldd fits blocks
      tiling dense).1 i j inRows inColumns
  · exact (reassemble_matrix m n _ _ (fun row0 col0 rows cols => (symmetric row0 col0 rows cols).entries) buffer ldd fits
      blocks tiling dense).1 i j inRows inColumns
  · exact (reassemble_matrix m n _ _ (fun row0 col0 rows cols => (triangular row0 col0 rows cols).entries) buffer ldd fits
      blocks tiling dense).1 i j inRows inColumns

end Exact

-- A block across the diagonal: the mirrored entry is conjugated, the diagonal one is not read.
theorem structured_packers_exact_straddling :
    let _ := complexKind Int .double
    let packed := packTriangularOpBlock .lower .conjTrans .unit (fun p => (⟨p, p + 1⟩ : Cplx Int)) 3 0 1 2 2 (fun _ => 0)
    packed 0 = ⟨1, -2⟩ ∧ packed 1 = 1 := by
  let _ := complexKind Int .double
  have lawful : LawfulScalar (Cplx Int) := complex_kind_lawful Int .double
  have packs := ((structured_packers_exact .lower .conjTrans .unit true (fun p => (⟨p, p + 1⟩ : Cplx Int)) 3).1 0 1 2 2).2.2
  exact ⟨(packs.entries (fun _ => 0) 0 0 (by decide) (by decide)).trans rfl,
    (packs.entries (fun _ => 0) 1 0 (by decide) (by decide)).trans rfl⟩

end Zynum
