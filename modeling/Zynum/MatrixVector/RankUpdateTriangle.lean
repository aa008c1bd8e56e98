import Zynum.MatrixVector.RankUpdateColumns

set_option autoImplicit false

/- A range of columns of a rank update: tiles first, single columns after them. -/
namespace Zynum

open ArrayProgram

variable {T : Type} [CommRing T] [Scalar T] [LawfulScalar T]

variable {store : RankStorage} {uplo : Triangle} {n : Nat} {operation : DenseRankOperation} (rt : Runtime) (site : Site)
  (alpha : T) (x y : Mem T)

section Single

omit [LawfulScalar T] in
theorem plain_target (symmetric : operation.hermitian = false) (cell : Nat × Nat) (old : T) :
    operation.target alpha x y cell old = old + operation.added alpha x y cell.1 cell.2 := by
  rw [DenseRankOperation.target, symmetric]
  rfl

omit [LawfulScalar T] in
theorem cleared_target (hermitian : operation.hermitian = true) (cell : Nat × Nat) (old : T) :
    operation.target alpha x y cell old = clearedIf (cell.1 = cell.2) (old + operation.added alpha x y cell.1 cell.2) := by
  rw [DenseRankOperation.target, hermitian, Bool.true_and]

omit [LawfulScalar T] in
-- A column that is added to and, in a Hermitian update, has its diagonal element cleared.
theorem hermitian_column {run : Mem T → Mem T} (fits : store.Fits n) (j : Nat) (inside : j < n)
    (hermitian : operation.hermitian = true)
    (added : Updates (spanOf (storedCells uplo n) Prod.snd j (j + 1)) (store.place uplo n)
      (fun cell old => old + operation.added alpha x y cell.1 cell.2) run) :
    Updates (spanOf (storedCells uplo n) Prod.snd j (j + 1)) (store.place uplo n) (operation.target alpha x y) (fun a =>
      let a := run a
      Function.update a (store.index uplo n j j) (realOnly (a (store.index uplo n j j)))) :=
  (added.then_same (diagonal_updates fits j inside)).congr rfl
    (fun cell old _ => (cleared_target alpha x y hermitian cell old).symm)

theorem one_vector_added (j : Nat) (inside : j < n) (temp : T) {run : Mem T → Mem T}
    (updates : Updates (Set.Iio (storedEnd uplo n j - storedFirst uplo j))
      (fun i => store.index uplo n (storedFirst uplo j) j + i) (fun i old => old + temp * x (storedFirst uplo j + i)) run) :
    Updates (spanOf (storedCells uplo n) Prod.snd j (j + 1)) (store.place uplo n) (fun cell old => old + temp * x cell.1)
      (fun a => if isZero temp then a else run a) := by
  refine whole_column_updates j inside (updates_guard _ (fun nothing => ?_) (fun _ => updates)) (fun i old => rfl)
  refine (updates_same _ _).congr rfl (fun i old _ => ?_)
  rw [(LawfulScalar.isZero_iff temp).mp nothing, zero_mul, add_zero]

end Single

section Tile

-- The rows of a column that the panel of a tile covers.
def inPanel (uplo : Triangle) (columns j : Nat) (cell : Nat × Nat) : Prop :=
  match uplo with
  | .upper => cell.1 ≤ j
  | .lower => j + columns - 1 ≤ cell.1

instance (uplo : Triangle) (columns j : Nat) (cell : Nat × Nat) : Decidable (inPanel uplo columns j cell) := by
  cases uplo
  · exact inferInstanceAs (Decidable (_ ≤ _))
  · exact inferInstanceAs (Decidable (_ ≤ _))

def tileAdded (alpha : T) (x y : Nat → T) (cell : Nat × Nat) (old : T) : T :=
  old + alpha * conj (y cell.2) * x cell.1 + conj alpha * conj (x cell.2) * y cell.1

theorem tile_added (two : operation.rankTwo = true) (kind : operation.hermitian = Scalar.isComplex T) (cell : Nat × Nat)
    (old : T) : tileAdded alpha x y cell old = old + operation.added alpha x y cell.1 cell.2 := by
  have ring : ∀ a b c d e f : T, old + a * b * c + d * e * f = old + (c * (a * b) + f * (d * e)) := fun a b c d e f => by ring
  rw [tileAdded, ring]
  cases operation with
  | syr => cases two
  | her => cases two
  | syr2 =>
    have plain : Scalar.isComplex T = false := kind.symm
    simp only [DenseRankOperation.added, LawfulScalar.conj_real plain]
  | her2 => rfl

variable {columns j : Nat}

def panelFirst (uplo : Triangle) (columns j : Nat) : Nat := if uplo = .upper then 0 else j + columns - 1

def panelCount (uplo : Triangle) (columns n j : Nat) : Nat := if uplo = .upper then j + 1 else n - panelFirst uplo columns j

variable (uplo) in
theorem panel_stored (inside : j + columns ≤ n) (row col : Nat) (inRows : row < panelCount uplo columns n j)
    (inColumns : col < columns) :
    (panelFirst uplo columns j + row, j + col) ∈ storedCells uplo n ∧
      inPanel uplo columns j (panelFirst uplo columns j + row, j + col) := by
  cases uplo with
  | upper =>
    have low : row < j + 1 := inRows
    simp only [panelFirst, if_true, Nat.zero_add, storedCells, Set.mem_ofPred_eq, stored, decide_eq_true_eq, inPanel]
    omega
  | lower =>
    have low : row < n - (j + columns - 1) := inRows
    simp only [panelFirst, reduceCtorEq, if_false, storedCells, Set.mem_ofPred_eq, stored, decide_eq_true_eq, inPanel]
    omega

theorem panel_image (inside : j + columns ≤ n) :
    (fun cell : Nat × Nat => (panelFirst uplo columns j + cell.1, j + cell.2)) '' panelCells (panelCount uplo columns n j) columns =
      {cell | cell ∈ spanOf (storedCells uplo n) Prod.snd j (j + columns) ∧ inPanel uplo columns j cell} := by
  ext cell
  constructor
  · rintro ⟨small, member, rfl⟩
    have kept := panel_stored uplo inside small.1 small.2 member.1 member.2
    exact ⟨⟨kept.1, Nat.le_add_right j _, Nat.add_lt_add_left member.2 j⟩, kept.2⟩
  · rintro ⟨⟨kept, lower, upper⟩, covered⟩
    have first : panelFirst uplo columns j ≤ cell.1 ∧ cell.1 < panelFirst uplo columns j + panelCount uplo columns n j := by
      obtain ⟨inRows, _, _⟩ := kept
      cases uplo with
      | upper =>
        have low : cell.1 ≤ j := covered
        exact ⟨Nat.zero_le _, by simp only [panelFirst, panelCount, if_true]; omega⟩
      | lower =>
        have high : j + columns - 1 ≤ cell.1 := covered
        exact ⟨high, by simp only [panelFirst, panelCount, reduceCtorEq, if_false]; omega⟩
    exact ⟨(cell.1 - panelFirst uplo columns j, cell.2 - j), ⟨(by omega : _ < _), (by omega : _ < _)⟩,
      Prod.ext (Nat.add_sub_cancel' first.1) (Nat.add_sub_cancel' lower)⟩

omit [LawfulScalar T] in
theorem panel_updates (fits : store.Fits n) (inside : j + columns ≤ n) :
    Updates (spanOf (storedCells uplo n) Prod.snd j (j + columns)) (store.place uplo n)
      (fun cell old => if inPanel uplo columns j cell then tileAdded alpha x y cell old else old)
      (rankTwoPanel columns store.isPacked (panelCount uplo columns n j) (fun col => alpha * conj (y (j + col))) x
        (panelFirst uplo columns j) (fun col => conj alpha * conj (x (j + col))) y (panelFirst uplo columns j)
        (fun col => store.index uplo n (panelFirst uplo columns j) (j + col))) := by
  have address : ∀ cell : Nat × Nat, cell ∈ panelCells (panelCount uplo columns n j) columns →
      store.place uplo n (panelFirst uplo columns j + cell.1, j + cell.2) =
        store.index uplo n (panelFirst uplo columns j) (j + cell.2) + cell.1 := by
    intro cell member
    have some : 0 < panelCount uplo columns n j := Nat.zero_lt_of_lt member.1
    exact index_step uplo (j + cell.2) (panelFirst uplo columns j) cell.1 (panel_stored uplo inside 0 cell.2 some member.2).1.2.2
      (panel_stored uplo inside cell.1 cell.2 member.1 member.2).1.2.2
  have injective : Set.InjOn (fun cell : Nat × Nat => store.index uplo n (panelFirst uplo columns j) (j + cell.2) + cell.1)
      (panelCells (panelCount uplo columns n j) columns) := by
    intro cell member cell' member' same
    have equal := place_injective uplo fits (panel_stored uplo inside cell.1 cell.2 member.1 member.2).1
      (panel_stored uplo inside cell'.1 cell'.2 member'.1 member'.2).1
      ((address cell member).trans (same.trans (address cell' member').symm))
    exact Prod.ext (Nat.add_left_cancel (congrArg Prod.fst equal)) (Nat.add_left_cancel (congrArg Prod.snd equal))
  have panel : Updates (panelCells (panelCount uplo columns n j) columns)
      (fun cell => store.place uplo n (panelFirst uplo columns j + cell.1, j + cell.2))
      (fun cell => tileAdded alpha x y (panelFirst uplo columns j + cell.1, j + cell.2))
      (rankTwoPanel columns store.isPacked (panelCount uplo columns n j) (fun col => alpha * conj (y (j + col))) x
        (panelFirst uplo columns j) (fun col => conj alpha * conj (x (j + col))) y (panelFirst uplo columns j)
        (fun col => store.index uplo n (panelFirst uplo columns j) (j + col))) :=
    Updates.congr_address (rank_two_panel_updates store.isPacked (fun col => alpha * conj (y (j + col))) x
      (panelFirst uplo columns j) (fun col => conj alpha * conj (x (j + col))) y (panelFirst uplo columns j) injective) address
  have moved := Updates.reindex (fun cell : Nat × Nat => (panelFirst uplo columns j + cell.1, j + cell.2)) panel
  rw [panel_image inside] at moved
  refine (moved.congr rfl (fun cell old member => (if_pos member.2).symm)).extend (fun _ member => member.1)
    ((place_injective uplo fits).mono (span_inside _ _)) (fun cell old member off => if_neg (fun covered => off ⟨member, covered⟩))

def fringeFirst (uplo : Triangle) (j col : Nat) : Nat := if uplo = .upper then j + 1 else j + col

def fringeCount (uplo : Triangle) (columns col : Nat) : Nat := if uplo = .upper then col else columns - 1 - col

variable (uplo) in
-- The rows of a column that the panel leaves.
theorem fringe_rows (inside : j + columns ≤ n) (col : Nat) (small : col < columns) (cell : Nat × Nat) :
    cell ∈ columnCells (j + col) (fringeFirst uplo j col) (fringeFirst uplo j col + fringeCount uplo columns col) ↔
      cell ∈ spanOf (storedCells uplo n) Prod.snd (j + col) (j + col + 1) ∧ ¬ inPanel uplo columns j cell := by
  cases uplo with
  | upper =>
    simp only [columnCells, fringeFirst, fringeCount, if_true, spanOf, storedCells, Set.mem_ofPred_eq, stored, decide_eq_true_eq,
      inPanel]
    omega
  | lower =>
    simp only [columnCells, fringeFirst, fringeCount, reduceCtorEq, if_false, spanOf, storedCells, Set.mem_ofPred_eq, stored,
      decide_eq_true_eq, inPanel]
    omega

theorem fringe_updates (fits : store.Fits n) (inside : j + columns ≤ n) (col : Nat) (small : col < columns) :
    Updates (spanOf (storedCells uplo n) Prod.snd (j + col) (j + col + 1)) (store.place uplo n)
      (fun cell old => if inPanel uplo columns j cell then old else tileAdded alpha x y cell old) (fun a =>
        if fringeCount uplo columns col > 0 then
          rankTwoColumn rt site (fringeCount uplo columns col) (alpha * conj (y (j + col))) x (fringeFirst uplo j col)
            (conj alpha * conj (x (j + col))) y (fringeFirst uplo j col) a (store.index uplo n (fringeFirst uplo j col) (j + col))
        else a) := by
  have injective : Set.InjOn (store.place uplo n) (spanOf (storedCells uplo n) Prod.snd (j + col) (j + col + 1)) :=
    (place_injective uplo fits).mono (span_inside _ _)
  have rows := fringe_rows uplo inside col small
  have covered : ∀ cell, cell ∈ spanOf (storedCells uplo n) Prod.snd (j + col) (j + col + 1) →
      cell ∉ columnCells (j + col) (fringeFirst uplo j col) (fringeFirst uplo j col + fringeCount uplo columns col) →
      inPanel uplo columns j cell := by
    intro cell member off
    by_contra left
    exact off ((rows cell).mpr ⟨member, left⟩)
  have pass : Updates (columnCells (j + col) (fringeFirst uplo j col) (fringeFirst uplo j col + fringeCount uplo columns col))
      (store.place uplo n) (fun cell old => if inPanel uplo columns j cell then old else tileAdded alpha x y cell old) (fun a =>
        rankTwoColumn rt site (fringeCount uplo columns col) (alpha * conj (y (j + col))) x (fringeFirst uplo j col)
          (conj alpha * conj (x (j + col))) y (fringeFirst uplo j col) a
          (store.index uplo n (fringeFirst uplo j col) (j + col))) := by
    have reached : ∀ i, i < fringeCount uplo columns col → (fringeFirst uplo j col + i, j + col) ∈
        columnCells (j + col) (fringeFirst uplo j col) (fringeFirst uplo j col + fringeCount uplo columns col) := fun i below =>
      ⟨rfl, Nat.le_add_right _ i, Nat.add_lt_add_left below _⟩
    refine segment_updates (fun i below => ((rows _).mp (reached i below)).1.1.2.2)
      (rank_two_column_updates rt site (fringeCount uplo columns col) _ x _ _ y _ _) (fun i old below => ?_)
    exact (if_neg ((rows _).mp (reached i below)).2).symm
  refine updates_guard _ (fun _ => ?_) (fun none => ?_)
  · exact pass.extend (fun cell member => ((rows cell).mp member).1) injective
      (fun cell old member off => if_pos (covered cell member off))
  · refine (updates_same _ _).congr rfl (fun cell old member => (if_pos (covered cell member (fun there => ?_))).symm)
    exact none (Nat.pos_of_ne_zero (fun zero => by
      have lower := there.2.1
      have upper := there.2.2
      rw [zero, Nat.add_zero] at upper
      exact absurd (lower.trans_lt upper) (Nat.lt_irrefl _)))

theorem column_fringe_updates (fits : store.Fits n) (inside : j + columns ≤ n) (kind : operation.hermitian = Scalar.isComplex T)
    (col : Nat) (small : col < columns) :
    Updates (spanOf (storedCells uplo n) Prod.snd (j + col) (j + col + 1)) (store.place uplo n)
      (fun cell old => clearedIf (operation.hermitian && cell.1 = cell.2)
        (if inPanel uplo columns j cell then old else tileAdded alpha x y cell old))
      (rankTwoFringe rt site store columns uplo n j (fun col => alpha * conj (y (j + col))) x
        (fun col => conj alpha * conj (x (j + col))) y col) := by
  have cleared : Updates (spanOf (storedCells uplo n) Prod.snd (j + col) (j + col + 1)) (store.place uplo n)
      (fun cell (old : T) => clearedIf (operation.hermitian && cell.1 = cell.2) old) (fun a => if isReal T then a
        else Function.update a (store.index uplo n (j + col) (j + col)) (realOnly (a (store.index uplo n (j + col) (j + col))))) := by
    refine updates_guard _ (fun real => ?_) (fun complex => ?_)
    · have plain : operation.hermitian = false := by simpa [isReal, kind] using real
      refine (updates_same _ _).congr rfl (fun cell old _ => ?_)
      rw [plain]
      rfl
    · have hermitian : operation.hermitian = true := by simpa [isReal, kind] using complex
      refine (diagonal_updates fits (j + col) (by omega)).congr rfl (fun cell old _ => ?_)
      rw [hermitian, Bool.true_and]
  exact (fringe_updates rt ((j + col) :: site) alpha x y fits inside col small).then_same cleared

-- One tile: the panel, then the rest of each column.
theorem column_tile_updates (fits : store.Fits n) (inside : j + columns ≤ n) (two : operation.rankTwo = true)
    (kind : operation.hermitian = Scalar.isComplex T) :
    Updates (spanOf (storedCells uplo n) Prod.snd j (j + columns)) (store.place uplo n) (operation.target alpha x y) (fun a =>
      loop columns (rankTwoFringe rt site store columns uplo n j (fun col => alpha * conj (y (j + col))) x
          (fun col => conj alpha * conj (x (j + col))) y)
        (rankTwoPanel columns store.isPacked (panelCount uplo columns n j) (fun col => alpha * conj (y (j + col))) x
          (panelFirst uplo columns j) (fun col => conj alpha * conj (x (j + col))) y (panelFirst uplo columns j)
          (fun col => store.index uplo n (panelFirst uplo columns j) (j + col)) a)) := by
  have turns : ∀ col, col < columns → Updates (spanOf (storedCells uplo n) Prod.snd (j + col * 1) (j + col * 1 + 1))
      (store.place uplo n) (fun cell old => clearedIf (operation.hermitian && cell.1 = cell.2)
        (if inPanel uplo columns j cell then old else tileAdded alpha x y cell old))
      (rankTwoFringe rt site store columns uplo n j (fun col => alpha * conj (y (j + col))) x
        (fun col => conj alpha * conj (x (j + col))) y col) := by
    intro col small
    rw [Nat.mul_one]
    exact column_fringe_updates rt site alpha x y fits inside kind col small
  have finish := Updates.span_blocks j columns 1 turns (place_injective uplo fits)
  rw [Nat.mul_one] at finish
  refine ((panel_updates alpha x y fits inside).then_same finish).congr rfl (fun cell old _ => ?_)
  rw [DenseRankOperation.target, ← tile_added alpha x y two kind]
  by_cases covered : inPanel uplo columns j cell
  · rw [if_pos covered, if_pos covered]
  · rw [if_neg covered, if_neg covered]

variable (uplo) in
theorem tiled_columns_updates (fits : store.Fits n) (columns : Nat) (j0 j1 : Nat) (bound : j1 ≤ n)
    (two : operation.rankTwo = true) (kind : operation.hermitian = Scalar.isComplex T) :
    Updates (spanOf (storedCells uplo n) Prod.snd j0 (fitEnd j0 j1 columns)) (store.place uplo n) (operation.target alpha x y)
      (fun a => (tiledRankTwoColumnsImpl rt site store columns uplo n j0 j1 alpha x y a).2) :=
  Updates.span_fit j0 j1 columns (fun _ _ inside => column_tile_updates rt site alpha x y fits (inside.trans bound) two kind)
    (place_injective uplo fits)

end Tile

section Range

-- The tiles tell a Hermitian update by its element type.
def DenseRankOperation.Kind (operation : DenseRankOperation) (T : Type) [Scalar T] : Prop :=
  operation.rankTwo = true → operation.hermitian = Scalar.isComplex T

theorem one_column_updates (fits : store.Fits n) (j : Nat) (inside : j < n) :
    Updates (spanOf (storedCells uplo n) Prod.snd j (j + 1)) (store.place uplo n) (operation.target alpha x y)
      (rankColumn rt site store operation uplo n alpha x y j) := by
  have vectors : ∀ cx cy, Updates (spanOf (storedCells uplo n) Prod.snd j (j + 1)) (store.place uplo n)
      (fun cell old => old + cx * x cell.1 + cy * y cell.1) (fun a => rankTwoColumn rt (j :: site)
        (storedEnd uplo n j - storedFirst uplo j) cx x (storedFirst uplo j) cy y (storedFirst uplo j) a
        (store.index uplo n (storedFirst uplo j) j)) := fun cx cy =>
    whole_column_updates j inside (rank_two_column_updates rt (j :: site) _ cx x _ cy y _ _) (fun i old => rfl)
  have column : ∀ cell, cell ∈ spanOf (storedCells uplo n) Prod.snd j (j + 1) → cell.2 = j := fun cell member =>
    Nat.le_antisymm (Nat.le_of_lt_succ member.2.2) member.2.1
  have two : ∀ old a b c d : T, old + a * b + c * d = old + (b * a + d * c) := fun old a b c d => by ring
  cases operation with
  | syr =>
    refine (one_vector_added x j inside (alpha * x j) (axpy_unit_real_updates _ (alpha * x j) x _ _)).congr rfl
      (fun cell old member => ?_)
    rw [plain_target alpha x y rfl, DenseRankOperation.added, column cell member, mul_comm (x cell.1)]
  | her =>
    refine hermitian_column alpha x y fits j inside rfl ?_
    have pass : Updates (Set.Iio (storedEnd uplo n j - storedFirst uplo j))
        (fun i => store.index uplo n (storedFirst uplo j) j + i)
        (fun i old => old + alpha * conj (x j) * x (storedFirst uplo j + i)) _ :=
      axpy_unit_updates rt (j :: site) (storedEnd uplo n j - storedFirst uplo j : Nat) (alpha * conj (x j)) x _ _
    refine (one_vector_added x j inside (alpha * conj (x j)) pass).congr rfl (fun cell old member => ?_)
    rw [DenseRankOperation.added, column cell member, mul_comm (x cell.1)]
  | syr2 =>
    refine (vectors (alpha * y j) (alpha * x j)).congr rfl (fun cell old member => ?_)
    rw [plain_target alpha x y rfl, DenseRankOperation.added, column cell member, two]
  | her2 =>
    refine hermitian_column alpha x y fits j inside rfl ?_
    refine (vectors (alpha * conj (y j)) (conj alpha * conj (x j))).congr rfl (fun cell old member => ?_)
    rw [DenseRankOperation.added, column cell member, two]

variable (uplo) in
theorem tiled_rank_two_updates (fits : store.Fits n) (j0 j1 : Nat) (ordered : j0 ≤ j1) (bound : j1 ≤ n)
    (two : operation.rankTwo = true) (kind : operation.hermitian = Scalar.isComplex T) :
    ∃ first, j0 ≤ first ∧ first ≤ j1 ∧ (∀ a, (tiledRankTwoColumns rt site store uplo n j0 j1 alpha x y a).1 = first) ∧
      Updates (spanOf (storedCells uplo n) Prod.snd j0 first) (store.place uplo n) (operation.target alpha x y)
        (fun a => (tiledRankTwoColumns rt site store uplo n j0 j1 alpha x y a).2) := by
  have tiled := fun columns => tiled_columns_updates uplo rt site alpha x y fits columns j0 j1 bound two kind
  unfold tiledRankTwoColumns
  split
  · exact ⟨fitEnd j0 j1 2, (fit_end_inside j0 j1 2 ordered).1, (fit_end_inside j0 j1 2 ordered).2, fun _ => rfl, tiled 2⟩
  · generalize (if isReal T then 4 else 2 : Nat) = columns
    exact ⟨fitEnd j0 j1 columns, (fit_end_inside j0 j1 columns ordered).1, (fit_end_inside j0 j1 columns ordered).2,
      fun _ => rfl, tiled columns⟩

variable (uplo) in
theorem rank_columns_updates (fits : store.Fits n) (kind : operation.Kind T) (j0 j1 : Nat) (ordered : j0 ≤ j1) (bound : j1 ≤ n) :
    Updates (spanOf (storedCells uplo n) Prod.snd j0 j1) (store.place uplo n) (operation.target alpha x y)
      (rankColumns rt site store operation uplo n j0 j1 alpha x y) := by
  have injective := place_injective uplo fits
  have rest : ∀ first, Updates (spanOf (storedCells uplo n) Prod.snd first j1) (store.place uplo n) (operation.target alpha x y)
      (loopRange first j1 (rankColumn rt (1 :: site) store operation uplo n alpha x y)) := fun first =>
    Updates.span_range first j1 (fun j _ small => one_column_updates rt (1 :: site) alpha x y fits j (small.trans_le bound)) injective
  by_cases gate : rt.arch = .x86_64 ∧ operation.rankTwo = true
  · obtain ⟨first, lower, upper, answers, tiles⟩ :=
      tiled_rank_two_updates uplo rt (0 :: site) alpha x y fits j0 j1 ordered bound gate.2 (kind gate.2)
    refine (tiles.span_append (rest first) lower upper injective).congr_run (fun a => ?_)
    simp only [rankColumns, if_pos gate, answers]
  · refine (rest j0).congr_run (fun a => ?_)
    simp only [rankColumns, if_neg gate]

end Range

end Zynum
