import Zynum.Kernels.FixedMatrixVectorExact

set_option autoImplicit false

/- The rank-one kernels: every element of the m x n matrix gains its own product
   once, whichever block of columns and whichever vector of rows it lies in. -/
namespace Zynum.FixedMatrix

open ArrayProgram LevelOne FixedVector

section Entries

variable {R : Type} {width a m n : Nat} {lda : Int}

theorem entries_apart (wide : m ≤ toUsize lda) :
    Set.InjOn (place (columnAt width a lda 0)) (block 0 (width * m) 0 n) := by
  rintro ⟨i, j⟩ ⟨rows, _⟩ ⟨k, l⟩ ⟨rows', _⟩ same
  have row : i < width * m := rows.2
  have row' : k < width * m := rows'.2
  have cells : a + width * (0 + j * toUsize lda) + i = a + width * (0 + l * toUsize lda) + k := same
  have stride : width * m ≤ width * toUsize lda := Nat.mul_le_mul_left width wide
  have flat : ∀ c, width * (0 + c * toUsize lda) = c * (width * toUsize lda) := fun c => by rw [Nat.zero_add, Nat.mul_left_comm]
  rw [flat, flat, Nat.add_assoc, Nat.add_assoc] at cells
  have equal : i + j * (width * toUsize lda) = k + l * (width * toUsize lda) := by omega
  have some : 0 < width * toUsize lda := by omega
  have columns : j = l := by
    have both := congrArg (· / (width * toUsize lda)) equal
    rwa [Nat.add_mul_div_right _ _ some, Nat.add_mul_div_right _ _ some, Nat.div_eq_of_lt (by omega),
      Nat.div_eq_of_lt (by omega), Nat.zero_add, Nat.zero_add] at both
  subst columns
  have rowsSame : i = k := by omega
  rw [rowsSame]

theorem entries_image : place (columnAt width a lda 0) '' block 0 (width * m) 0 n = entryCells width a lda m n := by
  ext other
  constructor
  · rintro ⟨⟨i, j⟩, ⟨rows, columns⟩, rfl⟩
    exact ⟨j, columns.2, i, rows.2, rfl⟩
  · rintro ⟨j, column, i, row, rfl⟩
    exact ⟨(i, j), ⟨⟨Nat.zero_le i, row⟩, ⟨Nat.zero_le j, column⟩⟩, rfl⟩

theorem entries_same {before after : Nat → R} (same : SameOff (columnAt width a lda 0) (block 0 (width * m) 0 n) before after) :
    AgreeOff (entryCells width a lda m n) before after := by
  rw [SameOff, entries_image] at same
  exact same

end Entries

section Real

variable {R : Type} [CommRing R] {cfg : MatrixVectorConfig} {m n a x y : Nat} {lda : Int} {alpha : R}

def realOuter (alpha : R) (x y : Nat) (memory : Nat → R) (cell : Nat × Nat) : R :=
  alpha * (memory (cellsFrom x cell.1) * memory (cellsFrom y cell.2))

theorem real_outer_frame {holds : (Nat → R) → Prop} (wide : m ≤ toUsize lda)
    (apartX : Disjoint (entryCells 1 a lda m n) (rowCells x m)) (apartY : Disjoint (entryCells 1 a lda m n) (rowCells y n))
    (stable : ∀ before after, AgreeOff (entryCells 1 a lda m n) before after → holds before → holds after) :
    Frame holds (columnAt 1 a lda 0) (realOuter alpha x y) (block 0 m 0 n) := by
  rw [← Nat.one_mul m]
  refine ⟨entries_apart wide, fun before after same => stable before after (entries_same same), ?_⟩
  rintro before after same ⟨row, col⟩ ⟨rows, columns⟩
  rw [Nat.one_mul] at rows
  have left := (entries_same same).same apartX ⟨row, rows.2, rfl⟩
  have right := (entries_same same).same apartY ⟨col, columns.2, rfl⟩
  rw [realOuter, realOuter, left, right]

theorem ger_block {cols j : Nat} (wide : m ≤ toUsize lda) (fits : j + cols ≤ n)
    (apartX : Disjoint (entryCells 1 a lda m n) (rowCells x m)) (apartY : Disjoint (entryCells 1 a lda m n) (rowCells y n)) :
    Fills (entryCells 1 a lda m n ∪ (rowCells x m ∪ rowCells y n)) (fun _ => True) (columnAt 1 a lda 0) (realOuter alpha x y)
      (block 0 m j (j + cols)) (gerCols cfg cols m alpha (cellsFrom x) (cellsFrom y) (cellsFrom a) lda j) := by
  have rowX : rowCells x m ⊆ entryCells 1 a lda m n ∪ (rowCells x m ∪ rowCells y n) :=
    Set.subset_union_left.trans Set.subset_union_right
  have rowY : rowCells y n ⊆ entryCells 1 a lda m n ∪ (rowCells x m ∪ rowCells y n) :=
    Set.subset_union_right.trans Set.subset_union_right
  have rows : ∀ col, col < cols → rowCells (columnAt 1 a lda 0 (j + col)) m ⊆
      entryCells 1 a lda m n ∪ (rowCells x m ∪ rowCells y n) := by
    intro col small place member
    rw [← Nat.one_mul m] at member
    exact .inl (column_cells (by omega) member)
  simp only [gerCols, entry_from]
  refine fills_after_gather (fun scalars memory => ∀ col, col < cols → scalars col = alpha * memory (cellsFrom y (j + col)))
    (Program.within_fold _ _ _ _ _ trivial (fun col _ small _ => (within_get rowY (by omega) rfl).bind (fun _ _ => trivial)))
    (fun memory _ => run_gather (fun col state => rfl) _) (fun scalars => ?_)
  have scalarsKept : ∀ before after : Nat → R, AgreeOff (entryCells 1 a lda m n) before after →
      (True ∧ ∀ col, col < cols → scalars col = alpha * before (cellsFrom y (j + col))) →
      (True ∧ ∀ col, col < cols → scalars col = alpha * after (cellsFrom y (j + col))) := by
    rintro before after agree ⟨_, held⟩
    refine ⟨trivial, fun col small => ?_⟩
    rw [held col small, agree.same apartY (⟨j + col, by omega, rfl⟩ : cellsFrom y (j + col) ∈ rowCells y n)]
  refine fills_vectors (real_outer_frame wide apartX apartY scalarsKept) fits (one_dvd _) (one_dvd m) (fun i _ inside => ?_)
    (fun i _ inside => ?_)
  · refine fills_after_gather (fun xv memory => ∀ lane, lane < cfg.laneCount → xv lane = memory (cellsFrom x (i + lane)))
      (within_load_vec rowX inside) (fun memory _ => ⟨_, run_load_vec _ i memory, fun lane small => if_pos small⟩) (fun xv => ?_)
    refine fills_each (real_outer_frame wide apartX apartY ?_) fits inside (fun col small => fills_of_store ?_ ?_)
    · rintro before after agree ⟨held, loaded⟩
      refine ⟨scalarsKept before after agree held, fun lane small => ?_⟩
      rw [loaded lane small, agree.same apartX (⟨i + lane, by omega, rfl⟩ : cellsFrom x (i + lane) ∈ rowCells x m)]
    · exact (within_load_vec (rows col small) inside).bind (fun _ _ => within_store_vec _ (rows col small) inside)
    · rintro memory ⟨⟨_, held⟩, loaded⟩
      rw [Program.run_do, run_load_vec]
      refine ⟨_, rfl, fun lane inLanes => ?_⟩
      dsimp only
      rw [if_pos inLanes, held col small, loaded lane inLanes]
      change _ + memory (place (columnAt 1 a lda 0) (i + lane, j + col)) =
        _ + alpha * (memory (cellsFrom x (i + lane)) * memory (cellsFrom y (j + col)))
      ring
  · refine fills_after_gather (fun xi memory => xi = memory (cellsFrom x i))
      (within_get rowX inside rfl) (fun memory _ => ⟨_, rfl, rfl⟩) (fun xi => ?_)
    refine fills_each (real_outer_frame wide apartX apartY ?_) fits inside (fun col small => fills_of_store ?_ ?_)
    · rintro before after agree ⟨held, loaded⟩
      refine ⟨scalarsKept before after agree held, ?_⟩
      rw [loaded, agree.same apartX (⟨i, by omega, rfl⟩ : cellsFrom x i ∈ rowCells x m)]
    · exact (within_get rowY (by omega) rfl).bind (fun _ _ => (within_get (rows col small) inside rfl).bind
        (fun _ _ => ⟨rows col small ⟨i, inside, rfl⟩, trivial⟩))
    · rintro memory ⟨⟨_, held⟩, rfl⟩
      refine ⟨fun _ => _, rfl, fun lane inLanes => ?_⟩
      rw [Nat.lt_one_iff.mp inLanes]
      change memory (cellsFrom x i) * (alpha * memory (cellsFrom y (j + col))) +
        memory (place (columnAt 1 a lda 0) (i, j + col)) =
          memory (place (columnAt 1 a lda 0) (i, j + col)) + alpha * (memory (cellsFrom x i) * memory (cellsFrom y (j + col)))
      ring

theorem ger_column [DecidableEq R] {j : Nat} (small : j + 1 ≤ n)
    (apartX : Disjoint (entryCells 1 a lda m n) (rowCells x m)) :
    Fills (entryCells 1 a lda m n ∪ (rowCells x m ∪ rowCells y n)) (fun _ => True) (columnAt 1 a lda 0) (realOuter alpha x y)
      (block 0 m j (j + 1))
      (do
        let yj ← Program.get (cellsFrom y j)
        if alpha * yj ≠ 0 then axpyColumn cfg m (alpha * yj) (cellsFrom x) (entryFrom 1 (cellsFrom a) lda 0 j) else pure ()) := by
  have rowY : rowCells y n ⊆ entryCells 1 a lda m n ∪ (rowCells x m ∪ rowCells y n) :=
    Set.subset_union_right.trans Set.subset_union_right
  have column : rowCells (columnAt 1 a lda 0 j) m ⊆ entryCells 1 a lda m n := by
    intro place member
    rw [← Nat.one_mul m] at member
    exact column_cells (by omega) member
  have clear : Clear m x (columnAt 1 a lda 0 j) := .inr (apart_of_disjoint (apartX.mono_left column))
  simp only [entry_from]
  have does := fun scale : R => real_affine_loops cfg.laneCount cfg.rowUnrollVectors [] .axpy scale 0 clear
  have more : rowCells x m ∪ rowCells (columnAt 1 a lda 0 j) m ⊆ entryCells 1 a lda m n ∪ (rowCells x m ∪ rowCells y n) :=
    Set.union_subset (Set.subset_union_left.trans Set.subset_union_right) (column.trans Set.subset_union_left)
  constructor
  · refine (within_get rowY (by omega) rfl).bind (fun yj _ => ?_)
    split
    · exact within_larger more ((does (alpha * yj)).inside ())
    · trivial
  · intro memory _
    rw [Program.run_do, Program.run_get]
    dsimp only
    split
    · obtain ⟨_, final, ran, overwrites, _⟩ := (does (alpha * memory (cellsFrom y j))).works () memory trivial
      rw [axpyColumn, ran]
      constructor
      · rintro ⟨row, other⟩ ⟨rows, columns⟩
        have here : other = j := Nat.le_antisymm (Nat.le_of_lt_succ columns.2) columns.1
        subst here
        refine (overwrites.written row rows).trans ?_
        change alpha * memory (cellsFrom y other) * memory (cellsFrom x row) + memory (place (columnAt 1 a lda 0) (row, other)) =
          _ + alpha * (memory (cellsFrom x row) * memory (cellsFrom y other))
        ring
      · intro other outside
        exact overwrites.kept other (fun row rows => outside (row, j) ⟨rows, ⟨Nat.le_refl j, Nat.lt_succ_self j⟩⟩)
    · rename_i zero
      rw [not_not] at zero
      refine ⟨fun cell member => ?_, fun _ _ => rfl⟩
      have here : cell.2 = j := Nat.le_antisymm (Nat.le_of_lt_succ member.2.2) member.2.1
      rw [realOuter, here, mul_comm (memory (cellsFrom x cell.1)), ← mul_assoc, zero, zero_mul, add_zero]
      rfl

end Real

section Complex

variable {R : Type} [CommRing R] {cfg : MatrixVectorConfig} {m n a x y : Nat} {lda : Int} {alpha : Cplx R} {conjugateY : Bool}

def complexOuter (alpha : Cplx R) (conjugateY : Bool) (x y : Nat) (memory : Nat → R) (cell : Nat × Nat) : R :=
  component (alpha * (complexAt memory x (cell.1 / 2) * conjIf conjugateY (complexAt memory y cell.2))) cell.1

theorem complex_outer_frame {holds : (Nat → R) → Prop} (wide : m ≤ toUsize lda)
    (apartX : Disjoint (entryCells 2 a lda m n) (rowCells x (2 * m)))
    (apartY : Disjoint (entryCells 2 a lda m n) (rowCells y (2 * n)))
    (stable : ∀ before after, AgreeOff (entryCells 2 a lda m n) before after → holds before → holds after) :
    Frame holds (columnAt 2 a lda 0) (complexOuter alpha conjugateY x y) (block 0 (2 * m) 0 n) := by
  refine ⟨entries_apart wide, fun before after same => stable before after (entries_same same), ?_⟩
  rintro before after same ⟨row, col⟩ ⟨⟨_, inRows⟩, ⟨_, inColumns⟩⟩
  dsimp only at inRows inColumns
  rw [complexOuter, complexOuter, complex_same (entries_same same) apartX Set.Subset.rfl (by dsimp only; omega),
    complex_same (entries_same same) apartY Set.Subset.rfl (by dsimp only; omega)]

theorem complex_ger_block {cols j : Nat} (even : 2 ∣ cfg.laneCount) (wide : m ≤ toUsize lda) (fits : j + cols ≤ n)
    (apartX : Disjoint (entryCells 2 a lda m n) (rowCells x (2 * m)))
    (apartY : Disjoint (entryCells 2 a lda m n) (rowCells y (2 * n))) :
    Fills (entryCells 2 a lda m n ∪ (rowCells x (2 * m) ∪ rowCells y (2 * n))) (fun _ => True) (columnAt 2 a lda 0)
      (complexOuter alpha conjugateY x y) (block 0 (2 * m) j (j + cols))
      (complexGerCols cfg cols m alpha (cellsFrom x) (cellsFrom y) (cellsFrom a) lda conjugateY j) := by
  have rowX : rowCells x (2 * m) ⊆ entryCells 2 a lda m n ∪ (rowCells x (2 * m) ∪ rowCells y (2 * n)) :=
    Set.subset_union_left.trans Set.subset_union_right
  have rowY : rowCells y (2 * n) ⊆ entryCells 2 a lda m n ∪ (rowCells x (2 * m) ∪ rowCells y (2 * n)) :=
    Set.subset_union_right.trans Set.subset_union_right
  have rows : ∀ col, col < cols → rowCells (columnAt 2 a lda 0 (j + col)) (2 * m) ⊆
      entryCells 2 a lda m n ∪ (rowCells x (2 * m) ∪ rowCells y (2 * n)) :=
    fun col small place member => .inl (column_cells (by omega) member)
  simp only [complexGerCols, entry_from]
  refine fills_after_gather
    (fun coefficients memory => ∀ col, col < cols → coefficients col = alpha * conjIf conjugateY (complexAt memory y (j + col)))
    (Program.within_fold _ _ _ _ _ trivial (fun col _ small _ => (within_get_complex rowY (by omega)).bind
      (fun _ _ => trivial))) (fun memory _ => run_gather (fun col state => rfl) _) (fun coefficients => ?_)
  have coefficientsKept : ∀ before after : Nat → R, AgreeOff (entryCells 2 a lda m n) before after →
      (True ∧ ∀ col, col < cols → coefficients col = alpha * conjIf conjugateY (complexAt before y (j + col))) →
      (True ∧ ∀ col, col < cols → coefficients col = alpha * conjIf conjugateY (complexAt after y (j + col))) := by
    rintro before after agree ⟨_, held⟩
    refine ⟨trivial, fun col small => ?_⟩
    rw [held col small, complex_same agree apartY Set.Subset.rfl (by omega)]
  refine fills_vectors (complex_outer_frame wide apartX apartY coefficientsKept) fits even (Dvd.intro m rfl)
    (fun i start inside => ?_) (fun i start inside => ?_)
  · refine fills_after_gather (fun xv memory => xv = fun lane =>
        if lane < cfg.laneCount then memory (cellsFrom x (i + lane)) else 0)
      (within_load_vec rowX inside) (fun memory _ => ⟨_, run_load_vec _ i memory, rfl⟩) (fun xv => ?_)
    refine fills_each (complex_outer_frame wide apartX apartY ?_) fits inside (fun col small => fills_of_store ?_ ?_)
    · rintro before after agree ⟨held, loaded⟩
      refine ⟨coefficientsKept before after agree held, loaded.trans (funext fun lane => ?_)⟩
      split
      · exact agree.same apartX ⟨i + lane, by omega, rfl⟩
      · rfl
    · exact (within_load_vec (rows col small) inside).bind (fun _ _ => within_store_vec _ (rows col small) inside)
    · rintro memory ⟨⟨_, held⟩, loaded⟩
      rw [Program.run_do, run_load_vec]
      refine ⟨_, rfl, fun lane inLanes => ?_⟩
      dsimp only
      rw [complex_update_lane, loaded, complex_gain_lane even start inLanes, if_pos inLanes, held col small]
      refine congrArg₂ (· + ·) rfl (congrArg (fun value => component value (i + lane)) ?_)
      ring
  · have second : i + 1 < 2 * m := by omega
    refine fills_after_gather (fun xr memory => xr = memory (cellsFrom x i)) (within_get rowX (by omega) rfl)
      (fun memory _ => ⟨_, rfl, rfl⟩) (fun xr => ?_)
    refine fills_after_gather (fun xi memory => xi = memory (cellsFrom x (i + 1))) (within_get rowX second rfl)
      (fun memory _ => ⟨_, rfl, rfl⟩) (fun xi => ?_)
    refine fills_each (complex_outer_frame wide apartX apartY ?_) fits inside (fun col small => fills_of_store ?_ ?_)
    · rintro before after agree ⟨⟨held, re⟩, im⟩
      refine ⟨⟨coefficientsKept before after agree held, ?_⟩, ?_⟩
      · rw [re, agree.same apartX (⟨i, by omega, rfl⟩ : cellsFrom x i ∈ rowCells x (2 * m))]
      · rw [im, agree.same apartX (⟨i + 1, second, rfl⟩ : cellsFrom x (i + 1) ∈ rowCells x (2 * m))]
    · exact (within_get (rows col small) (by omega) rfl).bind (fun _ _ => (within_get (rows col small) second rfl).bind
        (fun _ _ => ⟨rows col small ⟨i, by omega, rfl⟩, rows col small ⟨i + 1, second, rfl⟩, trivial⟩))
    · obtain ⟨e, rfl⟩ := start
      rintro memory ⟨⟨⟨_, held⟩, rfl⟩, rfl⟩
      refine ⟨fun lane => if lane = 0 then _ else _, rfl, fun lane inLanes => ?_⟩
      have half : (2 * e + lane) / 2 = e := by omega
      dsimp only
      rw [component_pair _ inLanes, component_add, held col small]
      refine congrArg₂ (· + ·) ?_ ?_
      · change component (complexAt memory (columnAt 2 a lda 0 (j + col)) e) (2 * e + lane) =
          memory (cellsFrom (columnAt 2 a lda 0 (j + col)) (2 * e + lane))
        rw [← component_at memory _ (2 * e + lane), half]
      · rw [complexOuter]
        dsimp only
        rw [half]
        refine congrArg (fun value => component value (2 * e + lane)) ?_
        change complexAt memory x e * (alpha * conjIf conjugateY (complexAt memory y (j + col))) = _
        ring

end Complex

end Zynum.FixedMatrix
