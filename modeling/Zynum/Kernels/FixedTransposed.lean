import Zynum.Kernels.FixedMatrixVectorExact

set_option autoImplicit false

/- The transpose kernels: the accumulators of a block gather, for each of its
   columns, the product with x once over vectors, tails and single rows. -/
namespace Zynum.FixedMatrix

open ArrayProgram LevelOne FixedVector

section Columns

variable {R A T : Type} [AddCommMonoid A] {cols first last : Nat} {allowed : Set Nat} {term : (Nat → R) → Nat → Fin cols → A}

theorem loop_update_each (count : Nat) (f : Nat → T → T) (start : Nat → T) (col : Nat) :
    loop count (fun k state => Function.update state k (f k (state k))) start col =
      if col < count then f col (start col) else start col := by
  induction count with
  | zero => rfl
  | succ count ih =>
    rw [loop_succ]
    by_cases here : col = count
    · subst here
      have before : loop col (fun k state => Function.update state k (f k (state k))) start col = start col := by
        rw [ih, if_neg (Nat.lt_irrefl col)]
      rw [Function.update_self, if_pos (Nat.lt_succ_self col), before]
    · rw [Function.update_of_ne here, ih]
      exact if_congr (by omega) rfl rfl

theorem works_columns (part : T → A) {program : (Nat → T) → Program Nat R (Nat → T)} (f : (Nat → R) → Nat → T → T)
    (within : ∀ state, (program state).Within allowed (fun _ => True))
    (runs : ∀ state memory, (program state).run memory =
      (loop cols (fun col state => Function.update state col (f memory col (state col))) state, memory))
    (gains : ∀ memory (col : Fin cols) state,
      part (f memory col state) = part state + ∑ i ∈ Finset.Ico first last, term memory i col) :
    (sumLaw term allowed).Works (fun state col => part (state col)) (fun state col => part (state col)) program first last := by
  refine ⟨within, fun state memory _ => ⟨_, memory, runs state memory, nothing_stored memory, ?_⟩⟩
  funext col
  rw [loop_update_each, if_pos col.isLt, gains, Pi.add_apply, Finset.sum_apply]
  rfl

end Columns

section Outputs

variable {R : Type} {width n y : Nat}

def elementAt (width y i : Nat) : Nat := y + width * i

theorem elements_apart : Set.InjOn (place (elementAt width y)) (block 0 width 0 n) := by
  rintro ⟨i, j⟩ ⟨rows, _⟩ ⟨k, l⟩ ⟨rows', _⟩ same
  have row : i < width := rows.2
  have row' : k < width := rows'.2
  have cells : y + width * j + i = y + width * l + k := same
  have equal : i + width * j = k + width * l := by omega
  have columns : j = l := by
    have both := congrArg (· / width) equal
    rwa [Nat.add_mul_div_left _ _ (by omega), Nat.add_mul_div_left _ _ (by omega), Nat.div_eq_of_lt row,
      Nat.div_eq_of_lt row', Nat.zero_add, Nat.zero_add] at both
  subst columns
  have rowsSame : i = k := by omega
  rw [rowsSame]

theorem element_cells : place (elementAt width y) '' block 0 width 0 n ⊆ rowCells y (width * n) := by
  rintro _ ⟨⟨i, j⟩, ⟨rows, columns⟩, rfl⟩
  have row : i < width := rows.2
  have next : width * (j + 1) ≤ width * n := Nat.mul_le_mul_left width columns.2
  rw [Nat.mul_succ] at next
  exact ⟨width * j + i, by omega, (Nat.add_assoc y (width * j) i).symm⟩

theorem elements_same {before after : Nat → R} (same : SameOff (elementAt width y) (block 0 width 0 n) before after) :
    AgreeOff (rowCells y (width * n)) before after :=
  fun other outside => same other (fun member => outside (element_cells member))

theorem store_real [Zero R] (y i : Nat) (value : R) (memory : Nat → R) :
    ((storeVec 1 (cellsFrom (elementAt 1 y i)) 0 (fun _ => value)).run memory).2 =
      ((Program.put (cellsFrom y i) value).run memory).2 := by
  change Function.update memory (y + 1 * i + 0) value = Function.update memory (y + i) value
  rw [Nat.one_mul, Nat.add_zero]

theorem store_complex (y i : Nat) (value : Cplx R) (memory : Nat → R) :
    ((storeVec 2 (cellsFrom (elementAt 2 y i)) 0 (fun lane => if lane = 0 then value.re else value.im)).run memory).2 =
      ((putComplex (cellsFrom y) i value).run memory).2 := by
  change Function.update (Function.update memory (y + 2 * i + 0) value.re) (y + 2 * i + 1) value.im =
    Function.update (Function.update memory (y + 2 * i) value.re) (y + (2 * i + 1)) value.im
  rw [Nat.add_zero, Nat.add_assoc]

end Outputs

section Real

variable {R : Type} [CommRing R] {cfg : MatrixVectorConfig} {m n a x y : Nat} {lda : Int} {alpha : R}

def columnDot (a : Nat) (lda : Int) (x m : Nat) (memory : Nat → R) (col : Nat) : R :=
  ∑ i ∈ Finset.range m, memory (cellsFrom (columnAt 1 a lda 0 col) i) * memory (cellsFrom x i)

def transposedTerm (a : Nat) (lda : Int) (x j cols : Nat) (memory : Nat → R) (i : Nat) (col : Fin cols) : R :=
  memory (cellsFrom (columnAt 1 a lda 0 (j + col)) i) * memory (cellsFrom x i)

theorem lanes_product {lanes i : Nat} (left right : Nat) (memory : Nat → R) :
    ∑ lane ∈ Finset.range lanes, (if lane < lanes then memory (cellsFrom left (i + lane)) else 0) *
        (if lane < lanes then memory (cellsFrom right (i + lane)) else 0) =
      ∑ i ∈ Finset.Ico i (i + lanes), memory (cellsFrom left i) * memory (cellsFrom right i) := by
  rw [Finset.sum_Ico_eq_sum_range, Nat.add_sub_cancel_left]
  refine Finset.sum_congr rfl (fun lane member => ?_)
  rw [if_pos (Finset.mem_range.mp member), if_pos (Finset.mem_range.mp member)]

theorem trans_sums (cfg : MatrixVectorConfig) {allowed : Set Nat} {cols j : Nat} (rowX : rowCells x m ⊆ allowed)
    (rows : ∀ col, col < cols → rowCells (columnAt 1 a lda 0 (j + col)) m ⊆ allowed) :
    (gemvTransSums cfg cols m (cellsFrom a) lda (cellsFrom x) j : Program Nat R (Nat → R)).Within allowed (fun _ => True) ∧
      ∀ memory : Nat → R, ∃ sums, (gemvTransSums cfg cols m (cellsFrom a) lda (cellsFrom x) j).run memory = (sums, memory) ∧
        ∀ col, col < cols → sums col = columnDot a lda x m memory (j + col) := by
  have sound : (sumLaw (transposedTerm a lda x j cols : (Nat → R) → Nat → Fin cols → R) allowed).Sound 1 m := sum_sound _ _ 1 m
  have vector : ∀ i, i + cfg.laneCount ≤ m → (sumLaw (transposedTerm a lda x j cols : (Nat → R) → Nat → Fin cols → R) allowed).Works
      (fun (acc : Nat → Nat → R) (col : Fin cols) => ∑ lane ∈ Finset.range cfg.laneCount, acc col lane)
      (fun (acc : Nat → Nat → R) (col : Fin cols) => ∑ lane ∈ Finset.range cfg.laneCount, acc col lane)
      (fun acc => do
        let xv ← loadVec cfg.laneCount (cellsFrom x) i
        Program.fold cols (fun col (acc : Nat → Nat → R) => do
          let av ← loadVec cfg.laneCount (cellsFrom (columnAt 1 a lda 0 (j + col))) i
          pure (Function.update acc col (fun lane => av lane * xv lane + acc col lane))) acc) i (i + cfg.laneCount) := by
    intro i inside
    refine works_columns (A := R) (T := Nat → R) (fun acc => ∑ lane ∈ Finset.range cfg.laneCount, acc lane)
      (fun memory col acc lane =>
      (if lane < cfg.laneCount then memory (cellsFrom (columnAt 1 a lda 0 (j + col)) (i + lane)) else 0) *
        (if lane < cfg.laneCount then memory (cellsFrom x (i + lane)) else 0) + acc lane) (fun acc => ?_) (fun acc memory => ?_)
      (fun memory col acc => ?_)
    · refine (within_load_vec rowX inside).bind (fun _ _ => Program.within_fold _ (fun _ => True) _ _ _ trivial ?_)
      exact fun col _ small _ => (within_load_vec (rows col small) inside).bind (fun _ _ => trivial)
    · rw [Program.run_do, run_load_vec]
      exact run_fold_reads (fun col state _ => by
        rw [Program.run_do, run_load_vec]
        rfl) acc
    · rw [Finset.sum_add_distrib, lanes_product, add_comm]
      rfl
  have tail : ∀ i, i + cfg.laneCount ≤ m → (sumLaw (transposedTerm a lda x j cols : (Nat → R) → Nat → Fin cols → R) allowed).Works
      (fun (sums : Nat → R) (col : Fin cols) => sums col) (fun (sums : Nat → R) (col : Fin cols) => sums col)
      (fun sums => do
        let xv ← loadVec cfg.laneCount (cellsFrom x) i
        Program.fold cols (fun col (sums : Nat → R) => do
          let av ← loadVec cfg.laneCount (cellsFrom (columnAt 1 a lda 0 (j + col))) i
          pure (Function.update sums col (sums col + reduceAdd cfg.laneCount (fun lane => av lane * xv lane)))) sums)
      i (i + cfg.laneCount) := by
    intro i inside
    refine works_columns (A := R) (T := R) id (fun memory col sum => sum + reduceAdd cfg.laneCount (fun lane =>
      (if lane < cfg.laneCount then memory (cellsFrom (columnAt 1 a lda 0 (j + col)) (i + lane)) else 0) *
        (if lane < cfg.laneCount then memory (cellsFrom x (i + lane)) else 0))) (fun acc => ?_) (fun acc memory => ?_)
      (fun memory col acc => ?_)
    · refine (within_load_vec rowX inside).bind (fun _ _ => Program.within_fold _ (fun _ => True) _ _ _ trivial ?_)
      exact fun col _ small _ => (within_load_vec (rows col small) inside).bind (fun _ _ => trivial)
    · rw [Program.run_do, run_load_vec]
      exact run_fold_reads (fun col state _ => by
        rw [Program.run_do, run_load_vec]
        rfl) acc
    · rw [reduceAdd, loop_accumulate, zero_add, lanes_product]
      rfl
  have single : ∀ i, i + 1 ≤ m → (sumLaw (transposedTerm a lda x j cols : (Nat → R) → Nat → Fin cols → R) allowed).Works
      (fun (sums : Nat → R) (col : Fin cols) => sums col) (fun (sums : Nat → R) (col : Fin cols) => sums col)
      (fun sums => Program.fold cols (fun col (sums : Nat → R) => do
          let ai ← Program.get (cellsFrom (columnAt 1 a lda 0 (j + col)) i)
          let xi ← Program.get (cellsFrom x i)
          pure (Function.update sums col (ai * xi + sums col))) sums) i (i + 1) := by
    intro i inside
    refine works_columns (A := R) (T := R) id (fun memory col sum =>
      memory (cellsFrom (columnAt 1 a lda 0 (j + col)) i) * memory (cellsFrom x i) + sum) (fun acc => ?_)
      (fun acc memory => run_fold_reads (fun col state _ => rfl) acc) (fun memory col acc => ?_)
    · refine Program.within_fold _ (fun _ => True) _ _ _ trivial ?_
      exact fun col _ small _ => (within_get (rows col small) inside rfl).bind (fun _ _ =>
        (within_get rowX inside rfl).bind (fun _ _ => trivial))
    · rw [Nat.Ico_succ_singleton, Finset.sum_singleton]
      exact add_comm _ _
  have unrolled := works_while (fun accs : Nat → Nat → Nat → R => ∑ u ∈ Finset.range cfg.rowUnrollVectors,
      fun col : Fin cols => ∑ lane ∈ Finset.range cfg.laneCount, accs u col lane) sound _ (one_dvd _) (one_dvd 0)
    (Nat.zero_le m) (Nat.le_refl m) (fun i start fits => works_unrolled _ sound _ (one_dvd cfg.laneCount) start fits
      (fun u small inside => works_accumulator small _ (vector (i + u * cfg.laneCount) inside)))
  have inside : reached (cfg.laneCount * cfg.rowUnrollVectors) 0 m ≤ m := reached_le (Nat.zero_le m)
  simp only [gemvTransSums, entry_from]
  generalize reached (cfg.laneCount * cfg.rowUnrollVectors) 0 m = i at unrolled inside ⊢
  have vectors := works_while (fun (sums : Nat → R) (col : Fin cols) => sums col) sound _ (one_dvd _) (one_dvd i) inside
    (Nat.le_refl m) (fun i _ fits => tail i fits)
  have inside' : reached cfg.laneCount i m ≤ m := reached_le inside
  have low := le_reached cfg.laneCount i m
  generalize reached cfg.laneCount i m = k at vectors inside' low ⊢
  have rest := works_while (fun (sums : Nat → R) (col : Fin cols) => sums col) sound _ (one_dvd _) (one_dvd k) inside'
    (Nat.le_refl m) (fun i _ fits => single i fits)
  rw [reached_last (one_dvd k) (one_dvd m) inside'] at rest
  have together : ∀ accs : Nat → Nat → Nat → R, (fun col : Fin cols => reduceAdd cfg.laneCount
        (fun lane => loop cfg.rowUnrollVectors (fun u acc => acc + accs u col lane) 0)) =
      ∑ u ∈ Finset.range cfg.rowUnrollVectors, fun col : Fin cols => ∑ lane ∈ Finset.range cfg.laneCount, accs u col lane := by
    intro accs
    funext col
    simp only [reduceAdd, loop_accumulate, zero_add, Finset.sum_apply]
    exact Finset.sum_comm
  have tails := (vectors.then rest sound (one_dvd k) low inside' (Nat.le_refl m)).from
    (fun (accs : Nat → Nat → Nat → R) col =>
      reduceAdd cfg.laneCount (fun lane => loop cfg.rowUnrollVectors (fun u acc => acc + accs u col lane) 0)) together
  have whole := unrolled.then tails sound (one_dvd i) (Nat.zero_le i) inside (Nat.le_refl m)
  refine ⟨whole.inside _, fun memory => ?_⟩
  obtain ⟨sums, final, ran, kept, total⟩ := whole.works (fun _ _ _ => 0) memory trivial
  have same : final = memory := funext fun other => kept.kept other (fun cell => cell.elim)
  rw [same] at ran
  refine ⟨sums, ran, fun col small => ?_⟩
  have here := congrFun total ⟨col, small⟩
  simp only [Finset.sum_const_zero, Pi.add_apply, Finset.sum_apply, zero_add] at here
  rw [here, columnDot, Finset.range_eq_Ico]
  rfl

def realDot (alpha : R) (a : Nat) (lda : Int) (x m : Nat) (memory : Nat → R) (cell : Nat × Nat) : R :=
  alpha * columnDot a lda x m memory cell.2

theorem column_dot_same {before after : Nat → R} {row : Set Nat} {col : Nat} (agree : AgreeOff row before after)
    (apartA : Disjoint row (entryCells 1 a lda m n)) (apartX : Disjoint row (rowCells x m)) (small : col < n) :
    columnDot a lda x m before col = columnDot a lda x m after col := by
  refine Finset.sum_congr rfl (fun i member => ?_)
  have inside := Finset.mem_range.mp member
  have entry := agree.same apartA (column_cells small ⟨i, by omega, rfl⟩)
  rw [entry, agree.same apartX (⟨i, inside, rfl⟩ : cellsFrom x i ∈ rowCells x m)]

theorem real_dot_frame {holds : (Nat → R) → Prop} (apartA : Disjoint (rowCells y n) (entryCells 1 a lda m n))
    (apartX : Disjoint (rowCells y n) (rowCells x m))
    (stable : ∀ before after, AgreeOff (rowCells y n) before after → holds before → holds after) :
    Frame holds (elementAt 1 y) (realDot alpha a lda x m) (block 0 1 0 n) := by
  have agree : ∀ {before after : Nat → R}, SameOff (elementAt 1 y) (block 0 1 0 n) before after →
      AgreeOff (rowCells y n) before after := by
    intro before after same
    have wide := elements_same same
    rwa [Nat.one_mul] at wide
  refine ⟨elements_apart, fun before after same => stable before after (agree same), ?_⟩
  rintro before after same ⟨row, col⟩ ⟨_, columns⟩
  rw [realDot, realDot, column_dot_same (agree same) apartA apartX columns.2]

theorem trans_block {cols j : Nat} (fits : j + cols ≤ n) (apartA : Disjoint (rowCells y n) (entryCells 1 a lda m n))
    (apartX : Disjoint (rowCells y n) (rowCells x m)) :
    Fills (rowCells y n ∪ (entryCells 1 a lda m n ∪ rowCells x m)) (fun _ => True) (elementAt 1 y) (realDot alpha a lda x m)
      (block 0 1 j (j + cols)) (gemvTransCols cfg cols m alpha (cellsFrom a) lda (cellsFrom x) (cellsFrom y) j) := by
  have rowY : rowCells y n ⊆ rowCells y n ∪ (entryCells 1 a lda m n ∪ rowCells x m) := Set.subset_union_left
  have rowX : rowCells x m ⊆ rowCells y n ∪ (entryCells 1 a lda m n ∪ rowCells x m) :=
    Set.subset_union_right.trans Set.subset_union_right
  have rows : ∀ col, col < cols → rowCells (columnAt 1 a lda 0 (j + col)) m ⊆
      rowCells y n ∪ (entryCells 1 a lda m n ∪ rowCells x m) := by
    intro col small place member
    rw [← Nat.one_mul m] at member
    exact .inr (.inl (column_cells (by omega) member))
  obtain ⟨inside, gathers⟩ := trans_sums (R := R) cfg rowX rows
  refine fills_after_gather (fun sums memory => ∀ col, col < cols → sums col = columnDot a lda x m memory (j + col)) inside
    (fun memory _ => gathers memory) (fun sums => ?_)
  refine fills_each (real_dot_frame apartA apartX ?_) fits (Nat.le_refl 1) (fun col small => fills_of_column ?_ ?_)
  · rintro before after agree ⟨_, held⟩
    refine ⟨trivial, fun col small => ?_⟩
    rw [held col small, column_dot_same agree apartA apartX (by omega)]
  · exact (within_get rowY (by omega) rfl).bind (fun _ _ => ⟨rowY ⟨j + col, by omega, rfl⟩, trivial⟩)
  · rintro memory ⟨_, held⟩
    refine ⟨fun _ => alpha * sums col + memory (cellsFrom y (j + col)), (store_real y (j + col) _ memory).symm,
      fun lane one => ?_⟩
    rw [Nat.lt_one_iff.mp one, held col small, add_comm]
    refine congrArg₂ (· + ·) (congrArg memory ?_) rfl
    change y + (j + col) = y + 1 * (j + col) + 0
    rw [Nat.one_mul, Nat.add_zero]

theorem trans_body (cfg : MatrixVectorConfig) (alpha : R) (apartA : Disjoint (rowCells y n) (entryCells 1 a lda m n))
    (apartX : Disjoint (rowCells y n) (rowCells x m)) :
    Fills (rowCells y n ∪ (entryCells 1 a lda m n ∪ rowCells x m)) (fun _ => True) (elementAt 1 y) (realDot alpha a lda x m)
      (block 0 1 0 n) (gemvTransUnitRealBody cfg m n alpha (cellsFrom a) lda (cellsFrom x) (cellsFrom y)) :=
  fills_columns cfg (real_dot_frame apartA apartX (fun _ _ _ held => held)) (fun _ _ fits => trans_block fits apartA apartX)
    (fun _ small => trans_block small apartA apartX)

end Real

section Complex

variable {R : Type} [CommRing R] {cfg : MatrixVectorConfig} {m n a x y : Nat} {lda : Int} {alpha : Cplx R} {doConj : Bool}

def complexColumnDot (doConj : Bool) (a : Nat) (lda : Int) (x m : Nat) (memory : Nat → R) (col : Nat) : Cplx R :=
  ∑ i ∈ Finset.range m, conjIf doConj (complexAt memory (columnAt 2 a lda 0 col) i) * complexAt memory x i

def complexDot (doConj : Bool) (alpha : Cplx R) (a : Nat) (lda : Int) (x m : Nat) (memory : Nat → R) (cell : Nat × Nat) : R :=
  component (alpha * complexColumnDot doConj a lda x m memory cell.2) cell.1

omit [CommRing R] in
theorem complex_entry_same {before after : Nat → R} {row : Set Nat} {col i : Nat} (agree : AgreeOff row before after)
    (apartA : Disjoint row (entryCells 2 a lda m n)) (small : col < n) (inside : i < m) :
    complexAt before (columnAt 2 a lda 0 col) i = complexAt after (columnAt 2 a lda 0 col) i :=
  complex_same agree apartA (column_cells small) (by omega)

theorem complex_column_dot_same {before after : Nat → R} {row : Set Nat} {col : Nat} (agree : AgreeOff row before after)
    (apartA : Disjoint row (entryCells 2 a lda m n)) (apartX : Disjoint row (rowCells x (2 * m))) (small : col < n) :
    complexColumnDot doConj a lda x m before col = complexColumnDot doConj a lda x m after col := by
  refine Finset.sum_congr rfl (fun i member => ?_)
  have inside := Finset.mem_range.mp member
  rw [complex_entry_same agree apartA small inside, complex_same agree apartX Set.Subset.rfl (by omega)]

theorem complex_dot_frame {holds : (Nat → R) → Prop} (apartA : Disjoint (rowCells y (2 * n)) (entryCells 2 a lda m n))
    (apartX : Disjoint (rowCells y (2 * n)) (rowCells x (2 * m)))
    (stable : ∀ before after, AgreeOff (rowCells y (2 * n)) before after → holds before → holds after) :
    Frame holds (elementAt 2 y) (complexDot doConj alpha a lda x m) (block 0 2 0 n) := by
  refine ⟨elements_apart, fun before after same => stable before after (elements_same same), ?_⟩
  rintro before after same ⟨row, col⟩ ⟨_, columns⟩
  rw [complexDot, complexDot, complex_column_dot_same (elements_same same) apartA apartX columns.2]

theorem complex_trans_store {allowed : Set Nat} {holds : (Nat → R) → Prop} {c : Nat} {sum : Cplx R} (small : c < n)
    (rowY : rowCells y (2 * n) ⊆ allowed) :
    Fills allowed (fun memory => holds memory ∧ sum = complexColumnDot doConj a lda x m memory c) (elementAt 2 y)
      (complexDot doConj alpha a lda x m) (block 0 2 c (c + 1))
      (do
        let yj ← getComplex (cellsFrom y) c
        putComplex (cellsFrom y) c (yj + alpha * sum)) := by
  refine fills_of_column ?_ ?_
  · exact (within_get_complex rowY (by omega)).bind (fun _ _ =>
      ⟨rowY ⟨2 * c, by omega, rfl⟩, rowY ⟨2 * c + 1, by omega, rfl⟩, trivial⟩)
  · rintro memory ⟨_, rfl⟩
    refine ⟨fun lane => if lane = 0 then _ else _,
      (store_complex y c (complexAt memory y c + alpha * complexColumnDot doConj a lda x m memory c) memory).symm,
      fun lane inLanes => ?_⟩
    have lanes := component_pair (complexAt memory y c + alpha * complexColumnDot doConj a lda x m memory c) (e := 0) inLanes
    rw [Nat.mul_zero, Nat.zero_add] at lanes
    refine lanes.trans ?_
    rw [component_add]
    refine congrArg₂ (· + ·) ?_ rfl
    have half : (2 * c + lane) / 2 = c := by omega
    have place : place (elementAt 2 y) (lane, c) = cellsFrom y (2 * c + lane) := Nat.add_assoc y (2 * c) lane
    rw [place, ← component_at memory y (2 * c + lane), half, component, component]
    have parity : (2 * c + lane) % 2 = lane % 2 := by omega
    rw [parity]

variable [DecidableEq R]

theorem complex_trans_column {c : Nat} (even : 2 ∣ cfg.laneCount) (small : c < n) :
    Fills (rowCells y (2 * n) ∪ (entryCells 2 a lda m n ∪ rowCells x (2 * m))) (fun _ => True) (elementAt 2 y)
      (complexDot doConj alpha a lda x m) (block 0 2 c (c + 1))
      (complexGemvTransColumn cfg m alpha (cellsFrom a) lda (cellsFrom x) (cellsFrom y) doConj c) := by
  obtain ⟨inside, sums⟩ := complex_dot_loops (R := R) (n := m) (x := columnAt 2 a lda 0 c) (y := x) doConj
    cfg.fuseComplexUpdates cfg.rowUnrollVectors even
  rw [complexGemvTransColumn, entry_from]
  refine fills_after_gather (fun sum memory => sum = complexColumnDot doConj a lda x m memory c) (within_larger ?_ inside)
    (fun memory _ => ⟨_, sums memory, rfl⟩) (fun sum => complex_trans_store small Set.subset_union_left)
  exact Set.union_subset (fun _ member => .inr (.inl (column_cells small member))) (fun _ member => .inr (.inr member))

def pairTerm (doConj : Bool) (a : Nat) (lda : Int) (x j : Nat) (memory : Nat → R) (i : Nat) (col : Fin 2) : Cplx R :=
  dotTerm doConj (columnAt 2 a lda 0 (j + col)) x memory i

theorem trans_accumulate (doConj : Bool) {allowed : Set Nat} {j i : Nat} (even : 2 ∣ cfg.laneCount) (start : 2 ∣ i)
    (inside : i + cfg.laneCount ≤ 2 * m) (rowX : rowCells x (2 * m) ⊆ allowed)
    (rows : ∀ col, col < 2 → rowCells (columnAt 2 a lda 0 (j + col)) (2 * m) ⊆ allowed) :
    (sumLaw (pairTerm (R := R) doConj a lda x j) allowed).Works
      (fun (acc : Nat → Nat → Cplx R) (col : Fin 2) => ∑ lane ∈ Finset.range cfg.laneCount, acc col lane)
      (fun (acc : Nat → Nat → Cplx R) (col : Fin 2) => ∑ lane ∈ Finset.range cfg.laneCount, acc col lane)
      (complexGemvTransAccumulate cfg (cellsFrom a) lda (cellsFrom x) doConj j i) i (i + cfg.laneCount) := by
  refine works_columns (A := Cplx R) (T := Nat → Cplx R) (fun acc => ∑ lane ∈ Finset.range cfg.laneCount, acc lane)
    (fun memory col acc => signedProducts cfg.fuseComplexUpdates doConj
      (fun lane => if lane < cfg.laneCount then memory (cellsFrom (columnAt 2 a lda 0 (j + col)) (i + lane)) else 0)
      (fun lane => if lane < cfg.laneCount then memory (cellsFrom x (i + lane)) else 0) acc) (fun acc => ?_)
    (fun acc memory => ?_) (fun memory col acc => ?_)
  · refine (within_load_vec rowX inside).bind (fun _ _ => Program.within_fold _ (fun _ => True) _ _ _ trivial ?_)
    intro col _ small _
    rw [entry_from]
    exact (within_load_vec (rows col small) inside).bind (fun _ _ => trivial)
  · rw [complexGemvTransAccumulate, Program.run_do, run_load_vec]
    exact run_fold_reads (fun col state _ => by
      rw [entry_from, Program.run_do, run_load_vec]
      rfl) acc
  · rw [Finset.sum_Ico_eq_sum_range, Nat.add_sub_cancel_left, ← Finset.sum_add_distrib]
    refine Finset.sum_congr rfl (fun lane member => ?_)
    rw [signed_products, dot_term_lane doConj even start (Finset.mem_range.mp member) memory, add_comm (acc lane)]
    rfl

theorem trans_accs (doConj : Bool) {allowed : Set Nat} {j : Nat} (even : 2 ∣ cfg.laneCount) (rowX : rowCells x (2 * m) ⊆ allowed)
    (rows : ∀ col, col < 2 → rowCells (columnAt 2 a lda 0 (j + col)) (2 * m) ⊆ allowed) :
    (complexGemvTransAccs cfg m (cellsFrom a) lda (cellsFrom x) doConj j : Program Nat R _).Within allowed (fun _ => True) ∧
      ∀ memory : Nat → R, ∃ accs, (complexGemvTransAccs cfg m (cellsFrom a) lda (cellsFrom x) doConj j).run memory = (accs, memory) ∧
        ∀ col, col < 2 → reduceAdd cfg.laneCount (fun lane => accs 0 col lane + accs 1 col lane) =
          ∑ i ∈ Finset.range (reached cfg.laneCount (reached (cfg.laneCount * 2) 0 (2 * m)) (2 * m)),
            dotTerm doConj (columnAt 2 a lda 0 (j + col)) x memory i := by
  have sound : (sumLaw (pairTerm (R := R) doConj a lda x j) allowed).Sound 2 (2 * m) := sum_sound _ _ 2 (2 * m)
  have vector := fun i (start : 2 ∣ i) (inside : i + cfg.laneCount ≤ 2 * m) =>
    trans_accumulate (R := R) doConj even start inside rowX rows
  have unrolled := works_while (fun accs : Nat → Nat → Nat → Cplx R => ∑ u ∈ Finset.range 2,
      fun col : Fin 2 => ∑ lane ∈ Finset.range cfg.laneCount, accs u col lane) sound _ (even.mul_right 2) (Nat.dvd_zero 2)
    (Nat.zero_le (2 * m)) (Nat.le_refl _) (fun i start fits => works_unrolled _ sound _ even start fits
      (fun u small inside => works_accumulator small _
        (vector (i + u * cfg.laneCount) (Nat.dvd_add start (even.mul_left u)) inside)))
  have first : 2 ∣ reached (cfg.laneCount * 2) 0 (2 * m) := reached_dvd (even.mul_right 2) (Nat.dvd_zero 2)
  have inside : reached (cfg.laneCount * 2) 0 (2 * m) ≤ 2 * m := reached_le (Nat.zero_le _)
  rw [complexGemvTransAccs]
  generalize reached (cfg.laneCount * 2) 0 (2 * m) = i at unrolled first inside ⊢
  have vectors := works_while (fun accs : Nat → Nat → Nat → Cplx R => ∑ u ∈ Finset.range 2,
      fun col : Fin 2 => ∑ lane ∈ Finset.range cfg.laneCount, accs u col lane) sound _ even first inside (Nat.le_refl _)
    (fun i start fits => works_accumulator Nat.two_pos _ (vector i start fits))
  have whole := unrolled.then vectors sound first (Nat.zero_le i) (le_reached _ _ _) (reached_le inside)
  refine ⟨whole.inside _, fun memory => ?_⟩
  obtain ⟨accs, final, ran, kept, total⟩ := whole.works (fun _ _ _ => 0) memory trivial
  have same : final = memory := funext fun other => kept.kept other (fun cell => cell.elim)
  rw [same] at ran
  refine ⟨accs, ran, fun col small => ?_⟩
  have here := congrFun total ⟨col, small⟩
  simp only [Finset.sum_range_succ, Finset.sum_range_zero, Finset.sum_const_zero, Pi.add_apply, Finset.sum_apply, zero_add] at here
  rw [reduceAdd, loop_accumulate, zero_add, Finset.sum_add_distrib, here, Finset.range_eq_Ico]
  rfl

omit [DecidableEq R] in
theorem pair_tail (doConj : Bool) {allowed : Set Nat} {c rest : Nat} (rowX : rowCells x (2 * m) ⊆ allowed)
    (row : rowCells (columnAt 2 a lda 0 c) (2 * m) ⊆ allowed) (inside : rest ≤ m) :
    (∀ sum, (whileFits 1 rest m (fun tail (sum : Cplx R) => do
        let av ← getComplex (cellsFrom (columnAt 2 a lda 0 c)) tail
        let xi ← getComplex (cellsFrom x) tail
        pure (sum + (if doConj then ⟨av.re, -av.im⟩ else av) * xi)) sum).Within allowed (fun _ => True)) ∧
      ∀ sum (memory : Nat → R), (whileFits 1 rest m (fun tail (sum : Cplx R) => do
        let av ← getComplex (cellsFrom (columnAt 2 a lda 0 c)) tail
        let xi ← getComplex (cellsFrom x) tail
        pure (sum + (if doConj then ⟨av.re, -av.im⟩ else av) * xi)) sum).run memory =
      (sum + ∑ i ∈ Finset.Ico rest m, conjIf doConj (complexAt memory (columnAt 2 a lda 0 c) i) * complexAt memory x i, memory) := by
  have works := works_while id (sum_sound (fun (memory : Nat → R) i =>
      conjIf doConj (complexAt memory (columnAt 2 a lda 0 c) i) * complexAt memory x i) allowed 1 m)
    (fun tail (sum : Cplx R) => do
        let av ← getComplex (cellsFrom (columnAt 2 a lda 0 c)) tail
        let xi ← getComplex (cellsFrom x) tail
        pure (sum + (if doConj then ⟨av.re, -av.im⟩ else av) * xi)) (one_dvd 1) (one_dvd rest) inside (Nat.le_refl m)
    (fun i _ fits => sum_single _ (fun _ => (within_get_complex row (by omega)).bind (fun _ _ =>
      (within_get_complex rowX (by omega)).bind (fun _ _ => trivial))) (fun sum memory => by
        rw [Finset.sum_range_one]
        rfl))
  rw [reached_last (one_dvd rest) (one_dvd m) inside] at works
  refine ⟨works.inside, fun sum memory => ?_⟩
  obtain ⟨total, final, ran, kept, gathered⟩ := works.works sum memory trivial
  have same : final = memory := funext fun other => kept.kept other (fun cell => cell.elim)
  rw [ran, same, ← id_eq total, gathered]
  rfl

theorem trans_pair {j : Nat} (even : 2 ∣ cfg.laneCount) (fits : j + 2 ≤ n)
    (apartA : Disjoint (rowCells y (2 * n)) (entryCells 2 a lda m n))
    (apartX : Disjoint (rowCells y (2 * n)) (rowCells x (2 * m))) :
    Fills (rowCells y (2 * n) ∪ (entryCells 2 a lda m n ∪ rowCells x (2 * m))) (fun _ => True) (elementAt 2 y)
      (complexDot doConj alpha a lda x m) (block 0 2 j (j + 2))
      (complexGemvTransPair cfg m alpha (cellsFrom a) lda (cellsFrom x) (cellsFrom y) doConj j) := by
  have rowX : rowCells x (2 * m) ⊆ rowCells y (2 * n) ∪ (entryCells 2 a lda m n ∪ rowCells x (2 * m)) :=
    Set.subset_union_right.trans Set.subset_union_right
  have rows : ∀ col, col < 2 → rowCells (columnAt 2 a lda 0 (j + col)) (2 * m) ⊆
      rowCells y (2 * n) ∪ (entryCells 2 a lda m n ∪ rowCells x (2 * m)) :=
    fun col small place member => .inr (.inl (column_cells (by omega) member))
  have whole : 2 ∣ reached cfg.laneCount (reached (cfg.laneCount * 2) 0 (2 * m)) (2 * m) :=
    reached_dvd even (reached_dvd (even.mul_right 2) (Nat.dvd_zero 2))
  have inside : reached cfg.laneCount (reached (cfg.laneCount * 2) 0 (2 * m)) (2 * m) ≤ 2 * m :=
    reached_le (reached_le (Nat.zero_le _))
  obtain ⟨gather, gathers⟩ := trans_accs (R := R) doConj even rowX rows
  rw [complexGemvTransPair]
  dsimp only
  generalize reached cfg.laneCount (reached (cfg.laneCount * 2) 0 (2 * m)) (2 * m) = i at whole inside gathers ⊢
  obtain ⟨group, rfl⟩ := whole
  refine fills_after_gather (fun accs memory => ∀ col, col < 2 →
      reduceAdd cfg.laneCount (fun lane => accs 0 col lane + accs 1 col lane) = ∑ i ∈ Finset.range group,
        conjIf doConj (complexAt memory (columnAt 2 a lda 0 (j + col)) i) * complexAt memory x i) gather
    (fun memory _ => ?_) (fun accs => ?_)
  · obtain ⟨accs, ran, sums⟩ := gathers memory
    exact ⟨accs, ran, fun col small => (sums col small).trans (dot_terms doConj memory)⟩
  · refine fills_each (complex_dot_frame apartA apartX ?_) fits (Nat.le_refl 2) (fun col small => ?_)
    · rintro before after agree ⟨_, held⟩
      refine ⟨trivial, fun col small => (held col small).trans (Finset.sum_congr rfl (fun i member => ?_))⟩
      have small' := Finset.mem_range.mp member
      rw [complex_entry_same agree apartA (by omega) (by omega), complex_same agree apartX Set.Subset.rfl (by omega)]
    · have small' : group ≤ m := by omega
      rw [entry_from, Nat.mul_div_cancel_left group Nat.two_pos]
      obtain ⟨tail, tails⟩ := pair_tail (R := R) doConj rowX (rows col small) small'
      refine fills_after_gather (fun sum memory => sum = complexColumnDot doConj a lda x m memory (j + col)) (tail _)
        (fun memory held => ⟨_, tails _ memory, ?_⟩) (fun sum => complex_trans_store (by omega) Set.subset_union_left)
      rw [held.2 col small, Finset.sum_range_add_sum_Ico _ (by omega), complexColumnDot]

theorem complex_trans_block {cols j : Nat} (even : 2 ∣ cfg.laneCount) (fits : j + cols ≤ n)
    (apartA : Disjoint (rowCells y (2 * n)) (entryCells 2 a lda m n))
    (apartX : Disjoint (rowCells y (2 * n)) (rowCells x (2 * m))) :
    Fills (rowCells y (2 * n) ∪ (entryCells 2 a lda m n ∪ rowCells x (2 * m))) (fun _ => True) (elementAt 2 y)
      (complexDot doConj alpha a lda x m) (block 0 2 j (j + cols))
      (complexGemvTransCols cfg cols m alpha (cellsFrom a) lda (cellsFrom x) (cellsFrom y) doConj j) := by
  have frame : Frame (fun _ => True) (elementAt 2 y) (complexDot doConj alpha a lda x m) (block 0 2 0 n) :=
    complex_dot_frame apartA apartX (fun _ _ _ held => held)
  rw [complexGemvTransCols]
  split
  · have paired : j + 2 * (cols / 2) ≤ j + cols := by omega
    have pairs := (chain_fold (fun first last program => Fills (rowCells y (2 * n) ∪ (entryCells 2 a lda m n ∪
        rowCells x (2 * m))) (fun _ => True) (elementAt 2 y) (complexDot doConj alpha a lda x m) (block 0 2 first last) program)
      (fun pair => j + pair * 2) (cols / 2)
      (fun pair => complexGemvTransPair cfg m alpha (cellsFrom a) lda (cellsFrom x) (cellsFrom y) doConj (j + pair * 2))
      (fun _ => fills_nothing.of_eq no_columns)
      (fun _ _ _ _ _ early late low high bounded => early.across late frame low high bounded (Nat.le_refl 2))
      (fun pair _ => by omega) (by omega) (fun pair small => by
        have next : j + (pair + 1) * 2 = j + pair * 2 + 2 := by omega
        rw [next]
        exact trans_pair even (by omega) apartA apartX)).1
    rw [Nat.zero_mul, Nat.add_zero] at pairs
    split
    · rename_i odd
      have last : j + cols - 1 = j + cols / 2 * 2 := by omega
      have column : Fills (rowCells y (2 * n) ∪ (entryCells 2 a lda m n ∪ rowCells x (2 * m))) (fun _ => True) (elementAt 2 y)
          (complexDot doConj alpha a lda x m) (block 0 2 (j + cols / 2 * 2) (j + cols / 2 * 2 + 1))
          (complexGemvTransColumn cfg m alpha (cellsFrom a) lda (cellsFrom x) (cellsFrom y) doConj (j + cols / 2 * 2)) :=
        complex_trans_column even (by omega)
      have stop : j + cols / 2 * 2 + 1 = j + cols := by omega
      rw [stop] at column
      rw [last]
      exact pairs.across column frame (by omega) (by omega) fits (Nat.le_refl 2)
    · have all : j + cols / 2 * 2 = j + cols := by omega
      rw [all] at pairs
      exact pairs.across (fills_nothing.of_eq no_columns) frame (by omega) (Nat.le_refl _) fits (Nat.le_refl 2)
  · exact fills_each frame fits (Nat.le_refl 2) (fun col small => complex_trans_column even (by omega))

end Complex

end Zynum.FixedMatrix

