import Zynum.MatrixMatrix.RankUpdateExact
import Zynum.Abi.Arguments

set_option autoImplicit false

/- When the routes of a rank update agree: the column route follows the transpose
   it is given, the blocked route only knows the transpose of its routine. -/
namespace Zynum

open ArrayProgram

variable {T : Type} [CommRing T] [Scalar T]

section Columns

theorem stored_rows (uplo : Triangle) (n i j : Nat) (inside : j < n) :
    storedFirst uplo j ≤ i ∧ i < storedEnd uplo n j ↔ i < n ∧ stored uplo i j = true := by
  rw [stored_iff]
  cases uplo <;> simp only [storedFirst, storedEnd, if_true, reduceCtorEq, if_false, true_and, false_and, or_false, false_or] <;>
    omega

omit [CommRing T] in
theorem stored_column_updates (P : RankProblem T) (admissible : P.Admissible) (value : Nat × Nat → T → T) (j : Nat)
    (inside : j < P.n) :
    Updates {cell | cell ∈ P.cells ∧ cell.2 = j} (cellAddress P.ldc) value
      (loopRange (storedFirst P.uplo j) (storedEnd P.uplo P.n j) (fun i c =>
        Function.update c (matIndex P.ldc i j) (value (i, j) (c (matIndex P.ldc i j))))) := by
  have image : (fun i => (i, j)) '' Set.Ico (storedFirst P.uplo j) (storedEnd P.uplo P.n j) =
      {cell | cell ∈ P.cells ∧ cell.2 = j} := by
    ext ⟨i, j'⟩
    constructor
    · rintro ⟨i', member, same⟩
      cases same
      have row := (stored_rows P.uplo P.n i j inside).mp member
      exact ⟨⟨⟨row.1, inside⟩, row.2⟩, rfl⟩
    · rintro ⟨⟨⟨inRows, _⟩, kept⟩, same⟩
      have place : j' = j := same
      subst place
      exact ⟨i, (stored_rows P.uplo P.n i j' inside).mpr ⟨inRows, kept⟩, rfl⟩
  have injective : Set.InjOn (fun i => cellAddress P.ldc (i, j)) (Set.Ico (storedFirst P.uplo j) (storedEnd P.uplo P.n j)) := by
    intro i inFirst i' inSecond same
    have first := (stored_rows P.uplo P.n i j inside).mp inFirst
    have second := (stored_rows P.uplo P.n i' j inside).mp inSecond
    exact congrArg Prod.fst (cells_injective P admissible (show (i, j) ∈ P.cells from ⟨⟨first.1, inside⟩, first.2⟩)
      (show (i', j) ∈ P.cells from ⟨⟨second.1, inside⟩, second.2⟩) same)
  exact (Updates.reindex (fun i => (i, j)) (updates_range (storedFirst P.uplo j) (storedEnd P.uplo P.n j)
    (fun i => cellAddress P.ldc (i, j)) (fun i => value (i, j)) injective)).congr image (fun _ _ _ => rfl)

omit [CommRing T] in
theorem stored_columns_updates (P : RankProblem T) (admissible : P.Admissible) (value : Nat × Nat → T → T) :
    Updates P.cells (cellAddress P.ldc) value
      (loop P.n (fun j => loopRange (storedFirst P.uplo j) (storedEnd P.uplo P.n j) (fun i c =>
        Function.update c (matIndex P.ldc i j) (value (i, j) (c (matIndex P.ldc i j)))))) :=
  Updates.loop_by_class P.cells Prod.snd P.n _ (stored_column_updates P admissible value) (fun _ member => member.1.2)
    (cells_injective P admissible)

omit [CommRing T] in
theorem stored_tasks_updates (P : RankProblem T) (admissible : P.Admissible) (value : Nat × Nat → T → T) (taskCount : Nat)
    (some : 0 < taskCount) (order : List Nat) (complete : order.Perm (List.range taskCount)) :
    Updates P.cells (cellAddress P.ldc) value (fun c => order.foldl (fun current taskIndex =>
      strideLoop taskIndex P.n taskCount (fun j => loopRange (storedFirst P.uplo j) (storedEnd P.uplo P.n j) (fun i c =>
        Function.update c (matIndex P.ldc i j) (value (i, j) (c (matIndex P.ldc i j))))) current) c) :=
  Updates.strided_tasks P.cells Prod.snd P.n taskCount order _ some complete (stored_column_updates P admissible value)
    (fun _ member => member.1.2) (cells_injective P admissible)

end Columns

variable [LawfulScalar T]

def RankProblem.idle (P : RankProblem T) : Prop := P.k = 0 ∨ P.alpha = 0

theorem idle_update (P : RankProblem T) (idle : P.idle) (i j : Nat) : P.update i j = 0 := by
  rcases idle with none | nothing
  · simp only [RankProblem.update, none, Finset.range_zero, Finset.sum_empty, mul_zero, add_zero, ite_self]
  · simp only [RankProblem.update, nothing, conjugateIf_zero, zero_mul, add_zero, ite_self]

theorem scale_stored_triangle_updates (P : RankProblem T) (admissible : P.Admissible) (idle : P.idle) :
    Updates P.cells (cellAddress P.ldc) P.target (fun c => scaleStoredTriangle P.uplo P.n P.beta c P.ldc P.herm) :=
  (stored_columns_updates P admissible (fun cell old =>
    clearImaginary (P.onDiagonal cell) (scaledStoredValue P.beta old (P.onDiagonal cell)))).congr rfl (fun cell old _ => by
      rw [← committed_value P admissible, idle_update P idle, zero_add])

theorem scale_stored_rank_updates (P : RankProblem T) (admissible : P.Admissible) (idle : P.idle) :
    Updates P.cells (cellAddress P.ldc) P.target (fun c => scaleStoredRank P.uplo P.n P.beta c P.ldc P.herm) := by
  refine (stored_columns_updates P admissible (fun cell old =>
    scaledStoredValue P.beta old (P.onDiagonal cell))).congr rfl (fun cell old _ => ?_)
  rw [scaled_stored_value_exact, RankProblem.target, RankProblem.keep, idle_update P idle, zero_add]
  cases diagonal : P.onDiagonal cell with
  | false => rfl
  | true =>
    simp only [RankProblem.onDiagonal, Bool.and_eq_true] at diagonal
    simp only [clearImaginary, if_true, admissible.realBeta diagonal.1]

-- The column routes of the two routines, for the operands of a problem.
def RankProblem.columns (P : RankProblem T) : Nat → Nat → Mem T → Mem T :=
  if P.rankTwo then runSyr2kColumns P.uplo P.mode P.n P.k P.alpha P.a P.lda P.b P.ldb P.beta P.ldc P.herm
  else runSyrkColumns P.uplo P.mode P.n P.k P.alpha P.a P.lda P.beta P.ldc P.herm

theorem rank_columns_any_order (P : RankProblem T) (admissible : P.Admissible) (taskCount : Nat) (some : 0 < taskCount)
    (order : List Nat) (complete : order.Perm (List.range taskCount)) :
    Updates P.cells (cellAddress P.ldc) P.target
      (fun c => order.foldl (fun current taskIndex => P.columns taskIndex taskCount current) c) := by
  have computed := stored_tasks_updates P admissible (fun cell old => clearImaginary (P.onDiagonal cell)
    (P.update cell.1 cell.2 + scaledStoredValue P.beta old (P.onDiagonal cell))) taskCount some order complete
  refine (computed.congr rfl (fun cell old _ => committed_value P admissible cell old)).congr_run (fun c => ?_)
  cases kind : P.rankTwo with
  | false =>
    obtain ⟨same, sameStep⟩ := admissible.sameOperand kind
    have sum : ∀ i j, P.alpha * loop P.k (fun p sum => sum + matrixValue P.mode P.a P.lda i p *
        conjugateIf (matrixValue P.mode P.a P.lda j p) P.herm) 0 = P.update i j := by
      intro i j
      rw [loop_accumulate, zero_add]
      simp only [RankProblem.update, kind, Bool.false_eq_true, if_false, add_zero, RankProblem.left, RankProblem.right, same,
        sameStep, matrixValue]
    simp only [RankProblem.columns, kind, Bool.false_eq_true, if_false, runSyrkColumns, sum]
    rfl
  | true =>
    have sum : ∀ i j, (if P.herm = true then
          loop P.k (fun p sum => if P.herm = true then sum + (P.alpha * (matrixValue P.mode P.a P.lda i p *
              conj (matrixValue P.mode P.b P.ldb j p)) + conj P.alpha * (matrixValue P.mode P.b P.ldb i p *
              conj (matrixValue P.mode P.a P.lda j p)))
            else sum + (matrixValue P.mode P.a P.lda i p * matrixValue P.mode P.b P.ldb j p +
              matrixValue P.mode P.b P.ldb i p * matrixValue P.mode P.a P.lda j p)) 0
        else P.alpha * loop P.k (fun p sum => if P.herm = true then sum + (P.alpha * (matrixValue P.mode P.a P.lda i p *
              conj (matrixValue P.mode P.b P.ldb j p)) + conj P.alpha * (matrixValue P.mode P.b P.ldb i p *
              conj (matrixValue P.mode P.a P.lda j p)))
            else sum + (matrixValue P.mode P.a P.lda i p * matrixValue P.mode P.b P.ldb j p +
              matrixValue P.mode P.b P.ldb i p * matrixValue P.mode P.a P.lda j p)) 0) = P.update i j := by
      intro i j
      cases hermitian : P.herm with
      | true =>
        simp only [if_true]
        rw [loop_accumulate, zero_add, Finset.sum_add_distrib, ← Finset.mul_sum, ← Finset.mul_sum]
        simp only [RankProblem.update, kind, hermitian, if_true, conjugateIf, RankProblem.left, RankProblem.right, matrixValue]
      | false =>
        simp only [Bool.false_eq_true, if_false]
        rw [loop_accumulate, zero_add, Finset.sum_add_distrib, mul_add]
        simp only [RankProblem.update, kind, hermitian, if_true, conjugateIf, Bool.false_eq_true, if_false, RankProblem.left,
          RankProblem.right, matrixValue]
    simp only [RankProblem.columns, kind, if_true, runSyr2kColumns, sum]
    rfl

section Blocked

omit [CommRing T] [Scalar T] [LawfulScalar T] in
theorem supported_canonical (P : RankProblem T) (supported : rankTransposeSupport P.herm P.mode = true) : P.canonical = P := by
  have same : canonicalMode P.herm P.mode = P.mode := by
    cases kind : P.mode <;> cases hermitian : P.herm <;> rw [kind, hermitian] at supported <;> first | rfl | exact nomatch supported
  simp only [RankProblem.canonical, same]

omit [CommRing T] [Scalar T] [LawfulScalar T] in
theorem no_order_cells (P : RankProblem T) (none : (P.n : Int) ≤ 0) : P.cells = ∅ := by
  ext cell
  simp only [RankProblem.cells, triangleCells, matrixCells, Set.mem_ofPred_eq, Set.mem_empty_iff_false, iff_false]
  omega

omit [CommRing T] [Scalar T] [LawfulScalar T] in
theorem no_order_attempts (P : RankProblem T) (none : (P.n : Int) ≤ 0) (value : Nat × Nat → T → T) :
    Attempts P.cells (cellAddress P.ldc) value (fun c => (true, c)) := by
  rw [no_order_cells P none]
  exact (updates_nothing _ _).attempts

theorem shortcut_idle (P : RankProblem T) (shortcut : (P.k : Int) ≤ 0 ∨ isZero P.alpha = true) : P.idle :=
  shortcut.imp (fun none => by omega) (LawfulScalar.isZero_iff P.alpha).mp

theorem execute_packed_rank_serial_attempts (P : RankProblem T) (admissible : P.Admissible) (env : Level3Env T) (rt : Runtime)
    (site : Site) (options : Options) :
    Attempts P.cells (cellAddress P.ldc) P.target (fun c => executePackedRankSerial env rt site P.rankTwo options P.uplo P.mode
      P.n P.k P.alpha P.a P.lda P.b P.ldb P.beta c P.ldc P.herm) := by
  refine attempts_guard _ (fun _ => attempts_decline _ _ _) (fun fits => ?_)
  have supported : rankTransposeSupport P.herm P.mode = true := Bool.of_not_eq_false (fun bad => fits (Or.inl bad))
  refine attempts_guard _ (fun _ => attempts_decline _ _ _) (fun _ => ?_)
  refine attempts_guard _ (fun none => no_order_attempts P none _) (fun _ => ?_)
  refine attempts_guard _ (fun shortcut => ?_) (fun active => ?_)
  · exact (scale_stored_triangle_updates P admissible (shortcut_idle P shortcut)).attempts
  · have packed := try_packed_rank_attempts P admissible env rt site options (by omega)
    rw [supported_canonical P supported] at packed
    exact packed

theorem execute_packed_rank_attempts (P : RankProblem T) (admissible : P.Admissible) (env : Level3Env T) (rt : Runtime)
    (site : Site) (parallel : Bool) (options : Options) :
    Attempts P.cells (cellAddress P.ldc) P.target (fun c => executePackedRank env rt site P.rankTwo parallel options P.uplo
      P.mode P.n P.k P.alpha P.a P.lda P.b P.ldb P.beta c P.ldc P.herm) := by
  have serial := execute_packed_rank_serial_attempts P admissible env rt (0 :: site) options
  refine attempts_guard _ (fun _ => serial) (fun _ => ?_)
  refine attempts_guard _ (fun _ => attempts_decline _ _ _) (fun fits => ?_)
  have supported : rankTransposeSupport P.herm P.mode = true := Bool.of_not_eq_false (fun bad => fits (Or.inl bad))
  refine attempts_guard _ (fun _ => attempts_decline _ _ _) (fun _ => ?_)
  refine attempts_guard _ (fun none => no_order_attempts P none _) (fun _ => ?_)
  refine attempts_guard _ (fun shortcut => ?_) (fun _ => ?_)
  · exact (scale_stored_triangle_updates P admissible (shortcut_idle P shortcut)).attempts
  · have packed := try_parallel_packed_rank_attempts P admissible env rt (1 :: site) options
    rw [supported_canonical P supported] at packed
    exact packed.or_try serial

theorem try_rank_blocks_attempts (P : RankProblem T) (admissible : P.Admissible) (env : Level3Env T) (rt : Runtime)
    (site : Site) (options : Options) :
    Attempts P.cells (cellAddress P.ldc) P.canonical.target (fun c => tryRankBlocks env rt site P.rankTwo options P.uplo P.mode
      P.n P.k P.alpha P.a P.lda P.b P.ldb P.beta c P.ldc P.herm) := by
  refine (try_queued_rank_attempts P admissible env rt (0 :: site) options).or_try ?_
  refine attempts_guard _ (fun _ => attempts_decline _ _ _) (fun acquired => ?_)
  have valid := acquired_options rt (1 :: site) options 1 (Bool.of_not_eq_false acquired)
  refine attempts_guard _ (fun _ => ?_) (fun _ => ?_)
  · exact (rank_panels_updates P admissible env rt (2 :: site) options.blockSize valid.1).attempts
  · exact (rank_tiles_updates P admissible env rt (2 :: site) options.blockSize valid.1).attempts

def RankProblem.converted (P : RankProblem T) : RankProblem T :=
  { P with
    mode := .noTrans
    a := packTransposedA P.n P.k P.a P.lda
    lda := P.n
    b := packTransposedA P.n P.k P.b P.ldb
    ldb := P.n }

omit [LawfulScalar T] in
theorem converted_admissible (P : RankProblem T) (admissible : P.Admissible) (some : 0 < P.n) : P.converted.Admissible := by
  have step : (0 : Int) < P.n := by omega
  refine ⟨step, step, admissible.stepc, admissible.bound, admissible.realAlpha, admissible.realBeta, fun kind => ?_⟩
  obtain ⟨same, sameStep⟩ := admissible.sameOperand kind
  exact ⟨by simp only [RankProblem.converted, same, sameStep], rfl⟩

theorem converted_target (P : RankProblem T) (real : isReal T = true) (transposed : P.mode ≠ .noTrans) (cell : Nat × Nat)
    (old : T) (member : cell ∈ P.cells) : P.converted.canonical.target cell old = P.canonical.target cell old := by
  have component : Scalar.isComplex T = false := by simpa only [isReal, Bool.not_eq_true'] using real
  have operand : ∀ (a : Mem T) (lda : Int) (i p : Nat), i < P.n → p < P.k →
      opEntry (canonicalMode P.herm .noTrans) (denseEntry (packTransposedA P.n P.k a lda) (P.n : Int)) i p =
        opEntry (canonicalMode P.herm P.mode) (denseEntry a lda) i p := by
    intro a lda i p inRows inDepth
    have entry := pack_transposed_a_entry P.n P.k a lda i p inRows inDepth
    have flipped : canonicalMode P.herm P.mode ≠ .noTrans := by
      rw [canonicalMode, if_neg transposed]
      cases P.herm <;> simp only [Bool.false_eq_true, if_false, if_true, ne_eq, reduceCtorEq, not_false_eq_true]
    rw [op_entry_transposed flipped, conjugateIf_real real]
    exact entry
  simp only [RankProblem.target, RankProblem.keep, RankProblem.onDiagonal, RankProblem.update, RankProblem.left,
    RankProblem.right]
  have rowA := fun p inDepth => operand P.a P.lda cell.1 p member.1.1 inDepth
  have colA := fun p inDepth => operand P.a P.lda cell.2 p member.1.2 inDepth
  have rowB := fun p inDepth => operand P.b P.ldb cell.1 p member.1.1 inDepth
  have colB := fun p inDepth => operand P.b P.ldb cell.2 p member.1.2 inDepth
  congr 2
  · congr 1
    refine Finset.sum_congr rfl (fun p inside => ?_)
    have inDepth := Finset.mem_range.mp inside
    exact congrArg₂ (fun x y => x * conjugateIf y P.herm) (rowA p inDepth) (colB p inDepth)
  · change (if P.rankTwo = true then _ else _) = (if P.rankTwo = true then _ else _)
    split
    · congr 1
      refine Finset.sum_congr rfl (fun p inside => ?_)
      have inDepth := Finset.mem_range.mp inside
      exact congrArg₂ (fun x y => x * conjugateIf y P.herm) (rowB p inDepth) (colA p inDepth)
    · rfl

theorem try_rank_blocked_attempts (P : RankProblem T) (admissible : P.Admissible) (env : Level3Env T) (rt : Runtime)
    (site : Site) (options : Options) (unpacked : options.packedRankPanels = false) :
    Attempts P.cells (cellAddress P.ldc) P.canonical.target (fun c => tryRank env rt site P.rankTwo options P.uplo P.mode
      P.n P.k P.alpha P.a P.lda P.b P.ldb P.beta c P.ldc P.herm) := by
  refine attempts_guard _ (fun none => no_order_attempts P none _) (fun some => ?_)
  refine attempts_guard _ (fun shortcut => ?_) (fun _ => ?_)
  · exact (scale_stored_triangle_updates P.canonical admissible.canonical (shortcut_idle P shortcut)).attempts
  refine attempts_guard _ (fun packed => ?_) (fun _ => ?_)
  · rw [unpacked] at packed
    exact nomatch packed
  refine attempts_guard _ (fun gate => ?_) (fun _ => try_rank_blocks_attempts P admissible env rt (3 :: site) options)
  refine attempts_guard _ (fun _ => attempts_decline _ _ _) (fun _ => ?_)
  have blocks := try_rank_blocks_attempts P.converted (converted_admissible P admissible (by omega)) env rt (2 :: site) options
  refine Attempts.congr ?_ (fun cell old member => converted_target P gate.2.1 gate.2.2.1 cell old member)
  exact blocks

theorem try_rank_packed_attempts (P : RankProblem T) (admissible : P.Admissible) (env : Level3Env T) (rt : Runtime)
    (site : Site) (options : Options) (packed : options.packedRankPanels = true) :
    Attempts P.cells (cellAddress P.ldc) P.target (fun c => tryRank env rt site P.rankTwo options P.uplo P.mode
      P.n P.k P.alpha P.a P.lda P.b P.ldb P.beta c P.ldc P.herm) := by
  refine attempts_guard _ (fun none => no_order_attempts P none _) (fun _ => ?_)
  refine attempts_guard _ (fun shortcut => ?_) (fun _ => ?_)
  · exact (scale_stored_triangle_updates P admissible (shortcut_idle P shortcut)).attempts
  exact attempts_guard _ (fun _ => execute_packed_rank_attempts P admissible env rt (0 :: site) _ options)
    (fun unpacked => absurd packed unpacked)

end Blocked

section Agreement

-- The call of an export: a Hermitian routine widens its real scalars, a rank-one
-- update passes its operand twice.
def rankCall (rankTwo herm : Bool) (uplo trans : Char) (n k : Int) (alpha : T) (a : Mem T) (lda : Int) (b : Mem T) (ldb : Int)
    (beta : T) (ldc : Int) : RankProblem T where
  rankTwo := rankTwo
  herm := herm
  uplo := parseUplo uplo
  mode := parseTrans trans
  n := toUsize n
  k := toUsize k
  alpha := if herm && !rankTwo then realOnly alpha else alpha
  a := a
  lda := lda
  b := if rankTwo then b else a
  ldb := if rankTwo then ldb else lda
  beta := if herm then realOnly beta else beta
  ldc := ldc

def rankError (rankTwo : Bool) (uplo trans : Char) (n k lda ldb ldc : Int) : Int :=
  if rankTwo then rank2KMatrixError uplo trans n k lda ldb ldc else rankKMatrixError uplo trans n k lda ldc

def RankProblem.tryBlocked (P : RankProblem T) (env : Level3Env T) (rt : Runtime) (site : Site) (options : Options) (c : Mem T) :
    Bool × Mem T :=
  if P.rankTwo then
    trySyr2k env rt site options P.uplo P.mode P.n P.k P.alpha P.a P.lda P.b P.ldb P.beta c P.ldc P.herm
  else trySyrk env rt site options P.uplo P.mode P.n P.k P.alpha P.a P.lda P.beta c P.ldc P.herm

def RankProblem.routine (P : RankProblem T) (env : Level3Env T) (rt : Runtime) (site : Site) (c : Mem T) : Mem T :=
  if P.rankTwo then syr2k env rt site P.uplo P.mode P.n P.k P.alpha P.a P.lda P.b P.ldb P.beta c P.ldc P.herm
  else syrk env rt site P.uplo P.mode P.n P.k P.alpha P.a P.lda P.beta c P.ldc P.herm

structure RankRoutesAgree (env : Level3Env T) (P : RankProblem T) : Prop where
  columns : ∀ (taskCount : Nat) (order : List Nat), 0 < taskCount → order.Perm (List.range taskCount) →
    Updates P.cells (cellAddress P.ldc) P.target
      (fun c => order.foldl (fun current taskIndex => P.columns taskIndex taskCount current) c)
  blocked : ∀ rt site options, Attempts P.cells (cellAddress P.ldc) P.target (P.tryBlocked env rt site options)
  packed : ∀ rt site parallel options, Attempts P.cells (cellAddress P.ldc) P.target (fun c =>
    executePackedRank env rt site P.rankTwo parallel options P.uplo P.mode P.n P.k P.alpha P.a P.lda P.b P.ldb P.beta c P.ldc
      P.herm)
  whole : ∀ rt site, Updates P.cells (cellAddress P.ldc) P.target (P.routine env rt site)

def RankProblem.gram (P : RankProblem T) (i j : Nat) : T :=
  ∑ p ∈ Finset.range P.k, P.a (matIndex P.lda p i) * conjugateIf (P.b (matIndex P.ldb p j)) P.herm

def RankProblem.mirroredGram (P : RankProblem T) (i j : Nat) : T :=
  ∑ p ∈ Finset.range P.k, P.b (matIndex P.ldb p i) * conjugateIf (P.a (matIndex P.lda p j)) P.herm

def RankProblem.combine (P : RankProblem T) (first second : T) : T :=
  P.alpha * first + if P.rankTwo then conjugateIf P.alpha P.herm * second else 0

-- The transpose belongs to the routine, or conjugating the products does not show.
def RankProblem.transposeHarmless (P : RankProblem T) : Prop :=
  rankTransposeSupport P.herm P.mode = true ∨
    ∀ i j, i < P.n → j < P.n → stored P.uplo i j = true →
      P.combine (P.gram i j) (P.mirroredGram i j) = P.combine (conj (P.gram i j)) (conj (P.mirroredGram i j))

def RankProblem.agrees (P : RankProblem T) : Prop :=
  ∀ i j, i < P.n → j < P.n → stored P.uplo i j = true → P.update i j = P.canonical.update i j

theorem conj_gram (P : RankProblem T) (i j : Nat) :
    conj (P.gram i j) = ∑ p ∈ Finset.range P.k, conj (P.a (matIndex P.lda p i)) *
      conjugateIf (conj (P.b (matIndex P.ldb p j))) P.herm := by
  rw [RankProblem.gram, conj_sum]
  refine Finset.sum_congr rfl (fun p _ => ?_)
  rw [LawfulScalar.conj_mul]
  cases P.herm <;> rfl

theorem conj_mirrored_gram (P : RankProblem T) (i j : Nat) :
    conj (P.mirroredGram i j) = ∑ p ∈ Finset.range P.k, conj (P.b (matIndex P.ldb p i)) *
      conjugateIf (conj (P.a (matIndex P.lda p j))) P.herm := by
  rw [RankProblem.mirroredGram, conj_sum]
  refine Finset.sum_congr rfl (fun p _ => ?_)
  rw [LawfulScalar.conj_mul]
  cases P.herm <;> rfl

omit [LawfulScalar T] in
theorem update_trans (P : RankProblem T) (mode : P.mode = .trans) (i j : Nat) :
    P.update i j = P.combine (P.gram i j) (P.mirroredGram i j) := by
  simp only [RankProblem.update, RankProblem.combine, RankProblem.left, RankProblem.right, mode, opEntry, denseEntry,
    RankProblem.gram, RankProblem.mirroredGram]

theorem update_conj_trans (P : RankProblem T) (mode : P.mode = .conjTrans) (i j : Nat) :
    P.update i j = P.combine (conj (P.gram i j)) (conj (P.mirroredGram i j)) := by
  simp only [conj_gram, conj_mirrored_gram, RankProblem.update, RankProblem.combine, RankProblem.left, RankProblem.right, mode,
    opEntry, denseEntry]

theorem transpose_harmless_iff (P : RankProblem T) : P.transposeHarmless ↔ P.agrees := by
  by_cases supported : rankTransposeSupport P.herm P.mode = true
  · have same := supported_canonical P supported
    exact ⟨fun _ i j _ _ _ => by rw [same], fun _ => Or.inl supported⟩
  · rw [RankProblem.transposeHarmless, or_iff_right supported, RankProblem.agrees]
    refine forall_congr' (fun i => forall_congr' (fun j => forall_congr' (fun _ => forall_congr' (fun _ =>
      forall_congr' (fun _ => ?_)))))
    cases kind : P.mode with
    | noTrans =>
      rw [kind] at supported
      exact absurd rfl supported
    | trans =>
      cases hermitian : P.herm with
      | false =>
        rw [kind, hermitian] at supported
        exact absurd rfl supported
      | true =>
        have other : P.canonical.mode = .conjTrans := by
          simp only [RankProblem.canonical, canonicalMode, kind, hermitian, reduceCtorEq, if_false, if_true]
        rw [update_trans P kind, update_conj_trans P.canonical other]
        exact Iff.rfl
    | conjTrans =>
      cases hermitian : P.herm with
      | true =>
        rw [kind, hermitian] at supported
        exact absurd rfl supported
      | false =>
        have other : P.canonical.mode = .trans := by
          simp only [RankProblem.canonical, canonicalMode, kind, hermitian, reduceCtorEq, if_false, Bool.false_eq_true]
        rw [update_conj_trans P kind, update_trans P.canonical other]
        exact eq_comm

omit [LawfulScalar T] in
theorem agreeing_target (P : RankProblem T) (agrees : P.agrees) (cell : Nat × Nat) (old : T) (member : cell ∈ P.cells) :
    P.canonical.target cell old = P.target cell old := by
  simp only [RankProblem.target]
  rw [agrees cell.1 cell.2 member.1.1 member.1.2 member.2]
  rfl

theorem try_rank_attempts (P : RankProblem T) (admissible : P.Admissible) (agrees : P.agrees) (env : Level3Env T) (rt : Runtime)
    (site : Site) (options : Options) :
    Attempts P.cells (cellAddress P.ldc) P.target (fun c => tryRank env rt site P.rankTwo options P.uplo P.mode
      P.n P.k P.alpha P.a P.lda P.b P.ldb P.beta c P.ldc P.herm) := by
  cases packed : options.packedRankPanels with
  | true => exact try_rank_packed_attempts P admissible env rt site options packed
  | false =>
    exact (try_rank_blocked_attempts P admissible env rt site options packed).congr
      (fun cell old member => agreeing_target P agrees cell old member)

-- The packed candidate declines a transpose that is not its routine's, so only the
-- blocked route of x86_64 can take the other one.
theorem rank_dispatch_updates (P : RankProblem T) (admissible : P.Admissible) (env : Level3Env T) (rt : Runtime) (site : Site)
    (macShape : Bool) (agrees : env.capability = .x86Avx2Fma → 128 ≤ P.n → 64 ≤ P.k → P.agrees) :
    Updates P.cells (cellAddress P.ldc) P.target (fun c => rankDispatch env rt site P.rankTwo macShape P.columns P.uplo P.mode
      P.n P.k P.alpha P.a P.lda P.b P.ldb P.beta c P.ldc P.herm) := by
  refine updates_guard _ (fun none => ?_) (fun _ => ?_)
  · rw [no_order_cells P none]
    exact updates_nothing _ _
  refine updates_guard _ (fun shortcut => ?_) (fun _ => ?_)
  · exact scale_stored_rank_updates P admissible (shortcut_idle P (shortcut.imp_left (fun zero => zero.le)))
  refine Attempts.or_else (Attempts.or_try ?_ ?_) ?_
  · exact attempts_guard _ (fun _ => try_rank_packed_attempts P admissible env rt _ _ rfl) (fun _ => attempts_decline _ _ _)
  · refine attempts_guard _ (fun gate => ?_) (fun _ => attempts_decline _ _ _)
    have order : 128 ≤ P.n := by
      have wide := gate.2.1
      omega
    have depth : 64 ≤ P.k := by
      have deep := gate.2.2.1
      omega
    exact try_rank_attempts P admissible (agrees gate.2.2.2.2 order depth) env rt _ _
  · have serial : Updates P.cells (cellAddress P.ldc) P.target (P.columns 0 1) :=
      rank_columns_any_order P admissible 1 Nat.zero_lt_one [0] (List.Perm.refl _)
    simp only [toUsize, Int.toNat_natCast]
    refine updates_guard _ (fun several => ?_) (fun _ => serial)
    refine attempt_updates _ (fun before after accepted => ?_) serial
    obtain ⟨order, complete, rfl⟩ := run_tasks_accepted accepted
    exact (rank_columns_any_order P admissible _ (Nat.zero_lt_of_lt several) order complete).wrote before

omit [LawfulScalar T] in
theorem try_blocked_eq (P : RankProblem T) (admissible : P.Admissible) (env : Level3Env T) (rt : Runtime) (site : Site)
    (options : Options) (c : Mem T) :
    P.tryBlocked env rt site options c = tryRank env rt site P.rankTwo options P.uplo P.mode P.n P.k P.alpha P.a P.lda P.b P.ldb
      P.beta c P.ldc P.herm := by
  cases kind : P.rankTwo with
  | true => simp only [RankProblem.tryBlocked, kind, if_true, trySyr2k]
  | false =>
    obtain ⟨same, sameStep⟩ := admissible.sameOperand kind
    simp only [RankProblem.tryBlocked, kind, Bool.false_eq_true, if_false, trySyrk, same, sameStep]

omit [LawfulScalar T] in
theorem routine_eq (P : RankProblem T) (admissible : P.Admissible) (env : Level3Env T) (rt : Runtime) (site : Site) (c : Mem T) :
    ∃ macShape, P.routine env rt site c = rankDispatch env rt site P.rankTwo macShape P.columns P.uplo P.mode P.n P.k P.alpha
      P.a P.lda P.b P.ldb P.beta c P.ldc P.herm := by
  cases kind : P.rankTwo with
  | true =>
    refine ⟨true, ?_⟩
    simp only [RankProblem.routine, RankProblem.columns, kind, if_true, syr2k, toUsize, Int.toNat_natCast]
  | false =>
    obtain ⟨same, sameStep⟩ := admissible.sameOperand kind
    refine ⟨!isComplexF64 T || decide ((P.n : Int) ≥ 128) || decide ((P.k : Int) ≥ 64), ?_⟩
    simp only [RankProblem.routine, RankProblem.columns, kind, Bool.false_eq_true, if_false, syrk, toUsize, Int.toNat_natCast,
      same, sameStep]

theorem routine_updates (P : RankProblem T) (admissible : P.Admissible) (env : Level3Env T) (rt : Runtime) (site : Site)
    (agrees : env.capability = .x86Avx2Fma → 128 ≤ P.n → 64 ≤ P.k → P.agrees) :
    Updates P.cells (cellAddress P.ldc) P.target (P.routine env rt site) := by
  refine updates_of_wrote (fun c => ?_)
  obtain ⟨macShape, same⟩ := routine_eq P admissible env rt site c
  rw [same]
  exact (rank_dispatch_updates P admissible env rt site macShape agrees).wrote c

-- A process whose allocations succeed and whose blocked route is the tile route.
def Runtime.roomy : Runtime := { Runtime.sequential with arch := .other }

theorem roomy_workspace (T : Type) [Scalar T] (site : Site) (blockSize : Nat) (block : blockSize = 64 ∨ blockSize = 128) :
    acquireWorkspace T Runtime.roomy site { blockSize := blockSize } 1 = true := by
  have elements : workspaceElements { blockSize := blockSize } 1 = some (blockSize * blockSize) := by
    rcases block with rfl | rfl <;> rfl
  have small : blockSize * blockSize ≤ 16384 := by
    rcases block with rfl | rfl <;> decide
  have size : sizeOf T ≤ 16 := by
    simp only [sizeOf]
    split <;> split <;> omega
  have bytes := Nat.mul_le_mul small size
  simp only [acquireWorkspace, elements, Bool.and_eq_true, decide_eq_true_eq]
  refine ⟨⟨?_, ?_⟩, rfl⟩
  · simp only [usizeMax]
    omega
  · simp only [usizeMax]
    omega

omit [LawfulScalar T] in
theorem roomy_blocked_runs (P : RankProblem T) (admissible : P.Admissible) (env : Level3Env T) (c : Mem T) (some : 0 < P.n)
    (active : ¬ ((P.k : Int) ≤ 0 ∨ isZero P.alpha = true)) : (P.tryBlocked env Runtime.roomy [] {} c).1 = true := by
  rw [try_blocked_eq P admissible, tryRank, if_neg (by omega)]
  simp only
  rw [if_neg active, if_neg Bool.false_ne_true, if_neg (fun gate => absurd gate.1 (by decide))]
  have roomy : ¬ acquireWorkspace T Runtime.roomy [1, 3] {} 1 = false := by
    rw [roomy_workspace T [1, 3] 64 (.inl rfl)]
    decide
  simp only [tryRankBlocks, orTry, tryQueuedRank]
  rw [if_pos (Or.inl (by decide)), if_neg Bool.false_ne_true, if_neg roomy, if_neg (fun gate => by
    rcases gate with x86 | direct
    · exact absurd x86 (by decide)
    · exact absurd direct (by decide))]

theorem rank_routes_agree_iff (P : RankProblem T) (admissible : P.Admissible) (env : Level3Env T) :
    RankRoutesAgree env P ↔ P.agrees := by
  constructor
  · intro routes i j inRows inColumns kept
    by_cases active : (P.k : Int) ≤ 0 ∨ isZero P.alpha = true
    · rw [idle_update P (shortcut_idle P active), idle_update P.canonical (shortcut_idle P active)]
    · have ran := roomy_blocked_runs P admissible env 0 (Nat.zero_lt_of_lt inRows) active
      have expected := (routes.blocked Runtime.roomy [] {}).ran 0 ran
      have blocked := try_rank_blocked_attempts P admissible env Runtime.roomy [] {} rfl
      have actual := (blocked.congr_run (try_blocked_eq P admissible env Runtime.roomy [] {})).ran 0 ran
      have member : (i, j) ∈ P.cells := ⟨⟨inRows, inColumns⟩, kept⟩
      have equal := (expected.written (i, j) member).symm.trans (actual.written (i, j) member)
      exact add_right_cancel equal
  · intro agrees
    refine ⟨fun taskCount order some complete => rank_columns_any_order P admissible taskCount some order complete, fun rt
      site options => ?_,
      execute_packed_rank_attempts P admissible env, fun rt site => routine_updates P admissible env rt site (fun _ _ _ => agrees)⟩
    exact (try_rank_attempts P admissible agrees env rt site options).congr_run (try_blocked_eq P admissible env rt site options)

theorem rank_call_admissible (rankTwo herm : Bool) (uplo trans : Char) (n k : Int) (alpha : T) (a : Mem T) (lda : Int) (b : Mem T)
    (ldb : Int) (beta : T) (ldc : Int) (accepted : rankError rankTwo uplo trans n k lda ldb ldc = 0) :
    (rankCall rankTwo herm uplo trans n k alpha a lda b ldb beta ldc).Admissible := by
  have steps : 0 < lda ∧ 0 < (if rankTwo = true then ldb else lda) ∧ 0 < ldc ∧ 0 ≤ n ∧ n ≤ ldc := by
    cases rankTwo with
    | false =>
      obtain ⟨order, stepa, stepc, bound⟩ := rank_k_matrix_accepted_bounds uplo trans n k lda ldc accepted
      exact ⟨stepa, stepa, stepc, order, bound⟩
    | true =>
      obtain ⟨order, stepa, stepb, stepc, bound⟩ := rank_2k_matrix_accepted_bounds uplo trans n k lda ldb ldc accepted
      exact ⟨stepa, stepb, stepc, order, bound⟩
  obtain ⟨stepa, stepb, stepc, order, bound⟩ := steps
  refine ⟨stepa, stepb, stepc, ?_, fun hermitian one => ?_, fun hermitian => ?_, fun one => ?_⟩
  · simp only [rankCall, toUsize]
    omega
  · simp only [rankCall] at hermitian one ⊢
    rw [hermitian, one]
    exact LawfulScalar.realOnly_idem alpha
  · simp only [rankCall] at hermitian ⊢
    rw [hermitian]
    exact LawfulScalar.realOnly_idem beta
  · simp only [rankCall] at one ⊢
    rw [one]
    exact ⟨rfl, rfl⟩

theorem rank_routes_agree_exactly (env : Level3Env T) (rankTwo herm : Bool) (uplo trans : Char) (n k : Int) (alpha : T)
    (a : Mem T) (lda : Int) (b : Mem T) (ldb : Int) (beta : T) (ldc : Int)
    (accepted : rankError rankTwo uplo trans n k lda ldb ldc = 0) :
    let P := rankCall rankTwo herm uplo trans n k alpha a lda b ldb beta ldc
    (RankRoutesAgree env P ∧ ∀ i old, P.herm = true → realOnly (P.target (i, i) old) = P.target (i, i) old) ↔
      P.transposeHarmless := by
  intro P
  have admissible : P.Admissible := rank_call_admissible rankTwo herm uplo trans n k alpha a lda b ldb beta ldc accepted
  rw [transpose_harmless_iff, ← rank_routes_agree_iff P admissible env]
  exact and_iff_left (fun i old hermitian => target_diagonal_real P admissible hermitian i old)

theorem rank_routes_agree_exactly_small :
    let _ := realKind Int .double
    let _ := real_kind_lawful Int .double
    RankRoutesAgree (Level3Env.portable Int)
      (rankCall false false 'U' 'C' 2 3 (5 : Int) (fun p => (p : Int)) 3 (fun p => (p : Int)) 3 7 2) := by
  intro kind lawful
  exact ((rank_routes_agree_exactly (Level3Env.portable Int) false false 'U' 'C' 2 3 (5 : Int) (fun p => (p : Int)) 3
    (fun p => (p : Int)) 3 7 2 (by decide)).mpr (Or.inr (fun _ _ _ _ _ => rfl))).1

end Agreement

section Transposed

def Level3Env.avx2 (T : Type) [CommRing T] [Scalar T] [LawfulScalar T] : Level3Env T where
  gemm := GemmRoutine.portable T
  scratch _ _ := 0
  capability := .x86Avx2Fma
  macos := false
  isolatedStructured := true

-- The first row of A is (1, i, 0, ..), everything below is zero.
def transposeOperand : Mem (Cplx Int) := fun p => if p = 0 then 1 else if p = 64 then ⟨0, 1⟩ else 0

omit [LawfulScalar T] in
theorem sequential_queue_declines (P : RankProblem T) (env : Level3Env T) (options : Options) (site : Site) (c : Mem T) :
    tryQueuedRank env Runtime.sequential site P.rankTwo options P.uplo P.mode P.n P.k P.alpha P.a P.lda P.b P.ldb P.beta c P.ldc
      P.herm = (false, c) :=
  if_pos (Or.inr (Or.inr (Or.inr le_rfl)))

omit [LawfulScalar T] in
theorem x86_rank_runs (P : RankProblem T) (env : Level3Env T) (c : Mem T) (complex : Scalar.isComplex T = true) (some : 0 < P.n)
    (active : ¬ ((P.k : Int) ≤ 0 ∨ isZero P.alpha = true)) (site : Site) (blockSize : Nat)
    (block : blockSize = 64 ∨ blockSize = 128) :
    (tryRank env Runtime.sequential site P.rankTwo { blockSize := blockSize } P.uplo P.mode P.n P.k P.alpha P.a P.lda P.b P.ldb P.beta c
      P.ldc P.herm).1 = true := by
  have acquired : ∀ site, ¬ acquireWorkspace T Runtime.sequential site { blockSize := blockSize } 1 = false :=
    fun site bad => nomatch (roomy_workspace T site blockSize block).symm.trans bad
  rw [tryRank, if_neg (by omega)]
  simp only
  rw [if_neg active, if_neg Bool.false_ne_true, if_neg (fun gate => by
    have real := gate.2.1
    simp only [isReal, complex, Bool.not_true, Bool.false_eq_true] at real)]
  simp only [tryRankBlocks, toUsize, Int.toNat_natCast]
  rw [sequential_queue_declines P, orTry, if_neg Bool.false_ne_true, if_neg (acquired _)]
  split <;> rfl

-- A runtime with one thread leaves the column route when the blocked one runs.
theorem x86_routine_blocked (P : RankProblem T) (admissible : P.Admissible) (c : Mem T) (complex : Scalar.isComplex T = true)
    (order : 128 ≤ P.n) (depth : 64 ≤ P.k) (nonzero : isZero P.alpha = false) :
    Wrote P.cells (cellAddress P.ldc) P.canonical.target c (P.routine (Level3Env.avx2 T) Runtime.sequential [] c) := by
  have busy : ¬ ((P.k : Int) ≤ 0 ∨ isZero P.alpha = true) := by
    rintro (none | nothing)
    · omega
    · rw [nonzero] at nothing
      cases nothing
  have block : (if isComplexF32 T = true then 128 else 64) = 64 ∨ (if isComplexF32 T = true then 128 else 64) = 128 := by
    split
    · exact .inr rfl
    · exact .inl rfl
  have ran := x86_rank_runs P (Level3Env.avx2 T) c complex (by omega) busy [2] _ block
  have blocked := (try_rank_blocked_attempts P admissible (Level3Env.avx2 T) Runtime.sequential [2]
    { blockSize := if isComplexF32 T = true then 128 else 64 } rfl).ran c ran
  obtain ⟨macShape, same⟩ := routine_eq P admissible (Level3Env.avx2 T) Runtime.sequential [] c
  rw [same, rankDispatch, if_neg (by omega), if_neg (fun idle => busy (idle.imp_left (fun none => none.le)))]
  simp only
  rw [if_neg (fun gate => by cases gate.1)]
  simp only [orTry, Bool.false_eq_true, if_false]
  rw [if_pos ⟨rfl, by omega, by omega, Or.inl rfl, rfl⟩, orElse, if_neg (show ¬ Runtime.sequential.maxThreads [0] > 1 by decide),
    if_pos ran]
  exact blocked

theorem herk_transpose_routes_differ :
    let _ := complexKind Int .double
    let _ := complex_kind_lawful Int .double
    let P := rankCall false true 'U' 'T' 128 64 (1 : Cplx Int) transposeOperand 64 transposeOperand 64 0 128
    rankError false 'U' 'T' 128 64 64 64 128 = 0 ∧
      P.routine (Level3Env.avx2 (Cplx Int)) Runtime.sequential [] 0 (matIndex 128 0 1) = ⟨0, 1⟩ ∧
      P.columns 0 1 0 (matIndex 128 0 1) = ⟨0, -1⟩ := by
  intro kind lawful P
  have admissible : P.Admissible := rank_call_admissible false true 'U' 'T' 128 64 1 transposeOperand 64 transposeOperand 64 0 128
    (by decide)
  have member : (0, 1) ∈ P.cells := ⟨⟨by decide, by decide⟩, by decide⟩
  have gram : P.gram 0 1 = ⟨0, -1⟩ := by decide +kernel
  have alpha : P.alpha = 1 := rfl
  have beta : P.beta = 0 := rfl
  have place : cellAddress P.ldc (0, 1) = matIndex 128 0 1 := rfl
  refine ⟨by decide, ?_, ?_⟩
  · have blocked := x86_routine_blocked P admissible 0 rfl (by decide) (by decide) (by decide)
    have entry := blocked.written (0, 1) member
    rw [← place, entry, target_off_diagonal _ _ _ (by decide), update_conj_trans P.canonical rfl]
    change P.combine (conj (P.gram 0 1)) _ + P.beta * 0 = _
    rw [gram, RankProblem.combine, alpha, beta, if_neg (show ¬ P.rankTwo = true from Bool.false_ne_true)]
    rfl
  · have columns := (rank_columns_any_order P admissible 1 Nat.zero_lt_one [0] (List.Perm.refl _)).wrote 0
    have entry := columns.written (0, 1) member
    simp only [List.foldl_cons, List.foldl_nil] at entry
    rw [← place, entry, target_off_diagonal _ _ _ (by decide), update_trans P rfl, gram, RankProblem.combine, alpha, beta,
      if_neg (show ¬ P.rankTwo = true from Bool.false_ne_true)]
    rfl

end Transposed

end Zynum
