import Zynum.Abi.CblasMatrix

set_option autoImplicit false

/- herk and her2k through CBLAS. Row by row the wrappers ask for the plain transpose, which
   conjugates the update, and keep ConjTrans, which reads the operand by the wrong index. -/
namespace Zynum

open ArrayProgram

variable {T : Type} [CommRing T] [Scalar T]

-- alpha op(A) op(A)^H, or alpha op(A) op(B)^H + conj(alpha) op(B) op(A)^H.
def hermitianUpdate (rankTwo : Bool) (mode : TransposeMode) (k : Nat) (alpha : T) (A B : Nat → Nat → T) (i j : Nat) : T :=
  let half := fun (first second : Nat → Nat → T) =>
    ∑ p ∈ Finset.range k, opEntry mode first i p * conj (opEntry mode second j p)
  if rankTwo then alpha * half A B + conj alpha * half B A else realOnly alpha * half A A

def hermitianKeep (beta : T) (cell : Nat × Nat) (old : T) : T :=
  realOnly beta * clearImaginary (decide (cell.1 = cell.2)) old

structure HermitianRankCall (T : Type) where
  rankTwo : Bool
  uplo : Triangle
  mode : TransposeMode
  n : Int
  k : Int
  alpha : T
  a : Mem T
  lda : Int
  b : Mem T
  ldb : Int
  beta : T
  ldc : Int

namespace HermitianRankCall

variable (call : HermitianRankCall T) (layout : Layout)

def cells : Set (Nat × Nat) := triangleCells call.uplo (toUsize call.n)

-- The scalar of herk is a real number.
def scalar : T := if call.rankTwo then call.alpha else realOnly call.alpha

def update (mode : TransposeMode) (alpha : T) (i j : Nat) : T :=
  hermitianUpdate call.rankTwo mode (toUsize call.k) alpha (layout.entry call.a call.lda) (layout.entry call.b call.ldb) i j

-- The operation on the matrices that the caller means.
def value (cell : Nat × Nat) (old : T) : T :=
  call.update layout call.mode call.alpha cell.1 cell.2 + hermitianKeep call.beta cell old

structure Valid (call : HermitianRankCall T) (layout : Layout) : Prop where
  option : call.mode ≠ .trans
  size : 0 ≤ call.n
  depth : 0 ≤ call.k
  widea : layout.leading (outputLength call.mode call.n call.k) (outputLength call.mode call.k call.n) ≤ call.lda
  wideb : call.rankTwo = true → layout.leading (outputLength call.mode call.n call.k) (outputLength call.mode call.k call.n) ≤ call.ldb
  widec : max1 call.n ≤ call.ldc

-- Operands with the same elements where the leading dimensions make them valid.
def SameOperands (a b : Mem T) : Prop :=
  SameOperand call.mode call.n call.k (layout.entry a call.lda) (layout.entry call.a call.lda) ∧
    (call.rankTwo = true → SameOperand call.mode call.n call.k (layout.entry b call.ldb) (layout.entry call.b call.ldb))

def holding (a b : Mem T) : HermitianRankCall T := { call with a := a, b := b }

def run (env : Level3Env T) (rt : Runtime) (site : Site) (c : Mem T) : Mem T :=
  let uplo := cblasUplo call.uplo
  let trans := cblasTransOf call.mode
  if call.rankTwo then
    Cblas.her2k env rt site layout.code uplo trans call.n call.k call.alpha call.a call.lda call.b call.ldb call.beta c call.ldc
  else Cblas.herk env rt site layout.code uplo trans call.n call.k call.alpha call.a call.lda call.beta c call.ldc

-- In every environment, and whatever lies beside the valid elements, C gets the update.
def Right (c : Mem T) : Prop :=
  ∀ a b, call.SameOperands layout a b → ∀ env rt site,
    Wrote call.cells (layout.address call.ldc) (call.value layout) c ((call.holding a b).run layout env rt site c)

-- ConjTrans is passed on, and then the leading dimensions are held against k.
def Rejected : Prop := call.lda < max1 call.k ∨ (call.rankTwo = true ∧ call.ldb < max1 call.k)

-- A row-major call gets by with what the wrappers pass on.
def Harmless (c : Mem T) : Prop :=
  let wanted := call.update .rowMajor call.mode call.alpha
  let turned := call.update .rowMajor .noTrans (conj call.alpha)
  (call.mode = .noTrans →
    (∀ i j, (i, j) ∈ call.cells → conj (wanted i j) = wanted i j) ∧
      (128 ≤ call.n → 64 ≤ call.k → ∀ i j, (i, j) ∈ call.cells → turned i j = wanted i j)) ∧
    (call.mode = .conjTrans → call.Rejected →
      ∀ i j, (i, j) ∈ call.cells → call.value .rowMajor (i, j) (Layout.rowMajor.entry c call.ldc i j) =
        Layout.rowMajor.entry c call.ldc i j) ∧
    (call.mode = .conjTrans → ¬ call.Rejected →
      call.scalar = 0 ∨ call.n = 0 ∨ call.k = 0 ∨
        call.n = call.k ∧ ∀ i j, (i, j) ∈ call.cells → turned i j = wanted i j)

-- The option a wrapper asks its export for.
def option : Char :=
  if layout.code = cblasRowMajor then Cblas.rowMajorTransChar (cblasTransOf call.mode) else Cblas.transChar (cblasTransOf call.mode)

-- The update an export makes of a call's arguments, under a mode.
def problem (mode : TransposeMode) : RankProblem T :=
  { rankCall call.rankTwo true (Cblas.uploFor layout.code (cblasUplo call.uplo)) (call.option layout) call.n call.k call.alpha call.a
      call.lda call.b call.ldb call.beta call.ldc with mode := mode }

end HermitianRankCall

-- What the export makes of the option.
def Layout.hermitianMode (layout : Layout) (mode : TransposeMode) : TransposeMode :=
  match layout with
  | .rowMajor => if mode = .noTrans then .trans else if mode = .trans then .noTrans else .conjTrans
  | .colMajor => mode

section Writing

variable {ι : Type} {cells : Set ι} {address : ι → Nat} {before after : Mem T}

omit [CommRing T] [Scalar T] in
theorem wrote_iff {value value' : ι → T → T} (wrote : Wrote cells address value before after) :
    Wrote cells address value' before after ↔
      ∀ cell ∈ cells, value cell (before (address cell)) = value' cell (before (address cell)) := by
  constructor
  · intro wrote' cell member
    exact (wrote.written cell member).symm.trans (wrote'.written cell member)
  · intro same
    exact ⟨fun cell member => (wrote.written cell member).trans (same cell member), wrote.kept⟩

omit [Scalar T] in
theorem wrote_added_iff {added added' : ι → T} {keep : ι → T → T}
    (wrote : Wrote cells address (fun cell old => added cell + keep cell old) before after) :
    Wrote cells address (fun cell old => added' cell + keep cell old) before after ↔ ∀ cell ∈ cells, added cell = added' cell := by
  rw [wrote_iff wrote]
  exact forall_congr' (fun cell => forall_congr' (fun _ => add_left_inj _))

end Writing

section Values

variable [LawfulScalar T] (rankTwo : Bool) (mode : TransposeMode) (k : Nat) (alpha : T) (A B : Nat → Nat → T) (i j : Nat)

theorem hermitian_update_mirror :
    hermitianUpdate rankTwo mode k alpha A B j i = conj (hermitianUpdate rankTwo mode k alpha A B i j) := by
  have half : ∀ first second : Nat → Nat → T,
      conj (∑ p ∈ Finset.range k, opEntry mode first i p * conj (opEntry mode second j p)) =
        ∑ p ∈ Finset.range k, opEntry mode second j p * conj (opEntry mode first i p) := by
    intro first second
    rw [conj_sum]
    refine Finset.sum_congr rfl (fun p _ => ?_)
    rw [LawfulScalar.conj_mul, LawfulScalar.conj_conj, mul_comm]
  cases rankTwo with
  | false =>
    simp only [hermitianUpdate, Bool.false_eq_true, if_false]
    rw [LawfulScalar.conj_mul, half, LawfulScalar.conj_realOnly]
  | true =>
    simp only [hermitianUpdate, if_true]
    rw [LawfulScalar.conj_add, LawfulScalar.conj_mul, LawfulScalar.conj_mul, half, half, LawfulScalar.conj_conj, add_comm]

-- The conjugate transpose of the transposed matrix conjugates it in place.
theorem hermitian_update_turned :
    hermitianUpdate rankTwo .conjTrans k alpha (fun p r => A r p) (fun p r => B r p) j i =
      hermitianUpdate rankTwo .noTrans k (conj alpha) A B i j := by
  have half : ∀ first second : Nat → Nat → T, ∑ p ∈ Finset.range k, conj (first j p) * conj (conj (second i p)) =
      ∑ p ∈ Finset.range k, second i p * conj (first j p) := by
    intro first second
    refine Finset.sum_congr rfl (fun p _ => ?_)
    rw [LawfulScalar.conj_conj, mul_comm]
  cases rankTwo with
  | false =>
    simp only [hermitianUpdate, Bool.false_eq_true, if_false, opEntry, half, LawfulScalar.realOnly_conj]
  | true =>
    simp only [hermitianUpdate, if_true, opEntry, half]
    rw [LawfulScalar.conj_conj, add_comm]

theorem hermitian_update_idle (idle : (if rankTwo then alpha else realOnly alpha) = 0 ∨ k = 0) :
    hermitianUpdate rankTwo mode k alpha A B i j = 0 := by
  cases rankTwo with
  | false =>
    rcases idle with nothing | rfl
    · have real : realOnly alpha = 0 := nothing
      simp only [hermitianUpdate, Bool.false_eq_true, if_false, real, zero_mul]
    · simp only [hermitianUpdate, Bool.false_eq_true, if_false, Finset.range_zero, Finset.sum_empty, mul_zero]
  | true =>
    rcases idle with nothing | rfl
    · have whole : alpha = 0 := nothing
      simp only [hermitianUpdate, if_true, whole, conj_zero, zero_mul, add_zero]
    · simp only [hermitianUpdate, if_true, Finset.range_zero, Finset.sum_empty, mul_zero, add_zero]

omit [LawfulScalar T] in
theorem hermitian_update_congr {A' B' : Nat → Nat → T} {n k : Int} (sameA : SameOperand mode n k A' A)
    (sameB : rankTwo = true → SameOperand mode n k B' B) (inRows : i < toUsize n) (inColumns : j < toUsize n) :
    hermitianUpdate rankTwo mode (toUsize k) alpha A' B' i j = hermitianUpdate rankTwo mode (toUsize k) alpha A B i j := by
  have half : ∀ {first first' second second' : Nat → Nat → T}, SameOperand mode n k first' first →
      SameOperand mode n k second' second →
      ∑ p ∈ Finset.range (toUsize k), opEntry mode first' i p * conj (opEntry mode second' j p) =
        ∑ p ∈ Finset.range (toUsize k), opEntry mode first i p * conj (opEntry mode second j p) := by
    intro first first' second second' one other
    refine Finset.sum_congr rfl (fun p inside => ?_)
    have inDepth := Finset.mem_range.mp inside
    rw [op_entry_same one i p inRows inDepth, op_entry_same other j p inColumns inDepth]
  cases two : rankTwo with
  | false => simp only [hermitianUpdate, Bool.false_eq_true, if_false, half sameA sameA]
  | true => simp only [hermitianUpdate, if_true, half sameA (sameB two), half (sameB two) sameA]

end Values

section Perturbing

variable {k q : Nat}

theorem half_written (inside : q < k) (f g : Nat → T) (u v : T) (first second : Nat → T) (one : ∀ p, p < k → first p = if p = q then u else f p)
    (other : ∀ p, p < k → second p = if p = q then v else g p) :
    ∑ p ∈ Finset.range k, first p * conj (second p) =
      (∑ p ∈ (Finset.range k).erase q, f p * conj (g p)) + u * conj v := by
  have member : q ∈ Finset.range k := Finset.mem_range.mpr inside
  rw [← Finset.sum_erase_add _ _ member, one q inside, other q inside, if_pos rfl, if_pos rfl]
  congr 1
  refine Finset.sum_congr rfl (fun p kept => ?_)
  have apart := Finset.ne_of_mem_erase kept
  have below := Finset.mem_range.mp (Finset.mem_of_mem_erase kept)
  rw [one p below, other p below, if_neg apart, if_neg apart]

omit [CommRing T] [Scalar T] in
theorem row_entry_written (a : Mem T) (ld : Int) (d i p : Nat) (w : T) (placed : q < toUsize ld) (read : p < toUsize ld) :
    Layout.rowMajor.entry (Function.update a (Layout.rowMajor.address ld (d, q)) w) ld i p =
      if i = d ∧ p = q then w else Layout.rowMajor.entry a ld i p := by
  have injective := cell_address_injective ld (toUsize ld) le_rfl
  rw [Layout.entry, Function.update_apply]
  by_cases same : i = d ∧ p = q
  · rw [if_pos same, if_pos (by rw [same.1, same.2])]
  · rw [if_neg same, if_neg (fun equal => same ?_)]
    · rfl
    · have cells := injective (show (p, i) ∈ {cell : Nat × Nat | cell.1 < toUsize ld} from read)
        (show (q, d) ∈ {cell : Nat × Nat | cell.1 < toUsize ld} from placed) equal
      exact ⟨congrArg Prod.snd cells, congrArg Prod.fst cells⟩

end Perturbing

namespace HermitianRankCall

variable (call : HermitianRankCall T) (layout : Layout)

section Passing

omit [CommRing T] [Scalar T] in
theorem option_passed : validTrans (call.option layout) = true ∧ parseTrans (call.option layout) = layout.hermitianMode call.mode ∧
    (fromChar (call.option layout) = 'N' ↔ layout.hermitianMode call.mode = .noTrans) := by
  rw [HermitianRankCall.option]
  cases layout <;> cases call.mode <;> decide

-- The error that the export finds in the call it is handed.
def error : Int :=
  rankError call.rankTwo (Cblas.uploFor layout.code (cblasUplo call.uplo)) (call.option layout) call.n call.k call.lda call.ldb call.ldc

theorem accepted_passes (size : 0 ≤ call.n) (depth : 0 ≤ call.k) (accepted : call.error layout = 0) (env : Level3Env T) (rt : Runtime)
    (site : Site) (c : Mem T) :
    call.run layout env rt site c = (call.problem layout (layout.hermitianMode call.mode)).routine env rt site c := by
  rw [← (call.option_passed layout).2.1]
  obtain ⟨rankTwo, uplo, mode, n, k, alpha, a, lda, b, ldb, beta, ldc⟩ := call
  obtain ⟨order, rfl⟩ := Int.eq_ofNat_of_zero_le size
  obtain ⟨steps, rfl⟩ := Int.eq_ofNat_of_zero_le depth
  have valid := Cblas.valid_layout layout
  cases rankTwo with
  | false =>
    have passed := Fortran.report_accepted accepted
    simp only [run, Cblas.herk, valid, Bool.not_true, Bool.false_eq_true, if_false, Fortran.herk]
    exact if_neg passed
  | true =>
    have passed := Fortran.report_accepted accepted
    simp only [run, Cblas.her2k, valid, Bool.not_true, Bool.false_eq_true, if_false, if_true, Fortran.her2k]
    exact if_neg passed

theorem rejected_keeps (rejected : call.error layout ≠ 0) (env : Level3Env T) (rt : Runtime) (site : Site) (c : Mem T) :
    call.run layout env rt site c = c := by
  obtain ⟨rankTwo, uplo, mode, n, k, alpha, a, lda, b, ldb, beta, ldc⟩ := call
  have valid := Cblas.valid_layout layout
  cases rankTwo with
  | false =>
    simp only [run, Cblas.herk, valid, Bool.not_true, Bool.false_eq_true, if_false, Fortran.herk]
    exact if_pos (decide_eq_true rejected)
  | true =>
    simp only [run, Cblas.her2k, valid, Bool.not_true, Bool.false_eq_true, if_false, if_true, Fortran.her2k]
    exact if_pos (decide_eq_true rejected)

omit [CommRing T] [Scalar T] in
theorem error_zero_iff (size : 0 ≤ call.n) (depth : 0 ≤ call.k) (widec : max1 call.n ≤ call.ldc) :
    call.error layout = 0 ↔
      max1 (if layout.hermitianMode call.mode = .noTrans then call.n else call.k) ≤ call.lda ∧
        (call.rankTwo = true → max1 (if layout.hermitianMode call.mode = .noTrans then call.n else call.k) ≤ call.ldb) := by
  obtain ⟨transposes, _, plain⟩ := call.option_passed layout
  obtain ⟨triangles, _⟩ := Cblas.uplo_passed layout call.uplo
  rw [error, ← if_congr plain rfl rfl]
  cases call.rankTwo with
  | false =>
    simp only [rankError, rankKMatrixError, transposes, triangles, Bool.not_true, Bool.false_eq_true, if_false, if_neg size.not_gt,
      if_neg depth.not_gt, if_neg widec.not_gt, false_implies, and_true]
    generalize max1 (if fromChar (call.option layout) = 'N' then call.n else call.k) = needed
    split_ifs <;> omega
  | true =>
    simp only [rankError, rank2KMatrixError, transposes, triangles, Bool.not_true, Bool.false_eq_true, if_false, if_true,
      if_neg size.not_gt, if_neg depth.not_gt, if_neg widec.not_gt, true_implies]
    generalize max1 (if fromChar (call.option layout) = 'N' then call.n else call.k) = needed
    split_ifs <;> omega

omit [CommRing T] [Scalar T] in
theorem valid_accepted (valid : call.Valid layout) (kept : layout = .colMajor ∨ call.mode = .noTrans) : call.error layout = 0 := by
  rw [call.error_zero_iff layout valid.size valid.depth valid.widec]
  have widea := valid.widea
  have wideb := valid.wideb
  have option := valid.option
  cases layout with
  | colMajor =>
    cases mode : call.mode with
    | noTrans =>
      rw [mode] at widea wideb
      exact ⟨widea, wideb⟩
    | trans => exact absurd mode option
    | conjTrans =>
      rw [mode] at widea wideb
      exact ⟨widea, wideb⟩
  | rowMajor =>
    have mode := kept.resolve_left (by decide)
    rw [mode] at widea wideb ⊢
    exact ⟨widea, wideb⟩

omit [CommRing T] [Scalar T] in
theorem conjugated_accepted (valid : call.Valid .rowMajor) (mode : call.mode = .conjTrans) :
    call.error .rowMajor = 0 ↔ ¬ call.Rejected := by
  rw [call.error_zero_iff .rowMajor valid.size valid.depth valid.widec, mode, Rejected, not_or, not_and, not_lt, not_lt]
  rfl

end Passing

section Exact

omit [CommRing T] in
theorem problem_cells (mode : TransposeMode) : (call.problem layout mode).cells = triangleCells (layout.triangle call.uplo) (toUsize call.n) := by
  rw [← (Cblas.uplo_passed layout call.uplo).2]
  rfl

omit [CommRing T] in
theorem row_cells (mode : TransposeMode) (i j : Nat) : (i, j) ∈ (call.problem .rowMajor mode).cells ↔ (j, i) ∈ call.cells := by
  rw [problem_cells]
  change _ ↔ _ ∈ triangleCells call.uplo _
  simp only [triangleCells, matrixCells, Set.mem_ofPred_eq, Layout.triangle, stored_flipped, and_comm]

theorem problem_update (mode : TransposeMode) (i j : Nat) :
    (call.problem layout mode).update i j =
      hermitianUpdate call.rankTwo mode (toUsize call.k) call.alpha (denseEntry call.a call.lda) (denseEntry call.b call.ldb) i j := by
  obtain ⟨rankTwo, uplo, option, n, k, alpha, a, lda, b, ldb, beta, ldc⟩ := call
  cases rankTwo with
  | false =>
    simp only [hermitianUpdate, Bool.false_eq_true, if_false]
    exact add_zero _
  | true => rfl

theorem problem_target (mode : TransposeMode) (cell : Nat × Nat) (old : T) :
    (call.problem layout mode).target cell old =
      (call.problem layout mode).update cell.1 cell.2 + hermitianKeep call.beta cell old := rfl

omit [CommRing T] in
theorem problem_alpha (mode : TransposeMode) : (call.problem layout mode).alpha = call.scalar := by
  rw [scalar]
  change (if (true && !call.rankTwo) = true then realOnly call.alpha else call.alpha) = _
  cases call.rankTwo <;> rfl

theorem row_wrote (mode : TransposeMode) {before after : Mem T}
    (wrote : Wrote (call.problem .rowMajor mode).cells (cellAddress call.ldc) (call.problem .rowMajor mode).target before after) :
    Wrote call.cells (Layout.rowMajor.address call.ldc)
      (fun cell old => (call.problem .rowMajor mode).update cell.2 cell.1 + hermitianKeep call.beta cell old) before after := by
  refine Wrote.swapped wrote (fun i j => (call.row_cells mode j i).symm) (fun _ _ _ => rfl) (fun i j _ old => ?_)
  · rw [problem_target, hermitianKeep, hermitianKeep]
    simp only [eq_comm (a := j)]

variable [LawfulScalar T]

-- Row by row the export transposes what it reads, and what it stores.
theorem plain_update (i j : Nat) :
    (call.problem .rowMajor .trans).update j i = conj (call.update .rowMajor .noTrans call.alpha i j) := by
  rw [problem_update, update, ← hermitian_update_mirror]
  rfl

theorem conjugated_update (i j : Nat) :
    (call.problem .rowMajor .conjTrans).update j i = call.update .rowMajor .noTrans (conj call.alpha) i j := by
  rw [problem_update, update, ← hermitian_update_turned]
  rfl

theorem problem_admissible (mode : TransposeMode) (accepted : call.error layout = 0) : (call.problem layout mode).Admissible := by
  have whole := rank_call_admissible call.rankTwo true _ _ call.n call.k call.alpha call.a call.lda call.b call.ldb call.beta
    call.ldc accepted
  exact ⟨whole.stepa, whole.stepb, whole.stepc, whole.bound, whole.realAlpha, whole.realBeta, whole.sameOperand⟩

-- A transpose that belongs to the routine is met on every route.
theorem supported_wrote (size : 0 ≤ call.n) (depth : 0 ≤ call.k) (accepted : call.error layout = 0)
    (supported : layout.hermitianMode call.mode ≠ .trans) (env : Level3Env T) (rt : Runtime) (site : Site) (c : Mem T) :
    Wrote (call.problem layout (layout.hermitianMode call.mode)).cells (cellAddress call.ldc)
      (call.problem layout (layout.hermitianMode call.mode)).target c (call.run layout env rt site c) := by
  rw [call.accepted_passes layout size depth accepted]
  have agrees : (call.problem layout (layout.hermitianMode call.mode)).agrees := by
    refine (transpose_harmless_iff _).mp (.inl ?_)
    change rankTransposeSupport true (layout.hermitianMode call.mode) = true
    cases mode : layout.hermitianMode call.mode with
    | noTrans => rfl
    | trans => exact absurd mode supported
    | conjTrans => rfl
  exact (routine_updates _ (call.problem_admissible layout _ accepted) env rt site (fun _ _ _ => agrees)).wrote c

omit [LawfulScalar T] in
theorem same_operands_update {a b : Mem T} (same : call.SameOperands layout a b) (alpha : T) (i j : Nat)
    (inRows : i < toUsize call.n) (inColumns : j < toUsize call.n) :
    (call.holding a b).update layout call.mode alpha i j = call.update layout call.mode alpha i j :=
  hermitian_update_congr call.rankTwo call.mode alpha _ _ i j same.1 same.2 inRows inColumns

theorem column_right (valid : call.Valid .colMajor) (c : Mem T) : call.Right .colMajor c := by
  intro a b same env rt site
  have accepted : (call.holding a b).error .colMajor = 0 := call.valid_accepted .colMajor valid (.inl rfl)
  have wrote := (call.holding a b).supported_wrote .colMajor valid.size valid.depth accepted valid.option env rt site c
  rw [problem_cells] at wrote
  refine wrote.congr (fun cell old member => ?_)
  rw [problem_target, problem_update, value, ← call.same_operands_update .colMajor same call.alpha cell.1 cell.2 member.1.1 member.1.2]
  rfl

theorem update_idle (idle : call.scalar = 0 ∨ toUsize call.k = 0) (mode : TransposeMode) (i j : Nat) :
    call.update layout mode call.alpha i j = 0 := hermitian_update_idle _ _ _ _ _ _ i j idle

theorem conjugated_idle (nothing : call.scalar = 0) (mode : TransposeMode) (i j : Nat) :
    call.update layout mode (conj call.alpha) i j = 0 := by
  refine hermitian_update_idle _ _ _ _ _ _ i j (.inl ?_)
  rw [scalar] at nothing
  cases two : call.rankTwo with
  | false =>
    rw [two] at nothing
    exact (LawfulScalar.realOnly_conj call.alpha).trans nothing
  | true =>
    rw [two] at nothing
    exact (congrArg conj nothing).trans conj_zero

omit [CommRing T] [Scalar T] [LawfulScalar T] in
variable {call layout} in
theorem Valid.holding (valid : call.Valid layout) (a b : Mem T) : (call.holding a b).Valid layout :=
  ⟨valid.option, valid.size, valid.depth, valid.widea, valid.wideb, valid.widec⟩

omit [CommRing T] [Scalar T] [LawfulScalar T] in
theorem same_operands_self : call.SameOperands layout call.a call.b := ⟨fun _ _ _ _ => rfl, fun _ _ _ _ _ => rfl⟩

omit [LawfulScalar T] in
theorem plain_run (valid : call.Valid .rowMajor) (plain : call.mode = .noTrans) (env : Level3Env T) (rt : Runtime) (site : Site)
    (c : Mem T) : call.run .rowMajor env rt site c = (call.problem .rowMajor .trans).routine env rt site c := by
  rw [call.accepted_passes .rowMajor valid.size valid.depth (call.valid_accepted .rowMajor valid (.inr plain)), plain]
  rfl

-- The column route follows the transpose it is given, the blocked one of x86_64 conjugates it.
theorem plain_right_conditions (valid : call.Valid .rowMajor) (plain : call.mode = .noTrans) (complex : Scalar.isComplex T = true)
    (c : Mem T) (right : call.Right .rowMajor c) :
    (∀ i j, (i, j) ∈ call.cells →
      conj (call.update .rowMajor call.mode call.alpha i j) = call.update .rowMajor call.mode call.alpha i j) ∧
    (128 ≤ call.n → 64 ≤ call.k → ∀ i j, (i, j) ∈ call.cells →
      call.update .rowMajor .noTrans (conj call.alpha) i j = call.update .rowMajor call.mode call.alpha i j) := by
  have admissible := call.problem_admissible .rowMajor .trans (call.valid_accepted .rowMajor valid (.inr plain))
  have wanted := fun env => right call.a call.b (call.same_operands_self .rowMajor) env Runtime.sequential []
  have runs := fun env => call.plain_run valid plain env Runtime.sequential [] c
  constructor
  · intro i j member
    have columns := (routine_updates _ admissible (Level3Env.portable T) Runtime.sequential []
      (fun capability => by cases capability)).wrote c
    rw [← runs] at columns
    have equal := (wrote_added_iff (call.row_wrote .trans columns)).mp (wanted _) (i, j) member
    rw [plain_update, plain] at equal
    rw [plain]
    exact equal
  · intro order depth i j member
    by_cases nothing : call.scalar = 0
    · exact (call.conjugated_idle .rowMajor nothing .noTrans i j).trans (call.update_idle .rowMajor (.inl nothing) call.mode i j).symm
    · have busy : isZero (call.problem .rowMajor .trans).alpha = false :=
        Bool.eq_false_of_not_eq_true (fun zero =>
          nothing ((call.problem_alpha .rowMajor .trans).symm.trans ((LawfulScalar.isZero_iff _).mp zero)))
      have wide : 128 ≤ toUsize call.n := Int.le_toNat valid.size |>.mpr order
      have deep : 64 ≤ toUsize call.k := Int.le_toNat valid.depth |>.mpr depth
      have blocked := x86_routine_blocked (call.problem .rowMajor .trans) admissible c complex wide deep busy
      rw [← runs] at blocked
      have equal := (wrote_added_iff (call.row_wrote .conjTrans blocked)).mp (wanted _) (i, j) member
      rw [conjugated_update] at equal
      exact equal

theorem plain_right (valid : call.Valid .rowMajor) (plain : call.mode = .noTrans) (c : Mem T)
    (hidden : ∀ i j, (i, j) ∈ call.cells →
      conj (call.update .rowMajor call.mode call.alpha i j) = call.update .rowMajor call.mode call.alpha i j)
    (turned : 128 ≤ call.n → 64 ≤ call.k → ∀ i j, (i, j) ∈ call.cells →
      call.update .rowMajor .noTrans (conj call.alpha) i j = call.update .rowMajor call.mode call.alpha i j) :
    call.Right .rowMajor c := by
  intro a b same env rt site
  rw [plain] at hidden turned
  have moved : ∀ alpha i j, (i, j) ∈ call.cells →
      (call.holding a b).update .rowMajor .noTrans alpha i j = call.update .rowMajor .noTrans alpha i j := by
    intro alpha i j member
    have held := call.same_operands_update .rowMajor same alpha i j member.1.1 member.1.2
    rw [plain] at held
    exact held
  have valid' : (call.holding a b).Valid .rowMajor := valid.holding a b
  have admissible := (call.holding a b).problem_admissible .rowMajor .trans ((call.holding a b).valid_accepted .rowMajor valid' (.inr plain))
  have agrees : 128 ≤ toUsize call.n → 64 ≤ toUsize call.k → ((call.holding a b).problem .rowMajor .trans).agrees := by
    intro wide deep i j inRows inColumns kept
    have member : (j, i) ∈ call.cells := ((call.holding a b).row_cells .trans i j).mp ⟨⟨inRows, inColumns⟩, kept⟩
    calc ((call.holding a b).problem .rowMajor .trans).update i j
        = conj ((call.holding a b).update .rowMajor .noTrans call.alpha j i) := (call.holding a b).plain_update j i
      _ = call.update .rowMajor .noTrans call.alpha j i := by rw [moved _ j i member, hidden j i member]
      _ = call.update .rowMajor .noTrans (conj call.alpha) j i :=
          (turned ((Int.le_toNat valid.size).mp wide) ((Int.le_toNat valid.depth).mp deep) j i member).symm
      _ = (call.holding a b).update .rowMajor .noTrans (conj call.alpha) j i := (moved _ j i member).symm
      _ = ((call.holding a b).problem .rowMajor .conjTrans).update i j := ((call.holding a b).conjugated_update j i).symm
  have wrote := (routine_updates _ admissible env rt site (fun _ wide deep => agrees wide deep)).wrote c
  rw [← (call.holding a b).plain_run valid' plain] at wrote
  refine (wrote_added_iff ((call.holding a b).row_wrote .trans wrote)).mpr (fun cell member => ?_)
  rw [plain_update, plain]
  exact (congrArg conj (moved call.alpha cell.1 cell.2 member)).trans (hidden cell.1 cell.2 member)

theorem rejected_right_iff (valid : call.Valid .rowMajor) (conjugated : call.mode = .conjTrans) (rejected : call.Rejected) (c : Mem T) :
    call.Right .rowMajor c ↔ ∀ i j, (i, j) ∈ call.cells →
      call.value .rowMajor (i, j) (Layout.rowMajor.entry c call.ldc i j) = Layout.rowMajor.entry c call.ldc i j := by
  have bad : call.error .rowMajor ≠ 0 := fun none => (call.conjugated_accepted valid conjugated).mp none rejected
  have keeps := fun a b env rt site => (call.holding a b).rejected_keeps .rowMajor bad env rt site c
  constructor
  · intro right i j member
    have wrote := right call.a call.b (call.same_operands_self .rowMajor) (Level3Env.portable T) Runtime.sequential []
    rw [keeps] at wrote
    exact (wrote.written (i, j) member).symm
  · intro still a b _ env rt site
    rw [keeps]
    exact ⟨fun cell member => (still cell.1 cell.2 member).symm, fun _ _ => rfl⟩

theorem conjugated_wrote (valid : call.Valid .rowMajor) (conjugated : call.mode = .conjTrans) (accepted : ¬ call.Rejected)
    (env : Level3Env T) (rt : Runtime) (site : Site) (c : Mem T) :
    Wrote call.cells (Layout.rowMajor.address call.ldc) (fun cell old =>
      call.update .rowMajor .noTrans (conj call.alpha) cell.1 cell.2 + hermitianKeep call.beta cell old) c
      (call.run .rowMajor env rt site c) := by
  have turned : Layout.rowMajor.hermitianMode call.mode = .conjTrans := by
    rw [conjugated]
    rfl
  have wrote := call.supported_wrote .rowMajor valid.size valid.depth ((call.conjugated_accepted valid conjugated).mpr accepted)
    (by rw [turned]; decide) env rt site c
  rw [turned] at wrote
  refine (call.row_wrote .conjTrans wrote).congr (fun cell old _ => ?_)
  rw [conjugated_update]

theorem conjugated_right_iff (valid : call.Valid .rowMajor) (conjugated : call.mode = .conjTrans) (accepted : ¬ call.Rejected)
    (c : Mem T) :
    call.Right .rowMajor c ↔ ∀ a b, call.SameOperands .rowMajor a b → ∀ cell ∈ call.cells,
      (call.holding a b).update .rowMajor .noTrans (conj call.alpha) cell.1 cell.2 =
        call.update .rowMajor call.mode call.alpha cell.1 cell.2 := by
  have wrote := fun a b env rt site => (call.holding a b).conjugated_wrote (valid.holding a b) conjugated accepted env rt site c
  constructor
  · intro right a b same
    exact (wrote_added_iff (wrote a b (Level3Env.portable T) Runtime.sequential [])).mp (right a b same _ _ _)
  · intro equal a b same env rt site
    exact (wrote_added_iff (wrote a b env rt site)).mpr (equal a b same)

omit [CommRing T] [Scalar T] [LawfulScalar T] in
theorem conjugated_fits (valid : call.Valid .rowMajor) (conjugated : call.mode = .conjTrans) (accepted : ¬ call.Rejected) :
    (toUsize call.k ≤ toUsize call.lda ∧ toUsize call.n ≤ toUsize call.lda) ∧
      (call.rankTwo = true → toUsize call.k ≤ toUsize call.ldb ∧ toUsize call.n ≤ toUsize call.ldb) := by
  have widea := valid.widea
  have wideb := valid.wideb
  rw [conjugated] at widea wideb
  obtain ⟨deepa, deepb⟩ := not_or.mp accepted
  have room : ∀ ld, max1 call.n ≤ ld → ¬ ld < max1 call.k → toUsize call.k ≤ toUsize ld ∧ toUsize call.n ≤ toUsize ld := by
    intro ld wide deep
    simp only [toUsize, max1] at wide deep ⊢
    omega
  exact ⟨room call.lda widea deepa, fun two => room call.ldb (wideb two) (fun short => deepb ⟨two, short⟩)⟩

-- An element that is read but not valid decides the update unless the scalar is zero.
theorem reads_beyond (valid : call.Valid .rowMajor) (conjugated : call.mode = .conjTrans) (accepted : ¬ call.Rejected)
    (definite : ∀ z : T, conj z * z + z * conj z = 0 → z = 0) (d q : Nat) (row : d < toUsize call.n) (column : q < toUsize call.k)
    (beyond : toUsize call.k ≤ d ∨ toUsize call.n ≤ q)
    (equal : ∀ a b, call.SameOperands .rowMajor a b → ∀ cell ∈ call.cells,
      (call.holding a b).update .rowMajor .noTrans (conj call.alpha) cell.1 cell.2 =
        call.update .rowMajor call.mode call.alpha cell.1 cell.2) : call.scalar = 0 := by
  have rows : ∀ (m : Mem T) (ld : Int) (w : T), toUsize call.k ≤ toUsize ld → ∀ p, p < toUsize call.k →
      Layout.rowMajor.entry (Function.update m (Layout.rowMajor.address ld (d, q)) w) ld d p =
        if p = q then w else Layout.rowMajor.entry m ld d p := by
    intro m ld w wide p read
    rw [row_entry_written m ld d d p w (Nat.lt_of_lt_of_le column wide) (Nat.lt_of_lt_of_le read wide)]
    simp only [true_and]
  have held : ∀ (m : Mem T) (ld : Int) (w : T), toUsize call.k ≤ toUsize ld → toUsize call.n ≤ toUsize ld →
      SameOperand call.mode call.n call.k (Layout.rowMajor.entry (Function.update m (Layout.rowMajor.address ld (d, q)) w) ld)
        (Layout.rowMajor.entry m ld) := by
    intro m ld w wide wider
    rw [conjugated]
    intro i p inRows inColumns
    have below : i < toUsize call.k := inRows
    have across : p < toUsize call.n := inColumns
    rw [row_entry_written m ld d i p w (Nat.lt_of_lt_of_le column wide) (Nat.lt_of_lt_of_le across wider)]
    exact if_neg (fun both => by omega)
  have member : (d, d) ∈ call.cells := ⟨⟨row, row⟩, stored_diagonal call.uplo d⟩
  obtain ⟨wide, wider⟩ := call.conjugated_fits valid conjugated accepted
  cases two : call.rankTwo with
  | false =>
    have changed := fun w => equal (Function.update call.a (Layout.rowMajor.address call.lda (d, q)) w) call.b
      ⟨held call.a call.lda w wide.1 wide.2, fun other => by cases two.symm.trans other⟩ (d, d) member
    have same := (changed 1).trans (changed 0).symm
    have half := fun w => half_written column (Layout.rowMajor.entry call.a call.lda d) (Layout.rowMajor.entry call.a call.lda d) w w
      _ _ (rows call.a call.lda w wide.1) (rows call.a call.lda w wide.1)
    simp only [update, holding, hermitianUpdate, two, Bool.false_eq_true, if_false, opEntry] at same
    rw [half, half, LawfulScalar.realOnly_conj, LawfulScalar.conj_one] at same
    rw [scalar, two]
    change realOnly call.alpha = 0
    linear_combination same
  | true =>
    have changed := fun u v => equal (Function.update call.a (Layout.rowMajor.address call.lda (d, q)) u)
      (Function.update call.b (Layout.rowMajor.address call.ldb (d, q)) v)
      ⟨held call.a call.lda u wide.1 wide.2, fun _ => held call.b call.ldb v (wider two).1 (wider two).2⟩ (d, d) member
    have same := (changed 1 (conj call.alpha)).trans (changed 0 0).symm
    have half := fun u v => half_written column (Layout.rowMajor.entry call.a call.lda d) (Layout.rowMajor.entry call.b call.ldb d) u v
      _ _ (rows call.a call.lda u wide.1) (rows call.b call.ldb v (wider two).1)
    have mirrored := fun u v => half_written column (Layout.rowMajor.entry call.b call.ldb d)
      (Layout.rowMajor.entry call.a call.lda d) v u _ _ (rows call.b call.ldb v (wider two).1) (rows call.a call.lda u wide.1)
    simp only [update, holding, hermitianUpdate, two, if_true, opEntry] at same
    rw [half, half, mirrored, mirrored, LawfulScalar.conj_one, LawfulScalar.conj_conj] at same
    rw [scalar, two]
    refine definite call.alpha ?_
    linear_combination same

theorem conjugated_condition (valid : call.Valid .rowMajor) (conjugated : call.mode = .conjTrans) (accepted : ¬ call.Rejected)
    (definite : ∀ z : T, conj z * z + z * conj z = 0 → z = 0) :
    (∀ a b, call.SameOperands .rowMajor a b → ∀ cell ∈ call.cells,
      (call.holding a b).update .rowMajor .noTrans (conj call.alpha) cell.1 cell.2 =
        call.update .rowMajor call.mode call.alpha cell.1 cell.2) ↔
      call.scalar = 0 ∨ call.n = 0 ∨ call.k = 0 ∨
        call.n = call.k ∧ ∀ i j, (i, j) ∈ call.cells →
          call.update .rowMajor .noTrans (conj call.alpha) i j = call.update .rowMajor call.mode call.alpha i j := by
  have size := valid.size
  have depth := valid.depth
  constructor
  · intro equal
    by_cases square : call.n = call.k
    · refine .inr (.inr (.inr ⟨square, fun i j member => ?_⟩))
      exact equal call.a call.b (call.same_operands_self .rowMajor) (i, j) member
    · by_cases empty : call.n = 0 ∨ call.k = 0
      · exact .inr (empty.imp_right .inl)
      · refine .inl ?_
        rcases lt_or_gt_of_ne square with wide | tall
        · refine call.reads_beyond valid conjugated accepted definite 0 (toUsize call.n) ?_ ?_ (.inr le_rfl) equal
          · simp only [toUsize]
            omega
          · simp only [toUsize]
            omega
        · refine call.reads_beyond valid conjugated accepted definite (toUsize call.k) 0 ?_ ?_ (.inl le_rfl) equal
          · simp only [toUsize]
            omega
          · simp only [toUsize]
            omega
  · rintro (nothing | none | none | ⟨square, hidden⟩) a b same cell member
    · have still : (call.holding a b).scalar = 0 := nothing
      exact ((call.holding a b).conjugated_idle .rowMajor still .noTrans cell.1 cell.2).trans
        (call.update_idle .rowMajor (.inl nothing) call.mode cell.1 cell.2).symm
    · have row := member.1.1
      rw [none] at row
      exact absurd row (Nat.not_lt_zero _)
    · have shallow : toUsize call.k = 0 := by
        rw [none]
        rfl
      exact (hermitian_update_idle _ _ _ _ _ _ cell.1 cell.2 (.inr shallow)).trans
        (call.update_idle .rowMajor (.inr shallow) call.mode cell.1 cell.2).symm
    · refine Eq.trans ?_ (hidden cell.1 cell.2 member)
      have held : ∀ {entry entry' : Nat → Nat → T}, SameOperand call.mode call.n call.k entry entry' →
          SameOperand .noTrans call.n call.k entry entry' := by
        intro entry entry' operand
        rw [conjugated, square] at operand
        rw [square]
        exact operand
      exact hermitian_update_congr call.rankTwo .noTrans _ _ _ cell.1 cell.2 (held same.1) (fun two => held (same.2 two)) member.1.1
        member.1.2

theorem row_right_iff (valid : call.Valid .rowMajor) (complex : Scalar.isComplex T = true)
    (definite : ∀ z : T, conj z * z + z * conj z = 0 → z = 0) (c : Mem T) : call.Right .rowMajor c ↔ call.Harmless c := by
  cases kind : call.mode with
  | noTrans =>
    constructor
    · intro right
      refine ⟨fun plain => call.plain_right_conditions valid plain complex c right, fun conjugated => ?_, fun conjugated => ?_⟩
      · cases kind.symm.trans conjugated
      · cases kind.symm.trans conjugated
    · intro harmless
      obtain ⟨hidden, turned⟩ := harmless.1 kind
      exact call.plain_right valid kind c hidden turned
  | trans => exact absurd kind valid.option
  | conjTrans =>
    by_cases rejected : call.Rejected
    · rw [call.rejected_right_iff valid kind rejected]
      constructor
      · intro still
        refine ⟨fun plain => ?_, fun _ _ => still, fun _ accepted => absurd rejected accepted⟩
        cases kind.symm.trans plain
      · intro harmless
        exact harmless.2.1 kind rejected
    · rw [call.conjugated_right_iff valid kind rejected, call.conjugated_condition valid kind rejected definite]
      constructor
      · intro condition
        refine ⟨fun plain => ?_, fun _ taken => absurd taken rejected, fun _ _ => condition⟩
        cases kind.symm.trans plain
      · intro harmless
        exact harmless.2.2 kind rejected

end Exact

end HermitianRankCall

end Zynum
