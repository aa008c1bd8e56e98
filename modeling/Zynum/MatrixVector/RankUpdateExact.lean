import Zynum.MatrixVector.RankUpdateTriangle

set_option autoImplicit false

/- The rank updates of a vector: whatever the storage, the tiles, the tasks and the
   strides, every stored element is updated once. -/
namespace Zynum

open ArrayProgram

section Boundaries

variable (float : FloatArithmetic) (uplo : Triangle) (n : Nat)

theorem rank_boundary_step (taskCount task : Nat) (several : 0 < taskCount) :
    denseRankTaskBoundary float uplo n taskCount task ≤ denseRankTaskBoundary float uplo n taskCount (task + 1) := by
  have below : denseRankTaskBoundary float uplo n taskCount task ≤ n := by
    unfold denseRankTaskBoundary
    split
    · exact Nat.zero_le n
    · split
      · exact Nat.le_refl n
      · exact Nat.min_le_left n _
  by_cases started : task = 0
  · rw [denseRankTaskBoundary, if_pos started]
    exact Nat.zero_le _
  · by_cases finished : taskCount ≤ task + 1
    · have last : denseRankTaskBoundary float uplo n taskCount (task + 1) = n := by
        rw [denseRankTaskBoundary, if_neg (Nat.succ_ne_zero task), if_pos finished]
      exact below.trans last.ge
    · have fraction : float.le (float.div (float.ofNat task) (float.ofNat taskCount))
          (float.div (float.ofNat (task + 1)) (float.ofNat taskCount)) :=
        float.div_mono _ _ taskCount several (float.ofNat_mono task (task + 1) (Nat.le_succ task))
      rw [denseRankTaskBoundary, if_neg started, if_neg (fun early => finished (Nat.le_succ_of_le early)),
        denseRankTaskBoundary, if_neg (Nat.succ_ne_zero task), if_neg finished]
      refine min_le_min_left n (float.toNat_mono _ _ ?_)
      split
      · exact float.mul_mono _ _ n (float.sqrt_mono _ _ fraction)
      · exact float.mul_mono _ _ n (float.sub_anti _ _ _ (float.sqrt_mono _ _ (float.sub_anti _ _ _ fraction)))

theorem rank_task_splits (taskCount : Nat) (several : 0 < taskCount) :
    Splits taskCount (denseRankTaskBoundary float uplo n taskCount) 0 n := by
  refine ⟨rfl, ?_, fun task _ => rank_boundary_step float uplo n taskCount task several⟩
  rw [denseRankTaskBoundary, if_neg (Nat.ne_of_gt several), if_pos (Nat.le_refl taskCount)]

end Boundaries

variable {T : Type} [CommRing T] [Scalar T]

section Triangle

variable [LawfulScalar T] {store : RankStorage} {uplo : Triangle} {n : Nat} {operation : DenseRankOperation}
  (float : FloatArithmetic) (rt : Runtime) (site : Site) (alpha : T) (x y : Mem T)

variable (store) in
theorem rank_triangle_updates (fits : store.Fits n) (kind : operation.Kind T) :
    Updates (storedCells uplo n) (store.place uplo n) (operation.target alpha x y)
      (rankColumns rt site store operation uplo n 0 n alpha x y) := by
  have whole := rank_columns_updates uplo rt site alpha x y fits kind 0 n (Nat.zero_le n) (Nat.le_refl n)
  rw [span_everything n (fun _ member => member.2.1)] at whole
  exact whole

theorem parallel_rank_wrote (fits : store.Fits n) (kind : operation.Kind T) (prefer : Bool) (a after : Mem T)
    (accepted : parallelRankUpdate prefer float rt site store operation uplo n alpha x y a = some after) :
    Wrote (storedCells uplo n) (store.place uplo n) (operation.target alpha x y) a after := by
  unfold parallelRankUpdate at accepted
  split at accepted
  · cases accepted
  · simp only at accepted
    split at accepted
    · cases accepted
    next several =>
      obtain ⟨order, complete, rfl⟩ := run_tasks_accepted accepted
      have count : 0 < rt.taskCount site n := Nat.lt_of_not_le (fun none => several (none.trans (Nat.zero_le 1)))
      have splits := rank_task_splits float uplo n (rt.taskCount site n) count
      have whole := Updates.span_dispatch order splits complete (fun task small => rank_columns_updates uplo rt (task :: site)
        alpha x y fits kind _ _ (splits.ordered task small)
        ((splits.mono (task + 1) _ small (Nat.le_refl _)).trans splits.finish.le)) (place_injective uplo fits)
      rw [span_everything n (fun _ member => member.2.1)] at whole
      exact whole.wrote a

variable (store) in
theorem unit_rank_updates (fits : store.Fits n) (kind : operation.Kind T) (prefer : Bool) (serial : Site) :
    Updates (storedCells uplo n) (store.place uplo n) (operation.target alpha x y) (fun a =>
      (parallelRankUpdate prefer float rt site store operation uplo n alpha x y a).getD
        (rankColumns rt serial store operation uplo n 0 n alpha x y a)) :=
  attempt_updates _ (fun a after accepted => parallel_rank_wrote float rt site alpha x y fits kind prefer a after accepted)
    (rank_triangle_updates store rt serial alpha x y fits kind)

theorem dense_unit_updates (tuning : RankUpdateProfile) (lda : Int) (fits : n ≤ toUsize lda) (kind : operation.Kind T) :
    Updates (storedCells uplo n) (RankStorage.place (.dense lda) uplo n) (operation.target alpha x y)
      (fun a => denseUnitRank tuning float rt site operation uplo n alpha x y a lda) :=
  unit_rank_updates (.dense lda) float rt (0 :: site) alpha x y fits kind _ (1 :: site)

theorem packed_unit_updates (tuning : RankUpdateProfile) (kind : operation.Kind T) :
    Updates (storedCells uplo n) (RankStorage.place .packed uplo n) (operation.target alpha x y)
      (packedUnitRank tuning float rt site operation uplo n alpha x y) := by
  cases prefer : tuning.preferPackedStructuredParallel n with
  | true =>
    refine (unit_rank_updates .packed float rt (0 :: site) alpha x y trivial kind
      (tuning.preferPackedTaskComposition n) (1 :: site)).congr_run (fun ap => ?_)
    simp only [packedUnitRank, prefer, if_true]
    rfl
  | false =>
    refine (rank_triangle_updates .packed rt (1 :: site) alpha x y trivial kind).congr_run (fun ap => ?_)
    simp only [packedUnitRank, prefer, Bool.false_eq_true, if_false, Option.getD_none]
    rfl

end Triangle

section Strided

variable {store : RankStorage} {uplo : Triangle} {n : Nat}

theorem strided_element_updates (hermitian : Bool) (update : Nat → Nat → T) (i j : Nat) :
    Updates {(i, j)} (store.place uplo n)
      (fun cell old => clearedIf (hermitian && cell.1 = cell.2) (old + update cell.1 cell.2))
      (stridedElement store hermitian uplo n update i j) := by
  have added : Updates {(i, j)} (store.place uplo n) (fun cell old => old + update cell.1 cell.2)
      (fun a => Function.update a (store.index uplo n i j) (a (store.index uplo n i j) + update i j)) :=
    updates_point (i, j) (store.place uplo n) (fun cell old => old + update cell.1 cell.2)
  have cleared : Updates {(i, j)} (store.place uplo n) (fun cell (old : T) => clearedIf (hermitian && cell.1 = cell.2) old)
      (fun a => if hermitian ∧ i = j then
        Function.update a (store.index uplo n i j) (realOnly (a (store.index uplo n i j))) else a) := by
    refine updates_guard _ (fun both => ?_) (fun neither => ?_)
    · refine (updates_point (i, j) (store.place uplo n) (fun _ (old : T) => realOnly old)).congr rfl (fun cell old member => ?_)
      rw [show cell = (i, j) from member, both.1, decide_eq_true both.2]
      rfl
    · refine (updates_same _ _).congr rfl (fun cell old member => ?_)
      have off : (hermitian && decide (i = j)) = false := by simpa using neither
      rw [show cell = (i, j) from member, off]
      rfl
  exact added.then_same cleared

theorem strided_rank_updates (fits : store.Fits n) (hermitian : Bool) (update : Nat → Nat → T) :
    Updates (storedCells uplo n) (store.place uplo n)
      (fun cell old => clearedIf (hermitian && cell.1 = cell.2) (old + update cell.1 cell.2))
      (stridedRank store hermitian uplo n update) := by
  have injective := place_injective uplo fits
  refine Updates.loop_by_class _ Prod.snd n _ (fun j inside => ?_) (fun _ member => member.2.1) injective
  have apart : Set.InjOn (store.place uplo n) {cell | cell ∈ storedCells uplo n ∧ cell.2 = j} :=
    injective.mono (fun _ member => member.1)
  have turns : ∀ i, storedFirst uplo j ≤ i → i < storedEnd uplo n j →
      Updates (spanOf {cell | cell ∈ storedCells uplo n ∧ cell.2 = j} Prod.fst i (i + 1)) (store.place uplo n)
        (fun cell old => clearedIf (hermitian && cell.1 = cell.2) (old + update cell.1 cell.2))
        (fun a => stridedElement store hermitian uplo n update i j a) := by
    intro i lower upper
    have kept := (stored_rows uplo n i j inside).mp ⟨lower, upper⟩
    refine (strided_element_updates hermitian update i j).congr ?_ (fun _ _ _ => rfl)
    ext cell
    constructor
    · intro member
      rw [show cell = (i, j) from member]
      exact ⟨⟨⟨kept.1, inside, kept.2⟩, rfl⟩, Nat.le_refl i, Nat.lt_succ_self i⟩
    · intro member
      exact Prod.ext (Nat.le_antisymm (Nat.le_of_lt_succ member.2.2) member.2.1) member.1.2
  refine (Updates.span_range (storedFirst uplo j) (storedEnd uplo n j) turns apart).congr ?_ (fun _ _ _ => rfl)
  ext cell
  constructor
  · exact fun member => member.1
  · intro member
    obtain ⟨kept, rfl⟩ := member
    exact ⟨⟨kept, rfl⟩, (stored_rows uplo n cell.1 cell.2 inside).mpr ⟨kept.1, kept.2.2⟩⟩

end Strided

-- A call of one of the eight routines. her, hpr, her2 and hpr2 are the Hermitian ones.
structure RankCall (T : Type) where
  operation : DenseRankOperation
  uplo : Triangle
  n : Int
  alpha : T
  x : Mem T
  incx : Int
  y : Mem T
  incy : Int

namespace RankCall

variable (call : RankCall T)

def order : Nat := toUsize call.n

def cells : Set (Nat × Nat) := storedCells call.uplo call.order

-- The scalar of her and hpr is a real number.
def scalar : T := if call.operation = .her then realOnly call.alpha else call.alpha

def elementX (i : Nat) : T := vectorGet call.x (startIndex call.n call.incx) i call.incx

def elementY (i : Nat) : T := vectorGet call.y (startIndex call.n call.incy) i call.incy

def added (i j : Nat) : T := call.operation.added call.scalar call.elementX call.elementY i j

def target (cell : Nat × Nat) (old : T) : T := call.operation.target call.scalar call.elementX call.elementY cell old

structure Regular (call : RankCall T) : Prop where
  first : call.incx ≠ 0
  second : call.operation.rankTwo = true → call.incy ≠ 0

def run (tuning : RankUpdateProfile) (float : FloatArithmetic) (rt : Runtime) (site : Site) (store : RankStorage) (a : Mem T) :
    Mem T :=
  match call.operation, store with
  | .syr, .dense lda => syr tuning float rt site call.uplo call.n call.alpha call.x call.incx a lda
  | .syr, .packed => spr tuning float rt site call.uplo call.n call.alpha call.x call.incx a
  | .her, .dense lda => her tuning float rt site call.uplo call.n call.alpha call.x call.incx a lda
  | .her, .packed => hpr tuning float rt site call.uplo call.n call.alpha call.x call.incx a
  | .syr2, .dense lda => syr2 tuning float rt site call.uplo call.n call.alpha call.x call.incx call.y call.incy a lda
  | .syr2, .packed => spr2 tuning float rt site call.uplo call.n call.alpha call.x call.incx call.y call.incy a
  | .her2, .dense lda => her2 tuning float rt site call.uplo call.n call.alpha call.x call.incx call.y call.incy a lda
  | .her2, .packed => hpr2 tuning float rt site call.uplo call.n call.alpha call.x call.incx call.y call.incy a

end RankCall

section Routines

theorem no_stored_cells (uplo : Triangle) (n : Int) (none : n ≤ 0) : storedCells uplo (toUsize n) = ∅ := by
  have order : toUsize n = 0 := Int.toNat_of_nonpos none
  refine Set.eq_empty_of_forall_notMem (fun cell member => ?_)
  exact absurd (order ▸ member.1) (Nat.not_lt_zero _)

variable [LawfulScalar T]

theorem added_zero (operation : DenseRankOperation) (x y : Nat → T) (i j : Nat) : operation.added 0 x y i j = 0 := by
  cases operation with
  | syr => simp only [DenseRankOperation.added, zero_mul, mul_zero]
  | her => simp only [DenseRankOperation.added, zero_mul, mul_zero]
  | syr2 => simp only [DenseRankOperation.added, zero_mul, mul_zero, add_zero]
  | her2 => simp only [DenseRankOperation.added, conj_zero, zero_mul, mul_zero, add_zero]

variable {call : RankCall T} {store : RankStorage}

-- What lets a call return at once.
def RankCall.Idle (call : RankCall T) : Prop :=
  call.n ≤ 0 ∨ call.incx = 0 ∨ (call.operation.rankTwo = true ∧ call.incy = 0) ∨ call.scalar = 0

theorem idle_target (regular : call.Regular) (active : call.operation.hermitian = true → call.scalar ≠ 0) (idle : call.Idle)
    (cell : Nat × Nat) (old : T) (member : cell ∈ call.cells) : old = call.target cell old := by
  rcases idle with none | still | still | zero
  · rw [RankCall.cells, RankCall.order, no_stored_cells call.uplo call.n none] at member
    exact absurd member (Set.notMem_empty cell)
  · exact absurd still regular.first
  · exact absurd still.2 (regular.second still.1)
  · have plain : call.operation.hermitian = false := Bool.eq_false_iff.mpr (fun hermitian => active hermitian zero)
    rw [RankCall.target, plain_target call.scalar call.elementX call.elementY plain, zero, added_zero, add_zero]

-- The shape of the eight routines: return, take the unit-stride route, or loop.
theorem call_updates (fits : store.Fits call.order) (regular : call.Regular)
    (active : call.operation.hermitian = true → call.scalar ≠ 0) (idle unit : Prop) [Decidable idle] [Decidable unit]
    (still : idle → call.Idle) {direct : Mem T → Mem T}
    (taken : unit → Updates call.cells (store.place call.uplo call.order) call.target direct) :
    Updates call.cells (store.place call.uplo call.order) call.target (fun a => if idle then a else if unit then direct a
      else stridedRank store call.operation.hermitian call.uplo call.order call.added a) := by
  refine updates_guard _ (fun none => ?_) (fun _ => updates_guard _ taken (fun _ => ?_))
  · exact (updates_same _ _).congr rfl (fun cell old member => idle_target regular active (still none) cell old member)
  · exact strided_rank_updates fits call.operation.hermitian call.added

omit [CommRing T] [Scalar T] [LawfulScalar T] in
-- At unit stride the elements of a vector are its slots.
theorem unit_elements (x : Mem T) (n inc : Int) (unit : inc = 1) : (fun i => vectorGet x (startIndex n inc) i inc) = x := by
  funext i
  rw [unit, vector_get_unit]

omit [LawfulScalar T] in
theorem unit_target (y : Mem T) (first : call.incx = 1)
    (second : ∀ i j, call.operation.added call.scalar call.x y i j =
      call.operation.added call.scalar call.x call.elementY i j) (cell : Nat × Nat) (old : T) :
    call.operation.target call.scalar call.x y cell old = call.target cell old := by
  have slots : call.elementX = call.x := unit_elements call.x call.n call.incx first
  rw [RankCall.target, DenseRankOperation.target, DenseRankOperation.target, slots, second]

variable (tuning : RankUpdateProfile) (float : FloatArithmetic) (rt : Runtime) (site : Site)

theorem dense_call_updates (y : Mem T) (lda : Int) (fits : call.order ≤ toUsize lda) (kind : call.operation.Kind T)
    (first : call.incx = 1) (second : ∀ i j, call.operation.added call.scalar call.x y i j =
      call.operation.added call.scalar call.x call.elementY i j) :
    Updates call.cells (RankStorage.place (.dense lda) call.uplo call.order) call.target
      (fun a => denseUnitRank tuning float rt site call.operation call.uplo call.order call.scalar call.x y a lda) :=
  (dense_unit_updates float rt site call.scalar call.x y tuning lda fits kind).congr rfl
    (fun cell old _ => unit_target y first second cell old)

theorem packed_call_updates (y : Mem T) (kind : call.operation.Kind T) (first : call.incx = 1)
    (second : ∀ i j, call.operation.added call.scalar call.x y i j =
      call.operation.added call.scalar call.x call.elementY i j) :
    Updates call.cells (RankStorage.place .packed call.uplo call.order) call.target
      (packedUnitRank tuning float rt site call.operation call.uplo call.order call.scalar call.x y) :=
  (packed_unit_updates float rt site call.scalar call.x y tuning kind).congr rfl
    (fun cell old _ => unit_target y first second cell old)

theorem rank_one_updates (fits : store.Fits call.order) (regular : call.Regular)
    (active : call.operation.hermitian = true → call.scalar ≠ 0) (one : call.operation.rankTwo = false) :
    Updates call.cells (store.place call.uplo call.order) call.target (call.run tuning float rt site store) := by
  have still : call.n ≤ 0 ∨ call.incx = 0 ∨ isZero call.scalar = true → call.Idle := fun idle =>
    idle.imp id (fun rest => rest.imp id (fun zero => Or.inr ((LawfulScalar.isZero_iff _).mp zero)))
  have kind : call.operation.Kind T := fun two => by cases one.symm.trans two
  obtain ⟨operation, uplo, n, alpha, x, incx, y, incy⟩ := call
  cases operation with
  | syr2 => cases one
  | her2 => cases one
  | syr =>
    cases store with
    | dense lda =>
      exact call_updates fits regular active _ _ still
        (fun unit => dense_call_updates tuning float rt site x lda fits kind unit.2 (fun _ _ => rfl))
    | packed =>
      exact call_updates fits regular active _ _ still
        (fun unit => packed_call_updates tuning float rt site x kind unit.2.1 (fun _ _ => rfl))
  | her =>
    cases store with
    | dense lda =>
      exact call_updates fits regular active _ _ still
        (fun unit => dense_call_updates tuning float rt site x lda fits kind unit.2 (fun _ _ => rfl))
    | packed =>
      exact call_updates fits regular active _ _ still
        (fun unit => packed_call_updates tuning float rt site x kind unit.2.1 (fun _ _ => rfl))

theorem rank_two_updates (fits : store.Fits call.order) (regular : call.Regular)
    (active : call.operation.hermitian = true → call.scalar ≠ 0) (two : call.operation.rankTwo = true) :
    Updates call.cells (store.place call.uplo call.order) call.target (call.run tuning float rt site store) := by
  have still : call.n ≤ 0 ∨ call.incx = 0 ∨ call.incy = 0 ∨ isZero call.scalar = true → call.Idle := fun idle =>
    idle.imp id (fun rest => rest.imp id (fun last => last.imp (fun none => ⟨two, none⟩)
      (fun zero => (LawfulScalar.isZero_iff _).mp zero)))
  have second : call.incy = 1 → ∀ i j, call.operation.added call.scalar call.x call.y i j =
      call.operation.added call.scalar call.x call.elementY i j := fun unit i j => by
    rw [show call.elementY = call.y from unit_elements call.y call.n call.incy unit]
  have symmetric : isReal T = true → Scalar.isComplex T = false := fun real => by simpa [isReal] using real
  obtain ⟨operation, uplo, n, alpha, x, incx, y, incy⟩ := call
  cases operation with
  | syr => cases two
  | her => cases two
  | syr2 =>
    cases store with
    | dense lda =>
      exact call_updates fits regular active _ _ still (fun unit => dense_call_updates tuning float rt site y lda fits
        (fun _ => (symmetric unit.1).symm) unit.2.1 (second unit.2.2))
    | packed =>
      exact call_updates fits regular active _ _ still (fun unit => packed_call_updates tuning float rt site y
        (fun _ => (symmetric unit.1).symm) unit.2.1 (second unit.2.2.1))
  | her2 =>
    cases store with
    | dense lda =>
      exact call_updates fits regular active _ _ still (fun unit => dense_call_updates tuning float rt site y lda fits
        (fun _ => unit.1.symm) unit.2.1 (second unit.2.2))
    | packed =>
      exact call_updates fits regular active _ _ still (fun unit => packed_call_updates tuning float rt site y
        (fun _ => unit.1.symm) unit.2.1 (second unit.2.2.1))

variable (store) in
theorem call_run_updates (fits : store.Fits call.order) (regular : call.Regular)
    (active : call.operation.hermitian = true → call.scalar ≠ 0) :
    Updates call.cells (store.place call.uplo call.order) call.target (call.run tuning float rt site store) := by
  cases two : call.operation.rankTwo with
  | true => exact rank_two_updates tuning float rt site fits regular active two
  | false => exact rank_one_updates tuning float rt site fits regular active two

theorem call_run_idle (idle : call.n ≤ 0 ∨ call.scalar = 0) (a : Mem T) : call.run tuning float rt site store a = a := by
  have zero : ∀ {scalar : T}, call.n ≤ 0 ∨ scalar = 0 → call.n ≤ 0 ∨ isZero scalar = true := fun idle =>
    idle.imp id (fun nothing => (LawfulScalar.isZero_iff _).mpr nothing)
  obtain ⟨operation, uplo, n, alpha, x, incx, y, incy⟩ := call
  have guard := zero idle
  have one := guard.imp id (fun nothing => Or.inr (a := incx = 0) nothing)
  have two := guard.imp id (fun nothing => Or.inr (a := incx = 0) (Or.inr (a := incy = 0) nothing))
  cases operation with
  | syr => cases store <;> exact if_pos one
  | her => cases store <;> exact if_pos one
  | syr2 => cases store <;> exact if_pos two
  | her2 => cases store <;> exact if_pos two

-- What the two storages of one triangle have in common.
def PackingOf (uplo : Triangle) (n : Nat) (lda : Int) (a ap : Mem T) : Prop :=
  ∀ i j, (i, j) ∈ storedCells uplo n → ap (packedIndex uplo n i j) = a (matIndex lda i j)

theorem call_packing (regular : call.Regular) (tuning' : RankUpdateProfile) (float' : FloatArithmetic) (rt' : Runtime)
    (site' : Site) (lda : Int) (fits : call.order ≤ toUsize lda) (a ap : Mem T)
    (packing : PackingOf call.uplo call.order lda a ap) :
    PackingOf call.uplo call.order lda (call.run tuning float rt site (.dense lda) a)
      (call.run tuning' float' rt' site' .packed ap) := by
  intro i j member
  by_cases nothing : call.scalar = 0
  · rw [call_run_idle tuning float rt site (Or.inr nothing), call_run_idle tuning' float' rt' site' (Or.inr nothing)]
    exact packing i j member
  · have dense := (call_run_updates (.dense lda) tuning float rt site fits regular (fun _ => nothing)).written a
      (i, j) member
    have packed := (call_run_updates .packed tuning' float' rt' site' trivial regular (fun _ => nothing)).written ap
      (i, j) member
    have same : ap (RankStorage.place .packed call.uplo call.order (i, j)) =
        a (RankStorage.place (.dense lda) call.uplo call.order (i, j)) := packing i j member
    exact packed.trans ((congrArg (call.target (i, j)) same).trans dense.symm)

end Routines

section Agreement

-- What the eight routines, and the paths below them, do to a triangle.
structure RankCall.Agree (call : RankCall T) : Prop where
  updated : ∀ tuning float rt site store, store.Fits call.order → (call.operation.hermitian = true → call.scalar ≠ 0) →
    ∀ a i j, (i, j) ∈ call.cells → call.run tuning float rt site store a (store.index call.uplo call.order i j) =
      clearedIf (call.operation.hermitian && i = j) (a (store.index call.uplo call.order i j) + call.added i j)
  kept : ∀ tuning float rt site store, store.Fits call.order → ∀ a slot,
    (∀ i j, (i, j) ∈ call.cells → slot ≠ store.index call.uplo call.order i j) →
    call.run tuning float rt site store a slot = a slot
  outside : ∀ tuning float rt site lda, call.order ≤ toUsize lda → ∀ a row col, row < toUsize lda → (row, col) ∉ call.cells →
    call.run tuning float rt site (.dense lda) a (matIndex lda row col) = a (matIndex lda row col)
  diagonal : ∀ tuning float rt site store, store.Fits call.order → call.operation.hermitian = true → call.scalar ≠ 0 →
    ∀ a j, j < call.order → let after := call.run tuning float rt site store a (store.index call.uplo call.order j j)
      realOnly after = after
  idle : call.n ≤ 0 ∨ call.scalar = 0 → ∀ tuning float rt site store a, call.run tuning float rt site store a = a
  packing : ∀ tuning float rt site tuning' float' rt' site' lda, call.order ≤ toUsize lda → ∀ a ap,
    PackingOf call.uplo call.order lda a ap → PackingOf call.uplo call.order lda (call.run tuning float rt site (.dense lda) a)
      (call.run tuning' float' rt' site' .packed ap)
  columns : ∀ rt site store, store.Fits call.order → call.operation.Kind T → ∀ j0 j1, j0 ≤ j1 → j1 ≤ call.order →
    Updates (spanOf call.cells Prod.snd j0 j1) (store.place call.uplo call.order)
      (call.operation.target call.scalar call.x call.y)
      (rankColumns rt site store call.operation call.uplo call.order j0 j1 call.scalar call.x call.y)
  tiles : ∀ rt site store, store.Fits call.order → call.operation.rankTwo = true → call.operation.Kind T → ∀ j0 j1, j0 ≤ j1 →
    j1 ≤ call.order → ∃ first, j0 ≤ first ∧ first ≤ j1 ∧
      (∀ a, (tiledRankTwoColumns rt site store call.uplo call.order j0 j1 call.scalar call.x call.y a).1 = first) ∧
      Updates (spanOf call.cells Prod.snd j0 first) (store.place call.uplo call.order)
        (call.operation.target call.scalar call.x call.y)
        (fun a => (tiledRankTwoColumns rt site store call.uplo call.order j0 j1 call.scalar call.x call.y a).2)
  tasks : ∀ prefer float rt site store, store.Fits call.order → call.operation.Kind T → ∀ a after,
    parallelRankUpdate prefer float rt site store call.operation call.uplo call.order call.scalar call.x call.y a = some after →
    Wrote call.cells (store.place call.uplo call.order) (call.operation.target call.scalar call.x call.y) a after
  answers : ∀ float rt site store a, 1 < rt.taskCount site call.order →
    (rt.dispatch site (rt.taskCount site call.order)).isSome = true → ∃ after,
      parallelRankUpdate true float rt site store call.operation call.uplo call.order call.scalar call.x call.y a = some after
  boundaries : ∀ float taskCount, 0 < taskCount →
    Splits taskCount (denseRankTaskBoundary float call.uplo call.order taskCount) 0 call.order

variable [LawfulScalar T]

theorem call_kept {call : RankCall T} (regular : call.Regular) (tuning : RankUpdateProfile) (float : FloatArithmetic) (rt : Runtime)
    (site : Site) (store : RankStorage) (fits : store.Fits call.order) (a : Mem T) (slot : Nat)
    (apart : ∀ i j, (i, j) ∈ call.cells → slot ≠ store.index call.uplo call.order i j) :
    call.run tuning float rt site store a slot = a slot := by
  by_cases nothing : call.scalar = 0
  · rw [call_run_idle tuning float rt site (Or.inr nothing)]
  · refine (call_run_updates store tuning float rt site fits regular (fun _ => nothing)).kept a slot (fun cell member => ?_)
    exact (apart cell.1 cell.2 member).symm

theorem rank_updates_agree (call : RankCall T) (regular : call.Regular) : call.Agree where
  updated tuning float rt site store fits active a i j member :=
    (call_run_updates store tuning float rt site fits regular active).written a (i, j) member
  kept tuning float rt site store fits a slot apart := call_kept regular tuning float rt site store fits a slot apart
  outside tuning float rt site lda fits a row col inRow off := by
    refine call_kept regular tuning float rt site (.dense lda) fits a _ (fun i j member same => off ?_)
    have inside : i < toUsize lda := member.1.trans_le fits
    have equal : (row, col) = (i, j) := mat_index_injective lda (toUsize lda) (Nat.le_refl _) inRow inside same
    exact equal ▸ member
  diagonal tuning float rt site store fits hermitian active a j inside := by
    have written := (call_run_updates store tuning float rt site fits regular (fun _ => active)).written a (j, j)
      ⟨inside, inside, stored_diagonal call.uplo j⟩
    intro after
    have cleared : after = realOnly (a (store.index call.uplo call.order j j) + call.added j j) := by
      refine Eq.trans written ?_
      rw [RankCall.target, cleared_target call.scalar call.elementX call.elementY hermitian, clearedIf, decide_eq_true rfl,
        if_pos rfl]
      rfl
    rw [cleared, LawfulScalar.realOnly_idem]
  idle idle tuning float rt site store a := call_run_idle tuning float rt site idle a
  packing tuning float rt site tuning' float' rt' site' lda fits a ap packing :=
    call_packing tuning float rt site regular tuning' float' rt' site' lda fits a ap packing
  columns rt site store fits kind j0 j1 ordered bound :=
    rank_columns_updates call.uplo rt site call.scalar call.x call.y fits kind j0 j1 ordered bound
  tiles rt site store fits two kind j0 j1 ordered bound :=
    tiled_rank_two_updates call.uplo rt site call.scalar call.x call.y fits j0 j1 ordered bound two (kind two)
  tasks prefer float rt site store fits kind a after accepted :=
    parallel_rank_wrote float rt site call.scalar call.x call.y fits kind prefer a after accepted
  answers float rt site store a several dispatched := by
    refine Option.isSome_iff_exists.mp ?_
    rw [parallelRankUpdate, if_neg (fun refused => Bool.noConfusion refused), if_neg (Nat.not_le_of_lt several), Runtime.runTasks,
      Option.isSome_map]
    exact dispatched
  boundaries float taskCount several := rank_task_splits float call.uplo call.order taskCount several

/- A Hermitian update of a matrix of one element by no multiple of its vector returns
   at once and leaves the imaginary part. -/
theorem idle_her_keeps_imaginary :
    let _ := complexKind Int .double
    let after := her RankUpdateProfile.production FloatArithmetic.fixedPoint Runtime.sequential [] .upper 1 (0 : Cplx Int)
      (fun _ => 1) 1 (fun _ => ⟨3, 5⟩) 1 0
    after = ⟨3, 5⟩ ∧ realOnly after ≠ after := by
  decide

-- Column 7 has no multiple of either vector. Its diagonal element is cleared all the same.
def rankSmall : RankCall (Cplx Int) where
  operation := .her2
  uplo := .lower
  n := 130
  alpha := ⟨2, 1⟩
  x i := if i = 7 then 0 else ⟨i, 1⟩
  incx := 1
  y i := if i = 7 then 0 else ⟨1, i⟩
  incy := 1

theorem rank_updates_agree_small :
    let _ := complexKind Int .double
    let tuning : RankUpdateProfile := ⟨0, 0, 0⟩
    let a : Mem (Cplx Int) := fun slot => ⟨slot, 5⟩
    let dense := rankSmall.run tuning FloatArithmetic.fixedPoint (Runtime.splitting 3) [] (.dense 131) a
    let packed := rankSmall.run tuning FloatArithmetic.fixedPoint (Runtime.splitting 3) [] .packed a
    dense (matIndex 131 129 3) = ⟨1822, 5⟩ ∧ dense (matIndex 131 7 7) = ⟨924, 0⟩ ∧
      dense (matIndex 131 130 3) = ⟨523, 5⟩ ∧ packed (packedIndex .lower 130 7 7) = ⟨889, 0⟩ := by
  let _ := complexKind Int .double
  have _ := complex_kind_lawful Int .double
  have agree := rank_updates_agree rankSmall ⟨by decide, by decide⟩
  have fits : rankSmall.order ≤ toUsize 131 := by decide
  have active : rankSmall.operation.hermitian = true → rankSmall.scalar ≠ 0 := by decide
  refine ⟨(agree.updated _ _ _ _ (.dense 131) fits active _ 129 3 ⟨by decide, by decide, by decide⟩).trans ?_,
    (agree.updated _ _ _ _ (.dense 131) fits active _ 7 7 ⟨by decide, by decide, by decide⟩).trans ?_,
    agree.outside _ _ _ _ 131 fits _ 130 3 (by decide) (fun member => absurd member.1 (by decide)),
    (agree.updated _ _ _ _ .packed trivial active _ 7 7 ⟨by decide, by decide, by decide⟩).trans ?_⟩
  · decide
  · decide
  · decide

end Agreement

end Zynum
