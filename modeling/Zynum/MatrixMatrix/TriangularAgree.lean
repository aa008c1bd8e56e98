import Zynum.MatrixMatrix.TriangularMultiplyExact
import Zynum.MatrixMatrix.TriangularSolveRoutes

set_option autoImplicit false

/- TRMM and TRSM as a caller sees them: what they leave in B, and that no route, no
   block size and no split of the work changes it. -/
namespace Zynum

open ArrayProgram

variable {T : Type} [CommRing T] [Scalar T]

section Results

def TriangularCall.product (call : TriangularCall T) (m n : Nat) (b : Mem T) (i j : Nat) : T :=
  match call.side with
  | .left => ∑ p ∈ Finset.range m, triangle call.uplo call.diag call.mode (denseEntry call.a call.lda) i p * b (matIndex call.ldb p j)
  | .right =>
      ∑ p ∈ Finset.range n, b (matIndex call.ldb i p) * triangle call.uplo call.diag call.mode (denseEntry call.a call.lda) p j

def RestKept (m n : Nat) (ldb : Int) (before after : Mem T) : Prop :=
  ∀ location, (∀ i j, i < m → j < n → matIndex ldb i j ≠ location) → after location = before location

structure Multiplies (call : TriangularCall T) (m n : Nat) (before after : Mem T) : Prop where
  entry : ∀ i j, i < m → j < n → after (matIndex call.ldb i j) = call.alpha * call.product m n before i j
  rest : RestKept m n call.ldb before after

structure Solves (call : TriangularCall T) (m n : Nat) (before after : Mem T) : Prop where
  equation : ∀ i j, i < m → j < n → call.product m n after i j = call.alpha * before (matIndex call.ldb i j)
  rest : RestKept m n call.ldb before after

variable (call : TriangularCall T) (m n : Nat) (before : Mem T)

omit [CommRing T] [Scalar T] in
theorem rest_kept_side {side : OperandSide} {ldb : Int} {value : Nat × Nat → T → T} {after : Mem T}
    (wrote : Wrote (laneCells (Finset.range (dimension side m n)) (Set.Iio (rhsCount side m n))) (sideAddress side ldb)
      value before after) :
    RestKept m n ldb before after := by
  intro location apart
  refine wrote.kept location (fun cell member => ?_)
  have place := Finset.mem_range.mp member.1
  have lane : cell.2 < rhsCount side m n := member.2
  cases side with
  | left => exact apart cell.1 cell.2 place lane
  | right => exact apart cell.2 cell.1 lane place

theorem side_of_element (side : OperandSide) (ldb : Int) (i j : Nat) (inRows : i < m) (inColumns : j < n) :
    ∃ cell, cell ∈ laneCells (Finset.range (dimension side m n)) (Set.Iio (rhsCount side m n)) ∧ sideAddress side ldb
    cell = matIndex ldb i j ∧
      cell = sideCell side (i, j) := by
  cases side with
  | left => exact ⟨(i, j), ⟨Finset.mem_range.mpr inRows, inColumns⟩, rfl, rfl⟩
  | right => exact ⟨(j, i), ⟨Finset.mem_range.mpr inColumns, inRows⟩, rfl, rfl⟩

theorem product_on_side (i j : Nat) :
    call.product m n before i j = ∑ p ∈ Finset.range (dimension call.side m n), call.matrix (sideCell call.side (i, j)).1 p *
      before (sideAddress call.side call.ldb (p, (sideCell call.side (i, j)).2)) := by
  rw [TriangularCall.product]
  cases side : call.side with
  | left =>
    refine Finset.sum_congr rfl (fun p _ => ?_)
    rw [call_matrix_left call side]
    rfl
  | right =>
    refine Finset.sum_congr rfl (fun p _ => ?_)
    rw [call_matrix_right call side, mul_comm]
    rfl

theorem multiplied_entries (after : Mem T) (multiplied : Multiplied call m n (Set.Iio (rhsCount call.side m n)) before after) :
    Multiplies call m n before after := by
  refine ⟨fun i j inRows inColumns => ?_, rest_kept_side m n before multiplied⟩
  obtain ⟨cell, member, place, rfl⟩ := side_of_element m n call.side call.ldb i j inRows inColumns
  rw [← place, multiplied.written _ member, product_on_side]

theorem multiplies_unique (first second : Mem T) (left : Multiplies call m n before first)
    (right : Multiplies call m n before second) :
    first = second := by
  refine same_store (fun cell : Nat × Nat => matIndex call.ldb cell.1 cell.2) (matrixCells m n) first second (fun cell member => ?_)
    (fun location apart => ?_)
  · rw [left.entry _ _ member.1 member.2, right.entry _ _ member.1 member.2]
  · rw [left.rest location (fun i j inRows inColumns => apart (i, j) ⟨inRows, inColumns⟩),
      right.rest location (fun i j inRows inColumns => apart (i, j) ⟨inRows, inColumns⟩)]

variable [LawfulScalar T] [Div T] [ExactDivision T]

theorem solved_equations (solvable : call.Solvable m n) (after : Mem T)
    (solved : Solved call call.alpha m n (Set.Iio (rhsCount call.side m n)) before after) : Solves call m n before after := by
  have regular := solvable_matrix call m n solvable
  obtain ⟨X, solves⟩ := triangular_solution_exists (dimension call.side m n) call.matrix (reachesForward call)
    (matrix_triangular call _) regular.units (Set.Iio (rhsCount call.side m n))
    (fun d r => call.alpha * before (sideAddress call.side call.ldb (d, r)))
  have wrote := solved X solves
  refine ⟨fun i j inRows inColumns => ?_, rest_kept_side m n before wrote⟩
  obtain ⟨cell, member, place, rfl⟩ := side_of_element m n call.side call.ldb i j inRows inColumns
  rw [product_on_side, ← place]
  refine Eq.trans ?_ (solves _ member.1 _ member.2)
  exact Finset.sum_congr rfl (fun p inside => congrArg (call.matrix _ p * ·) (wrote.written (p, _) ⟨inside, member.2⟩))

theorem solves_unique (solvable : call.Solvable m n) (first second : Mem T) (left : Solves call m n before first)
    (right : Solves call m n before second) : first = second := by
  have regular := solvable_matrix call m n solvable
  have system : ∀ after, Solves call m n before after → IsSolution (Finset.range (dimension call.side m n))
      (Set.Iio (rhsCount call.side m n)) call.matrix (fun p r => after (sideAddress call.side call.ldb (p, r)))
      (fun d r => call.alpha * before (sideAddress call.side call.ldb (d, r))) := by
    intro after solves d inPlaces r inLanes
    have place := Finset.mem_range.mp inPlaces
    have lane : r < rhsCount call.side m n := inLanes
    have inside : (sideCell call.side (d, r)).1 < m ∧ (sideCell call.side (d, r)).2 < n := by
      cases side : call.side with
      | left =>
        rw [side] at place lane
        exact ⟨place, lane⟩
      | right =>
        rw [side] at place lane
        exact ⟨lane, place⟩
    have equation := solves.equation _ _ inside.1 inside.2
    rw [product_on_side] at equation
    have back : sideCell call.side ((sideCell call.side (d, r)).1, (sideCell call.side (d, r)).2) = (d, r) :=
      side_cell_twice call.side (d, r)
    rw [back] at equation
    refine equation.trans ?_
    have address : matIndex call.ldb (sideCell call.side (d, r)).1 (sideCell call.side (d, r)).2 = sideAddress call.side
      call.ldb (d, r) :=
      (side_address_cell call.side call.ldb (d, r)).symm
    rw [address]
  refine same_store (sideAddress call.side call.ldb)
    (laneCells (Finset.range (dimension call.side m n)) (Set.Iio (rhsCount call.side m n))) first second (fun cell member => ?_)
    (fun location apart => ?_)
  · exact triangular_solution_unique _ call.matrix (reachesForward call) (matrix_triangular call _) regular.units _ _ _ _
      (system first left) (system second right) cell.1 cell.2 (Finset.mem_range.mp member.1) member.2
  · have outside : ∀ i j, i < m → j < n → matIndex call.ldb i j ≠ location := fun i j inRows inColumns same => by
      obtain ⟨cell, member, place, _⟩ := side_of_element m n call.side call.ldb i j inRows inColumns
      exact apart cell member (place.trans same)
    rw [left.rest location outside, right.rest location outside]

end Results

section Calls

variable (call : TriangularCall T) (m n : Nat)

def TriangularCall.withOperand (call : TriangularCall T) (a : Mem T) (lda : Int) : TriangularCall T :=
    { call with a := a, lda := lda }

def TriangularCall.SameOperand (call : TriangularCall T) (m n : Nat) (a : Mem T) (lda : Int) : Prop :=
  SameTriangle call.uplo call.diag (dimension call.side m n : Nat) (denseEntry a lda) (denseEntry call.a call.lda)

theorem product_with_operand (a : Mem T) (lda : Int) (same : call.SameOperand m n a lda) (b : Mem T) (i j : Nat) (inRows : i < m)
    (inColumns : j < n) : (call.withOperand a lda).product m n b i j = call.product m n b i j := by
  have equal : ∀ d p, d < dimension call.side m n → p < dimension call.side m n →
      triangle call.uplo call.diag call.mode (denseEntry a lda) d p =
        triangle call.uplo call.diag call.mode (denseEntry call.a call.lda) d p := by
    intro d p inRow inColumn
    have order : toUsize (dimension call.side m n : Nat) = dimension call.side m n := Int.toNat_natCast _
    exact same.triangle d p (by rw [order]; exact Finset.mem_range.mpr inRow) (by rw [order]; exact Finset.mem_range.mpr inColumn)
  simp only [TriangularCall.product, TriangularCall.withOperand]
  cases side : call.side with
  | left =>
    rw [side] at equal
    exact Finset.sum_congr rfl (fun p inside => by rw [equal i p inRows (Finset.mem_range.mp inside)])
  | right =>
    rw [side] at equal
    exact Finset.sum_congr rfl (fun p inside => by rw [equal p j (Finset.mem_range.mp inside) inColumns])

theorem Multiplies.with_operand (a : Mem T) (lda : Int) (same : call.SameOperand m n a lda) {before after : Mem T}
    (multiplies : Multiplies (call.withOperand a lda) m n before after) : Multiplies call m n before after :=
  ⟨fun i j inRows inColumns => by
    rw [← product_with_operand call m n a lda same before i j inRows inColumns]
    exact multiplies.entry i j inRows inColumns, multiplies.rest⟩

theorem Solves.with_operand (a : Mem T) (lda : Int) (same : call.SameOperand m n a lda) {before after : Mem T}
    (solves : Solves (call.withOperand a lda) m n before after) : Solves call m n before after :=
  ⟨fun i j inRows inColumns => by
    rw [← product_with_operand call m n a lda same after i j inRows inColumns]
    exact solves.equation i j inRows inColumns, solves.rest⟩

end Calls

def TriangularEnv.portable (R : Type) [CommRing R] [Scalar R] [LawfulScalar R] : TriangularEnv R where
  toLevel3Env := Level3Env.portable R
  vector := CompactEnv.production.toVectorEnv
  finite _ := true

section Routes

variable [LawfulScalar T] [Div T]

def triangularCall (side uplo trans diag : Char) (alpha : T) (a : Mem T) (lda ldb : Int) : TriangularCall T where
  side := parseSide side
  uplo := parseUplo uplo
  mode := parseTrans trans
  diag := parseDiag diag
  alpha := alpha
  a := a
  lda := lda
  ldb := ldb

-- Every way the code has of carrying out TRMM or TRSM, the whole routine first.
inductive TriangularRoute where
  | routine
  | serial
  | workspace (blockSize : Nat)
  | blocked (options : Options)
  | queued (perJob : Nat) (options : Options)
  | rightParallel
  | isolated

def TriangularRoute.attempt (route : TriangularRoute) (env : TriangularEnv T) (rt : Runtime) (site : Site) (operation : LeftOperation)
    (call : TriangularCall T) (m n : Int) (b : Mem T) : Bool × Mem T :=
  match operation, route with
  | .multiply, .routine => (true, trmm env rt site call m n b)
  | .solve, .routine => (true, trsm env rt site call m n b)
  | .multiply, .serial => (true, trmmSerial env rt site call (toUsize m) (toUsize n) b)
  | .solve, .serial => (true, trsmSerial env rt site call (toUsize m) (toUsize n) b)
  | .multiply, .workspace blockSize => (true, trmmWorkspace env rt site blockSize call (toUsize m) (toUsize n) b)
  | .solve, .workspace blockSize => (true, trsmWorkspace env rt site blockSize call (toUsize m) (toUsize n) b)
  | .multiply, .blocked options => blockedTryTrmm env rt site options call m n b
  | .solve, .blocked options => blockedTryTrsm env rt site options call m n b
  | .multiply, .queued perJob options =>
    tryQueuedTriangular rt site perJob options call (toUsize m) (toUsize n) (fun site => trmmWorkspace env rt site) b
  | .solve, .queued perJob options =>
    tryQueuedTriangular rt site perJob options call (toUsize m) (toUsize n) (fun site => trsmWorkspace env rt site) b
  | operation, .rightParallel => rightParallelTryDispatch env rt site operation call (toUsize m) (toUsize n) b
  | operation, .isolated => isolatedTryRight env rt site operation call m n b

-- What the callers of a route see to: a block has a size, and two of the routes are for the right side only.
def TriangularRoute.Applies (side : OperandSide) : TriangularRoute → Prop
  | .workspace blockSize => 0 < blockSize
  | .rightParallel => side = .right
  | .isolated => side = .right
  | _ => True

theorem TriangularRoute.multiplies (route : TriangularRoute) (env : TriangularEnv T) (rt : Runtime) (site : Site)
    (call : TriangularCall T) (m n : Int) (applies : route.Applies call.side) (stepa : 0 < call.lda) (stepb : 0 < call.ldb)
    (bound : m ≤ call.ldb) :
    Tries (Multiplied call (toUsize m) (toUsize n) (Set.Iio (rhsCount call.side (toUsize m) (toUsize n))))
      (route.attempt env rt site .multiply call m n) := by
  have rows : toUsize m ≤ toUsize call.ldb := Int.toNat_le_toNat bound
  cases route with
  | routine => exact (trmm_multiplied env rt site call m n stepa stepb bound).tries
  | serial => exact (trmm_serial_multiplied env rt site call _ _ rows).tries
  | workspace blockSize => exact (trmm_workspace env rt site call blockSize _ _ applies stepa stepb rows).tries
  | blocked options => exact blocked_trmm_tries env rt site call options m n stepa stepb bound
  | queued perJob options => exact trmm_queued env rt site call perJob options _ _ stepa stepb rows
  | rightParallel =>
    have right : call.side = .right := applies
    have lanes : rhsCount call.side (toUsize m) (toUsize n) = toUsize m := by rw [right]; rfl
    rw [lanes]
    exact right_parallel_multiplied env rt site call _ _ right rows
  | isolated =>
    have right : call.side = .right := applies
    have lanes : rhsCount call.side (toUsize m) (toUsize n) = toUsize m := by rw [right]; rfl
    rw [lanes]
    exact isolated_multiplied env rt site call m n right bound

omit [LawfulScalar T] [Div T] in
theorem multiplied_unique (call : TriangularCall T) (m n : Nat) (before first second : Mem T)
    (left : Multiplied call m n (Set.Iio (rhsCount call.side m n)) before first)
    (right : Multiplied call m n (Set.Iio (rhsCount call.side m n)) before second) : first = second :=
  multiplies_unique call m n before first second (multiplied_entries call m n before first left)
    (multiplied_entries call m n before second right)

theorem trmm_routes_agree (env env' : TriangularEnv T) (rt rt' : Runtime) (site site' : Site) (side uplo trans diag : Char)
    (m n : Int) (alpha : T) (a a' : Mem T) (lda lda' ldb : Int)
    (accepted : triangularMatrixError side uplo trans diag m n lda ldb = 0) :
    let call := triangularCall side uplo trans diag alpha a lda ldb
    let result := trmm env rt site call m n
    (∀ b, Multiplies call (toUsize m) (toUsize n) b (result b)) ∧
    (0 < lda' → call.SameOperand (toUsize m) (toUsize n) a' lda' → ∀ b, trmm env' rt' site' (call.withOperand a' lda') m n
      b = result b) ∧
    (∀ bs, 0 < bs → ∀ b, trmmWorkspace env' rt' site' bs call (toUsize m) (toUsize n) b = result b) ∧
    (∀ b, trmmSerial env' rt' site' call (toUsize m) (toUsize n) b = result b) ∧
    (∀ options, Settles (blockedTryTrmm env' rt' site' options call m n) result) ∧
    (∀ perJob options, Settles (tryQueuedTriangular rt' site' perJob options call (toUsize m) (toUsize n)
      (fun site => trmmWorkspace env' rt' site)) result) ∧
    (call.side = .right → Settles (rightParallelTryDispatch env' rt' site' .multiply call (toUsize m) (toUsize n)) result ∧
      Settles (isolatedTryRight env' rt' site' .multiply call m n) result) := by
  intro call result
  obtain ⟨stepa, stepb, bound⟩ := triangular_matrix_accepted_bounds side uplo trans diag m n lda ldb accepted
  have whole : Meets (Multiplied call (toUsize m) (toUsize n) (Set.Iio (rhsCount call.side (toUsize m) (toUsize n)))) result :=
    trmm_multiplied env rt site call m n stepa stepb bound
  have unique := multiplied_unique call (toUsize m) (toUsize n)
  have entries : ∀ b, Multiplies call (toUsize m) (toUsize n) b (result b) := fun b => multiplied_entries call _ _ b _ (whole b)
  have settles : ∀ route : TriangularRoute, route.Applies call.side →
      Settles (route.attempt env' rt' site' .multiply call m n) result := fun route applies =>
    (route.multiplies env' rt' site' call m n applies stepa stepb bound).settles whole unique
  have run : ∀ route : TriangularRoute, route.Applies call.side → ∀ b, (route.attempt env' rt' site' .multiply call m n b).1 = true →
      (route.attempt env' rt' site' .multiply call m n b).2 = result b := fun route applies b answered =>
    unique b _ _ ((route.multiplies env' rt' site' call m n applies stepa stepb bound).ran b answered) (whole b)
  refine ⟨entries, fun step' same b => ?_, fun bs some b => run (.workspace bs) some b rfl, fun b => run .serial True.intro b rfl,
    fun options => settles (.blocked options) True.intro, fun perJob options => settles (.queued perJob options) True.intro,
    fun right => ⟨settles .rightParallel right, settles .isolated right⟩⟩
  have other := trmm_multiplied env' rt' site' (call.withOperand a' lda') m n step' stepb bound b
  exact multiplies_unique call _ _ b _ _ ((multiplied_entries (call.withOperand a' lda') _ _ b _ other).with_operand
    call _ _ a' lda' same)
    (entries b)

omit [LawfulScalar T] [Div T] in
theorem panel_ordered (call : TriangularCall T) (order bs d p : Nat) (some : 0 < bs) (inRow : d < order) (inColumn : p < order)
    (earlier : blockStep (reachesForward call) order bs p < blockStep (reachesForward call) order bs d) : call.matrix d p = 0 :=
  matrix_triangular call order d p inRow inColumn (block_step_before (reachesForward call) order bs d p some inRow inColumn earlier)

omit [Div T] in
-- The first t blocks of a panel, in the order of the sweep, each by one step.
theorem panel_steps (env : TriangularEnv T) (rt : Runtime) (site : Site) (call : TriangularCall T) (m n bs r0 t : Nat) (wide : Bool)
    (some : 0 < bs) (inside : r0 < rhsCount call.side m n) (stepa : 0 < call.lda) (stepb : 0 < call.ldb)
    (bound : m ≤ toUsize call.ldb) (reached : t ≤ blockCount (dimension call.side m n) bs) (b : Mem T) :
    let order := dimension call.side m n
    let width := min bs (rhsCount call.side m n - r0)
    Set.InjOn (sideAddress call.side call.ldb) (laneCells (Finset.range order) (Set.Ico r0 (r0 + width))) ∧
    Wrote (earlierCells order (Set.Ico r0 (r0 + width)) (blockStep (reachesForward call) order bs) t) (sideAddress call.side call.ldb)
      (fun cell _ => call.alpha * ∑ p ∈ Finset.range order, call.matrix cell.1 p * b (sideAddress call.side call.ldb (p, cell.2))) b
      (loop t (fun step => (if wide then trmmWideBlock (T := T) else trmmPanelBlock) env rt (step :: site) call bs order width r0
        step) b) := by
  intro order width
  have positive : 0 < width := Nat.lt_min.mpr ⟨some, Nat.sub_pos_of_lt inside⟩
  have reach : r0 + width ≤ rhsCount call.side m n :=
    (Nat.add_le_add_left (Nat.min_le_right _ _) r0).trans (Nat.add_sub_of_le inside.le).le
  have fits : sideRows call.side order (r0 + width) ≤ toUsize call.ldb :=
    ((side_rows_fit call.side (le_refl _) reach).trans (dimension_rows call.side _ _).le).trans bound
  have cells : laneCells (Finset.range order) (Set.Ico r0 (r0 + width)) ⊆
      laneCells (Finset.range order) (Set.Iio (rhsCount call.side m n)) :=
    fun _ member => ⟨member.1, lt_of_lt_of_le member.2.2 reach⟩
  have injective := (side_lanes_injective call.side m n call.ldb bound).mono cells
  refine ⟨injective, product_after_steps order (Set.Ico r0 (r0 + width)) (sideAddress call.side call.ldb) call.matrix call.alpha
    (blockCount order bs) (blockStep (reachesForward call) order bs) _ injective
    (fun d p inRow inColumn earlier => panel_ordered call order bs d p some inRow inColumn earlier) (fun t below current => ?_)
    b t reached⟩
  rw [block_step_cells (reachesForward call) order bs r0 width t some below]
  cases wide with
  | true => exact wide_block env rt _ call bs order width r0 t some below positive stepa stepb fits current
  | false => exact panel_block env rt _ call bs order width r0 t some below positive stepb fits current

omit [Div T] in
-- A panel of TRMM after t of its blocks: those hold the product, all else what it held before.
theorem trmm_panel_in_order (env : TriangularEnv T) (rt : Runtime) (site : Site) (side uplo trans diag : Char) (m n : Int) (alpha : T)
    (a : Mem T) (lda ldb : Int) (accepted : triangularMatrixError side uplo trans diag m n lda ldb = 0) (bs r0 t : Nat)
    (some : 0 < bs)
    (inside : r0 < rhsCount (parseSide side) (toUsize m) (toUsize n)) (wide : Bool) :
    let call := triangularCall side uplo trans diag alpha a lda ldb
    let order := dimension call.side (toUsize m) (toUsize n)
    let width := min bs (rhsCount call.side (toUsize m) (toUsize n) - r0)
    let forward := reachesForward call
    t ≤ blockCount order bs → ∀ b,
    let after := loop t (fun step => (if wide then trmmWideBlock (T := T) else trmmPanelBlock) env rt (step :: site) call
      bs order width r0
      step) b
    (∀ d r, d < order → r0 ≤ r → r < r0 + width → after (sideAddress call.side ldb (d, r)) =
      if blockStep forward order bs d < t then alpha * ∑ p ∈ Finset.range order, call.matrix d p * b
      (sideAddress call.side ldb (p, r))
      else b (sideAddress call.side ldb (d, r))) ∧
    (∀ location, (∀ d r, d < order → r0 ≤ r → r < r0 + width → sideAddress call.side ldb (d, r) ≠ location) →
      after location = b location) ∧
    ∀ d p, d < order → p < order → call.matrix d p ≠ 0 → blockStep forward order bs d ≤ blockStep forward order bs p := by
  intro call order width forward reached b after
  obtain ⟨stepa, stepb, bound⟩ := triangular_matrix_accepted_bounds side uplo trans diag m n lda ldb accepted
  obtain ⟨injective, done⟩ := panel_steps env rt site call (toUsize m) (toUsize n) bs r0 t wide some inside stepa stepb
    (Int.toNat_le_toNat bound) reached b
  refine ⟨fun d r inPlaces lower upper => ?_, fun location apart => ?_, fun d p inRow inColumn nonzero => ?_⟩
  · have member : (d, r) ∈ laneCells (Finset.range order) (Set.Ico r0 (r0 + width)) := ⟨Finset.mem_range.mpr inPlaces, lower, upper⟩
    by_cases early : blockStep forward order bs d < t
    · rw [if_pos early]
      exact done.written (d, r) ⟨member, early⟩
    · rw [if_neg early]
      exact done.untouched injective (fun _ taken => taken.1) (d, r) member (fun taken => early taken.2)
  · exact done.kept location (fun cell taken => apart cell.1 cell.2 (Finset.mem_range.mp taken.1.1) taken.1.2.1 taken.1.2.2)
  · by_contra later
    exact nonzero (panel_ordered call order bs d p some inRow inColumn (Nat.lt_of_not_le later))

variable [ExactDivision T]

theorem solved_unique (call : TriangularCall T) (m n : Nat) (solvable : call.Solvable m n) (before first second : Mem T)
    (left : Solved call call.alpha m n (Set.Iio (rhsCount call.side m n)) before first)
    (right : Solved call call.alpha m n (Set.Iio (rhsCount call.side m n)) before second) : first = second :=
  solves_unique call m n before solvable first second (solved_equations call m n before solvable first left)
    (solved_equations call m n before solvable second right)

omit [Scalar T] [LawfulScalar T] [Div T] [ExactDivision T] in
theorem solvable_with_operand (call : TriangularCall T) (m n : Nat) (a : Mem T) (lda : Int) (same : call.SameOperand m n a lda)
    (solvable : call.Solvable m n) : (call.withOperand a lda).Solvable m n := by
  intro kind d inside
  have equal := same d d inside inside (stored_diagonal call.uplo d) (fun unit => nomatch unit.symm.trans kind)
  exact fun vanishes => solvable kind d inside (equal.symm.trans vanishes)

theorem TriangularRoute.solves (route : TriangularRoute) (env : TriangularEnv T) (rt : Runtime) (site : Site)
    (call : TriangularCall T) (m n : Int) (applies : route.Applies call.side) (solvable : call.Solvable (toUsize m) (toUsize n))
    (stepa : 0 < call.lda) (stepb : 0 < call.ldb) (bound : m ≤ call.ldb) :
    Tries (Solved call call.alpha (toUsize m) (toUsize n) (Set.Iio (rhsCount call.side (toUsize m) (toUsize n))))
      (route.attempt env rt site .solve call m n) := by
  have rows : toUsize m ≤ toUsize call.ldb := Int.toNat_le_toNat bound
  have regular := solvable_matrix call _ _ solvable
  cases route with
  | routine => exact (trsm_solved env rt site call m n solvable stepa stepb bound).tries
  | serial => exact (trsm_serial_solved env rt site call _ _ solvable rows stepb).tries
  | workspace blockSize => exact (trsm_workspace env rt site call blockSize _ _ applies regular stepa stepb rows).tries
  | blocked options => exact blocked_trsm_tries env rt site call options m n regular stepa stepb bound
  | queued perJob options => exact trsm_queued env rt site call perJob options _ _ regular stepa stepb rows
  | rightParallel =>
    have right : call.side = .right := applies
    have lanes : rhsCount call.side (toUsize m) (toUsize n) = toUsize m := by rw [right]; rfl
    rw [lanes]
    exact right_parallel_solved env rt site call _ _ right solvable rows stepb
  | isolated =>
    have right : call.side = .right := applies
    have lanes : rhsCount call.side (toUsize m) (toUsize n) = toUsize m := by rw [right]; rfl
    rw [lanes]
    exact isolated_solved env rt site call m n right solvable bound stepb

theorem trsm_routes_agree (env env' : TriangularEnv T) (rt rt' : Runtime) (site site' : Site) (side uplo trans diag : Char)
    (m n : Int) (alpha : T) (a a' : Mem T) (lda lda' ldb : Int)
    (accepted : triangularMatrixError side uplo trans diag m n lda ldb = 0)
    (solvable : (triangularCall side uplo trans diag alpha a lda ldb).Solvable (toUsize m) (toUsize n)) :
    let call := triangularCall side uplo trans diag alpha a lda ldb
    let result := trsm env rt site call m n
    (∀ b, Solves call (toUsize m) (toUsize n) b (result b) ∧ ∀ other, Solves call (toUsize m) (toUsize n) b other →
      other = result b) ∧
    (0 < lda' → call.SameOperand (toUsize m) (toUsize n) a' lda' → ∀ b, trsm env' rt' site' (call.withOperand a' lda') m n
      b = result b) ∧
    (∀ bs, 0 < bs → ∀ b, trsmWorkspace env' rt' site' bs call (toUsize m) (toUsize n) b = result b) ∧
    (∀ b, trsmSerial env' rt' site' call (toUsize m) (toUsize n) b = result b) ∧
    (∀ options, Settles (blockedTryTrsm env' rt' site' options call m n) result) ∧
    (∀ perJob options, Settles (tryQueuedTriangular rt' site' perJob options call (toUsize m) (toUsize n)
      (fun site => trsmWorkspace env' rt' site)) result) ∧
    (call.side = .right → Settles (rightParallelTryDispatch env' rt' site' .solve call (toUsize m) (toUsize n)) result ∧
      Settles (isolatedTryRight env' rt' site' .solve call m n) result) := by
  intro call result
  obtain ⟨stepa, stepb, bound⟩ := triangular_matrix_accepted_bounds side uplo trans diag m n lda ldb accepted
  have whole : Meets (Solved call call.alpha (toUsize m) (toUsize n) (Set.Iio (rhsCount call.side (toUsize m) (toUsize n)))) result :=
    trsm_solved env rt site call m n solvable stepa stepb bound
  have unique := solved_unique call (toUsize m) (toUsize n) solvable
  have equations : ∀ b, Solves call (toUsize m) (toUsize n) b (result b) := fun b => solved_equations call _ _ b solvable _ (whole b)
  have settles : ∀ route : TriangularRoute, route.Applies call.side →
      Settles (route.attempt env' rt' site' .solve call m n) result := fun route applies =>
    (route.solves env' rt' site' call m n applies solvable stepa stepb bound).settles whole unique
  have run : ∀ route : TriangularRoute, route.Applies call.side → ∀ b, (route.attempt env' rt' site' .solve call m n b).1 = true →
      (route.attempt env' rt' site' .solve call m n b).2 = result b := fun route applies b answered =>
    unique b _ _ ((route.solves env' rt' site' call m n applies solvable stepa stepb bound).ran b answered) (whole b)
  refine ⟨fun b => ⟨equations b, fun other solves => solves_unique call _ _ b solvable _ _ solves (equations b)⟩,
    fun step' same b => ?_, fun bs some b => run (.workspace bs) some b rfl, fun b => run .serial True.intro b rfl,
    fun options => settles (.blocked options) True.intro, fun perJob options => settles (.queued perJob options) True.intro,
    fun right => ⟨settles .rightParallel right, settles .isolated right⟩⟩
  have moved := solvable_with_operand call _ _ a' lda' same solvable
  have other := trsm_solved env' rt' site' (call.withOperand a' lda') m n moved step' stepb bound b
  exact solves_unique call _ _ b solvable _ _
    ((solved_equations (call.withOperand a' lda') _ _ b moved _ other).with_operand call _ _ a' lda' same) (equations b)

end Routes

section Portable

theorem trmm_routes_agree_small :
    let _ := realKind Rat .double
    let _ := real_kind_lawful Rat .double
    Settles (blockedTryTrmm (TriangularEnv.portable Rat) { Runtime.sequential with arch := .aarch64 } [] { blockSize := 2 }
        (triangularCall 'R' 'L' 'T' 'N' 5 (fun p => (p : Rat)) 3 4) 4 3)
      (trmm (TriangularEnv.portable Rat) Runtime.sequential [] (triangularCall 'R' 'L' 'T' 'N' 5 (fun p => (p : Rat)) 3 4) 4 3) := by
  intro kind lawful
  exact (trmm_routes_agree (TriangularEnv.portable Rat) (TriangularEnv.portable Rat) Runtime.sequential
    { Runtime.sequential with arch := .aarch64 } [] [] 'R' 'L' 'T'
    'N' 4 3 5 (fun p => (p : Rat)) (fun p => (p : Rat)) 3 3 4 (by decide)).2.2.2.2.1 { blockSize := 2 }

theorem trmm_panel_in_order_small :
    let _ := realKind Rat .double
    let _ := real_kind_lawful Rat .double
    ∀ d r, d < 3 → 0 ≤ r → r < 0 + 2 →
      loop 1 (fun step => (if false then trmmWideBlock (T := Rat) else trmmPanelBlock) (TriangularEnv.portable Rat) Runtime.sequential
        [step] (triangularCall 'R' 'L' 'T' 'N' 5 (fun p => (p : Rat)) 3 4) 2 3 2 0 step) (fun p => (p : Rat))
        (sideAddress .right 4 (d, r)) =
      if blockStep (reachesForward (triangularCall 'R' 'L' 'T' 'N' (5 : Rat) (fun p => (p : Rat)) 3 4)) 3 2 d < 1 then
        5 * ∑ p ∈ Finset.range 3, (triangularCall 'R' 'L' 'T' 'N' (5 : Rat) (fun p => (p : Rat)) 3 4).matrix d p *
          (sideAddress .right 4 (p, r) : Rat)
      else (sideAddress .right 4 (d, r) : Rat) := by
  intro kind lawful
  exact (trmm_panel_in_order (TriangularEnv.portable Rat) Runtime.sequential [] 'R' 'L' 'T' 'N' 4 3 5 (fun p => (p : Rat)) 3 4
    (by decide) 2 0 1 (by decide) (by decide) false (by decide) (fun p => (p : Rat))).1

theorem trsm_routes_agree_small :
    let _ := realKind Rat .double
    let _ := real_kind_lawful Rat .double
    Settles (blockedTryTrsm (TriangularEnv.portable Rat) { Runtime.sequential with arch := .aarch64 } [] { blockSize := 2 }
        (triangularCall 'L' 'U' 'C' 'N' 5 (fun p => (p : Rat) + 1) 4 4) 4 3)
      (trsm (TriangularEnv.portable Rat) Runtime.sequential []
        (triangularCall 'L' 'U' 'C' 'N' 5 (fun p => (p : Rat) + 1) 4 4) 4 3) := by
  intro kind lawful
  exact (trsm_routes_agree (TriangularEnv.portable Rat) (TriangularEnv.portable Rat) Runtime.sequential
    { Runtime.sequential with arch := .aarch64 } [] [] 'L' 'U' 'C'
    'N' 4 3 5 (fun p => (p : Rat) + 1) (fun p => (p : Rat)) 4 3 4 (by decide)
    (fun _ _ _ => ne_of_gt (Nat.cast_add_one_pos _))).2.2.2.2.1 { blockSize := 2 }

end Portable

end Zynum
