import Zynum.MatrixMatrix.TriangularRoutes
import Zynum.MatrixVector.TriangularInverse

set_option autoImplicit false

/- TRSM in place. A panel is solved place by place, each solved place taken out of
   the ones that still wait for it; the blocked routes do the same with blocks. -/
namespace Zynum

open ArrayProgram

variable {T : Type} [CommRing T] [Scalar T]

section Panels

def tileAddress (side : OperandSide) (ld : Int) (d0 r0 : Nat) (cell : Nat × Nat) : Nat := sideAddress side ld
    (d0 + cell.1, r0 + cell.2)

theorem tile_address_injective (side : OperandSide) (ld : Int) (d0 r0 length width : Nat)
    (bound : sideRows side (d0 + length) (r0 + width) ≤ toUsize ld) :
    Set.InjOn (tileAddress side ld d0 r0) (laneCells (Finset.range length) (Set.Iio width)) := by
  intro cell inside other inOther same
  have fits : ∀ cell, cell ∈ laneCells (Finset.range length) (Set.Iio width) →
      (d0 + cell.1, r0 + cell.2) ∈ {cell : Nat × Nat | sideRows side cell.1 cell.2 < sideRows side (d0 + length) (r0 + width)} := by
    rintro ⟨d, r⟩ ⟨inPlaces, inLanes⟩
    have place := Finset.mem_range.mp inPlaces
    have lane : r < width := inLanes
    cases side with
    | left => exact Nat.add_lt_add_left place d0
    | right => exact Nat.add_lt_add_left lane r0
  have cells := side_injective side ld _ bound (fits cell inside) (fits other inOther) same
  rw [Prod.mk.injEq] at cells
  exact Prod.ext (Nat.add_left_cancel cells.1) (Nat.add_left_cancel cells.2)

omit [Scalar T] in
theorem update_solve_panel (columns count : Nat) (x : Mem T) (coeff : Nat → T) (dest : Nat → Nat)
    (injective : Set.InjOn (fun cell : Nat × Nat => dest cell.1 + cell.2) {cell | cell.1 < columns ∧ cell.2 < count}) :
    Updates {cell | cell.1 < columns ∧ cell.2 < count} (fun cell : Nat × Nat => dest cell.1 + cell.2)
      (fun cell old => coeff cell.1 * x cell.2 + old) (updateSolvePanel columns count x coeff dest) :=
  updates_grid columns count (fun cell : Nat × Nat => dest cell.1 + cell.2) (fun cell old => coeff cell.1 * x cell.2 + old) injective

omit [Scalar T] in
theorem scale_pivot (address : Nat × Nat → Nat) (pivot width : Nat) (diag : Diagonal) (reciprocal : T)
    (injective : Set.InjOn (fun r => address (pivot, r)) (Set.Iio width)) :
    Updates {cell | cell.1 = pivot ∧ cell.2 ∈ Set.Iio width} address (fun _ old => if diag = .nonUnit then old * reciprocal else old)
      (fun b => loop width (fun r b => if diag = .nonUnit then Function.update b (address (pivot, r))
        (b (address (pivot, r)) * reciprocal)
        else b) b) := by
  have elementwise := updates_elementwise width (fun r => address (pivot, r))
    (fun _ (old : T) => if diag = .nonUnit then old * reciprocal else old) injective
  have moved : Updates _ address (fun _ old => if diag = .nonUnit then old * reciprocal else old) _ :=
    Updates.reindex (fun r : Nat => (pivot, r)) elementwise
  refine (moved.congr ?_ (fun _ _ _ => rfl)).congr_run (fun b => loop_congr _ _ _ b (fun r current _ => ?_))
  · ext ⟨d, r⟩
    simp only [Set.mem_image, Set.mem_Iio, Prod.mk.injEq, Set.mem_ofPred_eq]
    constructor
    · rintro ⟨r', small, rfl, rfl⟩
      exact ⟨rfl, small⟩
    · rintro ⟨rfl, small⟩
      exact ⟨r, small, rfl, rfl⟩
  · by_cases stored : diag = .nonUnit
    · simp only [stored, if_true]
    · simp only [stored, if_false, Function.update_eq_self]

omit [Scalar T] in
theorem panel_taken_out (columns count pivot : Nat) (x coeff : Mem T → Nat → T) (dest : Nat → Nat) (lanes : Nat)
    (address : Nat × Nat → Nat) (M : Nat → Nat → T) (places : Set Nat) (rename : Nat × Nat → Nat × Nat)
    (covered : rename '' {cell | cell.1 < columns ∧ cell.2 < count} = {cell | cell.1 ∈ places ∧ cell.2 ∈ Set.Iio lanes})
    (target : ∀ cell, address (rename cell) = dest cell.1 + cell.2)
    (injective : Set.InjOn address {cell | cell.1 ∈ places ∧ cell.2 ∈ Set.Iio lanes}) (renamed : Function.Injective rename)
    (product : ∀ (b : Mem T) cell, cell.1 < columns → cell.2 < count →
      coeff b cell.1 * x b cell.2 = -(M (rename cell).1 pivot * b (address (pivot, (rename cell).2)))) :
    Meets (TakenOut (Set.Iio lanes) address M pivot places) (fun b => updateSolvePanel columns count (x b) (coeff b) dest b) := by
  intro before
  have apart : Set.InjOn (fun cell : Nat × Nat => dest cell.1 + cell.2) {cell | cell.1 < columns ∧ cell.2 < count} := by
    intro cell inside other inOther same
    refine renamed (injective (covered ▸ ⟨cell, inside, rfl⟩) (covered ▸ ⟨other, inOther, rfl⟩) ?_)
    rw [target, target]
    exact same
  have grid : Wrote _ _ (fun cell old => old - M (rename cell).1 pivot * before (address (pivot, (rename cell).2))) before _ :=
    ((update_solve_panel columns count (x before) (coeff before) dest apart).wrote before).congr (fun cell old inside => by
      rw [product before cell inside.1 inside.2]
      ring)
  simp only [← target] at grid
  have moved : Wrote _ address (fun cell old => old - M cell.1 pivot * before (address (pivot, cell.2))) before _ :=
    Wrote.reindex rename grid
  exact moved.congr_cells covered

variable [Div T] [ExactDivision T]

omit [Scalar T] in
theorem pivot_scaled {diag : Diagonal} {n : Nat} {M : Nat → Nat → T} (regular : Regular diag n M) (j : Nat) (inside : j < n)
    (x current : T) (row : M j j * x = current) :
    (if diag = .nonUnit then current * (if diag = .unit then 1 else 1 / M j j) else current) = x := by
  cases diag with
  | nonUnit =>
    rw [if_pos rfl, if_neg (by exact nofun), reciprocal_mul _ _ (regular.nonzero rfl j inside)]
    exact quotient_unique current (M j j) x (regular.nonzero rfl j inside) row
  | unit => rw [if_neg (by exact nofun), ← row, regular.one rfl j inside, one_mul]

omit [Scalar T] in
theorem pivot_row_solved {diag : Diagonal} {n : Nat} {M : Nat → Nat → T} (regular : Regular diag n M) (pivot : Nat)
    (inside : pivot < n)
    (address : Nat × Nat → Nat) (width : Nat) (injective : Set.InjOn address (laneCells (Finset.range n) (Set.Iio width)))
    (current : Mem T) (x : Nat → T) (row : ∀ r, r ∈ Set.Iio width → M pivot pivot * x r = current (address (pivot, r))) :
    Wrote {cell | cell.1 = pivot ∧ cell.2 ∈ Set.Iio width} address (fun cell _ => x cell.2) current
      (loop width (fun r b => if diag = .nonUnit then Function.update b (address (pivot, r))
        (b (address (pivot, r)) * (if diag = .unit then 1 else 1 / M pivot pivot)) else b) current) := by
  have scaled := scale_pivot address pivot width diag (if diag = .unit then 1 else 1 / M pivot pivot)
    (fun r inRow r' inRow' same => by
    have cells := injective ⟨Finset.mem_range.mpr inside, inRow⟩ ⟨Finset.mem_range.mpr inside, inRow'⟩ same
    exact congrArg Prod.snd cells)
  refine (scaled.wrote current).congr_at (fun cell member => ?_)
  obtain ⟨d, r⟩ := cell
  obtain ⟨here, inLanes⟩ := member
  simp only at here inLanes
  rw [here]
  exact pivot_scaled regular pivot inside (x r) _ (row r inLanes)

omit [Scalar T] in
theorem solve_left_panel (columns : Nat) (triangle : Triangle) (diag : Diagonal) (rows : Nat) (diagonal : Mem T) (ldb : Int)
    (row0 col0 : Nat) (M : Nat → Nat → T) (holds : ∀ d p, d < rows → p < rows → diagonal (d + p * rows) = M d p)
    (shape : TriangularTo (decide (triangle = .upper)) rows M) (regular : Regular diag rows M)
    (bound : row0 + rows ≤ toUsize ldb) :
    Meets (Solution (Finset.range rows) (Set.Iio columns) (tileAddress .left ldb row0 col0) M 1)
      (solveLeftPanel columns triangle diag rows diagonal (fun i => if diag = .unit then 1 else 1 / diagonal (i + i * rows)) ldb row0
        col0) := by
  have injective := tile_address_injective .left ldb row0 col0 rows columns bound
  generalize sense : decide (triangle = .upper) = upper at shape
  have places : ∀ t, t < rows → ∀ d, (if upper then 0 else sweep (!upper) rows t + 1) ≤ d ∧
      d < (if upper then 0 else sweep (!upper) rows t + 1) +
        (if upper then sweep (!upper) rows t else rows - (sweep (!upper) rows t + 1)) ↔ d < rows ∧ t < sweep (!upper) rows d := by
    intro t below d
    cases upper <;> simp only [sweep, Bool.not_true, Bool.not_false, Bool.false_eq_true, if_true, if_false] <;> omega
  have solved := solution_pivots rows (Set.Iio columns) (tileAddress .left ldb row0 col0) M (!upper)
    (fun t b => loop columns (fun r b => if diag = .nonUnit then
      Function.update b (tileAddress .left ldb row0 col0 (sweep (!upper) rows t, r))
        (b (tileAddress .left ldb row0 col0 (sweep (!upper) rows t, r)) *
          (if diag = .unit then 1 else 1 / M (sweep (!upper) rows t) (sweep (!upper) rows t))) else b) b)
    (fun t b => updateSolvePanel columns (if upper then sweep (!upper) rows t else rows - (sweep (!upper) rows t + 1))
      (view diagonal (sweep (!upper) rows t * rows + if upper then 0 else sweep (!upper) rows t + 1))
      (fun col => -b (tileAddress .left ldb row0 col0 (sweep (!upper) rows t, col)))
      (fun col => matIndex ldb (row0 + if upper then 0 else sweep (!upper) rows t + 1) (col0 + col)) b)
    injective shape.solve (fun t below current x row => ?_) (fun t below => ?_)
  · refine solved.congr_run (fun b => loop_congr _ _ _ b (fun t current below => ?_))
    have place := sweep_inside (!upper) rows t below
    have pivot : (if triangle = .upper then rows - 1 - t else t) = sweep (!upper) rows t := by
      rw [← sense, sweep]
      cases triangle <;> rfl
    have stored := holds _ _ place place
    simp only [pivot, stored]
    have start : (if triangle = .upper then 0 else sweep (!upper) rows t + 1) = if upper then 0 else sweep (!upper) rows t + 1 := by
      rw [← sense]
      cases triangle <;> rfl
    have length : (if triangle = .upper then sweep (!upper) rows t else rows - if upper then 0 else sweep (!upper) rows t + 1) =
        if upper then sweep (!upper) rows t else rows - (sweep (!upper) rows t + 1) := by
      rw [← sense]
      cases triangle <;> rfl
    simp only [start, length]
    rfl
  · exact pivot_row_solved regular _ (sweep_inside (!upper) rows t below) _ columns injective current x row
  · have reached := places t below
    generalize (if upper = true then 0 else sweep (!upper) rows t + 1) = first at reached ⊢
    generalize (if upper = true then sweep (!upper) rows t else rows - (sweep (!upper) rows t + 1)) = count at reached ⊢
    have cells : {cell : Nat × Nat | cell.1 ∈ {d | d < rows ∧ t < sweep (!upper) rows d} ∧ cell.2 ∈ Set.Iio columns} ⊆
        laneCells (Finset.range rows) (Set.Iio columns) := fun _ inside => ⟨Finset.mem_range.mpr inside.1.1, inside.2⟩
    refine panel_taken_out columns count _ (fun _ => _)
      (fun b col => -b (tileAddress .left ldb row0 col0 (sweep (!upper) rows t, col)))
      (fun col => matIndex ldb (row0 + first) (col0 + col)) columns _ M _ (fun cell => (first + cell.2, cell.1)) ?_ (fun cell => ?_)
      (injective.mono cells) (fun cell other same => ?_)
      (fun b cell inColumns inCount => ?_)
    · ext ⟨d, r⟩
      simp only [Set.mem_image, Set.mem_ofPred_eq, Prod.mk.injEq, Prod.exists, Set.mem_Iio, ← reached d]
      constructor
      · rintro ⟨col, row, ⟨inColumns, inCount⟩, rfl, rfl⟩
        omega
      · intro inside
        exact ⟨r, d - first, ⟨inside.2, by omega⟩, by omega, rfl⟩
    · simp only [tileAddress, sideAddress, sideIndex, matIndex]
      omega
    · rw [Prod.mk.injEq] at same
      exact Prod.ext same.2 (Nat.add_left_cancel same.1)
    · have inside := ((reached (first + cell.2)).mp ⟨Nat.le_add_right _ _, Nat.add_lt_add_left inCount first⟩).1
      rw [← holds _ _ inside (sweep_inside (!upper) rows t below), view_apply, neg_mul, mul_comm]
      congr 3
      omega

omit [Scalar T] [Div T] [ExactDivision T] in
theorem update_right_panel (columns rows pivot col : Nat) (diagonal : Mem T) (cols : Nat) (ldb : Int) (row0 col0 : Nat)
    (M : Nat → Nat → T) (holds : ∀ d p, d < cols → p < cols → diagonal (p + d * cols) = M d p) (inside : pivot < cols)
    (within : col + columns ≤ cols) (bound : row0 + rows ≤ toUsize ldb) :
    Meets (TakenOut (Set.Iio rows) (tileAddress .right ldb col0 row0) M pivot (Set.Ico col (col + columns)))
      (updateRightPanel columns rows pivot col diagonal cols ldb row0 col0) := by
  have injective := tile_address_injective .right ldb col0 row0 cols rows bound
  have cells : {cell : Nat × Nat | cell.1 ∈ Set.Ico col (col + columns) ∧ cell.2 ∈ Set.Iio rows} ⊆
      laneCells (Finset.range cols) (Set.Iio rows) := fun _ member =>
    ⟨Finset.mem_range.mpr (lt_of_lt_of_le member.1.2 within), member.2⟩
  refine panel_taken_out columns rows pivot (fun b => view b (matIndex ldb row0 (col0 + pivot)))
    (fun _ j => -diagonal (pivot + (col + j) * cols)) (fun j => matIndex ldb row0 (col0 + col + j)) rows _ M _
    (fun cell => (col + cell.1, cell.2)) ?_ (fun cell => ?_) (injective.mono cells) (fun cell other same => ?_)
    (fun b cell inColumns inRows => ?_)
  · ext ⟨d, r⟩
    simp only [Set.mem_image, Set.mem_ofPred_eq, Prod.mk.injEq, Prod.exists, Set.mem_Iio, Set.mem_Ico]
    constructor
    · rintro ⟨j, row, ⟨inColumns, inRows⟩, rfl, rfl⟩
      omega
    · intro member
      exact ⟨d - col, r, ⟨by omega, member.2⟩, by omega, rfl⟩
  · simp only [tileAddress, sideAddress, sideIndex, matIndex, Nat.add_assoc]
    omega
  · rw [Prod.mk.injEq] at same
    exact Prod.ext (Nat.add_left_cancel same.1) same.2
  · have place : matIndex ldb row0 (col0 + pivot) + cell.2 = tileAddress .right ldb col0 row0 (pivot, cell.2) := by
      simp only [tileAddress, sideAddress, sideIndex, matIndex]
      omega
    rw [← holds _ _ (by omega) inside, view_apply, place, neg_mul]

theorem solve_right_panel (triangle : Triangle) (diag : Diagonal) (rows cols : Nat) (diagonal : Mem T) (ldb : Int) (row0 col0 : Nat)
    (M : Nat → Nat → T) (holds : ∀ d p, d < cols → p < cols → diagonal (p + d * cols) = M d p)
    (shape : TriangularTo (!decide (triangle = .upper)) cols M) (regular : Regular diag cols M) (bound : row0 + rows ≤ toUsize ldb)
    (env : TriangularEnv T) (rt : Runtime) (site : Site) (vectors : rt.arch = .x86_64) :
    Meets (Solution (Finset.range cols) (Set.Iio rows) (tileAddress .right ldb col0 row0) M 1)
      (solvePackedRight env rt site triangle diag rows cols diagonal ldb row0 col0) := by
  have injective := tile_address_injective .right ldb col0 row0 cols rows bound
  generalize sense : decide (triangle = .upper) = upper at shape
  have ordered := shape.solve
  rw [Bool.not_not] at ordered
  have solved := solution_pivots cols (Set.Iio rows) (tileAddress .right ldb col0 row0) M upper
    (fun t b => loop rows (fun r b => if diag = .nonUnit then
      Function.update b (tileAddress .right ldb col0 row0 (sweep upper cols t, r))
        (b (tileAddress .right ldb col0 row0 (sweep upper cols t, r)) *
          (if diag = .unit then 1 else 1 / M (sweep upper cols t) (sweep upper cols t))) else b) b)
    (fun t b => loopRange (fitEnd (if upper then sweep upper cols t + 1 else 0) (if upper then cols else sweep upper cols t)
        (solveWidth T)) (if upper then cols else sweep upper cols t)
      (fun j => updateRightPanel 1 rows (sweep upper cols t) j diagonal cols ldb row0 col0)
      (fitLoop (if upper then sweep upper cols t + 1 else 0) (if upper then cols else sweep upper cols t) (solveWidth T)
        (fun j => updateRightPanel (solveWidth T) rows (sweep upper cols t) j diagonal cols ldb row0 col0) b))
    injective ordered (fun t below current x row => ?_) (fun t below => ?_)
  · refine solved.congr_run (fun b => ?_)
    rw [solvePackedRight, if_pos vectors]
    refine loop_congr _ _ _ b (fun t current below => ?_)
    have place := sweep_inside upper cols t below
    have pivot : (if triangle = .upper then t else cols - 1 - t) = sweep upper cols t := by
      rw [← sense, sweep]
      cases triangle <;> rfl
    have stored := holds _ _ place place
    simp only [pivot, stored]
    have start : (if triangle = .upper then sweep upper cols t + 1 else 0) = if upper then sweep upper cols t + 1 else 0 := by
      rw [← sense]
      cases triangle <;> rfl
    have finish : (if triangle = .upper then cols else sweep upper cols t) = if upper then cols else sweep upper cols t := by
      rw [← sense]
      cases triangle <;> rfl
    simp only [start, finish]
    rfl
  · exact pivot_row_solved regular _ (sweep_inside upper cols t below) _ rows injective current x row
  · have place := sweep_inside upper cols t below
    have reached : ∀ d, d ∈ Set.Ico (if upper then sweep upper cols t + 1 else 0) (if upper then cols else sweep upper cols t) ↔
        d < cols ∧ t < sweep upper cols d := by
      intro d
      rw [Set.mem_Ico]
      cases upper <;> simp only [sweep, Bool.false_eq_true, if_true, if_false] <;> omega
    have whole : {d | d < cols ∧ t < sweep upper cols d} =
        Set.Ico (if upper then sweep upper cols t + 1 else 0) (if upper then cols else sweep upper cols t) :=
      Set.ext (fun d => (reached d).symm)
    have range : (if upper = true then sweep upper cols t + 1 else 0) ≤ (if upper = true then cols else sweep upper cols t) ∧
        (if upper = true then cols else sweep upper cols t) ≤ cols := by
      cases upper <;> simp only [Bool.false_eq_true, if_true, if_false] at place ⊢ <;> omega
    rw [whole]
    have laneWise := taken_out_lane_wise cols (Set.Iio rows) (tileAddress .right ldb col0 row0) M (sweep upper cols t)
      {d | d < cols ∧ t < sweep upper cols d} place (fun d member => member.1) (fun member => by
        have later := member.2
        rw [sweep_sweep upper cols t below] at later
        exact Nat.lt_irrefl t later) injective
    rw [whole] at laneWise
    refine laneWise.fit _ _ (solveWidth T) _ _ range.1 subset_rfl (fun j _ reach => ?_) (fun j _ small => ?_)
    · exact update_right_panel (solveWidth T) rows _ j diagonal cols ldb row0 col0 M holds place (reach.trans range.2) bound
    · have single := update_right_panel 1 rows _ j diagonal cols ldb row0 col0 M holds place (Nat.lt_of_lt_of_le small range.2) bound
      rw [lane_alone] at single
      exact single

end Panels

section Packed

variable {M : Nat → Nat → T}

omit [CommRing T] [Scalar T] in
theorem stride_address_forward (n inc : Int) (positive : 0 < inc) (i : Nat) : strideAddress n inc (i, 0) = i * toUsize inc := by
  have start : startIndex n inc = 0 := by
    rw [startIndex]
    split
    · rfl
    · rw [if_pos positive.le]
  obtain ⟨step, rfl⟩ := Int.eq_ofNat_of_zero_le positive.le
  rw [strideAddress, start, ix, Int.zero_add]
  exact Int.toNat_natCast (i * step)

theorem packed_triangle (uplo : Triangle) (mode : TransposeMode) (diag : Diagonal) (n : Nat) (diagonal : Mem T)
    (holds : ∀ d p, d < n → p < n → opEntry mode (denseEntry diagonal n) d p = M d p)
    (shape : TriangularTo (opIsUpper uplo mode) n M) (regular : Regular diag n M) (d p : Nat) (inRow : d < n) (inColumn : p < n) :
    triangle uplo diag mode (denseEntry diagonal n) d p = M d p := by
  rcases Nat.lt_trichotomy d p with before | same | after
  · cases upper : opIsUpper uplo mode with
    | true => rw [triangle_inside uplo diag mode _ d p (by rw [upper]; exact before), holds d p inRow inColumn]
    | false =>
      have outside : if opIsUpper uplo mode then p < d else d < p := by rw [upper]; exact before
      rw [triangle_outside uplo diag mode _ d p outside, shape d p inRow inColumn outside]
  · subst same
    rw [triangle_diagonal]
    cases kind : diag with
    | unit => rw [if_pos rfl, regular.one kind d inRow]
    | nonUnit => rw [if_neg (by exact nofun), holds d d inRow inRow]
  · cases upper : opIsUpper uplo mode with
    | true =>
      have outside : if opIsUpper uplo mode then p < d else d < p := by rw [upper]; exact after
      rw [triangle_outside uplo diag mode _ d p outside, shape d p inRow inColumn outside]
    | false => rw [triangle_inside uplo diag mode _ d p (by rw [upper]; exact after), holds d p inRow inColumn]

omit [Scalar T] in
theorem solution_tile_lanes {places : Finset Nat} {side : OperandSide} {ld : Int} {d0 r0 first width : Nat} {run : Mem T → Mem T}
    (meets : Meets (Solution places (Set.Iio width) (tileAddress side ld d0 (r0 + first)) M 1) run) :
    Meets (Solution places (Set.Ico first (first + width)) (tileAddress side ld d0 r0) M 1) run := by
  have moved := meets.solution_moved (fun place => place) (fun lane => first + lane) (tileAddress side ld d0 r0) M
    (fun _ _ _ _ same => same) (fun cell _ => by simp only [tileAddress, Nat.add_assoc]) (fun _ _ _ _ => rfl)
  rwa [image_places, lanes_shifted] at moved

variable [LawfulScalar T] [Div T] [ExactDivision T]
variable (env : TriangularEnv T) (rt : Runtime) (site : Site)

theorem packed_leaf (uplo : Triangle) (mode : TransposeMode) (diag : Diagonal) (n : Nat) (diagonal : Mem T) (inc : Int)
    (nonzero : inc ≠ 0) (holds : ∀ d p, d < n → p < n → opEntry mode (denseEntry diagonal n) d p = M d p)
    (shape : TriangularTo (opIsUpper uplo mode) n M) (regular : Regular diag n M) :
    Meets (Solution (Finset.range n) {0} (strideAddress n inc) M 1)
      (fun x => trsv env.vector rt site uplo mode diag n diagonal n x inc) := by
  have same := packed_triangle uplo mode diag n diagonal holds shape regular
  have usable : Regular diag (toUsize (n : Int)) (triValue uplo diag mode diagonal n) := by
    rw [tri_value_triangle, toUsize, Int.toNat_natCast]
    exact ⟨fun kind d inside => by rw [same d d inside inside]; exact regular.nonzero kind d inside,
      fun kind d inside => by rw [same d d inside inside]; exact regular.one kind d inside⟩
  have solved := trsv_solution env.vector rt site (n : Int) (n : Int) inc nonzero usable
  rw [tri_value_triangle, toUsize, Int.toNat_natCast] at solved
  exact solved.solution_congr (fun d p inRow inColumn => same d p (Finset.mem_range.mp inRow) (Finset.mem_range.mp inColumn))

theorem solve_packed_left (uplo : Triangle) (diag : Diagonal) (rows cols : Nat) (diagonal : Mem T) (ldb : Int) (row0 col0 : Nat)
    (holds : ∀ d p, d < rows → p < rows → diagonal (d + p * rows) = M d p) (shape : TriangularTo (decide (uplo = .upper)) rows M)
    (regular : Regular diag rows M) (bound : row0 + rows ≤ toUsize ldb) :
    Meets (Solution (Finset.range rows) (Set.Iio cols) (tileAddress .left ldb row0 col0) M 1)
      (solvePackedLeft env rt site uplo diag rows cols diagonal ldb row0 col0) := by
  have laneWise := solution_lane_wise (Finset.range rows) (tileAddress .left ldb row0 col0) M 1 (Set.Iio cols)
    (tile_address_injective .left ldb row0 col0 rows cols bound)
  have panel : ∀ columns first, Meets (Solution (Finset.range rows) (Set.Ico first (first + columns))
    (tileAddress .left ldb row0 col0) M 1)
      (solveLeftPanel columns uplo diag rows diagonal (fun i => if diag = .unit then 1 else 1 / diagonal (i + i * rows)) ldb row0
        (col0 + first)) := fun columns first =>
    solution_tile_lanes (solve_left_panel columns uplo diag rows diagonal ldb row0 (col0 + first) M holds shape regular bound)
  refine meets_guard _ (fun _ => ?_) (fun _ => ?_)
  · have fitted := laneWise.fit 0 cols (solveWidth T) _ _ (Nat.zero_le cols) (Ico_from_zero cols ▸ subset_rfl)
      (fun j _ _ => panel (solveWidth T) j) (fun j _ _ => lane_alone j ▸ panel 1 j)
    rwa [Ico_from_zero] at fitted
  · have columns := laneWise.one_by_one 0 cols (fun j => onTail (matIndex ldb row0 (col0 + j))
      (fun x => trsv env.vector rt (j :: site) uplo .noTrans diag rows diagonal rows x 1)) (Ico_from_zero cols ▸ subset_rfl)
      (fun j _ _ => by
        have leaf := packed_leaf env rt (j :: site) uplo .noTrans diag rows diagonal 1 one_ne_zero
          (fun d p inRow inColumn => by
            rw [opEntry, denseEntry, mat_index_natural]
            exact holds d p inRow inColumn) (by cases uplo <;> exact shape) regular
        rw [stride_address_unit] at leaf
        have carried := leaf.solution_carried (matIndex ldb row0 (col0 + j)) (fun _ => j) (tileAddress .left ldb row0 col0)
          (fun cell _ => by
            simp only [tileAddress, sideAddress, sideIndex, matIndex]
            omega)
        rwa [Set.image_singleton] at carried)
    rw [Ico_from_zero] at columns
    refine columns.congr_run (fun b => ?_)
    simp only [loopRange, Nat.sub_zero, Nat.zero_add]

theorem solve_packed_right (uplo : Triangle) (diag : Diagonal) (rows cols : Nat) (diagonal : Mem T) (ldb : Int) (row0 col0 : Nat)
    (holds : ∀ d p, d < cols → p < cols → diagonal (p + d * cols) = M d p) (shape : TriangularTo (!decide (uplo = .upper)) cols M)
    (regular : Regular diag cols M) (bound : row0 + rows ≤ toUsize ldb) (stepb : 0 < ldb) :
    Meets (Solution (Finset.range cols) (Set.Iio rows) (tileAddress .right ldb col0 row0) M 1)
      (solvePackedRight env rt site uplo diag rows cols diagonal ldb row0 col0) := by
  by_cases vectors : rt.arch = .x86_64
  · exact solve_right_panel uplo diag rows cols diagonal ldb row0 col0 M holds shape regular bound env rt site vectors
  have laneWise := solution_lane_wise (Finset.range cols) (tileAddress .right ldb col0 row0) M 1 (Set.Iio rows)
    (tile_address_injective .right ldb col0 row0 cols rows bound)
  have lines := laneWise.one_by_one 0 rows (fun i => onTail (matIndex ldb (row0 + i) col0)
    (fun x => trsv env.vector rt (i :: site) uplo .trans diag cols diagonal cols x ldb)) (Ico_from_zero rows ▸ subset_rfl)
    (fun i _ _ => by
      have leaf := packed_leaf env rt (i :: site) uplo .trans diag cols diagonal ldb stepb.ne'
        (fun d p inRow inColumn => by
          rw [opEntry, denseEntry, mat_index_natural]
          exact holds d p inRow inColumn) (by cases uplo <;> exact shape) regular
      have carried := leaf.solution_carried (matIndex ldb (row0 + i) col0) (fun _ => i) (tileAddress .right ldb col0 row0)
        (fun cell member => by
          have lane : cell.2 = 0 := member.2
          obtain ⟨d, r⟩ := cell
          simp only at lane
          rw [lane, stride_address_forward (cols : Int) ldb stepb]
          simp only [tileAddress, sideAddress, sideIndex, matIndex, Nat.add_mul]
          omega)
      rwa [Set.image_singleton] at carried)
  rw [Ico_from_zero] at lines
  refine lines.congr_run (fun b => ?_)
  simp only [solvePackedRight, vectors, if_false, loopRange, Nat.sub_zero, Nat.zero_add]

theorem solve_packed (call : TriangularCall T) (start len width r0 : Nat) (buffer : Mem T)
    (regular : Regular call.diag len (fun d p => call.matrix (start + d) (start + p)))
    (bound : sideRows call.side (start + len) (r0 + width) ≤ toUsize call.ldb) (stepb : 0 < call.ldb) :
    Meets (Solution (Finset.range len) (Set.Iio width) (tileAddress call.side call.ldb start r0)
        (fun d p => call.matrix (start + d) (start + p)) 1)
      (solvePacked env rt site call len width (packedPanel call start start len len buffer) start r0) := by
  have entry := packed_panel_entry call start start len len buffer
  have shape := matrix_triangular call (start + len)
  have square : packedRows call.side len len = len := by
    rw [packedRows]
    split <;> rfl
  have block : ∀ forward, reachesForward call = forward → TriangularTo forward len
    (fun d p => call.matrix (start + d) (start + p)) := by
    intro forward same d p inRow inColumn outside
    refine shape (start + d) (start + p) (by omega) (by omega) ?_
    rw [same]
    cases forward <;> simp only [Bool.false_eq_true, if_true, if_false] at outside ⊢ <;> omega
  rw [square] at entry
  generalize packedPanel call start start len len buffer = diagonal at entry ⊢
  cases side : call.side with
  | left =>
    rw [side] at entry bound
    have forward : reachesForward call = decide (effectiveTriangle call.uplo call.mode = .upper) := by
      rw [reachesForward, if_pos side]
    refine (solve_packed_left env rt site (effectiveTriangle call.uplo call.mode) call.diag len width diagonal call.ldb start r0
      (fun d p inRow inColumn => ?_) (block _ forward) regular bound).congr_run (fun b => ?_)
    · rw [← entry d p inRow inColumn, sideMatrix, opEntry, denseEntry, mat_index_natural]
    · rw [solvePacked, side]
  | right =>
    rw [side] at entry bound
    have forward : reachesForward call = !decide (effectiveTriangle call.uplo call.mode = .upper) := by
      rw [reachesForward, if_neg (by rw [side]; decide)]
      cases effectiveTriangle call.uplo call.mode <;> rfl
    refine (solve_packed_right env rt site (effectiveTriangle call.uplo call.mode) call.diag width len diagonal call.ldb r0 start
      (fun d p inRow inColumn => ?_) (block _ forward) regular bound stepb).congr_run (fun b => ?_)
    · rw [← entry d p inRow inColumn, sideMatrix, opEntry, denseEntry, mat_index_natural]
    · rw [solvePacked, side]

end Packed

end Zynum
