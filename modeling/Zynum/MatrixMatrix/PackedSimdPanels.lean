import Zynum.MatrixMatrix.PackedSimdLoops

set_option autoImplicit false

/- One column panel of the packed kernel: what the packers leave in the panel, what
   the register tile holds after the last p, and the rectangle of C that comes of it.
   Nothing here asks that zero times a value is zero. -/
namespace Zynum.PackedSimd

open ArrayProgram

section Panels

variable {T : Type}

theorem store_vector (lanes start : Nat) (value : Nat → T) :
    Updates (Set.Iio lanes) (fun lane => start + lane) (fun lane _ => value lane) (storeVec lanes start value) :=
  updates_elementwise lanes (fun lane => start + lane) (fun lane _ => value lane) (start_injective start _)


-- The panel of columns j.. has row p of B at p * width.
def PanelHolds (width : Nat) (task : Task T) (j : Nat) (panel : Mem T) : Prop :=
  ∀ p col, p < task.k → col < width → panel (p * width + col) = task.bValue p (j + col)

def panelAddress (width : Nat) (cell : Nat × Nat) : Nat := cell.2 * width + cell.1

theorem panel_injective (width : Nat) : Set.InjOn (panelAddress width) {cell | cell.1 < width} := by
  rintro ⟨col, p⟩ inFirst ⟨col', p'⟩ inSecond same
  simp only [Set.mem_ofPred_eq] at inFirst inSecond
  simp only [panelAddress, Nat.mul_comm _ width] at same
  have rows : p = p' := by
    have quotient := congrArg (fun place => place / width) same
    simp only [Nat.mul_add_div (Nat.zero_lt_of_lt inFirst), Nat.div_eq_of_lt inFirst, Nat.div_eq_of_lt inSecond, Nat.add_zero]
      at quotient
    exact quotient
  subst rows
  rw [Nat.add_left_cancel same]

variable (task : Task T) (j : Nat)

def panelValue (cell : Nat × Nat) (_ : T) : T := task.bValue cell.2 (j + cell.1)

theorem put_value (width col p : Nat) (value : T) (exact : value = task.bValue p (j + col)) :
    Updates (rectangle col (col + 1) p (p + 1)) (panelAddress width) (panelValue task j)
      (fun pack => Function.update pack (p * width + col) value) :=
  (point_rectangle col p).congr_run (fun pack => by
    rw [exact]
    rfl)

theorem put_vector (width lanes col p : Nat) (value : Nat → T)
    (exact : ∀ lane, lane < lanes → value lane = task.bValue p (j + (col + lane))) :
    Updates (rectangle col (col + lanes) p (p + 1)) (panelAddress width) (panelValue task j)
      (storeVec lanes (p * width + col) value) := by
  apply vector_rectangle
  refine ((store_vector lanes (p * width + col) value).congr rfl (fun lane old small => ?_)).congr_address (fun lane _ => ?_)
  · exact exact lane small
  · exact (Nat.add_assoc _ _ _).symm

theorem panel_holds {width : Nat} {run : Mem T → Mem T}
    (packed : Updates (rectangle 0 width 0 task.k) (panelAddress width) (panelValue task j) run) (pack : Mem T) :
    PanelHolds width task j (run pack) :=
  fun p col inside small => packed.written pack (col, p) ⟨⟨Nat.zero_le col, small⟩, Nat.zero_le p, inside⟩

theorem panel_row (width p : Nat) :
    Updates (rectangle 0 width p (p + 1)) (panelAddress width) (panelValue task j)
      (loop width (fun col pack => Function.update pack (p * width + col) (task.bValue p (j + col)))) :=
  (rows_loop width (fun col => col) _ p (p + 1) (panel_injective width) (fun col _ => Nat.le_succ col) (Nat.le_refl width)
    (fun col _ => put_value task j width col p _ rfl)).1

theorem panel_rows (width first : Nat) :
    Updates (rectangle 0 width first task.k) (panelAddress width) (panelValue task j)
      (loopRange first task.k (fun p pack =>
        loop width (fun col pack => Function.update pack (p * width + col) (task.bValue p (j + col))) pack)) :=
  columns_range first task.k _ 0 width (panel_injective width) (Nat.le_refl width) (fun p _ _ => panel_row task j width p)

theorem pack_panel (width : Nat) (pack : Mem T) : PanelHolds width task j (packBPanel width task j pack) := by
  apply panel_holds
  refine (panel_rows task j width 0).congr_run (fun pack => ?_)
  simp only [loopRange, packBPanel, Nat.sub_zero, Nat.zero_add]

theorem natural_value (natural : task.bLayout = .noTrans) (p col lane : Nat) :
    loadVec task.b task.ldb p (j + col) lane = task.bValue (p + lane) (j + col) := by
  have column : matIndex task.ldb p (j + col) + lane = matIndex task.ldb (p + lane) (j + col) := by
    simp only [matIndex]
    omega
  rw [loadVec, column, Task.bValue, natural]

theorem natural_entry (natural : task.bLayout = .noTrans) (p col : Nat) :
    task.b (matIndex task.ldb p (j + col)) = task.bValue p (j + col) := by
  rw [Task.bValue, natural]

theorem unrolled_panel (natural : task.bLayout = .noTrans) (width step : Nat) (turn : Nat → Mem T → Mem T)
    (each : ∀ p, p + step ≤ task.k → Updates (rectangle 0 width p (p + step)) (panelAddress width) (panelValue task j) (turn p))
    (pack : Mem T) :
    PanelHolds width task j (loopRange (fitEnd 0 task.k step) task.k (fun p pack =>
      loop width (fun col pack => Function.update pack (p * width + col) (task.b (matIndex task.ldb p (j + col)))) pack)
      (fitLoop 0 task.k step turn pack)) := by
  have inside := fit_end_inside 0 task.k step (Nat.zero_le task.k)
  have turns := columns_fit 0 task.k step turn 0 width (panel_injective width) (Nat.le_refl width) (fun p _ small => each p small)
  have whole := columns_then (panel_injective width) turns (panel_rows task j width _) inside.1 inside.2 (Nat.le_refl width)
  simp only [natural_entry task j natural]
  exact panel_holds task j whole pack

section Special

variable [Zero T]

theorem transposed_four (v : Nat → Nat → T) (lane col : Nat) (small : lane < 4) (below : col < 4) :
    (if lane = 0 then shuffle (shuffle (v 0) (v 1) [.inl 0, .inr 0, .inl 2, .inr 2])
        (shuffle (v 2) (v 3) [.inl 0, .inr 0, .inl 2, .inr 2]) [.inl 0, .inl 1, .inr 0, .inr 1]
      else if lane = 1 then shuffle (shuffle (v 0) (v 1) [.inl 1, .inr 1, .inl 3, .inr 3])
        (shuffle (v 2) (v 3) [.inl 1, .inr 1, .inl 3, .inr 3]) [.inl 0, .inl 1, .inr 0, .inr 1]
      else if lane = 2 then shuffle (shuffle (v 0) (v 1) [.inl 0, .inr 0, .inl 2, .inr 2])
        (shuffle (v 2) (v 3) [.inl 0, .inr 0, .inl 2, .inr 2]) [.inl 2, .inl 3, .inr 2, .inr 3]
      else shuffle (shuffle (v 0) (v 1) [.inl 1, .inr 1, .inl 3, .inr 3])
        (shuffle (v 2) (v 3) [.inl 1, .inr 1, .inl 3, .inr 3]) [.inl 2, .inl 3, .inr 2, .inr 3]) col = v col lane := by
  interval_cases lane <;> interval_cases col <;> rfl

theorem pack_panel_six (natural : task.bLayout = .noTrans) (pack : Mem T) :
    PanelHolds 6 task j (packBPanelF32x6NoTrans task j pack) := by
  refine unrolled_panel task j natural 6 4 _ (fun p _ => ?_) pack
  refine (columns_loop 4 (fun lane => p + lane) _ 0 6 (panel_injective 6) (fun lane _ => Nat.le_succ _) (Nat.le_refl 6)
    (fun lane small => ?_)).1
  have four := put_vector task j 6 4 0 (p + lane) _ (fun col below =>
    (transposed_four (fun col => loadVec task.b task.ldb p (j + col)) lane col small below).trans
      ((natural_value task j natural p col lane).trans (by rw [Nat.zero_add])))
  have five := rows_then (panel_injective 6) four (put_value task j 6 4 (p + lane) _ (natural_value task j natural p 4 lane))
    (by omega) (by omega) (by omega)
  exact rows_then (panel_injective 6) five (put_value task j 6 5 (p + lane) _ (natural_value task j natural p 5 lane))
    (by omega) (by omega) (by omega)

theorem pack_panel_eight (natural : task.bLayout = .noTrans) (pack : Mem T) :
    PanelHolds 8 task j (packBPanelF64x8NoTrans task j pack) := by
  refine unrolled_panel task j natural 8 2 _ (fun p _ => ?_) pack
  refine (rows_loop 4 (fun pair => pair * 2) _ p (p + 2) (panel_injective 8) (fun pair _ => by omega) (by omega)
    (fun pair small => ?_)).1
  have columns : ∀ lane col, lane < 2 → col < 2 →
      shuffle (loadVec task.b task.ldb p (j + pair * 2)) (loadVec task.b task.ldb p (j + pair * 2 + 1)) [.inl lane, .inr lane] col =
        task.bValue (p + lane) (j + (pair * 2 + col)) := by
    intro lane col inLane inCol
    interval_cases col
    · exact natural_value task j natural p (pair * 2) lane
    · exact natural_value task j natural p (pair * 2 + 1) lane
  have first := put_vector task j 8 2 (pair * 2) p _ (fun col below => columns 0 col (by omega) below)
  have second := put_vector task j 8 2 (pair * 2) (p + 1) _ (fun col below => columns 1 col (by omega) below)
  have both := columns_then (panel_injective 8) first second (by omega) (by omega) (by omega)
  have next : (pair + 1) * 2 = pair * 2 + 2 := Nat.succ_mul pair 2
  rw [next]
  exact both

theorem prepare_panel (precision : Precision) (cfg : PackedConfig) (pack : Mem T) :
    PanelHolds cfg.tileN task j (preparePanel precision cfg task j pack) := by
  rw [preparePanel]
  split
  case isTrue six =>
    rw [six.2.2.1]
    exact pack_panel_six task j six.2.2.2.2 pack
  case isFalse =>
    split
    case isTrue eight =>
      rw [eight.2.2.1]
      exact pack_panel_eight task j eight.2.2.2.2 pack
    case isFalse => exact pack_panel task j cfg.tileN pack

end Special

end Panels

variable {T : Type} [AddCommMonoid T] [CommMagma T] [One T] [DecidableEq T]

def taskSum (task : Task T) (cell : Nat × Nat) : T :=
  ∑ p ∈ Finset.range task.k, task.a (matIndex task.lda cell.1 p) * task.bValue p cell.2

def taskTarget (task : Task T) (cell : Nat × Nat) (old : T) : T := applyScalar task.alpha task.beta (taskSum task cell) old

-- A direct store leaves the sum as it is.
def StoresDirectly (task : Task T) (directStore : Bool) : Prop := directStore = true → task.alpha = 1 ∧ task.beta = 0

section Epilogue

theorem apply_task_scalar (task : Task T) (acc : T) (row col : Nat) (c : Mem T) :
    applyTaskScalar task acc row col c = applyScalar task.alpha task.beta acc (c (matIndex task.ldc row col)) := by
  by_cases direct : task.alpha = 1 ∧ task.beta = 0
  · rw [applyTaskScalar, applyScalar, if_pos direct, if_pos direct]
  · by_cases cleared : task.beta = 0
    · rw [applyTaskScalar, applyScalar, if_neg direct, if_pos cleared, if_neg direct, scaleOldScalar, if_pos cleared]
    · rw [applyTaskScalar, if_neg direct, if_neg cleared]

theorem apply_vector (alpha beta : T) (acc old : Nat → T) (lane : Nat) :
    applyVector alpha beta acc old lane = applyScalar alpha beta (acc lane) (old lane) := by
  rw [applyVector, applyScalar]
  split
  · rfl
  · show acc lane * alpha + scaleOldVector beta old lane = _
    rw [mul_comm (acc lane) alpha, scaleOldVector, scaleOldScalar]
    split
    · rfl
    · split
      · rfl
      · exact congrArg (alpha * acc lane + ·) (mul_comm _ _)

variable (task : Task T) (directStore : Bool)

theorem write_scalar (direct : StoresDirectly task directStore) (row col : Nat) (acc : T) (exact : acc = taskSum task (row, col)) :
    Updates (rectangle row (row + 1) col (col + 1)) (cellAddress task.ldc) (taskTarget task)
      (writeScalarEpilogue task directStore row col acc) := by
  refine (point_rectangle row col).congr_run (fun c => ?_)
  rw [writeScalarEpilogue, taskTarget, ← exact]
  cases directStore with
  | true => rw [if_pos rfl, applyScalar, if_pos (direct rfl)]; rfl
  | false => rw [if_neg Bool.false_ne_true, apply_task_scalar]; rfl

theorem write_vector (direct : StoresDirectly task directStore) (lanes row col : Nat) (acc : Nat → T)
    (exact : ∀ lane, lane < lanes → acc lane = taskSum task (row + lane, col)) :
    Updates (rectangle row (row + lanes) col (col + 1)) (cellAddress task.ldc) (taskTarget task)
      (writeVectorEpilogue lanes task directStore row col acc) := by
  apply vector_rectangle
  refine updates_of_wrote (fun c => ?_)
  have place : ∀ lane, matIndex task.ldc row col + lane = cellAddress task.ldc (row + lane, col) := by
    intro lane
    simp only [cellAddress, matIndex]
    omega
  have stored := (store_vector lanes (matIndex task.ldc row col)
    (if directStore then acc else applyVector task.alpha task.beta acc (oldVec task row col c))).wrote c
  refine ⟨fun lane small => ?_, fun address apart => ?_⟩
  · have written := stored.written lane small
    simp only [place] at written
    refine written.trans ?_
    rw [taskTarget, ← exact lane small]
    cases directStore with
    | true => rw [if_pos rfl, applyScalar, if_pos (direct rfl)]
    | false =>
      rw [if_neg Bool.false_ne_true, apply_vector, oldVec]
      by_cases cleared : task.beta = 0
      · rw [if_pos cleared, applyScalar, applyScalar, scaleOldScalar, scaleOldScalar, if_pos cleared, if_pos cleared]
      · rw [if_neg cleared, loadVec, place]
  · exact stored.kept address (fun lane small => by
      rw [place]
      exact apart lane small)

end Epilogue

end Zynum.PackedSimd
