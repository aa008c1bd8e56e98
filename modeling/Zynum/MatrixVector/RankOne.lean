import Zynum.MatrixVector.RankUpdateExact

set_option autoImplicit false

/- ger of core/matrix_vector/rank_update.zig. -/
namespace Zynum

open ArrayProgram

-- The unit-stride core of ger: its tasks, the kernels behind them and their blocks of
-- columns. It declines what the policy leaves to the loops.
structure GerLeaves (T : Type) where
  unit : (m n : Nat) → (alpha : T) → (x : Mem T) → (incx : Int) → (y : Mem T) → (incy : Int) → (a : Mem T) → (lda : Int) → Bool →
    Option (Mem T)

variable {T : Type} [CommRing T] [Scalar T]

def ger (leaves : GerLeaves T) (m_ n_ : Int) (alpha : T) (x : Mem T) (incx : Int) (y : Mem T) (incy : Int) (a : Mem T) (lda : Int)
    (conjY : Bool) : Mem T :=
  if m_ ≤ 0 ∨ n_ ≤ 0 ∨ incx = 0 ∨ incy = 0 ∨ isZero alpha then a
  else
    let m := toUsize m_
    let n := toUsize n_
    -- The real routine has no conjugated form.
    let selected := if isReal T ∧ conjY then none else leaves.unit m n alpha x incx y incy a lda conjY
    selected.getD
      (loop n (fun j a =>
        let temp := alpha * conjugateIf (vectorGet y (startIndex n_ incy) j incy) conjY
        loop m (fun i a =>
          let idxa := matIndex lda i j
          Function.update a idxa (a idxa + vectorGet x (startIndex m_ incx) i incx * temp)) a) a)

def outerValue (m n : Int) (alpha : T) (x : Mem T) (incx : Int) (y : Mem T) (incy : Int) (conjY : Bool) (cell : Nat × Nat)
    (old : T) : T :=
  old + alpha * (vectorGet x (startIndex m incx) cell.1 incx * conjugateIf (vectorGet y (startIndex n incy) cell.2 incy) conjY)

structure ExactGerLeaves (T : Type) [CommRing T] [Scalar T] extends GerLeaves T where
  unit_exact : ∀ (m n : Nat) alpha x incx y incy a lda conjY after, m ≤ toUsize lda →
    unit m n alpha x incx y incy a lda conjY = some after →
    Wrote (matrixCells m n) (cellAddress lda) (outerValue m n alpha x incx y incy conjY) a after

-- A core that leaves every call to the loops.
def ExactGerLeaves.portable (T : Type) [CommRing T] [Scalar T] : ExactGerLeaves T where
  unit _ _ _ _ _ _ _ _ _ _ := none
  unit_exact _ _ _ _ _ _ _ _ _ _ _ _ ran := by cases ran

section Exact

variable [LawfulScalar T]

theorem outer_idle (m n : Int) (alpha : T) (x : Mem T) (incx : Int) (y : Mem T) (incy : Int) (conjY : Bool)
    (idle : m ≤ 0 ∨ n ≤ 0 ∨ isZero alpha = true) (cell : Nat × Nat) (old : T) (member : cell ∈ matrixCells (toUsize m) (toUsize n)) :
    old = outerValue m n alpha x incx y incy conjY cell old := by
  rcases idle with none | none | nothing
  · have size : toUsize m = 0 := Int.toNat_of_nonpos none
    exact absurd (size ▸ member.1) (Nat.not_lt_zero _)
  · have size : toUsize n = 0 := Int.toNat_of_nonpos none
    exact absurd (size ▸ member.2) (Nat.not_lt_zero _)
  · rw [outerValue, (LawfulScalar.isZero_iff alpha).mp nothing, zero_mul, add_zero]

theorem ger_updates (leaves : ExactGerLeaves T) (m n : Int) (alpha : T) (x : Mem T) (incx : Int) (y : Mem T) (incy : Int) (lda : Int)
    (conjY : Bool) (stepx : incx ≠ 0) (stepy : incy ≠ 0) (fits : toUsize m ≤ toUsize lda) :
    Updates (matrixCells (toUsize m) (toUsize n)) (cellAddress lda) (outerValue m n alpha x incx y incy conjY)
      (fun a => ger leaves.toGerLeaves m n alpha x incx y incy a lda conjY) := by
  refine updates_guard _ (fun idle => ?_) (fun busy => ?_)
  · refine (updates_same _ _).congr rfl (fun cell old member => outer_idle m n alpha x incx y incy conjY ?_ cell old member)
    rcases idle with rows | columns | still | still | nothing
    · exact .inl rows
    · exact .inr (.inl columns)
    · exact absurd still stepx
    · exact absurd still stepy
    · exact .inr (.inr nothing)
  · obtain ⟨rows, columns⟩ : 0 ≤ m ∧ 0 ≤ n := by omega
    refine attempt_updates _ (fun before after ran => ?_) ?_
    · split at ran
      case isTrue => cases ran
      case isFalse =>
        have wrote := leaves.unit_exact _ _ alpha x incx y incy before lda conjY after fits ran
        simp only [toUsize, Int.toNat_of_nonneg rows, Int.toNat_of_nonneg columns] at wrote
        exact wrote
    · have grid := updates_grid (toUsize m) (toUsize n) (cellAddress lda)
        (fun cell (old : T) => old + vectorGet x (startIndex m incx) cell.1 incx *
          (alpha * conjugateIf (vectorGet y (startIndex n incy) cell.2 incy) conjY))
        ((cell_address_injective lda (toUsize m) fits).mono (fun _ member => member.1))
      refine grid.congr rfl (fun cell old _ => ?_)
      rw [outerValue, mul_left_comm]

end Exact

end Zynum
