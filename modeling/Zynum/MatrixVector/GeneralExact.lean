import Zynum.MatrixVector.General
import Zynum.MatrixVector.BandProduct

set_option autoImplicit false

/- gemv over exact scalars, for leaf routines that meet their contract. -/
namespace Zynum

open ArrayProgram

section Target

variable {T : Type} [CommRing T]

theorem clear_unit_updates (n : Nat) : Updates (Set.Iio n) (fun i => i) (fun _ _ => (0 : T)) (clearUnit n) :=
  updates_elementwise n (fun i => i) (fun _ _ => 0) Function.injective_id.injOn

variable [Scalar T]

def denseEntry (a : Mem T) (lda : Int) (i j : Nat) : T := a (matIndex lda i j)

def gemvTarget (mode : TransposeMode) (m n : Int) (alpha : T) (a : Mem T) (lda : Int) (x : Mem T) (incx : Int) (beta : T)
    (i : Nat) (old : T) : T :=
  let lenx := if mode = .noTrans then n else m
  alpha * ∑ j ∈ Finset.range (toUsize lenx),
    opEntry mode (denseEntry a lda) i j * vectorGet x (startIndex lenx incx) j incx + beta * old

def columnSum (n : Nat) (a : Mem T) (lda : Int) (x : Mem T) (i : Nat) : T :=
  ∑ j ∈ Finset.range n, a (matIndex lda i j) * x j

def rowSum (m : Nat) (a : Mem T) (lda : Int) (x : Mem T) (doConj : Bool) (j : Nat) : T :=
  ∑ i ∈ Finset.range m, conjugateIf (a (matIndex lda i j)) doConj * x i

end Target

structure ExactGemvLeaves (T : Type) [CommRing T] [Scalar T] extends GemvLeaves T where
  fullNoTrans_exact : ∀ m n alpha a lda x beta y after, fullNoTrans m n alpha a lda x beta y = some after →
    Wrote (Set.Iio m) (fun i => i) (fun i old => alpha * columnSum n a lda x i + beta * old) y after
  fullTrans_exact : ∀ m n alpha a lda x beta y doConj after, fullTrans m n alpha a lda x beta y doConj = some after →
    Wrote (Set.Iio n) (fun j => j) (fun j old => alpha * rowSum m a lda x doConj j + beta * old) y after
  addNoTrans_exact : ∀ m n alpha a lda x y after, addNoTrans m n alpha a lda x y = some after →
    Wrote (Set.Iio m) (fun i => i) (fun i old => old + alpha * columnSum n a lda x i) y after
  addTrans_exact : ∀ m n alpha a lda x y doConj after, addTrans m n alpha a lda x y doConj = some after →
    Wrote (Set.Iio n) (fun j => j) (fun j old => old + alpha * rowSum m a lda x doConj j) y after

-- Leaves that always decline: every product runs in the portable loops.
def ExactGemvLeaves.portable (T : Type) [CommRing T] [Scalar T] : ExactGemvLeaves T where
  fullNoTrans _ _ _ _ _ _ _ _ := none
  fullTrans _ _ _ _ _ _ _ _ _ := none
  addNoTrans _ _ _ _ _ _ _ := none
  addTrans _ _ _ _ _ _ _ _ := none
  fullNoTrans_exact _ _ _ _ _ _ _ _ _ ran := nomatch ran
  fullTrans_exact _ _ _ _ _ _ _ _ _ _ ran := nomatch ran
  addNoTrans_exact _ _ _ _ _ _ _ _ ran := nomatch ran
  addTrans_exact _ _ _ _ _ _ _ _ _ ran := nomatch ran

section Routes

variable {T : Type} [CommRing T] [Scalar T] [LawfulScalar T]

theorem gemv_no_trans_unit_updates (rt : Runtime) (site : Site) (m n : Nat) (alpha : T) (a : Mem T) (lda : Int)
    (x : Mem T) :
    Updates (Set.Iio m) (fun i => i) (fun i old => old + alpha * columnSum n a lda x i)
      (fun y => gemvNoTransUnit rt site m n alpha a lda x y) := by
  have column : ∀ j, j < n → Updates (Set.Iio m) (fun i => i) (fun i old => old + a (matIndex lda i j) * (alpha * x j))
      (fun y => if isZero (alpha * x j) then y
        else if isReal T then axpyUnitReal m (alpha * x j) a (matIndex lda 0 j) y 0
        else axpy rt (j :: site) m (alpha * x j) a (matIndex lda 0 j) 1 y 0 1) := by
    intro j _
    have place : ∀ i, matIndex lda 0 j + i = matIndex lda i j := fun i => by simp only [matIndex]; omega
    cases nothing : isZero (alpha * x j) with
    | true =>
      refine ((updates_same _ _).congr rfl (fun i old _ => ?_)).congr_run (fun y => by rw [if_pos rfl])
      rw [(LawfulScalar.isZero_iff _).mp nothing, mul_zero, add_zero]
    | false =>
      cases kind : isReal T with
      | true =>
        have whole := axpy_unit_real_updates m (alpha * x j) a (matIndex lda 0 j) 0
        simp only [Nat.zero_add, place] at whole
        refine (whole.congr rfl (fun i old _ => by rw [mul_comm (alpha * x j)])).congr_run (fun y => ?_)
        simp only [Bool.false_eq_true, if_false, if_true]
      | false =>
        have whole := axpy_unit_updates rt (j :: site) m (alpha * x j) a (matIndex lda 0 j) 0
        simp only [Nat.zero_add, place, toUsize, Int.toNat_natCast] at whole
        refine (whole.congr rfl (fun i old _ => by rw [mul_comm (alpha * x j)])).congr_run (fun y => ?_)
        simp only [Bool.false_eq_true, if_false]
  refine (Updates.repeat n _ _ column).congr rfl (fun i old _ => ?_)
  rw [loop_accumulate, columnSum, Finset.mul_sum]
  congr 1
  exact Finset.sum_congr rfl (fun j _ => by ring)

theorem gemv_trans_unit_updates (rt : Runtime) (site : Site) (m n : Nat) (alpha : T) (a : Mem T) (lda : Int)
    (x : Mem T) (doConj : Bool) :
    Updates (Set.Iio n) (fun j => j) (fun j old => old + alpha * rowSum m a lda x doConj j)
      (fun y => gemvTransUnit rt site m n alpha a lda x y doConj) := by
  have sum : ∀ j, (if isReal T then dotUnitReal m a (matIndex lda 0 j) x 0
      else dot rt (j :: site) m a (matIndex lda 0 j) 1 x 0 1 doConj) = rowSum m a lda x doConj j := by
    intro j
    have place : ∀ i, matIndex lda 0 j + i = matIndex lda i j := fun i => by simp only [matIndex]; omega
    split
    · rename_i kind
      rw [dotUnitReal, dot_unit_sum, rowSum, Finset.range_eq_Ico]
      refine Finset.sum_congr rfl (fun i _ => ?_)
      rw [conjugateIf_real kind, conjugateIf_real kind, place, Nat.zero_add]
    · rw [dot_unit_exact, rowSum, toUsize, Int.toNat_natCast]
      simp only [place, Nat.zero_add]
  have whole := updates_elementwise n (fun j => j) (fun j old => old + alpha * rowSum m a lda x doConj j)
    Function.injective_id.injOn
  refine whole.congr_run (fun y => ?_)
  simp only [gemvTransUnit, sum]

theorem gemv_unit_real_updates (leaves : ExactGemvLeaves T) (rt : Runtime) (site : Site) (mode : TransposeMode) (m n : Nat)
    (alpha : T) (a : Mem T) (lda : Int) (x : Mem T) (beta : T) (real : isReal T = true) :
    Updates (Set.Iio (if mode = .noTrans then m else n)) (fun i => i)
      (fun i old => alpha * (if mode = .noTrans then columnSum n a lda x i
        else rowSum m a lda x (mode = .conjTrans) i) + beta * old)
      (fun y => gemvUnitReal leaves.toGemvLeaves rt site mode m n alpha a lda x beta y) := by
  have plainRow : ∀ j, rowSum m a lda x (mode = .conjTrans) j = rowSum m a lda x false j := fun j => by
    simp only [rowSum, conjugateIf_real real]
  have scaled := scale_unit_real_updates (if mode = .noTrans then m else n) beta
  cases nothing : isZero alpha with
  | true =>
    refine (scaled.congr rfl (fun i old _ => ?_)).congr_run (fun y => by simp only [gemvUnitReal, nothing, if_true])
    rw [(LawfulScalar.isZero_iff alpha).mp nothing, zero_mul, zero_add]
  | false =>
    by_cases plain : mode = .noTrans
    · simp only [plain, if_true] at scaled ⊢
      have added := attempt_updates _ (leaves.addNoTrans_exact m n alpha a lda x)
        (gemv_no_trans_unit_updates rt site m n alpha a lda x)
      have whole := attempt_updates _ (leaves.fullNoTrans_exact m n alpha a lda x beta) (updates_after_scale scaled added)
      refine whole.congr_run (fun y => ?_)
      simp only [gemvUnitReal, nothing, if_true, if_false, Bool.false_eq_true]
      cases leaves.fullNoTrans m n alpha a lda x beta y <;> rfl
    · simp only [plain, if_false, plainRow] at scaled ⊢
      have added := attempt_updates (fun y => leaves.addTrans m n alpha a lda x y false)
        (fun before after ran => leaves.addTrans_exact m n alpha a lda x before false after ran)
        (gemv_trans_unit_updates rt site m n alpha a lda x false)
      have whole := attempt_updates (fun y => leaves.fullTrans m n alpha a lda x beta y false)
        (fun before after ran => leaves.fullTrans_exact m n alpha a lda x beta before false after ran)
        (updates_after_scale scaled added)
      refine whole.congr_run (fun y => ?_)
      simp only [gemvUnitReal, nothing, plain, if_false, Bool.false_eq_true]
      cases leaves.fullTrans m n alpha a lda x beta y false <;> rfl

theorem gemv_unit_complex_updates (leaves : ExactGemvLeaves T) (rt : Runtime) (site : Site) (mode : TransposeMode)
    (m n : Nat) (alpha : T) (a : Mem T) (lda : Int) (x : Mem T) (beta : T) :
    Updates (Set.Iio (if mode = .noTrans then m else n)) (fun i => i)
      (fun i old => alpha * (if mode = .noTrans then columnSum n a lda x i
        else rowSum m a lda x (mode = .conjTrans) i) + beta * old)
      (fun y => gemvUnitComplex leaves.toGemvLeaves rt site mode m n alpha a lda x beta y) := by
  let leny := if mode = .noTrans then m else n
  let clear := fun y : Mem T => if isZero beta then clearUnit leny y else y
  let scale := fun y : Mem T => if isZero beta then y else scal rt (0 :: site) leny beta y 0 1
  have cleared : Updates (Set.Iio leny) (fun i => i) (fun _ old => if isZero beta then 0 else old) clear := by
    cases nothing : isZero beta with
    | true =>
      simpa only [clear, nothing, if_true] using clear_unit_updates leny
    | false =>
      simpa only [clear, nothing, Bool.false_eq_true, if_false] using updates_same (Set.Iio leny) (fun i : Nat => i)
  have scaled : Updates (Set.Iio leny) (fun i => i) (fun _ old => if isZero beta then old else beta * old) scale := by
    cases nothing : isZero beta with
    | true => simpa only [scale, nothing, if_true] using updates_same (Set.Iio leny) (fun i : Nat => i)
    | false =>
      have general := scal_unit_updates rt (0 :: site) leny beta 0
      simp only [Nat.zero_add, toUsize, Int.toNat_natCast] at general
      simpa only [scale, nothing, Bool.false_eq_true, if_false] using general
  have both : Updates (Set.Iio leny) (fun i => i) (fun _ old => beta * old) (fun y => scale (clear y)) := by
    refine (cleared.then_same scaled).congr rfl (fun i old _ => ?_)
    cases nothing : isZero beta with
    | true => simp only [if_true, (LawfulScalar.isZero_iff beta).mp nothing, zero_mul]
    | false => simp only [Bool.false_eq_true, if_false]
  -- A fused leaf reads the cleared y and multiplies it by beta, which is then zero.
  have fused : ∀ (sum : Nat → T) (before after : Mem T),
      Wrote (Set.Iio leny) (fun i => i) (fun i old => alpha * sum i + beta * old) (clear before) after →
      Wrote (Set.Iio leny) (fun i => i) (fun i old => alpha * sum i + beta * old) before after := by
    intro sum before after wrote
    refine (wrote.after cleared).congr (fun i old _ => ?_)
    cases nothing : isZero beta with
    | true => simp only [if_true, (LawfulScalar.isZero_iff beta).mp nothing, zero_mul]
    | false => simp only [Bool.false_eq_true, if_false]
  cases nothing : isZero alpha with
  | true =>
    refine (both.congr rfl (fun i old _ => ?_)).congr_run (fun y => by simp only [gemvUnitComplex, nothing, if_true]; rfl)
    rw [(LawfulScalar.isZero_iff alpha).mp nothing, zero_mul, zero_add]
  | false =>
    by_cases plain : mode = .noTrans
    · have rows : leny = m := if_pos plain
      simp only [rows] at both fused
      simp only [plain, if_true]
      have added := attempt_updates _ (leaves.addNoTrans_exact m n alpha a lda x)
        (gemv_no_trans_unit_updates rt (1 :: site) m n alpha a lda x)
      have whole := attempt_updates (fun y => leaves.fullNoTrans m n alpha a lda x beta (clear y))
        (fun before after ran => fused (columnSum n a lda x) before after (leaves.fullNoTrans_exact _ _ _ _ _ _ _ _ _ ran))
        (updates_after_scale both added)
      refine whole.congr_run (fun y => ?_)
      simp only [gemvUnitComplex, nothing, if_true, if_false, Bool.false_eq_true, clear, scale, rows]
      cases leaves.fullNoTrans m n alpha a lda x beta (if isZero beta = true then clearUnit m y else y) <;> rfl
    · have columns : leny = n := if_neg plain
      simp only [columns] at both fused
      simp only [plain, if_false]
      have added := attempt_updates (fun y => leaves.addTrans m n alpha a lda x y (mode = .conjTrans))
        (fun before after ran => leaves.addTrans_exact m n alpha a lda x before (mode = .conjTrans) after ran)
        (gemv_trans_unit_updates rt (1 :: site) m n alpha a lda x (mode = .conjTrans))
      have whole := attempt_updates (fun y => leaves.fullTrans m n alpha a lda x beta (clear y) (mode = .conjTrans))
        (fun before after ran => fused (rowSum m a lda x (mode = .conjTrans)) before after
          (leaves.fullTrans_exact _ _ _ _ _ _ _ _ _ _ ran))
        (updates_after_scale both added)
      refine whole.congr_run (fun y => ?_)
      simp only [gemvUnitComplex, nothing, plain, if_false, Bool.false_eq_true, clear, scale, columns]
      cases leaves.fullTrans m n alpha a lda x beta (if isZero beta = true then clearUnit n y else y) (mode = .conjTrans) <;> rfl

theorem gemv_strided_updates (mode : TransposeMode) (m n : Int) (alpha : T) (a : Mem T) (lda : Int) (x : Mem T) (incx : Int)
    (beta : T) (incy : Int) (nonzero : incy ≠ 0) :
    Updates (Set.Iio (toUsize (outputLength mode m n))) (fun i => ix (startIndex (outputLength mode m n) incy) i incy)
      (gemvTarget mode m n alpha a lda x incx beta)
      (fun y => gemvStrided mode m n alpha a lda x incx beta y incy) := by
  have scaled := scale_output_updates (outputLength mode m n) beta incy nonzero
  have injective := ix_injective (outputLength mode m n) incy nonzero
  cases nothing : isZero alpha with
  | true =>
    refine (scaled.congr rfl (fun i old _ => ?_)).congr_run (fun y => ?_)
    · simp only [gemvTarget, (LawfulScalar.isZero_iff alpha).mp nothing, zero_mul, zero_add]
    · simp only [gemvStrided, nothing, if_true, outputLength]
  | false =>
    by_cases plain : mode = .noTrans
    · have rows : outputLength mode m n = m := if_pos plain
      rw [rows] at scaled injective ⊢
      have column : ∀ j, j < toUsize n → Updates (Set.Iio (toUsize m)) (fun i => ix (startIndex m incy) i incy)
          (fun i old => old + a (matIndex lda i j) * (alpha * vectorGet x (startIndex n incx) j incx))
          (fun y => if isZero (alpha * vectorGet x (startIndex n incx) j incx) then y
            else loop (toUsize m) (fun i y => Function.update y (ix (startIndex m incy) i incy)
              (y (ix (startIndex m incy) i incy) + a (matIndex lda i j) *
                (alpha * vectorGet x (startIndex n incx) j incx))) y) := by
        intro j _
        split
        · rename_i zero
          refine (updates_same _ _).congr rfl (fun i old _ => ?_)
          rw [(LawfulScalar.isZero_iff _).mp zero, mul_zero, add_zero]
        · exact updates_elementwise (toUsize m) _ (fun i (old : T) => old + a (matIndex lda i j) *
            (alpha * vectorGet x (startIndex n incx) j incx)) injective
      refine ((scaled.then_same (Updates.repeat (toUsize n) _ _ column)).congr rfl (fun i old _ => ?_)).congr_run (fun y => ?_)
      · rw [column_run_sum]
        simp only [gemvTarget, plain, if_true, opEntry, denseEntry]
      · simp only [gemvStrided, nothing, plain, if_true, if_false, Bool.false_eq_true]
    · have columns : outputLength mode m n = n := if_neg plain
      rw [columns] at scaled injective ⊢
      have stored := updates_elementwise (toUsize n) _ (fun j (old : T) => old + alpha *
        ∑ i ∈ Finset.range (toUsize m), conjugateIf (a (matIndex lda i j)) (mode = .conjTrans) *
          vectorGet x (startIndex m incx) i incx) injective
      refine ((scaled.then_same stored).congr rfl (fun i old _ => ?_)).congr_run (fun y => ?_)
      · simp only [gemvTarget, plain, if_false, op_entry_transposed plain, denseEntry]
        exact add_comm _ _
      · simp only [gemvStrided, nothing, plain, if_false, Bool.false_eq_true, loop_accumulate, zero_add]

theorem gemv_updates (leaves : ExactGemvLeaves T) (rt : Runtime) (site : Site) (mode : TransposeMode) (m n : Int) (alpha : T)
    (a : Mem T) (lda : Int) (x : Mem T) (incx : Int) (beta : T) (incy : Int) (rows : 0 < m) (columns : 0 < n)
    (stepx : incx ≠ 0) (stepy : incy ≠ 0) :
    Updates (Set.Iio (toUsize (outputLength mode m n))) (fun i => ix (startIndex (outputLength mode m n) incy) i incy)
      (gemvTarget mode m n alpha a lda x incx beta)
      (fun y => gemv leaves.toGemvLeaves rt site mode m n alpha a lda x incx beta y incy) := by
  have enter : ¬ (m ≤ 0 ∨ n ≤ 0 ∨ incx = 0 ∨ incy = 0) := by omega
  by_cases unit : incx = 1 ∧ incy = 1
  · have length : toUsize (outputLength mode m n) = if mode = .noTrans then toUsize m else toUsize n := by
      simp only [outputLength]
      split <;> rfl
    have target : ∀ i old, alpha * (if mode = .noTrans then columnSum (toUsize n) a lda x i
        else rowSum (toUsize m) a lda x (mode = .conjTrans) i) + beta * old = gemvTarget mode m n alpha a lda x 1 beta i old := by
      intro i old
      by_cases plain : mode = .noTrans
      · simp only [gemvTarget, plain, if_true, columnSum, opEntry, denseEntry, vector_get_unit]
      · simp only [gemvTarget, plain, if_false, rowSum, op_entry_transposed plain, denseEntry, vector_get_unit]
    obtain ⟨rfl, rfl⟩ := unit
    simp only [ix_unit, length]
    cases real : isReal T with
    | true =>
      have whole := gemv_unit_real_updates leaves rt site mode (toUsize m) (toUsize n) alpha a lda x beta real
      refine (whole.congr rfl (fun i old _ => target i old)).congr_run (fun y => ?_)
      rw [gemv, if_neg enter, if_pos ⟨rfl, rfl⟩, if_pos real]
    | false =>
      have whole := gemv_unit_complex_updates leaves rt site mode (toUsize m) (toUsize n) alpha a lda x beta
      refine (whole.congr rfl (fun i old _ => target i old)).congr_run (fun y => ?_)
      rw [gemv, if_neg enter, if_pos ⟨rfl, rfl⟩, if_neg (by simp only [real, Bool.false_eq_true, not_false_eq_true])]
  · refine (gemv_strided_updates mode m n alpha a lda x incx beta incy stepy).congr_run (fun y => ?_)
    rw [gemv, if_neg enter, if_neg unit]

end Routes

end Zynum
