import Zynum.Vector.Stride2Dispatch
import Zynum.Vector.Stride2Gaps
import Zynum.Complex

set_option autoImplicit false

/- Over exact scalars every route of scal, rscal, copy, axpy, axpby, dot and asum
   updates each logical element once from the values before the call. -/
namespace Zynum

open ArrayProgram
open Element (width parts whole fromReal)

class LawfulElement (R : outParam Type) (T : Type) [CommRing R] [CommRing T] [Element R T] : Prop extends
    LawfulScalar T where
  width_pos : 0 < width T
  width_real : isReal T = true → width T = 1
  parts_whole : ∀ (value : Nat → R) (part : Nat), part < width T → parts (whole value : T) part = value part
  whole_parts : ∀ value : T, whole (parts value) = value
  whole_congr : ∀ value value' : Nat → R, (∀ part, part < width T → value part = value' part) →
    (whole value : T) = whole value'
  parts_add : ∀ (a b : T) (part : Nat), parts (a + b) part = parts a part + parts b part
  parts_sub : ∀ (a b : T) (part : Nat), parts (a - b) part = parts a part - parts b part
  parts_real_mul : ∀ (alpha value : T) (part : Nat), part < width T →
    (isReal T || Scalar.imagIsZero alpha) = true → parts (alpha * value) part = parts alpha 0 * parts value part
  parts_from_real : ∀ (alpha : R) (value : T) (part : Nat), part < width T →
    parts (fromReal alpha * value : T) part = alpha * parts value part

section Kinds

variable (R : Type) [CommRing R] [DecidableEq R]

@[reducible] def realElement (precision : Precision) : Element R R where
  toScalar := realKind R precision
  width := 1
  parts value _ := value
  whole value := value 0
  fromReal value := value

@[reducible] def complexElement (precision : Precision) : Element R (Cplx R) where
  toScalar := complexKind R precision
  width := 2
  parts value part := if part = 0 then value.re else value.im
  whole value := ⟨value 0, value 1⟩
  fromReal value := ⟨value, 0⟩

end Kinds

theorem real_element_lawful (R : Type) [CommRing R] [DecidableEq R] (precision : Precision) :
    @LawfulElement R R _ _ (realElement R precision) := by
  let _ := realElement R precision
  exact
    { real_kind_lawful R precision with
      width_pos := Nat.one_pos
      width_real := fun _ => rfl
      parts_whole := fun value part small => by
        have first : part = 0 := by
          have below : part < 1 := small
          omega
        rw [first]
        rfl
      whole_parts := fun _ => rfl
      whole_congr := fun value value' same => same 0 Nat.one_pos
      parts_add := fun _ _ _ => rfl
      parts_sub := fun _ _ _ => rfl
      parts_real_mul := fun _ _ _ _ _ => rfl
      parts_from_real := fun _ _ _ _ => rfl }

theorem complex_element_lawful (R : Type) [CommRing R] [DecidableEq R] (precision : Precision) :
    @LawfulElement R (Cplx R) _ _ (complexElement R precision) := by
  let _ := complexElement R precision
  exact
    { complex_kind_lawful R precision with
      width_pos := Nat.two_pos
      width_real := fun real => nomatch (show false = true from real)
      parts_whole := fun value part small => by
        have below : part < 2 := small
        rcases (show part = 0 ∨ part = 1 by omega) with rfl | rfl
        · rfl
        · rfl
      whole_parts := fun value => rfl
      whole_congr := fun value value' same => by
        change (⟨value 0, value 1⟩ : Cplx R) = ⟨value' 0, value' 1⟩
        rw [same 0 (Nat.two_pos), same 1 Nat.one_lt_two]
      parts_add := fun a b part => by
        by_cases first : part = 0
        · simp only [parts, first, if_true, Cplx.add_re]
        · simp only [parts, first, if_false, Cplx.add_im]
      parts_sub := fun a b part => by
        by_cases first : part = 0
        · simp only [parts, first, if_true, Cplx.sub_re]
        · simp only [parts, first, if_false, Cplx.sub_im]
      parts_real_mul := fun alpha value part small flat => by
        have zeroIm : alpha.im = 0 := by
          have flat' : decide (alpha.im = 0) = true := flat
          exact of_decide_eq_true flat'
        by_cases first : part = 0
        · simp only [parts, first, if_true, Cplx.mul_re, zeroIm]
          ring
        · simp only [parts, first, if_false, if_true, Cplx.mul_im, zeroIm]
          ring
      parts_from_real := fun alpha value part small => by
        by_cases first : part = 0
        · simp only [parts, fromReal, first, if_true, Cplx.mul_re]
          ring
        · simp only [parts, fromReal, first, if_false, Cplx.mul_im]
          ring }

namespace LevelOne

section Rewriting

variable {R A B ι κ : Type}

theorem rewrites_finished {cells : Set ι} {address : ι → Nat} {value : (Nat → R) → ι → R}
    (same : ∀ memory cell, cell ∈ cells → value memory cell = memory (address cell)) :
    Rewrites (finished : Execution Nat R Unit Unit) cells address value := by
  refine rewrites_single (fun memory => ⟨fun cell member => ?_, fun _ _ => rfl⟩)
  exact (same memory cell member).symm

theorem Rewrites.congr {execution : Execution Nat R B A} {cells cells' : Set ι} {address : ι → Nat}
    {value value' : (Nat → R) → ι → R} (rewrites : Rewrites execution cells address value) (sameCells : cells = cells')
    (same : ∀ memory cell, cell ∈ cells → value memory cell = value' memory cell) :
    Rewrites execution cells' address value' := by
  subst sameCells
  exact fun memory result final outcome => (rewrites memory result final outcome).congr (same memory)

theorem Rewrites.rename {execution : Execution Nat R B A} {cells : Set ι} {address : ι → Nat}
    {value : (Nat → R) → ι → R} {names : Set κ} {address' : κ → Nat} {value' : (Nat → R) → κ → R} (name : κ → ι)
    (rewrites : Rewrites execution cells address value) (inside : ∀ cell, cell ∈ names → name cell ∈ cells)
    (onto : ∀ cell, cell ∈ cells → ∃ other, other ∈ names ∧ name other = cell)
    (sameAddress : ∀ cell, cell ∈ names → address' cell = address (name cell))
    (sameValue : ∀ memory cell, cell ∈ names → value' memory cell = value memory (name cell)) :
    Rewrites execution names address' value' := by
  intro memory result final outcome
  have whole := rewrites memory result final outcome
  constructor
  · intro cell member
    rw [sameAddress cell member, sameValue memory cell member]
    exact whole.written _ (inside cell member)
  · intro place outside
    refine whole.kept place (fun cell member same => ?_)
    obtain ⟨other, known, rfl⟩ := onto cell member
    exact outside other known ((sameAddress other known).trans same)

theorem row_slots {width n : Nat} (slot : Nat × Nat) (member : slot ∈ slots width (Set.Iio n)) :
    (width * slot.1 + slot.2, 0) ∈ slots 1 (Set.Iio (width * n)) := by
  have small : slot.2 < width := member.1
  have inside : slot.1 < n := member.2
  have next : width * (slot.1 + 1) ≤ width * n := Nat.mul_le_mul_left width inside
  rw [Nat.mul_succ] at next
  exact ⟨Nat.one_pos, show width * slot.1 + slot.2 < width * n by omega⟩

theorem slots_row {width n : Nat} (cell : Nat × Nat) (member : cell ∈ slots 1 (Set.Iio (width * n))) :
    ∃ slot, slot ∈ slots width (Set.Iio n) ∧ (width * slot.1 + slot.2, 0) = cell := by
  obtain ⟨lane, part⟩ := cell
  have none : part = 0 := by
    have below : part < 1 := member.1
    omega
  have inside : lane < width * n := member.2
  have some : 0 < width := by
    rcases Nat.eq_zero_or_pos width with nothing | some
    · rw [nothing, Nat.zero_mul] at inside
      omega
    · exact some
  refine ⟨(lane / width, lane % width), ⟨Nat.mod_lt _ some, Nat.div_lt_of_lt_mul inside⟩, ?_⟩
  rw [none]
  exact Prod.ext (Nat.div_add_mod lane width) rfl

theorem row_element (memory : Nat → R) (width start i part : Nat) :
    (Operand.unit 1 (cellsFrom start)).element memory (width * i + part) 0 =
      (Operand.unit width (cellsFrom start)).element memory i part := by
  change memory (start + (1 * (width * i + part) + 0)) = memory (start + (width * i + part))
  rw [Nat.one_mul, Nat.add_zero]

theorem Rewrites.row {execution : Execution Nat R B A} {width n start : Nat} {value value' : (Nat → R) → Nat × Nat → R}
    (rewrites : Rewrites execution (slots 1 (Set.Iio (width * n))) (slotAddress (Operand.unit 1 (cellsFrom start))) value)
    (same : ∀ memory slot, slot ∈ slots width (Set.Iio n) → value' memory slot = value memory (width * slot.1 + slot.2, 0)) :
    Rewrites execution (slots width (Set.Iio n)) (slotAddress (Operand.unit width (cellsFrom start))) value' := by
  refine rewrites.rename (fun slot => (width * slot.1 + slot.2, 0)) row_slots slots_row ?_ same
  intro slot _
  change start + (width * slot.1 + slot.2) = start + (1 * (width * slot.1 + slot.2) + 0)
  omega

end Rewriting

section Rules

variable {R T : Type} [CommRing R] [LinearOrder R] [CommRing T] [Element R T] [LawfulElement R T]

omit [LinearOrder R] in
theorem scal_rule_map (alpha : T) : ElementMap (width T) (scalRule (R := R) alpha) := by
  intro value value' same part _
  rw [scalRule, scalRule, LawfulElement.whole_congr (T := T) value value' same]

omit [LinearOrder R] in
theorem real_scal_rule_map (alpha : R) (width : Nat) : ElementMap width (realScalRule alpha) := by
  intro value value' same part small
  rw [realScalRule, realScalRule, same part small]

theorem target_unary_two {machine : VectorMachine} {n incx : Int} (target : targetUnary machine n incx = true) :
    incx = 2 := by
  simp only [targetUnary, Bool.and_eq_true] at target
  exact of_decide_eq_true target.1.2

end Rules

section Loops

variable {R : Type} [CommRing R] {width n start : Nat} {apply : (Nat → R) → Nat → R}

theorem update_unit_route (start n : Nat) (machine : VectorMachine) (site : Site) (laneCounts : List Nat) (some : 0 < width)
    (elementwise : ElementMap width apply) :
    Rewrites (updateUnitRoute machine site width laneCounts apply n (cellsFrom start)) (slots width (Set.Iio n))
      (slotAddress (Operand.unit width (cellsFrom start))) (slotValue apply (Operand.unit width (cellsFrom start))) := by
  have task := update_unit_task start n machine laneCounts some elementwise
  exact rewrites_get_d (fun execution accepted => task.even accepted) (task.serial site)

theorem update_singles {operand : Operand Nat} (some : 0 < operand.width)
    (injective : Function.Injective operand.place) (elementwise : ElementMap operand.width apply)
    (separate : operand.Separate (Set.Iio n)) :
    Rewrites (.single (Program.eachItem (singles 0 n) (updateOne apply operand)) : Execution Nat R Unit Unit)
      (slots operand.width (Set.Iio n)) (slotAddress operand) (slotValue apply operand) := by
  have task := one_task (n := n) operand (fun _ first last => singles first last) some injective elementwise separate
    (fun _ _ _ ordered => singles_consecutive ordered) (fun _ first last => walkable_singles operand first last)
    (fun _ first last piece place member gap => by
      rw [no_gaps (singles_step first last piece member)] at gap
      exact absurd gap (Set.notMem_empty place))
  exact task.serial []

end Loops

theorem no_indices {n : Int} (empty : n ≤ 0) (i : Nat) : i ∉ Set.Iio (toUsize n) := by
  have none : toUsize n = 0 := Int.toNat_of_nonpos empty
  rw [none]
  exact Nat.not_lt_zero i

section Unary

variable {R T : Type} [CommRing R] [LinearOrder R] [CommRing T] [Element R T] [LawfulElement R T]

omit [LinearOrder R] in
theorem scal_rewrites (machine : VectorMachine) (site : Site) (n : Int) (alpha : T) (start : Nat) (incx : Int)
    (nonzero : incx ≠ 0) :
    Rewrites (scal machine site n alpha (cellsFrom start) incx) (slots (width T) (Set.Iio (toUsize n)))
      (slotAddress (Operand.strided (width T) n incx (cellsFrom start)))
      (slotValue (scalRule alpha) (Operand.strided (width T) n incx (cellsFrom start))) := by
  have some : 0 < width T := LawfulElement.width_pos
  rw [scal]
  split
  · refine rewrites_finished (fun memory slot member => ?_)
    exact absurd member.2 (no_indices (by omega) slot.1)
  split
  · rename_i one
    have same : alpha = 1 := (LawfulScalar.isOne_iff alpha).mp one
    refine rewrites_finished (fun memory slot member => ?_)
    rw [slotValue, scalRule, same, one_mul, LawfulElement.parts_whole _ _ member.1]
    rfl
  split
  · rename_i unit
    rw [unit, unit_strided]
    split
    · rename_i flat
      have row := update_unit_route start (width T * toUsize n) machine site
        (realLaneCounts machine (Scalar.precision T)) Nat.one_pos (real_scal_rule_map (parts alpha 0) 1)
      refine row.row (fun memory slot member => ?_)
      rw [slotValue, scalRule, LawfulElement.parts_real_mul _ _ _ member.1 flat, LawfulElement.parts_whole _ _ member.1,
        slotValue, realScalRule, row_element, mul_comm]
    · exact update_unit_route start (toUsize n) machine site _ some (scal_rule_map alpha)
  split
  · rename_i complex
    have two : incx = 2 := of_decide_eq_true (Bool.and_eq_true_iff.mp complex).2
    rw [two, stride2_strided]
    have task := update_stride2_task start (toUsize n) false (stride2Lanes machine T) some
      (scal_rule_map (R := R) alpha)
    refine rewrites_get_d (fun execution accepted => ?_) (task.serial site)
    split at accepted
    · exact task.even accepted
    · exact nomatch accepted
  · exact update_singles some (cells_from_injective start) (scal_rule_map alpha) (strided_separate _ _ _ _ nonzero)

omit [LinearOrder R] in
theorem entry_scal_rewrites (machine : VectorMachine) (site : Site) (n : Int) (alpha : T) (start : Nat) (incx : Int)
    (nonzero : incx ≠ 0) :
    Rewrites (entryScal machine site n alpha (cellsFrom start) incx) (slots (width T) (Set.Iio (toUsize n)))
      (slotAddress (Operand.strided (width T) n incx (cellsFrom start)))
      (slotValue (scalRule alpha) (Operand.strided (width T) n incx (cellsFrom start))) := by
  refine rewrites_get_d (fun execution accepted => ?_) (scal_rewrites machine _ n alpha start incx nonzero)
  rw [stride2Scal] at accepted
  split at accepted
  · rename_i target
    have two := target_unary_two (Bool.and_eq_true_iff.mp target).1
    rw [two, stride2_strided]
    exact (update_stride2_task start _ true _ LawfulElement.width_pos (scal_rule_map (R := R) alpha)).even accepted
  · exact nomatch accepted

omit [LinearOrder R] in
theorem real_scal_rule (alpha : R) (value : Nat → R) (part : Nat) (small : part < width T) :
    scalRule (fromReal alpha : T) value part = alpha * value part := by
  rw [scalRule, LawfulElement.parts_from_real _ _ _ small, LawfulElement.parts_whole _ _ small]

theorem rscal_rewrites (machine : VectorMachine) (site : Site) (n : Int) (alpha : R) (start : Nat) (incx : Int)
    (nonzero : incx ≠ 0) :
    Rewrites (rscal T machine site n alpha (cellsFrom start) incx) (slots (width T) (Set.Iio (toUsize n)))
      (slotAddress (Operand.strided (width T) n incx (cellsFrom start)))
      (slotValue (scalRule (fromReal alpha : T)) (Operand.strided (width T) n incx (cellsFrom start))) := by
  rw [rscal]
  split
  · rename_i one
    refine rewrites_finished (fun memory slot member => ?_)
    rw [slotValue, real_scal_rule alpha _ _ member.1, one, one_mul]
    rfl
  split
  · rename_i nothing
    refine rewrites_finished (fun memory slot member => ?_)
    exact absurd member.2 (no_indices (by omega) slot.1)
  split
  · rename_i unit
    rw [unit.2, unit_strided]
    have row := update_unit_route start (width T * toUsize n) machine site
      (realLaneCounts machine (Scalar.precision T)) Nat.one_pos (real_scal_rule_map alpha 1)
    refine row.row (fun memory slot member => ?_)
    rw [slotValue, real_scal_rule alpha _ _ member.1, slotValue, realScalRule, row_element, mul_comm]
  · exact scal_rewrites machine site n _ start incx nonzero

theorem entry_rscal_rewrites (machine : VectorMachine) (site : Site) (n : Int) (alpha : R) (start : Nat) (incx : Int)
    (nonzero : incx ≠ 0) :
    Rewrites (entryRscal T machine site n alpha (cellsFrom start) incx) (slots (width T) (Set.Iio (toUsize n)))
      (slotAddress (Operand.strided (width T) n incx (cellsFrom start)))
      (slotValue (scalRule (fromReal alpha : T)) (Operand.strided (width T) n incx (cellsFrom start))) := by
  refine rewrites_get_d (fun execution accepted => ?_) (rscal_rewrites machine _ n alpha start incx nonzero)
  rw [stride2Rscal] at accepted
  split at accepted
  · rename_i target
    have two := target_unary_two (Bool.and_eq_true_iff.mp target).1
    rw [two, stride2_strided]
    have task := update_stride2_task start (toUsize n) true (stride2Lanes machine T)
      (LawfulElement.width_pos (T := T)) (real_scal_rule_map alpha (width T))
    refine (task.even accepted).congr rfl (fun memory slot member => ?_)
    rw [slotValue, slotValue, real_scal_rule alpha _ _ member.1, realScalRule, mul_comm]
  · exact nomatch accepted

end Unary

end LevelOne

end Zynum
