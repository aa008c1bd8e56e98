import Zynum.Vector.LevelOneExact

set_option autoImplicit false

/- copy, axpy and axpby read x and store y: over exact scalars every route
   updates each logical element of y once, from the values before the call. -/
namespace Zynum.LevelOne

open ArrayProgram
open Element (width parts whole fromReal)

section Vectors

variable {R : Type} {width n xStart yStart : Nat}

theorem row_disjoint
    (disjoint : Disjoint2 (Operand.unit width (cellsFrom xStart)) (Operand.unit width (cellsFrom yStart)) (Set.Iio n)) :
    Disjoint2 (Operand.unit 1 (cellsFrom xStart)) (Operand.unit 1 (cellsFrom yStart)) (Set.Iio (width * n)) := by
  intro i j c d inside inside' small small' same
  obtain ⟨slot, member, named⟩ := slots_row (i, c) ⟨small, inside⟩
  obtain ⟨other, member', named'⟩ := slots_row (j, d) ⟨small', inside'⟩
  obtain ⟨rfl, rfl⟩ := Prod.mk.inj named
  obtain ⟨rfl, rfl⟩ := Prod.mk.inj named'
  refine disjoint slot.1 other.1 slot.2 other.2 member.2 member'.2 member.1 member'.1 ?_
  have placed : xStart + (1 * (width * slot.1 + slot.2) + 0) = yStart + (1 * (width * other.1 + other.2) + 0) := same
  change xStart + (width * slot.1 + slot.2) = yStart + (width * other.1 + other.2)
  omega

theorem row_aligned
    (aligned : Aligned (Operand.unit width (cellsFrom xStart)) (Operand.unit width (cellsFrom yStart)) (Set.Iio n)) :
    Aligned (Operand.unit 1 (cellsFrom xStart)) (Operand.unit 1 (cellsFrom yStart)) (Set.Iio (width * n)) := by
  intro i j c d inside inside' small small' same
  obtain ⟨slot, member, named⟩ := slots_row (i, c) ⟨small, inside⟩
  obtain ⟨other, member', named'⟩ := slots_row (j, d) ⟨small', inside'⟩
  obtain ⟨rfl, rfl⟩ := Prod.mk.inj named
  obtain ⟨rfl, rfl⟩ := Prod.mk.inj named'
  have placed : xStart + (width * slot.1 + slot.2) = yStart + (width * other.1 + other.2) := by
    have flat : xStart + (1 * (width * slot.1 + slot.2) + 0) = yStart + (1 * (width * other.1 + other.2) + 0) := same
    omega
  obtain ⟨element, part⟩ := aligned slot.1 other.1 slot.2 other.2 member.2 member'.2 member.1 member'.1 placed
  rw [element, part]
  exact ⟨rfl, rfl⟩

theorem Rewrites.second_row {A B : Type} {execution : Execution Nat R B A} {apply apply' : (Nat → R) → (Nat → R) → Nat → R}
    (rewrites : Rewrites execution (slots 1 (Set.Iio (width * n))) (slotAddress (Operand.unit 1 (cellsFrom yStart)))
      (pairValue apply (Operand.unit 1 (cellsFrom xStart)) (Operand.unit 1 (cellsFrom yStart))))
    (same : ∀ (x y : Nat → R) (x' y' : Nat → R) (part : Nat), part < width → x' 0 = x part → y' 0 = y part →
      apply' x y part = apply x' y' 0) :
    Rewrites execution (slots width (Set.Iio n)) (slotAddress (Operand.unit width (cellsFrom yStart)))
      (pairValue apply' (Operand.unit width (cellsFrom xStart)) (Operand.unit width (cellsFrom yStart))) :=
  rewrites.row (fun memory slot member =>
    same _ _ _ _ slot.2 member.1 (row_element memory width xStart slot.1 slot.2)
      (row_element memory width yStart slot.1 slot.2))

end Vectors

section Loops

variable {R : Type} [CommRing R] {width n xStart yStart : Nat} {apply : (Nat → R) → (Nat → R) → Nat → R}

theorem second_unit_route (machine : VectorMachine) (site : Site) (laneCounts : List Nat) (some : 0 < width)
    (elementwise : PairMap width apply)
    (aligned : Aligned (Operand.unit width (cellsFrom xStart)) (Operand.unit width (cellsFrom yStart)) (Set.Iio n)) :
    Rewrites (secondUnitRoute machine site width laneCounts apply n (cellsFrom xStart) (cellsFrom yStart))
      (slots width (Set.Iio n)) (slotAddress (Operand.unit width (cellsFrom yStart)))
      (pairValue apply (Operand.unit width (cellsFrom xStart)) (Operand.unit width (cellsFrom yStart))) := by
  have task := second_unit_task machine laneCounts some elementwise aligned
  exact rewrites_get_d (fun execution accepted => task.even accepted) (task.serial site)

theorem second_strided {N incx incy : Int} (some : 0 < width) (elementwise : PairMap width apply) (nonzero : incy ≠ 0)
    (aligned : Aligned (Operand.strided width N incx (cellsFrom xStart)) (Operand.strided width N incy (cellsFrom yStart))
      (Set.Iio (toUsize N))) :
    Rewrites (secondStrided width N apply (cellsFrom xStart) incx (cellsFrom yStart) incy : Execution Nat R Unit Unit)
      (slots width (Set.Iio (toUsize N))) (slotAddress (Operand.strided width N incy (cellsFrom yStart)))
      (pairValue apply (Operand.strided width N incx (cellsFrom xStart)) (Operand.strided width N incy (cellsFrom yStart))) := by
  have task := second_task (x := Operand.strided width N incx (cellsFrom xStart))
    (y := Operand.strided width N incy (cellsFrom yStart)) (fun _ first last => singles first last) some rfl
    (cells_from_injective yStart) elementwise (strided_separate width yStart N incy nonzero) aligned
    (fun _ _ _ ordered => singles_consecutive ordered) (fun _ first last => walkable_singles _ first last)
    (fun _ first last => walkable_singles _ first last)
    (fun _ first last piece place member gap => by
      rw [no_gaps (singles_step first last piece member)] at gap
      exact absurd gap (Set.notMem_empty place))
  exact task.serial []

theorem copy_strided {N incx incy : Int} (some : 0 < width) (nonzero : incy ≠ 0)
    (aligned : Aligned (Operand.strided width N incx (cellsFrom xStart)) (Operand.strided width N incy (cellsFrom yStart))
      (Set.Iio (toUsize N))) :
    Rewrites (.single (Program.eachItem (singles 0 (toUsize N)) (copyBlock (Operand.strided width N incx (cellsFrom xStart))
        (Operand.strided width N incy (cellsFrom yStart)))) : Execution Nat R Unit Unit)
      (slots width (Set.Iio (toUsize N))) (slotAddress (Operand.strided width N incy (cellsFrom yStart)))
      (pairValue (fun x _ => x) (Operand.strided width N incx (cellsFrom xStart))
        (Operand.strided width N incy (cellsFrom yStart))) := by
  have task := copy_task (R := R) (x := Operand.strided width N incx (cellsFrom xStart))
    (y := Operand.strided width N incy (cellsFrom yStart)) (fun _ first last => singles first last) some rfl
    (cells_from_injective yStart) (strided_separate width yStart N incy nonzero) aligned
    (fun _ _ _ ordered => singles_consecutive ordered) (fun _ first last => walkable_singles _ first last)
    (fun _ first last => walkable_singles _ first last) (fun _ first last => singles_step first last)
  exact task.serial []

end Loops

section Copying

variable {R : Type} [CommRing R] {xStart yStart : Nat}

theorem copy_pieces_consecutive (machine : VectorMachine) (apart : xStart ≠ yStart) (site : Site) (first last : Nat)
    (ordered : first ≤ last) :
    Consecutive
      (if first = last ∨ xStart = yStart then []
      else if rangesOverlap xStart yStart (last - first) then [⟨first, last - first, 1⟩]
      else unitPieces machine site [last - first] first last) first last := by
  split
  · rename_i nothing
    rcases nothing with same | together
    · exact same
    · exact absurd together apart
  split
  · exact ⟨rfl, Nat.add_sub_cancel' ordered⟩
  · exact unit_pieces_consecutive machine site _ first last ordered

theorem copy_pieces_step (machine : VectorMachine) (site : Site) (first last : Nat) (piece : Piece)
    (member : piece ∈ (if first = last ∨ xStart = yStart then []
      else if rangesOverlap xStart yStart (last - first) then [⟨first, last - first, 1⟩]
      else unitPieces machine site [last - first] first last)) : piece.step = 1 := by
  split at member
  · exact absurd member List.not_mem_nil
  split at member
  · rw [List.mem_singleton.mp member]
  · exact unit_pieces_step machine site _ first last piece member

theorem copy_bytes_task {n : Nat} (machine : VectorMachine) (apart : xStart ≠ yStart)
    (aligned : Aligned (Operand.unit 1 (cellsFrom xStart)) (Operand.unit 1 (cellsFrom yStart)) (Set.Iio n)) :
    RangeTask (copyBytes machine xStart yStart (cellsFrom xStart) (cellsFrom yStart)) Prod.fst (fun slot => slot.2 < 1)
      (slotAddress (Operand.unit 1 (cellsFrom yStart)))
      (pairValue (R := R) (fun x _ => x) (Operand.unit 1 (cellsFrom xStart)) (Operand.unit 1 (cellsFrom yStart))) n :=
  copy_task (x := Operand.unit 1 (cellsFrom xStart)) (y := Operand.unit 1 (cellsFrom yStart)) _ Nat.one_pos rfl
    (cells_from_injective yStart) (unit_separate 1 yStart _) aligned
    (copy_pieces_consecutive machine apart)
    (fun site first last => walkable_unit 1 _ (copy_pieces_step machine site first last))
    (fun site first last => walkable_unit 1 _ (copy_pieces_step machine site first last))
    (copy_pieces_step machine)

theorem copy_task_splits (blockReals reals count : Nat) (some : 0 < count) :
    Splits count (copyTaskBound blockReals reals count) 0 reals := by
  refine ⟨?_, ?_, ?_⟩
  · rw [copyTaskBound, if_neg (Nat.ne_of_lt some), Nat.zero_mul, Nat.zero_div, Nat.zero_mul]
  · rw [copyTaskBound, if_pos rfl]
  · intro task small
    rw [copyTaskBound, copyTaskBound, if_neg (Nat.ne_of_lt small)]
    split
    · have whole : task * (reals / blockReals) / count ≤ reals / blockReals := by
        refine Nat.div_le_of_le_mul ?_
        exact Nat.mul_le_mul_right _ (Nat.le_of_lt small)
      exact (Nat.mul_le_mul_right blockReals whole).trans (Nat.div_mul_le_self reals blockReals)
    · exact Nat.mul_le_mul_right _ (Nat.div_le_div_right (Nat.mul_le_mul_right _ (Nat.le_succ task)))

theorem chunk_splits {chunk reals : Nat} (whole : reals = 4 * chunk) : Splits 4 (· * chunk) 0 reals :=
  ⟨Nat.zero_mul chunk, whole.symm, fun task _ => Nat.mul_le_mul_right chunk (Nat.le_succ task)⟩

theorem chunk_order_once : ∀ s, s < 4 → ∀ t, t < 4 → chunkOrder s = chunkOrder t → s = t := by decide

theorem parallel_copy_bytes {machine : VectorMachine} {site : Site} {precision : Precision} {reals : Nat}
    {execution : Execution Nat R Unit Unit} (apart : xStart ≠ yStart)
    (aligned : Aligned (Operand.unit 1 (cellsFrom xStart)) (Operand.unit 1 (cellsFrom yStart)) (Set.Iio reals))
    (accepted : parallelCopyBytes machine site precision reals xStart yStart (cellsFrom xStart) (cellsFrom yStart) =
      some execution) :
    Rewrites execution (slots 1 (Set.Iio reals)) (slotAddress (Operand.unit 1 (cellsFrom yStart)))
      (pairValue (fun x _ => x) (Operand.unit 1 (cellsFrom xStart)) (Operand.unit 1 (cellsFrom yStart))) := by
  have task := copy_bytes_task (R := R) machine apart aligned
  simp only [parallelCopyBytes] at accepted
  obtain ⟨_, accepted⟩ := Option.ite_none_left_eq_some.mp accepted
  obtain ⟨_, accepted⟩ := Option.ite_none_left_eq_some.mp accepted
  split at accepted
  · rename_i quarters
    obtain ⟨_, bytes, four⟩ := quarters
    rw [four] at accepted
    have whole : reals = 4 * (64 * 1024 / realBytes precision) := by
      cases precision with
      | single =>
        change reals * 4 = 256 * 1024 at bytes
        change reals = 4 * (64 * 1024 / 4)
        omega
      | double =>
        change reals * 8 = 256 * 1024 at bytes
        change reals = 4 * (64 * 1024 / 8)
        omega
    have forked := task.forked (A := Unit) site 4 (· * (64 * 1024 / realBytes precision)) chunkOrder (chunk_splits whole)
      (by decide) (by decide) (fun s t inS inT => chunk_order_once s inS t inT) (fun _ => ())
    exact fork_tasks_rewrites forked accepted
  · exact task.dispatched (fun some => copy_task_splits _ _ _ some) accepted

theorem copy_bytes_onto_itself {width n : Nat} (machine : VectorMachine) (site : Site) {precision : Precision}
    (several : 0 < width * n) :
    Rewrites ((parallelCopyBytes machine site precision (width * n) xStart xStart (cellsFrom xStart) (cellsFrom xStart)).getD
        (.single (copyBytes machine xStart xStart (cellsFrom xStart) (cellsFrom xStart) site 0 (width * n))) :
          Execution Nat R Unit Unit) (slots width (Set.Iio n)) (slotAddress (Operand.unit width (cellsFrom xStart)))
      (pairValue (fun x _ => x) (Operand.unit width (cellsFrom xStart)) (Operand.unit width (cellsFrom xStart))) := by
  have overlap : rangesOverlap xStart xStart (width * n) = true := by
    rw [rangesOverlap, if_neg (Nat.ne_of_gt several), if_pos rfl]
  have serial : parallelCopyBytes machine site precision (width * n) xStart xStart (cellsFrom xStart) (cellsFrom xStart) =
      (none : Option (Execution Nat R Unit Unit)) := by
    simp only [parallelCopyBytes, overlap, if_true, ite_self]
  rw [serial, Option.getD_none, copyBytes, if_pos (.inr rfl)]
  exact rewrites_finished (fun _ _ _ => rfl)

end Copying

section Routines

variable {R T : Type} [CommRing R] [LinearOrder R] [CommRing T] [Element R T] [LawfulElement R T] {xStart yStart : Nat}
  {n incx incy : Int}

omit [LinearOrder R] in
theorem copy_rewrites (machine : VectorMachine) (site : Site) (nonzeroX : incx ≠ 0) (nonzeroY : incy ≠ 0)
    (aligned : Aligned (Operand.strided (width T) n incx (cellsFrom xStart))
      (Operand.strided (width T) n incy (cellsFrom yStart)) (Set.Iio (toUsize n))) :
    Rewrites (copy T machine site n xStart yStart (cellsFrom xStart) incx (cellsFrom yStart) incy)
      (slots (width T) (Set.Iio (toUsize n))) (slotAddress (Operand.strided (width T) n incy (cellsFrom yStart)))
      (pairValue (R := R) (fun x _ => x) (Operand.strided (width T) n incx (cellsFrom xStart))
        (Operand.strided (width T) n incy (cellsFrom yStart))) := by
  have some : 0 < width T := LawfulElement.width_pos
  rw [copy]
  split
  · refine rewrites_finished (fun memory slot member => ?_)
    exact absurd member.2 (no_indices (by omega) slot.1)
  rename_i known
  split
  · rename_i unit
    rw [unit.1, unit.2, unit_strided, unit_strided] at aligned ⊢
    have several : 0 < width T * toUsize n := Nat.mul_pos some (by simp only [toUsize]; omega)
    by_cases together : xStart = yStart
    · subst together
      exact copy_bytes_onto_itself machine site several
    have row := row_aligned aligned
    exact Rewrites.second_row
      (rewrites_get_d (fun execution accepted => parallel_copy_bytes together row accepted)
        ((copy_bytes_task machine together row).serial site))
      (fun x y x' y' part _ same _ => same.symm)
  · exact copy_strided some nonzeroY aligned

omit [LinearOrder R] [LawfulElement R T] in
theorem axpy_rule_map (alpha : T) [LawfulElement R T] : PairMap (width T) (axpyRule (R := R) alpha) := by
  intro left left' right right' sameLeft sameRight part _
  rw [axpyRule, axpyRule, LawfulElement.whole_congr (T := T) left left' sameLeft,
    LawfulElement.whole_congr (T := T) right right' sameRight]

omit [LinearOrder R] in
theorem real_axpy_rule_map (alpha : R) (width : Nat) : PairMap width (realAxpyRule alpha) := by
  intro left left' right right' sameLeft sameRight part small
  rw [realAxpyRule, realAxpyRule, sameLeft part small, sameRight part small]

omit [LinearOrder R] in
theorem axpy_rewrites (machine : VectorMachine) (site : Site) (alpha : T) (nonzeroX : incx ≠ 0) (nonzeroY : incy ≠ 0)
    (aligned : Aligned (Operand.strided (width T) n incx (cellsFrom xStart))
      (Operand.strided (width T) n incy (cellsFrom yStart)) (Set.Iio (toUsize n))) :
    Rewrites (axpy machine site n alpha xStart yStart (cellsFrom xStart) incx (cellsFrom yStart) incy)
      (slots (width T) (Set.Iio (toUsize n))) (slotAddress (Operand.strided (width T) n incy (cellsFrom yStart)))
      (pairValue (axpyRule alpha) (Operand.strided (width T) n incx (cellsFrom xStart))
        (Operand.strided (width T) n incy (cellsFrom yStart))) := by
  have some : 0 < width T := LawfulElement.width_pos
  rw [axpy]
  split
  · rename_i nothing
    refine rewrites_finished (fun memory slot member => ?_)
    rcases nothing with empty | noX | noY | noAlpha
    · exact absurd member.2 (no_indices empty slot.1)
    · exact absurd noX nonzeroX
    · exact absurd noY nonzeroY
    · rw [pairValue, axpyRule, (LawfulScalar.isZero_iff alpha).mp noAlpha, zero_mul, add_zero,
        LawfulElement.parts_whole _ _ member.1]
      rfl
  split
  · rename_i unit
    rw [unit.1, unit.2, unit_strided, unit_strided] at aligned ⊢
    split
    · rename_i flat
      have rows := second_unit_route machine site (realLaneCounts machine (Scalar.precision T)) Nat.one_pos
        (real_axpy_rule_map (parts alpha 0) 1) (row_aligned aligned)
      refine rows.second_row (fun x y x' y' part small sameX sameY => ?_)
      rw [axpyRule, LawfulElement.parts_add, LawfulElement.parts_real_mul _ _ _ small flat,
        LawfulElement.parts_whole _ _ small, LawfulElement.parts_whole _ _ small, realAxpyRule, sameX, sameY, add_comm]
    · exact second_unit_route machine site _ some (axpy_rule_map alpha) aligned
  split
  · rename_i blocks
    rw [blocks.1, blocks.2.1, stride2_strided, stride2_strided] at aligned ⊢
    have task := second_stride2_task false (stride2Lanes machine T) some (axpy_rule_map (R := R) alpha) aligned
    refine rewrites_get_d (fun execution accepted => ?_) (task.serial site)
    split at accepted
    · exact task.even accepted
    · cases accepted
  · exact second_strided some (axpy_rule_map alpha) nonzeroY aligned

omit [LinearOrder R] [CommRing R] [CommRing T] [LawfulElement R T] in
theorem target_binary_two {machine : VectorMachine}
    (target : targetNonOverlappingBinary machine T n xStart incx yStart incy = true) : incx = 2 ∧ incy = 2 := by
  simp only [targetNonOverlappingBinary, Bool.and_eq_true] at target
  exact ⟨target_unary_two target.1.2, of_decide_eq_true target.1.1⟩

omit [LinearOrder R] in
theorem stride2_second_rewrites {machine : VectorMachine} {site : Site} {apply : (Nat → R) → (Nat → R) → Nat → R}
    {execution : Execution Nat R Unit Unit} (elementwise : PairMap (width T) apply)
    (aligned : Aligned (Operand.strided (width T) n incx (cellsFrom xStart))
      (Operand.strided (width T) n incy (cellsFrom yStart)) (Set.Iio (toUsize n)))
    (accepted : stride2Second T machine site n apply xStart yStart (cellsFrom xStart) incx (cellsFrom yStart) incy =
      some execution) :
    Rewrites execution (slots (width T) (Set.Iio (toUsize n)))
      (slotAddress (Operand.strided (width T) n incy (cellsFrom yStart)))
      (pairValue apply (Operand.strided (width T) n incx (cellsFrom xStart))
        (Operand.strided (width T) n incy (cellsFrom yStart))) := by
  rw [stride2Second] at accepted
  split at accepted
  · rename_i target
    obtain ⟨twoX, twoY⟩ := target_binary_two target
    rw [twoX, twoY, stride2_strided, stride2_strided] at aligned ⊢
    exact (second_stride2_task true _ LawfulElement.width_pos elementwise aligned).even accepted
  · exact nomatch accepted

omit [LinearOrder R] in
theorem entry_axpy_rewrites (machine : VectorMachine) (site : Site) (alpha : T) (nonzeroX : incx ≠ 0)
    (nonzeroY : incy ≠ 0)
    (aligned : Aligned (Operand.strided (width T) n incx (cellsFrom xStart))
      (Operand.strided (width T) n incy (cellsFrom yStart)) (Set.Iio (toUsize n))) :
    Rewrites (entryAxpy machine site n alpha xStart yStart (cellsFrom xStart) incx (cellsFrom yStart) incy)
      (slots (width T) (Set.Iio (toUsize n))) (slotAddress (Operand.strided (width T) n incy (cellsFrom yStart)))
      (pairValue (axpyRule alpha) (Operand.strided (width T) n incx (cellsFrom xStart))
        (Operand.strided (width T) n incy (cellsFrom yStart))) := by
  refine rewrites_get_d (fun execution accepted => ?_) (axpy_rewrites machine _ alpha nonzeroX nonzeroY aligned)
  rw [stride2Axpy] at accepted
  obtain ⟨_, accepted⟩ := Option.ite_none_left_eq_some.mp accepted
  exact stride2_second_rewrites (axpy_rule_map alpha) aligned accepted

omit [LinearOrder R] in
theorem axpby_rule_map (alpha beta : T) : PairMap (width T) (axpbyRule (R := R) alpha beta) := by
  intro left left' right right' sameLeft sameRight part _
  rw [axpbyRule, axpbyRule, LawfulElement.whole_congr (T := T) left left' sameLeft,
    LawfulElement.whole_congr (T := T) right right' sameRight]

omit [LinearOrder R] in
theorem real_axpby_rule_map (alpha beta : R) (width : Nat) : PairMap width (realAxpbyRule alpha beta) := by
  intro left left' right right' sameLeft sameRight part small
  rw [realAxpbyRule, realAxpbyRule, sameLeft part small, sameRight part small]

omit [LinearOrder R] in
theorem axpby_unit (machine : VectorMachine) (site : Site) (alpha beta : T) {n : Nat}
    (aligned : Aligned (Operand.unit (width T) (cellsFrom xStart)) (Operand.unit (width T) (cellsFrom yStart))
      (Set.Iio n)) :
    Rewrites (axpbyUnit machine site n alpha beta xStart yStart (cellsFrom xStart) (cellsFrom yStart))
      (slots (width T) (Set.Iio n)) (slotAddress (Operand.unit (width T) (cellsFrom yStart)))
      (pairValue (axpbyRule alpha beta) (Operand.unit (width T) (cellsFrom xStart))
        (Operand.unit (width T) (cellsFrom yStart))) := by
  have some : 0 < width T := LawfulElement.width_pos
  simp only [axpbyUnit]
  split
  · rename_i flat
    have flatX : (isReal T || Scalar.imagIsZero alpha) = true := by
      cases real : isReal T with
      | true => rfl
      | false =>
        rw [real, Bool.false_or, Bool.and_eq_true] at flat
        exact flat.1
    have flatY : (isReal T || Scalar.imagIsZero beta) = true := by
      cases real : isReal T with
      | true => rfl
      | false =>
        rw [real, Bool.false_or, Bool.and_eq_true] at flat
        exact flat.2
    have values : ∀ (x y x' y' : Nat → R) (part : Nat), part < width T → x' 0 = x part → y' 0 = y part →
        axpbyRule alpha beta x y part = realAxpbyRule (parts alpha 0) (parts beta 0) x' y' 0 := by
      intro x y x' y' part small sameX sameY
      rw [axpbyRule, LawfulElement.parts_add, LawfulElement.parts_real_mul _ _ _ small flatX,
        LawfulElement.parts_real_mul _ _ _ small flatY, LawfulElement.parts_whole _ _ small,
        LawfulElement.parts_whole _ _ small, realAxpbyRule, sameX, sameY]
    have row := row_aligned aligned
    have realMap := real_axpby_rule_map (parts alpha 0 : R) (parts beta 0) 1
    split
    · exact Rewrites.second_row ((second_unit_task machine _ Nat.one_pos realMap row).serial site) values
    · exact Rewrites.second_row (second_unit_route machine site _ Nat.one_pos realMap row) values
  split
  · exact second_unit_route machine site _ some (axpby_rule_map alpha beta) aligned
  · exact (second_unit_task machine _ some (axpby_rule_map alpha beta) aligned).serial site

omit [LinearOrder R] in
theorem axpby_rewrites (machine : VectorMachine) (site : Site) (alpha beta : T) (nonzeroX : incx ≠ 0)
    (nonzeroY : incy ≠ 0)
    (aligned : Aligned (Operand.strided (width T) n incx (cellsFrom xStart))
      (Operand.strided (width T) n incy (cellsFrom yStart)) (Set.Iio (toUsize n))) :
    Rewrites (axpby machine site n alpha beta xStart yStart (cellsFrom xStart) incx (cellsFrom yStart) incy)
      (slots (width T) (Set.Iio (toUsize n))) (slotAddress (Operand.strided (width T) n incy (cellsFrom yStart)))
      (pairValue (axpbyRule alpha beta) (Operand.strided (width T) n incx (cellsFrom xStart))
        (Operand.strided (width T) n incy (cellsFrom yStart))) := by
  have some : 0 < width T := LawfulElement.width_pos
  rw [axpby]
  split
  · refine rewrites_finished (fun memory slot member => ?_)
    exact absurd member.2 (no_indices (by omega) slot.1)
  split
  · rename_i noAlpha
    refine (scal_rewrites machine _ n beta yStart incy nonzeroY).congr rfl (fun memory slot _ => ?_)
    rw [slotValue, scalRule, pairValue, axpbyRule, (LawfulScalar.isZero_iff alpha).mp noAlpha, zero_mul, zero_add]
  split
  · rename_i oneBeta
    refine (axpy_rewrites machine _ alpha nonzeroX nonzeroY aligned).congr rfl (fun memory slot _ => ?_)
    rw [pairValue, axpyRule, pairValue, axpbyRule, (LawfulScalar.isOne_iff beta).mp oneBeta, one_mul, add_comm]
  split
  · rename_i plain
    obtain ⟨oneAlpha, noBeta⟩ := Bool.and_eq_true_iff.mp plain
    refine (copy_rewrites machine _ nonzeroX nonzeroY aligned).congr rfl (fun memory slot member => ?_)
    rw [pairValue, pairValue, axpbyRule, (LawfulScalar.isOne_iff alpha).mp oneAlpha,
      (LawfulScalar.isZero_iff beta).mp noBeta, zero_mul, add_zero, one_mul, LawfulElement.parts_whole _ _ member.1]
  split
  · rename_i unit
    rw [unit.1, unit.2, unit_strided, unit_strided] at aligned ⊢
    exact axpby_unit machine _ alpha beta aligned
  split
  · rename_i blocks
    rw [blocks.1, blocks.2.1, stride2_strided, stride2_strided] at aligned ⊢
    exact (second_stride2_task false _ some (axpby_rule_map alpha beta) aligned).serial site
  · exact second_strided some (axpby_rule_map alpha beta) nonzeroY aligned

omit [LinearOrder R] in
theorem entry_axpby_rewrites (machine : VectorMachine) (site : Site) (alpha beta : T) (nonzeroX : incx ≠ 0)
    (nonzeroY : incy ≠ 0)
    (aligned : Aligned (Operand.strided (width T) n incx (cellsFrom xStart))
      (Operand.strided (width T) n incy (cellsFrom yStart)) (Set.Iio (toUsize n))) :
    Rewrites (entryAxpby machine site n alpha beta xStart yStart (cellsFrom xStart) incx (cellsFrom yStart) incy)
      (slots (width T) (Set.Iio (toUsize n))) (slotAddress (Operand.strided (width T) n incy (cellsFrom yStart)))
      (pairValue (axpbyRule alpha beta) (Operand.strided (width T) n incx (cellsFrom xStart))
        (Operand.strided (width T) n incy (cellsFrom yStart))) := by
  refine rewrites_get_d (fun execution accepted => ?_) (axpby_rewrites machine _ alpha beta nonzeroX nonzeroY aligned)
  rw [stride2Axpby] at accepted
  obtain ⟨_, accepted⟩ := Option.ite_none_left_eq_some.mp accepted
  exact stride2_second_rewrites (axpby_rule_map alpha beta) aligned accepted

end Routines

end Zynum.LevelOne
