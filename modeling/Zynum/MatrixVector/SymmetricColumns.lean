import Zynum.MatrixVector.Symmetric
import Zynum.MatrixVector.SymmetricBandExact

set_option autoImplicit false

/- The columns of a symmetric product. A column adds each of its elements to the
   row of the element and, mirrored, to its own. -/
namespace Zynum

open ArrayProgram

variable {T : Type} [CommRing T]

section Shares

def ownsEntry (uplo : Triangle) (i j : Nat) : Prop := i ≠ j ∧ stored uplo i j = true

instance (uplo : Triangle) (i j : Nat) : Decidable (ownsEntry uplo i j) := inferInstanceAs (Decidable (_ ∧ _))

-- What column j adds to row i.
def symmetricShare (uplo : Triangle) (n : Nat) (alpha : T) (S : Nat → Nat → T) (x : Nat → T) (j i : Nat) : T :=
  if i = j then alpha * (∑ r ∈ Finset.range n, if ownsEntry uplo r j then S j r * x r else 0) + alpha * x j * S j j
  else if ownsEntry uplo i j then alpha * x j * S i j else 0

variable (uplo : Triangle) (n : Nat) (alpha : T) (S : Nat → Nat → T) (x : Nat → T)

theorem symmetric_shares_total (i : Nat) (small : i < n) :
    ∑ j ∈ Finset.range n, symmetricShare uplo n alpha S x j i = alpha * ∑ j ∈ Finset.range n, S i j * x j := by
  refine owned_columns_sum n S x alpha (ownsEntry uplo) i small (fun j _ both => ?_) (fun self => self.1 rfl)
    (fun j _ different forward backward => ?_)
  · exact both.1.1 (stored_both uplo i j both.1.2 both.2.2)
  · cases kept : stored uplo i j with
    | true => exact absurd ⟨different, kept⟩ forward
    | false => exact absurd ⟨Ne.symm different, stored_flip uplo i j kept⟩ backward

-- A routine that adds a range of columns to y.
def AddsColumns (j0 j1 : Nat) (run : Mem T → Mem T) : Prop :=
  Updates (Set.Iio n) (fun i => i) (fun i old => old + ∑ j ∈ Finset.Ico j0 j1, symmetricShare uplo n alpha S x j i) run

variable {uplo n alpha S x}

theorem AddsColumns.nothing (j0 : Nat) : AddsColumns uplo n alpha S x j0 j0 (fun y => y) :=
  (updates_same _ _).congr rfl (fun i old _ => by rw [Finset.Ico_self, Finset.sum_empty, add_zero])

theorem AddsColumns.append {j0 j1 j2 : Nat} {run next : Mem T → Mem T} (left : AddsColumns uplo n alpha S x j0 j1 run)
    (right : AddsColumns uplo n alpha S x j1 j2 next) (before : j0 ≤ j1) (after : j1 ≤ j2) :
    AddsColumns uplo n alpha S x j0 j2 (fun y => next (run y)) :=
  (left.then_same right).congr rfl (fun i old _ => by rw [add_assoc, Finset.sum_Ico_consecutive _ before after])

theorem AddsColumns.blocks {run : Nat → Mem T → Mem T} (first width count : Nat)
    (each : ∀ step, step < count →
      AddsColumns uplo n alpha S x (first + step * width) (first + step * width + width) (run step)) :
    AddsColumns uplo n alpha S x first (first + count * width) (loop count run) := by
  induction count with
  | zero =>
    rw [Nat.zero_mul, Nat.add_zero]
    exact AddsColumns.nothing first
  | succ count ih =>
    have before := ih (fun step small => each step (Nat.lt_succ_of_lt small))
    have last := each count (Nat.lt_succ_self count)
    rw [Nat.succ_mul, ← Nat.add_assoc]
    exact before.append last (Nat.le_add_right _ _) (Nat.le_add_right _ _)

theorem AddsColumns.fit {run : Nat → Mem T → Mem T} (j0 j1 width : Nat)
    (each : ∀ j, j0 ≤ j → j + width ≤ j1 → AddsColumns uplo n alpha S x j (j + width) (run j)) :
    AddsColumns uplo n alpha S x j0 (fitEnd j0 j1 width) (fitLoop j0 j1 width run) :=
  AddsColumns.blocks j0 width ((j1 - j0) / width)
    (fun turn small => each (j0 + turn * width) (Nat.le_add_right j0 _) (fit_turn_inside j0 j1 width turn small))

theorem AddsColumns.range {run : Nat → Mem T → Mem T} (j0 j1 : Nat) (ordered : j0 ≤ j1)
    (each : ∀ j, j0 ≤ j → j < j1 → AddsColumns uplo n alpha S x j (j + 1) (run j)) :
    AddsColumns uplo n alpha S x j0 j1 (loopRange j0 j1 run) := by
  have turns : ∀ step, step < j1 - j0 →
      AddsColumns uplo n alpha S x (j0 + step * 1) (j0 + step * 1 + 1) (run (j0 + step)) := by
    intro step small
    rw [Nat.mul_one]
    exact each (j0 + step) (Nat.le_add_right j0 step) (by omega)
  have whole := AddsColumns.blocks j0 1 (j1 - j0) turns
  rw [Nat.mul_one, Nat.add_sub_cancel' ordered] at whole
  exact whole

end Shares

section Entries

variable [Scalar T] (herm : Bool) (uplo : Triangle) (entry : Nat → Nat → T)

omit [CommRing T] in
theorem completion_owned (i j : Nat) (owned : ownsEntry uplo i j) :
    completion herm uplo entry i j = entry i j ∧ completion herm uplo entry j i = conjugateIf (entry i j) herm := by
  have outside : ¬ stored uplo j i = true := fun back => owned.1 (stored_both uplo i j owned.2 back)
  rw [completion, if_neg owned.1, if_pos owned.2, completion, if_neg (Ne.symm owned.1), if_neg outside]
  exact ⟨rfl, rfl⟩

theorem completion_diagonal [LawfulScalar T] (j : Nat) : completion herm uplo entry j j = diagonalValue herm (entry j j) := by
  rw [completion, if_pos rfl, diagonalValue]
  cases herm with
  | false => rfl
  | true =>
    cases kind : Scalar.isComplex T with
    | true => rfl
    | false => exact LawfulScalar.realOnly_real kind _

theorem owned_rows (n i j : Nat) (inside : j < n) :
    ownsEntry uplo i j ∧ i < n ↔ (if uplo = .upper then 0 else j + 1) ≤ i ∧ i < (if uplo = .upper then j else n) := by
  cases uplo with
  | upper =>
    simp only [ownsEntry, stored, decide_eq_true_eq, if_true]
    omega
  | lower =>
    simp only [ownsEntry, stored, decide_eq_true_eq, reduceCtorEq, if_false]
    omega

theorem owned_sum (n j : Nat) (inside : j < n) (x : Nat → T) :
    ∑ r ∈ Finset.range n, (if ownsEntry uplo r j then completion herm uplo entry j r * x r else 0) =
      ∑ r ∈ Finset.Ico (if uplo = .upper then 0 else j + 1) (if uplo = .upper then j else n),
        conjugateIf (entry r j) herm * x r := by
  have window : {r ∈ Finset.range n | ownsEntry uplo r j} =
      Finset.Ico (if uplo = .upper then 0 else j + 1) (if uplo = .upper then j else n) := by
    ext r
    rw [Finset.mem_filter, Finset.mem_range, Finset.mem_Ico, and_comm]
    exact owned_rows uplo n r j inside
  rw [← Finset.sum_filter, window]
  refine Finset.sum_congr rfl (fun r member => ?_)
  have owned := ((owned_rows uplo n r j inside).mpr (Finset.mem_Ico.mp member)).1
  rw [(completion_owned herm uplo entry r j owned).2]

end Entries

section Pass

variable [Scalar T]

-- What the rows from first to done have got, and what they have added to the sums of the columns.
structure Passed (columns : Nat) (herm : Bool) (col : Nat → Mem T) (temp1 : Nat → T) (x : Mem T) (first done : Nat) (y rows : Mem T)
    (sums : Nat → T) : Prop where
  rows : ∀ i, rows i = if first ≤ i ∧ i < done then y i + ∑ k ∈ Finset.range columns, col k i * temp1 k else y i
  sums : ∀ k, sums k = ∑ i ∈ Finset.Ico first done, conjugateIf (col k i) herm * x i

section Rows

variable {laneCount columns first done : Nat} {herm : Bool} {col : Nat → Mem T} {temp1 : Nat → T} {x y rows : Mem T} {sums : Nat → T}

theorem Passed.nothing (first : Nat) (y : Mem T) : Passed columns herm col temp1 x first first y y (fun _ => 0) :=
  ⟨fun i => by rw [if_neg (by omega)], fun k => by rw [Finset.Ico_self, Finset.sum_empty]⟩

theorem Passed.congr_sums (passed : Passed columns herm col temp1 x first done y rows sums) {sums' : Nat → T}
    (same : ∀ k, sums' k = sums k) : Passed columns herm col temp1 x first done y rows sums' :=
  ⟨passed.rows, fun k => (same k).trans (passed.sums k)⟩

theorem Passed.row (passed : Passed columns herm col temp1 x first done y rows sums) (started : first ≤ done) :
    Passed columns herm col temp1 x first (done + 1) y (columnRow columns herm col temp1 x done rows).1
      (fun k => sums k + (columnRow columns herm col temp1 x done rows).2 k) := by
  constructor
  · intro i
    simp only [columnRow]
    by_cases here : i = done
    · subst here
      rw [Function.update_self, loop_accumulate, passed.rows, if_neg (by omega), if_pos (by omega)]
    · rw [Function.update_of_ne here, passed.rows i]
      exact if_congr (by omega) rfl rfl
  · intro k
    simp only [columnRow]
    rw [Finset.sum_Ico_succ_top started, ← passed.sums k]

omit [Scalar T] in
theorem accumulator_sum (places place : Nat) (inside : place < places) (sums : Nat → T) (added : T) :
    ∑ p ∈ Finset.range places, Function.update sums place (sums place + added) p = ∑ p ∈ Finset.range places, sums p + added := by
  rw [Finset.sum_update_of_mem (Finset.mem_range.mpr inside), ← Finset.sum_sdiff (Finset.singleton_subset_iff.mpr
    (Finset.mem_range.mpr inside)), Finset.sum_singleton]
  ring

variable {places slot : Nat} {state : Mem T × (Nat → Nat → T)}

theorem Passed.vector (passed : Passed columns herm col temp1 x first done y state.1
      (fun k => ∑ place ∈ Finset.range places, state.2 k place)) (started : first ≤ done)
    (inside : slot * laneCount + laneCount ≤ places) :
    Passed columns herm col temp1 x first (done + laneCount) y (columnVector laneCount columns herm col temp1 x slot done state).1
      (fun k => ∑ place ∈ Finset.range places, (columnVector laneCount columns herm col temp1 x slot done state).2 k place) := by
  refine loop_invariant laneCount _ state (fun lanes state => Passed columns herm col temp1 x first (done + lanes) y state.1
    (fun k => ∑ place ∈ Finset.range places, state.2 k place)) passed (fun lane state small before => ?_)
  refine (before.row (Nat.le_add_right_of_le started)).congr_sums (fun k => ?_)
  exact accumulator_sum places (slot * laneCount + lane) (by omega) (state.2 k) _

theorem Passed.fit {run : Nat → Mem T × (Nat → Nat → T) → Mem T × (Nat → Nat → T)} (next last step : Nat) (started : first ≤ next)
    (passed : Passed columns herm col temp1 x first next y state.1 (fun k => ∑ place ∈ Finset.range places, state.2 k place))
    (each : ∀ done current, first ≤ done →
      Passed columns herm col temp1 x first done y current.1 (fun k => ∑ place ∈ Finset.range places, current.2 k place) →
      Passed columns herm col temp1 x first (done + step) y (run done current).1
        (fun k => ∑ place ∈ Finset.range places, (run done current).2 k place)) :
    Passed columns herm col temp1 x first (fitEnd next last step) y (fitLoop next last step run state).1
      (fun k => ∑ place ∈ Finset.range places, (fitLoop next last step run state).2 k place) := by
  refine loop_invariant ((last - next) / step) _ state (fun turns current => Passed columns herm col temp1 x first
    (next + turns * step) y current.1 (fun k => ∑ place ∈ Finset.range places, current.2 k place)) ?_
    (fun turn current _ before => ?_)
  · rw [Nat.zero_mul, Nat.add_zero]
    exact passed
  · rw [Nat.succ_mul, ← Nat.add_assoc]
    exact each _ current (Nat.le_add_right_of_le started) before

end Rows

-- One pass leaves the rows with their parts of the columns, and the sums of the columns.
theorem column_pass (laneCount unroll columns : Nat) (herm : Bool) (col : Nat → Mem T) (temp1 : Nat → T) (x : Mem T)
    (first last : Nat) (ordered : first ≤ last) (y : Mem T) (several : 0 < unroll) :
    Passed columns herm col temp1 x first last y (columnPass laneCount unroll columns herm col temp1 x first last y).1
      (columnPass laneCount unroll columns herm col temp1 x first last y).2 := by
  let wide := unroll * laneCount
  let vectors := fun i => loop unroll (fun k =>
    columnVector laneCount columns herm col temp1 x (if columns = 1 then k else 0) (i + k * laneCount))
  let unrolled := fitLoop first last wide vectors (y, fun _ _ => 0)
  have turns : Passed columns herm col temp1 x first (fitEnd first last wide) y unrolled.1
      (fun k => ∑ place ∈ Finset.range wide, unrolled.2 k place) := by
    refine Passed.fit first last wide le_rfl ((Passed.nothing first y).congr_sums (fun k => Finset.sum_const_zero))
      (fun done current started before => ?_)
    refine loop_invariant unroll _ current (fun turns current => Passed columns herm col temp1 x first (done + turns * laneCount) y
      current.1 (fun k => ∑ place ∈ Finset.range wide, current.2 k place)) ?_ (fun turn current small before => ?_)
    · rw [Nat.zero_mul, Nat.add_zero]
      exact before
    · rw [Nat.succ_mul, ← Nat.add_assoc]
      refine before.vector (Nat.le_add_right_of_le started) ?_
      rw [← Nat.succ_mul]
      refine Nat.mul_le_mul_right laneCount ?_
      split
      · exact small
      · exact several
  have next := fit_end_inside first last wide ordered
  let temp2_v := fun k lane => loop unroll (fun slot sum => sum + unrolled.2 k (slot * laneCount + lane)) 0
  have folded : ∀ k, ∑ lane ∈ Finset.range laneCount, temp2_v k lane = ∑ place ∈ Finset.range wide, unrolled.2 k place := fun k => by
    simp only [temp2_v, loop_accumulate, zero_add]
    exact lane_blocks_sum unroll laneCount (unrolled.2 k)
  let singles := fitLoop (fitEnd first last wide) last laneCount (columnVector laneCount columns herm col temp1 x 0)
    (unrolled.1, temp2_v)
  have rest : Passed columns herm col temp1 x first (fitEnd (fitEnd first last wide) last laneCount) y singles.1
      (fun k => ∑ place ∈ Finset.range laneCount, singles.2 k place) :=
    Passed.fit (fitEnd first last wide) last laneCount next.1 (turns.congr_sums folded)
      (fun done current started before => before.vector started (by rw [Nat.zero_mul, Nat.zero_add]))
  have end_ := fit_end_inside (fitEnd first last wide) last laneCount next.2
  have walked := loop_invariant (last - fitEnd (fitEnd first last wide) last laneCount) (fun step (state : Mem T × (Nat → T)) =>
      let row := columnRow columns herm col temp1 x (fitEnd (fitEnd first last wide) last laneCount + step) state.1
      (row.1, fun k => state.2 k + row.2 k))
    (singles.1, fun k => loop laneCount (fun lane sum => sum + singles.2 k lane) 0)
    (fun step state => Passed columns herm col temp1 x first (fitEnd (fitEnd first last wide) last laneCount + step) y
      state.1 state.2)
    (rest.congr_sums (fun k => (loop_accumulate laneCount _ 0).trans (zero_add _)))
    (fun step state small before => before.row (Nat.le_add_right_of_le (next.1.trans end_.1)))
  rw [Nat.add_sub_cancel' end_.2] at walked
  exact walked

-- A row of the triangle at the edge takes its parts of the columns behind its own, which sum it.
theorem edge_row (columns : Nat) (herm : Bool) (col : Nat → Mem T) (temp1 : Nat → T) (x : Mem T) (j r : Nat) (inside : r < columns)
    (y : Mem T) (temp2 : Nat → T) :
    let after := loopRange (r + 1) columns (fun s (state : Mem T × (Nat → T)) =>
      let ars := col s (j + r)
      (Function.update state.1 (j + r) (state.1 (j + r) + ars * temp1 s),
        Function.update state.2 s (state.2 s + conjugateIf ars herm * x (j + r)))) (y, temp2)
    (∀ p, after.1 p = if p = j + r then y p + ∑ s ∈ Finset.Ico (r + 1) columns, col s (j + r) * temp1 s else y p) ∧
      ∀ s, after.2 s = if r < s ∧ s < columns then temp2 s + conjugateIf (col s (j + r)) herm * x (j + r) else temp2 s := by
  have walked := loop_invariant (columns - (r + 1)) (fun step (state : Mem T × (Nat → T)) =>
      let ars := col (r + 1 + step) (j + r)
      (Function.update state.1 (j + r) (state.1 (j + r) + ars * temp1 (r + 1 + step)),
        Function.update state.2 (r + 1 + step) (state.2 (r + 1 + step) + conjugateIf ars herm * x (j + r)))) (y, temp2)
    (fun done state =>
      (∀ p, state.1 p =
        if p = j + r then y p + ∑ s ∈ Finset.Ico (r + 1) (r + 1 + done), col s (j + r) * temp1 s else y p) ∧
      ∀ s, state.2 s =
        if r < s ∧ s < r + 1 + done then temp2 s + conjugateIf (col s (j + r)) herm * x (j + r) else temp2 s)
    ⟨fun p => by rw [Nat.add_zero, Finset.Ico_self, Finset.sum_empty, add_zero, ite_self], fun s => by rw [if_neg (by omega)]⟩
    (fun done state small before => ?_)
  · rw [Nat.add_sub_cancel' inside] at walked
    exact walked
  · constructor
    · intro p
      dsimp only
      by_cases here : p = j + r
      · subst here
        rw [Function.update_self, before.1, if_pos rfl, if_pos rfl, ← Nat.add_assoc,
          Finset.sum_Ico_succ_top (Nat.le_add_right _ done), add_assoc]
      · rw [Function.update_of_ne here, before.1 p, if_neg here, if_neg here]
    · intro s
      dsimp only
      by_cases here : s = r + 1 + done
      · subst here
        rw [Function.update_self, before.2, if_neg (by omega), if_pos (by omega)]
      · rw [Function.update_of_ne here, before.2 s]
        exact if_congr (by omega) rfl rfl

-- What row q of the edge gets, when its column has been summed as far as temp2.
def edgeShare (columns : Nat) (herm : Bool) (alpha : T) (col : Nat → Mem T) (temp1 : Nat → T) (x : Mem T) (j : Nat)
    (temp2 : Nat → T) (q : Nat) : T :=
  alpha * (temp2 q + ∑ i ∈ Finset.Ico j (j + q), conjugateIf (col q i) herm * x i) + temp1 q * diagonalValue herm (col q (j + q)) +
    ∑ s ∈ Finset.Ico (q + 1) columns, col s (j + q) * temp1 s

theorem column_edges (columns : Nat) (herm : Bool) (alpha : T) (col : Nat → Mem T) (temp1 : Nat → T) (x : Mem T) (j : Nat)
    (y : Mem T) (temp2 : Nat → T) (p : Nat) :
    (columnEdges columns herm alpha col temp1 x j (y, temp2)).1 p =
      if j ≤ p ∧ p < j + columns then y p + edgeShare columns herm alpha col temp1 x j temp2 (p - j) else y p := by
  refine (loop_invariant columns _ (y, temp2)
    (fun done state => (∀ p, state.1 p =
        if j ≤ p ∧ p < j + done then y p + edgeShare columns herm alpha col temp1 x j temp2 (p - j) else y p) ∧
      ∀ k, k < columns → state.2 k = temp2 k + ∑ i ∈ Finset.Ico j (j + min k done), conjugateIf (col k i) herm * x i)
    ⟨fun p => by rw [if_neg (by omega)], fun k _ => by rw [Nat.min_zero, Nat.add_zero, Finset.Ico_self, Finset.sum_empty, add_zero]⟩
    (fun done state small before => ?_)).1 p
  have row := edge_row columns herm col temp1 x j done small (Function.update state.1 (j + done) (state.1 (j + done) +
    alpha * state.2 done + temp1 done * diagonalValue herm (col done (j + done)))) state.2
  constructor
  · intro p
    refine (row.1 p).trans ?_
    by_cases here : p = j + done
    · subst here
      rw [if_pos rfl, Function.update_self, before.1, if_neg (by omega), if_pos (by omega), before.2 done small, Nat.min_self,
        Nat.add_sub_cancel_left, edgeShare]
      ring
    · rw [if_neg here, Function.update_of_ne here, before.1 p]
      exact if_congr (by omega) rfl rfl
  · intro k inside
    refine (row.2 k).trans ?_
    rw [before.2 k inside]
    by_cases behind : done < k
    · rw [if_pos ⟨behind, inside⟩, Nat.min_eq_right behind.le, Nat.min_eq_right (show done + 1 ≤ k from behind), ← Nat.add_assoc,
        Finset.sum_Ico_succ_top (Nat.le_add_right j done), add_assoc]
    · rw [if_neg (fun both => behind both.1), Nat.min_eq_left (by omega), Nat.min_eq_left (by omega)]

end Pass

section Upper

variable [Scalar T] [LawfulScalar T] {n : Nat} (herm : Bool) (alpha : T) (a : Mem T) (lda : Int) (x : Mem T)

omit [CommRing T] [Scalar T] [LawfulScalar T] in
theorem column_view (j i : Nat) : view a (matIndex lda 0 j) i = denseEntry a lda i j := by
  rw [view_apply, denseEntry, matIndex, matIndex, Nat.zero_add, Nat.add_comm]

omit [LawfulScalar T] in
theorem upper_share_behind (entry : Nat → Nat → T) (i j : Nat) (before : i < j) :
    symmetricShare .upper n alpha (completion herm .upper entry) x j i = entry i j * (alpha * x j) := by
  have owned : ownsEntry .upper i j := ⟨Nat.ne_of_lt before, decide_eq_true before.le⟩
  rw [symmetricShare, if_neg owned.1, if_pos owned, (completion_owned herm .upper entry i j owned).1, mul_comm]

omit [LawfulScalar T] in
theorem upper_share_before (entry : Nat → Nat → T) (i j : Nat) (behind : j < i) :
    symmetricShare .upper n alpha (completion herm .upper entry) x j i = 0 := by
  have free : ¬ ownsEntry .upper i j := fun owned => absurd (of_decide_eq_true owned.2 : i ≤ j) (Nat.not_le_of_lt behind)
  rw [symmetricShare, if_neg (Nat.ne_of_gt behind), if_neg free]

theorem upper_share_own (entry : Nat → Nat → T) (j : Nat) (inside : j < n) :
    symmetricShare .upper n alpha (completion herm .upper entry) x j j =
      alpha * ∑ r ∈ Finset.Ico 0 j, conjugateIf (entry r j) herm * x r + alpha * x j * diagonalValue herm (entry j j) := by
  rw [symmetricShare, if_pos rfl, owned_sum herm .upper entry n j inside, completion_diagonal]
  rfl

theorem upper_columns_add (columns j : Nat) (inside : j + columns ≤ n) :
    AddsColumns .upper n alpha (completion herm .upper (denseEntry a lda)) x j (j + columns)
      (upperColumns columns herm alpha a lda x j) := by
  let col := fun k => view a (matIndex lda 0 (j + k))
  let temp1 := fun k => alpha * x (j + k)
  let unroll := if isReal T then 4 else if columns = 1 then 2 else 1
  have several : 0 < unroll := by
    simp only [unroll]
    split
    · exact Nat.succ_pos 3
    · split <;> exact Nat.succ_pos _
  have pass := fun y => column_pass (elementLanes T) unroll columns herm col temp1 x 0 j (Nat.zero_le j) y several
  have shares : ∀ p, ∑ c ∈ Finset.Ico j (j + columns), symmetricShare .upper n alpha (completion herm .upper (denseEntry a
    lda)) x c p =
      ∑ k ∈ Finset.range columns, symmetricShare .upper n alpha (completion herm .upper (denseEntry a lda)) x (j + k) p := fun p => by
    rw [Finset.sum_Ico_eq_sum_range, Nat.add_sub_cancel_left]
  have result : ∀ y p, upperColumns columns herm alpha a lda x j y p =
      if j ≤ p ∧ p < j + columns then
        y p + edgeShare columns herm alpha col temp1 x j
          (columnPass (elementLanes T) unroll columns herm col temp1 x 0 j y).2 (p - j)
      else if p < j then y p + ∑ k ∈ Finset.range columns, col k p * temp1 k else y p := by
    intro y p
    have edges := column_edges columns herm alpha col temp1 x j
      (columnPass (elementLanes T) unroll columns herm col temp1 x 0 j y).1
      (columnPass (elementLanes T) unroll columns herm col temp1 x 0 j y).2 p
    refine edges.trans ?_
    rw [(pass y).rows p]
    by_cases own : j ≤ p ∧ p < j + columns
    · rw [if_pos own, if_pos own, if_neg (by omega)]
    · rw [if_neg own, if_neg own]
      exact if_congr (by omega) rfl rfl
  constructor
  · intro y p small
    rw [result, shares]
    by_cases own : j ≤ p ∧ p < j + columns
    · obtain ⟨q, rfl⟩ := Nat.exists_eq_add_of_le own.1
      have below : q < columns := by omega
      rw [if_pos own, Nat.add_sub_cancel_left, edgeShare, (pass y).sums q,
        Finset.sum_Ico_consecutive _ (Nat.zero_le j) (Nat.le_add_right j q), Finset.range_eq_Ico,
        ← Finset.sum_Ico_consecutive _ (Nat.zero_le q) below.le, Finset.sum_eq_sum_Ico_succ_bot below,
        upper_share_own herm alpha x (denseEntry a lda) (j + q) (by omega),
        Finset.sum_eq_zero (fun k member => upper_share_before herm alpha x (denseEntry a lda) (j + q) (j + k)
          (Nat.add_lt_add_left (Finset.mem_Ico.mp member).2 j)), zero_add]
      have columnsOf : ∀ k i, col k i = denseEntry a lda i (j + k) := fun k i => column_view a lda (j + k) i
      simp only [columnsOf]
      rw [Finset.sum_congr rfl (fun s member => upper_share_behind (n := n) herm alpha x (denseEntry a lda) (j + q) (j + s)
        (Nat.add_lt_add_left (Finset.mem_Ico.mp member).1 j))]
    · rw [if_neg own]
      by_cases before : p < j
      · rw [if_pos before]
        refine congrArg (y p + ·) (Finset.sum_congr rfl (fun k _ => ?_))
        rw [upper_share_behind herm alpha x (denseEntry a lda) p (j + k) (by omega)]
        exact congrArg (· * temp1 k) (column_view a lda (j + k) p)
      · rw [if_neg before, Finset.sum_eq_zero (fun k member => upper_share_before herm alpha x (denseEntry a lda) p (j + k) (by
          have below := Finset.mem_range.mp member
          omega)), add_zero]
  · intro y p apart
    have outside : n ≤ p := Nat.le_of_not_lt (fun small => apart p small rfl)
    rw [result, if_neg (by omega), if_neg (by omega)]

end Upper

section Single

variable [Scalar T] [LawfulScalar T] {uplo : Triangle} {n j : Nat} {herm : Bool} {alpha : T} {entry : Nat → Nat → T} {x : Mem T}

-- One column: its segment to the rows of the segment, its sum and its diagonal element to its own row.
theorem single_column_adds {run : Mem T → Mem T} (inside : j < n)
    (rest : ∀ y i, i ≠ j → run y i = if ownsEntry uplo i j ∧ i < n then y i + alpha * x j * entry i j else y i)
    (own : ∀ y, run y j = y j + (alpha * ∑ r ∈ Finset.Ico (if uplo = .upper then 0 else j + 1) (if uplo = .upper then j else n),
      conjugateIf (entry r j) herm * x r + alpha * x j * diagonalValue herm (entry j j))) :
    AddsColumns uplo n alpha (completion herm uplo entry) x j (j + 1) run := by
  have share : ∀ i, ∑ c ∈ Finset.Ico j (j + 1), symmetricShare uplo n alpha (completion herm uplo entry) x c i =
      symmetricShare uplo n alpha (completion herm uplo entry) x j i := fun i => by
    rw [Nat.Ico_succ_singleton, Finset.sum_singleton]
  constructor
  · intro y i small
    rw [share, symmetricShare]
    by_cases here : i = j
    · subst here
      rw [own, if_pos rfl, owned_sum herm uplo entry n i inside, completion_diagonal]
    · rw [rest y i here, if_neg here]
      by_cases owned : ownsEntry uplo i j
      · rw [if_pos ⟨owned, small⟩, if_pos owned, (completion_owned herm uplo entry i j owned).1]
      · rw [if_neg (fun both => owned both.1), if_neg owned, add_zero]
  · intro y i apart
    have outside : ¬ i < n := fun small => apart i small rfl
    have other : i ≠ j := fun same => outside (same ▸ inside)
    rw [rest y i other, if_neg (fun both => outside both.2)]

theorem lower_column_real_adds (a : Mem T) (lda : Int) (inside : j < n) :
    AddsColumns .lower n alpha (completion false .lower (denseEntry a lda)) x j (j + 1) (lowerColumnReal n alpha a lda x j) := by
  have pass := fun y => column_pass (elementLanes T) 4 1 false (fun _ => view a (matIndex lda 0 j)) (fun _ => alpha * x j) x
    (j + 1) n inside y (Nat.succ_pos 3)
  have columnOf : ∀ i, view a (matIndex lda 0 j) i = denseEntry a lda i j := fun i => column_view a lda j i
  refine single_column_adds inside (fun y i other => ?_) (fun y => ?_)
  · rw [lowerColumnReal, Function.update_of_ne other, (pass _).rows, Function.update_of_ne other, Finset.sum_range_one, columnOf,
      mul_comm (denseEntry a lda i j)]
    refine if_congr ?_ rfl rfl
    exact ((owned_rows .lower n i j inside).trans Iff.rfl).symm
  · rw [lowerColumnReal, Function.update_self, (pass _).rows, if_neg (by omega), Function.update_self, (pass _).sums, columnOf]
    simp only [columnOf, reduceCtorEq, if_false, diagonalValue, Bool.false_and, Bool.false_eq_true]
    ring

theorem diagonal_value_real_only (value : T) : diagonalValue true value = realOnly value := by
  cases kind : Scalar.isComplex T with
  | true => simp only [diagonalValue, kind, Bool.and_self, if_true]
  | false => simp only [diagonalValue, kind, Bool.and_false, Bool.false_eq_true, if_false, LawfulScalar.realOnly_real kind]

theorem lower_column_complex_adds (rt : Runtime) (site : Site) (a : Mem T) (lda : Int) (inside : j < n) :
    AddsColumns .lower n alpha (completion true .lower (denseEntry a lda)) x j (j + 1)
      (lowerColumnComplex rt site n alpha a lda x j) := by
  have columnOf : ∀ i, a (matIndex lda 0 j + i) = denseEntry a lda i j := fun i => column_view a lda j i
  have tail : toUsize ((n - j - 1 : Nat) : Int) = n - (j + 1) := by
    rw [toUsize, Int.toNat_natCast]
    omega
  -- The tail of the column, whether or not its multiplier is zero.
  have added : Updates (Set.Iio (n - (j + 1))) (fun i => j + 1 + i) (fun i old => old + alpha * x j * denseEntry a lda (j + 1 + i) j)
      (fun y => if isZero (alpha * x j) then y else axpy rt (0 :: site) ((n - j - 1 : Nat) : Int) (alpha * x j) a
        (matIndex lda 0 j + j + 1) 1 y (j + 1) 1) := by
    refine updates_guard _ (fun nothing => ?_) (fun _ => ?_)
    · refine (updates_same _ _).congr rfl (fun i old _ => ?_)
      rw [(LawfulScalar.isZero_iff _).mp nothing, zero_mul, add_zero]
    · refine (axpy_unit_updates rt (0 :: site) ((n - j - 1 : Nat) : Int) (alpha * x j) a (matIndex lda 0 j + j + 1) (j + 1)).congr
        (by rw [tail]) (fun i old _ => ?_)
      rw [← columnOf (j + 1 + i)]
      simp only [Nat.add_assoc]
  have sum : dot rt (1 :: site) ((n - j - 1 : Nat) : Int) a (matIndex lda 0 j + j + 1) 1 x (j + 1) 1 true =
      ∑ r ∈ Finset.Ico (j + 1) n, conjugateIf (denseEntry a lda r j) true * x r := by
    rw [dot_unit_exact, tail, Finset.sum_Ico_eq_sum_range]
    refine Finset.sum_congr rfl (fun i _ => ?_)
    rw [← columnOf (j + 1 + i)]
    simp only [Nat.add_assoc]
  have untouched : ∀ (y : Mem T) i, ¬ (j + 1 ≤ i ∧ i < n) → ∀ k, k ∈ Set.Iio (n - (j + 1)) → j + 1 + k ≠ i := by
    intro y i outside k below same
    have small : k < n - (j + 1) := below
    omega
  have body : ∀ y, lowerColumnComplex rt site n alpha a lda x j y =
      let own := Function.update y j (y j + alpha * x j * realOnly (denseEntry a lda j j))
      if j + 1 < n then
        let added := if isZero (alpha * x j) then own else axpy rt (0 :: site) ((n - j - 1 : Nat) : Int) (alpha * x j) a
          (matIndex lda 0 j + j + 1) 1 own (j + 1) 1
        Function.update added j (added j + alpha * ∑ r ∈ Finset.Ico (j + 1) n, conjugateIf (denseEntry a lda r j) true * x r)
      else own := fun y => by
    simp only [lowerColumnComplex, sum, columnOf]
  refine single_column_adds inside (fun y i other => ?_) (fun y => ?_)
  · rw [body]
    by_cases more : j + 1 < n
    · simp only [if_pos more]
      rw [Function.update_of_ne other]
      by_cases owned : j + 1 ≤ i ∧ i < n
      · obtain ⟨k, rfl⟩ := Nat.exists_eq_add_of_le owned.1
        rw [added.written _ k (show k < n - (j + 1) by omega), Function.update_of_ne other,
          if_pos ((owned_rows .lower n (j + 1 + k) j inside).mpr owned)]
      · rw [added.kept _ i (untouched y i owned), Function.update_of_ne other,
          if_neg (fun both => owned ((owned_rows .lower n i j inside).mp both))]
    · simp only [if_neg more]
      rw [Function.update_of_ne other, if_neg (fun both => by
        have rows := (owned_rows .lower n i j inside).mp both
        simp only [reduceCtorEq, if_false] at rows
        omega)]
  · rw [body, diagonal_value_real_only]
    simp only [reduceCtorEq, if_false]
    by_cases more : j + 1 < n
    · simp only [if_pos more]
      rw [Function.update_self, added.kept _ j (untouched y j (by omega)), Function.update_self]
      ring
    · simp only [if_neg more]
      rw [Function.update_self, Finset.Ico_eq_empty (by omega), Finset.sum_empty, mul_zero, zero_add]

end Single

section Packed

variable [DecidableEq T] [Scalar T] {uplo : Triangle} {n j : Nat} {herm : Bool} {alpha : T} {x : Mem T}

omit [DecidableEq T] in
theorem packed_segment (len : Nat) (scaledXj : T) (col : Mem T) (start : Nat) :
    SegmentMeets herm len scaledXj col x start start (packedSegment herm len scaledXj col x start) := by
  have walked := fun y => loop_invariant len (fun i (state : T × Mem T) =>
      (state.1 + conjugateIf (col i) herm * x (start + i),
        Function.update state.2 (start + i) (state.2 (start + i) + col i * scaledXj))) (0, y)
    (fun done state => state.1 = ∑ i ∈ Finset.range done, conjugateIf (col i) herm * x (start + i) ∧
      ∀ p, state.2 p = if start ≤ p ∧ p < start + done then y p + scaledXj * col (p - start) else y p)
    ⟨Finset.sum_range_zero _ |>.symm, fun p => by rw [if_neg (by omega)]⟩ (fun done state small before => by
      refine ⟨?_, fun p => ?_⟩
      · rw [Finset.sum_range_succ, ← before.1]
      · dsimp only
        by_cases here : p = start + done
        · subst here
          rw [Function.update_self, before.2, if_neg (by omega), if_pos (by omega), Nat.add_sub_cancel_left, mul_comm]
        · rw [Function.update_of_ne here, before.2 p]
          exact if_congr (by omega) rfl rfl)
  refine ⟨fun y => (walked y).1, fun y i small => ?_, fun y p apart => ?_⟩
  · have below : i < len := small
    refine ((walked y).2 (start + i)).trans ?_
    rw [if_pos (by omega), Nat.add_sub_cancel_left]
  · refine ((walked y).2 p).trans (if_neg (fun inside => apart (p - start) ?_ ?_))
    · exact (by omega : p - start < len)
    · omega

omit [DecidableEq T] [Scalar T] in
theorem packed_own_entry : packedEntry uplo n x j j = x (if uplo = .upper then j * (j + 1) / 2 + j else j * (2 * n - j + 1) / 2) := by
  cases uplo with
  | upper => simp only [packedEntry, compactEntry, triPackedIndex, gt_iff_lt, Nat.lt_irrefl, if_false, if_true]
  | lower =>
    simp only [packedEntry, compactEntry, triPackedIndex, Nat.lt_irrefl, if_false, reduceCtorEq, Nat.sub_self, Nat.add_zero]

omit [DecidableEq T] [Scalar T] in
theorem packed_column_entry (i : Nat) (small : i < if uplo = .upper then j else n - j - 1) :
    view x (if uplo = .upper then j * (j + 1) / 2 else j * (2 * n - j + 1) / 2 + 1) i =
      packedEntry uplo n x ((if uplo = .upper then 0 else j + 1) + i) j := by
  cases uplo with
  | upper =>
    simp only [if_true] at small
    simp only [if_true, view_apply, packedEntry, compactEntry, triPackedIndex, Nat.zero_add, if_neg (Nat.not_lt_of_le small.le),
      gt_iff_lt]
  | lower =>
    simp only [reduceCtorEq, if_false] at small
    have below : ¬ j + 1 + i < j := by omega
    simp only [reduceCtorEq, if_false, view_apply, packedEntry, compactEntry, triPackedIndex, if_neg below]
    congr 1
    omega

theorem packed_column_adds [LawfulScalar T] (implementation : PackedImplementation) (ap : Mem T) (inside : j < n) :
    AddsColumns uplo n alpha (completion herm uplo (packedEntry uplo n ap)) x j (j + 1)
      (packedMvColumn implementation uplo n alpha ap x herm j) := by
  let row0 := if uplo = .upper then 0 else j + 1
  let len := if uplo = .upper then j else n - j - 1
  let columnStart := if uplo = .upper then j * (j + 1) / 2 else j * (2 * n - j + 1) / 2 + 1
  have length : len = (if uplo = .upper then j else n) - row0 := by
    cases uplo with
    | upper => rfl
    | lower => exact Nat.sub_sub n j 1
  have ordered : row0 + len = if uplo = .upper then j else n := by
    cases uplo with
    | upper => exact Nat.zero_add j
    | lower => exact (by omega : j + 1 + (n - j - 1) = n)
  let segment := fun y : Mem T =>
    if isReal T ∧ implementation = .compactSymmetricPackedFused ∧ isZero (alpha * x j) = false then
      (fusedSegment len (alpha * x j) (view ap columnStart) x row0 y row0).getD
        (packedSegment herm len (alpha * x j) (view ap columnStart) x row0 y)
    else packedSegment herm len (alpha * x j) (view ap columnStart) x row0 y
  have meets : SegmentMeets herm len (alpha * x j) (view ap columnStart) x row0 row0 segment := by
    by_cases fused : isReal T ∧ implementation = .compactSymmetricPackedFused ∧ isZero (alpha * x j) = false
    · simp only [segment, if_pos fused]
      exact fused_segment_meets fused.1 herm len (alpha * x j) (view ap columnStart) x row0 row0 _
    · simp only [segment, if_neg fused]
      exact packed_segment len (alpha * x j) (view ap columnStart) row0
  have column : ∀ i, i < len → view ap columnStart i = packedEntry uplo n ap (row0 + i) j := fun i small =>
    packed_column_entry i small
  have body : ∀ y, packedMvColumn implementation uplo n alpha ap x herm j y = Function.update (segment y).2 j
      ((segment y).2 j + alpha * ((segment y).1 + diagonalValue herm (packedEntry uplo n ap j j) * x j)) := fun y => by
    rw [packed_own_entry]
    cases uplo <;> rfl
  have kept : ∀ y i, ¬ (row0 ≤ i ∧ i < row0 + len) → (segment y).2 i = y i := fun y i outside =>
    meets.stored.kept y i (fun k below same => outside (by
      have small : k < len := below
      omega))
  refine single_column_adds inside (fun y i other => ?_) (fun y => ?_)
  · rw [body, Function.update_of_ne other]
    have rows := owned_rows uplo n i j inside
    by_cases owned : row0 ≤ i ∧ i < row0 + len
    · obtain ⟨k, rfl⟩ := Nat.exists_eq_add_of_le owned.1
      have below : k < len := by omega
      rw [meets.stored.written y k below, column k below, if_pos (rows.mpr ⟨owned.1, ordered ▸ owned.2⟩)]
    · rw [kept y i owned, if_neg (fun both => owned ⟨(rows.mp both).1, ordered ▸ (rows.mp both).2⟩)]
  · have own : ¬ (row0 ≤ j ∧ j < row0 + len) := by
      rw [ordered]
      intro both
      exact ((owned_rows uplo n j j inside).mpr both).1.1 rfl
    rw [body, Function.update_self, kept y j own, meets.sum y, length, Finset.sum_Ico_eq_sum_range]
    rw [Finset.sum_congr rfl (fun i member => by rw [column i (length ▸ Finset.mem_range.mp member)])]
    ring

end Packed

section Ranges

variable [Scalar T]

-- A column kernel either declines or adds its columns.
structure ExactSymmetricEnv (T : Type) [CommRing T] [Scalar T] extends SymmetricEnv T where
  columns_exact : ∀ (uplo : Triangle) (hermitian : Bool) (n j0 j1 : Nat) (alpha : T) (a : Mem T) (lda : Int) (x y after : Mem T),
    symmetricColumnsUnit (uplo = .upper) hermitian n j0 j1 alpha a lda x y = some after →
    Wrote (Set.Iio n) (fun i => i) (fun i old => old +
      ∑ j ∈ Finset.Ico j0 j1, symmetricShare uplo n alpha (completion hermitian uplo (denseEntry a lda)) x j i) y after

variable [LawfulScalar T] (env : ExactSymmetricEnv T) (uplo : Triangle) (n j0 j1 : Nat) (alpha : T) (a : Mem T) (lda : Int)
    (x : Mem T)

omit [LawfulScalar T] in
theorem fixed_columns_add (hermitian : Bool) {portable : Mem T → Mem T}
    (adds : AddsColumns uplo n alpha (completion hermitian uplo (denseEntry a lda)) x j0 j1 portable) :
    AddsColumns uplo n alpha (completion hermitian uplo (denseEntry a lda)) x j0 j1 (fun y =>
      (if env.tuning.enableFixedColumns then env.symmetricColumnsUnit (uplo = .upper) hermitian n j0 j1 alpha a lda x y
        else none).getD (portable y)) := by
  cases env.tuning.enableFixedColumns with
  | false => exact adds
  | true =>
    refine updates_of_wrote (fun y => ?_)
    cases answer : env.symmetricColumnsUnit (uplo = .upper) hermitian n j0 j1 alpha a lda x y with
    | none =>
      simp only [if_true, Option.getD_none]
      exact ⟨adds.written y, adds.kept y⟩
    | some after =>
      simp only [if_true, Option.getD_some]
      exact env.columns_exact uplo hermitian n j0 j1 alpha a lda x y after answer

theorem upper_range_adds (herm : Bool) (grouped : Bool) (columns : Nat) (ordered : j0 ≤ j1) (inside : j1 ≤ n) :
    AddsColumns .upper n alpha (completion herm .upper (denseEntry a lda)) x j0 j1 (fun y =>
      let first := if grouped then fitEnd j0 j1 columns else j0
      let y := if grouped then fitLoop j0 j1 columns (upperColumns columns herm alpha a lda x) y else y
      loopRange first j1 (upperColumns 1 herm alpha a lda x) y) := by
  have single := fun j (small : j < j1) => upper_columns_add herm alpha a lda x 1 j (show j + 1 ≤ n by omega)
  cases grouped with
  | false => exact AddsColumns.range j0 j1 ordered (fun j _ small => single j small)
  | true =>
    have bounds := fit_end_inside j0 j1 columns ordered
    exact (AddsColumns.fit j0 j1 columns (fun j _ fits => upper_columns_add herm alpha a lda x columns j (fits.trans inside))).append
      (AddsColumns.range (fitEnd j0 j1 columns) j1 bounds.2 (fun j _ small => single j small)) bounds.1 bounds.2

theorem symv_columns_unit_real_adds (ordered : j0 ≤ j1) (inside : j1 ≤ n) :
    AddsColumns uplo n alpha (completion false uplo (denseEntry a lda)) x j0 j1
      (symvColumnsUnitReal env.toSymmetricEnv uplo n j0 j1 alpha a lda x) := by
  refine fixed_columns_add env uplo n j0 j1 alpha a lda x false ?_
  cases uplo with
  | upper => exact upper_range_adds n j0 j1 alpha a lda x false (env.tuning.preferFourColumnRealBody n) 4 ordered inside
  | lower => exact AddsColumns.range j0 j1 ordered (fun j _ small => lower_column_real_adds a lda (by omega))

theorem hermv_columns_unit_complex_adds (rt : Runtime) (site : Site) (ordered : j0 ≤ j1) (inside : j1 ≤ n) :
    AddsColumns uplo n alpha (completion true uplo (denseEntry a lda)) x j0 j1
      (hermvColumnsUnitComplex env.toSymmetricEnv rt site uplo n j0 j1 alpha a lda x) := by
  refine fixed_columns_add env uplo n j0 j1 alpha a lda x true ?_
  cases uplo with
  | upper => exact upper_range_adds n j0 j1 alpha a lda x true (rt.arch = .x86_64 ∧ n ≥ 128) 2 ordered inside
  | lower => exact AddsColumns.range j0 j1 ordered (fun j _ small => lower_column_complex_adds rt (j :: site) a lda (by omega))

theorem packed_mv_columns_unit_adds [DecidableEq T] (implementation : PackedImplementation) (ap : Mem T) (herm : Bool)
    (ordered : j0 ≤ j1) (inside : j1 ≤ n) :
    AddsColumns uplo n alpha (completion herm uplo (packedEntry uplo n ap)) x j0 j1
      (packedMvColumnsUnitImpl implementation uplo n j0 j1 alpha ap x herm) :=
  AddsColumns.range j0 j1 ordered (fun j _ small => packed_column_adds implementation ap (by omega))

end Ranges

end Zynum
