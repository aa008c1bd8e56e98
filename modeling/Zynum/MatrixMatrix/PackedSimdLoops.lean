import Zynum.MatrixMatrix.PackedSimd
import Zynum.Foundation.LinearLoop

set_option autoImplicit false

/- What the loops of a micro-kernel write: rectangles of C put together from
   vectors, rows and column strips, and accumulators that are sums. -/
namespace Zynum.PackedSimd

open ArrayProgram

section Rectangles

def rectangle (i0 i1 j0 j1 : Nat) : Set (Nat × Nat) := {cell | (i0 ≤ cell.1 ∧ cell.1 < i1) ∧ j0 ≤ cell.2 ∧ cell.2 < j1}

variable {T : Type} {address : Nat × Nat → Nat} {value : Nat × Nat → T → T} {m : Nat}

theorem rows_then {first second : Mem T → Mem T} {i0 i1 i2 j0 j1 : Nat} (injective : Set.InjOn address {cell | cell.1 < m})
    (above : Updates (rectangle i0 i1 j0 j1) address value first) (below : Updates (rectangle i1 i2 j0 j1) address value second)
    (ordered : i0 ≤ i1) (ordered' : i1 ≤ i2) (inside : i2 ≤ m) :
    Updates (rectangle i0 i2 j0 j1) address value (fun c => second (first c)) := by
  have whole : rectangle i0 i1 j0 j1 ∪ rectangle i1 i2 j0 j1 = rectangle i0 i2 j0 j1 := by
    ext cell
    simp only [rectangle, Set.mem_union, Set.mem_ofPred_eq]
    omega
  have apart : Disjoint (rectangle i0 i1 j0 j1) (rectangle i1 i2 j0 j1) := by
    rw [Set.disjoint_left]
    intro cell inFirst inSecond
    have upper := inFirst.1.2
    have lower := inSecond.1.1
    omega
  have both := above.then_apart below (injective.mono (fun cell member => by
    rw [whole] at member
    exact lt_of_lt_of_le member.1.2 inside)) apart
  rwa [whole] at both

theorem columns_then {first second : Mem T → Mem T} {i0 i1 j0 j1 j2 : Nat} (injective : Set.InjOn address {cell | cell.1 < m})
    (left : Updates (rectangle i0 i1 j0 j1) address value first) (right : Updates (rectangle i0 i1 j1 j2) address value second)
    (ordered : j0 ≤ j1) (ordered' : j1 ≤ j2) (inside : i1 ≤ m) :
    Updates (rectangle i0 i1 j0 j2) address value (fun c => second (first c)) := by
  have whole : rectangle i0 i1 j0 j1 ∪ rectangle i0 i1 j1 j2 = rectangle i0 i1 j0 j2 := by
    ext cell
    simp only [rectangle, Set.mem_union, Set.mem_ofPred_eq]
    omega
  have apart : Disjoint (rectangle i0 i1 j0 j1) (rectangle i0 i1 j1 j2) := by
    rw [Set.disjoint_left]
    intro cell inFirst inSecond
    have upper := inFirst.2.2
    have lower := inSecond.2.1
    omega
  have both := left.then_apart right (injective.mono (fun cell member => by
    rw [whole] at member
    exact lt_of_lt_of_le member.1.2 inside)) apart
  rwa [whole] at both

theorem empty_rectangle (run : Mem T → Mem T) (idle : ∀ c, run c = c) (i0 i1 j0 j1 : Nat) (none : i1 ≤ i0 ∨ j1 ≤ j0) :
    Updates (rectangle i0 i1 j0 j1) address value run := by
  have empty : rectangle i0 i1 j0 j1 = ∅ := by
    rw [Set.eq_empty_iff_forall_notMem]
    intro cell inside
    have rows := inside.1
    have columns := inside.2
    omega
  rw [empty]
  exact (updates_nothing address value).congr_run idle

theorem rows_loop (count : Nat) (bound : Nat → Nat) (run : Nat → Mem T → Mem T) (j0 j1 : Nat)
    (injective : Set.InjOn address {cell | cell.1 < m}) (ordered : ∀ turn, turn < count → bound turn ≤ bound (turn + 1))
    (inside : bound count ≤ m)
    (each : ∀ turn, turn < count → Updates (rectangle (bound turn) (bound (turn + 1)) j0 j1) address value (run turn)) :
    Updates (rectangle (bound 0) (bound count) j0 j1) address value (loop count run) ∧ bound 0 ≤ bound count := by
  induction count with
  | zero => exact ⟨empty_rectangle _ (fun _ => rfl) _ _ _ _ (Or.inl (Nat.le_refl _)), Nat.le_refl _⟩
  | succ count ih =>
    have last := ordered count (Nat.lt_succ_self count)
    obtain ⟨before, grown⟩ := ih (fun turn small => ordered turn (Nat.lt_succ_of_lt small)) (last.trans inside)
      (fun turn small => each turn (Nat.lt_succ_of_lt small))
    have joined := rows_then injective before (each count (Nat.lt_succ_self count)) grown last inside
    exact ⟨joined, grown.trans last⟩

theorem columns_loop (count : Nat) (bound : Nat → Nat) (run : Nat → Mem T → Mem T) (i0 i1 : Nat)
    (injective : Set.InjOn address {cell | cell.1 < m}) (ordered : ∀ turn, turn < count → bound turn ≤ bound (turn + 1))
    (inside : i1 ≤ m)
    (each : ∀ turn, turn < count → Updates (rectangle i0 i1 (bound turn) (bound (turn + 1))) address value (run turn)) :
    Updates (rectangle i0 i1 (bound 0) (bound count)) address value (loop count run) ∧ bound 0 ≤ bound count := by
  induction count with
  | zero => exact ⟨empty_rectangle _ (fun _ => rfl) _ _ _ _ (Or.inr (Nat.le_refl _)), Nat.le_refl _⟩
  | succ count ih =>
    have last := ordered count (Nat.lt_succ_self count)
    obtain ⟨before, grown⟩ := ih (fun turn small => ordered turn (Nat.lt_succ_of_lt small))
      (fun turn small => each turn (Nat.lt_succ_of_lt small))
    have joined := columns_then injective before (each count (Nat.lt_succ_self count)) grown last inside
    exact ⟨joined, grown.trans last⟩

theorem rows_fit (first step : Nat) (run : Nat → Mem T → Mem T) (j0 j1 : Nat) (injective : Set.InjOn address {cell | cell.1 < m})
    (ordered : first ≤ m)
    (each : ∀ row, first ≤ row → row + step ≤ m → Updates (rectangle row (row + step) j0 j1) address value (run row)) :
    Updates (rectangle first (fitEnd first m step) j0 j1) address value (fitLoop first m step run) := by
  have strips := (rows_loop ((m - first) / step) (fun turn => first + turn * step) (fun turn => run (first + turn * step)) j0 j1
    injective (fun turn _ => by simp only [Nat.succ_mul]; omega) (fit_end_inside first m step ordered).2 (fun turn small => by
      have strip := each (first + turn * step) (Nat.le_add_right _ _) (fit_turn_inside first m step turn small)
      simp only [Nat.succ_mul, ← Nat.add_assoc]
      exact strip)).1
  simp only [Nat.zero_mul, Nat.add_zero] at strips
  exact strips

theorem columns_fit (first last step : Nat) (run : Nat → Mem T → Mem T) (i0 i1 : Nat)
    (injective : Set.InjOn address {cell | cell.1 < m}) (inside : i1 ≤ m)
    (each : ∀ col, first ≤ col → col + step ≤ last → Updates (rectangle i0 i1 col (col + step)) address value (run col)) :
    Updates (rectangle i0 i1 first (fitEnd first last step)) address value (fitLoop first last step run) := by
  have strips := (columns_loop ((last - first) / step) (fun turn => first + turn * step) (fun turn => run (first + turn * step))
    i0 i1 injective (fun turn _ => by simp only [Nat.succ_mul]; omega) inside (fun turn small => by
      have strip := each (first + turn * step) (Nat.le_add_right _ _) (fit_turn_inside first last step turn small)
      simp only [Nat.succ_mul, ← Nat.add_assoc]
      exact strip)).1
  simp only [Nat.zero_mul, Nat.add_zero] at strips
  exact strips

theorem rows_range (first : Nat) (run : Nat → Mem T → Mem T) (j0 j1 : Nat) (injective : Set.InjOn address {cell | cell.1 < m})
    (ordered : first ≤ m)
    (each : ∀ row, first ≤ row → row < m → Updates (rectangle row (row + 1) j0 j1) address value (run row)) :
    Updates (rectangle first m j0 j1) address value (loopRange first m run) := by
  have strips := (rows_loop (m - first) (fun turn => first + turn) (fun turn => run (first + turn)) j0 j1 injective
    (fun turn _ => Nat.le_succ _) (by omega) (fun turn small => each (first + turn) (Nat.le_add_right _ _) (by omega))).1
  simp only [Nat.add_zero, Nat.add_sub_cancel' ordered] at strips
  exact strips

theorem columns_range (first last : Nat) (run : Nat → Mem T → Mem T) (i0 i1 : Nat)
    (injective : Set.InjOn address {cell | cell.1 < m}) (inside : i1 ≤ m)
    (each : ∀ col, first ≤ col → col < last → Updates (rectangle i0 i1 col (col + 1)) address value (run col)) :
    Updates (rectangle i0 i1 first last) address value (loopRange first last run) := by
  by_cases ordered : first ≤ last
  · have strips := (columns_loop (last - first) (fun turn => first + turn) (fun turn => run (first + turn)) i0 i1 injective
      (fun turn _ => Nat.le_succ _) inside (fun turn small => each (first + turn) (Nat.le_add_right _ _) (by omega))).1
    simp only [Nat.add_zero, Nat.add_sub_cancel' ordered] at strips
    exact strips
  · have none : last - first = 0 := by omega
    exact empty_rectangle _ (fun c => by rw [loopRange, none, loop_zero]) _ _ _ _ (Or.inr (by omega))

theorem vector_rectangle (lanes row col : Nat) (run : Mem T → Mem T)
    (stored : Updates (Set.Iio lanes) (fun lane => address (row + lane, col)) (fun lane => value (row + lane, col)) run) :
    Updates (rectangle row (row + lanes) col (col + 1)) address value run := by
  refine (Updates.reindex (fun lane => (row + lane, col)) stored).congr ?_ (fun _ _ _ => rfl)
  ext ⟨i, j⟩
  simp only [Set.mem_image, Set.mem_Iio, Prod.mk.injEq, rectangle, Set.mem_ofPred_eq]
  constructor
  · rintro ⟨lane, small, rfl, rfl⟩
    omega
  · rintro ⟨rows, columns⟩
    exact ⟨i - row, by omega, by omega, by omega⟩

theorem point_rectangle (row col : Nat) :
    Updates (rectangle row (row + 1) col (col + 1)) address value
      (fun c => Function.update c (address (row, col)) (value (row, col) (c (address (row, col))))) := by
  refine (updates_point (row, col) address value).congr ?_ (fun _ _ _ => rfl)
  ext ⟨i, j⟩
  simp only [Set.mem_singleton_iff, Prod.mk.injEq, rectangle, Set.mem_ofPred_eq]
  omega

end Rectangles

section Accumulators

theorem fold_cells {ι V : Type} (count : Nat) (cells : Set ι) (value : Nat → ι → V → V) (run : Nat → (ι → V) → ι → V)
    (each : ∀ p, p < count → Updates cells (fun index => index) (value p) (run p)) (index : ι) (member : index ∈ cells)
    (initial : ι → V) : loop count run initial index = loop count (fun p => value p index) (initial index) :=
  (Updates.repeat count value run each).written initial index member

theorem products_sum {T : Type} [AddCommMonoid T] (count : Nat) (term : Nat → T) :
    loop count (fun p sum => term p + sum) 0 = ∑ p ∈ Finset.range count, term p := by
  rw [← zero_add (∑ p ∈ Finset.range count, term p), ← loop_accumulate]
  exact loop_congr _ _ _ _ (fun p sum _ => add_comm _ _)

theorem products_lanes {T : Type} [AddCommMonoid T] (count : Nat) (term : Nat → Nat → T) (lane : Nat) :
    loop count (fun p (sum : Nat → T) => fun l => term p l + sum l) (fun _ => 0) lane = ∑ p ∈ Finset.range count, term p lane := by
  induction count with
  | zero => rfl
  | succ count ih => rw [loop_succ, ih, Finset.sum_range_succ, add_comm]

theorem register_row {V : Type} (count width : Nat) (value : Nat → Nat → V → V) (initial : Nat → V) (col : Nat)
    (small : col < width) :
    loop count (fun p acc => loop width (fun col (acc : Nat → V) => Function.update acc col (value p col (acc col))) acc)
    initial col =
      loop count (fun p => value p col) (initial col) :=
  fold_cells count (Set.Iio width) value _
    (fun p _ => updates_elementwise width (fun index => index) (value p) Function.injective_id.injOn) col small initial

end Accumulators

end Zynum.PackedSimd
