import Zynum.Foundation.CellUpdate

set_option autoImplicit false

/- Consecutive pieces of an index range, and tasks that each own one piece. -/
namespace ArrayProgram

structure Splits (count : Nat) (bound : Nat → Nat) (first last : Nat) : Prop where
  start : bound 0 = first
  finish : bound count = last
  ordered : ∀ piece, piece < count → bound piece ≤ bound (piece + 1)

def pieceOf (bound : Nat → Nat) (piece : Nat) : Set Nat :=
  {index | bound piece ≤ index ∧ index < bound (piece + 1)}

theorem Splits.mono {count first last : Nat} {bound : Nat → Nat} (splits : Splits count bound first last)
    (i j : Nat) (below : i ≤ j) (inside : j ≤ count) : bound i ≤ bound j := by
  induction j with
  | zero =>
    have same : i = 0 := Nat.le_zero.mp below
    rw [same]
  | succ j ih =>
    by_cases last : i = j + 1
    · rw [last]
    · have earlier : bound i ≤ bound j := ih (by omega) (by omega)
      exact earlier.trans (splits.ordered j (by omega))

theorem Splits.owner {count first last : Nat} {bound : Nat → Nat} (splits : Splits count bound first last)
    (index : Nat) (lower : first ≤ index) (upper : index < last) :
    ∃ piece, piece < count ∧ index ∈ pieceOf bound piece := by
  have search : ∀ total, total ≤ count → index < bound total → ∃ piece, piece < total ∧ index ∈ pieceOf bound piece := by
    intro total
    induction total with
    | zero =>
      intro _ below
      rw [splits.start] at below
      omega
    | succ total ih =>
      intro inside below
      by_cases earlier : index < bound total
      · obtain ⟨piece, small, member⟩ := ih (by omega) earlier
        exact ⟨piece, by omega, member⟩
      · exact ⟨total, Nat.lt_succ_self total, Nat.le_of_not_lt earlier, below⟩
  exact search count (Nat.le_refl count) (by rw [splits.finish]; exact upper)

theorem Splits.inside {count first last : Nat} {bound : Nat → Nat} (splits : Splits count bound first last)
    (piece index : Nat) (small : piece < count) (member : index ∈ pieceOf bound piece) : first ≤ index ∧ index < last := by
  have lower := splits.mono 0 piece (Nat.zero_le piece) small.le
  have upper := splits.mono (piece + 1) count small (Nat.le_refl count)
  rw [splits.start] at lower
  rw [splits.finish] at upper
  exact ⟨lower.trans member.1, member.2.trans_le upper⟩

theorem Splits.apart {count first last : Nat} {bound : Nat → Nat} (splits : Splits count bound first last)
    (i j : Nat) (inFirst : i < count) (inSecond : j < count) (different : i ≠ j) :
    Disjoint (pieceOf bound i) (pieceOf bound j) := by
  rw [Set.disjoint_left]
  intro index left right
  rcases Nat.lt_or_gt_of_ne different with before | after
  · have gap := splits.mono (i + 1) j before inSecond.le
    exact absurd (left.2.trans_le (gap.trans right.1)) (Nat.lt_irrefl index)
  · have gap := splits.mono (j + 1) i after inFirst.le
    exact absurd (right.2.trans_le (gap.trans left.1)) (Nat.lt_irrefl index)

theorem Splits.covers {count first last : Nat} {bound : Nat → Nat} (splits : Splits count bound first last) :
    {index | ∃ piece, piece < count ∧ index ∈ pieceOf bound piece} = Set.Ico first last := by
  ext index
  constructor
  · rintro ⟨piece, small, member⟩
    exact splits.inside piece index small member
  · intro inside
    exact splits.owner index inside.1 inside.2

theorem Splits.sum {M : Type} [AddCommMonoid M] {count first last : Nat} {bound : Nat → Nat}
    (splits : Splits count bound first last) (term : Nat → M) :
    ∑ piece ∈ Finset.range count, ∑ i ∈ Finset.Ico (bound piece) (bound (piece + 1)), term i =
      ∑ i ∈ Finset.Ico first last, term i := by
  have prefixes : ∀ total, total ≤ count →
      ∑ piece ∈ Finset.range total, ∑ i ∈ Finset.Ico (bound piece) (bound (piece + 1)), term i =
        ∑ i ∈ Finset.Ico (bound 0) (bound total), term i := by
    intro total
    induction total with
    | zero => intro _; rw [Finset.range_zero, Finset.sum_empty, Finset.Ico_self, Finset.sum_empty]
    | succ total ih =>
      intro inside
      rw [Finset.sum_range_succ, ih (by omega)]
      exact Finset.sum_Ico_consecutive term (splits.mono 0 total (Nat.zero_le total) (by omega))
        (splits.ordered total (by omega))
  rw [prefixes count (Nat.le_refl count), splits.start, splits.finish]

-- Task t of count owns [t * total / count, (t + 1) * total / count).
def evenBound (total count piece : Nat) : Nat := piece * total / count

theorem even_splits (total count : Nat) (some : 0 < count) : Splits count (evenBound total count) 0 total := by
  refine ⟨by simp only [evenBound, Nat.zero_mul, Nat.zero_div], Nat.mul_div_cancel_left total some, fun piece _ => ?_⟩
  exact Nat.div_le_div_right (Nat.mul_le_mul_right total (Nat.le_succ piece))

theorem mem_of_perm_range {order : List Nat} {count : Nat} (complete : order.Perm (List.range count)) (task : Nat) :
    task ∈ order ↔ task < count := by
  rw [complete.mem_iff, List.mem_range]

universe u w x
variable {ι : Type u} {α : Type w} {β : Type x}

theorem Updates.dispatch {address : ι → α} {value : ι → β → β} (order : List Nat) (count : Nat) (cells : Nat → Set ι)
    (run : Nat → (α → β) → α → β) (complete : order.Perm (List.range count))
    (each : ∀ task, task < count → Updates (cells task) address value (run task))
    (injective : Set.InjOn address {index | ∃ task, task < count ∧ index ∈ cells task})
    (apart : ∀ first second, first < count → second < count → first ≠ second →
      Disjoint (cells first) (cells second)) :
    Updates {index | ∃ task, task < count ∧ index ∈ cells task} address value
      (fun store => order.foldl (fun current task => run task current) store) := by
  have listed : {index | ∃ task, task ∈ order ∧ index ∈ cells task} =
      {index | ∃ task, task < count ∧ index ∈ cells task} := by
    simp only [mem_of_perm_range complete]
  have distinct : order.Nodup := complete.nodup_iff.mpr List.nodup_range
  have whole := Updates.tasks order cells run distinct
    (fun task member => each task ((mem_of_perm_range complete task).mp member)) (listed ▸ injective)
    (fun first second inFirst inSecond => apart first second ((mem_of_perm_range complete first).mp inFirst)
      ((mem_of_perm_range complete second).mp inSecond))
  exact whole.congr listed (fun _ _ _ => rfl)

theorem Updates.split_dispatch {address : Nat → α} {value : Nat → β → β} (order : List Nat) (count first last : Nat)
    (bound : Nat → Nat) (run : Nat → (α → β) → α → β) (splits : Splits count bound first last)
    (complete : order.Perm (List.range count)) (injective : Set.InjOn address (Set.Ico first last))
    (each : ∀ task, task < count → Updates (pieceOf bound task) address value (run task)) :
    Updates (Set.Ico first last) address value
      (fun store => order.foldl (fun current task => run task current) store) := by
  have whole := Updates.dispatch order count (pieceOf bound) run complete each (splits.covers.symm ▸ injective)
    splits.apart
  exact whole.congr splits.covers (fun _ _ _ => rfl)

end ArrayProgram
