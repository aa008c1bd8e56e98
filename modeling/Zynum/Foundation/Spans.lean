import Zynum.Foundation.Tiles

set_option autoImplicit false

/- Updates of the cells whose line falls in a range, put together range by range. -/
namespace ArrayProgram

universe u w x
variable {ι : Type u} {α : Type w} {β : Type x}

def spanOf (cells : Set ι) (line : ι → Nat) (first last : Nat) : Set ι :=
  {index | index ∈ cells ∧ first ≤ line index ∧ line index < last}

variable {address : ι → α} {value : ι → β → β} {cells : Set ι} {line : ι → Nat}

theorem span_inside (first last : Nat) : spanOf cells line first last ⊆ cells := fun _ member => member.1

theorem span_empty (first last : Nat) (none : last ≤ first) : spanOf cells line first last = ∅ := by
  refine Set.eq_empty_of_forall_notMem (fun index member => ?_)
  exact absurd (member.2.1.trans_lt member.2.2) (Nat.not_lt.mpr none)

theorem span_everything (last : Nat) (below : ∀ index, index ∈ cells → line index < last) : spanOf cells line 0 last = cells := by
  ext index
  exact ⟨fun member => member.1, fun member => ⟨member, Nat.zero_le _, below index member⟩⟩

theorem updates_empty_span (first last : Nat) (none : last ≤ first) :
    Updates (spanOf cells line first last) address value (fun store => store) := by
  rw [span_empty first last none]
  exact updates_nothing address value

theorem Updates.span_append {first middle last : Nat} {run next : (α → β) → α → β}
    (left : Updates (spanOf cells line first middle) address value run)
    (right : Updates (spanOf cells line middle last) address value next) (before : first ≤ middle) (after : middle ≤ last)
    (injective : Set.InjOn address cells) : Updates (spanOf cells line first last) address value (fun store => next (run store)) := by
  have joined : spanOf cells line first middle ∪ spanOf cells line middle last = spanOf cells line first last := by
    ext index
    constructor
    · rintro (low | high)
      · exact ⟨low.1, low.2.1, low.2.2.trans_le after⟩
      · exact ⟨high.1, before.trans high.2.1, high.2.2⟩
    · intro member
      cases Nat.lt_or_ge (line index) middle with
      | inl low => exact Or.inl ⟨member.1, member.2.1, low⟩
      | inr high => exact Or.inr ⟨member.1, high, member.2.2⟩
  have apart : Disjoint (spanOf cells line first middle) (spanOf cells line middle last) := by
    refine Set.disjoint_left.mpr (fun index low high => ?_)
    exact absurd low.2.2 (Nat.not_lt.mpr high.2.1)
  have whole := left.then_apart right (injective.mono (Set.union_subset (span_inside _ _) (span_inside _ _))) apart
  exact whole.congr joined (fun _ _ _ => rfl)

theorem Updates.span_dispatch {first last count : Nat} {bound : Nat → Nat} {run : Nat → (α → β) → α → β} (order : List Nat)
    (splits : Splits count bound first last) (complete : order.Perm (List.range count))
    (each : ∀ task, task < count → Updates (spanOf cells line (bound task) (bound (task + 1))) address value (run task))
    (injective : Set.InjOn address cells) :
    Updates (spanOf cells line first last) address value
      (fun store => order.foldl (fun current task => run task current) store) := by
  have covered : {index | ∃ task, task < count ∧ index ∈ spanOf cells line (bound task) (bound (task + 1))} =
      spanOf cells line first last := by
    ext index
    constructor
    · rintro ⟨task, small, member⟩
      exact ⟨member.1, splits.inside task (line index) small member.2⟩
    · intro member
      obtain ⟨task, small, inside⟩ := splits.owner (line index) member.2.1 member.2.2
      exact ⟨task, small, member.1, inside⟩
  have whole := Updates.dispatch order count (fun task => spanOf cells line (bound task) (bound (task + 1))) run complete each
    (injective.mono (covered ▸ span_inside first last)) (fun task other inFirst inSecond different => by
      refine Set.disjoint_left.mpr (fun index left right => ?_)
      exact Set.disjoint_left.mp (splits.apart task other inFirst inSecond different) left.2 right.2)
  exact whole.congr covered (fun _ _ _ => rfl)

theorem Updates.span_loop {first last count : Nat} {bound : Nat → Nat} {run : Nat → (α → β) → α → β}
    (splits : Splits count bound first last)
    (each : ∀ task, task < count → Updates (spanOf cells line (bound task) (bound (task + 1))) address value (run task))
    (injective : Set.InjOn address cells) : Updates (spanOf cells line first last) address value (loop count run) :=
  (Updates.span_dispatch (List.range count) splits (List.Perm.refl _) each injective).congr_run
    (fun store => (foldl_range count run store).symm)

theorem Updates.span_blocks (first count width : Nat) {run : Nat → (α → β) → α → β}
    (each : ∀ step, step < count →
      Updates (spanOf cells line (first + step * width) (first + step * width + width)) address value (run step))
    (injective : Set.InjOn address cells) :
    Updates (spanOf cells line first (first + count * width)) address value (loop count run) := by
  have splits : Splits count (fun step => first + step * width) first (first + count * width) :=
    ⟨by rw [Nat.zero_mul, Nat.add_zero], rfl, fun step _ =>
      Nat.add_le_add_left (Nat.mul_le_mul_right width (Nat.le_succ step)) first⟩
  refine Updates.span_loop splits (fun step small => ?_) injective
  rw [Nat.succ_mul, ← Nat.add_assoc]
  exact each step small

theorem Updates.span_fit (first last step : Nat) {run : Nat → (α → β) → α → β}
    (each : ∀ i, first ≤ i → i + step ≤ last → Updates (spanOf cells line i (i + step)) address value (run i))
    (injective : Set.InjOn address cells) :
    Updates (spanOf cells line first (fitEnd first last step)) address value (fitLoop first last step run) := by
  refine Updates.span_blocks first ((last - first) / step) step (fun turn small => ?_) injective
  exact each (first + turn * step) (Nat.le_add_right first _) (fit_turn_inside first last step turn small)

theorem Updates.span_range (first last : Nat) {run : Nat → (α → β) → α → β}
    (each : ∀ i, first ≤ i → i < last → Updates (spanOf cells line i (i + 1)) address value (run i))
    (injective : Set.InjOn address cells) : Updates (spanOf cells line first last) address value (loopRange first last run) := by
  by_cases ordered : first ≤ last
  · have turns : ∀ step, step < last - first →
        Updates (spanOf cells line (first + step * 1) (first + step * 1 + 1)) address value (run (first + step)) := by
      intro step small
      rw [Nat.mul_one]
      exact each (first + step) (Nat.le_add_right first step) (by omega)
    have whole := Updates.span_blocks first (last - first) 1 turns injective
    rw [Nat.mul_one, Nat.add_sub_cancel' ordered] at whole
    exact whole
  · have none : last - first = 0 := by omega
    refine (updates_empty_span first last (by omega)).congr_run (fun store => ?_)
    rw [loopRange, none, loop_zero]

end ArrayProgram
