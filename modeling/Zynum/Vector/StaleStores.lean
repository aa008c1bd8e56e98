import Zynum.Vector.BothRoutines

set_option autoImplicit false

/- Exactly when the stride-2 blocks of operations.zig lose an update: on one
   thread, where a vector of one block stores its gap over the first element of
   the other; on two threads, where the last chunk is whole blocks and stores a
   gap it loaded before the other task wrote it. -/
namespace Zynum.LevelOne

open ArrayProgram

section Serial

variable {R : Type} [CommRing R] {width n xStart yStart lanes : Nat} {rule : PairRule R}

def SerialStale (lanes width n xStart yStart : Nat) : Prop := lanes = n ∧ StartsInGap width n yStart xStart

theorem serial_walk (lanes : Nat) (some : 0 < width) (elementwise : PairMaps width rule)
    (disjoint : Disjoint2 (Operand.stride2 width (cellsFrom xStart)) (Operand.stride2 width (cellsFrom yStart))
      (Set.Iio n)) (memory : Nat → R) (site : Site) :
    Overwrites (cells width (Set.Iio n))
      (cellAddress (Operand.stride2 width (cellsFrom xStart)) (Operand.stride2 width (cellsFrom yStart)))
      (bothValue rule.first rule.second (Operand.stride2 width (cellsFrom xStart)) (Operand.stride2 width (cellsFrom yStart))
        (Stale (Operand.stride2 width (cellsFrom xStart)) (Operand.stride2 width (cellsFrom yStart))
          (stride2Plan false lanes 0 n)) memory) memory
      ((bothStride2 false lanes width rule (cellsFrom xStart) (cellsFrom yStart) site 0 n).run memory).2 := by
  have walk := walk_both (x := Operand.stride2 width (cellsFrom xStart)) (y := Operand.stride2 width (cellsFrom yStart))
    rule.first rule.second memory (stride2_plan_consecutive false lanes 0 n (Nat.zero_le n))
    (walkable_stride2 false lanes 0 n width _) (walkable_stride2 false lanes 0 n width _) (cells_from_injective xStart)
    (cells_from_injective yStart) rfl elementwise.first elementwise.second some (stride2_separate width xStart _)
    (stride2_separate width yStart _) (fun i j c d inside inside' => disjoint i j c d inside.2 inside'.2)
  exact walk.of_eq (by rw [Ico_from_zero]; rfl)

theorem second_fresh (some : 0 < width) (cell : Cell) (small : cell.component < width) (side : cell.second = true) :
    ¬ Stale (Operand.stride2 width (cellsFrom xStart)) (Operand.stride2 width (cellsFrom yStart))
      (stride2Plan false lanes 0 n) cell := by
  obtain ⟨second, i, c⟩ := cell
  have here : second = true := side
  subst here
  rintro ⟨piece, member, _, gap⟩
  exact stride2_gap_free some piece member _ gap i c small rfl

theorem serial_fresh (some : 0 < width) (elementwise : PairMaps width rule) (apart : SpansApart width n xStart yStart)
    (disjoint : Disjoint2 (Operand.stride2 width (cellsFrom xStart)) (Operand.stride2 width (cellsFrom yStart))
      (Set.Iio n)) (site : Site)
    (fresh : SerialStale lanes width n xStart yStart → ∀ x y part, part < width → rule.first x y part = x part) :
    Rewrites (.single (bothStride2 false lanes width rule (cellsFrom xStart) (cellsFrom yStart) site 0 n) :
        Execution Nat R Unit Unit) (cells width (Set.Iio n))
      (cellAddress (Operand.stride2 width (cellsFrom xStart)) (Operand.stride2 width (cellsFrom yStart)))
      (ruleValue rule (Operand.stride2 width (cellsFrom xStart)) (Operand.stride2 width (cellsFrom yStart))) := by
  refine rewrites_single (fun memory => ?_)
  refine (serial_walk lanes some elementwise disjoint memory site).congr (fun cell member => ?_)
  by_cases stale : Stale (Operand.stride2 width (cellsFrom xStart)) (Operand.stride2 width (cellsFrom yStart))
      (stride2Plan false lanes 0 n) cell
  · cases side : cell.second with
    | true => exact absurd stale (second_fresh some cell member.1 side)
    | false =>
      obtain ⟨meets, whole⟩ := stale_serial some apart cell member.1 member.2 side stale
      rw [bothValue, if_pos stale, ruleValue, side, if_neg Bool.false_ne_true,
        fresh ⟨whole, meets⟩ _ _ _ member.1]
      rw [cellAddress, side, if_neg Bool.false_ne_true]
      rfl
  · exact both_value_fresh stale

theorem serial_stale_store (some : 0 < width) (several : 0 < n) (elementwise : PairMaps width rule)
    (disjoint : Disjoint2 (Operand.stride2 width (cellsFrom xStart)) (Operand.stride2 width (cellsFrom yStart))
      (Set.Iio n)) (site : Site) (stale : SerialStale lanes width n xStart yStart) (memory : Nat → R)
    (changes : ruleValue rule (Operand.stride2 width (cellsFrom xStart)) (Operand.stride2 width (cellsFrom yStart)) memory
      ⟨false, 0, 0⟩ ≠ memory xStart) :
    ¬ Rewrites (.single (bothStride2 false lanes width rule (cellsFrom xStart) (cellsFrom yStart) site 0 n) :
        Execution Nat R Unit Unit) (cells width (Set.Iio n))
      (cellAddress (Operand.stride2 width (cellsFrom xStart)) (Operand.stride2 width (cellsFrom yStart)))
      (ruleValue rule (Operand.stride2 width (cellsFrom xStart)) (Operand.stride2 width (cellsFrom yStart))) := by
  intro rewrites
  have member : (⟨false, 0, 0⟩ : Cell) ∈ cells width (Set.Iio n) := ⟨some, several⟩
  have promised := (rewrites memory () _ rfl).written ⟨false, 0, 0⟩ member
  have stored := (serial_walk lanes some elementwise disjoint memory site).written ⟨false, 0, 0⟩ member
  rw [promised, bothValue, if_pos (serial_stale some several stale.1 stale.2)] at stored
  exact changes stored

end Serial

/- Two tasks of parallelSwapStride2F64 and parallelSwapStride2C32. -/
section Paired

variable {R : Type} [CommRing R] {width n xStart yStart lanes : Nat} {rule : PairRule R}

def PairedStale (lanes width n xStart yStart : Nat) : Prop :=
  lanes ∣ n - evenBound n 2 1 ∧ (StartsInGap width n xStart yStart ∨ StartsInGap width n yStart xStart)

theorem paired_fresh (some : 0 < width) (elementwise : PairMaps width rule) (apart : SpansApart width n xStart yStart)
    (disjoint : Disjoint2 (Operand.stride2 width (cellsFrom xStart)) (Operand.stride2 width (cellsFrom yStart))
      (Set.Iio n)) (site : Site) (several : 2 ≤ n) (fresh : ¬ PairedStale lanes width n xStart yStart) :
    Rewrites (.fork 2
        (fun t => bothStride2 false lanes width rule (cellsFrom xStart) (cellsFrom yStart) (t :: site)
          (evenBound n 2 t) (evenBound n 2 (t + 1))) (fun _ => .single (.done ())) : Execution Nat R Unit Unit)
      (cells width (Set.Iio n))
      (cellAddress (Operand.stride2 width (cellsFrom xStart)) (Operand.stride2 width (cellsFrom yStart)))
      (ruleValue rule (Operand.stride2 width (cellsFrom xStart)) (Operand.stride2 width (cellsFrom yStart))) := by
  have splits := even_splits n 2 Nat.two_pos
  have half : evenBound n 2 1 < n := by
    rw [evenBound, Nat.one_mul]
    omega
  have free : ∀ t, t < 2 → GapsFree (Operand.stride2 width (cellsFrom xStart)) (Operand.stride2 width (cellsFrom yStart)) n
      (stride2Plan false lanes (evenBound n 2 t) (evenBound n 2 (t + 1))) := by
    intro t small
    refine strided_gaps_free some apart (splits.ordered t small) ?_ (fun ends _ divides starts => ?_)
    · exact (splits.mono (t + 1) 2 small (Nat.le_refl 2)).trans (Nat.le_of_eq splits.finish)
    · rcases (show t = 0 ∨ t = 1 by omega) with rfl | rfl
      · exact absurd ends (Nat.ne_of_lt half)
      · exact fresh ⟨divides, starts⟩
  have chunked : Chunked 2
      (fun t => bothStride2 false lanes width rule (cellsFrom xStart) (cellsFrom yStart) (t :: site)
        (evenBound n 2 t) (evenBound n 2 (t + 1)))
      (fun t => Set.Ico (evenBound n 2 t) (evenBound n 2 (t + 1))) Cell.index (fun cell => cell.component < width)
      (cellAddress (Operand.stride2 width (cellsFrom xStart)) (Operand.stride2 width (cellsFrom yStart)))
      (ruleValue rule (Operand.stride2 width (cellsFrom xStart)) (Operand.stride2 width (cellsFrom yStart)))
      (Set.Iio n) := by
    have bounded : ∀ t, t < 2 → evenBound n 2 (t + 1) ≤ n := fun t small =>
      (splits.mono (t + 1) 2 small (Nat.le_refl 2)).trans (Nat.le_of_eq splits.finish)
    refine ⟨?_, fun s t => splits.apart s t, ?_, ?_, ?_⟩
    · rw [← Ico_from_zero]
      exact splits.covers
    · exact fun cell other small small' inside inside' different =>
        both_addresses (x := Operand.stride2 width (cellsFrom xStart)) (y := Operand.stride2 width (cellsFrom yStart)) rfl
          (stride2_separate width xStart _) (stride2_separate width yStart _) disjoint cell other small small' inside inside'
          different
    · intro t small memory
      exact both_alone (x := Operand.stride2 width (cellsFrom xStart)) (y := Operand.stride2 width (cellsFrom yStart))
        some rfl (cells_from_injective xStart) (cells_from_injective yStart) elementwise
        (stride2_separate width xStart _) (stride2_separate width yStart _) disjoint (bounded t small)
        (stride2_plan_consecutive false lanes _ _ (splits.ordered t small))
        (walkable_stride2 false lanes _ _ width _) (walkable_stride2 false lanes _ _ width _) (free t small) memory
    · intro t small memory
      exact respects_both memory (stride2_plan_consecutive false lanes _ _ (splits.ordered t small)) (bounded t small)
        (walkable_stride2 false lanes _ _ width _) (walkable_stride2 false lanes _ _ width _) some rfl
        (cells_from_injective xStart) (cells_from_injective yStart) (free t small)
  exact chunked.rewrites (fun _ => ())

-- The gap of the last block of x or y reaches the first element of the other vector.
theorem last_gap {piece : Piece} {first second : Nat} (some : 0 < width) (several : 0 < n) (two : piece.step = 2)
    (ends : piece.first + piece.count = n) (filled : 0 < piece.count) (starts : StartsInGap width n first second) :
    second ∈ (Operand.stride2 width (cellsFrom first)).gaps piece := by
  have span := span_cells width n several
  have whole := whole_cells width n several
  obtain ⟨behind, before⟩ := starts
  refine (stride2_gaps two some second).mpr
    ⟨n - 1, second - (first + width * (2 * n - 1)), ⟨by omega, by omega⟩, by omega, ?_⟩
  omega

theorem paired_stale_store (some : 0 < width) (elementwise : PairMaps width rule)
    (disjoint : Disjoint2 (Operand.stride2 width (cellsFrom xStart)) (Operand.stride2 width (cellsFrom yStart))
      (Set.Iio n)) (site : Site) (several : 2 ≤ n) (stale : PairedStale lanes width n xStart yStart)
    (changes : ∀ second : Bool, ∃ memory : Nat → R,
      ruleValue rule (Operand.stride2 width (cellsFrom xStart)) (Operand.stride2 width (cellsFrom yStart)) memory
        ⟨second, 0, 0⟩ ≠
      memory (cellAddress (Operand.stride2 width (cellsFrom xStart)) (Operand.stride2 width (cellsFrom yStart))
        ⟨second, 0, 0⟩)) :
    ¬ Rewrites (.fork 2
        (fun t => bothStride2 false lanes width rule (cellsFrom xStart) (cellsFrom yStart) (t :: site)
          (evenBound n 2 t) (evenBound n 2 (t + 1))) (fun _ => .single (.done ())) : Execution Nat R Unit Unit)
      (cells width (Set.Iio n))
      (cellAddress (Operand.stride2 width (cellsFrom xStart)) (Operand.stride2 width (cellsFrom yStart)))
      (ruleValue rule (Operand.stride2 width (cellsFrom xStart)) (Operand.stride2 width (cellsFrom yStart))) := by
  intro rewrites
  have half : 0 < evenBound n 2 1 ∧ evenBound n 2 1 < n := by
    rw [evenBound, Nat.one_mul]
    omega
  have finish : evenBound n 2 2 = n := (even_splits n 2 Nat.two_pos).finish
  obtain ⟨divides, meets⟩ := stale
  obtain ⟨early, last, plan, two, behind, ends, filled⟩ := last_block half.2 divides
  -- the element in the gap is the first one of x or of y
  obtain ⟨second, gap⟩ : ∃ second, cellAddress (Operand.stride2 width (cellsFrom xStart))
      (Operand.stride2 width (cellsFrom yStart)) ⟨second, 0, 0⟩ ∈
      (Operand.stride2 width (cellsFrom xStart)).gaps last ∪ (Operand.stride2 width (cellsFrom yStart)).gaps last := by
    rcases meets with yMeets | xMeets
    · exact ⟨true, .inl (last_gap some (by omega) two ends filled yMeets)⟩
    · exact ⟨false, .inr (last_gap some (by omega) two ends filled xMeets)⟩
  obtain ⟨memory, changed⟩ := changes second
  have others : ∀ cell : Cell, cell.component < width → cell.index ∈ Set.Iio n → 0 < cell.index →
      cellAddress (Operand.stride2 width (cellsFrom xStart)) (Operand.stride2 width (cellsFrom yStart)) cell ≠
        cellAddress (Operand.stride2 width (cellsFrom xStart)) (Operand.stride2 width (cellsFrom yStart))
          ⟨second, 0, 0⟩ :=
    fun cell small inside later => both_addresses (x := Operand.stride2 width (cellsFrom xStart))
      (y := Operand.stride2 width (cellsFrom yStart)) rfl (stride2_separate width xStart _)
      (stride2_separate width yStart _) disjoint cell ⟨second, 0, 0⟩ small some inside (show 0 < n by omega) (Nat.ne_of_gt later)
  have consecutive := stride2_plan_consecutive false lanes (evenBound n 2 1) n (Nat.le_of_lt half.2)
  rw [plan] at consecutive
  obtain ⟨middle, before, after⟩ := consecutive_split consecutive
  have walkable : ∀ start, Walkable (Operand.stride2 width (cellsFrom start)) (early ++ [last]) := by
    intro start
    rw [← plan]
    exact walkable_stride2 false lanes _ _ width _
  have early_fits : ∀ start, Walkable (Operand.stride2 width (cellsFrom start)) early :=
    fun start piece member => walkable start piece (List.mem_append_left _ member)
  have last_fits : ∀ start, last.Fits (Operand.stride2 width (cellsFrom start)) :=
    fun start => (walkable start last (List.mem_append_right _ List.mem_cons_self)).1
  have bounded : middle ≤ n := after.le
  have walk := walk_both (x := Operand.stride2 width (cellsFrom xStart)) (y := Operand.stride2 width (cellsFrom yStart))
    rule.first rule.second memory before (early_fits xStart) (early_fits yStart) (cells_from_injective xStart)
    (cells_from_injective yStart) rfl elementwise.first elementwise.second some (stride2_separate width xStart _)
    (stride2_separate width yStart _)
    (fun i j c d inside inside' => disjoint i j c d (inside.2.trans_le bounded) (inside'.2.trans_le bounded))
  have kept := walk.kept _ (fun cell member =>
    others cell member.1 (member.2.2.trans_le bounded) (Nat.lt_of_lt_of_le half.1 member.2.1))
  obtain ⟨final, finishes, lost⟩ := lost_update rule memory
    (fun t => bothStride2 false lanes width rule (cellsFrom xStart) (cellsFrom yStart) (t :: site)
      (evenBound n 2 t) (evenBound n 2 (t + 1))) early _
    (by change Program.eachItem (stride2Plan false lanes (evenBound n 2 1) (evenBound n 2 2)) _ = _; rw [finish, plan])
    kept (last_fits xStart) (last_fits yStart) (by omega) some some (cells_from_injective xStart)
    (cells_from_injective yStart) gap
    (fun index component small inside => others ⟨true, last.first + index, component⟩ inside
      (show last.first + index < n by omega) (show 0 < last.first + index by omega))
  have promised := (rewrites memory () final ⟨fun _ => (), final, finishes, rfl⟩).written ⟨second, 0, 0⟩
    ⟨some, show 0 < n by omega⟩
  exact changed (promised.symm.trans lost)

end Paired

end Zynum.LevelOne
