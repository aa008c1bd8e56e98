import Zynum.Vector.Walks

set_option autoImplicit false

/- The loops of every route as range tasks over one memory. -/
namespace Zynum.LevelOne

open ArrayProgram

variable {R : Type}

def cellsFrom (start cell : Nat) : Nat := start + cell

theorem cells_from_injective (start : Nat) : Function.Injective (cellsFrom start) :=
  fun _ _ same => Nat.add_left_cancel same

theorem unit_strided {α : Type} (width : Nat) (place : Nat → α) (n : Int) :
    Operand.strided width n 1 place = Operand.unit width place := by
  have cell : (fun i => width * ix (startIndex n 1) i 1) = fun i => width * i := by
    funext i
    rw [ix_unit]
  simp only [Operand.strided, Operand.unit, cell]

theorem ix_two (n : Int) (i : Nat) : ix (startIndex n 2) i 2 = 2 * i := by
  by_cases empty : n ≤ 0
  · simp only [ix, startIndex, empty, if_true]
    omega
  · simp only [ix, startIndex, empty, if_false, ge_iff_le, Int.zero_le_ofNat, if_true]
    omega

theorem stride2_strided {α : Type} (width : Nat) (place : Nat → α) (n : Int) :
    Operand.strided width n 2 place = Operand.stride2 width place := by
  have cell : (fun i => width * ix (startIndex n 2) i 2) = fun i => width * (2 * i) := by
    funext i
    rw [ix_two]
  simp only [Operand.strided, Operand.stride2, cell]

theorem cell_digits {width i j c d : Nat} (small : c < width) (small' : d < width)
    (same : width * i + c = width * j + d) : i = j ∧ c = d := by
  have some : 0 < width := Nat.zero_lt_of_lt small
  have quotient := congrArg (· / width) same
  simp only [Nat.mul_add_div some, Nat.div_eq_of_lt small, Nat.div_eq_of_lt small', Nat.add_zero] at quotient
  subst quotient
  exact ⟨rfl, Nat.add_left_cancel same⟩

theorem strided_separate (width start : Nat) (n inc : Int) (nonzero : inc ≠ 0) :
    (Operand.strided width n inc (cellsFrom start)).Separate (Set.Iio (toUsize n)) := by
  intro i j c d inside inside' small small' different same
  have offsets : width * ix (startIndex n inc) i inc + c = width * ix (startIndex n inc) j inc + d :=
    Nat.add_left_cancel same
  exact different (ix_injective n inc nonzero inside inside' (cell_digits small small' offsets).1)

theorem unit_separate (width start : Nat) (indices : Set Nat) :
    (Operand.unit width (cellsFrom start)).Separate indices := by
  intro i j c d _ _ small small' different same
  exact different (cell_digits small small' (Nat.add_left_cancel same)).1

theorem stride2_separate (width start : Nat) (indices : Set Nat) :
    (Operand.stride2 width (cellsFrom start)).Separate indices := by
  intro i j c d _ _ small small' different same
  have twice := (cell_digits small small' (Nat.add_left_cancel same)).1
  omega

theorem no_gaps {operand : Operand Nat} {piece : Piece} (single : piece.step = 1) : operand.gaps piece = ∅ := by
  ext place
  constructor
  · rintro ⟨lane, _, idle, _⟩
    rw [Piece.active, single, Nat.mod_one] at idle
    exact absurd idle (by decide)
  · exact fun member => absurd member (Set.notMem_empty place)

theorem stride2_gaps {width start : Nat} {piece : Piece} (two : piece.step = 2) (some : 0 < width) (place : Nat) :
    place ∈ (Operand.stride2 width (cellsFrom start)).gaps piece ↔
      ∃ i part, i ∈ piece.covers ∧ part < width ∧ place = start + (width * (2 * i) + width + part) := by
  have lanes : ∀ lane, lane = width * (2 * (lane / (2 * width))) + width * (lane / width % 2) + lane % width := by
    intro lane
    have outer := Nat.div_add_mod lane width
    have inner := Nat.div_add_mod (lane / width) 2
    have nested : lane / width / 2 = lane / (2 * width) := by rw [Nat.div_div_eq_div_mul, Nat.mul_comm]
    rw [nested] at inner
    calc lane = width * (lane / width) + lane % width := outer.symm
      _ = width * (2 * (lane / (2 * width)) + lane / width % 2) + lane % width := by rw [inner]
      _ = width * (2 * (lane / (2 * width))) + width * (lane / width % 2) + lane % width := by ring
  constructor
  · rintro ⟨lane, small, idle, rfl⟩
    have odd : lane / width % 2 = 1 := by
      have notEven : ¬ lane / width % 2 = 0 := by
        rw [Piece.active, two] at idle
        exact of_decide_eq_false idle
      omega
    have below : lane / (2 * width) < piece.count := by
      refine Nat.div_lt_of_lt_mul ?_
      rw [Nat.mul_comm]
      rw [Piece.size, two] at small
      exact small
    refine ⟨piece.first + lane / (2 * width), lane % width,
      ⟨Nat.le_add_right _ _, Nat.add_lt_add_left below _⟩, Nat.mod_lt _ some, ?_⟩
    have split := lanes lane
    rw [odd] at split
    change start + (width * (2 * piece.first) + lane) = _
    rw [Nat.mul_add 2, Nat.mul_add width]
    omega
  · rintro ⟨i, part, inside, small, rfl⟩
    obtain ⟨below, split⟩ := covered i inside
    have position : (i - piece.first) * (2 * width) + (width + part) < piece.count * (2 * width) := by
      have next : (i - piece.first + 1) * (2 * width) ≤ piece.count * (2 * width) := Nat.mul_le_mul_right _ below
      rw [Nat.succ_mul] at next
      omega
    refine ⟨(i - piece.first) * (2 * width) + (width + part), ?_, ?_, ?_⟩
    · rw [Piece.size, two]
      exact position
    · have quotient : ((i - piece.first) * (2 * width) + (width + part)) / width = 2 * (i - piece.first) + 1 := by
        have rearranged : (i - piece.first) * (2 * width) + (width + part) =
            width * (2 * (i - piece.first) + 1) + part := by ring
        rw [rearranged, Nat.mul_add_div some, Nat.div_eq_of_lt small, Nat.add_zero]
      rw [Piece.active]
      change decide (((i - piece.first) * (2 * width) + (width + part)) / width % piece.step = 0) = false
      rw [quotient, two]
      exact decide_eq_false (by omega)
    · change start + (width * (2 * piece.first) + ((i - piece.first) * (2 * width) + (width + part))) = _
      have rearranged : width * (2 * i) = width * (2 * piece.first) + (i - piece.first) * (2 * width) := by
        rw [← split, Nat.add_sub_cancel_left]
        ring
      rw [rearranged]
      omega

theorem unit_pieces_consecutive (machine : VectorMachine) (site : Site) (laneCounts : List Nat) (first last : Nat)
    (ordered : first ≤ last) : Consecutive (unitPieces machine site laneCounts first last) first last := by
  rw [unitPieces]
  cases answer : machine.kernel site (last - first) with
  | none => exact unit_plan_consecutive laneCounts first last ordered
  | some widths =>
    have whole := width_plan_consecutive widths first
    rw [machine.kernel_widths site _ widths answer, Nat.add_sub_cancel' ordered] at whole
    exact whole

theorem unit_pieces_step (machine : VectorMachine) (site : Site) (laneCounts : List Nat) (first last : Nat)
    (piece : Piece) (member : piece ∈ unitPieces machine site laneCounts first last) : piece.step = 1 := by
  rw [unitPieces] at member
  cases answer : machine.kernel site (last - first) with
  | none =>
    rw [answer] at member
    exact unit_plan_step laneCounts first last piece member
  | some widths =>
    rw [answer] at member
    exact width_plan_step widths first piece member

theorem walkable_unit {pieces : List Piece} (width : Nat) (place : Nat → Nat)
    (plain : ∀ piece, piece ∈ pieces → piece.step = 1) : Walkable (Operand.unit width place) pieces := by
  intro piece member
  have one := plain piece member
  exact ⟨fits_unit width place one, by omega⟩

theorem walkable_stride2 {α : Type} (strict : Bool) (lanes first last width : Nat) (place : Nat → α) :
    Walkable (Operand.stride2 width place) (stride2Plan strict lanes first last) :=
  fun piece member => stride2_plan_fits strict lanes first last width place piece member

theorem walkable_singles (operand : Operand Nat) (first last : Nat) : Walkable operand (singles first last) := by
  intro piece member
  obtain ⟨block, _, rfl⟩ := mem_blocks.mp member
  exact ⟨fits_single operand rfl, Nat.one_pos⟩

theorem singles_step (first last : Nat) (piece : Piece) (member : piece ∈ singles first last) : piece.step = 1 := by
  obtain ⟨block, _, rfl⟩ := mem_blocks.mp member
  rfl

theorem owned_inside {operand : Operand Nat} {pieces : List Piece} {first last : Nat}
    (consecutive : Consecutive pieces first last) (piece : Piece) (member : piece ∈ pieces) :
    operand.owned piece ⊆ (fun slot : Nat × Nat => operand.address slot.1 slot.2) ''
      {slot | slot.2 < operand.width ∧ slot.1 ∈ Set.Ico first last} := by
  rintro place ⟨i, c, inside, small, rfl⟩
  have bounds := consecutive.inside piece member
  have lower := inside.1
  have upper := inside.2
  exact ⟨(i, c), ⟨small, ⟨by omega, by omega⟩⟩, rfl⟩

theorem stride2_gap_free {width start : Nat} {strict : Bool} {lanes first last : Nat} (some : 0 < width) (piece : Piece)
    (member : piece ∈ stride2Plan strict lanes first last) (place : Nat)
    (gap : place ∈ (Operand.stride2 width (cellsFrom start)).gaps piece) (i c : Nat) (small : c < width) :
    (Operand.stride2 width (cellsFrom start)).address i c ≠ place := by
  rcases mem_stride2_plan member with ⟨block, _, rfl⟩ | ⟨_, single⟩
  · obtain ⟨j, part, _, bounded, rfl⟩ := (stride2_gaps rfl some place).mp gap
    intro same
    have offsets : width * (2 * i) + c = width * (2 * j) + width + part := Nat.add_left_cancel same
    have halves : width * (2 * i) + c = width * (2 * j + 1) + part := by rw [offsets]; ring
    have odd := (cell_digits small bounded halves).1
    omega
  · rw [no_gaps single] at gap
    exact absurd gap (Set.notMem_empty place)

section One

variable [CommRing R] {width start n : Nat} {apply : (Nat → R) → Nat → R}

def slotAddress (operand : Operand Nat) (slot : Nat × Nat) : Nat := operand.address slot.1 slot.2

def slotValue (apply : (Nat → R) → Nat → R) (operand : Operand Nat) (memory : Nat → R) (slot : Nat × Nat) : R :=
  apply (operand.element memory slot.1) slot.2

theorem one_task (operand : Operand Nat) (plan : Site → Nat → Nat → List Piece) (some : 0 < operand.width)
    (injective : Function.Injective operand.place) (elementwise : ElementMap operand.width apply)
    (separate : operand.Separate (Set.Iio n))
    (consecutive : ∀ site first last, first ≤ last → Consecutive (plan site first last) first last)
    (fits : ∀ site first last, Walkable operand (plan site first last))
    (gapFree : ∀ site first last piece place, piece ∈ plan site first last → place ∈ operand.gaps piece →
      ∀ i c, c < operand.width → operand.address i c ≠ place) :
    RangeTask (fun site first last => Program.eachItem (plan site first last) (updateOne apply operand)) Prod.fst
      (fun slot : Nat × Nat => slot.2 < operand.width) (slotAddress operand) (slotValue apply operand) n := by
  refine ⟨?_, ?_, ?_⟩
  · exact fun slot other small small' inside inside' different =>
      separate _ _ _ _ inside inside' small small' different
  · intro site first last ordered bounded memory
    exact walk_one apply memory (consecutive site first last ordered) (fits site first last) injective elementwise some
      (fun i j c d inside inside' => separate i j c d (inside.2.trans_le bounded) (inside'.2.trans_le bounded))
  · intro site first last ordered bounded memory
    refine respects_items _ _ memory (fun piece current member => ?_)
    refine respects_update_one apply current (fits site first last piece member).1 some injective
      (owned_inside (consecutive site first last ordered) piece member) ?_
    intro place gap
    exact .inr (fun slot small _ => gapFree site first last piece place member gap slot.1 slot.2 small)

theorem update_unit_task (start n : Nat) (machine : VectorMachine) (laneCounts : List Nat) (some : 0 < width)
    (elementwise : ElementMap width apply) :
    RangeTask (updateUnit machine width laneCounts apply (cellsFrom start)) Prod.fst (fun slot => slot.2 < width)
      (slotAddress (Operand.unit width (cellsFrom start))) (slotValue apply (Operand.unit width (cellsFrom start))) n :=
  one_task (Operand.unit width (cellsFrom start)) (unitPieces machine · laneCounts) some
    (cells_from_injective start) elementwise (unit_separate width start _)
    (fun site first last ordered => unit_pieces_consecutive machine site laneCounts first last ordered)
    (fun site first last => walkable_unit width _ (unit_pieces_step machine site laneCounts first last))
    (fun site first last piece place member gap => by
      rw [no_gaps (unit_pieces_step machine site laneCounts first last piece member)] at gap
      exact absurd gap (Set.notMem_empty place))

theorem update_stride2_task (start n : Nat) (strict : Bool) (lanes : Nat) (some : 0 < width) (elementwise : ElementMap width apply) :
    RangeTask (updateStride2 strict lanes width apply (cellsFrom start)) Prod.fst (fun slot => slot.2 < width)
      (slotAddress (Operand.stride2 width (cellsFrom start))) (slotValue apply (Operand.stride2 width (cellsFrom start))) n :=
  one_task (Operand.stride2 width (cellsFrom start)) (fun _ => stride2Plan strict lanes) some
    (cells_from_injective start) elementwise (stride2_separate width start _)
    (fun _ first last ordered => stride2_plan_consecutive strict lanes first last ordered)
    (fun _ first last => walkable_stride2 strict lanes first last width _)
    (fun _ _ _ piece place member gap i c small => stride2_gap_free some piece member place gap i c small)

end One

section Second

variable [CommRing R] {width xStart yStart n : Nat} {apply : (Nat → R) → (Nat → R) → Nat → R}

omit [CommRing R] in
theorem aligned_reads {x y : Operand Nat} {pieces : List Piece} {first last : Nat}
    (aligned : Aligned x y (Set.Iio n)) (consecutive : Consecutive pieces first last) (bounded : last ≤ n) (piece : Piece)
    (member : piece ∈ pieces) :
    x.owned piece ⊆ (fun slot : Nat × Nat => y.address slot.1 slot.2) ''
        {slot | slot.2 < y.width ∧ slot.1 ∈ Set.Ico first last} ∪
      {place | ∀ slot : Nat × Nat, slot.2 < y.width → slot.1 ∈ Set.Iio n → y.address slot.1 slot.2 ≠ place} := by
  rintro place ⟨i, c, here, small, rfl⟩
  have bounds := consecutive.inside piece member
  have lower := here.1
  have upper := here.2
  by_cases shared : ∃ slot : Nat × Nat, slot.2 < y.width ∧ slot.1 ∈ Set.Iio n ∧ y.address slot.1 slot.2 = x.address i c
  · obtain ⟨slot, bounded', inside, same⟩ := shared
    obtain ⟨rfl, rfl⟩ := aligned i slot.1 c slot.2 (show i < n by omega) inside small bounded' same.symm
    exact .inl ⟨slot, ⟨bounded', ⟨by omega, by omega⟩⟩, same⟩
  · exact .inr (fun slot small' inside same => shared ⟨slot, small', inside, same⟩)

def pairValue (apply : (Nat → R) → (Nat → R) → Nat → R) (x y : Operand Nat) (memory : Nat → R) (slot : Nat × Nat) : R :=
  apply (x.element memory slot.1) (y.element memory slot.1) slot.2

theorem second_task {x y : Operand Nat} (plan : Site → Nat → Nat → List Piece) (some : 0 < y.width)
    (sameWidth : x.width = y.width) (injective : Function.Injective y.place) (elementwise : PairMap y.width apply)
    (separate : y.Separate (Set.Iio n)) (aligned : Aligned x y (Set.Iio n))
    (consecutive : ∀ site first last, first ≤ last → Consecutive (plan site first last) first last)
    (fitsX : ∀ site first last, Walkable x (plan site first last))
    (fitsY : ∀ site first last, Walkable y (plan site first last))
    (gapFree : ∀ site first last piece place, piece ∈ plan site first last → place ∈ y.gaps piece →
      ∀ i c, c < y.width → y.address i c ≠ place) :
    RangeTask (fun site first last => Program.eachItem (plan site first last) (updateSecond apply x y)) Prod.fst
      (fun slot : Nat × Nat => slot.2 < y.width) (slotAddress y) (pairValue apply x y) n := by
  refine ⟨?_, ?_, ?_⟩
  · exact fun slot other small small' inside inside' different =>
      separate _ _ _ _ inside inside' small small' different
  · intro site first last ordered bounded memory
    have inside : ∀ i, i ∈ Set.Ico first last → i ∈ Set.Iio n := fun i here => here.2.trans_le bounded
    exact walk_second apply memory (consecutive site first last ordered) (fitsX site first last) (fitsY site first last)
      injective sameWidth elementwise some (fun i j c d here there => separate i j c d (inside i here) (inside j there))
      (fun i j c d here there => aligned i j c d (inside i here) (inside j there))
  · intro site first last ordered bounded memory
    refine respects_items _ _ memory (fun piece current member => ?_)
    refine respects_update_second apply current (fitsX site first last piece member).1
      (fitsY site first last piece member).1 (sameWidth ▸ some) some injective
      (aligned_reads aligned (consecutive site first last ordered) bounded piece member)
      (owned_inside (consecutive site first last ordered) piece member) ?_
    · intro place gap
      exact .inr (fun slot small _ => gapFree site first last piece place member gap slot.1 slot.2 small)

theorem copy_task {x y : Operand Nat} (plan : Site → Nat → Nat → List Piece) (some : 0 < y.width)
    (sameWidth : x.width = y.width) (injective : Function.Injective y.place)
    (separate : y.Separate (Set.Iio n)) (aligned : Aligned x y (Set.Iio n))
    (consecutive : ∀ site first last, first ≤ last → Consecutive (plan site first last) first last)
    (fitsX : ∀ site first last, Walkable x (plan site first last))
    (fitsY : ∀ site first last, Walkable y (plan site first last))
    (plain : ∀ site first last piece, piece ∈ plan site first last → piece.step = 1) :
    RangeTask (fun site first last => Program.eachItem (plan site first last) (copyBlock x y)) Prod.fst
      (fun slot : Nat × Nat => slot.2 < y.width) (slotAddress y)
      (fun (memory : Nat → R) slot => x.element memory slot.1 slot.2) n := by
  refine ⟨?_, ?_, ?_⟩
  · exact fun slot other small small' inside inside' different =>
      separate _ _ _ _ inside inside' small small' different
  · intro site first last ordered bounded memory
    have inside : ∀ i, i ∈ Set.Ico first last → i ∈ Set.Iio n := fun i here => here.2.trans_le bounded
    exact walk_copy memory (consecutive site first last ordered) (fitsX site first last) (fitsY site first last)
      (plain site first last) injective sameWidth
      (fun i j c d here there => separate i j c d (inside i here) (inside j there))
      (fun i j c d here there => aligned i j c d (inside i here) (inside j there))
  · intro site first last ordered bounded memory
    refine respects_items _ _ memory (fun piece current member => ?_)
    have single := plain site first last piece member
    refine respects_copy_block current (fitsX site first last piece member).1 (fitsY site first last piece member).1
      (sameWidth ▸ some) some injective
      (aligned_reads aligned (consecutive site first last ordered) bounded piece member) ?_
      (owned_inside (consecutive site first last ordered) piece member) ?_
    · rw [no_gaps single]
      exact Set.empty_subset _
    · rw [no_gaps single]
      exact Set.empty_subset _

theorem second_unit_task (machine : VectorMachine) (laneCounts : List Nat) (some : 0 < width)
    (elementwise : PairMap width apply)
    (aligned : Aligned (Operand.unit width (cellsFrom xStart)) (Operand.unit width (cellsFrom yStart)) (Set.Iio n)) :
    RangeTask (secondUnit machine width laneCounts apply (cellsFrom xStart) (cellsFrom yStart)) Prod.fst
      (fun slot => slot.2 < width) (slotAddress (Operand.unit width (cellsFrom yStart)))
      (pairValue apply (Operand.unit width (cellsFrom xStart)) (Operand.unit width (cellsFrom yStart))) n :=
  second_task (x := Operand.unit width (cellsFrom xStart)) (y := Operand.unit width (cellsFrom yStart))
    (unitPieces machine · laneCounts) some rfl (cells_from_injective yStart) elementwise (unit_separate width yStart _)
    aligned (fun site first last ordered => unit_pieces_consecutive machine site laneCounts first last ordered)
    (fun site first last => walkable_unit width _ (unit_pieces_step machine site laneCounts first last))
    (fun site first last => walkable_unit width _ (unit_pieces_step machine site laneCounts first last))
    (fun site first last piece place member gap => by
      rw [no_gaps (unit_pieces_step machine site laneCounts first last piece member)] at gap
      exact absurd gap (Set.notMem_empty place))

theorem second_stride2_task (strict : Bool) (lanes : Nat) (some : 0 < width) (elementwise : PairMap width apply)
    (aligned : Aligned (Operand.stride2 width (cellsFrom xStart)) (Operand.stride2 width (cellsFrom yStart))
      (Set.Iio n)) :
    RangeTask (secondStride2 strict lanes width apply (cellsFrom xStart) (cellsFrom yStart)) Prod.fst
      (fun slot => slot.2 < width) (slotAddress (Operand.stride2 width (cellsFrom yStart)))
      (pairValue apply (Operand.stride2 width (cellsFrom xStart)) (Operand.stride2 width (cellsFrom yStart))) n :=
  second_task (x := Operand.stride2 width (cellsFrom xStart)) (y := Operand.stride2 width (cellsFrom yStart))
    (fun _ => stride2Plan strict lanes) some rfl (cells_from_injective yStart) elementwise
    (stride2_separate width yStart _) aligned
    (fun _ first last ordered => stride2_plan_consecutive strict lanes first last ordered)
    (fun _ first last => walkable_stride2 strict lanes first last width _)
    (fun _ first last => walkable_stride2 strict lanes first last width _)
    (fun _ _ _ piece place member gap i c small => stride2_gap_free some piece member place gap i c small)

end Second

section Both

variable [CommRing R] {width xStart yStart n : Nat} {rule : PairRule R}

structure PairMaps (width : Nat) (rule : PairRule R) : Prop where
  first : PairMap width rule.first
  second : PairMap width rule.second

def ruleValue (rule : PairRule R) (x y : Operand Nat) (memory : Nat → R) (cell : Cell) : R :=
  if cell.second then rule.second (x.element memory cell.index) (y.element memory cell.index) cell.component
  else rule.first (x.element memory cell.index) (y.element memory cell.index) cell.component

omit [CommRing R] in
theorem both_value_fresh {x y : Operand Nat} {stale : Cell → Prop} {memory : Nat → R} {cell : Cell}
    (fresh : ¬ stale cell) : bothValue rule.first rule.second x y stale memory cell = ruleValue rule x y memory cell := by
  rw [bothValue, ruleValue, if_neg fresh]

theorem both_addresses {x y : Operand Nat} (sameWidth : x.width = y.width) (separateX : x.Separate (Set.Iio n))
    (separateY : y.Separate (Set.Iio n)) (disjoint : Disjoint2 x y (Set.Iio n)) (cell other : Cell)
    (small : cell.component < y.width) (small' : other.component < y.width) (inside : cell.index ∈ Set.Iio n)
    (inside' : other.index ∈ Set.Iio n) (different : cell.index ≠ other.index) :
    cellAddress x y cell ≠ cellAddress x y other := by
  obtain ⟨second, i, c⟩ := cell
  obtain ⟨second', j, d⟩ := other
  cases second with
  | true =>
    cases second' with
    | true => exact separateY i j c d inside inside' small small' different
    | false => exact (disjoint j i d c inside' inside (sameWidth ▸ small') small).symm
  | false =>
    cases second' with
    | true => exact disjoint i j c d inside inside' (sameWidth ▸ small) small'
    | false => exact separateX i j c d inside inside' (sameWidth ▸ small) (sameWidth ▸ small') different

-- Gaps that hold no live element of either vector.
def GapsFree (x y : Operand Nat) (n : Nat) (pieces : List Piece) : Prop :=
  ∀ piece place, piece ∈ pieces → place ∈ x.gaps piece ∪ y.gaps piece →
    ∀ cell : Cell, cell.component < y.width → cell.index ∈ Set.Iio n → cellAddress x y cell ≠ place

theorem respects_both {x y : Operand Nat} {pieces : List Piece} {first last : Nat} (memory : Nat → R)
    (consecutive : Consecutive pieces first last) (bounded : last ≤ n) (fitsX : Walkable x pieces)
    (fitsY : Walkable y pieces) (some : 0 < y.width) (sameWidth : x.width = y.width)
    (injectiveX : Function.Injective x.place) (injectiveY : Function.Injective y.place) (free : GapsFree x y n pieces) :
    (Program.eachItem pieces (updateBoth rule.first rule.second x y)).Respects
      (cellAddress x y '' {cell | cell.component < y.width ∧ cell.index ∈ Set.Ico first last})
      {place | ∀ cell : Cell, cell.component < y.width → cell.index ∈ Set.Iio n → cellAddress x y cell ≠ place} memory := by
  refine respects_items _ _ memory (fun piece current member => ?_)
  have bounds := consecutive.inside piece member
  have inside : ∀ i, i ∈ piece.covers → i ∈ Set.Ico first last := by
    intro i here
    have lower := here.1
    have upper := here.2
    exact ⟨by omega, by omega⟩
  refine respects_update_both _ _ current (fitsX piece member).1 (fitsY piece member).1 (fitsY piece member).2
    (sameWidth ▸ some) some injectiveX injectiveY ?_ ?_ ?_ ?_ ?_
  · rw [Set.disjoint_left]
    rintro place ⟨cell, ⟨small, here⟩, rfl⟩ outside
    exact outside cell small (here.2.trans_le bounded) rfl
  · rintro place ⟨i, c, here, small, rfl⟩
    exact ⟨⟨false, i, c⟩, ⟨sameWidth ▸ small, inside i here⟩, rfl⟩
  · rintro place ⟨i, c, here, small, rfl⟩
    exact ⟨⟨true, i, c⟩, ⟨small, inside i here⟩, rfl⟩
  · exact fun place gap => .inr (free piece place member (.inl gap))
  · exact fun place gap => .inr (free piece place member (.inr gap))

theorem both_alone {x y : Operand Nat} {pieces : List Piece} {first last : Nat} (some : 0 < y.width)
    (sameWidth : x.width = y.width) (injectiveX : Function.Injective x.place) (injectiveY : Function.Injective y.place)
    (elementwise : PairMaps y.width rule) (separateX : x.Separate (Set.Iio n)) (separateY : y.Separate (Set.Iio n))
    (disjoint : Disjoint2 x y (Set.Iio n)) (bounded : last ≤ n) (consecutive : Consecutive pieces first last)
    (fitsX : Walkable x pieces) (fitsY : Walkable y pieces) (free : GapsFree x y n pieces) (memory : Nat → R) :
    Overwrites {cell | cell.component < y.width ∧ cell.index ∈ Set.Ico first last} (cellAddress x y)
      (ruleValue rule x y memory) memory
      ((Program.eachItem pieces (updateBoth rule.first rule.second x y)).run memory).2 := by
  have inside : ∀ i, i ∈ Set.Ico first last → i ∈ Set.Iio n := fun i here => here.2.trans_le bounded
  have walk := walk_both rule.first rule.second memory consecutive fitsX fitsY injectiveX injectiveY sameWidth
    elementwise.first elementwise.second some
    (fun i j c d here there => separateX i j c d (inside i here) (inside j there))
    (fun i j c d here there => separateY i j c d (inside i here) (inside j there))
    (fun i j c d here there => disjoint i j c d (inside i here) (inside j there))
  refine walk.congr (fun cell member => both_value_fresh ?_)
  rintro ⟨piece, inPlan, _, gap⟩
  exact free piece _ inPlan (.inr gap) cell member.1 (inside _ member.2) rfl

theorem both_task (rule : PairRule R) {x y : Operand Nat} (plan : Site → Nat → Nat → List Piece) (some : 0 < y.width)
    (sameWidth : x.width = y.width) (injectiveX : Function.Injective x.place) (injectiveY : Function.Injective y.place)
    (elementwise : PairMaps y.width rule) (separateX : x.Separate (Set.Iio n)) (separateY : y.Separate (Set.Iio n))
    (disjoint : Disjoint2 x y (Set.Iio n))
    (consecutive : ∀ site first last, first ≤ last → Consecutive (plan site first last) first last)
    (fitsX : ∀ site first last, Walkable x (plan site first last))
    (fitsY : ∀ site first last, Walkable y (plan site first last))
    (free : ∀ site first last, first ≤ last → last ≤ n → GapsFree x y n (plan site first last)) :
    RangeTask (fun site first last => Program.eachItem (plan site first last) (updateBoth rule.first rule.second x y))
      Cell.index (fun cell => cell.component < y.width) (cellAddress x y) (ruleValue rule x y) n := by
  refine ⟨?_, ?_, ?_⟩
  · exact fun cell other small small' inside inside' different =>
      both_addresses sameWidth separateX separateY disjoint cell other small small' inside inside' different
  · exact fun site first last ordered bounded memory =>
      both_alone some sameWidth injectiveX injectiveY elementwise separateX separateY disjoint bounded
        (consecutive site first last ordered) (fitsX site first last) (fitsY site first last)
        (free site first last ordered bounded) memory
  · exact fun site first last ordered bounded memory =>
      respects_both memory (consecutive site first last ordered) bounded (fitsX site first last) (fitsY site first last)
        some sameWidth injectiveX injectiveY (free site first last ordered bounded)

theorem both_unit_task (machine : VectorMachine) (laneCounts : List Nat) (some : 0 < width)
    (elementwise : PairMaps width rule)
    (disjoint : Disjoint2 (Operand.unit width (cellsFrom xStart)) (Operand.unit width (cellsFrom yStart)) (Set.Iio n)) :
    RangeTask (bothUnit machine width laneCounts rule (cellsFrom xStart) (cellsFrom yStart)) Cell.index
      (fun cell => cell.component < width)
      (cellAddress (Operand.unit width (cellsFrom xStart)) (Operand.unit width (cellsFrom yStart)))
      (ruleValue rule (Operand.unit width (cellsFrom xStart)) (Operand.unit width (cellsFrom yStart))) n :=
  both_task rule (x := Operand.unit width (cellsFrom xStart)) (y := Operand.unit width (cellsFrom yStart))
    (unitPieces machine · laneCounts) some rfl (cells_from_injective xStart) (cells_from_injective yStart) elementwise
    (unit_separate width xStart _) (unit_separate width yStart _) disjoint
    (fun site first last ordered => unit_pieces_consecutive machine site laneCounts first last ordered)
    (fun site first last => walkable_unit width _ (unit_pieces_step machine site laneCounts first last))
    (fun site first last => walkable_unit width _ (unit_pieces_step machine site laneCounts first last))
    (fun site first last _ _ piece place member gap => by
      have single := unit_pieces_step machine site laneCounts first last piece member
      rw [no_gaps single, no_gaps single, Set.empty_union] at gap
      exact absurd gap (Set.notMem_empty place))

end Both

end Zynum.LevelOne
