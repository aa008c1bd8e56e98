import Zynum.Vector.RouteTasks

set_option autoImplicit false

/- Two stride-2 vectors side by side: the one block that ends with the vector
   reaches one gap element past its last logical element, and that gap may hold
   the first element of the other vector. -/
namespace Zynum.LevelOne

open ArrayProgram

variable {R : Type}

-- The second vector starts in the gap behind the last element of the first.
def StartsInGap (width n first second : Nat) : Prop :=
  first + width * (2 * n - 1) ≤ second ∧ second < first + width * (2 * n)

-- Neither vector starts before the other's last element has ended.
def SpansApart (width n first second : Nat) : Prop :=
  first + width * (2 * n - 1) ≤ second ∨ second + width * (2 * n - 1) ≤ first

theorem ranges_apart {xStart yStart count : Nat} (some : 0 < count)
    (apart : rangesOverlap xStart yStart count = false) : xStart + count ≤ yStart ∨ yStart + count ≤ xStart := by
  rw [rangesOverlap, if_neg (by omega)] at apart
  split at apart
  · exact nomatch apart
  · split at apart
    · have far := of_decide_eq_false apart
      omega
    · have far := of_decide_eq_false apart
      omega

theorem apart_ranges {xStart yStart count : Nat} (some : 0 < count)
    (apart : xStart + count ≤ yStart ∨ yStart + count ≤ xStart) : rangesOverlap xStart yStart count = false := by
  rw [rangesOverlap, if_neg (by omega), if_neg (by omega)]
  split
  · exact decide_eq_false (by omega)
  · exact decide_eq_false (by omega)

theorem chunk_gap {width start lanes first last : Nat} {strict : Bool} (some : 0 < width) (ordered : first ≤ last)
    (piece : Piece) (member : piece ∈ stride2Plan strict lanes first last) (place : Nat)
    (gap : place ∈ (Operand.stride2 width (cellsFrom start)).gaps piece) :
    ∃ i part, i ∈ piece.covers ∧ part < width ∧ place = start + (width * (2 * i) + width + part) ∧ i < last ∧
      (i + 1 = last → strict = false ∧ lanes ∣ last - first ∧ piece.first + piece.count = last ∧ piece.count = lanes) := by
  have bounds := (stride2_plan_consecutive strict lanes first last ordered).inside piece member
  rcases mem_stride2_plan member with ⟨block, small, rfl⟩ | ⟨_, single⟩
  · obtain ⟨i, part, here, bounded, same⟩ := (stride2_gaps rfl some place).mp gap
    have lower : first + block * lanes ≤ i := here.1
    have upper : i < first + block * lanes + lanes := here.2
    have top : first + block * lanes + lanes ≤ last := bounds.2
    refine ⟨i, part, here, bounded, same, by omega, fun final => ?_⟩
    have next : (block + 1) * lanes ≤ stride2Blocks strict lanes (last - first) * lanes := Nat.mul_le_mul_right _ small
    rw [Nat.succ_mul] at next
    cases strict with
    | true =>
      have fewer : stride2Blocks true lanes (last - first) * lanes ≤ last - first - 1 := Nat.div_mul_le_self _ lanes
      omega
    | false =>
      have fits : stride2Blocks false lanes (last - first) * lanes ≤ last - first := Nat.div_mul_le_self _ lanes
      have whole : (block + 1) * lanes = last - first := by
        rw [Nat.succ_mul]
        omega
      refine ⟨rfl, ⟨block + 1, ?_⟩, ?_, rfl⟩
      · rw [Nat.mul_comm]
        exact whole.symm
      · change first + block * lanes + lanes = last
        omega
  · rw [no_gaps single] at gap
    exact absurd gap (Set.notMem_empty place)

theorem cells_before (width : Nat) {i j : Nat} (below : i < j) : width * (2 * i) + 2 * width ≤ width * (2 * j) := by
  have next : width * (2 * (i + 1)) ≤ width * (2 * j) := Nat.mul_le_mul_left width (by omega)
  have split : width * (2 * (i + 1)) = width * (2 * i) + 2 * width := by ring
  omega

theorem span_cells (width n : Nat) (some : 0 < n) : width * (2 * n - 1) = width * (2 * (n - 1)) + width := by
  obtain ⟨k, rfl⟩ : ∃ k, n = k + 1 := ⟨n - 1, by omega⟩
  have last : 2 * (k + 1) - 1 = 2 * k + 1 := by omega
  rw [last, Nat.add_sub_cancel, Nat.mul_succ]

theorem whole_cells (width n : Nat) (some : 0 < n) : width * (2 * n) = width * (2 * (n - 1)) + 2 * width := by
  obtain ⟨k, rfl⟩ : ∃ k, n = k + 1 := ⟨n - 1, by omega⟩
  rw [Nat.add_sub_cancel]
  ring

theorem gap_meets_element {width n first second i part j d : Nat} (apart : SpansApart width n first second)
    (bounded : i < n) (small : part < width) (inside : j < n) (small' : d < width)
    (same : first + (width * (2 * i) + width + part) = second + (width * (2 * j) + d)) :
    i + 1 = n ∧ j = 0 ∧ StartsInGap width n first second := by
  have span := span_cells width n (by omega)
  have whole := whole_cells width n (by omega)
  have lastI : width * (2 * i) ≤ width * (2 * (n - 1)) := Nat.mul_le_mul_left width (by omega)
  have lastJ : width * (2 * j) ≤ width * (2 * (n - 1)) := Nat.mul_le_mul_left width (by omega)
  rcases apart with behind | before
  · have final : i + 1 = n := by
      by_contra earlier
      have step := cells_before width (show i < n - 1 by omega)
      omega
    refine ⟨final, ?_, behind, by omega⟩
    by_contra later
    have step := cells_before width (show 0 < j by omega)
    omega
  · omega

theorem strided_gaps_free {width xStart yStart n lanes first last : Nat} {strict : Bool} (some : 0 < width)
    (apart : SpansApart width n xStart yStart) (ordered : first ≤ last) (bounded : last ≤ n)
    (clear : last = n → strict = false → lanes ∣ n - first →
      ¬ (StartsInGap width n xStart yStart ∨ StartsInGap width n yStart xStart)) :
    GapsFree (Operand.stride2 width (cellsFrom xStart)) (Operand.stride2 width (cellsFrom yStart)) n
      (stride2Plan strict lanes first last) := by
  have crossed : ∀ gapStart otherStart, SpansApart width n gapStart otherStart →
      (StartsInGap width n gapStart otherStart →
        StartsInGap width n xStart yStart ∨ StartsInGap width n yStart xStart) →
      ∀ piece place, piece ∈ stride2Plan strict lanes first last →
      place ∈ (Operand.stride2 width (cellsFrom gapStart)).gaps piece → ∀ j d, d < width → j < n →
      (Operand.stride2 width (cellsFrom otherStart)).address j d ≠ place := by
    intro gapStart otherStart spans starts piece place member gap j d small inside same
    obtain ⟨i, part, _, bounded', rfl, below, final⟩ := chunk_gap some ordered piece member place gap
    obtain ⟨atEnd, _, meets⟩ := gap_meets_element spans (by omega) bounded' inside small same.symm
    have lastIs : last = n := by omega
    obtain ⟨loose, divides, _, _⟩ := final (by omega)
    exact clear lastIs loose (lastIs ▸ divides) (starts meets)
  rintro piece place member gap ⟨second, j, d⟩ small inside
  rcases gap with gapX | gapY
  · cases second with
    | false => exact stride2_gap_free some piece member place gapX j d small
    | true => exact crossed xStart yStart apart .inl piece place member gapX j d small inside
  · cases second with
    | false => exact crossed yStart xStart apart.symm .inr piece place member gapY j d small inside
    | true => exact stride2_gap_free some piece member place gapY j d small

-- On one thread only a vector of a single block can meet its stale gap again.
theorem stale_serial {width xStart yStart n lanes : Nat} (some : 0 < width) (apart : SpansApart width n xStart yStart)
    (cell : Cell) (small : cell.component < width) (inside : cell.index ∈ Set.Iio n) (first : cell.second = false)
    (stale : Stale (Operand.stride2 width (cellsFrom xStart)) (Operand.stride2 width (cellsFrom yStart))
      (stride2Plan false lanes 0 n) cell) : StartsInGap width n yStart xStart ∧ lanes = n := by
  obtain ⟨second, j, d⟩ := cell
  have side : second = false := first
  subst side
  obtain ⟨piece, member, here, gap⟩ := stale
  obtain ⟨i, part, there, bounded, same, below, final⟩ := chunk_gap some (Nat.zero_le n) piece member _ gap
  obtain ⟨atEnd, atStart, meets⟩ := gap_meets_element apart.symm below bounded inside small same.symm
  obtain ⟨_, _, ends, counts⟩ := final atEnd
  have zero : j = 0 := atStart
  have lower : piece.first ≤ j := here.1
  exact ⟨meets, by omega⟩

theorem serial_stale {width xStart yStart n lanes : Nat} (some : 0 < width) (several : 0 < n) (whole : lanes = n)
    (starts : StartsInGap width n yStart xStart) :
    Stale (Operand.stride2 width (cellsFrom xStart)) (Operand.stride2 width (cellsFrom yStart))
      (stride2Plan false lanes 0 n) ⟨false, 0, 0⟩ := by
  have one : stride2Blocks false lanes (n - 0) = 1 := by
    rw [stride2Blocks, whole, Nat.sub_zero]
    exact Nat.div_self several
  have member : (⟨0, lanes, 2⟩ : Piece) ∈ stride2Plan false lanes 0 n := by
    refine List.mem_append_left _ (mem_blocks.mpr ⟨0, by omega, ?_⟩)
    rw [Nat.zero_mul]
  refine ⟨_, member, ⟨Nat.le_refl 0, by change 0 < 0 + lanes; omega⟩, ?_⟩
  have span := span_cells width n several
  have cells := whole_cells width n several
  obtain ⟨behind, before⟩ := starts
  refine (stride2_gaps rfl some _).mpr
    ⟨n - 1, xStart - (yStart + width * (2 * n - 1)), ⟨Nat.zero_le _, by change n - 1 < 0 + lanes; omega⟩, by omega, ?_⟩
  change xStart + (width * (2 * 0) + 0) = _
  omega

/- Two tasks: while the second holds the last block, the first updates the
   element in that block's gap. -/
section LostUpdate

theorem last_block {lanes first n : Nat} (some : first < n) (divides : lanes ∣ n - first) :
    ∃ early last, stride2Plan false lanes first n = early ++ [last] ∧ last.step = 2 ∧ first ≤ last.first ∧
      last.first + last.count = n ∧ 0 < last.count := by
  obtain ⟨blockCount, split⟩ := divides
  have lanesPositive : 0 < lanes := by
    rcases Nat.eq_zero_or_pos lanes with none | positive
    · rw [none, Nat.zero_mul] at split
      omega
    · exact positive
  obtain ⟨before, rfl⟩ : ∃ before, blockCount = before + 1 := by
    refine ⟨blockCount - 1, ?_⟩
    rcases Nat.eq_zero_or_pos blockCount with none | positive
    · rw [none, Nat.mul_zero] at split
      omega
    · omega
  have counted : stride2Blocks false lanes (n - first) = before + 1 := by
    rw [stride2Blocks, split]
    exact Nat.mul_div_cancel_left _ lanesPositive
  have whole : (before + 1) * lanes = n - first := by rw [Nat.mul_comm, ← split]
  refine ⟨blocks before lanes 2 first, ⟨first + before * lanes, lanes, 2⟩, ?_, rfl, Nat.le_add_right _ _, ?_, lanesPositive⟩
  · have rest : singles (first + (before + 1) * lanes) n = [] := by
      have none : n - (first + (before + 1) * lanes) = 0 := by omega
      rw [singles, none]
      rfl
    rw [stride2Plan, counted, rest, List.append_nil, blocks, List.range_succ, List.map_append]
    rfl
  · rw [Nat.succ_mul] at whole
    change first + before * lanes + lanes = n
    omega

variable [Zero R] {x y : Operand Nat} {piece : Piece}

-- What is left of updateBoth once both blocks are loaded.
def storeBoth (rule : PairRule R) (x y : Operand Nat) (piece : Piece) (xb yb : Nat → R) : Program Nat R Unit :=
  (storeBlock x piece xb (fun i => rule.first (piece.element x.width xb i) (piece.element y.width yb i))).bind
    (fun _ => storeBlock y piece yb (fun i => rule.second (piece.element x.width xb i) (piece.element y.width yb i)))

theorem update_both_loads (rule : PairRule R) : updateBoth rule.first rule.second x y piece =
    (loadBlock x piece).bind (fun xb => (loadBlock y piece).bind (storeBoth rule x y piece xb)) := rfl

-- Whatever happened since the block was loaded, its gaps get the loaded values back.
theorem stores_restore (rule : PairRule R) (held memory : Nat → R) (place : Nat) (fitsX : piece.Fits x)
    (fitsY : piece.Fits y) (stepped : 0 < piece.step) (someX : 0 < x.width) (someY : 0 < y.width)
    (injectiveX : Function.Injective x.place) (injectiveY : Function.Injective y.place)
    (gap : place ∈ x.gaps piece ∪ y.gaps piece)
    (outsideY : ∀ index component, index < piece.count → component < y.width →
      y.address (piece.first + index) component ≠ place) :
    ((storeBoth rule x y piece ((loadBlock x piece).run held).1 ((loadBlock y piece).run held).1).run memory).2 place =
      held place := by
  have storedX := run_store_block fitsX stepped someX injectiveX ((loadBlock x piece).run held).1
    (fun i => rule.first (piece.element x.width ((loadBlock x piece).run held).1 i)
      (piece.element y.width ((loadBlock y piece).run held).1 i)) held memory (load_block_lanes held)
  rw [storeBoth, Program.run_bind]
  generalize ((storeBlock x piece ((loadBlock x piece).run held).1 _).run memory).2 = between at storedX ⊢
  have storedY := run_store_block fitsY stepped someY injectiveY ((loadBlock y piece).run held).1
    (fun i => rule.second (piece.element x.width ((loadBlock x piece).run held).1 i)
      (piece.element y.width ((loadBlock y piece).run held).1 i)) held between (load_block_lanes held)
  by_cases inY : place ∈ y.gaps piece
  · exact storedY.2.1 place inY
  · rcases gap with inX | inY'
    · rw [storedY.2.2 place inY outsideY]
      exact storedX.2.1 place inX
    · exact absurd inY' inY

theorem lost_update (rule : PairRule R) (memory : Nat → R) (tasks : Nat → Program Nat R Unit) (early : List Piece)
    (place : Nat)
    (second : tasks 1 = Program.eachItem (early ++ [piece]) (updateBoth rule.first rule.second x y))
    (kept : ((Program.eachItem early (updateBoth rule.first rule.second x y)).run memory).2 place = memory place)
    (fitsX : piece.Fits x) (fitsY : piece.Fits y) (stepped : 0 < piece.step) (someX : 0 < x.width) (someY : 0 < y.width)
    (injectiveX : Function.Injective x.place) (injectiveY : Function.Injective y.place)
    (gap : place ∈ x.gaps piece ∪ y.gaps piece)
    (outsideY : ∀ index component, index < piece.count → component < y.width →
      y.address (piece.first + index) component ≠ place) :
    ∃ final, Pool.Finishes 2 tasks memory (fun _ => ()) final ∧ final place = memory place := by
  generalize before : ((Program.eachItem early (updateBoth rule.first rule.second x y)).run memory).2 = held at kept
  have loadedX : ((loadBlock x piece).run held).2 = held := by rw [loadBlock, run_load_cells]
  have loadedY : ((loadBlock y piece).run held).2 = held := by rw [loadBlock, run_load_cells]
  -- the second task runs up to the loads of its last block
  rw [Program.each_item_append, Program.each_item_single] at second
  have start := Pool.run_alone 2 1 (by omega) tasks Unit _ _ memory second
  rw [before, update_both_loads] at start
  have readX := Pool.run_alone 2 1 (by omega) _ (Nat → R) (loadBlock x piece)
    (fun xb => (loadBlock y piece).bind (storeBoth rule x y piece xb)) held
    (Function.update_self 1 _ tasks)
  rw [loadedX, Function.update_idem] at readX
  have readY := Pool.run_alone 2 1 (by omega) _ (Nat → R) (loadBlock y piece)
    (storeBoth rule x y piece ((loadBlock x piece).run held).1) held (Function.update_self 1 _ tasks)
  rw [loadedY, Function.update_idem] at readY
  generalize pending : storeBoth rule x y piece ((loadBlock x piece).run held).1 ((loadBlock y piece).run held).1 =
    stores at readY
  -- then the first task runs, and only then the stores
  have other := Pool.run_alone 2 0 (by omega) (Function.update tasks 1 stores) Unit (tasks 0) .done held
    (by rw [Program.bind_done]; rfl)
  generalize ((tasks 0).run held).2 = between at other
  have finish := Pool.run_alone 2 1 (by omega)
    (Function.update (Function.update tasks 1 stores) 0 (.done ((tasks 0).run held).1)) Unit stores .done between
    (by rw [Program.bind_done]; rfl)
  refine ⟨(stores.run between).2, ⟨_, ((((start.trans readX).trans readY).trans other).trans finish), rfl, ?_⟩, ?_⟩
  · intro index small
    rcases (show index = 0 ∨ index = 1 by omega) with rfl | rfl
    · rfl
    · rfl
  · rw [← pending, stores_restore rule held between place fitsX fitsY stepped someX someY injectiveX injectiveY gap
      outsideY]
    exact kept

end LostUpdate

end Zynum.LevelOne
