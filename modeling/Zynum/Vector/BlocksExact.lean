import Zynum.Vector.Blocks

set_option autoImplicit false

/- What a walk over a vector leaves in memory. The gap elements of a stride-2
   block are written back as they were loaded, which matters only where another
   vector keeps live elements there. -/
namespace Zynum.LevelOne

open ArrayProgram

variable {α R : Type}

def Operand.address (operand : Operand α) (index component : Nat) : α :=
  operand.place (operand.cell index + component)

def Operand.element (operand : Operand α) (memory : α → R) (index component : Nat) : R :=
  memory (operand.address index component)

-- Inside a block the elements lie step apart.
def Piece.Fits (piece : Piece) (operand : Operand α) : Prop :=
  ∀ index, index < piece.count →
    operand.cell (piece.first + index) = operand.cell piece.first + index * (piece.step * operand.width)

def Piece.covers (piece : Piece) : Set Nat := Set.Ico piece.first (piece.first + piece.count)

def Operand.gaps (operand : Operand α) (piece : Piece) : Set α :=
  {place | ∃ lane, lane < piece.size operand.width ∧ piece.active operand.width lane = false ∧
    operand.window piece lane = place}

section Lanes

variable {piece : Piece} {width : Nat}

theorem active_lane (some : 0 < width) (index component : Nat) (inside : component < width) :
    piece.active width (index * (piece.step * width) + component) = true := by
  have quotient : (index * (piece.step * width) + component) / width = index * piece.step := by
    rw [← Nat.mul_assoc, Nat.mul_comm (index * piece.step) width, Nat.mul_add_div some,
      Nat.div_eq_of_lt inside, Nat.add_zero]
  rw [Piece.active, quotient, Nat.mul_mod_left]
  rfl

theorem lane_index (stepped : 0 < piece.step) (index component : Nat) (inside : component < width) :
    (index * (piece.step * width) + component) / (piece.step * width) = index := by
  have wide : component < piece.step * width := inside.trans_le (Nat.le_mul_of_pos_left width stepped)
  rw [Nat.mul_comm index, Nat.mul_add_div (Nat.zero_lt_of_lt wide), Nat.div_eq_of_lt wide, Nat.add_zero]

theorem lane_component (index component : Nat) (inside : component < width) :
    (index * (piece.step * width) + component) % width = component := by
  rw [← Nat.mul_assoc, Nat.mul_comm (index * piece.step) width, Nat.mul_add_mod, Nat.mod_eq_of_lt inside]

theorem lane_small (stepped : 0 < piece.step) (index component : Nat) (small : index < piece.count)
    (inside : component < width) : index * (piece.step * width) + component < piece.size width := by
  have wide : component < piece.step * width := inside.trans_le (Nat.le_mul_of_pos_left width stepped)
  have next : (index + 1) * (piece.step * width) ≤ piece.count * (piece.step * width) := Nat.mul_le_mul_right _ small
  rw [Nat.succ_mul] at next
  rw [Piece.size]
  omega

theorem lane_of_active (lane : Nat) (small : lane < piece.size width)
    (active : piece.active width lane = true) :
    lane / (piece.step * width) < piece.count ∧
      lane = lane / (piece.step * width) * (piece.step * width) + lane % width := by
  have aligned : lane / width % piece.step = 0 := of_decide_eq_true active
  constructor
  · exact Nat.div_lt_of_lt_mul (by rw [Nat.mul_comm]; exact small)
  · have quotient : lane / width / piece.step = lane / (piece.step * width) := by
      rw [Nat.div_div_eq_div_mul, Nat.mul_comm]
    have outer := Nat.div_add_mod lane width
    have inner := Nat.div_add_mod (lane / width) piece.step
    rw [aligned, Nat.add_zero, quotient] at inner
    have product : width * (lane / width) = lane / (piece.step * width) * (piece.step * width) := by
      rw [← inner]
      ring
    rw [← product]
    exact outer.symm

end Lanes

section Running

variable [Zero R] [DecidableEq α]

theorem run_load_cells (size : Nat) (place : Nat → α) (memory : α → R) :
    (loadCells size place).run memory = (fun lane => if lane < size then memory (place lane) else 0, memory) := by
  rw [loadCells]
  induction size with
  | zero => rfl
  | succ size ih =>
    rw [Program.run_fold_succ, ih]
    refine Prod.ext ?_ rfl
    funext lane
    change Function.update (fun lane => if lane < size then memory (place lane) else 0) size (memory (place size)) lane =
      if lane < size + 1 then memory (place lane) else 0
    by_cases last : lane = size
    · rw [last, Function.update_self, if_pos (Nat.lt_succ_self size)]
    · rw [Function.update_of_ne last]
      have same : lane < size ↔ lane < size + 1 := by omega
      simp only [same]

theorem run_load_active (size : Nat) (active : Nat → Bool) (place : Nat → α) (memory : α → R) :
    (loadActive size active place).run memory =
      (fun lane => if lane < size ∧ active lane = true then memory (place lane) else 0, memory) := by
  rw [loadActive]
  induction size with
  | zero =>
    refine Prod.ext (funext fun lane => ?_) rfl
    change (0 : R) = if lane < 0 ∧ active lane = true then memory (place lane) else 0
    rw [if_neg (fun both => Nat.not_lt_zero lane both.1)]
  | succ size ih =>
    rw [Program.run_fold_succ, ih]
    have further : ∀ lane, lane ≠ size → (lane < size ∧ active lane = true ↔ lane < size + 1 ∧ active lane = true) := by
      intro lane different
      have same : lane < size ↔ lane < size + 1 := by omega
      rw [same]
    cases kept : active size with
    | true =>
      refine Prod.ext (funext fun lane => ?_) rfl
      change Function.update (fun lane => if lane < size ∧ active lane = true then memory (place lane) else 0) size
        (memory (place size)) lane = if lane < size + 1 ∧ active lane = true then memory (place lane) else 0
      by_cases last : lane = size
      · rw [last, Function.update_self, if_pos ⟨Nat.lt_succ_self size, kept⟩]
      · rw [Function.update_of_ne last]
        simp only [further lane last]
    | false =>
      refine Prod.ext (funext fun lane => ?_) rfl
      change (if lane < size ∧ active lane = true then memory (place lane) else 0) =
        if lane < size + 1 ∧ active lane = true then memory (place lane) else 0
      by_cases last : lane = size
      · have dropped : ¬ (lane < size + 1 ∧ active lane = true) := by
          rw [last, kept]
          exact fun both => Bool.false_ne_true both.2
        have never : ¬ (lane < size ∧ active lane = true) := fun both => dropped ⟨Nat.lt_succ_of_lt both.1, both.2⟩
        rw [if_neg never, if_neg dropped]
      · simp only [further lane last]

omit [Zero R] in
theorem run_store_cells (size : Nat) (place : Nat → α) (injective : Function.Injective place) (values : Nat → R)
    (memory : α → R) :
    Overwrites (Set.Iio size) place values memory ((storeCells size place values).run memory).2 := by
  rw [storeCells]
  induction size with
  | zero => exact (overwrites_nothing place values memory).of_eq (Set.Iio_bot (α := Nat)).symm
  | succ size ih =>
    rw [Program.run_each_succ]
    generalize ((Program.each size fun lane => Program.put (place lane) (values lane)).run memory).2 = before at ih
    change Overwrites _ _ _ _ (Function.update before (place size) (values size))
    constructor
    · intro lane small
      by_cases last : lane = size
      · rw [last, Function.update_self]
      · rw [Function.update_of_ne (fun same => last (injective same))]
        exact ih.written lane (Nat.lt_of_le_of_ne (Nat.le_of_lt_succ small) last)
    · intro cell outside
      rw [Function.update_of_ne (fun same => outside size (Nat.lt_succ_self size) same.symm)]
      exact ih.kept cell (fun lane small => outside lane (Nat.lt_succ_of_lt small))

omit [DecidableEq α] in
theorem window_injective {operand : Operand α} (injective : Function.Injective operand.place) (piece : Piece) :
    Function.Injective (operand.window piece) :=
  fun _ _ same => Nat.add_left_cancel (injective same)

omit [DecidableEq α] in
theorem window_element {operand : Operand α} {piece : Piece} (fits : piece.Fits operand) (index component : Nat)
    (small : index < piece.count) :
    operand.window piece (index * (piece.step * operand.width) + component) =
      operand.address (piece.first + index) component := by
  rw [Operand.window, Operand.address, fits index small, Nat.add_assoc]

theorem loaded_element {operand : Operand α} {piece : Piece} (fits : piece.Fits operand) (stepped : 0 < piece.step)
    (memory : α → R) (index component : Nat) (small : index < piece.count) (inside : component < operand.width) :
    piece.element operand.width ((loadBlock operand piece).run memory).1 index component =
      operand.element memory (piece.first + index) component := by
  rw [loadBlock, run_load_cells]
  change (if index * (piece.step * operand.width) + component < piece.size operand.width then
    memory (operand.window piece (index * (piece.step * operand.width) + component)) else 0) = _
  rw [if_pos (lane_small stepped index component small inside), window_element fits index component small]
  rfl

theorem active_element {operand : Operand α} {piece : Piece} (fits : piece.Fits operand) (stepped : 0 < piece.step)
    (memory : α → R) (index component : Nat) (small : index < piece.count) (inside : component < operand.width) :
    piece.element operand.width ((loadElements operand piece).run memory).1 index component =
      operand.element memory (piece.first + index) component := by
  have some : 0 < operand.width := Nat.zero_lt_of_lt inside
  rw [loadElements, run_load_active]
  change (if index * (piece.step * operand.width) + component < piece.size operand.width ∧
      piece.active operand.width (index * (piece.step * operand.width) + component) = true then
    memory (operand.window piece (index * (piece.step * operand.width) + component)) else 0) = _
  rw [if_pos ⟨lane_small stepped index component small inside, active_lane some index component inside⟩,
    window_element fits index component small]
  rfl

omit [DecidableEq α] in
theorem window_cases {operand : Operand α} {piece : Piece} (fits : piece.Fits operand) (some : 0 < operand.width)
    (lane : Nat) (small : lane < piece.size operand.width) (active : piece.active operand.width lane = true) :
    ∃ index component, index < piece.count ∧ component < operand.width ∧
      operand.window piece lane = operand.address (piece.first + index) component := by
  obtain ⟨below, split⟩ := lane_of_active lane small active
  refine ⟨lane / (piece.step * operand.width), lane % operand.width, below, Nat.mod_lt _ some, ?_⟩
  rw [← window_element fits _ _ below, ← split]

omit [Zero R] in
theorem run_store_block {operand : Operand α} {piece : Piece} (fits : piece.Fits operand) (stepped : 0 < piece.step)
    (some : 0 < operand.width) (injective : Function.Injective operand.place) (old : Nat → R) (new : Nat → Nat → R)
    (held memory : α → R)
    (loaded : ∀ lane, lane < piece.size operand.width → old lane = held (operand.window piece lane)) :
    (∀ index component, index < piece.count → component < operand.width →
      ((storeBlock operand piece old new).run memory).2 (operand.address (piece.first + index) component) =
        new index component) ∧
    (∀ place, place ∈ operand.gaps piece → ((storeBlock operand piece old new).run memory).2 place = held place) ∧
    ∀ place, place ∉ operand.gaps piece →
      (∀ index component, index < piece.count → component < operand.width →
        operand.address (piece.first + index) component ≠ place) →
      ((storeBlock operand piece old new).run memory).2 place = memory place := by
  have stored := run_store_cells (piece.size operand.width) (operand.window piece) (window_injective injective piece)
    (piece.select operand.width old new) memory
  refine ⟨?_, ?_, ?_⟩
  · intro index component small inside
    have written := stored.written _ (lane_small stepped index component small inside)
    rw [window_element fits index component small] at written
    rw [storeBlock, written, Piece.select, if_pos (active_lane some index component inside),
      lane_index stepped index component inside, lane_component index component inside]
  · rintro place ⟨lane, small, idle, rfl⟩
    have written := stored.written lane small
    rw [storeBlock, written, Piece.select, idle, if_neg Bool.false_ne_true]
    exact loaded lane small
  · intro place live outside
    refine stored.kept place (fun lane small same => ?_)
    cases active : piece.active operand.width lane with
    | true =>
      obtain ⟨index, component, below, inside, hit⟩ := window_cases fits some lane small active
      exact outside index component below inside (hit.symm.trans same)
    | false => exact live ⟨lane, small, active, same⟩

end Running

/- One piece of each kind of loop. Elements are read from the memory the piece
   starts in; an element function looks at the components of its arguments only. -/
section Pieces

def ElementMap (width : Nat) (apply : (Nat → R) → Nat → R) : Prop :=
  ∀ value value' : Nat → R, (∀ component, component < width → value component = value' component) →
    ∀ component, component < width → apply value component = apply value' component

def PairMap (width : Nat) (apply : (Nat → R) → (Nat → R) → Nat → R) : Prop :=
  ∀ left left' right right' : Nat → R, (∀ component, component < width → left component = left' component) →
    (∀ component, component < width → right component = right' component) →
    ∀ component, component < width → apply left right component = apply left' right' component

-- A component of a logical element of the first or the second vector.
structure Cell where
  second : Bool
  index : Nat
  component : Nat

def cellAddress (x y : Operand α) (cell : Cell) : α :=
  if cell.second then y.address cell.index cell.component else x.address cell.index cell.component

def slots (width : Nat) (indices : Set Nat) : Set (Nat × Nat) := {slot | slot.2 < width ∧ slot.1 ∈ indices}

def cells (width : Nat) (indices : Set Nat) : Set Cell := {cell | cell.component < width ∧ cell.index ∈ indices}

variable [Zero R] [DecidableEq α] {piece : Piece} {x y : Operand α}

theorem covered (index : Nat) (inside : index ∈ piece.covers) :
    index - piece.first < piece.count ∧ piece.first + (index - piece.first) = index := by
  have lower : piece.first ≤ index := inside.1
  have upper : index < piece.first + piece.count := inside.2
  omega

omit [Zero R] [DecidableEq α] in
theorem outside_elements {indices : Set Nat} (covers : indices = piece.covers) (place : α)
    (outside : ∀ slot, slot ∈ slots x.width indices → x.address slot.1 slot.2 ≠ place) :
    ∀ index component, index < piece.count → component < x.width →
      x.address (piece.first + index) component ≠ place := by
  subst covers
  intro index component below small
  exact outside (piece.first + index, component)
    ⟨small, ⟨Nat.le_add_right _ _, Nat.add_lt_add_left below _⟩⟩

theorem load_block_lanes (memory : α → R) (lane : Nat) (small : lane < piece.size x.width) :
    ((loadBlock x piece).run memory).1 lane = memory (x.window piece lane) := by
  rw [loadBlock, run_load_cells]
  exact if_pos small

theorem run_update_one (apply : (Nat → R) → Nat → R) (memory : α → R) (fits : piece.Fits x) (stepped : 0 < piece.step)
    (injective : Function.Injective x.place) (elementwise : ElementMap x.width apply) (some : 0 < x.width) :
    Overwrites (slots x.width piece.covers) (fun slot => x.address slot.1 slot.2)
      (fun slot => apply (x.element memory slot.1) slot.2) memory ((updateOne apply x piece).run memory).2 := by
  have loaded : ((loadBlock x piece).run memory).2 = memory := by rw [loadBlock, run_load_cells]
  have stored := run_store_block fits stepped some injective ((loadBlock x piece).run memory).1
    (fun i => apply (piece.element x.width ((loadBlock x piece).run memory).1 i)) memory memory
    (load_block_lanes memory)
  rw [updateOne, Program.run_do, loaded]
  constructor
  · rintro ⟨index, component⟩ ⟨small, inside⟩
    obtain ⟨below, split⟩ := covered index inside
    have written := stored.1 (index - piece.first) component below small
    rw [split] at written
    rw [written]
    refine elementwise _ _ (fun part bounded => ?_) component small
    rw [loaded_element fits stepped memory _ part below bounded, split]
  · intro place outside
    by_cases gap : place ∈ x.gaps piece
    · exact stored.2.1 place gap
    · exact stored.2.2 place gap (outside_elements rfl place outside)

theorem run_update_second (apply : (Nat → R) → (Nat → R) → Nat → R) (memory : α → R) (fitsX : piece.Fits x)
    (fitsY : piece.Fits y) (stepped : 0 < piece.step) (injective : Function.Injective y.place)
    (sameWidth : x.width = y.width) (elementwise : PairMap y.width apply) (some : 0 < y.width) :
    Overwrites (slots y.width piece.covers) (fun slot => y.address slot.1 slot.2)
      (fun slot => apply (x.element memory slot.1) (y.element memory slot.1) slot.2) memory
      ((updateSecond apply x y piece).run memory).2 := by
  have read : ((loadElements x piece).run memory).2 = memory := by rw [loadElements, run_load_active]
  have loaded : ((loadBlock y piece).run memory).2 = memory := by rw [loadBlock, run_load_cells]
  have stored := run_store_block fitsY stepped some injective ((loadBlock y piece).run memory).1
    (fun i => apply (piece.element x.width ((loadElements x piece).run memory).1 i)
      (piece.element y.width ((loadBlock y piece).run memory).1 i)) memory memory
    (load_block_lanes memory)
  rw [updateSecond, Program.run_do, read, Program.run_do, loaded]
  constructor
  · rintro ⟨index, component⟩ ⟨small, inside⟩
    obtain ⟨below, split⟩ := covered index inside
    have written := stored.1 (index - piece.first) component below small
    rw [split] at written
    rw [written]
    refine elementwise _ _ _ _ (fun part bounded => ?_) (fun part bounded => ?_) component small
    · rw [active_element fitsX stepped memory _ part below (sameWidth ▸ bounded), split]
    · rw [loaded_element fitsY stepped memory _ part below bounded, split]
  · intro place outside
    by_cases gap : place ∈ y.gaps piece
    · exact stored.2.1 place gap
    · exact stored.2.2 place gap (outside_elements rfl place outside)

-- x is stored first, so a gap of y's block still holds what the block loaded:
-- an element of x that lies there keeps its old value.
open Classical in
noncomputable def bothValue (applyX applyY : (Nat → R) → (Nat → R) → Nat → R) (x y : Operand α) (stale : Cell → Prop)
    (memory : α → R) (cell : Cell) : R :=
  if cell.second then applyY (x.element memory cell.index) (y.element memory cell.index) cell.component
  else if stale cell then memory (cellAddress x y cell)
  else applyX (x.element memory cell.index) (y.element memory cell.index) cell.component

theorem run_update_both (applyX applyY : (Nat → R) → (Nat → R) → Nat → R) (memory : α → R) (fitsX : piece.Fits x)
    (fitsY : piece.Fits y) (stepped : 0 < piece.step) (injectiveX : Function.Injective x.place)
    (injectiveY : Function.Injective y.place) (sameWidth : x.width = y.width) (mapX : PairMap y.width applyX)
    (mapY : PairMap y.width applyY) (some : 0 < y.width)
    (disjoint : ∀ i j c d, i ∈ piece.covers → j ∈ piece.covers → c < y.width → d < y.width →
      x.address i c ≠ y.address j d) :
    Overwrites (cells y.width piece.covers) (cellAddress x y)
      (bothValue applyX applyY x y (fun cell => cellAddress x y cell ∈ y.gaps piece) memory) memory
      ((updateBoth applyX applyY x y piece).run memory).2 := by
  have loadedX : ((loadBlock x piece).run memory).2 = memory := by rw [loadBlock, run_load_cells]
  have loadedY : ((loadBlock y piece).run memory).2 = memory := by rw [loadBlock, run_load_cells]
  have storedX := run_store_block fitsX stepped (sameWidth ▸ some) injectiveX ((loadBlock x piece).run memory).1
    (fun i => applyX (piece.element x.width ((loadBlock x piece).run memory).1 i)
      (piece.element y.width ((loadBlock y piece).run memory).1 i)) memory memory (load_block_lanes memory)
  rw [updateBoth, Program.run_do, loadedX, Program.run_do, loadedY, Program.run_do]
  generalize ((storeBlock x piece ((loadBlock x piece).run memory).1 _).run memory).2 = between at storedX ⊢
  have storedY := run_store_block fitsY stepped some injectiveY ((loadBlock y piece).run memory).1
    (fun i => applyY (piece.element x.width ((loadBlock x piece).run memory).1 i)
      (piece.element y.width ((loadBlock y piece).run memory).1 i)) memory between (load_block_lanes memory)
  have parts : ∀ index component, index ∈ piece.covers → component < y.width →
      piece.element x.width ((loadBlock x piece).run memory).1 (index - piece.first) component =
        x.element memory index component ∧
      piece.element y.width ((loadBlock y piece).run memory).1 (index - piece.first) component =
        y.element memory index component := by
    intro index component inside small
    obtain ⟨below, split⟩ := covered index inside
    rw [loaded_element fitsX stepped memory _ component below (sameWidth ▸ small),
      loaded_element fitsY stepped memory _ component below small, split]
    exact ⟨rfl, rfl⟩
  constructor
  · rintro ⟨second, index, component⟩ ⟨small, inside⟩
    obtain ⟨below, split⟩ := covered index inside
    cases second with
    | true =>
      have written := storedY.1 (index - piece.first) component below small
      rw [split] at written
      refine written.trans (mapY _ _ _ _ (fun part bounded => ?_) (fun part bounded => ?_) component small)
      · exact (parts index part inside bounded).1
      · exact (parts index part inside bounded).2
    | false =>
      change _ = ite _ _ _
      by_cases gap : x.address index component ∈ y.gaps piece
      · rw [if_pos (show cellAddress x y ⟨false, index, component⟩ ∈ y.gaps piece from gap)]
        exact storedY.2.1 _ gap
      · have apart : ∀ other part, other < piece.count → part < y.width →
            y.address (piece.first + other) part ≠ x.address index component := by
          intro other part bounded narrow same
          exact disjoint index (piece.first + other) component part inside
            ⟨Nat.le_add_right _ _, Nat.add_lt_add_left bounded _⟩ small narrow same.symm
        have written := storedX.1 (index - piece.first) component below (sameWidth ▸ small)
        rw [split] at written
        rw [if_neg (show ¬ cellAddress x y ⟨false, index, component⟩ ∈ y.gaps piece from gap)]
        refine ((storedY.2.2 _ gap apart).trans written).trans
          (mapX _ _ _ _ (fun part bounded => ?_) (fun part bounded => ?_) component small)
        · exact (parts index part inside bounded).1
        · exact (parts index part inside bounded).2
  · intro place outside
    have outsideX : ∀ index component, index < piece.count → component < x.width →
        x.address (piece.first + index) component ≠ place := fun index component below small =>
      outside ⟨false, piece.first + index, component⟩
        ⟨sameWidth ▸ small, ⟨Nat.le_add_right _ _, Nat.add_lt_add_left below _⟩⟩
    have outsideY : ∀ index component, index < piece.count → component < y.width →
        y.address (piece.first + index) component ≠ place := fun index component below small =>
      outside ⟨true, piece.first + index, component⟩
        ⟨small, ⟨Nat.le_add_right _ _, Nat.add_lt_add_left below _⟩⟩
    by_cases gap : place ∈ y.gaps piece
    · exact storedY.2.1 place gap
    · rw [storedY.2.2 place gap outsideY]
      by_cases gapX : place ∈ x.gaps piece
      · exact storedX.2.1 place gapX
      · exact storedX.2.2 place gapX outsideX

theorem run_copy_block (memory : α → R) (fitsX : piece.Fits x) (fitsY : piece.Fits y) (stepped : piece.step = 1)
    (injective : Function.Injective y.place) (sameWidth : x.width = y.width) :
    Overwrites (slots y.width piece.covers) (fun slot => y.address slot.1 slot.2)
      (fun slot => x.element memory slot.1 slot.2) memory ((copyBlock x y piece).run memory).2 := by
  have positive : 0 < piece.step := by omega
  have loaded : ((loadBlock x piece).run memory).2 = memory := by rw [loadBlock, run_load_cells]
  have stored := run_store_cells (piece.size y.width) (y.window piece) (window_injective injective piece)
    ((loadBlock x piece).run memory).1 memory
  rw [copyBlock, Program.run_do, loaded]
  constructor
  · rintro ⟨index, component⟩ ⟨small, inside⟩
    obtain ⟨below, split⟩ := covered index inside
    have written := stored.written _ (lane_small positive (index - piece.first) component below small)
    rw [window_element fitsY _ component below, split] at written
    rw [written]
    have read := loaded_element fitsX positive memory _ component below (sameWidth ▸ small)
    rw [split, Piece.element, sameWidth] at read
    exact read
  · intro place outside
    refine stored.kept place (fun lane small same => ?_)
    have divided : lane / (1 * y.width) < piece.count :=
      Nat.div_lt_of_lt_mul (by rw [Nat.mul_comm, ← stepped]; exact small)
    have some : 0 < y.width := by
      rcases Nat.eq_zero_or_pos y.width with none | some
      · rw [Piece.size, none, Nat.mul_zero, Nat.mul_zero] at small
        exact absurd small (Nat.not_lt_zero lane)
      · exact some
    have split : lane = lane / (1 * y.width) * (piece.step * y.width) + lane % y.width := by
      rw [stepped, Nat.one_mul, Nat.mul_comm]
      exact (Nat.div_add_mod lane y.width).symm
    rw [split, window_element fitsY _ _ divided] at same
    exact outside (_, _) ⟨Nat.mod_lt _ some, ⟨Nat.le_add_right _ _, Nat.add_lt_add_left divided _⟩⟩ same

end Pieces

/- Pieces that follow one another cover a range once. -/
section Walks

def Consecutive (pieces : List Piece) (first last : Nat) : Prop :=
  match pieces with
  | [] => first = last
  | piece :: rest => piece.first = first ∧ Consecutive rest (first + piece.count) last

theorem Consecutive.le {pieces : List Piece} {first last : Nat} (consecutive : Consecutive pieces first last) :
    first ≤ last := by
  induction pieces generalizing first with
  | nil => exact Nat.le_of_eq consecutive
  | cons piece rest ih =>
    have later := ih consecutive.2
    omega

theorem Consecutive.inside {pieces : List Piece} {first last : Nat} (consecutive : Consecutive pieces first last)
    (piece : Piece) (member : piece ∈ pieces) : first ≤ piece.first ∧ piece.first + piece.count ≤ last := by
  induction pieces generalizing first with
  | nil => exact absurd member List.not_mem_nil
  | cons head rest ih =>
    rcases List.mem_cons.mp member with rfl | later
    · have here := consecutive.1
      have after := consecutive.2.le
      omega
    · have inner := ih consecutive.2 later
      omega

theorem Consecutive.once {pieces : List Piece} {first last : Nat} (consecutive : Consecutive pieces first last)
    (piece other : Piece) (index : Nat) (inPiece : piece ∈ pieces) (inOther : other ∈ pieces)
    (here : index ∈ piece.covers) (there : index ∈ other.covers) : piece = other := by
  induction pieces generalizing first with
  | nil => exact absurd inPiece List.not_mem_nil
  | cons head rest ih =>
    have start := consecutive.1
    have split : ∀ late, late ∈ rest → index ∈ late.covers → index ∈ head.covers → False := by
      intro late member lower upper
      have bounds := consecutive.2.inside late member
      have a := lower.1
      have b := upper.2
      omega
    rcases List.mem_cons.mp inPiece with rfl | late
    · rcases List.mem_cons.mp inOther with rfl | later
      · rfl
      · exact (split other later there here).elim
    · rcases List.mem_cons.mp inOther with rfl | later
      · exact (split piece late here there).elim
      · exact ih consecutive.2 late later

variable {ι : Type} [DecidableEq α]

-- A walk overwrites what its pieces overwrite; every piece still finds the
-- elements it reads as they were before the walk.
theorem walk_overwrites (index : ι → Nat) (valid : ι → Prop) (address : ι → α) (value : (α → R) → ι → R)
    (body : Piece → Program α R Unit) (pieces : List Piece) (first last : Nat) (memory : α → R)
    (consecutive : Consecutive pieces first last)
    (step : ∀ piece, piece ∈ pieces → ∀ current : α → R,
      Overwrites {cell | valid cell ∧ index cell ∈ piece.covers} address (value current) current
        ((body piece).run current).2)
    (apart : ∀ cell other, valid cell → valid other → index cell ∈ Set.Ico first last →
      index other ∈ Set.Ico first last → index cell ≠ index other → address cell ≠ address other)
    (reads : ∀ (before after : α → R) cell, valid cell → index cell ∈ Set.Ico first last →
      (∀ place, (∀ other, valid other → index other ∈ Set.Ico first last → index other ≠ index cell →
        address other ≠ place) → before place = after place) → value before cell = value after cell) :
    Overwrites {cell | valid cell ∧ index cell ∈ Set.Ico first last} address (value memory) memory
      ((Program.eachItem pieces body).run memory).2 := by
  induction pieces generalizing first memory with
  | nil =>
    have none : {cell | valid cell ∧ index cell ∈ Set.Ico first last} = (∅ : Set ι) := by
      have same : first = last := consecutive
      ext cell
      simp only [same, Set.Ico_self, Set.mem_empty_iff_false, and_false, Set.mem_ofPred_eq]
    exact (overwrites_nothing address (value memory) memory).of_eq none.symm
  | cons piece rest ih =>
    have start := consecutive.1
    have ordered := consecutive.2.le
    have head := step piece List.mem_cons_self memory
    rw [Program.run_each_item_cons]
    generalize ((body piece).run memory).2 = middle at head ⊢
    have later : ∀ cell, index cell ∈ Set.Ico (first + piece.count) last → index cell ∈ Set.Ico first last :=
      fun cell inside => ⟨(Nat.le_add_right _ _).trans inside.1, inside.2⟩
    have early : ∀ cell, index cell ∈ piece.covers → index cell ∈ Set.Ico first last := by
      intro cell inside
      have lower := inside.1
      have upper := inside.2
      exact ⟨by omega, by omega⟩
    have tail := ih (first + piece.count) middle consecutive.2
      (fun other member => step other (List.mem_cons_of_mem _ member))
      (fun cell other ok ok' inside inside' => apart cell other ok ok' (later cell inside) (later other inside'))
      (fun before after cell ok inside agree => reads before after cell ok (later cell inside)
        (fun place outside => agree place (fun other ok' inside' => outside other ok' (later other inside'))))
    have unread : ∀ cell, cell ∈ {cell | valid cell ∧ index cell ∈ Set.Ico (first + piece.count) last} →
        value middle cell = value memory cell := by
      rintro cell ⟨ok, inside⟩
      refine reads middle memory cell ok (later cell inside) (fun place outside => ?_)
      refine head.kept place (fun other member => ?_)
      have upper := member.2.2
      have lower := inside.1
      exact outside other member.1 (early other member.2) (by omega)
    have whole := head.then (tail.congr unread) (fun cell other member inside => by
      have upper := member.2.2
      have lower := inside.2.1
      exact apart other cell inside.1 member.1 (later other inside.2) (early cell member.2) (by omega))
    refine whole.of_eq (Set.ext (fun cell => ?_))
    constructor
    · rintro (member | member)
      · exact ⟨member.1, early cell member.2⟩
      · exact ⟨member.1, later cell member.2⟩
    · rintro ⟨ok, inside⟩
      by_cases before : index cell < first + piece.count
      · exact .inl ⟨ok, ⟨by have := inside.1; omega, by omega⟩⟩
      · exact .inr ⟨ok, ⟨Nat.le_of_not_lt before, inside.2⟩⟩

end Walks

end Zynum.LevelOne
