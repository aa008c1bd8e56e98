import Zynum.Vector.BlockTasks
import Zynum.Vector.LevelOne

set_option autoImplicit false

/- A whole walk over one or two vectors, alone and split among tasks. -/
namespace Zynum.LevelOne

open ArrayProgram

variable {α R : Type}

def Operand.Separate (operand : Operand α) (indices : Set Nat) : Prop :=
  ∀ i j c d, i ∈ indices → j ∈ indices → c < operand.width → d < operand.width → i ≠ j →
    operand.address i c ≠ operand.address j d

def Disjoint2 (x y : Operand α) (indices : Set Nat) : Prop :=
  ∀ i j c d, i ∈ indices → j ∈ indices → c < x.width → d < y.width → x.address i c ≠ y.address j d

-- Cells that coincide are the same component of the same element.
def Aligned (x y : Operand α) (indices : Set Nat) : Prop :=
  ∀ i j c d, i ∈ indices → j ∈ indices → c < x.width → d < y.width → x.address i c = y.address j d → i = j ∧ c = d

theorem Disjoint2.aligned {x y : Operand α} {indices : Set Nat} (disjoint : Disjoint2 x y indices) : Aligned x y indices :=
  fun i j c d here there small small' same => absurd same (disjoint i j c d here there small small')

def Walkable (x : Operand α) (pieces : List Piece) : Prop :=
  ∀ piece, piece ∈ pieces → piece.Fits x ∧ 0 < piece.step

section Alone

variable [Zero R] [DecidableEq α] {x y : Operand α} {pieces : List Piece} {first last : Nat}

theorem walk_one (apply : (Nat → R) → Nat → R) (memory : α → R) (consecutive : Consecutive pieces first last)
    (fits : Walkable x pieces) (injective : Function.Injective x.place) (elementwise : ElementMap x.width apply)
    (some : 0 < x.width) (separate : x.Separate (Set.Ico first last)) :
    Overwrites (slots x.width (Set.Ico first last)) (fun slot => x.address slot.1 slot.2)
      (fun slot => apply (x.element memory slot.1) slot.2) memory
      ((Program.eachItem pieces (updateOne apply x)).run memory).2 := by
  have walk := walk_overwrites (fun slot : Nat × Nat => slot.1) (fun slot => slot.2 < x.width)
    (fun slot => x.address slot.1 slot.2) (fun current slot => apply (x.element current slot.1) slot.2)
    (updateOne apply x) pieces first last memory consecutive ?_ ?_ ?_
  · exact walk
  · intro piece member current
    obtain ⟨fit, stepped⟩ := fits piece member
    exact (run_update_one apply current fit stepped injective elementwise some)
  · exact fun slot other small small' inside inside' different =>
      separate _ _ _ _ inside inside' small small' different
  · intro before after slot small inside agree
    refine elementwise _ _ (fun component bounded => agree _ (fun other small' inside' different => ?_)) _ small
    exact separate _ _ _ _ inside' inside small' bounded different

theorem walk_second (apply : (Nat → R) → (Nat → R) → Nat → R) (memory : α → R)
    (consecutive : Consecutive pieces first last) (fitsX : Walkable x pieces) (fitsY : Walkable y pieces)
    (injective : Function.Injective y.place) (sameWidth : x.width = y.width) (elementwise : PairMap y.width apply)
    (some : 0 < y.width) (separate : y.Separate (Set.Ico first last)) (aligned : Aligned x y (Set.Ico first last)) :
    Overwrites (slots y.width (Set.Ico first last)) (fun slot => y.address slot.1 slot.2)
      (fun slot => apply (x.element memory slot.1) (y.element memory slot.1) slot.2) memory
      ((Program.eachItem pieces (updateSecond apply x y)).run memory).2 := by
  have walk := walk_overwrites (fun slot : Nat × Nat => slot.1) (fun slot => slot.2 < y.width)
    (fun slot => y.address slot.1 slot.2)
    (fun current slot => apply (x.element current slot.1) (y.element current slot.1) slot.2)
    (updateSecond apply x y) pieces first last memory consecutive ?_ ?_ ?_
  · exact walk
  · intro piece member current
    exact (run_update_second apply current (fitsX piece member).1 (fitsY piece member).1 (fitsY piece member).2 injective
      sameWidth elementwise some)
  · exact fun slot other small small' inside inside' different =>
      separate _ _ _ _ inside inside' small small' different
  · intro before after slot small inside agree
    refine elementwise _ _ _ _ (fun component bounded => agree _ (fun other small' inside' different same => ?_))
      (fun component bounded => agree _ (fun other small' inside' different => ?_)) _ small
    · exact different (aligned _ _ _ _ inside inside' (sameWidth ▸ bounded) small' same.symm).1.symm
    · exact separate _ _ _ _ inside' inside small' bounded different

theorem walk_copy (memory : α → R) (consecutive : Consecutive pieces first last) (fitsX : Walkable x pieces)
    (fitsY : Walkable y pieces) (plain : ∀ piece, piece ∈ pieces → piece.step = 1)
    (injective : Function.Injective y.place) (sameWidth : x.width = y.width)
    (separate : y.Separate (Set.Ico first last)) (aligned : Aligned x y (Set.Ico first last)) :
    Overwrites (slots y.width (Set.Ico first last)) (fun slot => y.address slot.1 slot.2)
      (fun slot => x.element memory slot.1 slot.2) memory
      ((Program.eachItem pieces (copyBlock x y)).run memory).2 := by
  have walk := walk_overwrites (fun slot : Nat × Nat => slot.1) (fun slot => slot.2 < y.width)
    (fun slot => y.address slot.1 slot.2) (fun current slot => x.element current slot.1 slot.2)
    (copyBlock x y) pieces first last memory consecutive ?_ ?_ ?_
  · exact walk
  · intro piece member current
    exact (run_copy_block current (fitsX piece member).1 (fitsY piece member).1 (plain piece member) injective
      sameWidth)
  · exact fun slot other small small' inside inside' different =>
      separate _ _ _ _ inside inside' small small' different
  · intro before after slot small inside agree
    exact agree _ (fun other small' inside' different same =>
      different (aligned _ _ _ _ inside inside' (sameWidth ▸ small) small' same.symm).1.symm)

-- An element of x in a gap of the block of y that is stored after it.
def Stale (x y : Operand α) (pieces : List Piece) (cell : Cell) : Prop :=
  ∃ piece, piece ∈ pieces ∧ cell.index ∈ piece.covers ∧ cellAddress x y cell ∈ y.gaps piece

omit [Zero R] [DecidableEq α] in
theorem both_value_congr {applyX applyY : (Nat → R) → (Nat → R) → Nat → R} {stale stale' : Cell → Prop}
    {memory : α → R} {cell : Cell} (same : stale cell ↔ stale' cell) :
    bothValue applyX applyY x y stale memory cell = bothValue applyX applyY x y stale' memory cell := by
  rw [bothValue, bothValue]
  by_cases here : stale cell
  · rw [if_pos here, if_pos (same.mp here)]
  · rw [if_neg here, if_neg (fun there => here (same.mpr there))]

theorem walk_both (applyX applyY : (Nat → R) → (Nat → R) → Nat → R) (memory : α → R)
    (consecutive : Consecutive pieces first last) (fitsX : Walkable x pieces) (fitsY : Walkable y pieces)
    (injectiveX : Function.Injective x.place) (injectiveY : Function.Injective y.place) (sameWidth : x.width = y.width)
    (mapX : PairMap y.width applyX) (mapY : PairMap y.width applyY) (some : 0 < y.width)
    (separateX : x.Separate (Set.Ico first last)) (separateY : y.Separate (Set.Ico first last))
    (disjoint : Disjoint2 x y (Set.Ico first last)) :
    Overwrites (cells y.width (Set.Ico first last)) (cellAddress x y)
      (bothValue applyX applyY x y (Stale x y pieces) memory) memory
      ((Program.eachItem pieces (updateBoth applyX applyY x y)).run memory).2 := by
  have apart : ∀ cell other : Cell, cell.component < y.width → other.component < y.width →
      cell.index ∈ Set.Ico first last → other.index ∈ Set.Ico first last → cell.index ≠ other.index →
      cellAddress x y cell ≠ cellAddress x y other := by
    rintro ⟨second, i, c⟩ ⟨second', j, d⟩ small small' inside inside' different
    cases second with
    | true =>
      cases second' with
      | true => exact separateY i j c d inside inside' small small' different
      | false => exact (disjoint j i d c inside' inside (sameWidth ▸ small') small).symm
    | false =>
      cases second' with
      | true => exact disjoint i j c d inside inside' (sameWidth ▸ small) small'
      | false => exact separateX i j c d inside inside' (sameWidth ▸ small) (sameWidth ▸ small') different
  have walk := walk_overwrites Cell.index (fun cell => cell.component < y.width) (cellAddress x y)
    (bothValue applyX applyY x y (Stale x y pieces)) (updateBoth applyX applyY x y) pieces first last memory consecutive
    ?_ apart ?_
  · exact walk
  · intro piece member current
    have bounds := consecutive.inside piece member
    have inside : ∀ i, i ∈ piece.covers → i ∈ Set.Ico first last := by
      intro i here
      have lower := here.1
      have upper := here.2
      exact ⟨by omega, by omega⟩
    have one := run_update_both applyX applyY current (fitsX piece member).1 (fitsY piece member).1
      (fitsY piece member).2 injectiveX injectiveY sameWidth mapX mapY some
      (fun i j c d inI inJ small small' => disjoint i j c d (inside i inI) (inside j inJ) (sameWidth ▸ small) small')
    refine one.congr ?_
    rintro cell ⟨_, here⟩
    have same : (cellAddress x y cell ∈ y.gaps piece) ↔ Stale x y pieces cell := by
      constructor
      · exact fun gap => ⟨piece, member, here, gap⟩
      · rintro ⟨other, inOther, there, gap⟩
        rw [consecutive.once piece other cell.index member inOther here there]
        exact gap
    exact both_value_congr same
  · intro before after cell small inside agree
    have agreeX : ∀ c, c < y.width → x.element before cell.index c = x.element after cell.index c :=
      fun c bounded => agree _ (fun other small' inside' different =>
        apart other ⟨false, cell.index, c⟩ small' bounded inside' inside different)
    have agreeY : ∀ c, c < y.width → y.element before cell.index c = y.element after cell.index c :=
      fun c bounded => agree _ (fun other small' inside' different =>
        apart other ⟨true, cell.index, c⟩ small' bounded inside' inside different)
    have agreeHere : before (cellAddress x y cell) = after (cellAddress x y cell) :=
      agree _ (fun other small' inside' different => apart other cell small' small inside' inside different)
    have valueX := mapX _ _ _ _ agreeX agreeY cell.component small
    have valueY := mapY _ _ _ _ agreeX agreeY cell.component small
    simp only [bothValue, valueX, valueY, agreeHere]

end Alone

/- Tasks over chunks of the index range. -/
section Forked

variable [DecidableEq α] {ι A B : Type}

def Rewrites (execution : Execution α R B A) (cells : Set ι) (address : ι → α) (value : (α → R) → ι → R) : Prop :=
  ∀ memory result final, execution.Outcome memory result final → Overwrites cells address (value memory) memory final

theorem rewrites_single {program : Program α R A} {cells : Set ι} {address : ι → α} {value : (α → R) → ι → R}
    (alone : ∀ memory, Overwrites cells address (value memory) memory (program.run memory).2) :
    Rewrites (.single program : Execution α R B A) cells address value := by
  intro memory result final outcome
  have ended : (program.run memory).2 = final := congrArg Prod.snd outcome
  rw [← ended]
  exact alone memory

theorem Rewrites.andThen {first second : Execution α R Unit Unit} {cells : Set ι} {address : ι → α}
    {value next whole : (α → R) → ι → R} (before : Rewrites first cells address value)
    (after : Rewrites second cells address next)
    (same : ∀ memory middle, Overwrites cells address (value memory) memory middle →
      ∀ cell, cell ∈ cells → next middle cell = whole memory cell) :
    Rewrites (first.andThen second) cells address whole := by
  intro memory result final outcome
  obtain ⟨middle, ends, rest⟩ := Execution.outcome_and_then outcome
  have early := before memory () middle ends
  have late := after middle result final rest
  constructor
  · intro cell member
    rw [late.written cell member]
    exact same memory middle early cell member
  · intro place outside
    rw [late.kept place outside]
    exact early.kept place outside

-- Chunks split the indices; a task rewrites the cells of its chunk and touches nothing that changes beside them.
structure Chunked (count : Nat) (tasks : Nat → Program α R B) (chunk : Nat → Set Nat) (index : ι → Nat) (valid : ι → Prop)
    (address : ι → α) (value : (α → R) → ι → R) (indices : Set Nat) : Prop where
  covers : {i | ∃ task, task < count ∧ i ∈ chunk task} = indices
  apart : ∀ first second, first < count → second < count → first ≠ second → Disjoint (chunk first) (chunk second)
  addresses : ∀ cell other, valid cell → valid other → index cell ∈ indices → index other ∈ indices →
    index cell ≠ index other → address cell ≠ address other
  alone : ∀ task, task < count → ∀ memory, Overwrites {cell | valid cell ∧ index cell ∈ chunk task} address
    (value memory) memory ((tasks task).run memory).2
  respects : ∀ task, task < count → ∀ memory, (tasks task).Respects
    (address '' {cell | valid cell ∧ index cell ∈ chunk task})
    {place | ∀ cell, valid cell → index cell ∈ indices → address cell ≠ place} memory

theorem Chunked.rewrites {count : Nat} {tasks : Nat → Program α R B} {chunk : Nat → Set Nat} {index : ι → Nat}
    {valid : ι → Prop} {address : ι → α} {value : (α → R) → ι → R} {indices : Set Nat}
    (chunked : Chunked count tasks chunk index valid address value indices) (next : (Nat → B) → A) :
    Rewrites (.fork count tasks (fun results => .single (.done (next results))))
      {cell | valid cell ∧ index cell ∈ indices} address value := by
  rintro memory result final ⟨results, middle, finishes, rest⟩
  have same : middle = final := congrArg Prod.snd rest
  subst same
  have inside : ∀ task i, task < count → i ∈ chunk task → i ∈ indices := by
    intro task i small member
    rw [← chunked.covers]
    exact ⟨task, small, member⟩
  have whole := Pool.finishes_overwrites (fun task => {cell | valid cell ∧ index cell ∈ chunk task})
    (fun first second cell other inFirst inSecond different member member' =>
      chunked.addresses cell other member.1 member'.1 (inside first _ inFirst member.2) (inside second _ inSecond member'.2)
        (fun same => Set.disjoint_left.mp (chunked.apart first second inFirst inSecond different) member.2
          (same ▸ member'.2)))
    (fun task small => ?_) (fun task small => chunked.alone task small memory) finishes
  · refine whole.2.of_eq (Set.ext fun cell => ?_)
    constructor
    · rintro ⟨task, small, ok, member⟩
      exact ⟨ok, inside task _ small member⟩
    · rintro ⟨ok, member⟩
      rw [← chunked.covers] at member
      obtain ⟨task, small, here⟩ := member
      exact ⟨task, small, ok, here⟩
  · have fixed : {place | ∀ cell, valid cell → index cell ∈ indices → address cell ≠ place} =
        {place | ∀ task cell, task < count → cell ∈ {cell | valid cell ∧ index cell ∈ chunk task} →
          address cell ≠ place} := by
      ext place
      constructor
      · exact fun outside task cell small member => outside cell member.1 (inside task _ small member.2)
      · intro outside cell ok member
        rw [← chunked.covers] at member
        obtain ⟨task, small, here⟩ := member
        exact outside task cell small ⟨ok, here⟩
    exact fixed ▸ chunked.respects task small memory

-- A task that can be given any part of the range.
structure RangeTask (task : Site → Nat → Nat → Program α R B) (index : ι → Nat) (valid : ι → Prop) (address : ι → α)
    (value : (α → R) → ι → R) (n : Nat) : Prop where
  addresses : ∀ cell other, valid cell → valid other → index cell ∈ Set.Iio n → index other ∈ Set.Iio n →
    index cell ≠ index other → address cell ≠ address other
  alone : ∀ site first last, first ≤ last → last ≤ n → ∀ memory,
    Overwrites {cell | valid cell ∧ index cell ∈ Set.Ico first last} address (value memory) memory
      ((task site first last).run memory).2
  respects : ∀ site first last, first ≤ last → last ≤ n → ∀ memory, (task site first last).Respects
    (address '' {cell | valid cell ∧ index cell ∈ Set.Ico first last})
    {place | ∀ cell, valid cell → index cell ∈ Set.Iio n → address cell ≠ place} memory

variable {task : Site → Nat → Nat → Program α R B} {index : ι → Nat} {valid : ι → Prop} {address : ι → α}
  {value : (α → R) → ι → R} {n : Nat}

theorem RangeTask.serial {task : Site → Nat → Nat → Program α R A} (law : RangeTask task index valid address value n)
    (site : Site) :
    Rewrites (.single (task site 0 n) : Execution α R B A) {cell | valid cell ∧ index cell ∈ Set.Iio n} address value := by
  refine rewrites_single (fun memory => ?_)
  have whole := law.alone site 0 n (Nat.zero_le n) (Nat.le_refl n) memory
  exact whole.of_eq (by rw [Ico_from_zero])

theorem RangeTask.forked (law : RangeTask task index valid address value n) (site : Site) (count : Nat)
    (bound order : Nat → Nat) (splits : Splits count bound 0 n) (inside : ∀ t, t < count → order t < count)
    (every : ∀ piece, piece < count → ∃ t, t < count ∧ order t = piece)
    (once : ∀ s t, s < count → t < count → order s = order t → s = t) (next : (Nat → B) → A) :
    Rewrites (.fork count (fun t => task (t :: site) (bound (order t)) (bound (order t + 1)))
      (fun results => .single (.done (next results)))) {cell | valid cell ∧ index cell ∈ Set.Iio n} address value := by
  have bounded : ∀ t, t < count → bound (order t) ≤ bound (order t + 1) ∧ bound (order t + 1) ≤ n := by
    intro t small
    have upper := splits.mono (order t + 1) count (inside t small) (Nat.le_refl count)
    rw [splits.finish] at upper
    exact ⟨splits.ordered (order t) (inside t small), upper⟩
  have chunked : Chunked count (fun t => task (t :: site) (bound (order t)) (bound (order t + 1)))
      (fun t => Set.Ico (bound (order t)) (bound (order t + 1))) index valid address value (Set.Iio n) := by
    refine ⟨?_, ?_, law.addresses, ?_, ?_⟩
    · ext i
      constructor
      · rintro ⟨t, small, member⟩
        exact member.2.trans_le (bounded t small).2
      · intro below
        obtain ⟨piece, small, member⟩ := splits.owner i (Nat.zero_le i) below
        obtain ⟨t, known, rfl⟩ := every piece small
        exact ⟨t, known, member⟩
    · intro s t inFirst inSecond different
      exact splits.apart (order s) (order t) (inside s inFirst) (inside t inSecond)
        (fun same => different (once s t inFirst inSecond same))
    · exact fun t small memory => law.alone _ _ _ (bounded t small).1 (bounded t small).2 memory
    · exact fun t small memory => law.respects _ _ _ (bounded t small).1 (bounded t small).2 memory
  exact chunked.rewrites next

theorem fork_tasks_rewrites {rt : Runtime} {site : Site} {count : Nat} {tasks : Nat → Program α R B}
    {next : (Nat → B) → A} {execution : Execution α R B A} {cells : Set ι}
    (forked : Rewrites (.fork count tasks (fun results => .single (.done (next results)))) cells address value)
    (accepted : forkTasks rt site count tasks next = some execution) : Rewrites execution cells address value := by
  rw [forkTasks] at accepted
  split at accepted
  · exact nomatch accepted
  · split at accepted
    · rw [← Option.some.inj accepted]
      exact forked
    · exact nomatch accepted

omit [DecidableEq α] in
theorem fork_tasks_several {rt : Runtime} {site : Site} {count : Nat} {tasks : Nat → Program α R B}
    {next : (Nat → B) → A} {execution : Execution α R B A}
    (accepted : forkTasks rt site count tasks next = some execution) : 1 < count := by
  rw [forkTasks] at accepted
  split at accepted
  · exact nomatch accepted
  · omega

theorem RangeTask.dispatched (law : RangeTask task index valid address value n) {rt : Runtime} {site : Site}
    {count : Nat} {bound : Nat → Nat} {next : (Nat → B) → A} {execution : Execution α R B A}
    (splits : 0 < count → Splits count bound 0 n)
    (accepted : forkTasks rt site count (fun t => task (t :: site) (bound t) (bound (t + 1))) next = some execution) :
    Rewrites execution {cell | valid cell ∧ index cell ∈ Set.Iio n} address value := by
  have several := fork_tasks_several accepted
  have forked := law.forked site count bound id (splits (by omega)) (fun _ small => small)
    (fun piece small => ⟨piece, small, rfl⟩) (fun _ _ _ _ same => same) next
  exact fork_tasks_rewrites forked accepted

theorem RangeTask.even (law : RangeTask task index valid address value n) {machine : VectorMachine} {site : Site}
    {next : Nat → (Nat → B) → A} {execution : Execution α R B A}
    (accepted : forkEven machine site n task next = some execution) :
    Rewrites execution {cell | valid cell ∧ index cell ∈ Set.Iio n} address value :=
  law.dispatched (fun some => even_splits n _ some) accepted

theorem rewrites_get_d {first : Option (Execution α R B A)} {second : Execution α R B A} {cells : Set ι}
    (accepted : ∀ execution, first = some execution → Rewrites execution cells address value)
    (declined : Rewrites second cells address value) : Rewrites (first.getD second) cells address value := by
  cases answer : first with
  | none => exact declined
  | some execution => exact accepted execution answer

end Forked

end Zynum.LevelOne
