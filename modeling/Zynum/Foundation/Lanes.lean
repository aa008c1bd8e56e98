import Zynum.Foundation.Substitution

set_option autoImplicit false

/- Work that is cut by lanes: into the pieces of a dispatch, into blocks, or into
   single lanes. A contract that may be checked lane by lane holds however the
   lanes are cut and in whatever order the pieces run. -/
namespace ArrayProgram

universe v w

section LaneWise

variable {σ : Type v}

-- Contracts, one for each set of lanes, that hold together when they hold on disjoint lanes.
def LaneWise (post : Set Nat → σ → σ → Prop) (all : Set Nat) : Prop :=
  ∀ (order : List Nat) (lanes : Nat → Set Nat) (run : Nat → σ → σ), order.Nodup → (∀ task, task ∈ order → lanes task ⊆ all) →
    (∀ first second, first ∈ order → second ∈ order → first ≠ second → Disjoint (lanes first) (lanes second)) →
    (∀ task, task ∈ order → Meets (post (lanes task)) (run task)) →
    Meets (post {lane | ∃ task, task ∈ order ∧ lane ∈ lanes task})
      (fun store => order.foldl (fun current task => run task current) store)

variable {post : Set Nat → σ → σ → Prop} {all : Set Nat}

theorem LaneWise.split_dispatch (laneWise : LaneWise post all) (order : List Nat) (count first last : Nat) (bound : Nat → Nat)
    (run : Nat → σ → σ) (splits : Splits count bound first last) (complete : order.Perm (List.range count))
    (inside : Set.Ico first last ⊆ all) (each : ∀ task, task < count → Meets (post (pieceOf bound task)) (run task)) :
    Meets (post (Set.Ico first last)) (fun store => order.foldl (fun current task => run task current) store) := by
  have listed := mem_of_perm_range complete
  have joined := laneWise order (pieceOf bound) run (complete.nodup_iff.mpr List.nodup_range)
    (fun task member lane owned => inside (splits.inside task lane ((listed task).mp member) owned))
    (fun i j inFirst inSecond => splits.apart i j ((listed i).mp inFirst) ((listed j).mp inSecond))
    (fun task member => each task ((listed task).mp member))
  simp only [listed, splits.covers] at joined
  exact joined

theorem LaneWise.blocks_dispatch (laneWise : LaneWise post all) (order : List Nat) (last stride : Nat) (run : Nat → σ → σ)
    (some : 0 < stride) (complete : order.Perm (List.range (strideCount 0 last stride))) (inside : Set.Iio last ⊆ all)
    (each : ∀ block, block < strideCount 0 last stride →
      Meets (post (Set.Ico (block * stride) (block * stride + blockLength last stride (block * stride)))) (run block)) :
    Meets (post (Set.Iio last)) (fun store => order.foldl (fun current task => run task current) store) := by
  rw [← Ico_from_zero] at inside ⊢
  refine laneWise.split_dispatch order _ 0 last _ run (block_splits last stride some) complete inside (fun block small => ?_)
  have reached := (stride_count_iff 0 last stride block some).mp small
  have piece : pieceOf (fun block => min last (block * stride)) block =
      Set.Ico (block * stride) (block * stride + blockLength last stride (block * stride)) := by
    ext lane
    have next : (block + 1) * stride = block * stride + stride := Nat.succ_mul block stride
    simp only [pieceOf, Set.mem_ofPred_eq, Set.mem_Ico, blockLength, next]
    omega
  rw [piece]
  exact each block small

theorem LaneWise.blocks (laneWise : LaneWise post all) (last stride : Nat) (run : Nat → σ → σ) (some : 0 < stride)
    (inside : Set.Iio last ⊆ all) (each : ∀ block, block < strideCount 0 last stride →
      Meets (post (Set.Ico (block * stride) (block * stride + blockLength last stride (block * stride)))) (run (block * stride))) :
    Meets (post (Set.Iio last)) (strideLoop 0 last stride run) := by
  have joined := laneWise.blocks_dispatch (List.range (strideCount 0 last stride)) last stride
    (fun block => run (block * stride)) some
    (List.Perm.refl _) inside each
  refine joined.congr_run (fun store => ?_)
  simp only [foldl_range, strideLoop, Nat.zero_add]

theorem LaneWise.one_by_one (laneWise : LaneWise post all) (first last : Nat) (run : Nat → σ → σ) (inside : Set.Ico first last ⊆ all)
    (each : ∀ lane, first ≤ lane → lane < last → Meets (post {lane}) (run lane)) :
    Meets (post (Set.Ico first last)) (loopRange first last run) := by
  have joined := laneWise (List.range (last - first)) (fun step => {first + step}) (fun step => run (first + step)) List.nodup_range
    (fun step member lane owned => inside (by
      have small := List.mem_range.mp member
      have place : lane = first + step := owned
      rw [place, Set.mem_Ico]
      omega))
    (fun i j _ _ different => Set.disjoint_singleton.mpr (fun same => different (Nat.add_left_cancel same)))
    (fun step member => each (first + step) (Nat.le_add_right _ _) (by
      have small := List.mem_range.mp member
      omega))
  have covered : {lane | ∃ step, step ∈ List.range (last - first) ∧ lane ∈ ({first + step} : Set Nat)} = Set.Ico first last := by
    ext lane
    simp only [Set.mem_ofPred_eq, Set.mem_singleton_iff, List.mem_range, Set.mem_Ico]
    constructor
    · rintro ⟨step, small, rfl⟩
      omega
    · intro reached
      exact ⟨lane - first, by omega, by omega⟩
  rw [covered] at joined
  exact joined.congr_run (fun store => (foldl_range _ _ store).symm)

theorem LaneWise.append (laneWise : LaneWise post all) (first middle last : Nat) (left right : σ → σ) (before : first ≤ middle)
    (after : middle ≤ last) (inside : Set.Ico first last ⊆ all) (earlier : Meets (post (Set.Ico first middle)) left)
    (later : Meets (post (Set.Ico middle last)) right) : Meets (post (Set.Ico first last)) (fun store => right (left store)) := by
  let bound : Nat → Nat := fun piece => if piece = 0 then first else if piece = 1 then middle else last
  refine laneWise.split_dispatch [0, 1] 2 first last bound (fun piece => if piece = 0 then left else right)
    ⟨rfl, rfl, fun piece small => ?_⟩ (List.Perm.refl _) inside (fun piece small => ?_)
  · cases piece with
    | zero => exact before
    | succ piece =>
      obtain rfl : piece = 0 := by omega
      exact after
  · cases piece with
    | zero => exact earlier
    | succ piece =>
      obtain rfl : piece = 0 := by omega
      exact later

theorem LaneWise.fit (laneWise : LaneWise post all) (first last step : Nat) (wide single : Nat → σ → σ)
    (ordered : first ≤ last) (inside : Set.Ico first last ⊆ all)
    (eachWide : ∀ start, first ≤ start → start + step ≤ last → Meets (post (Set.Ico start (start + step))) (wide start))
    (eachSingle : ∀ lane, first ≤ lane → lane < last → Meets (post {lane}) (single lane)) :
    Meets (post (Set.Ico first last))
      (fun store => loopRange (fitEnd first last step) last single (fitLoop first last step wide store)) := by
  have bounds := fit_end_inside first last step ordered
  have widened : Meets (post (Set.Ico first (fitEnd first last step))) (fitLoop first last step wide) := by
    have joined := laneWise.split_dispatch (List.range ((last - first) / step)) ((last - first) / step) first (fitEnd first last step)
      (fun piece => first + piece * step) (fun piece => wide (first + piece * step))
      ⟨by rw [Nat.zero_mul, Nat.add_zero], rfl, fun piece _ => Nat.add_le_add_left
        (Nat.mul_le_mul_right step (Nat.le_succ piece)) first⟩
      (List.Perm.refl _) (fun lane member => inside ⟨member.1, lt_of_lt_of_le member.2 bounds.2⟩) (fun piece small => by
        have next : first + (piece + 1) * step = first + piece * step + step := by rw [Nat.succ_mul, Nat.add_assoc]
        have turn := eachWide (first + piece * step) (Nat.le_add_right _ _) (fit_turn_inside first last step piece small)
        rw [← next] at turn
        exact turn)
    exact joined.congr_run (fun store => (foldl_range _ _ store).symm)
  exact laneWise.append first _ last _ _ bounds.1 bounds.2 inside widened (laneWise.one_by_one _ last single
    (fun lane member => inside ⟨bounds.1.trans member.1, member.2⟩)
    (fun lane reached below => eachSingle lane (bounds.1.trans reached) below))

end LaneWise

section Contracts

variable {α : Type w} {R : Type} [CommRing R]
variable (places : Finset Nat) (address : Nat × Nat → α) (M : Nat → Nat → R) (alpha : R) (all : Set Nat)

theorem union_inside (order : List Nat) (lanes : Nat → Set Nat) (inside : ∀ task, task ∈ order → lanes task ⊆ all) :
    laneCells places {lane | ∃ task, task ∈ order ∧ lane ∈ lanes task} ⊆ laneCells places all := by
  rintro cell ⟨inPlaces, task, member, owned⟩
  exact ⟨inPlaces, inside task member owned⟩

theorem product_lane_wise (injective : Set.InjOn address (laneCells places all)) :
    LaneWise (fun lanes => Product places lanes address M alpha) all :=
  fun order lanes run distinct inside apart each =>
    product_lanes places order lanes address M alpha run distinct
    (injective.mono (union_inside places all order lanes inside)) apart each

theorem solution_lane_wise (injective : Set.InjOn address (laneCells places all)) :
    LaneWise (fun lanes => Solution places lanes address M alpha) all :=
  fun order lanes run distinct inside apart each =>
    solution_lanes places order lanes address M alpha run distinct
    (injective.mono (union_inside places all order lanes inside)) apart each

end Contracts

section Pivots

variable {α : Type w} {R : Type} [CommRing R]
variable (order : Nat) (lanes : Set Nat) (address : Nat × Nat → α) (M : Nat → Nat → R)

-- A solved place taken out of other places.
def TakenOut (pivot : Nat) (places : Set Nat) (before after : α → R) : Prop :=
  Wrote {cell | cell.1 ∈ places ∧ cell.2 ∈ lanes} address
    (fun cell old => old - M cell.1 pivot * before (address (pivot, cell.2))) before after

theorem taken_out_lane_wise (pivot : Nat) (all : Set Nat) (inside : pivot < order) (within : ∀ d, d ∈ all → d < order)
    (other : pivot ∉ all) (injective : Set.InjOn address (laneCells (Finset.range order) lanes)) :
    LaneWise (TakenOut lanes address M pivot) all := by
  intro tasks places run distinct owned apart each before
  let cells : Nat → Set (Nat × Nat) := fun task => {cell | cell.1 ∈ places task ∧ cell.2 ∈ lanes}
  have covered : {cell | ∃ task, task ∈ tasks ∧ cell ∈ cells task} =
      {cell | cell.1 ∈ {place | ∃ task, task ∈ tasks ∧ place ∈ places task} ∧ cell.2 ∈ lanes} := by
    ext cell
    constructor
    · rintro ⟨task, member, place, lane⟩
      exact ⟨⟨task, member, place⟩, lane⟩
    · rintro ⟨⟨task, member, place⟩, lane⟩
      exact ⟨task, member, place, lane⟩
  have stays : {cell | ∃ task, task ∈ tasks ∧ cell ∈ cells task} ⊆ laneCells (Finset.range order) lanes := by
    rintro cell ⟨task, member, place, lane⟩
    exact ⟨Finset.mem_range.mpr (within _ (owned task member place)), lane⟩
  have whole := wrote_in_order tasks cells address
    (fun cell => before (address cell) - M cell.1 pivot * before (address (pivot, cell.2))) run before (injective.mono stays)
    (fun done task rest split current wrote => by
      have listed : task ∈ tasks := by rw [split]; exact List.mem_append_right done List.mem_cons_self
      have fresh : task ∉ done := fun repeated => by
        rw [split] at distinct
        exact List.disjoint_of_nodup_append distinct repeated List.mem_cons_self
      have earlier : ∀ other, other ∈ done → other ∈ tasks := fun other member => by
        rw [split]
        exact List.mem_append_left _ member
      have unread : ∀ cell, cell ∈ laneCells (Finset.range order) lanes → (∀ other, other ∈ done → cell.1 ∉ places other) →
          current (address cell) = before (address cell) := fun cell reached clear =>
        wrote.untouched injective (fun _ ⟨owner, member, taken⟩ => stays ⟨owner, earlier owner member, taken⟩) cell reached
          (fun ⟨owner, member, taken⟩ => clear owner member taken.1)
      refine (each task listed current).congr_at (fun cell taken => ?_)
      have place := owned task listed taken.1
      rw [unread cell ⟨Finset.mem_range.mpr (within _ place), taken.2⟩ (fun owner member shared =>
          Set.disjoint_left.mp (apart owner task (earlier owner member) listed (fun same => fresh (same ▸ member))) shared taken.1),
        unread (pivot, cell.2) ⟨Finset.mem_range.mpr inside, taken.2⟩ (fun owner member shared =>
          other (owned owner (earlier owner member) shared))])
  have joined := whole.congr_cells covered
  exact ⟨joined.written, joined.kept⟩

theorem solution_pivots (forward : Bool) (scale update : Nat → (α → R) → α → R)
    (injective : Set.InjOn address (laneCells (Finset.range order) lanes))
    (ordered : ∀ d p, d < order → p < order → sweep forward order d < sweep forward order p → M d p = 0)
    (scaled : ∀ t, t < order → ∀ (current : α → R) (x : Nat → R),
      (∀ r, r ∈ lanes → M (sweep forward order t) (sweep forward order t) * x r = current (address (sweep forward order t, r))) →
      Wrote {cell | cell.1 = sweep forward order t ∧ cell.2 ∈ lanes} address (fun cell _ => x cell.2) current (scale t current))
    (updated : ∀ t, t < order → Meets (TakenOut lanes address M (sweep forward order t) {d | d < order ∧ t < sweep forward order d})
      (update t)) :
    Meets (Solution (Finset.range order) lanes address M 1) (loop order (fun t store => update t (scale t store))) := by
  refine solution_right_looking order lanes address M order (sweep forward order) _ (sweep_inside forward order) injective ordered
    (fun t below current X solves => ?_)
  have place := sweep_inside forward order t below
  have row : ∀ r, r ∈ lanes → M (sweep forward order t) (sweep forward order t) * X (sweep forward order t) r =
      current (address (sweep forward order t, r)) := fun r inLanes => by
    have equation := solves (sweep forward order t) place (sweep_sweep forward order t below) r inLanes
    rwa [sweep_filter forward order t below, Finset.sum_singleton] at equation
  have first := scaled t below current (fun r => X (sweep forward order t) r) row
  have second := updated t below (scale t current)
  have owner := fun d inside => sweep_iff forward order d t inside below
  constructor
  · rintro ⟨d, r⟩ ⟨⟨inPlaces, inLanes⟩, reached⟩
    have inside := Finset.mem_range.mp inPlaces
    by_cases here : sweep forward order d = t
    · have same := (owner d inside).mp here
      rw [if_pos here, second.kept _ (fun cell taken equal => ?_), same]
      · exact first.written (sweep forward order t, r) ⟨rfl, inLanes⟩
      · have cells := injective (show cell ∈ laneCells (Finset.range order) lanes from ⟨Finset.mem_range.mpr taken.1.1, taken.2⟩)
          ⟨inPlaces, inLanes⟩ equal
        have later := taken.1.2
        rw [cells, here] at later
        exact Nat.lt_irrefl t later
    · have later : t < sweep forward order d := Nat.lt_of_le_of_ne reached (Ne.symm here)
      have kept : scale t current (address (d, r)) = current (address (d, r)) := by
        refine first.kept _ (fun cell taken equal => ?_)
        have cells := injective (show cell ∈ laneCells (Finset.range order) lanes from
          ⟨Finset.mem_range.mpr (taken.1 ▸ place), taken.2⟩) ⟨inPlaces, inLanes⟩ equal
        exact here ((owner d inside).mpr ((congrArg Prod.fst cells).symm.trans taken.1))
      rw [if_neg here, sweep_filter forward order t below, Finset.sum_singleton, second.written (d, r)
        ⟨⟨inside, later⟩, inLanes⟩, kept,
        first.written (sweep forward order t, r) ⟨rfl, inLanes⟩]
  · intro location apart
    rw [second.kept location (fun cell taken equal => apart cell ⟨⟨Finset.mem_range.mpr taken.1.1, taken.2⟩, taken.1.2.le⟩ equal),
      first.kept location (fun cell taken equal => apart cell ⟨⟨Finset.mem_range.mpr (taken.1 ▸ place), taken.2⟩, by
        rw [taken.1, sweep_sweep forward order t below]⟩ equal)]

end Pivots

section Steps

variable {α : Type w} {R : Type} [CommRing R]
variable (order : Nat) (lanes : Set Nat) (address : Nat × Nat → α) (M : Nat → Nat → R) (alpha : R) (steps : Nat)
  (cls : Nat → Nat) (run : Nat → (α → R) → α → R)

-- A product in place, interrupted: the classes that are done hold the product, the others still hold the operand.
theorem product_after_steps (injective : Set.InjOn address (laneCells (Finset.range order) lanes))
    (ordered : ∀ d p, d < order → p < order → cls p < cls d → M d p = 0)
    (each : ∀ t, t < steps → ∀ current, Wrote (stepCells order lanes cls t) address
      (fun cell _ => alpha * ∑ p ∈ Finset.range order, M cell.1 p * current (address (p, cell.2))) current (run t current))
    (before : α → R) (t : Nat) (inside : t ≤ steps) :
    Wrote (earlierCells order lanes cls t) address
      (fun cell _ => alpha * ∑ p ∈ Finset.range order, M cell.1 p * before (address (p, cell.2))) before (loop t run before) := by
  refine loop_invariant t run before (fun t current => Wrote (earlierCells order lanes cls t) address
    (fun cell _ => alpha * ∑ p ∈ Finset.range order, M cell.1 p * before (address (p, cell.2))) before current)
    ⟨fun cell member => absurd member.2 (Nat.not_lt_zero _), fun _ _ => rfl⟩ (fun done current below wrote => ?_)
  have turn : Wrote (stepCells order lanes cls done) address
      (fun cell _ => alpha * ∑ p ∈ Finset.range order, M cell.1 p * before (address (p, cell.2))) current (run done current) := by
    refine (each done (lt_of_lt_of_le below inside) current).congr (fun cell _ member => ?_)
    congr 1
    refine Finset.sum_congr rfl (fun p place => ?_)
    by_cases earlier : cls p < done
    · rw [ordered cell.1 p (Finset.mem_range.mp member.1.1) (Finset.mem_range.mp place) (by rw [member.2]; exact earlier), zero_mul,
        zero_mul]
    · rw [wrote.untouched injective (fun _ inEarlier => inEarlier.1) (p, cell.2) ⟨place, member.1.2⟩
        (fun inEarlier => earlier inEarlier.2)]
  have stays : earlierCells order lanes cls done ∪ stepCells order lanes cls done ⊆ laneCells (Finset.range order) lanes := by
    rintro cell (member | member) <;> exact member.1
  exact (wrote.then_same_target turn (injective.mono stays)).congr_cells (earlier_cells_succ order lanes cls done)

end Steps

section Tails

variable {R : Type} [CommRing R]
variable {places : Finset Nat} {lanes : Set Nat} {address : Nat × Nat → Nat} {M : Nat → Nat → R} {alpha : R}
  {run : (Nat → R) → Nat → R}

theorem image_places (places : Finset Nat) : places.image (fun place => place) = places := Finset.image_id

theorem Meets.product_carried (meets : Meets (Product places lanes address M alpha) run) (offset : Nat) (lane : Nat → Nat)
    (address' : Nat × Nat → Nat) (same : ∀ cell, cell ∈ laneCells places lanes → address' (cell.1, lane cell.2) = offset +
      address cell) :
    Meets (Product places (lane '' lanes) address' M alpha) (onTail offset run) := by
  have moved := (meets.product_tail offset).product_moved (fun place => place) lane address' M (fun _ _ _ _ equal => equal) same
    (fun _ _ _ _ => rfl)
  rwa [image_places] at moved

theorem Meets.solution_carried (meets : Meets (Solution places lanes address M alpha) run) (offset : Nat) (lane : Nat → Nat)
    (address' : Nat × Nat → Nat) (same : ∀ cell, cell ∈ laneCells places lanes → address' (cell.1, lane cell.2) = offset +
      address cell) :
    Meets (Solution places (lane '' lanes) address' M alpha) (onTail offset run) := by
  have moved := (meets.solution_tail offset).solution_moved (fun place => place) lane address' M (fun _ _ _ _ equal => equal) same
    (fun _ _ _ _ => rfl)
  rwa [image_places] at moved

theorem lanes_shifted (first width : Nat) : (fun lane => first + lane) '' Set.Iio width = Set.Ico first (first + width) := by
  ext lane
  simp only [Set.mem_image, Set.mem_Iio, Set.mem_Ico]
  constructor
  · rintro ⟨step, small, rfl⟩
    omega
  · intro reached
    exact ⟨lane - first, by omega, by omega⟩

end Tails

end ArrayProgram
