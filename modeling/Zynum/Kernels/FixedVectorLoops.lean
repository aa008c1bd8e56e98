import Zynum.Kernels.FixedVector
import Zynum.Vector.Footprint

set_option autoImplicit false

/- The loops of a fixed-width kernel cut [0, n) into vectors, tail vectors and
   single elements. What each of these does to its own range, the kernel does to
   the whole range. -/
namespace Zynum.FixedVector

open ArrayProgram LevelOne

variable {α R : Type}

section Ranges

theorem le_reached (step first n : Nat) : first ≤ reached step first n := Nat.le_add_right _ _

theorem reached_le {step first n : Nat} (inside : first ≤ n) : reached step first n ≤ n := by
  have fit : (n - first) / step * step ≤ n - first := Nat.div_mul_le_self _ _
  rw [reached]
  omega

theorem turn_inside {step first n turn : Nat} (small : turn < (n - first) / step) : first + turn * step + step ≤ n := by
  have fit : (n - first) / step * step ≤ n - first := Nat.div_mul_le_self _ _
  have next : (turn + 1) * step ≤ (n - first) / step * step := Nat.mul_le_mul_right step small
  have grown : (turn + 1) * step = turn * step + step := Nat.succ_mul turn step
  have some : 0 < n - first := Nat.pos_of_ne_zero (fun none => by
    rw [none, Nat.zero_div] at small
    exact Nat.not_lt_zero turn small)
  omega

theorem reached_dvd {width step first n : Nat} (whole : width ∣ step) (start : width ∣ first) : width ∣ reached step first n :=
  Nat.dvd_add start (whole.mul_left _)

theorem tails_reached_le (tails : List Nat) {first n : Nat} (inside : first ≤ n) : tailsReached tails first n ≤ n := by
  induction tails generalizing first with
  | nil => exact inside
  | cons lanes shorter ih => exact ih (reached_le inside)

theorem le_tails_reached (tails : List Nat) (first n : Nat) : first ≤ tailsReached tails first n := by
  induction tails generalizing first with
  | nil => exact Nat.le_refl first
  | cons lanes shorter ih => exact (le_reached lanes first n).trans (ih _)

theorem tails_reached_dvd {width : Nat} (tails : List Nat) {first n : Nat} (whole : ∀ lanes, lanes ∈ tails → width ∣ lanes)
    (start : width ∣ first) : width ∣ tailsReached tails first n := by
  induction tails generalizing first with
  | nil => exact start
  | cons lanes shorter ih =>
    exact ih (fun other member => whole other (List.mem_cons_of_mem _ member))
      (reached_dvd (whole lanes List.mem_cons_self) start)

theorem reached_last {width first n : Nat} (start : width ∣ first) (finish : width ∣ n) (inside : first ≤ n) :
    reached width first n = n := by
  have rest : width ∣ n - first := Nat.dvd_sub finish start
  rw [reached, Nat.div_mul_cancel rest]
  omega

end Ranges

section Laws

variable {ι A S S' S'' : Type} {width length : Nat}

-- What the steps of a kernel do to a range: the cells they overwrite, the terms they add, the cells they may touch,
-- and what they need to find in memory.
structure Law (ι α R A : Type) where
  holds : (α → R) → Prop
  index : ι → Nat
  address : ι → α
  value : (α → R) → ι → R
  term : (α → R) → Nat → A
  allowed : Set α

def Law.Agree (law : Law ι α R A) (length : Nat) (before after : α → R) : Prop :=
  ∀ place, (∀ other, law.index other < length → law.address other ≠ place) → before place = after place

-- Cells of different elements lie apart, no value depends on the cells of another element, and no term on any cell.
structure Law.Sound (law : Law ι α R A) (width length : Nat) : Prop where
  apart : ∀ cell other, law.index cell < length → law.index other < length →
    law.index cell / width ≠ law.index other / width → law.address cell ≠ law.address other
  reads : ∀ (before after : α → R) cell, law.index cell < length →
    (∀ place, (∀ other, law.index other < length → law.index other / width ≠ law.index cell / width →
      law.address other ≠ place) → before place = after place) → law.value before cell = law.value after cell
  terms : ∀ (before after : α → R) i, law.Agree length before after → law.term before i = law.term after i
  stable : ∀ before after : α → R, law.Agree length before after → law.holds before → law.holds after

variable [AddCommMonoid A] [DecidableEq α]

structure Law.Works (law : Law ι α R A) (before : S → A) (after : S' → A) (program : S → Program α R S') (first last : Nat) :
    Prop where
  inside : ∀ state, (program state).Within law.allowed (fun _ => True)
  works : ∀ state memory, law.holds memory → ∃ next final, (program state).run memory = (next, final) ∧
    Overwrites {cell | law.index cell ∈ Set.Ico first last} law.address (law.value memory) memory final ∧
    after next = before state + ∑ i ∈ Finset.Ico first last, law.term memory i

def Law.Does (law : Law ι α R A) (program : Program α R Unit) (first last : Nat) : Prop :=
  law.Works (fun _ : Unit => 0) (fun _ : Unit => 0) (fun _ => program) first last

variable {law : Law ι α R A}

theorem works_nothing (law : Law ι α R A) (measure : S → A) (first : Nat) :
    law.Works measure measure Program.done first first := by
  refine ⟨fun _ => trivial, fun state memory _ => ⟨state, memory, rfl, ?_, by rw [Finset.Ico_self, Finset.sum_empty, add_zero]⟩⟩
  refine (overwrites_nothing law.address (law.value memory) memory).of_eq (Set.ext fun cell => ?_)
  simp only [Set.Ico_self, Set.mem_empty_iff_false, Set.mem_ofPred_eq]

theorem Law.Works.from {before : S → A} {after : S' → A} {program : S → Program α R S'} {first last : Nat}
    (works : law.Works before after program first last) {start : S'' → A} (convert : S'' → S)
    (same : ∀ state, before (convert state) = start state) :
    law.Works start after (fun state => program (convert state)) first last :=
  ⟨fun state => works.inside (convert state), fun state memory held => same state ▸ works.works (convert state) memory held⟩

theorem element_apart {first middle last a b : Nat} (boundary : width ∣ middle) (early : a ∈ Set.Ico first middle)
    (late : b ∈ Set.Ico middle last) : a / width ≠ b / width := by
  obtain ⟨group, rfl⟩ := boundary
  have upper : a < width * group := early.2
  have lower : width * group ≤ b := late.1
  have some : 0 < width := by
    cases width with
    | zero => rw [Nat.zero_mul] at upper; exact absurd upper (Nat.not_lt_zero _)
    | succ width => exact Nat.succ_pos width
  have below : a / width < group := Nat.div_lt_of_lt_mul upper
  have above : group ≤ b / width := (Nat.le_div_iff_mul_le some).mpr (by rwa [Nat.mul_comm])
  omega

theorem Law.Works.then {before : S → A} {middle : S' → A} {after : S'' → A} {program : S → Program α R S'}
    {next : S' → Program α R S''} {first split last : Nat} (early : law.Works before middle program first split)
    (late : law.Works middle after next split last) (sound : law.Sound width length) (boundary : width ∣ split)
    (low : first ≤ split) (high : split ≤ last) (inside : last ≤ length) :
    law.Works before after (fun state => (program state).bind next) first last := by
  refine ⟨fun state => (early.inside state).bind (fun current _ => late.inside current), fun state memory held => ?_⟩
  obtain ⟨current, between, ran, head, sum⟩ := early.works state memory held
  have agree : law.Agree length memory between := fun place outside =>
    (head.kept place (fun cell member => outside cell (member.2.trans_le (high.trans inside)))).symm
  obtain ⟨result, final, ran', tail, sum'⟩ := late.works current between (sound.stable _ _ agree held)
  refine ⟨result, final, by rw [Program.run_bind, ran]; exact ran', ?_, ?_⟩
  · have unread : ∀ cell, cell ∈ {cell | law.index cell ∈ Set.Ico split last} →
        law.value between cell = law.value memory cell := by
      intro cell late
      refine sound.reads _ _ cell (late.2.trans_le inside) (fun place outside => ?_)
      refine head.kept place (fun other early => ?_)
      exact outside other (early.2.trans_le (high.trans inside)) (element_apart boundary early late)
    have whole := head.then (tail.congr unread) (fun cell other early late =>
      sound.apart other cell (late.2.trans_le inside) (early.2.trans_le (high.trans inside))
        (element_apart boundary early late).symm)
    refine whole.of_eq (Set.ext fun cell => ?_)
    simp only [Set.mem_union, Set.mem_ofPred_eq, Set.mem_Ico]
    omega
  · rw [sum', sum, add_assoc, Finset.sum_congr rfl (fun i _ => (sound.terms _ _ i agree).symm),
      Finset.sum_Ico_consecutive _ low high]

theorem works_fold (measure : S → A) (bound : Nat → Nat) (sound : law.Sound width length) (count : Nat)
    (body : Nat → S → Program α R S) (boundary : ∀ turn, width ∣ bound turn)
    (ordered : ∀ turn, turn < count → bound turn ≤ bound (turn + 1)) (inside : bound count ≤ length)
    (each : ∀ turn, turn < count → law.Works measure measure (body turn) (bound turn) (bound (turn + 1))) :
    law.Works measure measure (Program.fold count body) (bound 0) (bound count) ∧ bound 0 ≤ bound count := by
  induction count with
  | zero => exact ⟨works_nothing law measure _, Nat.le_refl _⟩
  | succ count ih =>
    have step := ordered count (Nat.lt_succ_self count)
    obtain ⟨before, low⟩ := ih (fun turn small => ordered turn (Nat.lt_succ_of_lt small)) (step.trans inside)
      (fun turn small => each turn (Nat.lt_succ_of_lt small))
    exact ⟨before.then (each count (Nat.lt_succ_self count)) sound (boundary count) low step inside, low.trans step⟩

theorem works_while (measure : S → A) (sound : law.Sound width length) {step first n : Nat} (body : Nat → S → Program α R S)
    (whole : width ∣ step) (start : width ∣ first) (inside : first ≤ n) (bounded : n ≤ length)
    (each : ∀ i, width ∣ i → i + step ≤ n → law.Works measure measure (body i) i (i + step)) :
    law.Works measure measure (whileFits step first n body) first (reached step first n) := by
  have steps := works_fold measure (fun turn => first + turn * step) sound ((n - first) / step)
    (fun turn => body (first + turn * step)) (fun turn => Nat.dvd_add start (whole.mul_left turn))
    (fun turn _ => by rw [Nat.succ_mul]; omega) ((reached_le inside).trans bounded) (fun turn small => by
      have next : first + (turn + 1) * step = first + turn * step + step := by rw [Nat.succ_mul]; omega
      rw [next]
      exact each _ (Nat.dvd_add start (whole.mul_left turn)) (turn_inside small))
  rw [Nat.zero_mul, Nat.add_zero] at steps
  exact steps.1

theorem works_unrolled (measure : S → A) (sound : law.Sound width length) {lanes unroll i : Nat}
    (body : Nat → S → Program α R S) (whole : width ∣ lanes) (start : width ∣ i) (fits : i + lanes * unroll ≤ length)
    (each : ∀ k, k < unroll → i + k * lanes + lanes ≤ length →
      law.Works measure measure (body k) (i + k * lanes) (i + k * lanes + lanes)) :
    law.Works measure measure (Program.fold unroll body) i (i + lanes * unroll) := by
  have vectors := works_fold measure (fun k => i + k * lanes) sound unroll body
    (fun k => Nat.dvd_add start (whole.mul_left k)) (fun k _ => by rw [Nat.succ_mul]; omega)
    (by rw [Nat.mul_comm]; exact fits) (fun k small => by
      have upper : (k + 1) * lanes ≤ unroll * lanes := Nat.mul_le_mul_right lanes small
      have next : i + (k + 1) * lanes = i + k * lanes + lanes := by rw [Nat.succ_mul]; omega
      rw [next]
      refine each k small ?_
      rw [← next]
      rw [Nat.mul_comm unroll lanes] at upper
      omega)
  rw [Nat.zero_mul, Nat.add_zero, Nat.mul_comm unroll lanes] at vectors
  exact vectors.1

section Updates

theorem does_tails (sound : law.Sound width length) (tails : List Nat) {first n : Nat}
    (vector : Nat → Nat → Program α R Unit) (whole : ∀ lanes, lanes ∈ tails → width ∣ lanes) (start : width ∣ first)
    (inside : first ≤ n) (bounded : n ≤ length)
    (each : ∀ lanes, width ∣ lanes → ∀ i, width ∣ i → i + lanes ≤ n → law.Does (vector lanes i) i (i + lanes)) :
    law.Does (tailLoops tails first n vector) first (tailsReached tails first n) := by
  induction tails generalizing first with
  | nil => exact works_nothing law (fun _ : Unit => 0) first
  | cons lanes shorter ih =>
    have here := whole lanes List.mem_cons_self
    have rest := ih (fun other member => whole other (List.mem_cons_of_mem _ member)) (reached_dvd here start)
      (reached_le inside)
    have vectors := works_while (fun _ : Unit => 0) sound (fun i _ => vector lanes i) here start inside bounded (each lanes here)
    exact vectors.then rest sound (reached_dvd here start) (le_reached _ _ _) (le_tails_reached _ _ _)
      ((tails_reached_le _ (reached_le inside)).trans bounded)

theorem does_vector_loops (sound : law.Sound width length) {lanes unroll : Nat} (tails : List Nat) (whole : width ∣ lanes)
    (wholeTails : ∀ tail, tail ∈ tails → width ∣ tail) (finish : width ∣ length)
    (vector : Nat → Nat → Program α R Unit) (scalar : Nat → Program α R Unit)
    (each : ∀ lanes, width ∣ lanes → ∀ i, width ∣ i → i + lanes ≤ length → law.Does (vector lanes i) i (i + lanes))
    (single : ∀ i, width ∣ i → i + width ≤ length → law.Does (scalar i) i (i + width)) :
    law.Does (vectorLoops lanes unroll tails width length vector scalar) 0 length := by
  have unrolled := works_while (fun _ : Unit => 0) sound
    (fun i _ => Program.each unroll (fun k => vector lanes (i + k * lanes))) (whole.mul_right unroll) (Nat.dvd_zero width)
    (Nat.zero_le _) (Nat.le_refl _) (fun i start fits => works_unrolled (fun _ : Unit => 0) sound
      (fun k _ => vector lanes (i + k * lanes)) whole start fits
      (fun k _ inside => each lanes whole _ (Nat.dvd_add start (whole.mul_left k)) inside))
  have first : width ∣ reached (lanes * unroll) 0 length := reached_dvd (whole.mul_right unroll) (Nat.dvd_zero width)
  have inside : reached (lanes * unroll) 0 length ≤ length := reached_le (Nat.zero_le length)
  rw [vectorLoops]
  dsimp only
  generalize reached (lanes * unroll) 0 length = i at unrolled first inside ⊢
  have vectors := works_while (fun _ : Unit => 0) sound (fun i _ => vector lanes i) whole first inside (Nat.le_refl _)
    (each lanes whole)
  have second : width ∣ reached lanes i length := reached_dvd whole first
  have inside' : reached lanes i length ≤ length := reached_le inside
  have low := le_reached lanes i length
  generalize reached lanes i length = j at vectors second inside' low ⊢
  have shorter := does_tails sound tails vector wholeTails second inside' (Nat.le_refl _) each
  have third : width ∣ tailsReached tails j length := tails_reached_dvd tails wholeTails second
  have inside'' := tails_reached_le tails inside'
  have low' := le_tails_reached tails j length
  generalize tailsReached tails j length = k at shorter third inside'' low' ⊢
  have rest := works_while (fun _ : Unit => 0) sound (fun i _ => scalar i) (Nat.dvd_refl width) third inside'' (Nat.le_refl _)
    single
  rw [reached_last third finish inside''] at rest
  exact unrolled.then (vectors.then (shorter.then rest sound third low' inside'' (Nat.le_refl _)) sound second low inside'
    (Nat.le_refl _)) sound first (Nat.zero_le _) inside (Nat.le_refl _)

end Updates

section Sums

def laneSum (finish : Nat → A → A) (lanes : Nat) (acc : Nat → A) : A := reduceAdd lanes (fun lane => finish lane (acc lane))

theorem lane_sum (hom : Nat → A →+ A) (lanes : Nat) (acc : Nat → A) :
    laneSum (fun lane => hom lane) lanes acc = ∑ lane ∈ Finset.range lanes, hom lane (acc lane) := by
  rw [laneSum, reduceAdd, loop_accumulate, zero_add]

theorem lane_sum_zero (hom : Nat → A →+ A) (lanes : Nat) : laneSum (fun lane => hom lane) lanes (fun _ => 0) = 0 := by
  rw [lane_sum]
  exact Finset.sum_eq_zero (fun lane _ => map_zero (hom lane))

theorem works_lanes (hom : Nat → A →+ A) (accumulate : (Nat → A) → Program α R (Nat → A)) {lanes i : Nat}
    (inside : ∀ acc, (accumulate acc).Within law.allowed (fun _ => True))
    (steps : ∀ acc memory, law.holds memory → ∃ (gain : Nat → A) (final : α → R),
      (accumulate acc).run memory = (fun lane => gain lane + acc lane, final) ∧
      Overwrites {cell | law.index cell ∈ Set.Ico i (i + lanes)} law.address (law.value memory) memory final ∧
      ∀ lane, lane < lanes → hom lane (gain lane) = law.term memory (i + lane)) :
    law.Works (laneSum (fun lane => hom lane) lanes) (laneSum (fun lane => hom lane) lanes) accumulate i (i + lanes) := by
  refine ⟨inside, fun acc memory held => ?_⟩
  obtain ⟨gain, final, ran, overwrites, meaning⟩ := steps acc memory held
  refine ⟨_, final, ran, overwrites, ?_⟩
  rw [lane_sum, lane_sum, Finset.sum_Ico_eq_sum_range, Nat.add_sub_cancel_left, ← Finset.sum_add_distrib]
  refine Finset.sum_congr rfl (fun lane member => ?_)
  rw [map_add, meaning lane (Finset.mem_range.mp member), add_comm]

theorem works_accumulator {measure : S → A} {unroll k : Nat} (small : k < unroll) (accumulate : S → Program α R S)
    {first last : Nat} (works : law.Works measure measure accumulate first last) :
    law.Works (fun accs : Nat → S => ∑ k ∈ Finset.range unroll, measure (accs k))
      (fun accs : Nat → S => ∑ k ∈ Finset.range unroll, measure (accs k))
      (fun accs => do
        let acc ← accumulate (accs k)
        pure (Function.update accs k acc)) first last := by
  refine ⟨fun accs => (works.inside (accs k)).bind (fun _ _ => trivial), fun accs memory held => ?_⟩
  obtain ⟨acc, final, ran, overwrites, sum⟩ := works.works (accs k) memory held
  refine ⟨Function.update accs k acc, final, by rw [Program.run_do, ran]; rfl, overwrites, ?_⟩
  have one : (fun other => measure (Function.update accs k acc other)) =
      Function.update (fun other => measure (accs other)) k (measure acc) := by
    funext other
    by_cases same : other = k
    · rw [same, Function.update_self, Function.update_self]
    · rw [Function.update_of_ne same, Function.update_of_ne same]
  have member := Finset.mem_range.mpr small
  rw [one, Finset.sum_update_of_mem member, sum, Finset.sum_eq_add_sum_sdiff_singleton_of_mem member
    (fun other => measure (accs other)), add_right_comm]

theorem works_tails (sound : law.Sound width length) (tails : List Nat) {first : Nat}
    (accumulate : Nat → Nat → (Nat → A) → Program α R (Nat → A)) (whole : ∀ lanes, lanes ∈ tails → width ∣ lanes)
    (start : width ∣ first) (inside : first ≤ length)
    (each : ∀ lanes, lanes ∈ tails → ∀ i, width ∣ i → i + lanes ≤ length →
      law.Works (reduceAdd lanes) (reduceAdd lanes) (accumulate lanes i) i (i + lanes)) :
    law.Works id id (tailSums tails first length accumulate) first (tailsReached tails first length) := by
  induction tails generalizing first with
  | nil => exact works_nothing law id first
  | cons lanes shorter ih =>
    have here := whole lanes List.mem_cons_self
    have vectors := works_while (reduceAdd lanes) sound (accumulate lanes) here start inside (Nat.le_refl _)
      (each lanes List.mem_cons_self)
    have rest := ih (fun other member => whole other (List.mem_cons_of_mem _ member)) (reached_dvd here start)
      (reached_le inside) (fun other member => each other (List.mem_cons_of_mem _ member))
    have zero : reduceAdd lanes (fun _ => (0 : A)) = 0 := lane_sum_zero (fun _ => AddMonoidHom.id A) lanes
    -- The sum so far rides along while the tail vectors gather theirs.
    have vectors' : ∀ sum, law.Works (fun _ : Unit => sum) (fun acc => sum + reduceAdd lanes acc)
        (fun _ => whileFits lanes first length (accumulate lanes) (fun _ => 0)) first (reached lanes first length) := by
      refine fun sum => ⟨fun _ => vectors.inside _, fun _ memory held => ?_⟩
      obtain ⟨acc, final, ran, overwrites, total⟩ := vectors.works (fun _ => 0) memory held
      exact ⟨acc, final, ran, overwrites, by rw [total, zero, zero_add]⟩
    have both := fun sum => (vectors' sum).then (rest.from (fun acc => sum + reduceAdd lanes acc) (fun _ => rfl)) sound
      (reached_dvd here start) (le_reached _ _ _) (le_tails_reached _ _ _) (tails_reached_le _ (reached_le inside))
    exact ⟨fun sum => (both sum).inside (), fun sum memory held => (both sum).works () memory held⟩

theorem works_vector_sums (sound : law.Sound width length) {lanes : Nat} (unroll : Nat) (tails : List Nat)
    (hom : Nat → A →+ A) (whole : width ∣ lanes) (wholeTails : ∀ tail, tail ∈ tails → width ∣ tail) (finish : width ∣ length)
    (accumulate : Nat → Nat → (Nat → A) → Program α R (Nat → A)) (scalar : Nat → A → Program α R A)
    (each : ∀ i, width ∣ i → i + lanes ≤ length → law.Works (laneSum (fun lane => hom lane) lanes)
      (laneSum (fun lane => hom lane) lanes) (accumulate lanes i) i (i + lanes))
    (eachTail : ∀ tail, tail ∈ tails → ∀ i, width ∣ i → i + tail ≤ length →
      law.Works (reduceAdd tail) (reduceAdd tail) (accumulate tail i) i (i + tail))
    (single : ∀ i, width ∣ i → i + width ≤ length → law.Works id id (scalar i) i (i + width)) :
    law.Works (fun _ : Unit => 0) id
      (fun _ => vectorSums lanes unroll tails width length accumulate (fun lane => hom lane) scalar) 0 length := by
  have unrolled := works_while
    (fun accs : Nat → Nat → A => ∑ k ∈ Finset.range unroll, laneSum (fun lane => hom lane) lanes (accs k)) sound
    (fun i accs => Program.fold unroll (fun k accs => do
      let acc ← accumulate lanes (i + k * lanes) (accs k)
      pure (Function.update accs k acc)) accs) (whole.mul_right unroll) (Nat.dvd_zero width)
    (Nat.zero_le _) (Nat.le_refl _) (fun i start fits => works_unrolled _ sound _ whole start fits
      (fun k small inside => works_accumulator small (accumulate lanes (i + k * lanes))
        (each _ (Nat.dvd_add start (whole.mul_left k)) inside)))
  have first : width ∣ reached (lanes * unroll) 0 length := reached_dvd (whole.mul_right unroll) (Nat.dvd_zero width)
  have inside : reached (lanes * unroll) 0 length ≤ length := reached_le (Nat.zero_le length)
  simp only [vectorSums]
  generalize reached (lanes * unroll) 0 length = i at unrolled first inside ⊢
  have vectors := works_while (laneSum (fun lane => hom lane) lanes) sound (accumulate lanes) whole first inside (Nat.le_refl _)
    each
  have second : width ∣ reached lanes i length := reached_dvd whole first
  have inside' : reached lanes i length ≤ length := reached_le inside
  have low := le_reached lanes i length
  generalize reached lanes i length = j at vectors second inside' low ⊢
  have shorter := works_tails sound tails accumulate wholeTails second inside' eachTail
  have third : width ∣ tailsReached tails j length := tails_reached_dvd tails wholeTails second
  have inside'' := tails_reached_le tails inside'
  have low' := le_tails_reached tails j length
  generalize tailsReached tails j length = k at shorter third inside'' low' ⊢
  have rest := works_while id sound scalar (Nat.dvd_refl width) third inside'' (Nat.le_refl _) single
  rw [reached_last third finish inside''] at rest
  have together : ∀ accs : Nat → Nat → A,
      laneSum (fun lane => hom lane) lanes (fun lane => loop unroll (fun k sum => sum + accs k lane) 0) =
        ∑ k ∈ Finset.range unroll, laneSum (fun lane => hom lane) lanes (accs k) := by
    intro accs
    simp only [lane_sum, loop_accumulate, zero_add, map_sum]
    exact Finset.sum_comm
  have zeros : ∑ k ∈ Finset.range unroll, laneSum (fun lane => hom lane) lanes (fun _ => 0) = 0 :=
    Finset.sum_eq_zero (fun _ _ => lane_sum_zero hom lanes)
  have tailed := (shorter.then rest sound third low' inside'' (Nat.le_refl _)).from
    (fun acc : Nat → A => reduceAdd lanes (fun lane => hom lane (acc lane))) (fun _ => rfl)
  have vectored := (vectors.then tailed sound second low inside' (Nat.le_refl _)).from
    (fun (accs : Nat → Nat → A) lane => loop unroll (fun k sum => sum + accs k lane) 0) together
  exact (unrolled.then vectored sound first (Nat.zero_le _) inside (Nat.le_refl _)).from (fun _ : Unit => fun _ _ => 0)
    (fun _ => zeros)

end Sums

end Laws

end Zynum.FixedVector
