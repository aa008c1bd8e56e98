import Mathlib.Data.List.Perm.Basic
import Mathlib.Data.List.Range
import Mathlib.Data.Nat.Count
import Mathlib.Logic.Function.Basic
import Mathlib.Algebra.BigOperators.Group.Finset.Basic

set_option autoImplicit false

/- Jobs handed out to numbered slots. Either slot k has job k and nothing else,
   or every slot draws its jobs from one counter until the counter has passed
   the last job. Both leave every job begun once and ended once. -/
namespace JobBoard

inductive Slot where
  | waiting
  | called
  | working (job : Nat)
  | spent
  deriving DecidableEq, Repr

-- Everything was done once, whatever the order.
structure Complete (jobs : Nat) (begun ended : List Nat) : Prop where
  begun : begun.Perm (List.range jobs)
  ended : ended.Perm (List.range jobs)

theorem perm_range_of_count {jobs : Nat} {items : List Nat}
    (counted : ∀ job, items.count job = if job < jobs then 1 else 0) : items.Perm (List.range jobs) := by
  apply List.perm_iff_count.mpr
  intro job
  rw [counted job, List.Nodup.count List.nodup_range]
  simp only [List.mem_range]

theorem count_append_self (items : List Nat) (job : Nat) : (items ++ [job]).count job = items.count job + 1 := by
  simp

theorem count_append_other (items : List Nat) (job other : Nat) (apart : other ≠ job) :
    (items ++ [job]).count other = items.count other := by
  simp [List.count_append, Ne.symm apart]

def Slot.begins : Slot → Nat
  | .waiting => 0
  | .called => 0
  | .working _ => 1
  | .spent => 1

def Slot.ends : Slot → Nat
  | .spent => 1
  | _ => 0

-- What the counts of a job say about the slot of the same number.
structure Own (jobs slot : Nat) (state : Slot) (begun ended : Nat) : Prop where
  outside : jobs ≤ slot → state = .waiting
  mine : ∀ job, state = .working job → job = slot
  beginnings : begun = state.begins
  endings : ended = state.ends

def Direct (jobs : Nat) (slots : Nat → Slot) (begun ended : List Nat) : Prop :=
  ∀ slot, Own jobs slot (slots slot) (begun.count slot) (ended.count slot)

theorem direct_opened (jobs : Nat) : Direct jobs (fun _ => .waiting) [] [] :=
  fun _ => ⟨fun _ => rfl, fun _ => nofun, rfl, rfl⟩

section Direct

variable {jobs slot job : Nat} {slots : Nat → Slot} {begun ended begun' ended' : List Nat}

theorem Direct.change (board : Direct jobs slots begun ended) (slot : Nat) (state : Slot)
    (here : Own jobs slot state (begun'.count slot) (ended'.count slot))
    (elsewhere : ∀ other, other ≠ slot → begun'.count other = begun.count other ∧ ended'.count other = ended.count other) :
    Direct jobs (Function.update slots slot state) begun' ended' := by
  intro other
  by_cases same : other = slot
  · subst same
    rw [Function.update_self]
    exact here
  · rw [Function.update_of_ne same, (elsewhere other same).1, (elsewhere other same).2]
    exact board other

theorem Direct.inside (board : Direct jobs slots begun ended) (busy : slots slot ≠ .waiting) : ¬ jobs ≤ slot :=
  fun beyond => busy ((board slot).outside beyond)

theorem Direct.calls (board : Direct jobs slots begun ended) (inside : slot < jobs) (waiting : slots slot = .waiting) :
    Direct jobs (Function.update slots slot .called) begun ended := by
  have here := board slot
  rw [waiting] at here
  apply board.change slot .called _ (fun _ _ => ⟨rfl, rfl⟩)
  exact ⟨fun beyond => absurd inside (Nat.not_lt_of_le beyond), fun _ => nofun, here.beginnings, here.endings⟩

theorem Direct.begins (board : Direct jobs slots begun ended) (called : slots slot = .called) :
    Direct jobs (Function.update slots slot (.working slot)) (begun ++ [slot]) ended := by
  have inside := board.inside (by rw [called]; exact nofun)
  have here := board slot
  rw [called] at here
  apply board.change slot (.working slot) _ (fun other apart => ⟨count_append_other begun slot other apart, rfl⟩)
  rw [count_append_self, here.beginnings]
  exact ⟨fun beyond => absurd beyond inside, fun _ same => (Slot.working.inj same).symm, rfl, here.endings⟩

theorem Direct.finishes (board : Direct jobs slots begun ended) (working : slots slot = .working job) :
    Direct jobs (Function.update slots slot .spent) begun (ended ++ [job]) := by
  have inside := board.inside (by rw [working]; exact nofun)
  have here := board slot
  have mine := here.mine job working
  subst mine
  rw [working] at here
  apply board.change job .spent _ (fun other apart => ⟨rfl, count_append_other ended job other apart⟩)
  rw [count_append_self, here.endings]
  exact ⟨fun beyond => absurd beyond inside, fun _ => nofun, here.beginnings, rfl⟩

theorem Direct.complete (board : Direct jobs slots begun ended) (spent : ∀ slot, slot < jobs → slots slot = .spent) :
    Complete jobs begun ended := by
  have counted : ∀ job, begun.count job = (if job < jobs then 1 else 0) ∧ ended.count job = if job < jobs then 1 else 0 := by
    intro job
    rw [(board job).beginnings, (board job).endings]
    by_cases inside : job < jobs
    · rw [spent job inside, if_pos inside]
      exact ⟨rfl, rfl⟩
    · rw [(board job).outside (Nat.le_of_not_lt inside), if_neg inside]
      exact ⟨rfl, rfl⟩
  exact ⟨perm_range_of_count (fun job => (counted job).1), perm_range_of_count (fun job => (counted job).2)⟩

end Direct

structure Drawn (jobs : Nat) (slots : Nat → Slot) (begun ended : List Nat) (next : Nat) : Prop where
  drawn : ∀ job, begun.count job = if job < next ∧ job < jobs then 1 else 0
  held : ∀ slot job, slots slot = .working job → job < next ∧ job < jobs ∧ ended.count job = 0
  alone : ∀ first second job, slots first = .working job → slots second = .working job → first = second
  settled : ∀ job, (∀ slot, slots slot ≠ .working job) → ended.count job = begun.count job
  passed : ∀ slot, slots slot = .spent → jobs ≤ next

theorem drawn_opened (jobs : Nat) : Drawn jobs (fun _ => .waiting) [] [] 0 where
  drawn job := (if_neg (fun drawn => Nat.not_lt_zero job drawn.1)).symm
  held _ _ same := nomatch same
  alone _ _ _ same := nomatch same
  settled _ _ := rfl
  passed _ same := nomatch same

section Drawn

variable {jobs slot job next : Nat} {slots : Nat → Slot} {begun ended : List Nat}

theorem working_update (slots : Nat → Slot) (slot : Nat) (state : Slot) (before : ∀ job, slots slot ≠ .working job)
    (after : ∀ job, state ≠ .working job) (other job : Nat) :
    Function.update slots slot state other = .working job ↔ slots other = .working job := by
  by_cases same : other = slot
  · subst same
    rw [Function.update_self]
    exact ⟨fun working => absurd working (after job), fun working => absurd working (before job)⟩
  · rw [Function.update_of_ne same]

theorem Drawn.still (board : Drawn jobs slots begun ended next) (later : Nat) (slot : Nat) (state : Slot)
    (before : ∀ job, slots slot ≠ .working job) (after : ∀ job, state ≠ .working job)
    (past : ∀ job, (job < later ∧ job < jobs) ↔ (job < next ∧ job < jobs)) (passed : state = .spent → jobs ≤ next)
    (grown : next ≤ later) : Drawn jobs (Function.update slots slot state) begun ended later := by
  have moved := working_update slots slot state before after
  constructor
  · intro job
    rw [board.drawn job]
    simp only [past job]
  · intro other job working
    have held := board.held other job ((moved other job).mp working)
    exact ⟨Nat.lt_of_lt_of_le held.1 grown, held.2⟩
  · intro first second job atFirst atSecond
    exact board.alone first second job ((moved first job).mp atFirst) ((moved second job).mp atSecond)
  · intro job free
    exact board.settled job (fun other working => free other ((moved other job).mpr working))
  · intro other spent
    apply Nat.le_trans _ grown
    by_cases same : other = slot
    · subst same
      rw [Function.update_self] at spent
      exact passed spent
    · rw [Function.update_of_ne same] at spent
      exact board.passed other spent

theorem Drawn.calls (board : Drawn jobs slots begun ended next) (waiting : slots slot = .waiting) :
    Drawn jobs (Function.update slots slot .called) begun ended next :=
  board.still next slot .called (fun _ => by rw [waiting]; exact nofun) (fun _ => nofun) (fun _ => Iff.rfl) nofun (Nat.le_refl next)

theorem Drawn.runs_out (board : Drawn jobs slots begun ended next) (called : slots slot = .called) (empty : jobs ≤ next) :
    Drawn jobs (Function.update slots slot .spent) begun ended (next + 1) := by
  apply board.still (next + 1) slot .spent (fun _ => by rw [called]; exact nofun) (fun _ => nofun) _ (fun _ => empty)
    (Nat.le_succ next)
  intro job
  omega

theorem Drawn.draws (board : Drawn jobs slots begun ended next) (called : slots slot = .called) (left : next < jobs) :
    Drawn jobs (Function.update slots slot (.working next)) (begun ++ [next]) ended (next + 1) := by
  have fresh : ∀ other, slots other ≠ .working next := fun other working =>
    Nat.lt_irrefl next (board.held other next working).1
  have unbegun : begun.count next = 0 := by
    rw [board.drawn next, if_neg (fun drawn => Nat.lt_irrefl next drawn.1)]
  constructor
  · intro job
    by_cases same : job = next
    · subst same
      rw [count_append_self, unbegun, if_pos ⟨Nat.lt_succ_self job, left⟩]
    · rw [count_append_other begun next job same, board.drawn job]
      have drawn : (job < next ∧ job < jobs) ↔ (job < next + 1 ∧ job < jobs) := by omega
      simp only [drawn]
  · intro other job working
    by_cases same : other = slot
    · subst same
      rw [Function.update_self, Slot.working.injEq] at working
      subst working
      exact ⟨Nat.lt_succ_self next, left, (board.settled next fresh).trans unbegun⟩
    · rw [Function.update_of_ne same] at working
      have held := board.held other job working
      exact ⟨Nat.lt_succ_of_lt held.1, held.2⟩
  · intro first second job atFirst atSecond
    by_cases one : first = slot
    · by_cases two : second = slot
      · rw [one, two]
      · subst one
        rw [Function.update_self, Slot.working.injEq] at atFirst
        rw [Function.update_of_ne two] at atSecond
        exact absurd (atFirst ▸ atSecond) (fresh second)
    · rw [Function.update_of_ne one] at atFirst
      by_cases two : second = slot
      · subst two
        rw [Function.update_self, Slot.working.injEq] at atSecond
        exact absurd (atSecond ▸ atFirst) (fresh first)
      · rw [Function.update_of_ne two] at atSecond
        exact board.alone first second job atFirst atSecond
  · intro job free
    have apart : job ≠ next := fun same => free slot (by rw [Function.update_self, same])
    rw [count_append_other begun next job apart]
    apply board.settled job
    intro other working
    by_cases same : other = slot
    · subst same
      rw [called] at working
      cases working
    · exact free other (by rw [Function.update_of_ne same]; exact working)
  · intro other spent
    by_cases same : other = slot
    · subst same
      rw [Function.update_self] at spent
      cases spent
    · rw [Function.update_of_ne same] at spent
      exact Nat.le_succ_of_le (board.passed other spent)

theorem Drawn.finishes (board : Drawn jobs slots begun ended next) (working : slots slot = .working job) :
    Drawn jobs (Function.update slots slot .called) begun (ended ++ [job]) next := by
  have held := board.held slot job working
  have kept : ∀ other item, Function.update slots slot .called other = .working item → other ≠ slot ∧ slots other =
    .working item := by
    intro other item atWork
    by_cases same : other = slot
    · subst same
      rw [Function.update_self] at atWork
      cases atWork
    · rw [Function.update_of_ne same] at atWork
      exact ⟨same, atWork⟩
  constructor
  · exact board.drawn
  · intro other item atWork
    have old := kept other item atWork
    have apart : item ≠ job := fun same => old.1 (board.alone other slot job (same ▸ old.2) working)
    rw [count_append_other ended job item apart]
    exact board.held other item old.2
  · intro first second item atFirst atSecond
    exact board.alone first second item (kept first item atFirst).2 (kept second item atSecond).2
  · intro item free
    by_cases same : item = job
    · subst same
      rw [count_append_self, held.2.2, board.drawn item, if_pos ⟨held.1, held.2.1⟩]
    · rw [count_append_other ended job item same]
      apply board.settled item
      intro other atWork
      by_cases here : other = slot
      · subst here
        rw [working, Slot.working.injEq] at atWork
        exact same atWork.symm
      · exact free other (by rw [Function.update_of_ne here]; exact atWork)
  · intro other spent
    by_cases same : other = slot
    · subst same
      rw [Function.update_self] at spent
      cases spent
    · rw [Function.update_of_ne same] at spent
      exact board.passed other spent

theorem Drawn.complete {width : Nat} (board : Drawn jobs slots begun ended next) (some : 0 < width)
    (spent : ∀ slot, slot < width → slots slot = .spent) (outside : ∀ slot, width ≤ slot → slots slot = .waiting) :
    Complete jobs begun ended := by
  have passed := board.passed 0 (spent 0 some)
  have counted : ∀ job, begun.count job = if job < jobs then 1 else 0 := by
    intro job
    rw [board.drawn job]
    have drawn : (job < next ∧ job < jobs) ↔ job < jobs := by omega
    simp only [drawn]
  have free : ∀ job slot, slots slot ≠ .working job := by
    intro job slot working
    by_cases inside : slot < width
    · rw [spent slot inside] at working
      cases working
    · rw [outside slot (Nat.le_of_not_lt inside)] at working
      cases working
  exact ⟨perm_range_of_count counted, perm_range_of_count (fun job => (board.settled job (free job)).trans (counted job))⟩

end Drawn

def headcount (parties : Nat) (reported : Nat → Bool) : Nat := Nat.count (fun party => reported party = true) parties

section Headcount

variable {parties party : Nat} {reported later : Nat → Bool}

theorem headcount_succ (parties : Nat) (reported : Nat → Bool) :
    headcount (parties + 1) reported = headcount parties reported + if reported parties = true then 1 else 0 :=
  Nat.count_succ _ _

theorem headcount_le (parties : Nat) (reported : Nat → Bool) : headcount parties reported ≤ parties := by
  induction parties with
  | zero => exact Nat.le_refl 0
  | succ past ih =>
    rw [headcount_succ]
    split <;> omega

theorem headcount_congr (same : ∀ party, party < parties → later party = reported party) :
    headcount parties later = headcount parties reported := by
  induction parties with
  | zero => rfl
  | succ past ih =>
    rw [headcount_succ, headcount_succ, ih (fun party inside => same party (Nat.lt_succ_of_lt inside)), same past
      (Nat.lt_succ_self past)]

theorem headcount_report (inside : party < parties) (before : reported party = false) (after : later party = true)
    (others : ∀ other, other ≠ party → later other = reported other) : headcount parties later = headcount parties reported + 1 := by
  induction parties with
  | zero => exact absurd inside (Nat.not_lt_zero party)
  | succ past ih =>
    rw [headcount_succ, headcount_succ]
    by_cases last : party = past
    · subst last
      rw [headcount_congr (fun other below => others other (Nat.ne_of_lt below)), before, after]
      rfl
    · rw [ih (by omega), others past (Ne.symm last)]
      omega

theorem headcount_replace {σ : Type} (states : Nat → σ) (reported : Nat → σ → Bool) (place : Nat → Nat) (state : σ)
    (distinct : Function.Injective place) (inside : party < parties) (before : reported party (states (place party)) = false) :
    headcount parties (fun other => reported other (Function.update states (place party) state (place other))) =
      headcount parties (fun other => reported other (states (place other))) + if reported party state = true then 1 else 0 := by
  have others : ∀ other, other ≠ party →
      reported other (Function.update states (place party) state (place other)) = reported other (states (place other)) := by
    intro other apart
    rw [Function.update_of_ne (fun same => apart (distinct same))]
  by_cases now : reported party state = true
  · rw [if_pos now]
    exact headcount_report inside before (by rw [Function.update_self]; exact now) others
  · rw [if_neg now, Nat.add_zero]
    apply headcount_congr
    intro other _
    by_cases same : other = party
    · subst same
      rw [Function.update_self, before]
      exact Bool.eq_false_iff.mpr now
    · exact others other same

theorem headcount_all (all : parties ≤ headcount parties reported) (inside : party < parties) : reported party = true := by
  induction parties with
  | zero => exact absurd inside (Nat.not_lt_zero party)
  | succ past ih =>
    rw [headcount_succ] at all
    have few := headcount_le past reported
    by_cases here : reported past = true
    · by_cases last : party = past
      · rw [last]
        exact here
      · apply ih _ (by omega)
        rw [if_pos here] at all
        omega
    · rw [if_neg here] at all
      omega

theorem headcount_full (all : ∀ party, party < parties → reported party = true) : headcount parties reported = parties := by
  induction parties with
  | zero => rfl
  | succ past ih =>
    rw [headcount_succ, ih (fun party inside => all party (Nat.lt_succ_of_lt inside)), if_pos (all past (Nat.lt_succ_self past))]

theorem headcount_short (short : headcount parties reported < parties) : ∃ party, party < parties ∧ reported party = false := by
  by_contra nobody
  have full : headcount parties reported = parties := by
    apply headcount_full
    intro party inside
    by_contra missing
    exact nobody ⟨party, inside, Bool.eq_false_iff.mpr missing⟩
  omega

end Headcount

def effort (parties : Nat) (left : Nat → Nat) : Nat := ∑ party ∈ Finset.range parties, left party

section Effort

variable {parties party : Nat} {left later : Nat → Nat}

theorem effort_congr (same : ∀ other, other < parties → later other = left other) : effort parties later = effort parties left :=
  Finset.sum_congr rfl (fun other member => same other (Finset.mem_range.mp member))

theorem effort_change (left later : Nat → Nat) (inside : party < parties)
    (others : ∀ other, other ≠ party → later other = left other) :
    effort parties later + left party = effort parties left + later party := by
  have member : party ∈ Finset.range parties := Finset.mem_range.mpr inside
  have rest : ∑ other ∈ (Finset.range parties).erase party, later other = ∑ other ∈ (Finset.range parties).erase party, left other :=
    Finset.sum_congr rfl (fun other elsewhere => others other (Finset.ne_of_mem_erase elsewhere))
  calc effort parties later + left party
      = (later party + ∑ other ∈ (Finset.range parties).erase party, later other) + left party := by
        rw [effort, Finset.add_sum_erase _ later member]
    _ = (left party + ∑ other ∈ (Finset.range parties).erase party, left other) + later party := by
        rw [rest]
        omega
    _ = effort parties left + later party := by rw [effort, Finset.add_sum_erase _ left member]

theorem effort_grows (others : ∀ other, other ≠ party → later other = left other) :
    effort parties later ≤ effort parties left + later party := by
  by_cases inside : party < parties
  · have change := effort_change left later inside others
    omega
  · have same : effort parties later = effort parties left :=
      effort_congr (fun other below => others other (fun equal => inside (equal ▸ below)))
    omega

end Effort

end JobBoard
