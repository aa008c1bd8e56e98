import Zynum.Foundation.CellUpdate

set_option autoImplicit false

/- Column and dot-product loops over a scaled vector. Each adds one column of a
   matrix times one coefficient, or one inner product, to the cells it owns. -/
namespace ArrayProgram

variable {R : Type} [CommRing R]

theorem column_run_sum (n : Nat) (alpha beta : R) (entry : Nat → R) (x : Nat → R) (old : R) :
    loop n (fun j value => value + entry j * (alpha * x j)) (beta * old) =
      alpha * ∑ j ∈ Finset.range n, entry j * x j + beta * old := by
  rw [loop_accumulate, Finset.mul_sum, add_comm]
  congr 1
  exact Finset.sum_congr rfl (fun j _ => by ring)

theorem column_loop_updates (m n : Nat) (address : Nat → Nat) (alpha beta : R) (entry : Nat → Nat → R) (x : Nat → R)
    (scale : (Nat → R) → Nat → R) (column : Nat → (Nat → R) → Option (Nat → R))
    (scaled : Updates (Set.Iio m) address (fun _ old => beta * old) scale)
    (each : ∀ j, j < n → ∃ total, (∀ y, column j y = some (total y)) ∧
      Updates (Set.Iio m) address (fun i old => old + entry i j * (alpha * x j)) total) :
    ∃ total, (∀ y, trappingLoop n column (scale y) = some (total y)) ∧
      Updates (Set.Iio m) address (fun i old => alpha * ∑ j ∈ Finset.range n, entry i j * x j + beta * old) total := by
  obtain ⟨totals, runs, updates⟩ := trapping_loop_choose n column
    (fun j total => Updates (Set.Iio m) address (fun i old => old + entry i j * (alpha * x j)) total) each
  have repeated := Updates.repeat n (fun j i old => old + entry i j * (alpha * x j)) totals updates
  refine ⟨fun y => loop n totals (scale y), fun y => runs (scale y), ?_⟩
  refine (scaled.then_same repeated).congr rfl (fun i old _ => ?_)
  exact column_run_sum n alpha beta (entry i) x old

theorem dot_loop_updates (n : Nat) (address : Nat → Nat) (injective : Set.InjOn address (Set.Iio n)) (alpha beta : R)
    (sum : Nat → R) (scale : (Nat → R) → Nat → R) (dot : Nat → (Nat → R) → Option (Nat → R))
    (scaled : Updates (Set.Iio n) address (fun _ old => beta * old) scale)
    (each : ∀ j, j < n → ∃ total, (∀ y, dot j y = some (total y)) ∧
      Updates {j} address (fun i old => old + alpha * sum i) total) :
    ∃ total, (∀ y, trappingLoop n dot (scale y) = some (total y)) ∧
      Updates (Set.Iio n) address (fun i old => alpha * sum i + beta * old) total := by
  obtain ⟨totals, runs, updates⟩ := trapping_loop_choose n dot
    (fun j total => Updates {j} address (fun i old => old + alpha * sum i) total) each
  have covered : {index | ∃ task, task < n ∧ index ∈ ({task} : Set Nat)} = Set.Iio n := by
    ext index
    simp only [Set.mem_singleton_iff, Set.mem_ofPred_eq, Set.mem_Iio, exists_eq_right']
  have whole := Updates.loop_apart n (fun j => ({j} : Set Nat)) totals updates (covered ▸ injective)
    (fun _ _ _ _ different => Set.disjoint_singleton.mpr different)
  rw [covered] at whole
  refine ⟨fun y => loop n totals (scale y), fun y => runs (scale y), ?_⟩
  exact (scaled.then_same whole).congr rfl (fun _ _ _ => add_comm _ _)

theorem updates_after_scale {cells : Set Nat} {address : Nat → Nat} {beta alpha : R} {sum : Nat → R}
    {scale : (Nat → R) → Nat → R} {add : (Nat → R) → Nat → R}
    (scaled : Updates cells address (fun _ old => beta * old) scale)
    (added : Updates cells address (fun i old => old + alpha * sum i) add) :
    Updates cells address (fun i old => alpha * sum i + beta * old) (fun y => add (scale y)) :=
  (scaled.then_same added).congr rfl (fun _ _ _ => add_comm _ _)

theorem lane_blocks_sum {M : Type} [AddCommMonoid M] (turns lanes : Nat) (term : Nat → M) :
    ∑ lane ∈ Finset.range lanes, ∑ turn ∈ Finset.range turns, term (turn * lanes + lane) = ∑ p ∈ Finset.range (turns * lanes),
      term p := by
  rw [Finset.sum_comm]
  induction turns with
  | zero => rw [Nat.zero_mul, Finset.sum_range_zero, Finset.sum_range_zero]
  | succ turns ih => rw [Finset.sum_range_succ, ih, Nat.succ_mul, Finset.sum_range_add]

end ArrayProgram
