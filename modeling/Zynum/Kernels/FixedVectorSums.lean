import Zynum.Kernels.FixedVectorExact
import Zynum.Vector.Sums

set_option autoImplicit false

/- The reductions of the fixed-width kernels: whichever accumulators an element
   goes through, the lanes add up to the sum of the definition. -/
namespace Zynum.FixedVector

open ArrayProgram LevelOne VectorConfig

section Lanes

variable {R A : Type} [AddCommMonoid A] {allowed : Set Nat} {term : (Nat → R) → Nat → A}

def sumLaw (term : (Nat → R) → Nat → A) (allowed : Set Nat) : Law Empty Nat R A :=
  ⟨fun _ => True, Empty.elim, Empty.elim, fun _ => Empty.elim, term, allowed⟩

omit [AddCommMonoid A] in
theorem sum_sound (term : (Nat → R) → Nat → A) (allowed : Set Nat) (width length : Nat) :
    (sumLaw term allowed).Sound width length := by
  refine ⟨fun cell => cell.elim, fun _ _ cell => cell.elim, fun before after i agree => ?_, fun _ _ _ held => held⟩
  have same : before = after := funext fun place => agree place (fun other => other.elim)
  rw [same]

theorem nothing_stored {cells : Set Empty} {address : Empty → Nat} {value : Empty → R} (memory : Nat → R) :
    Overwrites cells address value memory memory := ⟨fun cell => cell.elim, fun _ _ => rfl⟩

theorem sum_lanes (hom : Nat → A →+ A) (accumulate : (Nat → A) → Program Nat R (Nat → A)) {lanes i : Nat}
    (inside : ∀ acc, (accumulate acc).Within allowed (fun _ => True))
    (steps : ∀ acc memory, ∃ gain : Nat → A, (accumulate acc).run memory = (fun lane => gain lane + acc lane, memory) ∧
      ∀ lane, lane < lanes → hom lane (gain lane) = term memory (i + lane)) :
    (sumLaw term allowed).Works (laneSum (fun lane => hom lane) lanes) (laneSum (fun lane => hom lane) lanes) accumulate i
      (i + lanes) := by
  refine works_lanes hom accumulate inside (fun acc memory _ => ?_)
  obtain ⟨gain, ran, meaning⟩ := steps acc memory
  exact ⟨gain, memory, ran, nothing_stored memory, meaning⟩

theorem sum_single {width i : Nat} (scalar : A → Program Nat R A) (inside : ∀ sum, (scalar sum).Within allowed (fun _ => True))
    (steps : ∀ sum memory, (scalar sum).run memory = (sum + ∑ part ∈ Finset.range width, term memory (i + part), memory)) :
    (sumLaw term allowed).Works id id scalar i (i + width) := by
  refine ⟨inside, fun sum memory _ => ⟨_, memory, steps sum memory, nothing_stored memory, ?_⟩⟩
  rw [id, id, Finset.sum_Ico_eq_sum_range, Nat.add_sub_cancel_left]
  rfl

theorem sum_answer {program : Program Nat R A} {length : Nat}
    (works : (sumLaw term allowed).Works (fun _ : Unit => 0) id (fun _ => program) 0 length) :
    program.Within allowed (fun _ => True) ∧
      ∀ memory, program.run memory = (∑ i ∈ Finset.range length, term memory i, memory) := by
  refine ⟨works.inside (), fun memory => ?_⟩
  obtain ⟨total, final, ran, kept, sum⟩ := works.works () memory trivial
  have same : final = memory := funext fun place => kept.kept place (fun cell => cell.elim)
  rw [ran, same, ← id_eq total, sum, zero_add, Finset.range_eq_Ico]
  rfl

end Lanes

section Real

variable {R A : Type} [CommRing R] [CommRing A] {n x y : Nat}

theorem dot_loops (widen : R → A) (lanes unroll : Nat) (tails : List Nat) :
    (dotLoops widen lanes unroll tails n (cellsFrom x) (cellsFrom y)).Within (rowCells x n ∪ rowCells y n) (fun _ => True) ∧
      ∀ memory, (dotLoops widen lanes unroll tails n (cellsFrom x) (cellsFrom y)).run memory =
        (∑ i ∈ Finset.range n, widen (memory (cellsFrom x i)) * widen (memory (cellsFrom y i)), memory) := by
  have rowX : rowCells x n ⊆ rowCells x n ∪ rowCells y n := Set.subset_union_left
  have rowY : rowCells y n ⊆ rowCells x n ∪ rowCells y n := Set.subset_union_right
  have vector : ∀ lanes i, i + lanes ≤ n →
      (sumLaw (fun memory i => widen (memory (cellsFrom x i)) * widen (memory (cellsFrom y i)))
        (rowCells x n ∪ rowCells y n)).Works (laneSum (fun _ value => value) lanes) (laneSum (fun _ value => value) lanes)
      (fun acc => do
        let xv ← loadVec lanes (cellsFrom x) i
        let yv ← loadVec lanes (cellsFrom y) i
        pure (fun lane => widen (xv lane) * widen (yv lane) + acc lane)) i (i + lanes) := by
    intro lanes i fits
    refine sum_lanes (fun _ => AddMonoidHom.id A) _ (fun _ => (within_load_vec rowX fits).bind (fun _ _ =>
      (within_load_vec rowY fits).bind (fun _ _ => trivial))) (fun acc memory => ?_)
    rw [Program.run_do, run_load_vec, Program.run_do, run_load_vec]
    refine ⟨_, rfl, fun lane small => ?_⟩
    dsimp only
    rw [if_pos small, if_pos small]
    rfl
  exact sum_answer (works_vector_sums (sum_sound _ _ 1 n) unroll tails (fun _ => AddMonoidHom.id A) (one_dvd lanes)
    (fun tail _ => one_dvd tail) (one_dvd n) _ _ (fun i _ fits => vector lanes i fits)
    (fun tail _ i _ fits => vector tail i fits) (fun i _ fits => sum_single (fun sum => do
        let xi ← Program.get (cellsFrom x i)
        let yi ← Program.get (cellsFrom y i)
        pure (widen xi * widen yi + sum))
      (fun sum => (within_get rowX fits rfl).bind (fun _ _ => (within_get rowY fits rfl).bind (fun _ _ => trivial)))
      (fun sum memory => by rw [Finset.sum_range_one, add_comm]; rfl)))

theorem dot_exact (bytes : Nat) (widen : R → A) (cfg : VectorConfig) :
    KernelSums (dotUnit bytes widen cfg n (cellsFrom x) (cellsFrom y)) (cfg.vectorThreshold ≤ n)
      (rowCells x n ∪ rowCells y n)
      (fun memory => ∑ i ∈ Finset.range n, widen (memory (cellsFrom x i)) * widen (memory (cellsFrom y i))) := by
  obtain ⟨inside, sums⟩ := dot_loops (n := n) (x := x) (y := y) widen cfg.laneCount cfg.unrollVectors
    (vectorTails cfg.laneCount bytes)
  exact kernel_sums inside sums

theorem asum_exact [LinearOrder R] (bytes : Nat) (cfg : VectorConfig) :
    KernelSums (asumUnitReal bytes cfg n (cellsFrom x)) (cfg.vectorThreshold ≤ n) (rowCells x n)
      (fun memory : Nat → R => ∑ i ∈ Finset.range n, |memory (cellsFrom x i)|) := by
  have row : rowCells x n ⊆ rowCells x n := Set.Subset.rfl
  have vector : ∀ lanes i, i + lanes ≤ n →
      (sumLaw (fun (memory : Nat → R) i => |memory (cellsFrom x i)|) (rowCells x n)).Works
        (laneSum (fun _ value => value) lanes) (laneSum (fun _ value => value) lanes)
      (fun acc => do
        let xv ← loadVec lanes (cellsFrom x) i
        pure (fun lane => acc lane + |xv lane|)) i (i + lanes) := by
    intro lanes i fits
    refine sum_lanes (fun _ => AddMonoidHom.id R) _ (fun _ => (within_load_vec row fits).bind (fun _ _ => trivial))
      (fun acc memory => ?_)
    rw [Program.run_do, run_load_vec]
    refine ⟨fun lane => |if lane < lanes then memory (cellsFrom x (i + lane)) else 0|, ?_, fun lane small => ?_⟩
    · refine Prod.ext (funext fun lane => ?_) rfl
      exact add_comm (acc lane) _
    · dsimp only
      rw [if_pos small]
      rfl
  obtain ⟨inside, sums⟩ := sum_answer (works_vector_sums (sum_sound _ _ 1 n) cfg.unrollVectors
    (vectorTails cfg.laneCount bytes) (fun _ => AddMonoidHom.id R) (one_dvd cfg.laneCount)
    (fun tail _ => one_dvd tail) (one_dvd n) _ _ (fun i _ fits => vector cfg.laneCount i fits)
    (fun tail _ i _ fits => vector tail i fits) (fun i _ fits => sum_single (fun sum => do
        let xi ← Program.get (cellsFrom x i)
        pure (sum + |xi|))
      (fun sum => (within_get row fits rfl).bind (fun _ _ => trivial))
      (fun sum memory => by rw [Finset.sum_range_one]; rfl)))
  exact kernel_sums inside sums

end Real

section Complex

variable {R : Type} [CommRing R] {n x y : Nat} (conjx : Bool)

def conjIf (value : Cplx R) : Cplx R := if conjx then ⟨value.re, -value.im⟩ else value

def dotTerm (x y : Nat) (memory : Nat → R) (j : Nat) : Cplx R :=
  ⟨memory (cellsFrom x j) * memory (cellsFrom y j) * reSign conjx j,
    memory (cellsFrom x j) * memory (cellsFrom y (pairSwapMask j)) * imSign conjx j⟩

omit [CommRing R] in
theorem pattern_shift {i : Nat} (start : 2 ∣ i) (even odd : R) (lane : Nat) :
    pairPatternVector even odd (i + lane) = pairPatternVector even odd lane := by
  have same : (i + lane) % 2 = lane % 2 := by omega
  rw [pairPatternVector, pairPatternVector, same]

theorem signs_shift {i : Nat} (start : 2 ∣ i) (lane : Nat) :
    (reSign conjx (i + lane) : R) = reSign conjx lane ∧ (imSign conjx (i + lane) : R) = imSign conjx lane := by
  rw [reSign, imSign, reSign, imSign, pattern_shift start]
  exact ⟨rfl, rfl⟩

theorem swap_shift {i : Nat} (start : 2 ∣ i) (lane : Nat) : pairSwapMask (i + lane) = i + pairSwapMask lane := by
  have same : (i + lane) % 2 = lane % 2 := by omega
  rw [pairSwapMask, pairSwapMask, same]
  split <;> omega

theorem dot_terms (memory : Nat → R) :
    ∑ j ∈ Finset.range (2 * n), dotTerm conjx x y memory j =
      ∑ i ∈ Finset.range n, conjIf conjx (complexAt memory x i) * complexAt memory y i := by
  rw [sum_row]
  refine Finset.sum_congr rfl (fun i _ => ?_)
  rw [Finset.sum_range_succ, Finset.sum_range_one, Nat.add_zero]
  have even : (2 * i) % 2 = 0 := by omega
  have odd : ¬ (2 * i + 1) % 2 = 0 := by omega
  have back : pairSwapMask (2 * i + 1) = 2 * i := by rw [pairSwapMask, if_neg odd, Nat.add_sub_cancel]
  have forth : pairSwapMask (2 * i) = 2 * i + 1 := by rw [pairSwapMask, if_pos even]
  rw [dotTerm, dotTerm, back, forth]
  cases conjx with
  | true =>
    refine Cplx.ext_parts ?_ ?_
    · simp only [Cplx.add_re, Cplx.mul_re, conjIf, complexAt, reSign, if_true]
      ring
    · simp only [Cplx.add_im, Cplx.mul_im, conjIf, complexAt, imSign, pairPatternVector, even, odd, if_true, if_false]
      ring
  | false =>
    refine Cplx.ext_parts ?_ ?_
    · simp only [Cplx.add_re, Cplx.mul_re, conjIf, complexAt, reSign, pairPatternVector, even, odd, if_true, if_false,
        Bool.false_eq_true]
      ring
    · simp only [Cplx.add_im, Cplx.mul_im, conjIf, complexAt, imSign, if_false, Bool.false_eq_true]
      ring

variable [DecidableEq R] {cfg : VectorConfig}

theorem xor_sign {sign : R} (unit : sign = 1 ∨ sign = -1) (value : R) : xorSign sign value = value * sign := by
  rcases unit with rfl | rfl
  · rw [xorSign, if_pos rfl, mul_one]
  · rw [xorSign]
    split
    · rename_i one
      rw [one, mul_one]
    · rw [mul_neg_one]

omit [DecidableEq R] in
theorem signs_unit (lane : Nat) :
    ((reSign conjx lane : R) = 1 ∨ (reSign conjx lane : R) = -1) ∧ ((imSign conjx lane : R) = 1 ∨ (imSign conjx lane : R) = -1) := by
  have pattern : (pairPatternVector 1 (-1) lane : R) = 1 ∨ (pairPatternVector 1 (-1) lane : R) = -1 := by
    rw [pairPatternVector]
    split
    · exact .inl rfl
    · exact .inr rfl
  cases conjx with
  | true => exact ⟨.inl rfl, pattern⟩
  | false => exact ⟨pattern, .inl rfl⟩

omit [DecidableEq R] in
theorem dot_scalar_works {allowed : Set Nat} {i : Nat} (start : 2 ∣ i) (rowX : rowCells x (2 * n) ⊆ allowed)
    (rowY : rowCells y (2 * n) ⊆ allowed) (fits : i + 2 ≤ 2 * n) :
    (sumLaw (dotTerm (R := R) conjx x y) allowed).Works id id (complexDotScalar conjx (cellsFrom x) (cellsFrom y) i) i (i + 2) := by
  have second : i + 1 < 2 * n := by omega
  refine sum_single _ (fun sum => (within_get rowX (by omega) rfl).bind (fun _ _ => (within_get rowX second rfl).bind
    (fun _ _ => (within_get rowY (by omega) rfl).bind (fun _ _ => (within_get rowY second rfl).bind (fun _ _ => trivial)))))
    (fun sum memory => ?_)
  have even : i % 2 = 0 := by omega
  have odd : ¬ (i + 1) % 2 = 0 := by omega
  have back : pairSwapMask (i + 1) = i := by rw [pairSwapMask, if_neg odd, Nat.add_sub_cancel]
  have forth : pairSwapMask i = i + 1 := by rw [pairSwapMask, if_pos even]
  rw [Finset.sum_range_succ, Finset.sum_range_one, Nat.add_zero, dotTerm, dotTerm, back, forth]
  refine Prod.ext ?_ rfl
  cases conjx with
  | true =>
    refine Cplx.ext_parts ?_ ?_
    · simp only [complexDotScalar, Program.run_do, Program.run_get, Program.run_pure, Cplx.add_re, reSign, if_true]
      ring
    · simp only [complexDotScalar, Program.run_do, Program.run_get, Program.run_pure, Cplx.add_im, imSign, pairPatternVector,
        even, odd, if_true, if_false]
      ring
  | false =>
    refine Cplx.ext_parts ?_ ?_
    · simp only [complexDotScalar, Program.run_do, Program.run_get, Program.run_pure, Cplx.add_re, reSign, pairPatternVector,
        even, odd, if_true, if_false, Bool.false_eq_true]
      ring
    · simp only [complexDotScalar, Program.run_do, Program.run_get, Program.run_pure, Cplx.add_im, imSign, if_false,
        Bool.false_eq_true]
      ring

theorem signed_products (fuse : Bool) (xv yv : Nat → R) (acc : Nat → Cplx R) (lane : Nat) :
    signedProducts fuse conjx xv yv acc lane =
      ⟨xv lane * yv lane * reSign conjx lane, xv lane * yv (pairSwapMask lane) * imSign conjx lane⟩ + acc lane := by
  obtain ⟨re, im⟩ := signs_unit (R := R) conjx lane
  rw [signedProducts, xor_sign re, xor_sign im]
  split
  · refine Cplx.ext_parts ?_ ?_
    · simp only [Cplx.add_re]
      ring
    · simp only [Cplx.add_im]
      ring
  · rfl

omit [DecidableEq R] in
theorem dot_term_lane {lanes i lane : Nat} (even : 2 ∣ lanes) (start : 2 ∣ i) (small : lane < lanes) (memory : Nat → R) :
    (⟨(if lane < lanes then memory (cellsFrom x (i + lane)) else 0) *
        (if lane < lanes then memory (cellsFrom y (i + lane)) else 0) * reSign conjx lane,
      (if lane < lanes then memory (cellsFrom x (i + lane)) else 0) *
        (if pairSwapMask lane < lanes then memory (cellsFrom y (i + pairSwapMask lane)) else 0) * imSign conjx lane⟩ : Cplx R) =
      dotTerm conjx x y memory (i + lane) := by
  rw [if_pos small, if_pos small, if_pos (swap_small even small), dotTerm, (signs_shift conjx start lane).1,
    (signs_shift conjx start lane).2, swap_shift start]

theorem complex_dot_loops (fuse : Bool) {lanes : Nat} (unroll : Nat) (even : 2 ∣ lanes) :
    (complexDotLoops fuse lanes unroll n (cellsFrom x) (cellsFrom y) conjx : Program Nat R (Cplx R)).Within
        (rowCells x (2 * n) ∪ rowCells y (2 * n)) (fun _ => True) ∧
      ∀ memory : Nat → R, (complexDotLoops fuse lanes unroll n (cellsFrom x) (cellsFrom y) conjx).run memory =
        (∑ i ∈ Finset.range n, conjIf conjx (complexAt memory x i) * complexAt memory y i, memory) := by
  have rowX : rowCells x (2 * n) ⊆ rowCells x (2 * n) ∪ rowCells y (2 * n) := Set.subset_union_left
  have rowY : rowCells y (2 * n) ⊆ rowCells x (2 * n) ∪ rowCells y (2 * n) := Set.subset_union_right
  have vector : ∀ i, 2 ∣ i → i + lanes ≤ 2 * n →
      (sumLaw (dotTerm (R := R) conjx x y) (rowCells x (2 * n) ∪ rowCells y (2 * n))).Works
        (laneSum (fun _ value => value) lanes) (laneSum (fun _ value => value) lanes)
        (complexDotAccumulateVec fuse conjx (cellsFrom x) (cellsFrom y) lanes i) i (i + lanes) := by
    intro i start fits
    refine sum_lanes (fun _ => AddMonoidHom.id (Cplx R)) _ (fun _ => (within_load_vec rowX fits).bind (fun _ _ =>
      (within_load_vec rowY fits).bind (fun _ _ => trivial))) (fun acc memory => ?_)
    refine ⟨fun lane => ⟨(if lane < lanes then memory (cellsFrom x (i + lane)) else 0) *
        (if lane < lanes then memory (cellsFrom y (i + lane)) else 0) * reSign conjx lane,
      (if lane < lanes then memory (cellsFrom x (i + lane)) else 0) *
        (if pairSwapMask lane < lanes then memory (cellsFrom y (i + pairSwapMask lane)) else 0) *
          imSign conjx lane⟩, ?_, fun lane small => dot_term_lane conjx even start small memory⟩
    rw [complexDotAccumulateVec, Program.run_do, run_load_vec, Program.run_do, run_load_vec]
    exact Prod.ext (funext fun lane => signed_products conjx fuse _ _ acc lane) rfl
  obtain ⟨inside, sums⟩ := sum_answer (works_vector_sums (sum_sound _ _ 2 (2 * n)) unroll []
    (fun _ => AddMonoidHom.id (Cplx R)) even (fun tail member => absurd member List.not_mem_nil) (Dvd.intro n rfl) _ _ vector
    (fun tail member => absurd member List.not_mem_nil) (fun i start fits => dot_scalar_works conjx start rowX rowY fits))
  exact ⟨inside, fun memory => (sums memory).trans (congrArg (fun sum => (sum, memory)) (dot_terms conjx memory))⟩

theorem dot_complex_exact (even : 2 ∣ cfg.laneCount) :
    KernelSums (dotUnitComplex cfg n (cellsFrom x) (cellsFrom y) conjx) (cfg.vectorThreshold ≤ n * 2)
      (rowCells x (2 * n) ∪ rowCells y (2 * n))
      (fun memory : Nat → R => ∑ i ∈ Finset.range n, conjIf conjx (complexAt memory x i) * complexAt memory y i) := by
  obtain ⟨inside, sums⟩ := complex_dot_loops (R := R) (n := n) (x := x) (y := y) conjx cfg.fuseComplexDot cfg.unrollVectors even
  exact kernel_sums inside sums

omit [DecidableEq R] in
theorem dot_deferred_exact (even : 2 ∣ cfg.laneCount) :
    KernelSums (dotUnitComplexDeferred cfg n (cellsFrom x) (cellsFrom y) conjx) (cfg.vectorThreshold ≤ n * 2)
      (rowCells x (2 * n) ∪ rowCells y (2 * n))
      (fun memory : Nat → R => ∑ i ∈ Finset.range n, conjIf conjx (complexAt memory x i) * complexAt memory y i) := by
  have rowX : rowCells x (2 * n) ⊆ rowCells x (2 * n) ∪ rowCells y (2 * n) := Set.subset_union_left
  have rowY : rowCells y (2 * n) ⊆ rowCells x (2 * n) ∪ rowCells y (2 * n) := Set.subset_union_right
  let signed : Nat → Cplx R →+ Cplx R := fun lane =>
    AddMonoidHom.mk' (fun value => ⟨value.re * reSign conjx lane, value.im * imSign conjx lane⟩)
      (fun a b => Cplx.ext_parts (add_mul a.re b.re _) (add_mul a.im b.im _))
  have vector : ∀ i, 2 ∣ i → i + cfg.laneCount ≤ 2 * n →
      (sumLaw (dotTerm (R := R) conjx x y) (rowCells x (2 * n) ∪ rowCells y (2 * n))).Works
        (laneSum (fun lane => signed lane) cfg.laneCount) (laneSum (fun lane => signed lane) cfg.laneCount)
      (complexDotDeferredAccumulate (cellsFrom x) (cellsFrom y) cfg.laneCount i) i (i + cfg.laneCount) := by
    intro i start fits
    refine sum_lanes signed _ (fun _ => (within_load_vec rowX fits).bind (fun _ _ =>
      (within_load_vec rowY fits).bind (fun _ _ => trivial))) (fun acc memory => ?_)
    rw [complexDotDeferredAccumulate, Program.run_do, run_load_vec, Program.run_do, run_load_vec]
    refine ⟨fun lane => ⟨(if lane < cfg.laneCount then memory (cellsFrom x (i + lane)) else 0) *
        (if lane < cfg.laneCount then memory (cellsFrom y (i + lane)) else 0),
      (if lane < cfg.laneCount then memory (cellsFrom x (i + lane)) else 0) *
        (if pairSwapMask lane < cfg.laneCount then memory (cellsFrom y (i + pairSwapMask lane)) else 0)⟩, rfl,
      fun lane small => ?_⟩
    exact dot_term_lane conjx even start small memory
  obtain ⟨inside, sums⟩ := sum_answer (works_vector_sums (sum_sound _ _ 2 (2 * n)) cfg.unrollVectors [] signed even
    (fun tail member => absurd member List.not_mem_nil) (Dvd.intro n rfl) _ _ vector
    (fun tail member => absurd member List.not_mem_nil) (fun i start fits => dot_scalar_works conjx start rowX rowY fits))
  exact kernel_sums inside (fun memory => (sums memory).trans (congrArg (fun sum => (sum, memory)) (dot_terms conjx memory)))

end Complex

-- Every kernel, whatever it is built with and however long its vectors are.
theorem fixed_vector_kernels {R A : Type} [CommRing R] [LinearOrder R] [CommRing A] (cfg : VectorConfig) (bytes n x y : Nat) :
    (∀ mode (alpha beta : R), Clear n x y →
      KernelUpdates (realAffineUnit bytes cfg mode n alpha (cellsFrom x) beta (cellsFrom y)) (cfg.vectorThreshold ≤ n)
        (rowCells x n ∪ rowCells y n) {cell | cell < n} (cellsFrom y)
        (fun memory i => affine mode alpha beta (memory (cellsFrom x i)) (memory (cellsFrom y i)))) ∧
    (2 ∣ cfg.laneCount → ∀ mode (alpha beta : Cplx R), Clear (2 * n) x y →
      KernelUpdates (complexAffineUnit bytes cfg mode n alpha (cellsFrom x) beta (cellsFrom y)) (cfg.vectorThreshold ≤ n * 2)
        (rowCells x (2 * n) ∪ rowCells y (2 * n)) {cell | cell < 2 * n} (cellsFrom y)
        (fun memory cell =>
          component (affine mode alpha beta (complexAt memory x (cell / 2)) (complexAt memory y (cell / 2))) cell)) ∧
    (0 < cfg.copyLaneCount → Clear n x y →
      KernelUpdates (copyBytes cfg n (cellsFrom x) (cellsFrom y)) (n = 0 ∨ max cfg.minLen cfg.copyLaneCount ≤ n)
        (rowCells x n ∪ rowCells y n) {cell | cell < n} (cellsFrom y) (fun (memory : Nat → R) i => memory (cellsFrom x i))) ∧
    (Apart n x y →
      KernelUpdates (swapUnitReal bytes cfg n (cellsFrom x) (cellsFrom y)) (cfg.vectorThreshold ≤ n)
        (rowCells x n ∪ rowCells y n) {cell | cell.2 < n} (pairAddress x y)
        (fun (memory : Nat → R) (cell : Bool × Nat) =>
          (if cell.1 then fun xi _ => xi else fun _ yi => yi) (memory (cellsFrom x cell.2)) (memory (cellsFrom y cell.2)))) ∧
    (Apart n x y → ∀ c s : R,
      KernelUpdates (rotUnitReal bytes cfg n (cellsFrom x) (cellsFrom y) c s) (cfg.vectorThreshold ≤ n)
        (rowCells x n ∪ rowCells y n) {cell | cell.2 < n} (pairAddress x y)
        (fun memory cell => (if cell.1 then fun xi yi => c * yi - s * xi else fun xi yi => c * xi + s * yi)
          (memory (cellsFrom x cell.2)) (memory (cellsFrom y cell.2)))) ∧
    (Apart n x y → ∀ flag h11 h21 h12 h22 : R,
      KernelUpdates (rotmUnitReal bytes cfg n (cellsFrom x) (cellsFrom y) flag h11 h21 h12 h22)
        (flag = -2 ∨ cfg.vectorThreshold ≤ n) (rowCells x n ∪ rowCells y n) {cell | flag ≠ -2 ∧ cell.2 < n} (pairAddress x y)
        (fun memory cell => rotmRow flag h11 h21 h12 h22 cell.1 (memory (cellsFrom x cell.2)) (memory (cellsFrom y cell.2)))) ∧
    (∀ widen : R → A, KernelSums (dotUnit bytes widen cfg n (cellsFrom x) (cellsFrom y)) (cfg.vectorThreshold ≤ n)
      (rowCells x n ∪ rowCells y n)
      (fun memory => ∑ i ∈ Finset.range n, widen (memory (cellsFrom x i)) * widen (memory (cellsFrom y i)))) ∧
    KernelSums (asumUnitReal bytes cfg n (cellsFrom x)) (cfg.vectorThreshold ≤ n) (rowCells x n)
      (fun memory : Nat → R => ∑ i ∈ Finset.range n, |memory (cellsFrom x i)|) ∧
    (2 ∣ cfg.laneCount → ∀ conjx,
      KernelSums (dotUnitComplex cfg n (cellsFrom x) (cellsFrom y) conjx) (cfg.vectorThreshold ≤ n * 2)
        (rowCells x (2 * n) ∪ rowCells y (2 * n))
        (fun memory : Nat → R => ∑ i ∈ Finset.range n, conjIf conjx (complexAt memory x i) * complexAt memory y i) ∧
      KernelSums (dotUnitComplexDeferred cfg n (cellsFrom x) (cellsFrom y) conjx) (cfg.vectorThreshold ≤ n * 2)
        (rowCells x (2 * n) ∪ rowCells y (2 * n))
        (fun memory : Nat → R => ∑ i ∈ Finset.range n, conjIf conjx (complexAt memory x i) * complexAt memory y i)) := by
  refine ⟨fun mode alpha beta clear => real_affine_exact bytes cfg mode alpha beta clear,
    fun even mode alpha beta clear => complex_affine_exact bytes cfg mode alpha beta even clear,
    fun _ clear => copy_exact cfg clear, fun apart => swap_exact bytes cfg apart,
    fun apart c s => rot_exact bytes cfg c s apart,
    fun apart flag h11 h21 h12 h22 => rotm_exact bytes cfg flag h11 h21 h12 h22 apart,
    fun widen => dot_exact bytes widen cfg, asum_exact bytes cfg,
    fun even conjx => ⟨dot_complex_exact conjx even, dot_deferred_exact conjx even⟩⟩

-- Four lanes, two vectors at a time, and a rest; the second vector lies right behind the first.
theorem fixed_vector_kernels_adjacent :
    let cfg : VectorConfig := ⟨4, 2, 16, 0, true, true, by decide, by decide⟩
    ∀ memory : Nat → Int,
      let rotated := (rotUnitReal 8 cfg 11 (cellsFrom 0) (cellsFrom 11) 3 4).run memory
      let updated := (complexAffineUnit 8 cfg .axpy 11 ⟨3, 4⟩ (cellsFrom 0) 0 (cellsFrom 22)).run memory
      let summed := (dotUnitComplex cfg 11 (cellsFrom 0) (cellsFrom 22) true).run memory
      (rotated.1 = true ∧ rotated.2 (cellsFrom 11 10) = 3 * memory (cellsFrom 11 10) - 4 * memory (cellsFrom 0 10)) ∧
        updated.1 = true ∧
        summed = (some (∑ i ∈ Finset.range 11, conjIf true (complexAt memory 0 i) * complexAt memory 22 i), memory) := by
  intro cfg memory rotated updated summed
  have real := fixed_vector_kernels (R := Int) (A := Int) cfg 8 11 0 11
  have complex := fixed_vector_kernels (R := Int) (A := Int) cfg 8 11 0 22
  have turned := (real.2.2.2.2.1 (.inl le_rfl) 3 4).accepts (by decide) memory
  have added := (complex.2.1 (by decide) .axpy ⟨3, 4⟩ 0 (.inr (.inl le_rfl))).accepts (by decide) memory
  have dotted := (complex.2.2.2.2.2.2.2.2 (by decide) true).1.accepts (by decide) memory
  exact ⟨⟨turned.1, turned.2.written (true, 10) (by decide)⟩, added.1, dotted⟩

end Zynum.FixedVector
