import Zynum.MatrixMatrix.PackedSimdExact
import Zynum.MatrixVector.X86Leaves

set_option autoImplicit false

/- The real GEMM kernels of an x86_64 build: packed_params.zig, the tiers of
   arch/x86_64/matrix_matrix/simd.zig, their descriptors (catalog.zig) and the
   executor that runs a task by its kernel id (executor.zig). -/
namespace Zynum.PackedSimd

open ArrayProgram

inductive Tier where
  | sse2
  | avx
  | avx2Fma
  | avx512fFma
  deriving DecidableEq, Repr

section Shapes

structure PackedSimdShape where
  laneCount : Nat
  tileN : Nat
  rowGroups : Nat
  tailVectorLanes : Nat
  kUnroll : Nat
  maxStackPackBytes : Nat

def kUnroll : Nat := 4

def maxStackPackBytes : Nat := 64 * 1024

def x86Shape (precision : Precision) (hasAvx hasAvx512f : Bool) : PackedSimdShape :=
  match precision with
  | .single =>
    { laneCount := if hasAvx512f then 16 else if hasAvx then 8 else 4
      tileN := if hasAvx then 12 else 8
      rowGroups := if hasAvx512f then 2 else 1
      tailVectorLanes := if hasAvx512f then 8 else if hasAvx then 4 else 0
      kUnroll := kUnroll
      maxStackPackBytes := maxStackPackBytes }
  | .double =>
    { laneCount := if hasAvx512f then 8 else if hasAvx then 4 else 2
      tileN := if hasAvx then 8 else 6
      rowGroups := if hasAvx512f then 2 else 1
      tailVectorLanes := if hasAvx512f then 4 else if hasAvx then 2 else 0
      kUnroll := kUnroll
      maxStackPackBytes := maxStackPackBytes }

def x86Avx2FmaShape (precision : Precision) : PackedSimdShape :=
  { x86Shape precision true false with tileN := 6, rowGroups := 2 }

def shape (precision : Precision) (tier : Tier) : PackedSimdShape :=
  if tier = .avx2Fma then x86Avx2FmaShape precision
  else x86Shape precision (decide (tier ≠ .sse2)) (decide (tier = .avx512fFma))

def config (precision : Precision) (tier : Tier) : PackedConfig where
  laneCount := (shape precision tier).laneCount
  tileN := (shape precision tier).tileN
  rowGroups := (shape precision tier).rowGroups
  kUnroll := (shape precision tier).kUnroll
  tailVectorLanes := (shape precision tier).tailVectorLanes
  maxStackPackBytes := (shape precision tier).maxStackPackBytes
  packTailColumns := true
  specialLowKPack := false
  pairedBLoad := false
  packA := decide (tier = .avx2Fma)
  kBlock := if tier = .avx2Fma then 256 else 0

theorem config_checked (precision : Precision) (tier : Tier) : (config precision tier).Checked := by
  cases precision with
  | single => cases tier <;> exact ⟨by decide, by decide, by decide, by decide, by decide, by decide⟩
  | double => cases tier <;> exact ⟨by decide, by decide, by decide, by decide, by decide, by decide⟩

end Shapes

section Registry

def x86Kernel (precision : Precision) (tier : Tier) : KernelId :=
  match precision, tier with
  | .single, .sse2 => .x86Sse2F32Packed
  | .single, .avx => .x86AvxF32Packed
  | .single, .avx2Fma => .x86Avx2FmaF32Packed
  | .single, .avx512fFma => .x86Avx512fFmaF32Packed
  | .double, .sse2 => .x86Sse2F64Packed
  | .double, .avx => .x86AvxF64Packed
  | .double, .avx2Fma => .x86Avx2FmaF64Packed
  | .double, .avx512fFma => .x86Avx512fFmaF64Packed

def packedSimdDescriptor (precision : Precision) (kernel : KernelId) (shape : PackedSimdShape) : Descriptor where
  kernel := kernel
  precision := precision
  defaultEligible := true
  family := .packedSimd
  layoutNoTrans := true
  layoutTransposedB := true
  arbitraryAlpha := true
  arbitraryBeta := true
  tile := ⟨shape.laneCount, shape.laneCount * shape.rowGroups, shape.tileN, shape.tileN⟩
  bounds := ⟨shape.laneCount, shape.tileN, 16, 64 * 1024⟩
  pack := .bPanel

def x86Descriptor (precision : Precision) (tier : Tier) : Descriptor :=
  packedSimdDescriptor precision (x86Kernel precision tier) (shape precision tier)

def x86Tier (precision : Precision) (kernel : KernelId) : Option Tier :=
  [Tier.sse2, .avx, .avx2Fma, .avx512fFma].find? (fun tier => x86Kernel precision tier = kernel)

theorem x86_tier_kernel (precision : Precision) (tier : Tier) : x86Tier precision (x86Kernel precision tier) = some tier := by
  cases precision <;> cases tier <;> rfl

end Registry

section Execution

variable {R : Type} [CommRing R] [DecidableEq R]

-- runF32 and runF64. A tier the build leaves out runs the portable kernels.
def run (precision : Precision) (tierAvailable : Tier → Bool) (env : PackEnv R) (task : Task R) : Mem R → Mem R :=
  (x86Tier precision task.kernel).elim (genericNoTransReal precision task) (fun tier =>
    if tierAvailable tier then packedNoTransReal precision (config precision tier) env [] task
    else genericNoTransReal precision task)

theorem run_available {precision : Precision} {tierAvailable : Tier → Bool} {tier : Tier} (available : tierAvailable tier = true)
    (env : PackEnv R) (task : Task R) (kernel : task.kernel = x86Kernel precision tier) :
    run precision tierAvailable env task = packedNoTransReal precision (config precision tier) env [] task := by
  rw [run, kernel, x86_tier_kernel]
  exact if_pos available

theorem run_natural (precision : Precision) (tierAvailable : Tier → Bool) (env : PackEnv R) (task : Task R)
    (bound : task.m ≤ toUsize task.ldc) (natural : task.bLayout = .noTrans) :
    Updates task.cells (cellAddress task.ldc) task.value (run precision tierAvailable env task) := by
  have portable := generic_task precision task bound natural
  rw [run]
  cases x86Tier precision task.kernel with
  | none => exact portable
  | some tier =>
    by_cases available : tierAvailable tier = true
    · simp only [Option.elim_some, if_pos available]
      exact packed_task precision (config_checked precision tier) env [] task bound
    · simp only [Option.elim_some, if_neg available]
      exact portable

omit [DecidableEq R] in
theorem no_fast_path : ∀ (m n k : Nat) (alpha : R) (a : Mem R) (lda : Int) (b : Mem R) (ldb : Int) (beta : R) (ldc : Int)
    (before after : Mem R), 0 < k → m ≤ toUsize ldc → none = some after →
    Wrote {cell : Nat × Nat | cell.1 < m ∧ cell.2 < n} (cellAddress ldc)
      (fun cell old => alpha * ∑ p ∈ Finset.range k, a (matIndex lda cell.1 p) * b (matIndex ldb p cell.2) + beta * old)
      before after := by
  intro m n k alpha a lda b ldb beta ldc before after _ _ ran
  cases ran

-- The candidates of a build whose best tier is the given one; only streaming kernels have a fast path.
def x86Kernels (precision : Precision) (tier : Tier) (tierAvailable : Tier → Bool) (available : tierAvailable tier = true)
    (env : PackEnv R) : RealKernels R where
  base := x86Descriptor precision tier
  others := [genericDescriptor precision]
  run := run precision tierAvailable env
  fast _ _ _ _ _ _ _ _ _ _ _ := none
  run_exact task _ bound supported := by
    rcases supported with natural | ⟨desc, member, kernel, advertised⟩
    · exact run_natural precision tierAvailable env task bound natural
    · rcases List.mem_cons.mp member with rfl | member
      · rw [run_available available env task kernel.symm]
        exact packed_task precision (config_checked precision tier) env [] task bound
      · cases List.mem_singleton.mp member
        exact Bool.noConfusion advertised
  fast_exact := no_fast_path

-- The real core of such a build; how its planner scores and shapes a plan is left to the profile.
def x86Core (precision : Precision) (tier : Tier) (tierAvailable : Tier → Bool) (available : tierAvailable tier = true)
    (env : PackEnv R) (profile : PlanningProfile R) : @RealGemmEnv R _ (realKind R precision) :=
  let _ := realKind R precision
  let hasAvx := decide (tier ≠ .sse2)
  let hasAvx512f := decide (tier = .avx512fFma)
  let avx2Fma := decide (tier = .avx2Fma)
  { kernels := x86Kernels precision tier tierAvailable available env
    profile := profile
    leaves := FixedMatrix.realLeaves precision (FixedMatrix.matrixConfig precision hasAvx hasAvx512f avx2Fma)
      (FixedMatrix.gemvTransRealConfig precision hasAvx hasAvx512f avx2Fma) }

end Execution

end Zynum.PackedSimd
