import Zynum.Vector.Blocks

set_option autoImplicit false

/- Config of kernels/shared/vector/fixed_simd.zig and the loops it bounds: the
   unrolled loop, the one-vector loop, shorter tail vectors, single elements.
   The prefetch distance only hints. -/
namespace Zynum

open LevelOne

structure VectorConfig where
  laneCount : Nat
  unrollVectors : Nat
  copyLaneCount : Nat
  minLen : Nat
  fuseComplexDot : Bool
  fuseComplexAffine : Bool
  some_lanes : 0 < laneCount
  some_unroll : 0 < unrollVectors

namespace VectorConfig

def vectorThreshold (cfg : VectorConfig) : Nat := max cfg.minLen cfg.laneCount

def unrollCount (cfg : VectorConfig) : Nat := cfg.laneCount * cfg.unrollVectors

def tailLaneCounts (lanes : Nat) : List Nat := [lanes / 2, lanes / 4, lanes / 8]

-- The tail vectors that fill 16 bytes.
def vectorTails (lanes bytes : Nat) : List Nat :=
  (tailLaneCounts lanes).filter (fun tail => decide (1 < tail) && decide (16 ≤ tail * bytes))

def pairTails (lanes bytes : Nat) : List Nat := (vectorTails lanes bytes).filter (fun tail => tail % 2 = 0)

end VectorConfig

end Zynum
