import Zynum.Foundation.WithNan
import Zynum.Kernels.VectorConfig
import Zynum.Vector.ElementWalk
import Zynum.Vector.Stride2Dispatch

set_option autoImplicit false

/- nrm2 of core/vector/operations.zig over components that may not be numbers,
   with the leaves of kernels/shared/vector/fixed_simd.zig it calls, and nrm2 of
   core/vector/abi_entry.zig, where the stride-2 dispatch stands in front of it.
   Numbers are exact, so no sum overflows. A division by zero has no answer. -/
namespace Zynum

open ArrayProgram LevelOne

structure NormOps (K : Type) [Field K] [LinearOrder K] where
  sqrt : K → K
  floatMin : K
  -- floatMin / floatEps, once for each element of the sum.
  floor : Nat → K
  sqrt_nonneg : ∀ a, 0 ≤ a → 0 ≤ sqrt a
  sqrt_square : ∀ a, 0 ≤ a → sqrt a * sqrt a = a

structure ElementKind where
  isComplex : Bool
  precision : Precision
  deriving DecidableEq, Repr

def ElementKind.width (kind : ElementKind) : Nat := if kind.isComplex then 2 else 1

-- What an architecture does with a unit vector: the leaf that sums the squares at once, if any, and the scaled leaf.
structure NormKernel where
  fast : Option VectorConfig
  scaled : VectorConfig

structure NormMachine where
  base : VectorMachine
  kernel : Precision → Option NormKernel

namespace Norm

variable {α K : Type} [Field K] [LinearOrder K]

-- A value, or none behind a division of a number by zero.
abbrev Checked (K : Type) := Option (WithNan K)

def quotient (left right : WithNan K) : Checked K :=
  match left, right with
  | .number a, .number b => if b = 0 then none else some (.number (a / b))
  | _, _ => some .nan

def squareRoot (ops : NormOps K) (value : WithNan K) : WithNan K := value.map ops.sqrt

def addSquares (width : Nat) (value : Nat → WithNan K) (sum : WithNan K) : WithNan K :=
  loop width (fun part sum => sum + value part * value part) sum

def largestPart (width : Nat) (value : Nat → WithNan K) (best : WithNan K) : WithNan K :=
  loop width (fun part best => best.largest (value part).magnitude) best

def sumOfSquares (x : Operand α) (pieces : List Piece) : Program α (WithNan K) (WithNan K) :=
  Program.foldItems pieces (foldElements (fun _ => addSquares x.width) x) 0

-- Vectors multiply by the reciprocal where the scale allows it, single elements divide.
def scaledPart (reciprocal : Bool) (scale value : WithNan K) : Checked K :=
  if reciprocal then (quotient 1 scale).map (fun inverse => value * inverse) else quotient value scale

def addScaled (reciprocal : Bool) (scale : WithNan K) (width : Nat) (value : Nat → WithNan K) (sum : Checked K) :
    Checked K :=
  loop width (fun part sum =>
    (scaledPart reciprocal scale (value part)).bind (fun v => sum.map (fun total => total + v * v))) sum

-- Only operations.zig looks at the reciprocal of the scale.
def reciprocalFinite (strict : Bool) (scale : WithNan K) : Option Bool :=
  if strict then some true else (quotient 1 scale).map WithNan.isFinite

section Leaves

variable (ops : NormOps K)

-- The scaled nrm2 loops; strict ones are those of stride2_parallel.zig.
def scaledNorm (strict : Bool) (x : Operand α) (pieces : List Piece) :
    Program α (WithNan K) (Option (Checked K)) := do
  let scale ← Program.foldItems pieces (foldElements (fun _ => largestPart x.width) x) 0
  if scale = 0 then pure (some (some 0))
  else if !scale.isFinite then pure none
  else match reciprocalFinite strict scale with
    | none => pure (some none)
    | some false => pure none
    | some true => do
      let reciprocal := !strict || !scale.less (.number ops.floatMin)
      let ssq ← Program.foldItems pieces (fun piece =>
        foldElements (fun _ => addScaled (decide (piece.count ≠ 1) && reciprocal) scale x.width) x piece) (some 0)
      pure (some (ssq.map (fun ssq => scale * squareRoot ops ssq)))

-- nrm2UnitRealFastF32 widens what one pass cannot settle, nrm2UnitRealFastF64 gives up.
def fastNorm (precision : Precision) (cfg : VectorConfig) (x : Nat → α) (first last : Nat) :
    Program α (WithNan K) (Option (Checked K)) :=
  let operand := Operand.unit 1 x
  let floor := .number (ops.floor (last - first))
  if last - first < cfg.vectorThreshold then pure none
  else match precision with
    | .single => do
      let tails := VectorConfig.vectorTails cfg.laneCount (realBytes .single)
      let ssq ← sumOfSquares operand (unitPlan (cfg.unrollCount :: cfg.laneCount :: tails) first last)
      if ssq.isFinite && !ssq.less floor then pure (some (some (squareRoot ops ssq)))
      else do
        let wide ← sumOfSquares operand (unitPlan [cfg.unrollCount] first last)
        pure (some (some (squareRoot ops wide)))
    | .double => do
      let ssq ← sumOfSquares operand (unitPlan [cfg.unrollCount, cfg.laneCount] first last)
      if ssq.isNan then pure (some (some ssq))
      else if !ssq.isFinite || ssq.less floor then pure none
      else pure (some (some (squareRoot ops ssq)))

def kernelScaledNorm (precision : Precision) (cfg : VectorConfig) (x : Nat → α) (first last : Nat) :
    Program α (WithNan K) (Option (Checked K)) :=
  if last - first < cfg.vectorThreshold then pure none
  else
    let tails := VectorConfig.vectorTails cfg.laneCount (realBytes precision)
    scaledNorm ops false (Operand.unit 1 x) (unitPlan (cfg.unrollCount :: cfg.laneCount :: tails) first last)

-- kernels/arch: the fast leaf, then the scaled leaf.
def kernelNorm (machine : NormMachine) (precision : Precision) (x : Nat → α) (first last : Nat) :
    Program α (WithNan K) (Option (Checked K)) :=
  match machine.kernel precision with
  | none => pure none
  | some kernel =>
    let scaled := kernelScaledNorm ops precision kernel.scaled x first last
    match kernel.fast with
    | none => scaled
    | some cfg => orElse (fastNorm ops precision cfg x first last) scaled

def nrm2UnitReal (machine : NormMachine) (precision : Precision) (x : Nat → α) (first last : Nat) :
    Program α (WithNan K) (Option (Checked K)) :=
  orElse (kernelNorm ops machine precision x first last)
    (scaledNorm ops false (Operand.unit 1 x) (unitPlan (realLaneCounts machine.base precision) first last))

def accumulate (ax : WithNan K) (state : WithNan K × WithNan K) : Option (WithNan K × WithNan K) :=
  if ax = 0 then some state
  else if state.1.less ax then (quotient state.1 ax).map (fun r => (ax, 1 + state.2 * r * r))
  else (quotient ax state.1).map (fun r => (state.1, state.2 + r * r))

def accumulateAll (count : Nat) (value : Nat → WithNan K) (state : Option (WithNan K × WithNan K)) :
    Option (WithNan K × WithNan K) :=
  loop count (fun index state => state.bind (accumulate (value index))) state

def finishNorm (state : WithNan K × WithNan K) : WithNan K := state.1 * squareRoot ops state.2

def nrm2Strided (x : Operand α) (n : Nat) : Program α (WithNan K) (Checked K) := do
  let state ← Program.foldItems (singles 0 n)
    (foldElements (fun _ value => accumulateAll x.width (fun part => (value part).magnitude)) x) (some (0, 1))
  pure (state.map (finishNorm ops))

-- stride2_parallel.zig returns the first norm that is not finite.
def combineNrm2Partials (strict : Bool) (count : Nat) (norms : Nat → WithNan K) : Checked K :=
  match (List.range count).find? (fun index => strict && !(norms index).isFinite) with
  | some index => some (norms index)
  | none => (accumulateAll count norms (some (0, 1))).map (finishNorm ops)

end Leaves

section Routes

variable (ops : NormOps K)

-- A division by zero in a task ends the call; one task without a norm sends it down the other route.
def forkNorm (machine : NormMachine) (strict : Bool) (site : Site) (n : Nat)
    (task : Nat → Nat → Program α (WithNan K) (Option (Checked K)))
    (otherwise : Execution α (WithNan K) (Option (Checked K)) (Checked K)) :
    Option (Execution α (WithNan K) (Option (Checked K)) (Checked K)) :=
  let count := machine.base.runtime.taskCount site n
  if count ≤ 1 then none
  else if (machine.base.runtime.dispatch site count).isSome then
    some (.fork count (fun index => task (evenBound n count index) (evenBound n count (index + 1)))
      (fun results =>
        if (List.range count).any (fun index => (results index).any (fun norm => norm.isNone)) then .single (.done none)
        else if (List.range count).all (fun index => (results index).isSome) then
          .single (.done (combineNrm2Partials ops strict count (fun index => (results index).join.getD 0)))
        else otherwise))
  else none

def stride2Lanes (machine : NormMachine) (kind : ElementKind) : Nat :=
  if kind.isComplex then machine.base.lanes kind.precision / 2 else machine.base.lanes kind.precision

def nrm2Stride2 (machine : NormMachine) (kind : ElementKind) (strict : Bool) (x : Nat → α) (first last : Nat) :
    Program α (WithNan K) (Option (Checked K)) :=
  scaledNorm ops strict (Operand.stride2 kind.width x) (stride2Plan strict (stride2Lanes machine kind) first last)

def orStrided (fast : Program α (WithNan K) (Option (Checked K))) (strided : Program α (WithNan K) (Checked K)) :
    Execution α (WithNan K) (Option (Checked K)) (Checked K) :=
  .single (fast.bind (fun answer =>
    match answer with
    | some norm => .done norm
    | none => strided))

def nrm2 (machine : NormMachine) (kind : ElementKind) (site : Site) (n : Int) (x : Nat → α) (incx : Int) :
    Execution α (WithNan K) (Option (Checked K)) (Checked K) :=
  if n ≤ 0 ∨ incx = 0 then .single (.done (some 0))
  else
    let strided := nrm2Strided ops (Operand.strided kind.width n incx x) (toUsize n)
    if incx = 1 then
      let reals := kind.width * toUsize n
      let unit := nrm2UnitReal ops machine kind.precision x
      (forkNorm ops machine false site reals unit (orStrided (unit 0 reals) strided)).getD (orStrided (unit 0 reals) strided)
    else if incx = 2 then orStrided (nrm2Stride2 ops machine kind false x 0 (toUsize n)) strided
    else .single strided

-- stride2_dispatch.nrm2, then operations.nrm2.
def entryNrm2 (machine : NormMachine) (kind : ElementKind) (site : Site) (n : Int) (x : Nat → α) (incx : Int) :
    Execution α (WithNan K) (Option (Checked K)) (Checked K) :=
  let otherwise := nrm2 ops machine kind (1 :: site) n x incx
  (if targetUnary machine.base n incx then
    forkNorm ops machine true (0 :: site) (toUsize n) (nrm2Stride2 ops machine kind true x) otherwise
  else none).getD otherwise

end Routes

end Norm

end Zynum
