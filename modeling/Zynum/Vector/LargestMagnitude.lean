import Zynum.Foundation.FirstLargest
import Zynum.Vector.Norm

set_option autoImplicit false

/- iamax of core/vector/operations.zig over components that may not be numbers,
   with the leaves of kernels/shared/vector/fixed_simd.zig it calls, and iamax of
   core/vector/abi_entry.zig, where the stride-2 dispatch stands in front of it. A
   leaf works on the elements [first, last) of its task and answers one more than
   an offset. -/
namespace Zynum

open ArrayProgram LevelOne

-- The leaves kernels/arch reaches; complex vectors of some lengths are refused.
structure IamaxKernel where
  accepts : Nat → Bool
  batched : Option VectorConfig
  plain : VectorConfig
  batched_pair : ∀ cfg, batched = some cfg → 2 ≤ cfg.laneCount

structure IamaxMachine where
  base : VectorMachine
  kernel : ElementKind → Option IamaxKernel

namespace Iamax

open Search

variable {α K : Type} [AddCommGroup K] [LinearOrder K]

def abs1 (width : Nat) (value : Nat → WithNan K) : WithNan K :=
  loop width (fun part sum => sum + (value part).magnitude) 0

section Scanning

-- best_abs and best; a range is compared element by element.
def compare (x : Operand α) (pieces : List Piece) (best : Nat × WithNan K) : Program α (WithNan K) (Nat × WithNan K) :=
  Program.foldItems pieces (foldElements (fun index value => Search.better index (abs1 x.width value)) x) best

-- A block whose maximum beats the best element is read again element by element.
def scanBlock (seed : WithNan K) (x : Operand α) (piece : Piece) (best : Nat × WithNan K) :
    Program α (WithNan K) (Nat × WithNan K) := do
  let top ← foldElements (fun _ value (top : WithNan K) => top.largest (abs1 x.width value)) x piece seed
  if best.2.less top then compare x (singles piece.first (piece.first + piece.count)) best
  else pure best

def scanPiece (seed : WithNan K) (x : Operand α) (piece : Piece) (best : Nat × WithNan K) :
    Program α (WithNan K) (Nat × WithNan K) :=
  if piece.count = 1 then compare x [piece] best else scanBlock seed x piece best

-- The maxima of the unrolled loop start at zero; those of one vector too where it replaces what is not a number by zero.
def scan (seed : WithNan K) (x : Operand α) (unrolled rest : List Piece) (first : Nat) : Program α (WithNan K) Nat := do
  let xb ← loadElements x ⟨first, 1, 1⟩
  let best ← Program.foldItems unrolled (scanBlock 0 x) (first, abs1 x.width (Piece.element ⟨first, 1, 1⟩ x.width xb 0))
  let best ← Program.foldItems rest (scanPiece seed x) best
  pure (best.1 - first + 1)

end Scanning

section Batched

-- Ordered selection: what is not a number is never selected.
def select (top value : WithNan K) : WithNan K := if top.less value then value else top

-- The vectors of a batch in turn, up to the first with an element equal to the maximum.
def findEqual (keep : WithNan K → WithNan K) (x : Operand α) (top : WithNan K) (pieces : List Piece) :
    Program α (WithNan K) (Option Nat) :=
  match pieces with
  | [] => pure none
  | piece :: rest => do
    let found ← foldElements (fun index value (found : Option Nat) =>
      if found.isNone && keep (abs1 x.width value) = top then some index else found) x piece none
    if found.isSome then pure found else findEqual keep x top rest

def batchBlock (keep : WithNan K → WithNan K) (x : Operand α) (lanes : Nat) (piece : Piece) (best : Nat × WithNan K) :
    Program α (WithNan K) (Nat × WithNan K) := do
  let top ← foldElements (fun _ value top => select top (keep (abs1 x.width value))) x piece 0
  if best.2.less top then do
    let found ← findEqual keep x top (blocks (piece.count / lanes) lanes 1 piece.first)
    pure (found.getD best.1, top)
  else pure best

-- The one-vector loop replaces what is not positive by zero first.
def positive (value : WithNan K) : WithNan K := select 0 value

def iamaxUnitBatched (kind : ElementKind) (cfg : VectorConfig) (x : Nat → α) (first last : Nat) :
    Program α (WithNan K) (Option Nat) :=
  let operand := Operand.unit kind.width x
  let compact := kind.isComplex && decide (kind.precision = .double) && decide (cfg.laneCount = 4)
  let count := if !kind.isComplex || compact then cfg.laneCount else cfg.laneCount / 2
  let searchCount := if compact then count / 2 else count
  let batch := count * cfg.unrollVectors * 4
  if last - first < batch then pure none
  else do
    let xb ← loadElements operand ⟨first, 1, 1⟩
    let start := abs1 kind.width (Piece.element ⟨first, 1, 1⟩ kind.width xb 0)
    if start.isNan then pure (some 1)
    else do
      let batches := (last - first) / batch
      let vectors := (last - (first + batches * batch)) / searchCount
      let best ← Program.foldItems (blocks batches batch 1 first) (batchBlock id operand searchCount) (first, start)
      let best ← Program.foldItems (blocks vectors searchCount 1 (first + batches * batch))
        (batchBlock positive operand searchCount) best
      let best ← compare operand (singles (first + batches * batch + vectors * searchCount) last) best
      pure (some (best.1 - first + 1))

end Batched

section Leaves

-- Real vectors start behind the element they compare with; complex lanes hold two components each.
def scanUnit (kind : ElementKind) (unroll : Nat) (laneCounts : List Nat) (x : Nat → α) (first last : Nat) :
    Program α (WithNan K) Nat :=
  let start := if kind.isComplex then first else first + 1
  let lanes := unroll / kind.width
  let count := (last - start) / lanes
  scan .nan (Operand.unit kind.width x) (blocks count lanes 1 start)
    (unitPlan (laneCounts.map (fun lanes => lanes / kind.width)) (start + count * lanes) last) first

def plainTails (kind : ElementKind) (lanes : Nat) : List Nat :=
  if kind.isComplex then
    VectorConfig.pairTails lanes (realBytes kind.precision)
  else []

def kernelPlain (kind : ElementKind) (cfg : VectorConfig) (x : Nat → α) (first last : Nat) :
    Program α (WithNan K) (Option Nat) :=
  if last = first then pure (some 0)
  else if kind.width * (last - first) < cfg.vectorThreshold then pure none
  else do
    let index ← scanUnit kind cfg.unrollCount (cfg.laneCount :: plainTails kind cfg.laneCount) x first last
    pure (some index)

def kernelIamax (machine : IamaxMachine) (kind : ElementKind) (x : Nat → α) (first last : Nat) :
    Program α (WithNan K) (Option Nat) :=
  match machine.kernel kind with
  | none => pure none
  | some kernel =>
    if kind.isComplex && !kernel.accepts (last - first) then pure none
    else
      match kernel.batched with
      | none => kernelPlain kind kernel.plain x first last
      | some cfg => orElse (iamaxUnitBatched kind cfg x first last) (kernelPlain kind kernel.plain x first last)

-- iamaxUnitReal and iamaxUnitComplex of operations.zig.
def iamaxUnit (machine : IamaxMachine) (kind : ElementKind) (x : Nat → α) (first last : Nat) : Program α (WithNan K) Nat := do
  match ← (if !kind.isComplex && decide (last = first) then pure (some 0) else kernelIamax machine kind x first last) with
  | some index => pure index
  | none =>
    if last = first then pure 0
    else
      let lanes := machine.base.lanes kind.precision
      scanUnit kind (4 * lanes) (realLaneCounts machine.base kind.precision) x first last

def stride2Lanes (machine : IamaxMachine) (kind : ElementKind) : Nat :=
  if kind.isComplex then machine.base.lanes kind.precision / 2 else machine.base.lanes kind.precision

def iamaxStride2 (strict : Bool) (machine : IamaxMachine) (kind : ElementKind) (x : Nat → α) (first last : Nat) :
    Program α (WithNan K) Nat :=
  let start := if kind.isComplex then first else first + 1
  let lanes := stride2Lanes machine kind
  let count := stride2Blocks strict (4 * lanes) (last - start)
  scan (if strict then 0 else .nan) (Operand.stride2 kind.width x) (blocks count (4 * lanes) 2 start)
    (stride2Plan strict lanes (start + count * (4 * lanes)) last) first

def skipNan (x : Operand α) (first remaining : Nat) : Program α (WithNan K) Nat :=
  match remaining with
  | 0 => .done first
  | more + 1 => do
    let xb ← loadElements x ⟨first, 1, 1⟩
    if (abs1 x.width (Piece.element ⟨first, 1, 1⟩ x.width xb 0)).isNan then skipNan x (first + 1) more
    else pure first

def iamaxStride2TaskCandidate (machine : IamaxMachine) (kind : ElementKind) (x : Nat → α) (first last : Nat) :
    Program α (WithNan K) Nat := do
  let start ← skipNan (Operand.stride2 kind.width x) first (last - first)
  if start = last then pure 0
  else do
    let offset ← iamaxStride2 true machine kind x start last
    pure (start - first + offset)

def betterChain (left right : Nat × WithNan K) : Bool :=
  right.2.less left.2 || decide (left.2 = right.2 ∧ left.1 < right.1)

-- Four independent chains over the elements behind the first.
def iamaxStridedReal (x : Operand α) (n : Nat) : Program α (WithNan K) Nat := do
  let xb ← loadElements x ⟨0, 1, 1⟩
  let first := abs1 x.width (Piece.element ⟨0, 1, 1⟩ x.width xb 0)
  if first.isNan then pure 1
  else do
    let groups := (n - 1) / 4
    let chains ← Program.foldItems (singles 1 (1 + 4 * groups))
      (foldElements (fun index value (chains : Nat → Nat × WithNan K) =>
        Function.update chains ((index - 1) % 4) (Search.better index (abs1 x.width value) (chains ((index - 1) % 4)))) x)
      (fun _ => (0, first))
    let best := loop 4 (fun lane best => if betterChain (chains lane) best then chains lane else best) (0, first)
    let best ← compare x (singles (1 + 4 * groups) n) best
    pure (best.1 + 1)

-- The loop every route is measured by.
def iamaxScalar (x : Operand α) (n : Nat) : Program α (WithNan K) Nat := do
  let xb ← loadElements x ⟨0, 1, 1⟩
  let best ← compare x (singles 1 n) (0, abs1 x.width (Piece.element ⟨0, 1, 1⟩ x.width xb 0))
  pure (best.1 + 1)

end Leaves

section Routes

def bestCandidate (x : Operand α) (count : Nat) (bound : Nat → Nat) (results : Nat → Nat) : Program α (WithNan K) Nat := do
  let xb ← loadElements x ⟨0, 1, 1⟩
  let best ← Program.fold count (fun index best =>
    if results index = 0 then pure best
    else compare x [⟨bound index + (results index - 1), 1, 1⟩] best)
    (0, abs1 x.width (Piece.element ⟨0, 1, 1⟩ x.width xb 0))
  pure (best.1 + 1)

def forkIamax (machine : IamaxMachine) (site : Site) (n : Nat) (x : Operand α)
    (task : Nat → Nat → Program α (WithNan K) Nat) : Option (Execution α (WithNan K) Nat Nat) :=
  let count := machine.base.runtime.taskCount site n
  if count ≤ 1 then none
  else if (machine.base.runtime.dispatch site count).isSome then
    some (.fork count (fun index => task (evenBound n count index) (evenBound n count (index + 1)))
      (fun results => .single (bestCandidate x count (evenBound n count) results)))
  else none

def parallelIamaxUnit (machine : IamaxMachine) (kind : ElementKind) (site : Site) (n : Nat) (x : Nat → α) :
    Option (Execution α (WithNan K) Nat Nat) :=
  if machine.base.runtime.arch = .x86_64 ∨ (machine.base.runtime.arch = .aarch64 ∧ kind.isComplex = true) then
    forkIamax machine site n (Operand.unit kind.width x) (iamaxUnit machine kind x)
  else none

def iamax (machine : IamaxMachine) (kind : ElementKind) (site : Site) (n : Int) (x : Nat → α) (incx : Int) :
    Execution α (WithNan K) Nat Nat :=
  let strided := Operand.strided kind.width n incx x
  if n < 1 ∨ incx ≤ 0 then .single (.done 0)
  else if incx = 1 then
    (parallelIamaxUnit machine kind site (toUsize n) x).getD (.single (iamaxUnit machine kind x 0 (toUsize n)))
  else if !kind.isComplex && decide (machine.base.runtime.arch = .aarch64 ∧ 32 ≤ toUsize n) then
    .single (iamaxStridedReal strided (toUsize n))
  else if kind.isComplex && decide (incx = 2) then .single (iamaxStride2 false machine kind x 0 (toUsize n))
  else .single (iamaxScalar strided (toUsize n))

-- stride2_dispatch.iamax reads the first element before it asks for tasks: a fork of one.
def entryIamax (machine : IamaxMachine) (kind : ElementKind) (site : Site) (n : Int) (x : Nat → α) (incx : Int) :
    Execution α (WithNan K) Nat Nat :=
  let otherwise := iamax machine kind (1 :: site) n x incx
  let operand := Operand.stride2 kind.width x
  if targetUnary machine.base n incx ∧ 1 < machine.base.runtime.taskCount (0 :: site) (toUsize n) then
    .fork 1 (fun _ => do
        let xb ← loadElements operand ⟨0, 1, 1⟩
        pure (if (abs1 kind.width (Piece.element ⟨0, 1, 1⟩ kind.width xb 0)).isNan then 1 else 0))
      (fun nan =>
        if nan 0 = 1 then .single (.done 1)
        else
          (forkIamax machine (0 :: site) (toUsize n) operand (iamaxStride2TaskCandidate machine kind x)).getD otherwise)
  else otherwise

end Routes

end Iamax

end Zynum
