import Zynum.Vector.LevelOne

set_option autoImplicit false

/- nrm2 and iamax of core/vector/operations.zig. Both look at the data to decide
   what to read next: nrm2 reads the vector again once it knows the largest
   magnitude, iamax reads a block again when it beats the best element so far. -/
namespace Zynum

open ArrayProgram

-- The floating-point operations and tests a ring does not have.
structure FloatOps (R : Type) [CommRing R] [LinearOrder R] where
  divide : R → R → R
  sqrt : R → R
  isFinite : R → Bool
  isNan : R → Bool

namespace LevelOne

open Element (width parts whole fromReal)

variable {α R T : Type} [CommRing R] [LinearOrder R]

section Norm

def maxOne (x : Operand α) (piece : Piece) (scale : R) : Program α R R := do
  let xb ← loadElements x piece
  pure (loop piece.count (fun i best =>
    loop x.width (fun part largest => max largest |piece.element x.width xb i part|) best) scale)

-- Vectors multiply by the reciprocal, single elements divide.
def scaledSquares (ops : FloatOps R) (width : Nat) (single : Bool) (scale : R) (value : Nat → R) : R :=
  loop width (fun part sum =>
    let v := if single then ops.divide (value part) scale else value part * ops.divide 1 scale
    sum + v * v) 0

-- nrm2UnitReal, nrm2Stride2Real and nrm2Stride2Complex; only operations.zig looks at the reciprocal.
def nrm2Pieces (ops : FloatOps R) (checkReciprocal : Bool) (x : Operand α) (pieces : List Piece) :
    Program α R (Option R) := do
  let scale ← Program.foldItems pieces (maxOne x) 0
  if scale = 0 then pure (some 0)
  else if !ops.isFinite scale then pure none
  else if checkReciprocal && !ops.isFinite (ops.divide 1 scale) then pure none
  else do
    let ssq ← Program.foldItems pieces
      (fun piece => sumOne (scaledSquares ops x.width (decide (piece.count = 1)) scale) x piece) 0
    pure (some (scale * ops.sqrt ssq))

def accumulate (ops : FloatOps R) (ax : R) (state : R × R) : R × R :=
  if ax = 0 then state
  else if state.1 < ax then
    let r := ops.divide state.1 ax
    (ax, 1 + state.2 * r * r)
  else
    let r := ops.divide ax state.1
    (state.1, state.2 + r * r)

def nrm2Strided (ops : FloatOps R) (x : Operand α) (n : Nat) : Program α R R := do
  let state ← Program.foldItems (singles 0 n) (fun piece state => do
    let xb ← loadElements x piece
    pure (loop x.width (fun part => accumulate ops |piece.element x.width xb 0 part|) state)) (0, 1)
  pure (state.1 * ops.sqrt state.2)

-- stride2_parallel.zig returns the first norm that is not finite.
def combineNrm2Partials (ops : FloatOps R) (strict : Bool) (count : Nat) (norms : Nat → R) : R :=
  match (List.range count).find? (fun index => strict && !ops.isFinite (norms index)) with
  | some index => norms index
  | none =>
    let state := loop count (fun index => accumulate ops (norms index)) (0, 1)
    state.1 * ops.sqrt state.2

-- One task without a norm leaves the whole call without one.
def forkNrm2 {A : Type} (machine : VectorMachine) (ops : FloatOps R) (strict : Bool) (site : Site) (n : Nat)
    (task : Site → Nat → Nat → Program α R (Option R)) (finish : Option R → Execution α R (Option R) A) :
    Option (Execution α R (Option R) A) :=
  let count := machine.runtime.taskCount site n
  if count ≤ 1 then none
  else if (machine.runtime.dispatch site count).isSome then
    some (.fork count
      (fun index => task (index :: site) (evenBound n count index) (evenBound n count (index + 1)))
      (fun results => finish
        (if (List.range count).all (fun index => (results index).isSome) then
          some (combineNrm2Partials ops strict count (fun index => (results index).getD 0))
        else none)))
  else none

variable [CommRing T] [Element R T]

variable (T) in
def nrm2 (machine : VectorMachine) (ops : FloatOps R) (site : Site) (n : Int) (x : Nat → α) (incx : Int) :
    Execution α R (Option R) R :=
  if n ≤ 0 ∨ incx = 0 then .single (.done 0)
  else
    let strided := nrm2Strided ops (Operand.strided (width T) n incx x) (toUsize n)
    let orStrided := fun (fast : Program α R (Option R)) => Execution.single (fast.bind (fun answer =>
      match answer with
      | some norm => .done norm
      | none => strided))
    if incx = 1 then
      let reals := width T * toUsize n
      let task := fun (site : Site) first last => nrm2Pieces ops true (Operand.unit 1 x)
        (unitPieces machine site (realLaneCounts machine (Scalar.precision T)) first last)
      let serial := orStrided (task site 0 reals)
      (forkNrm2 machine ops false site reals task (fun answer =>
        match answer with
        | some norm => .single (.done norm)
        | none => serial)).getD serial
    else if incx = 2 then
      orStrided (nrm2Pieces ops true (Operand.stride2 (width T) x) (stride2Plan false (stride2Lanes machine T) 0 (toUsize n)))
    else .single strided

end Norm

section Largest

def better (index : Nat) (ax : R) (best : Nat × R) : Nat × R := if best.2 < ax then (index, ax) else best

def scanOne (x : Operand α) (piece : Piece) (best : Nat × R) : Program α R (Nat × R) := do
  let xb ← loadElements x piece
  pure (better piece.first (abs1 x.width (piece.element x.width xb 0)) best)

-- A block that beats the best element is read again element by element.
def scanBlock (x : Operand α) (piece : Piece) (best : Nat × R) : Program α R (Nat × R) := do
  let xb ← loadElements x piece
  if best.2 < loop piece.count (fun i largest => max largest (abs1 x.width (piece.element x.width xb i))) 0 then
    Program.fold piece.count (fun i => scanOne x ⟨piece.first + i, 1, 1⟩) best
  else pure best

def scanPiece (x : Operand α) (piece : Piece) (best : Nat × R) : Program α R (Nat × R) :=
  if piece.count = 1 then scanOne x piece best else scanBlock x piece best

-- What iamax returns for [first, last): one more than the offset of the largest element.
def scan (x : Operand α) (pieces : List Piece) (first : Nat) : Program α R Nat := do
  let xb ← loadElements x ⟨first, 1, 1⟩
  let best ← Program.foldItems pieces (scanPiece x) (first, abs1 x.width (Piece.element ⟨first, 1, 1⟩ x.width xb 0))
  pure (best.1 - first + 1)

-- Four vectors at a time, then one vector, then single elements.
def scanPlan (strict : Bool) (lanes first last : Nat) : List Piece :=
  let count := stride2Blocks strict (4 * lanes) (last - first)
  blocks count (4 * lanes) 2 first ++ stride2Plan strict lanes (first + count * (4 * lanes)) last

variable [CommRing T] [Element R T]

variable (T) in
-- Real vectors start behind the element they compare with.
def iamaxUnit (machine : VectorMachine) (x : Nat → α) (site : Site) (first last : Nat) : Program α R Nat :=
  if first = last then .done 0
  else if isReal T then
    let lanes := realLaneCounts machine (Scalar.precision T)
    scan (Operand.unit (width T) x)
      (unitPieces machine site (4 * machine.lanes (Scalar.precision T) :: lanes) (first + 1) last) first
  else
    let lanes := complexLaneCounts machine (Scalar.precision T)
    scan (Operand.unit (width T) x)
      (unitPieces machine site (4 * (machine.lanes (Scalar.precision T) / 2) :: lanes) first last) first

variable (T) in
def iamaxStride2 (strict : Bool) (machine : VectorMachine) (x : Nat → α) (first last : Nat) : Program α R Nat :=
  scan (Operand.stride2 (width T) x)
    (scanPlan strict (stride2Lanes machine T) (if isReal T then first + 1 else first) last) first

def skipNan (ops : FloatOps R) (x : Operand α) (first : Nat) (remaining : Nat) : Program α R Nat :=
  match remaining with
  | 0 => .done first
  | more + 1 => do
    let xb ← loadElements x ⟨first, 1, 1⟩
    if ops.isNan (abs1 x.width (Piece.element ⟨first, 1, 1⟩ x.width xb 0)) then skipNan ops x (first + 1) more
    else pure first

variable (T) in
def iamaxStride2TaskCandidate (ops : FloatOps R) (machine : VectorMachine) (x : Nat → α) (first last : Nat) :
    Program α R Nat := do
  let start ← skipNan ops (Operand.stride2 (width T) x) first (last - first)
  if start = last then pure 0
  else do
    let offset ← iamaxStride2 T true machine x start last
    pure (start - first + offset)

def bestCandidate (x : Operand α) (count : Nat) (bound : Nat → Nat) (results : Nat → Nat) : Program α R Nat := do
  let xb ← loadElements x ⟨0, 1, 1⟩
  let best ← Program.fold count (fun index best =>
    if results index = 0 then pure best
    else scanOne x ⟨bound index + (results index - 1), 1, 1⟩ best)
    (0, abs1 x.width (Piece.element ⟨0, 1, 1⟩ x.width xb 0))
  pure (best.1 + 1)

def forkIamax (machine : VectorMachine) (site : Site) (n : Nat) (x : Operand α)
    (task : Site → Nat → Nat → Program α R Nat) : Option (Execution α R Nat Nat) :=
  let count := machine.runtime.taskCount site n
  if count ≤ 1 then none
  else if (machine.runtime.dispatch site count).isSome then
    some (.fork count
      (fun index => task (index :: site) (evenBound n count index) (evenBound n count (index + 1)))
      (fun results => .single (bestCandidate x count (evenBound n count) results)))
  else none

def betterChain (left right : Nat × R) : Bool := right.2 < left.2 || decide (left.2 = right.2 ∧ left.1 < right.1)

-- Four independent chains over the elements behind the first.
def iamaxStridedReal (ops : FloatOps R) (x : Operand α) (n : Nat) : Program α R Nat := do
  let xb ← loadElements x ⟨0, 1, 1⟩
  let first := abs1 x.width (Piece.element ⟨0, 1, 1⟩ x.width xb 0)
  if ops.isNan first then pure 1
  else do
    let groups := (n - 1) / 4
    let chains ← Program.fold groups (fun group chains =>
      Program.fold 4 (fun lane (chains : Nat → Nat × R) => do
        let best ← scanOne x ⟨1 + 4 * group + lane, 1, 1⟩ (chains lane)
        pure (Function.update chains lane best)) chains) (fun _ => (0, first))
    let best := loop 4 (fun lane best => if betterChain (chains lane) best then chains lane else best) (0, first)
    let best ← Program.foldItems (singles (1 + 4 * groups) n) (scanOne x) best
    pure (best.1 + 1)

variable (T) in
def iamax (machine : VectorMachine) (ops : FloatOps R) (site : Site) (n : Int) (x : Nat → α) (incx : Int) :
    Execution α R Nat Nat :=
  if n < 1 ∨ incx ≤ 0 then .single (.done 0)
  else if incx = 1 then
    (if machine.runtime.arch = .x86_64 ∨ (machine.runtime.arch = .aarch64 ∧ isReal T = false) then
      forkIamax machine site (toUsize n) (Operand.unit (width T) x) (iamaxUnit T machine x)
    else none).getD (.single (iamaxUnit T machine x site 0 (toUsize n)))
  else if isReal T then
    if machine.runtime.arch = .aarch64 ∧ 32 ≤ toUsize n then
      .single (iamaxStridedReal ops (Operand.strided (width T) n incx x) (toUsize n))
    else .single (scan (Operand.strided (width T) n incx x) (singles 1 (toUsize n)) 0)
  else if incx = 2 then .single (iamaxStride2 T false machine x 0 (toUsize n))
  else .single (scan (Operand.strided (width T) n incx x) (singles 1 (toUsize n)) 0)

end Largest

end LevelOne

end Zynum
