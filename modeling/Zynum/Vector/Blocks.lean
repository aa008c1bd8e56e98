import Zynum.Foundation.SharedMemory
import Zynum.Runtime

set_option autoImplicit false

/- How core/vector/operations.zig walks a vector: in blocks of consecutive
   elements, in stride-2 blocks that carry the gap elements along, and in single
   elements. Memory is a row of reals, so a complex element is two cells and a
   unit-stride complex vector can be walked as twice as many reals. -/
namespace Zynum.LevelOne

open ArrayProgram

variable {α R : Type}

-- One block: step is 2 where a load or store spans every second element.
structure Piece where
  first : Nat
  count : Nat
  step : Nat
  deriving DecidableEq, Repr

namespace Piece

def size (piece : Piece) (width : Nat) : Nat := piece.count * (piece.step * width)

-- evenLaneMask and complexActiveLaneMask: the lanes that hold logical elements.
def active (piece : Piece) (width lane : Nat) : Bool := lane / width % piece.step = 0

def element (piece : Piece) (width : Nat) (lanes : Nat → R) (index component : Nat) : R :=
  lanes (index * (piece.step * width) + component)

-- The select before a block store: new values in the active lanes, the loaded ones in the gaps.
def select (piece : Piece) (width : Nat) (old : Nat → R) (new : Nat → Nat → R) (lane : Nat) : R :=
  if piece.active width lane then new (lane / (piece.step * width)) (lane % width) else old lane

end Piece

-- A vector as its base pointer sees it: real cells, and where each logical element starts.
structure Operand (α : Type) where
  width : Nat
  place : Nat → α
  cell : Nat → Nat

namespace Operand

def unit (width : Nat) (place : Nat → α) : Operand α := ⟨width, place, fun i => width * i⟩

def stride2 (width : Nat) (place : Nat → α) : Operand α := ⟨width, place, fun i => width * (2 * i)⟩

def strided (width : Nat) (n inc : Int) (place : Nat → α) : Operand α :=
  ⟨width, place, fun i => width * ix (startIndex n inc) i inc⟩

def window (operand : Operand α) (piece : Piece) (lane : Nat) : α := operand.place (operand.cell piece.first + lane)

end Operand

section Leaves

variable [Zero R]

def loadCells (size : Nat) (place : Nat → α) : Program α R (Nat → R) :=
  Program.fold size (fun lane values => do
    let value ← Program.get (place lane)
    pure (Function.update values lane value)) (fun _ => 0)

-- The lanes a shuffle drops are read all the same.
def loadActive (size : Nat) (active : Nat → Bool) (place : Nat → α) : Program α R (Nat → R) :=
  Program.fold size (fun lane values =>
    if active lane then do
      let value ← Program.get (place lane)
      pure (Function.update values lane value)
    else do
      Program.drop (place lane)
      pure values) (fun _ => 0)

def storeCells (size : Nat) (place : Nat → α) (values : Nat → R) : Program α R Unit :=
  Program.each size (fun lane => Program.put (place lane) (values lane))

def loadBlock (x : Operand α) (piece : Piece) : Program α R (Nat → R) :=
  loadCells (piece.size x.width) (x.window piece)

def loadElements (x : Operand α) (piece : Piece) : Program α R (Nat → R) :=
  loadActive (piece.size x.width) (piece.active x.width) (x.window piece)

def storeBlock (x : Operand α) (piece : Piece) (old : Nat → R) (new : Nat → Nat → R) : Program α R Unit :=
  storeCells (piece.size x.width) (x.window piece) (piece.select x.width old new)

-- scal: one vector, in place.
def updateOne (apply : (Nat → R) → Nat → R) (x : Operand α) (piece : Piece) : Program α R Unit := do
  let xb ← loadBlock x piece
  storeBlock x piece xb (fun i => apply (piece.element x.width xb i))

-- axpy and axpby: x is only read.
def updateSecond (apply : (Nat → R) → (Nat → R) → Nat → R) (x y : Operand α) (piece : Piece) : Program α R Unit := do
  let xb ← loadElements x piece
  let yb ← loadBlock y piece
  storeBlock y piece yb (fun i => apply (piece.element x.width xb i) (piece.element y.width yb i))

-- swap, rot and rotm: both blocks are loaded, then x is stored, then y.
def updateBoth (applyX applyY : (Nat → R) → (Nat → R) → Nat → R) (x y : Operand α) (piece : Piece) : Program α R Unit := do
  let xb ← loadBlock x piece
  let yb ← loadBlock y piece
  storeBlock x piece xb (fun i => applyX (piece.element x.width xb i) (piece.element y.width yb i))
  storeBlock y piece yb (fun i => applyY (piece.element x.width xb i) (piece.element y.width yb i))

-- copy: the bytes of x.
def copyBlock (x y : Operand α) (piece : Piece) : Program α R Unit := do
  let xb ← loadBlock x piece
  storeCells (piece.size y.width) (y.window piece) xb

variable {A : Type} [Zero A] [Add A]

-- Lane accumulators are reduced at the end; the sum is the same exact sum.
def sumOne (term : (Nat → R) → A) (x : Operand α) (piece : Piece) (sum : A) : Program α R A := do
  let xb ← loadElements x piece
  pure (sum + loop piece.count (fun i total => total + term (piece.element x.width xb i)) 0)

def sumTwo (term : (Nat → R) → (Nat → R) → A) (x y : Operand α) (piece : Piece) (sum : A) : Program α R A := do
  let xb ← loadElements x piece
  let yb ← loadElements y piece
  pure (sum + loop piece.count
    (fun i total => total + term (piece.element x.width xb i) (piece.element y.width yb i)) 0)

end Leaves

section Plans

def blocks (count lanes step first : Nat) : List Piece :=
  (List.range count).map (fun block => ⟨first + block * lanes, lanes, step⟩)

def singles (first last : Nat) : List Piece := blocks (last - first) 1 1 first

-- The unrolled loop and the one-vector loop together take every whole vector;
-- the shorter tail vectors and then single elements follow.
def unitPlan (laneCounts : List Nat) (first last : Nat) : List Piece :=
  match laneCounts with
  | [] => singles first last
  | lanes :: shorter =>
    if lanes ≤ 1 then unitPlan shorter first last
    else
      let count := (last - first) / lanes
      blocks count lanes 1 first ++ unitPlan shorter (first + count * lanes) last

-- while (i + lanes <= n) in operations.zig, while (i + lanes < n) in stride2_parallel.zig.
def stride2Blocks (strict : Bool) (lanes length : Nat) : Nat :=
  if strict then (length - 1) / lanes else length / lanes

def stride2Plan (strict : Bool) (lanes first last : Nat) : List Piece :=
  let count := stride2Blocks strict lanes (last - first)
  blocks count lanes 2 first ++ singles (first + count * lanes) last

def widthPlan (widths : List Nat) (first : Nat) : List Piece :=
  match widths with
  | [] => []
  | width :: rest => ⟨first, width, 1⟩ :: widthPlan rest (first + width)

end Plans

end Zynum.LevelOne
