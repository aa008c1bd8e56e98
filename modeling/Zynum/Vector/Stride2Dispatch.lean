import Zynum.Vector.Searches

set_option autoImplicit false

/- core/vector/stride2_dispatch.zig: where x86_64 prefers it, a call with
   increments of 2 is split into tasks of stride2_parallel.zig, whose blocks stop
   short of the last element. core/vector/abi_entry.zig, which no file of the
   repository imports, asks the dispatch first and then calls the routine; the
   entry definitions are its. -/
namespace Zynum.LevelOne

open ArrayProgram
open Element (width parts whole fromReal)

variable {α R T : Type}

def targetUnary (machine : VectorMachine) (n incx : Int) : Bool :=
  machine.runtime.arch == .x86_64 && decide (0 < n) && decide (incx = 2) && machine.preferStride2Parallel (toUsize n)

def targetNonOverlappingBinary (machine : VectorMachine) (T : Type) [Element R T] (n : Int) (xStart : Nat) (incx : Int)
    (yStart : Nat) (incy : Int) : Bool :=
  decide (incy = 2) && targetUnary machine n incx && !stride2Overlap (R := R) T (toUsize n) xStart yStart

section Routines

variable [CommRing R] [LinearOrder R] [CommRing T] [Element R T]

def stride2Scal (machine : VectorMachine) (site : Site) (n : Int) (alpha : T) (x : Nat → α) (incx : Int) :
    Option (Execution α R Unit Unit) :=
  if targetUnary machine n incx && !isOne alpha then
    forkEven machine site (toUsize n) (updateStride2 true (stride2Lanes machine T) (width T) (scalRule alpha) x)
      (fun _ _ => ())
  else none

def entryScal (machine : VectorMachine) (site : Site) (n : Int) (alpha : T) (x : Nat → α) (incx : Int) :
    Execution α R Unit Unit :=
  (stride2Scal machine (0 :: site) n alpha x incx).getD (scal machine (1 :: site) n alpha x incx)

variable (T) in
def stride2Rscal (machine : VectorMachine) (site : Site) (n : Int) (alpha : R) (x : Nat → α) (incx : Int) :
    Option (Execution α R Unit Unit) :=
  if targetUnary machine n incx && alpha ≠ 1 then
    forkEven machine site (toUsize n) (updateStride2 true (stride2Lanes machine T) (width T) (realScalRule alpha) x)
      (fun _ _ => ())
  else none

variable (T) in
def entryRscal (machine : VectorMachine) (site : Site) (n : Int) (alpha : R) (x : Nat → α) (incx : Int) :
    Execution α R Unit Unit :=
  (stride2Rscal T machine (0 :: site) n alpha x incx).getD (rscal T machine (1 :: site) n alpha x incx)

variable (T) in
def stride2Both (machine : VectorMachine) (site : Site) (n : Int) (rule : PairRule R) (xStart yStart : Nat)
    (x : Nat → α) (incx : Int) (y : Nat → α) (incy : Int) : Option (Execution α R Unit Unit) :=
  if targetNonOverlappingBinary machine T n xStart incx yStart incy then
    forkEven machine site (toUsize n) (bothStride2 true (stride2Lanes machine T) (width T) rule x y) (fun _ _ => ())
  else none

variable (T) in
def stride2Swap (machine : VectorMachine) (site : Site) (n : Int) (xStart yStart : Nat) (x : Nat → α) (incx : Int)
    (y : Nat → α) (incy : Int) : Option (Execution α R Unit Unit) :=
  stride2Both T machine site n swapRule xStart yStart x incx y incy

variable (T) in
def entrySwap (machine : VectorMachine) (site : Site) (n : Int) (xStart yStart : Nat) (x : Nat → α) (incx : Int)
    (y : Nat → α) (incy : Int) : Execution α R Unit Unit :=
  (stride2Swap T machine (0 :: site) n xStart yStart x incx y incy).getD
    (swap T machine (1 :: site) n xStart yStart x incx y incy)

variable (T) in
def stride2Second (machine : VectorMachine) (site : Site) (n : Int) (apply : (Nat → R) → (Nat → R) → Nat → R)
    (xStart yStart : Nat) (x : Nat → α) (incx : Int) (y : Nat → α) (incy : Int) : Option (Execution α R Unit Unit) :=
  if targetNonOverlappingBinary machine T n xStart incx yStart incy then
    forkEven machine site (toUsize n) (secondStride2 true (stride2Lanes machine T) (width T) apply x y) (fun _ _ => ())
  else none

def stride2Axpy (machine : VectorMachine) (site : Site) (n : Int) (alpha : T) (xStart yStart : Nat) (x : Nat → α)
    (incx : Int) (y : Nat → α) (incy : Int) : Option (Execution α R Unit Unit) :=
  if isZero alpha then none else stride2Second T machine site n (axpyRule alpha) xStart yStart x incx y incy

def entryAxpy (machine : VectorMachine) (site : Site) (n : Int) (alpha : T) (xStart yStart : Nat) (x : Nat → α)
    (incx : Int) (y : Nat → α) (incy : Int) : Execution α R Unit Unit :=
  (stride2Axpy machine (0 :: site) n alpha xStart yStart x incx y incy).getD
    (axpy machine (1 :: site) n alpha xStart yStart x incx y incy)

def stride2Axpby (machine : VectorMachine) (site : Site) (n : Int) (alpha beta : T) (xStart yStart : Nat)
    (x : Nat → α) (incx : Int) (y : Nat → α) (incy : Int) : Option (Execution α R Unit Unit) :=
  if isZero alpha || isOne beta || (isOne alpha && isZero beta) then none
  else stride2Second T machine site n (axpbyRule alpha beta) xStart yStart x incx y incy

def entryAxpby (machine : VectorMachine) (site : Site) (n : Int) (alpha beta : T) (xStart yStart : Nat)
    (x : Nat → α) (incx : Int) (y : Nat → α) (incy : Int) : Execution α R Unit Unit :=
  (stride2Axpby machine (0 :: site) n alpha beta xStart yStart x incx y incy).getD
    (axpby machine (1 :: site) n alpha beta xStart yStart x incx y incy)

def stride2Rot (machine : VectorMachine) (site : Site) (n : Int) (xStart yStart : Nat) (x : Nat → α) (incx : Int)
    (y : Nat → α) (incy : Int) (c : R) (s : T) : Option (Execution α R Unit Unit) :=
  if isReal T || Scalar.imagIsZero s then
    stride2Both T machine site n (realRotRule c (parts s 0)) xStart yStart x incx y incy
  else none

def entryRot (machine : VectorMachine) (site : Site) (n : Int) (xStart yStart : Nat) (x : Nat → α) (incx : Int)
    (y : Nat → α) (incy : Int) (c : R) (s : T) : Execution α R Unit Unit :=
  (stride2Rot machine (0 :: site) n xStart yStart x incx y incy c s).getD
    (rot machine (1 :: site) n xStart yStart x incx y incy c s)

variable (T) in
def stride2Rotm (machine : VectorMachine) (site : Site) (n : Int) (xStart yStart : Nat) (x : Nat → α) (incx : Int)
    (y : Nat → α) (incy : Int) (param : Nat → R) : Option (Execution α R Unit Unit) :=
  if param 0 = -2 then none
  else stride2Both T machine site n (rotmRule (readParam param)) xStart yStart x incx y incy

variable (T) in
def entryRotm (machine : VectorMachine) (site : Site) (n : Int) (xStart yStart : Nat) (x : Nat → α) (incx : Int)
    (y : Nat → α) (incy : Int) (param : Nat → R) : Execution α R Unit Unit :=
  (stride2Rotm T machine (0 :: site) n xStart yStart x incx y incy param).getD
    (rotm T machine (1 :: site) n xStart yStart x incx y incy param)

def stride2Dot (machine : VectorMachine) (site : Site) (n : Int) (x : Nat → α) (incx : Int) (y : Nat → α) (incy : Int)
    (conjx : Bool) : Option (Execution α R T T) :=
  if decide (incy = 2) && targetUnary machine n incx then
    forkEven machine site (toUsize n) (dotStride2 true (stride2Lanes machine T) conjx x y) addPartials
  else none

def entryDot (machine : VectorMachine) (site : Site) (n : Int) (x : Nat → α) (incx : Int) (y : Nat → α) (incy : Int)
    (conjx : Bool) : Execution α R T T :=
  (stride2Dot machine (0 :: site) n x incx y incy conjx).getD (dot machine (1 :: site) n x incx y incy conjx)

def stride2DotF32AccF64 (machine : VectorMachine) (site : Site) (n : Int) (x : Nat → α) (incx : Int) (y : Nat → α)
    (incy : Int) : Option (Execution α R R R) :=
  if decide (incy = 2) && targetUnary machine n incx then
    forkEven machine site (toUsize n) (dotF32AccF64Stride2 true x y) addPartials
  else none

def entryDotF32AccF64 (machine : VectorMachine) (site : Site) (n : Int) (x : Nat → α) (incx : Int) (y : Nat → α)
    (incy : Int) : Execution α R R R :=
  (stride2DotF32AccF64 machine (0 :: site) n x incx y incy).getD (dotF32AccF64 machine (1 :: site) n x incx y incy)

variable (T) in
def stride2Asum (machine : VectorMachine) (site : Site) (n : Int) (x : Nat → α) (incx : Int) :
    Option (Execution α R R R) :=
  if targetUnary machine n incx then
    forkEven machine site (toUsize n) (asumStride2 true (stride2Lanes machine T) (width T) x) addPartials
  else none

variable (T) in
def entryAsum (machine : VectorMachine) (site : Site) (n : Int) (x : Nat → α) (incx : Int) : Execution α R R R :=
  (stride2Asum T machine (0 :: site) n x incx).getD (asum T machine (1 :: site) n x incx)

variable (T) in
-- A task without a norm leaves the call to the routine.
def stride2Nrm2 (machine : VectorMachine) (ops : FloatOps R) (site : Site) (n : Int) (x : Nat → α) (incx : Int) :
    Option (Execution α R (Option R) (Option R)) :=
  if targetUnary machine n incx then
    forkNrm2 machine ops true site (toUsize n)
      (fun _ first last => nrm2Pieces ops false (Operand.stride2 (width T) x)
        (stride2Plan true (stride2Lanes machine T) first last)) (fun answer => .single (.done answer))
  else none

variable (T) in
-- The caller reads the first element before it asks for tasks: a fork of one.
def stride2Iamax (machine : VectorMachine) (ops : FloatOps R) (site : Site) (n : Int) (x : Nat → α) (incx : Int) :
    Option (Execution α R Nat (Option Nat)) :=
  let operand := Operand.stride2 (width T) x
  let count := machine.runtime.taskCount site (toUsize n)
  let bound := evenBound (toUsize n) count
  if targetUnary machine n incx ∧ 1 < count then
    some (.fork 1 (fun _ => do
        let xb ← loadElements operand ⟨0, 1, 1⟩
        pure (if ops.isNan (abs1 (width T) (Piece.element ⟨0, 1, 1⟩ (width T) xb 0)) then 1 else 0))
      (fun nan =>
        if nan 0 = 1 then .single (.done (some 1))
        else if (machine.runtime.dispatch site count).isSome then
          .fork count (fun index => iamaxStride2TaskCandidate T ops machine x (bound index) (bound (index + 1)))
            (fun results => .single ((bestCandidate operand count bound results).bind (fun index => .done (some index))))
        else .single (.done none)))
  else none

end Routines

end Zynum.LevelOne
