import Zynum.Runtime

set_option autoImplicit false

/- scal, axpy and dot of core/vector/operations.zig. A SIMD block is the same
   element-wise store as the scalar tail, so the lane loops appear as one loop;
   a reduction over lanes is the same exact sum. -/
namespace Zynum

open ArrayProgram

variable {T : Type} [Zero T] [Add T] [Mul T] [Scalar T]

-- Real data multiplies from the right; a complex alpha without imaginary part
-- scales the components as 2n reals.
def scalValue (alpha value : T) : T :=
  if isReal T then value * alpha
  else if Scalar.imagIsZero alpha then Scalar.scaleByReal alpha value
  else alpha * value

def axpyValue (alpha x y : T) : T :=
  if isReal T then alpha * x + y
  else if Scalar.imagIsZero alpha then Scalar.scaleByReal alpha x + y
  else y + alpha * x

def scalUnit (apply : T → T) (start first last : Nat) (x : Mem T) : Mem T :=
  loopRange first last (fun i x => Function.update x (start + i) (apply (x (start + i)))) x

def scalUnitReal (n : Nat) (alpha : T) (x : Mem T) (start : Nat) : Mem T :=
  scalUnit (fun value => value * alpha) start 0 n x

def parallelScalUnit (rt : Runtime) (site : Site) (n : Nat) (apply : T → T) (x : Mem T) (start : Nat) : Option (Mem T) :=
  let taskCount := rt.taskCount site n
  if taskCount ≤ 1 then none
  else rt.runTasks site taskCount
    (fun task => scalUnit apply start (evenBound n taskCount task) (evenBound n taskCount (task + 1))) x

def scal (rt : Runtime) (site : Site) (n : Int) (alpha : T) (x : Mem T) (start : Nat) (incx : Int) : Mem T :=
  if n ≤ 0 ∨ incx = 0 then x
  else if isOne alpha then x
  else if incx = 1 then
    (parallelScalUnit rt site (toUsize n) (scalValue alpha) x start).getD
      (scalUnit (scalValue alpha) start 0 (toUsize n) x)
  else
    loop (toUsize n) (fun i x =>
      let p := start + ix (startIndex n incx) i incx
      Function.update x p (alpha * x p)) x

def axpyUnit (value : T → T → T) (x : Mem T) (xStart yStart first last : Nat) (y : Mem T) : Mem T :=
  loopRange first last (fun i y => Function.update y (yStart + i) (value (x (xStart + i)) (y (yStart + i)))) y

def axpyUnitReal (n : Nat) (alpha : T) (x : Mem T) (xStart : Nat) (y : Mem T) (yStart : Nat) : Mem T :=
  axpyUnit (fun xi yi => alpha * xi + yi) x xStart yStart 0 n y

def parallelAxpyUnit (rt : Runtime) (site : Site) (n : Nat) (value : T → T → T) (x : Mem T) (xStart : Nat)
    (y : Mem T) (yStart : Nat) : Option (Mem T) :=
  let taskCount := rt.taskCount site n
  if taskCount ≤ 1 then none
  else rt.runTasks site taskCount
    (fun task => axpyUnit value x xStart yStart (evenBound n taskCount task) (evenBound n taskCount (task + 1))) y

def axpy (rt : Runtime) (site : Site) (n : Int) (alpha : T) (x : Mem T) (xStart : Nat) (incx : Int)
    (y : Mem T) (yStart : Nat) (incy : Int) : Mem T :=
  if n ≤ 0 ∨ incx = 0 ∨ incy = 0 ∨ isZero alpha then y
  else if incx = 1 ∧ incy = 1 then
    (parallelAxpyUnit rt site (toUsize n) (axpyValue alpha) x xStart y yStart).getD
      (axpyUnit (axpyValue alpha) x xStart yStart 0 (toUsize n) y)
  else
    loop (toUsize n) (fun i y =>
      let py := yStart + ix (startIndex n incy) i incy
      Function.update y py (y py + alpha * x (xStart + ix (startIndex n incx) i incx))) y

def dotUnit (first last : Nat) (x : Mem T) (xStart : Nat) (y : Mem T) (yStart : Nat) (conjx : Bool) : T :=
  loopRange first last (fun i sum => sum + conjugateIf (x (xStart + i)) conjx * y (yStart + i)) 0

def dotUnitReal (n : Nat) (x : Mem T) (xStart : Nat) (y : Mem T) (yStart : Nat) : T :=
  dotUnit 0 n x xStart y yStart false

-- Every task stores its own partial sum; they are added in task order afterwards.
def parallelDotUnit (rt : Runtime) (site : Site) (n : Nat) (x : Mem T) (xStart : Nat) (y : Mem T) (yStart : Nat)
    (conjx : Bool) : Option T :=
  let taskCount := rt.taskCount site n
  if taskCount ≤ 1 then none
  else (rt.runTasks site taskCount
    (fun task partials => Function.update partials task
      (dotUnit (evenBound n taskCount task) (evenBound n taskCount (task + 1)) x xStart y yStart conjx))
    (fun _ => (0 : T))).map (fun partials => loop taskCount (fun task sum => sum + partials task) 0)

def dot (rt : Runtime) (site : Site) (n : Int) (x : Mem T) (xStart : Nat) (incx : Int) (y : Mem T) (yStart : Nat)
    (incy : Int) (conjx : Bool) : T :=
  if n ≤ 0 ∨ incx = 0 ∨ incy = 0 then 0
  else if incx = 1 ∧ incy = 1 then
    (parallelDotUnit rt site (toUsize n) x xStart y yStart conjx).getD
      (dotUnit 0 (toUsize n) x xStart y yStart conjx)
  else
    loop (toUsize n) (fun i sum =>
      sum + conjugateIf (x (xStart + ix (startIndex n incx) i incx)) conjx * y (yStart + ix (startIndex n incy) i incy)) 0

end Zynum
