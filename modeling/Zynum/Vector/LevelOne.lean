import Zynum.Vector.Blocks

set_option autoImplicit false

/- The Level 1 routines of core/vector/operations.zig, which every export reaches
   through core/vector.zig, over one memory both vectors lie in. Size gates and
   limits that only choose a task count are the runtime's answer; an architecture
   kernel that accepts a unit vector walks it in blocks of its own widths. -/
namespace Zynum

open ArrayProgram

-- Element types as rows of reals: real, imaginary.
class Element (R : outParam Type) (T : Type) extends Scalar T where
  width : Nat
  parts : T → Nat → R
  whole : (Nat → R) → T
  fromReal : R → T

structure VectorMachine where
  runtime : Runtime
  lanes : Precision → Nat
  kernel : Site → Nat → Option (List Nat)
  kernel_widths : ∀ site n widths, kernel site n = some widths → widths.sum = n
  preferStride2Parallel : Nat → Bool
  macos : Bool

namespace LevelOne

open Element (width parts whole fromReal)

variable {α R T A B : Type}

def realBytes (precision : Precision) : Nat :=
  match precision with
  | .single => 4
  | .double => 8

-- byteRangesOverlap, in reals.
def rangesOverlap (xStart yStart count : Nat) : Bool :=
  if count = 0 then false
  else if xStart = yStart then true
  else if xStart < yStart then yStart - xStart < count
  else xStart - yStart < count

def realLaneCounts (machine : VectorMachine) (precision : Precision) : List Nat :=
  [machine.lanes precision, machine.lanes precision / 2, machine.lanes precision / 4]

def complexLaneCounts (machine : VectorMachine) (precision : Precision) : List Nat :=
  [machine.lanes precision / 2, machine.lanes precision / 4, machine.lanes precision / 8]

def unitPieces (machine : VectorMachine) (site : Site) (laneCounts : List Nat) (first last : Nat) : List Piece :=
  match machine.kernel site (last - first) with
  | some widths => widthPlan widths first
  | none => unitPlan laneCounts first last

-- Logical elements in one stride-2 block.
def stride2Lanes (machine : VectorMachine) (T : Type) [Scalar T] : Nat :=
  if isReal T then machine.lanes (Scalar.precision T) else machine.lanes (Scalar.precision T) / 2

def finished : Execution α R Unit Unit := .single (.done ())

def forkTasks (rt : Runtime) (site : Site) (count : Nat) (tasks : Nat → Program α R B) (next : (Nat → B) → A) :
    Option (Execution α R B A) :=
  if count ≤ 1 then none
  else if (rt.dispatch site count).isSome then some (.fork count tasks (fun results => .single (.done (next results))))
  else none

def forkCount (machine : VectorMachine) (site : Site) (n count : Nat) (task : Site → Nat → Nat → Program α R B)
    (next : (Nat → B) → A) : Option (Execution α R B A) :=
  forkTasks machine.runtime site count
    (fun index => task (index :: site) (evenBound n count index) (evenBound n count (index + 1))) next

def forkEven (machine : VectorMachine) (site : Site) (n : Nat) (task : Site → Nat → Nat → Program α R B)
    (next : Nat → (Nat → B) → A) : Option (Execution α R B A) :=
  let count := machine.runtime.taskCount site n
  forkCount machine site n count task (next count)

def addPartials [Zero A] [Add A] (count : Nat) (partials : Nat → A) : A :=
  loop count (fun index sum => sum + partials index) 0

-- The vectors overlap as far as a stride-2 access of n elements can tell.
def stride2Overlap (T : Type) [Element R T] (n xStart yStart : Nat) : Bool :=
  rangesOverlap xStart yStart (width (R := R) T * (2 * n - 1))

section Routines

variable [CommRing R] [LinearOrder R] [CommRing T] [Element R T]

def updateUnit (machine : VectorMachine) (width : Nat) (laneCounts : List Nat) (apply : (Nat → R) → Nat → R)
    (x : Nat → α) (site : Site) (first last : Nat) : Program α R Unit :=
  Program.eachItem (unitPieces machine site laneCounts first last) (updateOne apply (Operand.unit width x))

def updateUnitRoute (machine : VectorMachine) (site : Site) (width : Nat) (laneCounts : List Nat)
    (apply : (Nat → R) → Nat → R) (n : Nat) (x : Nat → α) : Execution α R Unit Unit :=
  (forkEven machine site n (updateUnit machine width laneCounts apply x) (fun _ _ => ())).getD
    (.single (updateUnit machine width laneCounts apply x site 0 n))

def updateStride2 (strict : Bool) (lanes width : Nat) (apply : (Nat → R) → Nat → R) (x : Nat → α) (_ : Site)
    (first last : Nat) : Program α R Unit :=
  Program.eachItem (stride2Plan strict lanes first last) (updateOne apply (Operand.stride2 width x))

def scalRule (alpha : T) (value : Nat → R) : Nat → R := parts (alpha * whole value)

def realScalRule (alpha : R) (value : Nat → R) (lane : Nat) : R := value lane * alpha

def scal (machine : VectorMachine) (site : Site) (n : Int) (alpha : T) (x : Nat → α) (incx : Int) :
    Execution α R Unit Unit :=
  if n ≤ 0 ∨ incx = 0 then finished
  else if isOne alpha then finished
  else if incx = 1 then
    if isReal T || Scalar.imagIsZero alpha then
      updateUnitRoute machine site 1 (realLaneCounts machine (Scalar.precision T)) (realScalRule (parts alpha 0))
        (width T * toUsize n) x
    else
      updateUnitRoute machine site (width T) (complexLaneCounts machine (Scalar.precision T)) (scalRule alpha)
        (toUsize n) x
  else if !isReal T && incx = 2 then
    let task := updateStride2 false (stride2Lanes machine T) (width T) (scalRule alpha) x
    (if Scalar.precision T = .double ∧ machine.runtime.arch = .aarch64 then
      forkEven machine site (toUsize n) task (fun _ _ => ())
    else none).getD (.single (task site 0 (toUsize n)))
  else
    .single (Program.eachItem (singles 0 (toUsize n)) (updateOne (scalRule alpha) (Operand.strided (width T) n incx x)))

variable (T) in
def rscal (machine : VectorMachine) (site : Site) (n : Int) (alpha : R) (x : Nat → α) (incx : Int) :
    Execution α R Unit Unit :=
  if alpha = 1 then finished
  else if !isReal T ∧ (n ≤ 0 ∨ incx = 0) then finished
  else if !isReal T ∧ incx = 1 then
    updateUnitRoute machine site 1 (realLaneCounts machine (Scalar.precision T)) (realScalRule alpha)
      (width T * toUsize n) x
  else scal machine site n (fromReal alpha : T) x incx

-- copyBytes over [first, last) reals; an overlapping copy is a memmove.
def copyBytes (machine : VectorMachine) (xStart yStart : Nat) (x y : Nat → α) (site : Site) (first last : Nat) :
    Program α R Unit :=
  let pieces :=
    if first = last ∨ xStart = yStart then []
    else if rangesOverlap xStart yStart (last - first) then [⟨first, last - first, 1⟩]
    else unitPieces machine site [last - first] first last
  Program.eachItem pieces (copyBlock (Operand.unit 1 x) (Operand.unit 1 y))

def copyTaskBound (blockReals reals count task : Nat) : Nat :=
  if task = count then reals else task * (reals / blockReals) / count * blockReals

-- The 256 KiB copy hands its second chunk to the calling thread.
def chunkOrder (task : Nat) : Nat :=
  if task = 0 then 1 else if task = 1 then 0 else task

def parallelCopyBytes (machine : VectorMachine) (site : Site) (precision : Precision) (reals xStart yStart : Nat)
    (x y : Nat → α) : Option (Execution α R Unit Unit) :=
  let bytes := reals * realBytes precision
  let refused :=
    if machine.runtime.arch = .x86_64 then bytes ≤ 128 * 1024
    else bytes < 4 * 1024 * 1024 ∨ (bytes > 5 * 1024 * 1024 ∧ bytes ≠ 8 * 1024 * 1024)
  if refused then none
  else if rangesOverlap xStart yStart reals then none
  else
    let count := machine.runtime.taskCount site reals
    let task := fun (index first last : Nat) => copyBytes machine xStart yStart x y (index :: site) first last
    if machine.runtime.arch = .x86_64 ∧ bytes = 256 * 1024 ∧ count = 4 then
      let chunk := 64 * 1024 / realBytes precision
      forkTasks machine.runtime site count
        (fun index => task index (chunkOrder index * chunk) ((chunkOrder index + 1) * chunk)) (fun _ => ())
    else
      let bound := copyTaskBound (1024 / realBytes precision) reals count
      forkTasks machine.runtime site count (fun index => task index (bound index) (bound (index + 1))) (fun _ => ())

variable (T) in
def copy (machine : VectorMachine) (site : Site) (n : Int) (xStart yStart : Nat) (x : Nat → α) (incx : Int)
    (y : Nat → α) (incy : Int) : Execution α R Unit Unit :=
  if n ≤ 0 ∨ incx = 0 ∨ incy = 0 then finished
  else if incx = 1 ∧ incy = 1 then
    let reals := width T * toUsize n
    (parallelCopyBytes machine site (Scalar.precision T) reals xStart yStart x y).getD
      (.single (copyBytes machine xStart yStart x y site 0 reals))
  else
    .single (Program.eachItem (singles 0 (toUsize n))
      (copyBlock (Operand.strided (width T) n incx x) (Operand.strided (width T) n incy y)))

-- What swap, rot and rotm store into x and y.
structure PairRule (R : Type) where
  first : (Nat → R) → (Nat → R) → Nat → R
  second : (Nat → R) → (Nat → R) → Nat → R

def bothUnit (machine : VectorMachine) (width : Nat) (laneCounts : List Nat) (rule : PairRule R) (x y : Nat → α)
    (site : Site) (first last : Nat) : Program α R Unit :=
  Program.eachItem (unitPieces machine site laneCounts first last)
    (updateBoth rule.first rule.second (Operand.unit width x) (Operand.unit width y))

def bothStride2 (strict : Bool) (lanes width : Nat) (rule : PairRule R) (x y : Nat → α) (_ : Site)
    (first last : Nat) : Program α R Unit :=
  Program.eachItem (stride2Plan strict lanes first last)
    (updateBoth rule.first rule.second (Operand.stride2 width x) (Operand.stride2 width y))

def bothStrided (width : Nat) (n : Int) (rule : PairRule R) (x : Nat → α) (incx : Int) (y : Nat → α) (incy : Int) :
    Execution α R Unit Unit :=
  .single (Program.eachItem (singles 0 (toUsize n))
    (updateBoth rule.first rule.second (Operand.strided width n incx x) (Operand.strided width n incy y)))

def swapRule : PairRule R := ⟨fun _ y => y, fun x _ => x⟩

-- On aarch64 worker boundaries lie on whole 128-byte blocks.
def swapTaskBound (grain reals count task : Nat) : Nat :=
  if task = count then reals else task * reals / count / grain * grain

def parallelSwapUnitReal (machine : VectorMachine) (site : Site) (precision : Precision) (reals xStart yStart : Nat)
    (x y : Nat → α) : Option (Execution α R Unit Unit) :=
  if rangesOverlap xStart yStart reals then none
  else if machine.runtime.arch = .other then none
  else
    let count := machine.runtime.taskCount site reals
    let grain := if machine.runtime.arch = .aarch64 then 128 / realBytes precision else 1
    let bound := swapTaskBound grain reals count
    forkTasks machine.runtime site count
      (fun index => bothUnit machine 1 (realLaneCounts machine precision) swapRule x y (index :: site)
        (bound index) (bound (index + 1))) (fun _ => ())

-- The architecture kernel is only asked when the vectors lie apart.
def swapUnit (machine : VectorMachine) (site : Site) (precision : Precision) (reals xStart yStart : Nat)
    (x y : Nat → α) : Program α R Unit :=
  if rangesOverlap xStart yStart reals then
    Program.eachItem (unitPlan (realLaneCounts machine precision) 0 reals)
      (updateBoth swapRule.first swapRule.second (Operand.unit 1 x) (Operand.unit 1 y))
  else bothUnit machine 1 (realLaneCounts machine precision) swapRule x y site 0 reals

variable (T) in
-- parallelSwapStride2F64 and parallelSwapStride2C32.
def parallelSwapStride2 (machine : VectorMachine) (site : Site) (n : Nat) (x y : Nat → α) :
    Option (Execution α R Unit Unit) :=
  if machine.runtime.arch = .aarch64 ∧ ((isReal T : Bool) ↔ Scalar.precision T = .double) ∧ 512 * 1024 ≤ n then
    forkCount machine site n (min (machine.runtime.taskCount site n) 2)
      (bothStride2 false (stride2Lanes machine T) (width T) swapRule x y) (fun _ => ())
  else none

variable (T) in
def swap (machine : VectorMachine) (site : Site) (n : Int) (xStart yStart : Nat) (x : Nat → α) (incx : Int)
    (y : Nat → α) (incy : Int) : Execution α R Unit Unit :=
  if n ≤ 0 ∨ incx = 0 ∨ incy = 0 then finished
  else if incx = 1 ∧ incy = 1 then
    let reals := width T * toUsize n
    (parallelSwapUnitReal machine site (Scalar.precision T) reals xStart yStart x y).getD
      (.single (swapUnit machine (1 :: site) (Scalar.precision T) reals xStart yStart x y))
  else if incx = 2 ∧ incy = 2 ∧ (isReal T || decide (Scalar.precision T = .single)) ∧
      !stride2Overlap T (toUsize n) xStart yStart then
    (parallelSwapStride2 T machine site (toUsize n) x y).getD
      (.single (bothStride2 false (stride2Lanes machine T) (width T) swapRule x y site 0 (toUsize n)))
  else bothStrided (width T) n swapRule x incx y incy

def secondUnit (machine : VectorMachine) (width : Nat) (laneCounts : List Nat)
    (apply : (Nat → R) → (Nat → R) → Nat → R) (x y : Nat → α) (site : Site) (first last : Nat) : Program α R Unit :=
  Program.eachItem (unitPieces machine site laneCounts first last)
    (updateSecond apply (Operand.unit width x) (Operand.unit width y))

def secondUnitRoute (machine : VectorMachine) (site : Site) (width : Nat) (laneCounts : List Nat)
    (apply : (Nat → R) → (Nat → R) → Nat → R) (n : Nat) (x y : Nat → α) : Execution α R Unit Unit :=
  (forkEven machine site n (secondUnit machine width laneCounts apply x y) (fun _ _ => ())).getD
    (.single (secondUnit machine width laneCounts apply x y site 0 n))

def secondStride2 (strict : Bool) (lanes width : Nat) (apply : (Nat → R) → (Nat → R) → Nat → R) (x y : Nat → α)
    (_ : Site) (first last : Nat) : Program α R Unit :=
  Program.eachItem (stride2Plan strict lanes first last)
    (updateSecond apply (Operand.stride2 width x) (Operand.stride2 width y))

def secondStrided (width : Nat) (n : Int) (apply : (Nat → R) → (Nat → R) → Nat → R) (x : Nat → α) (incx : Int)
    (y : Nat → α) (incy : Int) : Execution α R Unit Unit :=
  .single (Program.eachItem (singles 0 (toUsize n))
    (updateSecond apply (Operand.strided width n incx x) (Operand.strided width n incy y)))

def axpyRule (alpha : T) (x y : Nat → R) : Nat → R := parts (whole y + alpha * whole x)

def realAxpyRule (alpha : R) (x y : Nat → R) (lane : Nat) : R := alpha * x lane + y lane

def axpy (machine : VectorMachine) (site : Site) (n : Int) (alpha : T) (xStart yStart : Nat) (x : Nat → α) (incx : Int)
    (y : Nat → α) (incy : Int) : Execution α R Unit Unit :=
  if n ≤ 0 ∨ incx = 0 ∨ incy = 0 ∨ isZero alpha then finished
  else if incx = 1 ∧ incy = 1 then
    if isReal T || Scalar.imagIsZero alpha then
      secondUnitRoute machine site 1 (realLaneCounts machine (Scalar.precision T)) (realAxpyRule (parts alpha 0))
        (width T * toUsize n) x y
    else
      secondUnitRoute machine site (width T) (complexLaneCounts machine (Scalar.precision T)) (axpyRule alpha)
        (toUsize n) x y
  else if incx = 2 ∧ incy = 2 ∧ !stride2Overlap T (toUsize n) xStart yStart then
    let task := secondStride2 false (stride2Lanes machine T) (width T) (axpyRule alpha) x y
    (if machine.runtime.arch = .aarch64 then forkEven machine site (toUsize n) task (fun _ _ => ()) else none).getD
      (.single (task site 0 (toUsize n)))
  else secondStrided (width T) n (axpyRule alpha) x incx y incy

def axpbyRule (alpha beta : T) (x y : Nat → R) : Nat → R := parts (alpha * whole x + beta * whole y)

def realAxpbyRule (alpha beta : R) (x y : Nat → R) (lane : Nat) : R := alpha * x lane + beta * y lane

def axpbyUnit (machine : VectorMachine) (site : Site) (n : Nat) (alpha beta : T) (xStart yStart : Nat)
    (x y : Nat → α) : Execution α R Unit Unit :=
  if isReal T || (Scalar.imagIsZero alpha && Scalar.imagIsZero beta) then
    let reals := width T * n
    let apply := realAxpbyRule (parts alpha 0) (parts beta 0)
    let lanes := realLaneCounts machine (Scalar.precision T)
    -- axpbyUnitReal for large aarch64 f32 vectors and overlapping ones runs on the calling thread.
    if rangesOverlap xStart yStart reals then .single (secondUnit machine 1 lanes apply x y site 0 reals)
    else secondUnitRoute machine site 1 lanes apply reals x y
  else if machine.runtime.arch = .x86_64 then
    secondUnitRoute machine site (width T) (complexLaneCounts machine (Scalar.precision T)) (axpbyRule alpha beta) n x y
  else
    .single (secondUnit machine (width T) (complexLaneCounts machine (Scalar.precision T)) (axpbyRule alpha beta)
      x y site 0 n)

def axpby (machine : VectorMachine) (site : Site) (n : Int) (alpha : T) (beta : T) (xStart yStart : Nat)
    (x : Nat → α) (incx : Int) (y : Nat → α) (incy : Int) : Execution α R Unit Unit :=
  if n ≤ 0 ∨ incx = 0 ∨ incy = 0 then finished
  else if isZero alpha then scal machine (0 :: site) n beta y incy
  else if isOne beta then axpy machine (1 :: site) n alpha xStart yStart x incx y incy
  else if isOne alpha && isZero beta then copy T machine (2 :: site) n xStart yStart x incx y incy
  else if incx = 1 ∧ incy = 1 then axpbyUnit machine (3 :: site) (toUsize n) alpha beta xStart yStart x y
  else if incx = 2 ∧ incy = 2 ∧ (!isReal T && decide (Scalar.precision T = .single)) ∧
      !stride2Overlap T (toUsize n) xStart yStart then
    .single (secondStride2 false (stride2Lanes machine T) (width T) (axpbyRule alpha beta) x y site 0 (toUsize n))
  else secondStrided (width T) n (axpbyRule alpha beta) x incx y incy

-- The real rotation acts on real and imaginary parts alike.
def realRotRule (c s : R) : PairRule R :=
  ⟨fun x y lane => x lane * c + y lane * s, fun x y lane => -x lane * s + y lane * c⟩

def rotRule (c : R) (s : T) : PairRule R :=
  ⟨fun x y => parts (fromReal c * whole x + s * whole y), fun x y => parts (fromReal c * whole y - s * whole x)⟩

def streamingBound (n count task : Nat) : Nat :=
  if task = count then n else n / 256 * task / count * 256

-- parallelStreamingRot and parallelStreamingRotm.
def parallelStreaming (machine : VectorMachine) (site : Site) (rule : PairRule R) (n xStart yStart : Nat)
    (x y : Nat → α) : Option (Execution α R Unit Unit) :=
  if machine.runtime.arch = .aarch64 ∧ machine.macos ∧ !rangesOverlap xStart yStart n then
    let count := machine.runtime.taskCount site n
    let bound := streamingBound n count
    forkTasks machine.runtime site count
      (fun index => bothUnit machine 1 (realLaneCounts machine .single) rule x y (index :: site) (bound index)
        (bound (index + 1))) (fun _ => ())
  else none

-- parallelRotUnitReal and parallelRotmUnitReal, then the serial leaf.
def bothUnitReal (machine : VectorMachine) (site : Site) (precision : Precision) (rule : PairRule R)
    (reals xStart yStart : Nat) (x y : Nat → α) : Execution α R Unit Unit :=
  let task := bothUnit machine 1 (realLaneCounts machine precision) rule x y
  (if rangesOverlap xStart yStart reals ∨ machine.runtime.arch = .other then none
  else forkEven machine site reals task (fun _ _ => ())).getD (.single (task site 0 reals))

def rot (machine : VectorMachine) (site : Site) (n : Int) (xStart yStart : Nat) (x : Nat → α) (incx : Int)
    (y : Nat → α) (incy : Int) (c : R) (s : T) : Execution α R Unit Unit :=
  if n ≤ 0 ∨ incx = 0 ∨ incy = 0 then finished
  else if incx = 1 ∧ incy = 1 ∧ (isReal T || Scalar.imagIsZero s) then
    let reals := width T * toUsize n
    let rule := realRotRule c (parts s 0)
    (if isReal T ∧ Scalar.precision T = .single then parallelStreaming machine (0 :: site) rule reals xStart yStart x y
    else none).getD (bothUnitReal machine (1 :: site) (Scalar.precision T) rule reals xStart yStart x y)
  else if incx = 2 ∧ incy = 2 ∧ (isReal T || Scalar.imagIsZero s) ∧ !stride2Overlap T (toUsize n) xStart yStart then
    .single (bothStride2 false (stride2Lanes machine T) (width T) (realRotRule c (parts s 0)) x y site 0 (toUsize n))
  else bothStrided (width T) n (rotRule c s) x incx y incy

structure ModifiedRotation (R : Type) where
  flag : R
  h11 : R
  h21 : R
  h12 : R
  h22 : R

-- The entries a flag leaves implicit read as zero; the rule never uses them.
def readParam (param : Nat → R) : ModifiedRotation R where
  flag := param 0
  h11 := if param 0 < 0 ∨ param 0 > 0 then param 1 else 0
  h21 := if param 0 ≤ 0 then param 2 else 0
  h12 := if param 0 ≤ 0 then param 3 else 0
  h22 := if param 0 < 0 ∨ param 0 > 0 then param 4 else 0

def rotmRule (h : ModifiedRotation R) : PairRule R :=
  if h.flag < 0 then
    ⟨fun w z lane => w lane * h.h11 + z lane * h.h12, fun w z lane => w lane * h.h21 + z lane * h.h22⟩
  else if h.flag = 0 then ⟨fun w z lane => z lane * h.h12 + w lane, fun w z lane => w lane * h.h21 + z lane⟩
  else ⟨fun w z lane => w lane * h.h11 + z lane, fun w z lane => z lane * h.h22 - w lane⟩

-- Real data only: T is its own real type, of one precision.
variable (T) in
def rotm (machine : VectorMachine) (site : Site) (n : Int) (xStart yStart : Nat) (x : Nat → α) (incx : Int)
    (y : Nat → α) (incy : Int) (param : Nat → R) : Execution α R Unit Unit :=
  if n ≤ 0 ∨ incx = 0 ∨ incy = 0 then finished
  else if param 0 = -2 then finished
  else
    let rule := rotmRule (readParam param)
    if isReal T ∧ incx = 1 ∧ incy = 1 then
      (if Scalar.precision T = .single then
        parallelStreaming machine (0 :: site) rule (toUsize n) xStart yStart x y
      else none).getD (bothUnitReal machine (1 :: site) (Scalar.precision T) rule (toUsize n) xStart yStart x y)
    else if isReal T ∧ incx = 2 ∧ incy = 2 ∧ !stride2Overlap T (toUsize n) xStart yStart then
      .single (bothStride2 false (stride2Lanes machine T) (width T) rule x y site 0 (toUsize n))
    else bothStrided (width T) n rule x incx y incy

def dotTerm (conjx : Bool) (x y : Nat → R) : T := conjugateIf (whole x) conjx * whole y

def dotPieces (term : (Nat → R) → (Nat → R) → T) (x y : Operand α) (pieces : List Piece) : Program α R T :=
  Program.foldItems pieces (sumTwo term x y) 0

def dotUnit (machine : VectorMachine) (conjx : Bool) (x y : Nat → α) (site : Site) (first last : Nat) : Program α R T :=
  let laneCounts := if isReal T then realLaneCounts machine (Scalar.precision T)
    else complexLaneCounts machine (Scalar.precision T)
  dotPieces (dotTerm conjx) (Operand.unit (width T) x) (Operand.unit (width T) y)
    (unitPieces machine site laneCounts first last)

def dotStride2 (strict : Bool) (lanes : Nat) (conjx : Bool) (x y : Nat → α) (_ : Site) (first last : Nat) :
    Program α R T :=
  dotPieces (dotTerm conjx) (Operand.stride2 (width T) x) (Operand.stride2 (width T) y)
    (stride2Plan strict lanes first last)

def dot (machine : VectorMachine) (site : Site) (n : Int) (x : Nat → α) (incx : Int) (y : Nat → α) (incy : Int)
    (conjx : Bool) : Execution α R T T :=
  if n ≤ 0 ∨ incx = 0 ∨ incy = 0 then .single (.done 0)
  else if incx = 1 ∧ incy = 1 then
    (forkEven machine site (toUsize n) (dotUnit machine conjx x y) addPartials).getD
      (.single (dotUnit machine conjx x y site 0 (toUsize n)))
  else if isReal T ∧ incx = 2 ∧ incy = 2 then
    .single (dotStride2 false (stride2Lanes machine T) conjx x y site 0 (toUsize n))
  else
    .single (dotPieces (dotTerm conjx) (Operand.strided (width T) n incx x) (Operand.strided (width T) n incy y)
      (singles 0 (toUsize n)))

-- f32 products summed in f64: four lanes on every machine.
def accPieces (x y : Operand α) (pieces : List Piece) : Program α R R :=
  Program.foldItems pieces (sumTwo (fun x y => x 0 * y 0) x y) 0

def dotF32AccF64Unit (machine : VectorMachine) (x y : Nat → α) (site : Site) (first last : Nat) : Program α R R :=
  accPieces (Operand.unit 1 x) (Operand.unit 1 y) (unitPieces machine site [4] first last)

def dotF32AccF64Stride2 (strict : Bool) (x y : Nat → α) (_ : Site) (first last : Nat) : Program α R R :=
  accPieces (Operand.stride2 1 x) (Operand.stride2 1 y) (stride2Plan strict 4 first last)

def dotF32AccF64 (machine : VectorMachine) (site : Site) (n : Int) (x : Nat → α) (incx : Int) (y : Nat → α)
    (incy : Int) : Execution α R R R :=
  if n ≤ 0 ∨ incx = 0 ∨ incy = 0 then .single (.done 0)
  else if incx = 1 ∧ incy = 1 then
    (if machine.runtime.arch = .x86_64 then
      forkEven machine site (toUsize n) (dotF32AccF64Unit machine x y) addPartials
    else none).getD (.single (dotF32AccF64Unit machine x y site 0 (toUsize n)))
  else if incx = 2 ∧ incy = 2 then .single (dotF32AccF64Stride2 false x y site 0 (toUsize n))
  else
    .single (accPieces (Operand.strided 1 n incx x) (Operand.strided 1 n incy y) (singles 0 (toUsize n)))

-- abs1: the sum of the magnitudes of the parts.
def abs1 (width : Nat) (value : Nat → R) : R := loop width (fun lane sum => sum + |value lane|) 0

def asumPieces (x : Operand α) (pieces : List Piece) : Program α R R :=
  Program.foldItems pieces (sumOne (abs1 x.width) x) 0

def asumUnit (machine : VectorMachine) (precision : Precision) (x : Nat → α) (site : Site) (first last : Nat) :
    Program α R R :=
  asumPieces (Operand.unit 1 x) (unitPieces machine site (realLaneCounts machine precision) first last)

def asumStride2 (strict : Bool) (lanes width : Nat) (x : Nat → α) (_ : Site) (first last : Nat) : Program α R R :=
  asumPieces (Operand.stride2 width x) (stride2Plan strict lanes first last)

variable (T) in
def asum (machine : VectorMachine) (site : Site) (n : Int) (x : Nat → α) (incx : Int) : Execution α R R R :=
  if n ≤ 0 ∨ incx = 0 then .single (.done 0)
  else if incx = 1 then
    let reals := width T * toUsize n
    (forkEven machine site reals (asumUnit machine (Scalar.precision T) x) addPartials).getD
      (.single (asumUnit machine (Scalar.precision T) x site 0 reals))
  else if isReal T ∧ incx = 2 then
    .single (asumStride2 false (stride2Lanes machine T) (width T) x site 0 (toUsize n))
  else .single (asumPieces (Operand.strided (width T) n incx x) (singles 0 (toUsize n)))

end Routines

end LevelOne

end Zynum
