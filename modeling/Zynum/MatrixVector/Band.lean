import Zynum.Vector.Exact
import Zynum.Abi.Arguments

set_option autoImplicit false

/- gbmv of core/matrix_vector/general.zig. A row range whose start lies past its
   end is illegal behaviour in the source (an unsigned underflow, or a counted
   loop that starts after its end), modelled as a trap. -/
namespace Zynum

open ArrayProgram

-- The fields of GemvProfile that gbmv consults.
structure GemvProfile where
  gbmvMinDimension : Nat
  gbmvMinBandwidth : Nat
  gbmvC32ConjugateMinDimension : Nat

def GemvProfile.production : GemvProfile := ⟨512, 17, 1024⟩

variable {T : Type} [Zero T] [Add T] [Mul T] [Scalar T]

def isComplexF32 (T : Type) [Scalar T] : Bool := Scalar.isComplex T && Scalar.precision T = .single

def GemvProfile.preferGbmvUnit (self : GemvProfile) (T : Type) [Scalar T] (conjugate : Bool) (m n bandwidth : Nat) : Bool :=
  if m < self.gbmvMinDimension ∨ n < self.gbmvMinDimension ∨ bandwidth < self.gbmvMinBandwidth then false
  else !(isComplexF32 T && conjugate &&
    (m < self.gbmvC32ConjugateMinDimension || n < self.gbmvC32ConjugateMinDimension))

def scaleUnitReal (n : Nat) (beta : T) (y : Mem T) : Mem T :=
  if isOne beta then y
  else if isZero beta then loop n (fun i y => Function.update y i 0) y
  else scalUnitReal n beta y 0

def scaleOutput (n : Nat) (beta : T) (start : Int) (y : Mem T) (incy : Int) : Mem T :=
  loop n (fun i y =>
    let py := ix start i incy
    Function.update y py (if isZero beta then 0 else beta * y py)) y

def bandRowFirst (ku j : Nat) : Nat := if j > ku then j - ku else 0

def bandRowLast (m kl j : Nat) : Nat := min m (j + kl + 1)

def checkedLength (row0 row1 : Nat) : Option Nat := if row0 ≤ row1 then some (row1 - row0) else none

def gbmvUnitColumn (rt : Runtime) (site : Site) (m kl ku : Nat) (alpha : T) (a : Mem T) (lda : Nat) (x : Mem T)
    (j : Nat) (y : Mem T) : Option (Mem T) :=
  let row0 := bandRowFirst ku j
  let row1 := bandRowLast m kl j
  (checkedLength row0 row1).bind (fun len =>
    let col := j * lda + (ku + row0 - j)
    let xj := alpha * x j
    if isZero xj then some y
    else if isReal T then some (axpyUnitReal len xj a col y row0)
    else some (axpy rt site len xj a col 1 y row0 1))

def gbmvUnitDot (rt : Runtime) (site : Site) (m kl ku : Nat) (conjugate : Bool) (alpha : T) (a : Mem T) (lda : Nat)
    (x : Mem T) (j : Nat) (y : Mem T) : Option (Mem T) :=
  let row0 := bandRowFirst ku j
  let row1 := bandRowLast m kl j
  (checkedLength row0 row1).bind (fun len =>
    let col := j * lda + (ku + row0 - j)
    let sum := if isReal T then dotUnitReal len a col x row0 else dot rt site len a col 1 x row0 1 conjugate
    some (Function.update y j (y j + alpha * sum)))

def gbmvUnit (rt : Runtime) (site : Site) (mode : TransposeMode) (m n kl ku : Nat) (alpha : T) (a : Mem T) (lda : Int)
    (x : Mem T) (beta : T) (y : Mem T) : Option (Mem T) :=
  let leny := if mode = .noTrans then m else n
  let scaled := if isReal T then scaleUnitReal leny beta y else scal rt (0 :: site) leny beta y 0 1
  if isZero alpha then some scaled
  else if mode = .noTrans then
    trappingLoop n (fun j => gbmvUnitColumn rt (1 :: j :: site) m kl ku alpha a (toUsize lda) x j) scaled
  else
    trappingLoop n (fun j =>
      gbmvUnitDot rt (1 :: j :: site) m kl ku (mode = .conjTrans) alpha a (toUsize lda) x j) scaled

def gbmvStridedColumn (m kl ku : Nat) (alpha : T) (a : Mem T) (lda : Int) (x : Mem T) (sx incx sy incy : Int)
    (j : Nat) (y : Mem T) : Option (Mem T) :=
  let xj := alpha * vectorGet x sx j incx
  let row0 := bandRowFirst ku j
  let row1 := bandRowLast m kl j
  trappingRange row0 row1 (fun i y =>
    (bandGeneralIndex kl ku lda i j).map (fun idxa =>
      let py := ix sy i incy
      Function.update y py (y py + a idxa * xj))) y

def gbmvStridedDot (m kl ku : Nat) (conjugate : Bool) (alpha : T) (a : Mem T) (lda : Int) (x : Mem T)
    (sx incx sy incy : Int) (j : Nat) (y : Mem T) : Option (Mem T) :=
  let row0 := bandRowFirst ku j
  let row1 := bandRowLast m kl j
  (trappingRange row0 row1 (fun i sum =>
    (bandGeneralIndex kl ku lda i j).map (fun idxa =>
      sum + conjugateIf (a idxa) conjugate * vectorGet x sx i incx)) 0).map (fun sum =>
    let py := ix sy j incy
    Function.update y py (y py + alpha * sum))

def gbmvStrided (mode : TransposeMode) (m n : Int) (kl ku : Nat) (alpha : T) (a : Mem T) (lda : Int) (x : Mem T)
    (incx : Int) (beta : T) (y : Mem T) (incy : Int) : Option (Mem T) :=
  let lenx := if mode = .noTrans then n else m
  let leny := if mode = .noTrans then m else n
  let sx := startIndex lenx incx
  let sy := startIndex leny incy
  let scaled := scaleOutput (toUsize leny) beta sy y incy
  if isZero alpha then some scaled
  else if mode = .noTrans then
    trappingLoop (toUsize n) (gbmvStridedColumn (toUsize m) kl ku alpha a lda x sx incx sy incy) scaled
  else
    trappingLoop (toUsize n)
      (gbmvStridedDot (toUsize m) kl ku (mode = .conjTrans) alpha a lda x sx incx sy incy) scaled

def gbmv (rt : Runtime) (site : Site) (tuning : GemvProfile) (mode : TransposeMode) (m n kl ku : Int) (alpha : T)
    (a : Mem T) (lda : Int) (x : Mem T) (incx : Int) (beta : T) (y : Mem T) (incy : Int) : Option (Mem T) :=
  if m ≤ 0 ∨ n ≤ 0 ∨ incx = 0 ∨ incy = 0 then some y
  else if incx = 1 ∧ incy = 1 ∧
      tuning.preferGbmvUnit T (mode = .conjTrans) (toUsize m) (toUsize n) (toUsize kl + toUsize ku + 1) then
    gbmvUnit rt site mode (toUsize m) (toUsize n) (toUsize kl) (toUsize ku) alpha a lda x beta y
  else
    gbmvStrided mode m n (toUsize kl) (toUsize ku) alpha a lda x incx beta y incy

end Zynum
