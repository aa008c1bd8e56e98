import Zynum.MatrixVector.Band

set_option autoImplicit false

/- gemv of core/matrix_vector/general.zig. The leaf routines it tries in turn
   (architecture kernels and their parallel partitions) are parameters that may
   decline; the portable loops behind them are modelled. -/
namespace Zynum

open ArrayProgram

-- full computes alpha op(A) x + beta y in one pass; add accumulates into an
-- already scaled y. The flag of the transposed leaves asks for conjugation.
structure GemvLeaves (T : Type) where
  fullNoTrans : (m n : Nat) → (alpha : T) → (a : Mem T) → (lda : Int) → (x : Mem T) → (beta : T) → (y : Mem T) → Option (Mem T)
  fullTrans : (m n : Nat) → (alpha : T) → (a : Mem T) → (lda : Int) → (x : Mem T) → (beta : T) → (y : Mem T) → Bool →
    Option (Mem T)
  addNoTrans : (m n : Nat) → (alpha : T) → (a : Mem T) → (lda : Int) → (x : Mem T) → (y : Mem T) → Option (Mem T)
  addTrans : (m n : Nat) → (alpha : T) → (a : Mem T) → (lda : Int) → (x : Mem T) → (y : Mem T) → Bool → Option (Mem T)

variable {T : Type} [Zero T] [Add T] [Mul T] [Scalar T]

-- The portable unit-stride bodies: one column added, or one dot product stored, at a time.
def gemvNoTransUnit (rt : Runtime) (site : Site) (m n : Nat) (alpha : T) (a : Mem T) (lda : Int) (x : Mem T)
    (y : Mem T) : Mem T :=
  loop n (fun j y =>
    let xj := alpha * x j
    if isZero xj then y
    else if isReal T then axpyUnitReal m xj a (matIndex lda 0 j) y 0
    else axpy rt (j :: site) m xj a (matIndex lda 0 j) 1 y 0 1) y

def gemvTransUnit (rt : Runtime) (site : Site) (m n : Nat) (alpha : T) (a : Mem T) (lda : Int) (x : Mem T) (y : Mem T)
    (doConj : Bool) : Mem T :=
  loop n (fun j y =>
    let sum := if isReal T then dotUnitReal m a (matIndex lda 0 j) x 0
      else dot rt (j :: site) m a (matIndex lda 0 j) 1 x 0 1 doConj
    Function.update y j (y j + alpha * sum)) y

def gemvUnitReal (leaves : GemvLeaves T) (rt : Runtime) (site : Site) (mode : TransposeMode) (m n : Nat) (alpha : T)
    (a : Mem T) (lda : Int) (x : Mem T) (beta : T) (y : Mem T) : Mem T :=
  let leny := if mode = .noTrans then m else n
  if isZero alpha then scaleUnitReal leny beta y
  else
    let fused := if mode = .noTrans then leaves.fullNoTrans m n alpha a lda x beta y
      else leaves.fullTrans m n alpha a lda x beta y false
    match fused with
    | some done => done
    | none =>
      let scaled := scaleUnitReal leny beta y
      if mode = .noTrans then
        (leaves.addNoTrans m n alpha a lda x scaled).getD (gemvNoTransUnit rt site m n alpha a lda x scaled)
      else
        (leaves.addTrans m n alpha a lda x scaled false).getD (gemvTransUnit rt site m n alpha a lda x scaled false)

def clearUnit (n : Nat) (y : Mem T) : Mem T := loop n (fun i y => Function.update y i 0) y

def gemvUnitComplex (leaves : GemvLeaves T) (rt : Runtime) (site : Site) (mode : TransposeMode) (m n : Nat) (alpha : T)
    (a : Mem T) (lda : Int) (x : Mem T) (beta : T) (y : Mem T) : Mem T :=
  let leny := if mode = .noTrans then m else n
  let doConj := decide (mode = .conjTrans)
  let cleared := if isZero beta then clearUnit leny y else y
  let fused := if isZero alpha then none
    else if mode = .noTrans then leaves.fullNoTrans m n alpha a lda x beta cleared
    else leaves.fullTrans m n alpha a lda x beta cleared doConj
  match fused with
  | some done => done
  | none =>
    let scaled := if isZero beta then cleared else scal rt (0 :: site) leny beta cleared 0 1
    if isZero alpha then scaled
    else if mode = .noTrans then
      (leaves.addNoTrans m n alpha a lda x scaled).getD (gemvNoTransUnit rt (1 :: site) m n alpha a lda x scaled)
    else
      (leaves.addTrans m n alpha a lda x scaled doConj).getD
        (gemvTransUnit rt (1 :: site) m n alpha a lda x scaled doConj)

def gemvStrided (mode : TransposeMode) (m n : Int) (alpha : T) (a : Mem T) (lda : Int) (x : Mem T) (incx : Int)
    (beta : T) (y : Mem T) (incy : Int) : Mem T :=
  let lenx := if mode = .noTrans then n else m
  let leny := if mode = .noTrans then m else n
  let sx := startIndex lenx incx
  let sy := startIndex leny incy
  let scaled := scaleOutput (toUsize leny) beta sy y incy
  if isZero alpha then scaled
  else if mode = .noTrans then
    loop (toUsize n) (fun j y =>
      let xj := alpha * vectorGet x sx j incx
      if isZero xj then y
      else loop (toUsize m) (fun i y =>
        let py := ix sy i incy
        Function.update y py (y py + a (matIndex lda i j) * xj)) y) scaled
  else
    loop (toUsize n) (fun j y =>
      let sum := loop (toUsize m) (fun i sum =>
        sum + conjugateIf (a (matIndex lda i j)) (mode = .conjTrans) * vectorGet x sx i incx) 0
      let py := ix sy j incy
      Function.update y py (y py + alpha * sum)) scaled

-- The tuning registry selects the unit routes exactly at unit strides.
def gemv (leaves : GemvLeaves T) (rt : Runtime) (site : Site) (mode : TransposeMode) (m n : Int) (alpha : T) (a : Mem T)
    (lda : Int) (x : Mem T) (incx : Int) (beta : T) (y : Mem T) (incy : Int) : Mem T :=
  if m ≤ 0 ∨ n ≤ 0 ∨ incx = 0 ∨ incy = 0 then y
  else if incx = 1 ∧ incy = 1 then
    if isReal T then gemvUnitReal leaves rt site mode (toUsize m) (toUsize n) alpha a lda x beta y
    else gemvUnitComplex leaves rt site mode (toUsize m) (toUsize n) alpha a lda x beta y
  else gemvStrided mode m n alpha a lda x incx beta y incy

end Zynum
