import Zynum.Complex
import Zynum.Kernels.VectorConfig

set_option autoImplicit false

/- The unit-stride kernels of kernels/shared/vector/fixed_simd.zig over exact
   scalars, on rows of reals (copyBytes: of bytes). A vector is a function of its
   lane; lanes behind its count are never stored or reduced. -/
namespace Zynum.FixedVector

open ArrayProgram LevelOne VectorConfig

section Vectors

variable {α R : Type}

def loadVec [Zero R] (lanes : Nat) (ptr : Nat → α) (index : Nat) : Program α R (Nat → R) :=
  loadCells lanes (fun lane => ptr (index + lane))

def storeVec (lanes : Nat) (ptr : Nat → α) (index : Nat) (value : Nat → R) : Program α R Unit :=
  storeCells lanes (fun lane => ptr (index + lane)) value

def pairSwapMask (lane : Nat) : Nat := if lane % 2 = 0 then lane + 1 else lane - 1

def pairPatternVector (even odd : R) (lane : Nat) : R := if lane % 2 = 0 then even else odd

def pairSignVector [Ring R] (im : R) (lane : Nat) : R := pairPatternVector (-1) 1 lane * im

-- @reduce(.Add, v)
def reduceAdd [Zero R] [Add R] (lanes : Nat) (v : Nat → R) : R := loop lanes (fun lane sum => sum + v lane) 0

end Vectors

section Loops

variable {α R A S : Type}

-- while (i + step <= n) : (i += step)
def whileFits (step first n : Nat) (body : Nat → S → Program α R S) (state : S) : Program α R S :=
  Program.fold ((n - first) / step) (fun turn => body (first + turn * step)) state

def reached (step first n : Nat) : Nat := first + (n - first) / step * step

def tailLoops (tails : List Nat) (first n : Nat) (vector : Nat → Nat → Program α R Unit) : Program α R Unit :=
  match tails with
  | [] => .done ()
  | lanes :: shorter => do
    whileFits lanes first n (fun i _ => vector lanes i) ()
    tailLoops shorter (reached lanes first n) n vector

def tailsReached (tails : List Nat) (first n : Nat) : Nat :=
  match tails with
  | [] => first
  | lanes :: shorter => tailsReached shorter (reached lanes first n) n

-- The unrolled loop, one vector at a time, the tail vectors, and single elements of width reals.
def vectorLoops (lanes unroll : Nat) (tails : List Nat) (width n : Nat) (vector : Nat → Nat → Program α R Unit)
    (scalar : Nat → Program α R Unit) : Program α R Unit := do
  whileFits (lanes * unroll) 0 n (fun i _ => Program.each unroll (fun k => vector lanes (i + k * lanes))) ()
  let i := reached (lanes * unroll) 0 n
  whileFits lanes i n (fun i _ => vector lanes i) ()
  let i := reached lanes i n
  tailLoops tails i n vector
  whileFits width (tailsReached tails i n) n (fun i _ => scalar i) ()

variable [Zero A] [Add A]

def tailSums (tails : List Nat) (first n : Nat) (accumulate : Nat → Nat → (Nat → A) → Program α R (Nat → A)) (sum : A) :
    Program α R A :=
  match tails with
  | [] => .done sum
  | lanes :: shorter => do
    let acc ← whileFits lanes first n (accumulate lanes) (fun _ => 0)
    tailSums shorter (reached lanes first n) n accumulate (sum + reduceAdd lanes acc)

-- The same loops with one accumulator vector for each unrolled vector; finish acts on the lanes before they are added.
def vectorSums (lanes unroll : Nat) (tails : List Nat) (width n : Nat)
    (accumulate : Nat → Nat → (Nat → A) → Program α R (Nat → A)) (finish : Nat → A → A)
    (scalar : Nat → A → Program α R A) : Program α R A := do
  let accs ← whileFits (lanes * unroll) 0 n (fun i (accs : Nat → Nat → A) =>
    Program.fold unroll (fun k accs => do
      let acc ← accumulate lanes (i + k * lanes) (accs k)
      pure (Function.update accs k acc)) accs) (fun _ _ => 0)
  let i := reached (lanes * unroll) 0 n
  let acc ← whileFits lanes i n (accumulate lanes) (fun lane => loop unroll (fun k sum => sum + accs k lane) 0)
  let i := reached lanes i n
  let sum ← tailSums tails i n accumulate (reduceAdd lanes (fun lane => finish lane (acc lane)))
  whileFits width (tailsReached tails i n) n scalar sum

end Loops

section Copies

variable {α R : Type} [Zero R]

def copyBytes (cfg : VectorConfig) (nBytes : Nat) (x y : Nat → α) : Program α R Bool :=
  if nBytes = 0 then pure true
  else if nBytes < max cfg.minLen cfg.copyLaneCount then pure false
  else do
    vectorLoops cfg.copyLaneCount cfg.unrollVectors (vectorTails cfg.copyLaneCount 1) 1 nBytes
      (fun lanes i => do
        let xv ← loadVec lanes x i
        storeVec lanes y i xv)
      (fun i => do
        let value ← Program.get (x i)
        Program.put (y i) value)
    pure true

-- x and y are the bytes of n reals.
def copyUnitReal (bytes : Nat) (cfg : VectorConfig) (n : Nat) (x y : Nat → α) : Program α R Bool :=
  copyBytes cfg (n * bytes) x y

def swapUnitReal (bytes : Nat) (cfg : VectorConfig) (n : Nat) (x y : Nat → α) : Program α R Bool :=
  if n < cfg.vectorThreshold then pure false
  else do
    vectorLoops cfg.laneCount cfg.unrollVectors (vectorTails cfg.laneCount bytes) 1 n
      (fun lanes i => do
        let xv ← loadVec lanes x i
        let yv ← loadVec lanes y i
        storeVec lanes x i yv
        storeVec lanes y i xv)
      (fun i => do
        let tmp ← Program.get (x i)
        let yi ← Program.get (y i)
        Program.put (x i) yi
        Program.put (y i) tmp)
    pure true

end Copies

-- RealAffineMode and ComplexAffineMode.
inductive AffineMode where
  | scal
  | axpy
  | axpby
  deriving DecidableEq, Repr

inductive RotmMode where
  | full
  | unitDiagonal
  | offDiagonal
  deriving DecidableEq, Repr

variable {α R : Type} [CommRing R]

section RealUpdates

def realAffineVec (mode : AffineMode) (xv yv : Nat → R) (alpha beta : R) (lane : Nat) : R :=
  match mode with
  | .scal => xv lane * alpha
  | .axpy => xv lane * alpha + yv lane
  | .axpby => xv lane * alpha + yv lane * beta

def realAffineScalar (mode : AffineMode) (xv yv alpha beta : R) : R :=
  match mode with
  | .scal => xv * alpha
  | .axpy => alpha * xv + yv
  | .axpby => alpha * xv + beta * yv

def realAffineLoops (lanes unroll : Nat) (tails : List Nat) (mode : AffineMode) (n : Nat) (alpha : R) (x : Nat → α) (beta : R)
    (y : Nat → α) : Program α R Unit :=
  vectorLoops lanes unroll tails 1 n
    (fun lanes i => do
      let xv ← loadVec lanes x i
      let yv ← (if mode = .scal then pure (fun _ => 0) else loadVec lanes y i)
      storeVec lanes y i (realAffineVec mode xv yv alpha beta))
    (fun i => do
      let yv ← (if mode = .scal then pure 0 else Program.get (y i))
      let xv ← Program.get (x i)
      Program.put (y i) (realAffineScalar mode xv yv alpha beta))

def realAffineUnit (bytes : Nat) (cfg : VectorConfig) (mode : AffineMode) (n : Nat) (alpha : R) (x : Nat → α) (beta : R)
    (y : Nat → α) : Program α R Bool :=
  if n < cfg.vectorThreshold then pure false
  else do
    realAffineLoops cfg.laneCount cfg.unrollVectors (vectorTails cfg.laneCount bytes) mode n alpha x beta y
    pure true

def scalUnitReal (bytes : Nat) (cfg : VectorConfig) (n : Nat) (alpha : R) (x : Nat → α) : Program α R Bool :=
  realAffineUnit bytes cfg .scal n alpha x 0 x

def axpyUnitReal (bytes : Nat) (cfg : VectorConfig) (n : Nat) (alpha : R) (x y : Nat → α) : Program α R Bool :=
  realAffineUnit bytes cfg .axpy n alpha x 0 y

def axpbyUnitReal (bytes : Nat) (cfg : VectorConfig) (n : Nat) (alpha : R) (x : Nat → α) (beta : R) (y : Nat → α) :
    Program α R Bool :=
  realAffineUnit bytes cfg .axpby n alpha x beta y

def rotVecBlock (lanes : Nat) (x y : Nat → α) (index : Nat) (c s : R) : Program α R Unit := do
  let xv ← loadVec lanes x index
  let yv ← loadVec lanes y index
  storeVec lanes x index (fun lane => xv lane * c + yv lane * s)
  storeVec lanes y index (fun lane => xv lane * -s + yv lane * c)

def rotUnitReal (bytes : Nat) (cfg : VectorConfig) (n : Nat) (x y : Nat → α) (c s : R) : Program α R Bool :=
  if n < cfg.vectorThreshold then pure false
  else do
    vectorLoops cfg.laneCount cfg.unrollVectors (vectorTails cfg.laneCount bytes) 1 n
      (fun lanes i => rotVecBlock lanes x y i c s)
      (fun i => do
        let xv ← Program.get (x i)
        let yv ← Program.get (y i)
        Program.put (x i) (c * xv + s * yv)
        Program.put (y i) (-xv * s + c * yv))
    pure true

def rotmValue (mode : RotmMode) (h11 h21 h12 h22 w z : R) : R × R :=
  match mode with
  | .full => (w * h11 + z * h12, w * h21 + z * h22)
  | .unitDiagonal => (z * h12 + w, w * h21 + z)
  | .offDiagonal => (w * h11 + z, z * h22 - w)

def rotmVecBlock (mode : RotmMode) (lanes : Nat) (x y : Nat → α) (index : Nat) (h11 h21 h12 h22 : R) : Program α R Unit := do
  let w ← loadVec lanes x index
  let z ← loadVec lanes y index
  storeVec lanes x index (fun lane => (rotmValue mode h11 h21 h12 h22 (w lane) (z lane)).1)
  storeVec lanes y index (fun lane => (rotmValue mode h11 h21 h12 h22 (w lane) (z lane)).2)

def rotmUnitRealMode (bytes : Nat) (cfg : VectorConfig) (mode : RotmMode) (n : Nat) (x y : Nat → α) (h11 h21 h12 h22 : R) :
    Program α R Unit :=
  vectorLoops cfg.laneCount cfg.unrollVectors (vectorTails cfg.laneCount bytes) 1 n
    (fun lanes i => rotmVecBlock mode lanes x y i h11 h21 h12 h22)
    (fun i => do
      let w ← Program.get (x i)
      let z ← Program.get (y i)
      Program.put (x i) (rotmValue mode h11 h21 h12 h22 w z).1
      Program.put (y i) (rotmValue mode h11 h21 h12 h22 w z).2)

def rotmUnitReal [LinearOrder R] (bytes : Nat) (cfg : VectorConfig) (n : Nat) (x y : Nat → α) (flag h11 h21 h12 h22 : R) :
    Program α R Bool :=
  if flag = -2 then pure true
  else if n < cfg.vectorThreshold then pure false
  else do
    if flag < 0 then rotmUnitRealMode bytes cfg .full n x y h11 h21 h12 h22
    else if flag = 0 then rotmUnitRealMode bytes cfg .unitDiagonal n x y h11 h21 h12 h22
    else rotmUnitRealMode bytes cfg .offDiagonal n x y h11 h21 h12 h22
    pure true

end RealUpdates

section RealSums

-- The loops of dotUnitReal and dotF32AccF64Unit, which widens what it loads.
def dotLoops {A : Type} [CommRing A] (widen : R → A) (lanes unroll : Nat) (tails : List Nat) (n : Nat) (x y : Nat → α) :
    Program α R A :=
  vectorSums lanes unroll tails 1 n
    (fun lanes i acc => do
      let xv ← loadVec lanes x i
      let yv ← loadVec lanes y i
      pure (fun lane => widen (xv lane) * widen (yv lane) + acc lane))
    (fun _ value => value)
    (fun i sum => do
      let xi ← Program.get (x i)
      let yi ← Program.get (y i)
      pure (widen xi * widen yi + sum))

def dotUnit {A : Type} [CommRing A] (bytes : Nat) (widen : R → A) (cfg : VectorConfig) (n : Nat) (x y : Nat → α) :
    Program α R (Option A) :=
  if n < cfg.vectorThreshold then pure none
  else do
    let sum ← dotLoops widen cfg.laneCount cfg.unrollVectors (vectorTails cfg.laneCount bytes) n x y
    pure (some sum)

def dotUnitReal (bytes : Nat) (cfg : VectorConfig) (n : Nat) (x y : Nat → α) : Program α R (Option R) :=
  dotUnit bytes id cfg n x y

def dotF32AccF64Unit {A : Type} [CommRing A] (widen : R → A) (cfg : VectorConfig) (n : Nat) (x y : Nat → α) :
    Program α R (Option A) :=
  dotUnit 4 widen cfg n x y

def asumUnitReal [LinearOrder R] (bytes : Nat) (cfg : VectorConfig) (n : Nat) (x : Nat → α) : Program α R (Option R) :=
  if n < cfg.vectorThreshold then pure none
  else do
    let sum ← vectorSums cfg.laneCount cfg.unrollVectors (vectorTails cfg.laneCount bytes) 1 n
      (fun lanes i acc => do
        let xv ← loadVec lanes x i
        pure (fun lane => acc lane + |xv lane|))
      (fun _ value => value)
      (fun i sum => do
        let xi ← Program.get (x i)
        pure (sum + |xi|))
    pure (some sum)

end RealSums

section ComplexUpdates

def complexScaleVec (value re imSign : Nat → R) (lane : Nat) : R :=
  value lane * re lane + value (pairSwapMask lane) * imSign lane

def complexAffineVec (mode : AffineMode) (fused : Bool) (xv yv alphaRe alphaImSign betaRe betaImSign : Nat → R)
    (lane : Nat) : R :=
  if fused && decide (mode ≠ .scal) then
    let base := if mode = .axpy then yv lane else complexScaleVec yv betaRe betaImSign lane
    let cross := xv (pairSwapMask lane) * alphaImSign lane + base
    xv lane * alphaRe lane + cross
  else
    let xTerm := complexScaleVec xv alphaRe alphaImSign lane
    match mode with
    | .scal => xTerm
    | .axpy => yv lane + xTerm
    | .axpby => xTerm + complexScaleVec yv betaRe betaImSign lane

def complexAffineScalar (mode : AffineMode) (xr xi yr yi : R) (alpha beta : Cplx R) : Cplx R :=
  let xRe := alpha.re * xr - alpha.im * xi
  let xIm := alpha.re * xi + alpha.im * xr
  match mode with
  | .scal => ⟨xRe, xIm⟩
  | .axpy => ⟨yr + xRe, yi + xIm⟩
  | .axpby => ⟨xRe + beta.re * yr - beta.im * yi, xIm + beta.re * yi + beta.im * yr⟩

def complexAffineLoops (fused : Bool) (lanes unroll : Nat) (tails : List Nat) (mode : AffineMode) (n : Nat) (alpha : Cplx R)
    (x : Nat → α) (beta : Cplx R) (y : Nat → α) : Program α R Unit :=
  vectorLoops lanes unroll tails 2 (2 * n)
    (fun lanes i => do
      let xv ← loadVec lanes x i
      let yv ← (if mode = .scal then pure (fun _ => 0) else loadVec lanes y i)
      storeVec lanes y i (complexAffineVec mode fused xv yv (fun _ => alpha.re) (pairSignVector alpha.im)
        (fun _ => beta.re) (pairSignVector beta.im)))
    (fun i => do
      let xr ← Program.get (x i)
      let xi ← Program.get (x (i + 1))
      let yr ← (if mode = .scal then pure 0 else Program.get (y i))
      let yi ← (if mode = .scal then pure 0 else Program.get (y (i + 1)))
      let out := complexAffineScalar mode xr xi yr yi alpha beta
      Program.put (y i) out.re
      Program.put (y (i + 1)) out.im)

def complexAffineUnit (bytes : Nat) (cfg : VectorConfig) (mode : AffineMode) (n : Nat) (alpha : Cplx R) (x : Nat → α)
    (beta : Cplx R) (y : Nat → α) : Program α R Bool :=
  if n * 2 < cfg.vectorThreshold then pure false
  else do
    complexAffineLoops cfg.fuseComplexAffine cfg.laneCount cfg.unrollVectors (pairTails cfg.laneCount bytes) mode n alpha x beta y
    pure true

def scalUnitComplex (bytes : Nat) (cfg : VectorConfig) (n : Nat) (alpha : Cplx R) (x : Nat → α) : Program α R Bool :=
  complexAffineUnit bytes cfg .scal n alpha x 0 x

def axpyUnitComplex (bytes : Nat) (cfg : VectorConfig) (n : Nat) (alpha : Cplx R) (x y : Nat → α) : Program α R Bool :=
  complexAffineUnit bytes cfg .axpy n alpha x 0 y

def axpbyUnitComplex (bytes : Nat) (cfg : VectorConfig) (n : Nat) (alpha : Cplx R) (x : Nat → α) (beta : Cplx R) (y : Nat → α) :
    Program α R Bool :=
  complexAffineUnit bytes cfg .axpby n alpha x beta y

end ComplexUpdates

section ComplexSums

variable [DecidableEq R]

def reSign (conjx : Bool) (lane : Nat) : R := if conjx then 1 else pairPatternVector 1 (-1) lane

def imSign (conjx : Bool) (lane : Nat) : R := if conjx then pairPatternVector 1 (-1) lane else 1

-- The exclusive or with the sign bit of a sign, which is 1 or -1.
def xorSign (sign value : R) : R := if sign = 1 then value else -value

def signedProducts (fuseProduct conjx : Bool) (xv yv : Nat → R) (acc : Nat → Cplx R) (lane : Nat) : Cplx R :=
  if fuseProduct then
    ⟨xorSign (reSign conjx lane) (xv lane) * yv lane + (acc lane).re,
      xorSign (imSign conjx lane) (xv lane) * yv (pairSwapMask lane) + (acc lane).im⟩
  else
    ⟨xv lane * yv lane * reSign conjx lane + (acc lane).re,
      xv lane * yv (pairSwapMask lane) * imSign conjx lane + (acc lane).im⟩

def complexDotAccumulateVec (fuseProduct : Bool) (conjx : Bool) (x y : Nat → α) (lanes offset : Nat) (acc : Nat → Cplx R) :
    Program α R (Nat → Cplx R) := do
  let xv ← loadVec lanes x offset
  let yv ← loadVec lanes y offset
  pure (signedProducts fuseProduct conjx xv yv acc)

def complexDotDeferredAccumulate (x y : Nat → α) (lanes offset : Nat) (acc : Nat → Cplx R) : Program α R (Nat → Cplx R) := do
  let xv ← loadVec lanes x offset
  let yv ← loadVec lanes y offset
  pure (fun lane => ⟨xv lane * yv lane + (acc lane).re, xv lane * yv (pairSwapMask lane) + (acc lane).im⟩)

def complexDotScalar (conjx : Bool) (x y : Nat → α) (i : Nat) (sum : Cplx R) : Program α R (Cplx R) := do
  let xr ← Program.get (x i)
  let xi ← Program.get (x (i + 1))
  let yr ← Program.get (y i)
  let yi ← Program.get (y (i + 1))
  pure (if conjx then ⟨xi * yi + (xr * yr + sum.re), -xi * yr + (xr * yi + sum.im)⟩
    else ⟨-xi * yi + (xr * yr + sum.re), xi * yr + (xr * yi + sum.im)⟩)

def complexDotLoops (fuseProduct : Bool) (lanes unroll n : Nat) (x y : Nat → α) (conjx : Bool) : Program α R (Cplx R) :=
  vectorSums lanes unroll [] 2 (2 * n) (complexDotAccumulateVec fuseProduct conjx x y) (fun _ value => value)
    (complexDotScalar conjx x y)

def dotUnitComplex (cfg : VectorConfig) (n : Nat) (x y : Nat → α) (conjx : Bool) : Program α R (Option (Cplx R)) :=
  if n * 2 < cfg.vectorThreshold then pure none
  else do
    let sum ← complexDotLoops cfg.fuseComplexDot cfg.laneCount cfg.unrollVectors n x y conjx
    pure (some sum)

-- The signs wait until the lanes are added.
def dotUnitComplexDeferred (cfg : VectorConfig) (n : Nat) (x y : Nat → α) (conjx : Bool) : Program α R (Option (Cplx R)) :=
  if n * 2 < cfg.vectorThreshold then pure none
  else do
    let sum ← vectorSums cfg.laneCount cfg.unrollVectors [] 2 (2 * n) (complexDotDeferredAccumulate x y)
      (fun lane value => ⟨value.re * reSign conjx lane, value.im * imSign conjx lane⟩) (complexDotScalar conjx x y)
    pure (some sum)

end ComplexSums

end Zynum.FixedVector
