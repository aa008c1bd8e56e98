import Zynum.MatrixVector.Access
import Zynum.MatrixVector.Band
import Zynum.Kernels.FixedMatrixVector

set_option autoImplicit false

/- sbmv and hbmv of core/matrix_vector/symmetric.zig. A is a memory of which not
   every element may be touched: a read of one that is not there traps, and a
   leaf that is handed a segment of a column needs all of it. -/
namespace Zynum

open ArrayProgram

-- The fields of SymmetricProfile that sbmv consults.
structure SymmetricProfile where
  enableFusedRealBand : Bool
  bandMinN : Nat
  bandMinK : Nat

inductive BandImplementation where
  | compactSymmetricBand
  | compactSymmetricBandFused
  deriving DecidableEq, Repr

def SymmetricProfile.preferBandUnit (self : SymmetricProfile) (n k : Nat) : Bool := n ≥ self.bandMinN && k ≥ self.bandMinK

def SymmetricProfile.selectRealBandImplementation (self : SymmetricProfile) (aarch64 : Bool) (T : Type) [Scalar T] (n k : Nat) :
    BandImplementation :=
  if isReal T then
    if self.enableFusedRealBand && aarch64 && self.preferBandUnit n k then .compactSymmetricBandFused else .compactSymmetricBand
  else .compactSymmetricBand

def symmetricAxpyDotConfig (T : Type) [Scalar T] : FixedMatrix.MatrixVectorConfig where
  laneCount := if Scalar.precision T = .single then 4 else 2
  rowUnrollVectors := 4
  colUnroll := 4
  minWork := 0
  maxWork := 0
  fuseComplexUpdates := false
  some_lanes := by split <;> decide
  some_rows := by decide
  some_columns := by decide

variable {T : Type} [CommRing T] [DecidableEq T] [Scalar T]

def readSegment (a : Nat → Option T) (start len : Nat) : Option (Mem T) :=
  if (List.range len).all (fun i => (a (start + i)).isSome) then some (fun i => (a (start + i)).getD 0) else none

-- A, x and y are separate allocations. The kernel sees its three rows one after
-- the other in one memory, so its overlap test finds none.
def fusedSegment (len : Nat) (coefficient : T) (col x : Mem T) (xStart : Nat) (y : Mem T) (yStart : Nat) :
    Option (T × Mem T) :=
  let rows : Mem T := fun p =>
    if p < len then col p else if p < 2 * len then x (xStart + (p - len)) else y (yStart + (p - 2 * len))
  let result := (FixedMatrix.symmetricAxpyDotUnitReal (symmetricAxpyDotConfig T) len coefficient 0 len (2 * len)).run rows
  result.1.map (fun sum =>
    (sum, fun p => if yStart ≤ p ∧ p < yStart + len then result.2 (2 * len + (p - yStart)) else y p))

def plainSegment (rt : Runtime) (site : Site) (herm : Bool) (len : Nat) (xj : T) (col x : Mem T) (xStart : Nat) (y : Mem T)
    (yStart : Nat) : T × Mem T :=
  let stored :=
    if isZero xj then y
    else if isReal T then axpyUnitReal len xj col 0 y yStart
    else axpy rt (0 :: site) len xj col 0 1 y yStart 1
  let sum := if isReal T then dotUnitReal len col 0 x xStart else dot rt (1 :: site) len col 0 1 x xStart 1 herm
  (sum, stored)

def bandSegment (implementation : BandImplementation) (rt : Runtime) (site : Site) (herm : Bool) (len : Nat) (xj : T)
    (col x : Mem T) (xStart : Nat) (y : Mem T) (yStart : Nat) : T × Mem T :=
  if isReal T ∧ implementation = .compactSymmetricBandFused then
    match fusedSegment len xj col x xStart y yStart with
    | some result => result
    | none => plainSegment rt site herm len xj col x xStart y yStart
  else plainSegment rt site herm len xj col x xStart y yStart

def diagonalValue (herm : Bool) (value : T) : T := if herm && Scalar.isComplex T then realOnly value else value

def segmentFirst (uplo : Triangle) (k j : Nat) : Nat :=
  match uplo with
  | .upper => if j > k then j - k else 0
  | .lower => j + 1

def segmentLast (uplo : Triangle) (n k j : Nat) : Nat :=
  match uplo with
  | .upper => j
  | .lower => min n (j + k + 1)

def segmentStart (uplo : Triangle) (k lda j : Nat) : Nat :=
  match uplo with
  | .upper => j * lda + (k + segmentFirst uplo k j - j)
  | .lower => j * lda + 1

def diagonalSlot (uplo : Triangle) (k lda j : Nat) : Nat :=
  match uplo with
  | .upper => j * lda + k
  | .lower => j * lda + 0

def sbmvUnitColumn (implementation : BandImplementation) (rt : Runtime) (site : Site) (uplo : Triangle) (n k : Nat) (alpha : T)
    (a : Nat → Option T) (lda : Nat) (x : Mem T) (herm : Bool) (j : Nat) (y : Mem T) : Option (Mem T) :=
  let row0 := segmentFirst uplo k j
  let row1 := segmentLast uplo n k j
  (checkedLength row0 row1).bind (fun len =>
    let xj := alpha * x j
    (if len ≠ 0 then
      (readSegment a (segmentStart uplo k lda j) len).map (fun col =>
        let result := bandSegment implementation rt site herm len xj col x row0 y row0
        Function.update result.2 j (result.2 j + alpha * result.1))
    else some y).bind (fun y =>
      (a (diagonalSlot uplo k lda j)).map (fun diagValue =>
        Function.update y j (y j + xj * diagonalValue herm diagValue))))

def sbmvUnit (implementation : BandImplementation) (rt : Runtime) (site : Site) (uplo : Triangle) (n k : Nat) (alpha : T)
    (a : Nat → Option T) (lda : Int) (x : Mem T) (beta : T) (y : Mem T) (herm : Bool) : Option (Mem T) :=
  let scaled := if isReal T then scaleUnitReal n beta y else scal rt (0 :: site) n beta y 0 1
  if isZero alpha then some scaled
  else trappingLoop n (fun j => sbmvUnitColumn implementation rt (1 :: j :: site) uplo n k alpha a (toUsize lda) x herm j) scaled

def sbmvStridedRow (uplo : Triangle) (n k : Nat) (alpha : T) (a : Nat → Option T) (lda : Int) (x : Mem T) (sx incx sy incy : Int)
    (herm : Bool) (i : Nat) (y : Mem T) : Option (Mem T) :=
  let j0 := if i > k then i - k else 0
  let j1 := min n (i + k + 1)
  (trappingRange j0 j1 (fun j sum =>
    match symBandIndex uplo k lda i j with
    | none => some sum
    | some idxa => (a idxa).map (fun av =>
      let direct := stored uplo i j
      let av := if herm && !direct then conj av else av
      let av := if i = j then diagonalValue herm av else av
      sum + av * vectorGet x sx j incx)) 0).map (fun sum =>
    let py := ix sy i incy
    Function.update y py (y py + alpha * sum))

def sbmvStrided (uplo : Triangle) (n : Int) (k : Nat) (alpha : T) (a : Nat → Option T) (lda : Int) (x : Mem T) (incx : Int)
    (beta : T) (y : Mem T) (incy : Int) (herm : Bool) : Option (Mem T) :=
  let sx := startIndex n incx
  let sy := startIndex n incy
  let scaled := scaleOutput (toUsize n) beta sy y incy
  if isZero alpha then some scaled
  else trappingLoop (toUsize n) (sbmvStridedRow uplo (toUsize n) k alpha a lda x sx incx sy incy herm) scaled

def sbmvImpl (tuning : SymmetricProfile) (aarch64 : Bool) (rt : Runtime) (site : Site) (uplo : Triangle) (n k : Int) (alpha : T)
    (a : Nat → Option T) (lda : Int) (x : Mem T) (incx : Int) (beta : T) (y : Mem T) (incy : Int) (herm : Bool)
    (forced : Option BandImplementation) : Option (Mem T) :=
  if n ≤ 0 ∨ incx = 0 ∨ incy = 0 then some y
  else if incx = 1 ∧ incy = 1 ∧ (forced.isSome ∨ tuning.preferBandUnit (toUsize n) (toUsize k)) then
    sbmvUnit (forced.getD (tuning.selectRealBandImplementation aarch64 T (toUsize n) (toUsize k))) rt site uplo (toUsize n)
      (toUsize k) alpha a lda x beta y herm
  else sbmvStrided uplo n (toUsize k) alpha a lda x incx beta y incy herm

def sbmv (tuning : SymmetricProfile) (aarch64 : Bool) (rt : Runtime) (site : Site) (uplo : Triangle) (n k : Int) (alpha : T)
    (a : Nat → Option T) (lda : Int) (x : Mem T) (incx : Int) (beta : T) (y : Mem T) (incy : Int) (herm : Bool) :
    Option (Mem T) :=
  sbmvImpl tuning aarch64 rt site uplo n k alpha a lda x incx beta y incy herm none

end Zynum
