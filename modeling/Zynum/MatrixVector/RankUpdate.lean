import Zynum.MatrixVector.IndexMaps
import Zynum.MatrixMatrix.RankUpdate

set_option autoImplicit false

/- syr, syr2, her, her2 and their packed forms of core/matrix_vector/rank_update.zig.
   A SIMD block is the element-wise store of its rows. -/
namespace Zynum

open ArrayProgram

-- The f64 operations behind a task boundary, on the finite nonnegative values it meets.
-- Correct rounding keeps them monotone.
structure FloatArithmetic where
  Value : Type
  le : Value → Value → Prop
  ofNat : Nat → Value
  toNat : Value → Nat
  sub : Value → Value → Value
  mul : Value → Value → Value
  div : Value → Value → Value
  sqrt : Value → Value
  ofNat_mono : ∀ first second, first ≤ second → le (ofNat first) (ofNat second)
  toNat_mono : ∀ first second, le first second → toNat first ≤ toNat second
  sub_anti : ∀ one first second, le first second → le (sub one second) (sub one first)
  mul_mono : ∀ first second count, le first second → le (mul first (ofNat count)) (mul second (ofNat count))
  div_mono : ∀ first second count, 0 < count → le first second → le (div first (ofNat count)) (div second (ofNat count))
  sqrt_mono : ∀ first second, le first second → le (sqrt first) (sqrt second)

-- Fixed point in place of f64.
def FloatArithmetic.fixedPoint : FloatArithmetic where
  Value := Nat
  le := (· ≤ ·)
  ofNat count := count * 2 ^ 52
  toNat value := value / 2 ^ 52
  sub := (· - ·)
  mul first second := first * second / 2 ^ 52
  div first second := first * 2 ^ 52 / second
  sqrt value := Nat.sqrt (value * 2 ^ 52)
  ofNat_mono _ _ below := Nat.mul_le_mul_right _ below
  toNat_mono _ _ below := Nat.div_le_div_right below
  sub_anti one _ _ below := Nat.sub_le_sub_left below one
  mul_mono _ _ _ below := Nat.div_le_div_right (Nat.mul_le_mul_right _ below)
  div_mono _ _ _ _ below := Nat.div_le_div_right (Nat.mul_le_mul_right _ below)
  sqrt_mono _ _ below := Nat.sqrt_le_sqrt (Nat.mul_le_mul_right _ below)

structure RankUpdateProfile where
  denseStructuredParallelMinWork : Nat
  packedTaskMinN : Nat
  packedStructuredParallelMinN : Nat

namespace RankUpdateProfile

def production : RankUpdateProfile := ⟨512 * 512, 512, 2048⟩

def preferDenseStructuredParallel (self : RankUpdateProfile) (n : Nat) : Bool :=
  satMul n n ≥ self.denseStructuredParallelMinWork

def preferPackedStructuredParallel (self : RankUpdateProfile) (n : Nat) : Bool := n ≥ self.packedStructuredParallelMinN

def preferPackedTaskComposition (self : RankUpdateProfile) (n : Nat) : Bool := n ≥ self.packedTaskMinN

end RankUpdateProfile

inductive DenseRankOperation where
  | syr
  | her
  | syr2
  | her2
  deriving DecidableEq, Repr

def DenseRankOperation.rankTwo (operation : DenseRankOperation) : Bool := operation = .syr2 || operation = .her2

-- Where an update finds its triangle: a dense matrix, or one packed by columns.
inductive RankStorage where
  | dense (lda : Int)
  | packed

def RankStorage.index (store : RankStorage) (uplo : Triangle) (n row col : Nat) : Nat :=
  match store with
  | .dense lda => matIndex lda row col
  | .packed => packedIndex uplo n row col

def RankStorage.isPacked (store : RankStorage) : Bool :=
  match store with
  | .dense _ => false
  | .packed => true

variable {T : Type} [CommRing T] [Scalar T]

section Columns

def rankTwoColumn (rt : Runtime) (site : Site) (n : Nat) (cx : T) (x : Mem T) (xStart : Nat) (cy : T) (y : Mem T)
    (yStart : Nat) (dest : Mem T) (start : Nat) : Mem T :=
  if rt.arch ≠ .x86_64 then
    let added := if isZero cx then dest else axpy rt (0 :: site) n cx x xStart 1 dest start 1
    if isZero cy then added else axpy rt (1 :: site) n cy y yStart 1 added start 1
  else if isZero cx then axpy rt (2 :: site) n cy y yStart 1 dest start 1
  else if isZero cy then axpy rt (3 :: site) n cx x xStart 1 dest start 1
  else loop n (fun row dest =>
    Function.update dest (start + row) (dest (start + row) + cx * x (xStart + row) + cy * y (yStart + row))) dest

-- A vector of rows of each column in turn.
def rankTwoRows (columns : Nat) (cx : Nat → T) (x : Mem T) (xStart : Nat) (cy : Nat → T) (y : Mem T) (yStart : Nat)
    (dest : Nat → Nat) (count i : Nat) (a : Mem T) : Mem T :=
  loop columns (fun col a => loop count (fun lane a =>
    let place := dest col + (i + lane)
    Function.update a place (a place + cx col * x (xStart + (i + lane)) + cy col * y (yStart + (i + lane)))) a) a

def rankTwoPanel (columns : Nat) (isPacked : Bool) (n : Nat) (cx : Nat → T) (x : Mem T) (xStart : Nat) (cy : Nat → T)
    (y : Mem T) (yStart : Nat) (dest : Nat → Nat) (a : Mem T) : Mem T :=
  let rows := rankTwoRows columns cx x xStart cy y yStart dest
  let width := 32 / sizeOf T
  let rowVectors := if columns = 2 then 4 else 2
  let wide := isReal T && (columns = 2 || (Scalar.precision T = .double && isPacked))
  let first := if wide then fitEnd 0 n (rowVectors * width) else 0
  let a :=
    if wide then fitLoop 0 n (rowVectors * width) (fun i => loop rowVectors (fun step => rows width (i + step * width))) a
    else a
  let second := fitEnd first n width
  let a := fitLoop first n width (rows width) a
  let half := isReal T && Scalar.precision T = .single && second + width / 2 ≤ n
  let third := if half then second + width / 2 else second
  let a := if half then rows (width / 2) second a else a
  loopRange third n (rows 1) a

-- What the panel leaves of a column: its fringe, and the imaginary part of its diagonal element.
def rankTwoFringe (rt : Runtime) (site : Site) (store : RankStorage) (columns : Nat) (uplo : Triangle) (n j : Nat)
    (cx : Nat → T) (x : Mem T) (cy : Nat → T) (y : Mem T) (col : Nat) (a : Mem T) : Mem T :=
  let jj := j + col
  let fringeRow := if uplo = .upper then j + 1 else jj
  let fringeCount := if uplo = .upper then col else columns - 1 - col
  let a :=
    if fringeCount > 0 then
      rankTwoColumn rt (jj :: site) fringeCount (cx col) x fringeRow (cy col) y fringeRow a (store.index uplo n fringeRow jj)
    else a
  if isReal T then a
  else
    let diag := store.index uplo n jj jj
    Function.update a diag (realOnly (a diag))

def tiledRankTwoColumnsImpl (rt : Runtime) (site : Site) (store : RankStorage) (columns : Nat) (uplo : Triangle)
    (n j0 j1 : Nat) (alpha : T) (x y a : Mem T) : Nat × Mem T :=
  (fitEnd j0 j1 columns, fitLoop j0 j1 columns (fun j a =>
    let row0 := if uplo = .upper then 0 else j + columns - 1
    let count := if uplo = .upper then j + 1 else n - row0
    let cx := fun col => alpha * conj (y (j + col))
    let cy := fun col => conj alpha * conj (x (j + col))
    let dest := fun col => store.index uplo n row0 (j + col)
    loop columns (rankTwoFringe rt site store columns uplo n j cx x cy y)
      (rankTwoPanel columns store.isPacked count cx x row0 cy y row0 dest a)) a)

def tiledRankTwoColumns (rt : Runtime) (site : Site) (store : RankStorage) (uplo : Triangle) (n j0 j1 : Nat) (alpha : T)
    (x y a : Mem T) : Nat × Mem T :=
  if isReal T ∧ (!store.isPacked || Scalar.precision T = .single) ∧ n ≤ 256 then
    tiledRankTwoColumnsImpl rt site store 2 uplo n j0 j1 alpha x y a
  else tiledRankTwoColumnsImpl rt site store (if isReal T then 4 else 2) uplo n j0 j1 alpha x y a

def rankColumn (rt : Runtime) (site : Site) (store : RankStorage) (operation : DenseRankOperation) (uplo : Triangle) (n : Nat)
    (alpha : T) (x y : Mem T) (j : Nat) (a : Mem T) : Mem T :=
  let row0 := storedFirst uplo j
  let count := storedEnd uplo n j - row0
  let column := store.index uplo n row0 j
  let diag := store.index uplo n j j
  match operation with
  | .syr =>
    let temp := alpha * x j
    if isZero temp then a else axpyUnitReal count temp x row0 a column
  | .her =>
    let temp := alpha * conj (x j)
    let a := if isZero temp then a else axpy rt (j :: site) count temp x row0 1 a column 1
    Function.update a diag (realOnly (a diag))
  | .syr2 =>
    let temp1 := alpha * y j
    let temp2 := alpha * x j
    rankTwoColumn rt (j :: site) count temp1 x row0 temp2 y row0 a column
  | .her2 =>
    let temp1 := alpha * conj (y j)
    let temp2 := conj alpha * conj (x j)
    let a := rankTwoColumn rt (j :: site) count temp1 x row0 temp2 y row0 a column
    Function.update a diag (realOnly (a diag))

-- denseRankColumns and packedRankColumns differ in where a column lies.
def rankColumns (rt : Runtime) (site : Site) (store : RankStorage) (operation : DenseRankOperation) (uplo : Triangle)
    (n j0 j1 : Nat) (alpha : T) (x y a : Mem T) : Mem T :=
  let tiled :=
    if rt.arch = .x86_64 ∧ operation.rankTwo then tiledRankTwoColumns rt (0 :: site) store uplo n j0 j1 alpha x y a
    else (j0, a)
  loopRange tiled.1 j1 (rankColumn rt (1 :: site) store operation uplo n alpha x y) tiled.2

def denseRankColumns (rt : Runtime) (site : Site) (operation : DenseRankOperation) (uplo : Triangle) (n j0 j1 : Nat) (alpha : T)
    (x y a : Mem T) (lda : Int) : Mem T := rankColumns rt site (.dense lda) operation uplo n j0 j1 alpha x y a

def packedRankColumns (rt : Runtime) (site : Site) (operation : DenseRankOperation) (uplo : Triangle) (n j0 j1 : Nat) (alpha : T)
    (x y ap : Mem T) : Mem T := rankColumns rt site .packed operation uplo n j0 j1 alpha x y ap

end Columns

section Tasks

def denseRankTaskBoundary (float : FloatArithmetic) (uplo : Triangle) (n taskCount taskIndex : Nat) : Nat :=
  if taskIndex = 0 then 0
  else if taskIndex ≥ taskCount then n
  else
    let one := float.ofNat 1
    let fraction := float.div (float.ofNat taskIndex) (float.ofNat taskCount)
    let boundary :=
      if uplo = .upper then float.mul (float.sqrt fraction) (float.ofNat n)
      else float.mul (float.sub one (float.sqrt (float.sub one fraction))) (float.ofNat n)
    min n (float.toNat boundary)

-- The heuristics and caps of both dispatchers end in a number of tasks.
def parallelRankUpdate (prefer : Bool) (float : FloatArithmetic) (rt : Runtime) (site : Site) (store : RankStorage)
    (operation : DenseRankOperation) (uplo : Triangle) (n : Nat) (alpha : T) (x y a : Mem T) : Option (Mem T) :=
  if prefer = false then none
  else
    let taskCount := rt.taskCount site n
    if taskCount ≤ 1 then none
    else rt.runTasks site taskCount (fun task => rankColumns rt (task :: site) store operation uplo n
      (denseRankTaskBoundary float uplo n taskCount task) (denseRankTaskBoundary float uplo n taskCount (task + 1)) alpha x y) a

def parallelDenseRankUpdate (tuning : RankUpdateProfile) (float : FloatArithmetic) (rt : Runtime) (site : Site)
    (operation : DenseRankOperation) (uplo : Triangle) (n : Nat) (alpha : T) (x y a : Mem T) (lda : Int) : Option (Mem T) :=
  parallelRankUpdate (tuning.preferDenseStructuredParallel n) float rt site (.dense lda) operation uplo n alpha x y a

def parallelPackedRankUpdate (tuning : RankUpdateProfile) (float : FloatArithmetic) (rt : Runtime) (site : Site)
    (operation : DenseRankOperation) (uplo : Triangle) (n : Nat) (alpha : T) (x y ap : Mem T) : Option (Mem T) :=
  parallelRankUpdate (tuning.preferPackedTaskComposition n) float rt site .packed operation uplo n alpha x y ap

def preferPackedColumns (tuning : RankUpdateProfile) (arch : Arch) (n : Nat) : Bool :=
  if arch = .x86_64 then n ≥ 128 else tuning.preferPackedStructuredParallel n

-- The unit-stride routes of the routines.
def denseUnitRank (tuning : RankUpdateProfile) (float : FloatArithmetic) (rt : Runtime) (site : Site)
    (operation : DenseRankOperation) (uplo : Triangle) (n : Nat) (alpha : T) (x y a : Mem T) (lda : Int) : Mem T :=
  (parallelDenseRankUpdate tuning float rt (0 :: site) operation uplo n alpha x y a lda).getD
    (denseRankColumns rt (1 :: site) operation uplo n 0 n alpha x y a lda)

def packedUnitRank (tuning : RankUpdateProfile) (float : FloatArithmetic) (rt : Runtime) (site : Site)
    (operation : DenseRankOperation) (uplo : Triangle) (n : Nat) (alpha : T) (x y ap : Mem T) : Mem T :=
  let parallel :=
    if tuning.preferPackedStructuredParallel n then
      parallelPackedRankUpdate tuning float rt (0 :: site) operation uplo n alpha x y ap
    else none
  parallel.getD (packedRankColumns rt (1 :: site) operation uplo n 0 n alpha x y ap)

-- The strided loops of the routines.
def stridedElement (store : RankStorage) (hermitian : Bool) (uplo : Triangle) (n : Nat) (update : Nat → Nat → T) (i j : Nat)
    (a : Mem T) : Mem T :=
  let idxa := store.index uplo n i j
  let a := Function.update a idxa (a idxa + update i j)
  if hermitian ∧ i = j then Function.update a idxa (realOnly (a idxa)) else a

def stridedRank (store : RankStorage) (hermitian : Bool) (uplo : Triangle) (n : Nat) (update : Nat → Nat → T) (a : Mem T) :
    Mem T :=
  loop n (fun j a => loopRange (storedFirst uplo j) (storedEnd uplo n j)
    (fun i a => stridedElement store hermitian uplo n update i j a) a) a

end Tasks

section Routines

variable (tuning : RankUpdateProfile) (float : FloatArithmetic) (rt : Runtime) (site : Site) (uplo : Triangle) (n_ : Int)
  (alpha : T) (x : Mem T) (incx : Int)

def syr (a : Mem T) (lda : Int) : Mem T :=
  if n_ ≤ 0 ∨ incx = 0 ∨ isZero alpha then a
  else
    let n := toUsize n_
    if isReal T ∧ incx = 1 then denseUnitRank tuning float rt site .syr uplo n alpha x x a lda
    else
      let sx := startIndex n_ incx
      stridedRank (.dense lda) false uplo n (fun i j => vectorGet x sx i incx * (alpha * vectorGet x sx j incx)) a

def spr (ap : Mem T) : Mem T :=
  if n_ ≤ 0 ∨ incx = 0 ∨ isZero alpha then ap
  else
    let n := toUsize n_
    if isReal T ∧ incx = 1 ∧ preferPackedColumns tuning rt.arch n then
      packedUnitRank tuning float rt site .syr uplo n alpha x x ap
    else
      let sx := startIndex n_ incx
      stridedRank .packed false uplo n (fun i j => vectorGet x sx i incx * (alpha * vectorGet x sx j incx)) ap

-- The scalar of her and hpr is a real number.
def her (a : Mem T) (lda : Int) : Mem T :=
  let complexAlpha := realOnly alpha
  if n_ ≤ 0 ∨ incx = 0 ∨ isZero complexAlpha then a
  else
    let n := toUsize n_
    if Scalar.isComplex T ∧ incx = 1 then denseUnitRank tuning float rt site .her uplo n complexAlpha x x a lda
    else
      let sx := startIndex n_ incx
      stridedRank (.dense lda) true uplo n
        (fun i j => vectorGet x sx i incx * (complexAlpha * conj (vectorGet x sx j incx))) a

def hpr (ap : Mem T) : Mem T :=
  let complexAlpha := realOnly alpha
  if n_ ≤ 0 ∨ incx = 0 ∨ isZero complexAlpha then ap
  else
    let n := toUsize n_
    if Scalar.isComplex T ∧ incx = 1 ∧ preferPackedColumns tuning rt.arch n then
      packedUnitRank tuning float rt site .her uplo n complexAlpha x x ap
    else
      let sx := startIndex n_ incx
      stridedRank .packed true uplo n (fun i j => vectorGet x sx i incx * (complexAlpha * conj (vectorGet x sx j incx))) ap

variable (y : Mem T) (incy : Int)

def syr2 (a : Mem T) (lda : Int) : Mem T :=
  if n_ ≤ 0 ∨ incx = 0 ∨ incy = 0 ∨ isZero alpha then a
  else
    let n := toUsize n_
    if isReal T ∧ incx = 1 ∧ incy = 1 then denseUnitRank tuning float rt site .syr2 uplo n alpha x y a lda
    else
      let sx := startIndex n_ incx
      let sy := startIndex n_ incy
      stridedRank (.dense lda) false uplo n (fun i j => vectorGet x sx i incx * (alpha * vectorGet y sy j incy) +
        vectorGet y sy i incy * (alpha * vectorGet x sx j incx)) a

def spr2 (ap : Mem T) : Mem T :=
  if n_ ≤ 0 ∨ incx = 0 ∨ incy = 0 ∨ isZero alpha then ap
  else
    let n := toUsize n_
    if isReal T ∧ incx = 1 ∧ incy = 1 ∧ preferPackedColumns tuning rt.arch n then
      packedUnitRank tuning float rt site .syr2 uplo n alpha x y ap
    else
      let sx := startIndex n_ incx
      let sy := startIndex n_ incy
      stridedRank .packed false uplo n (fun i j => vectorGet x sx i incx * (alpha * vectorGet y sy j incy) +
        vectorGet y sy i incy * (alpha * vectorGet x sx j incx)) ap

def her2 (a : Mem T) (lda : Int) : Mem T :=
  if n_ ≤ 0 ∨ incx = 0 ∨ incy = 0 ∨ isZero alpha then a
  else
    let n := toUsize n_
    if Scalar.isComplex T ∧ incx = 1 ∧ incy = 1 then denseUnitRank tuning float rt site .her2 uplo n alpha x y a lda
    else
      let sx := startIndex n_ incx
      let sy := startIndex n_ incy
      stridedRank (.dense lda) true uplo n (fun i j => vectorGet x sx i incx * (alpha * conj (vectorGet y sy j incy)) +
        vectorGet y sy i incy * (conj alpha * conj (vectorGet x sx j incx))) a

def hpr2 (ap : Mem T) : Mem T :=
  if n_ ≤ 0 ∨ incx = 0 ∨ incy = 0 ∨ isZero alpha then ap
  else
    let n := toUsize n_
    if Scalar.isComplex T ∧ incx = 1 ∧ incy = 1 ∧ preferPackedColumns tuning rt.arch n then
      packedUnitRank tuning float rt site .her2 uplo n alpha x y ap
    else
      let sx := startIndex n_ incx
      let sy := startIndex n_ incy
      stridedRank .packed true uplo n (fun i j => vectorGet x sx i incx * (alpha * conj (vectorGet y sy j incy)) +
        vectorGet y sy i incy * (conj alpha * conj (vectorGet x sx j incx))) ap

end Routines

end Zynum
