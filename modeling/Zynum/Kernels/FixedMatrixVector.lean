import Zynum.Indexing
import Zynum.Kernels.FixedVector

set_option autoImplicit false

/- The matrix-vector kernels of kernels/shared/matrix_vector/fixed_simd.zig over
   exact scalars. Pointers are rows of reals; a complex element is two of them. -/
namespace Zynum.FixedMatrix

open ArrayProgram FixedVector

structure MatrixVectorConfig where
  laneCount : Nat
  rowUnrollVectors : Nat
  colUnroll : Nat
  minWork : Nat
  maxWork : Nat
  fuseComplexUpdates : Bool
  some_lanes : 0 < laneCount
  some_rows : 0 < rowUnrollVectors
  some_columns : 0 < colUnroll

variable {α R : Type}

section Columns

def tailColumnBlocks (cfg : MatrixVectorConfig) : List Nat := [8, 4, 2].filter (fun cols => cols < cfg.colUnroll)

-- driveColumnBlocks, and the columns it leaves to the single-column loop behind it.
def columnLoops (cfg : MatrixVectorConfig) (n : Nat) (run : Nat → Nat → Program α R Unit) (single : Nat → Program α R Unit) :
    Program α R Unit := do
  whileFits cfg.colUnroll 0 n (fun j _ => run cfg.colUnroll j) ()
  let j := reached cfg.colUnroll 0 n
  tailLoops (tailColumnBlocks cfg) j n run
  whileFits 1 (tailsReached (tailColumnBlocks cfg) j n) n (fun j _ => single j) ()

-- m *| n on usize
def saturatingMul (m n : Nat) : Nat := min (m * n) (2 ^ 64 - 1)

def useful (cfg : MatrixVectorConfig) (m n : Nat) : Bool :=
  let work := saturatingMul m n
  if m < cfg.laneCount ∨ n = 0 ∨ work < cfg.minWork then false
  else !(cfg.maxWork ≠ 0 ∧ cfg.maxWork < work)

def usefulComplex (cfg : MatrixVectorConfig) (m n : Nat) : Bool :=
  let work := saturatingMul m n
  if m < (cfg.laneCount + 1) / 2 ∨ n = 0 ∨ work < cfg.minWork then false
  else !(cfg.maxWork ≠ 0 ∧ cfg.maxWork < work)

-- a + matIndex(lda, row, col)
def entryFrom (width : Nat) (a : Nat → α) (lda : Int) (row col cell : Nat) : α := a (width * matIndex lda row col + cell)

def getComplex (x : Nat → α) (i : Nat) : Program α R (Cplx R) := do
  let re ← Program.get (x (2 * i))
  let im ← Program.get (x (2 * i + 1))
  pure ⟨re, im⟩

def putComplex (y : Nat → α) (i : Nat) (value : Cplx R) : Program α R Unit := do
  Program.put (y (2 * i)) value.re
  Program.put (y (2 * i + 1)) value.im

end Columns

variable [CommRing R] [DecidableEq R]

section Real

def axpyColumn (cfg : MatrixVectorConfig) (m : Nat) (alpha : R) (x y : Nat → α) : Program α R Unit :=
  realAffineLoops cfg.laneCount cfg.rowUnrollVectors [] .axpy m alpha x 0 y

def scaleUnit (cfg : MatrixVectorConfig) (n : Nat) (beta : R) (y : Nat → α) : Program α R Unit :=
  if beta = 1 then .done ()
  else if beta = 0 then Program.each n (fun i => Program.put (y i) 0)
  else realAffineLoops cfg.laneCount cfg.rowUnrollVectors [] .scal n beta y 0 y

def gemvNoTransCols (cfg : MatrixVectorConfig) (cols m : Nat) (alpha : R) (a : Nat → α) (lda : Int) (x y : Nat → α) (j : Nat) :
    Program α R Unit := do
  let scalars ← Program.fold cols (fun col (scalars : Nat → R) => do
    let xj ← Program.get (x (j + col))
    pure (Function.update scalars col (alpha * xj))) (fun _ => 0)
  vectorLoops cfg.laneCount cfg.rowUnrollVectors [] 1 m
    (fun lanes i => do
      let yv ← loadVec lanes y i
      let yv ← Program.fold cols (fun col (yv : Nat → R) => do
        let av ← loadVec lanes (entryFrom 1 a lda 0 (j + col)) i
        pure (fun lane => av lane * scalars col + yv lane)) yv
      storeVec lanes y i yv)
    (fun i => do
      let yi ← Program.get (y i)
      let yi ← Program.fold cols (fun col yi => do
        let ai ← Program.get (entryFrom 1 a lda 0 (j + col) i)
        let xj ← Program.get (x (j + col))
        pure (ai * (alpha * xj) + yi)) yi
      Program.put (y i) yi)

def gemvNoTransUnitRealBody (cfg : MatrixVectorConfig) (m n : Nat) (alpha : R) (a : Nat → α) (lda : Int) (x y : Nat → α) :
    Program α R Unit :=
  columnLoops cfg n (fun cols j => gemvNoTransCols cfg cols m alpha a lda x y j) (fun j => do
    let xj ← Program.get (x j)
    if alpha * xj ≠ 0 then axpyColumn cfg m (alpha * xj) (entryFrom 1 a lda 0 j) y else pure ())

def gemvNoTransUnitReal (cfg : MatrixVectorConfig) (m n : Nat) (alpha : R) (a : Nat → α) (lda : Int) (x y : Nat → α) :
    Program α R Bool :=
  if !useful cfg m n then pure false
  else do
    gemvNoTransUnitRealBody cfg m n alpha a lda x y
    pure true

def gemvNoTransFullUnitReal (cfg : MatrixVectorConfig) (m n : Nat) (alpha : R) (a : Nat → α) (lda : Int) (x : Nat → α) (beta : R)
    (y : Nat → α) : Program α R Bool :=
  if !useful cfg m n then pure false
  else do
    scaleUnit cfg m beta y
    gemvNoTransUnitRealBody cfg m n alpha a lda x y
    pure true

-- The column sums gemvTransCols gathers; accs[col][u] is accs u col here.
def gemvTransSums (cfg : MatrixVectorConfig) (cols m : Nat) (a : Nat → α) (lda : Int) (x : Nat → α) (j : Nat) :
    Program α R (Nat → R) := do
  let lanes := cfg.laneCount
  let unroll := cfg.rowUnrollVectors
  let accs ← whileFits (lanes * unroll) 0 m (fun i (accs : Nat → Nat → Nat → R) =>
    Program.fold unroll (fun u accs => do
      let acc ← (do
        let xv ← loadVec lanes x (i + u * lanes)
        Program.fold cols (fun col (acc : Nat → Nat → R) => do
          let av ← loadVec lanes (entryFrom 1 a lda 0 (j + col)) (i + u * lanes)
          pure (Function.update acc col (fun lane => av lane * xv lane + acc col lane))) (accs u))
      pure (Function.update accs u acc)) accs) (fun _ _ _ => 0)
  let i := reached (lanes * unroll) 0 m
  let sums ← whileFits lanes i m (fun i (sums : Nat → R) => do
    let xv ← loadVec lanes x i
    Program.fold cols (fun col (sums : Nat → R) => do
      let av ← loadVec lanes (entryFrom 1 a lda 0 (j + col)) i
      pure (Function.update sums col (sums col + reduceAdd lanes (fun lane => av lane * xv lane)))) sums)
    (fun col => reduceAdd lanes (fun lane => loop unroll (fun u acc => acc + accs u col lane) 0))
  whileFits 1 (reached lanes i m) m (fun i (sums : Nat → R) =>
    Program.fold cols (fun col (sums : Nat → R) => do
      let ai ← Program.get (entryFrom 1 a lda 0 (j + col) i)
      let xi ← Program.get (x i)
      pure (Function.update sums col (ai * xi + sums col))) sums) sums

def gemvTransCols (cfg : MatrixVectorConfig) (cols m : Nat) (alpha : R) (a : Nat → α) (lda : Int) (x y : Nat → α) (j : Nat) :
    Program α R Unit := do
  let sums ← gemvTransSums cfg cols m a lda x j
  Program.each cols (fun col => do
    let yj ← Program.get (y (j + col))
    Program.put (y (j + col)) (alpha * sums col + yj))

def gemvTransUnitRealBody (cfg : MatrixVectorConfig) (m n : Nat) (alpha : R) (a : Nat → α) (lda : Int) (x y : Nat → α) :
    Program α R Unit :=
  columnLoops cfg n (fun cols j => gemvTransCols cfg cols m alpha a lda x y j)
    (fun j => gemvTransCols cfg 1 m alpha a lda x y j)

def gemvTransUnitReal (cfg : MatrixVectorConfig) (m n : Nat) (alpha : R) (a : Nat → α) (lda : Int) (x y : Nat → α) :
    Program α R Bool :=
  if !useful cfg m n then pure false
  else do
    gemvTransUnitRealBody cfg m n alpha a lda x y
    pure true

def gemvTransFullUnitReal (cfg : MatrixVectorConfig) (m n : Nat) (alpha : R) (a : Nat → α) (lda : Int) (x : Nat → α) (beta : R)
    (y : Nat → α) : Program α R Bool :=
  if !useful cfg m n then pure false
  else do
    scaleUnit cfg n beta y
    gemvTransUnitRealBody cfg m n alpha a lda x y
    pure true

def gerCols (cfg : MatrixVectorConfig) (cols m : Nat) (alpha : R) (x y a : Nat → α) (lda : Int) (j : Nat) :
    Program α R Unit := do
  let scalars ← Program.fold cols (fun col (scalars : Nat → R) => do
    let yj ← Program.get (y (j + col))
    pure (Function.update scalars col (alpha * yj))) (fun _ => 0)
  vectorLoops cfg.laneCount cfg.rowUnrollVectors [] 1 m
    (fun lanes i => do
      let xv ← loadVec lanes x i
      Program.each cols (fun col => do
        let av ← loadVec lanes (entryFrom 1 a lda 0 (j + col)) i
        storeVec lanes (entryFrom 1 a lda 0 (j + col)) i (fun lane => xv lane * scalars col + av lane)))
    (fun i => do
      let xi ← Program.get (x i)
      Program.each cols (fun col => do
        let yj ← Program.get (y (j + col))
        let ai ← Program.get (entryFrom 1 a lda 0 (j + col) i)
        Program.put (entryFrom 1 a lda 0 (j + col) i) (xi * (alpha * yj) + ai)))

def gerUnitReal (cfg : MatrixVectorConfig) (m n : Nat) (alpha : R) (x y a : Nat → α) (lda : Int) : Program α R Bool :=
  if !useful cfg m n then pure false
  else do
    columnLoops cfg n (fun cols j => gerCols cfg cols m alpha x y a lda j) (fun j => do
      let yj ← Program.get (y j)
      if alpha * yj ≠ 0 then axpyColumn cfg m (alpha * yj) x (entryFrom 1 a lda 0 j) else pure ())
    pure true

end Real

section Complex

def complexUpdateVector (fused : Bool) (values : Nat → R) (coefficient : Cplx R) (addend : Nat → R) (lane : Nat) : R :=
  if fused then
    let cross := values (pairSwapMask lane) * pairSignVector coefficient.im lane + addend lane
    values lane * coefficient.re + cross
  else addend lane + complexScaleVec values (fun _ => coefficient.re) (pairSignVector coefficient.im) lane

def complexGemvNoTransCols (cfg : MatrixVectorConfig) (cols m : Nat) (alpha : Cplx R) (a : Nat → α) (lda : Int) (x y : Nat → α)
    (j : Nat) : Program α R Unit := do
  let coeffs ← Program.fold cols (fun col (coeffs : Nat → Cplx R) => do
    let xj ← getComplex x (j + col)
    pure (Function.update coeffs col (alpha * xj))) (fun _ => 0)
  vectorLoops cfg.laneCount cfg.rowUnrollVectors [] 2 (2 * m)
    (fun lanes i => do
      let yv ← loadVec lanes y i
      let yv ← Program.fold cols (fun col (yv : Nat → R) => do
        let av ← loadVec lanes (entryFrom 2 a lda 0 (j + col)) i
        pure (complexUpdateVector cfg.fuseComplexUpdates av (coeffs col) yv)) yv
      storeVec lanes y i yv)
    (fun i => do
      let re ← Program.get (y i)
      let im ← Program.get (y (i + 1))
      let out ← Program.fold cols (fun col (out : Cplx R) => do
        let ar ← Program.get (entryFrom 2 a lda 0 (j + col) i)
        let ai ← Program.get (entryFrom 2 a lda 0 (j + col) (i + 1))
        pure ⟨out.re + ((coeffs col).re * ar - (coeffs col).im * ai), out.im + ((coeffs col).re * ai + (coeffs col).im * ar)⟩)
        ⟨re, im⟩
      Program.put (y i) out.re
      Program.put (y (i + 1)) out.im)

def gemvNoTransUnitComplex (cfg : MatrixVectorConfig) (m n : Nat) (alpha : Cplx R) (a : Nat → α) (lda : Int) (x y : Nat → α) :
    Program α R Bool :=
  if !usefulComplex cfg m n then pure false
  else do
    columnLoops cfg n (fun cols j => complexGemvNoTransCols cfg cols m alpha a lda x y j)
      (fun j => complexGemvNoTransCols cfg 1 m alpha a lda x y j)
    pure true

def complexDotUnit (cfg : MatrixVectorConfig) (m : Nat) (aCol x : Nat → α) (doConj : Bool) : Program α R (Cplx R) :=
  complexDotLoops cfg.fuseComplexUpdates cfg.laneCount cfg.rowUnrollVectors m aCol x doConj

-- One vector of a column pair.
def complexGemvTransAccumulate (cfg : MatrixVectorConfig) (a : Nat → α) (lda : Int) (x : Nat → α) (doConj : Bool) (j offset : Nat)
    (acc : Nat → Nat → Cplx R) : Program α R (Nat → Nat → Cplx R) := do
  let xv ← loadVec cfg.laneCount x offset
  Program.fold 2 (fun col (acc : Nat → Nat → Cplx R) => do
    let av ← loadVec cfg.laneCount (entryFrom 2 a lda 0 (j + col)) offset
    pure (Function.update acc col (signedProducts cfg.fuseComplexUpdates doConj av xv (acc col)))) acc

-- Two accumulators for each of the columns j and j + 1: accs u col.
def complexGemvTransAccs (cfg : MatrixVectorConfig) (m : Nat) (a : Nat → α) (lda : Int) (x : Nat → α) (doConj : Bool) (j : Nat) :
    Program α R (Nat → Nat → Nat → Cplx R) := do
  let lanes := cfg.laneCount
  let accs ← whileFits (lanes * 2) 0 (2 * m) (fun i (accs : Nat → Nat → Nat → Cplx R) =>
    Program.fold 2 (fun u accs => do
      let acc ← complexGemvTransAccumulate cfg a lda x doConj j (i + u * lanes) (accs u)
      pure (Function.update accs u acc)) accs) (fun _ _ _ => 0)
  whileFits lanes (reached (lanes * 2) 0 (2 * m)) (2 * m) (fun i (accs : Nat → Nat → Nat → Cplx R) => do
    let acc ← complexGemvTransAccumulate cfg a lda x doConj j i (accs 0)
    pure (Function.update accs 0 acc)) accs

def complexGemvTransPair (cfg : MatrixVectorConfig) (m : Nat) (alpha : Cplx R) (a : Nat → α) (lda : Int) (x y : Nat → α)
    (doConj : Bool) (j : Nat) : Program α R Unit := do
  let lanes := cfg.laneCount
  let accs ← complexGemvTransAccs cfg m a lda x doConj j
  let i := reached lanes (reached (lanes * 2) 0 (2 * m)) (2 * m)
  Program.each 2 (fun col => do
    let sum ← whileFits 1 (i / 2) m (fun tail (sum : Cplx R) => do
      let av ← getComplex (entryFrom 2 a lda 0 (j + col)) tail
      let xi ← getComplex x tail
      pure (sum + (if doConj then ⟨av.re, -av.im⟩ else av) * xi))
      (reduceAdd lanes (fun lane => accs 0 col lane + accs 1 col lane))
    let yj ← getComplex y (j + col)
    putComplex y (j + col) (yj + alpha * sum))

def complexGemvTransColumn (cfg : MatrixVectorConfig) (m : Nat) (alpha : Cplx R) (a : Nat → α) (lda : Int) (x y : Nat → α)
    (doConj : Bool) (j : Nat) : Program α R Unit := do
  let sum ← complexDotUnit cfg m (entryFrom 2 a lda 0 j) x doConj
  let yj ← getComplex y j
  putComplex y j (yj + alpha * sum)

def complexGemvTransCols (cfg : MatrixVectorConfig) (cols m : Nat) (alpha : Cplx R) (a : Nat → α) (lda : Int) (x y : Nat → α)
    (doConj : Bool) (j : Nat) : Program α R Unit :=
  if cfg.fuseComplexUpdates && decide (2 ≤ cols) && decide (m ≤ 256) then do
    Program.each (cols / 2) (fun pair => complexGemvTransPair cfg m alpha a lda x y doConj (j + pair * 2))
    if cols % 2 ≠ 0 then complexGemvTransColumn cfg m alpha a lda x y doConj (j + cols - 1) else pure ()
  else Program.each cols (fun col => complexGemvTransColumn cfg m alpha a lda x y doConj (j + col))

def gemvTransUnitComplex (cfg : MatrixVectorConfig) (m n : Nat) (alpha : Cplx R) (a : Nat → α) (lda : Int) (x y : Nat → α)
    (doConj : Bool) : Program α R Bool :=
  if !usefulComplex cfg m n then pure false
  else do
    columnLoops cfg n (fun cols j => complexGemvTransCols cfg cols m alpha a lda x y doConj j)
      (fun j => complexGemvTransCols cfg 1 m alpha a lda x y doConj j)
    pure true

def complexGerCols (cfg : MatrixVectorConfig) (cols m : Nat) (alpha : Cplx R) (x y a : Nat → α) (lda : Int) (conjugateY : Bool)
    (j : Nat) : Program α R Unit := do
  let coefficients ← Program.fold cols (fun col (coefficients : Nat → Cplx R) => do
    let yj ← getComplex y (j + col)
    pure (Function.update coefficients col (alpha * (if conjugateY then ⟨yj.re, -yj.im⟩ else yj)))) (fun _ => 0)
  vectorLoops cfg.laneCount cfg.rowUnrollVectors [] 2 (2 * m)
    (fun lanes i => do
      let xv ← loadVec lanes x i
      Program.each cols (fun col => do
        let av ← loadVec lanes (entryFrom 2 a lda 0 (j + col)) i
        storeVec lanes (entryFrom 2 a lda 0 (j + col)) i
          (complexUpdateVector cfg.fuseComplexUpdates xv (coefficients col) av)))
    (fun i => do
      let xr ← Program.get (x i)
      let xi ← Program.get (x (i + 1))
      Program.each cols (fun col => do
        let ar ← Program.get (entryFrom 2 a lda 0 (j + col) i)
        let ai ← Program.get (entryFrom 2 a lda 0 (j + col) (i + 1))
        let updated := (⟨ar, ai⟩ : Cplx R) + ⟨xr, xi⟩ * coefficients col
        Program.put (entryFrom 2 a lda 0 (j + col) i) updated.re
        Program.put (entryFrom 2 a lda 0 (j + col) (i + 1)) updated.im))

def gerUnitComplex (cfg : MatrixVectorConfig) (m n : Nat) (alpha : Cplx R) (x y a : Nat → α) (lda : Int) (conjugateY : Bool) :
    Program α R Bool :=
  if !usefulComplex cfg m n then pure false
  else do
    columnLoops cfg n (fun cols j => complexGerCols cfg cols m alpha x y a lda conjugateY j)
      (fun j => complexGerCols cfg 1 m alpha x y a lda conjugateY j)
    pure true

end Complex

section Symmetric

def realDotUnit (cfg : MatrixVectorConfig) (n : Nat) (a x : Nat → α) : Program α R R :=
  dotLoops id cfg.laneCount cfg.rowUnrollVectors [] n a x

-- Pointers are numbers here: an output that overlaps an input is refused.
def symmetricAxpyDotUnitReal (cfg : MatrixVectorConfig) (n : Nat) (coefficient : R) (a x y : Nat) :
    Program Nat R (Option R) :=
  if n = 0 then pure (some 0)
  else if coefficient = 0 then do
    let sum ← realDotUnit cfg n (fun i => a + i) (fun i => x + i)
    pure (some sum)
  else if (if a < y then y - a else a - y) < n ∨ (if x < y then y - x else x - y) < n then pure none
  else do
    let sum ← vectorSums cfg.laneCount cfg.rowUnrollVectors [] 1 n
      (fun lanes i acc => do
        let av ← loadVec lanes (fun i => a + i) i
        let xv ← loadVec lanes (fun i => x + i) i
        let yv ← loadVec lanes (fun i => y + i) i
        storeVec lanes (fun i => y + i) i (fun lane => av lane * coefficient + yv lane)
        pure (fun lane => av lane * xv lane + acc lane))
      (fun _ value => value)
      (fun i sum => do
        let av ← Program.get (a + i)
        let xv ← Program.get (x + i)
        let yv ← Program.get (y + i)
        Program.put (y + i) (av * coefficient + yv)
        pure (av * xv + sum))
    pure (some sum)

-- What symmetricColumnsUnit uses of its element type: real or complex.
structure ColumnKernels (α R T : Type) where
  width : Nat
  get : (Nat → α) → Nat → Program α R T
  put : (Nat → α) → Nat → T → Program α R Unit
  triangularAxpyUnit : Nat → T → (Nat → α) → (Nat → α) → Program α R Unit
  triangularDotUnit : Nat → (Nat → α) → (Nat → α) → Program α R T
  symmetricDiagonal : T → T
  hermitian : Bool

def realColumnKernels (cfg : MatrixVectorConfig) : ColumnKernels α R R where
  width := 1
  get x i := Program.get (x i)
  put y i value := Program.put (y i) value
  triangularAxpyUnit := axpyColumn cfg
  triangularDotUnit := realDotUnit cfg
  symmetricDiagonal value := value
  hermitian := false

def complexColumnKernels (cfg : MatrixVectorConfig) : ColumnKernels α R (Cplx R) where
  width := 2
  get := getComplex
  put := putComplex
  triangularAxpyUnit n alpha a x :=
    complexAffineLoops cfg.fuseComplexUpdates cfg.laneCount cfg.rowUnrollVectors [] .axpy n alpha a 0 x
  triangularDotUnit n a x := complexDotUnit cfg n a x true
  symmetricDiagonal value := ⟨value.re, 0⟩
  hermitian := true

-- One column of the stored triangle.
def symmetricColumn {T : Type} [CommRing T] (kernels : ColumnKernels α R T) (upper : Bool) (n : Nat) (alpha : T) (a : Nat → α)
    (lda : Int) (x yDelta : Nat → α) (j : Nat) : Program α R Unit := do
  let row0 := if upper then 0 else j + 1
  let count := if upper then j else n - row0
  let offDiagonal := entryFrom kernels.width a lda row0 j
  let shifted := fun (ptr : Nat → α) cell => ptr (kernels.width * row0 + cell)
  (if count ≠ 0 then do
    let xj ← kernels.get x j
    kernels.triangularAxpyUnit count (alpha * xj) offDiagonal (shifted yDelta)
  else pure ())
  let reflectedDot ← (if count ≠ 0 then kernels.triangularDotUnit count offDiagonal (shifted x) else pure 0)
  let ajj ← kernels.get (entryFrom kernels.width a lda 0 0) (matIndex lda j j)
  let xj ← kernels.get x j
  let yj ← kernels.get yDelta j
  kernels.put yDelta j (yj + alpha * (kernels.symmetricDiagonal ajj * xj + reflectedDot))

def symmetricColumnsUnit {T : Type} [CommRing T] (kernels : ColumnKernels α R T) (upper hermitian : Bool) (n j0 j1 : Nat)
    (alpha : T) (a : Nat → α) (lda : Int) (x yDelta : Nat → α) : Program α R Bool :=
  if hermitian ≠ kernels.hermitian then pure false
  else if n = 0 ∨ j1 ≤ j0 ∨ n < j1 ∨ lda ≤ 0 then pure false
  else do
    Program.each (j1 - j0) (fun step => symmetricColumn kernels upper n alpha a lda x yDelta (j0 + step))
    pure true

end Symmetric

end Zynum.FixedMatrix
