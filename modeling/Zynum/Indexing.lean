import Zynum.Complex

set_option autoImplicit false

/- core/shared/indexing.zig. BlasInt is Int and usize is Nat: address arithmetic
   is exact, as every product here is bounded by the size of an allocation. A
   pointer is a store with a start address. -/
namespace Zynum

abbrev Mem (T : Type) := Nat → T

def toUsize (value : Int) : Nat := value.toNat

def startIndex (n inc : Int) : Int :=
  if n ≤ 0 then 0 else if inc ≥ 0 then 0 else (1 - n) * inc

def ix (base : Int) (i : Nat) (inc : Int) : Nat := (base + i * inc).toNat

def matIndex (lda : Int) (row col : Nat) : Nat := row + col * toUsize lda

def packedIndex (uplo : Triangle) (n row col : Nat) : Nat :=
  match uplo with
  | .upper => if row ≤ col then col * (col + 1) / 2 + row else row * (row + 1) / 2 + col
  | .lower =>
    if row ≥ col then col * (2 * n - col + 1) / 2 + (row - col) else row * (2 * n - row + 1) / 2 + (col - row)

def triPackedIndex (uplo : Triangle) (n row col : Nat) : Option Nat :=
  match uplo with
  | .upper => if row > col then none else some (col * (col + 1) / 2 + row)
  | .lower => if row < col then none else some (col * (2 * n - col + 1) / 2 + (row - col))

def bandGeneralIndex (kl ku : Nat) (lda : Int) (row col : Nat) : Option Nat :=
  if row + ku < col then none
  else if col + kl < row then none
  else some ((ku + row - col) + col * toUsize lda)

def symBandIndex (uplo : Triangle) (k : Nat) (lda : Int) (row col : Nat) : Option Nat :=
  match uplo with
  | .upper =>
    if row ≤ col then
      if row + k < col then none else some ((k + row - col) + col * toUsize lda)
    else if col + k < row then none
    else some ((k + col - row) + row * toUsize lda)
  | .lower =>
    if row ≥ col then
      if col + k < row then none else some ((row - col) + col * toUsize lda)
    else if row + k < col then none
    else some ((col - row) + row * toUsize lda)

def triBandIndex (uplo : Triangle) (k : Nat) (lda : Int) (row col : Nat) : Option Nat :=
  match uplo with
  | .upper => if row > col ∨ row + k < col then none else some ((k + row - col) + col * toUsize lda)
  | .lower => if row < col ∨ col + k < row then none else some ((row - col) + col * toUsize lda)

variable {T : Type}

def vectorGet (x : Mem T) (start : Int) (i : Nat) (inc : Int) : T := x (ix start i inc)

theorem ix_nonneg (n inc : Int) (i : Nat) (small : (i : Int) < n) : 0 ≤ startIndex n inc + i * inc := by
  have some : ¬ n ≤ 0 := by omega
  by_cases forward : inc ≥ 0
  · simp only [startIndex, some, forward, if_true, if_false]
    positivity
  · simp only [startIndex, some, forward, if_false]
    have room : n - 1 - i ≥ 0 := by omega
    have rearranged : (1 - n) * inc + i * inc = (n - 1 - i) * (-inc) := by ring
    rw [rearranged]
    exact mul_nonneg room (by omega)

theorem ix_injective (n inc : Int) (nonzero : inc ≠ 0) :
    Set.InjOn (fun i => ix (startIndex n inc) i inc) (Set.Iio (toUsize n)) := by
  intro i inFirst j inSecond same
  have first := ix_nonneg n inc i (by simp only [Set.mem_Iio, toUsize] at inFirst; omega)
  have second := ix_nonneg n inc j (by simp only [Set.mem_Iio, toUsize] at inSecond; omega)
  have equal : startIndex n inc + i * inc = startIndex n inc + j * inc := by
    simp only [ix] at same
    omega
  have scaled : (i : Int) * inc = j * inc := by linarith
  exact_mod_cast mul_right_cancel₀ nonzero scaled

theorem ix_unit (n : Int) (i : Nat) : ix (startIndex n 1) i 1 = i := by
  by_cases empty : n ≤ 0
  · simp only [ix, startIndex, empty, if_true]
    omega
  · simp only [ix, startIndex, empty, if_false, ge_iff_le, Int.zero_le_ofNat, if_true]
    omega

theorem vector_get_unit (x : Mem T) (n : Int) (i : Nat) : vectorGet x (startIndex n 1) i 1 = x i := by
  rw [vectorGet, ix_unit]

theorem mat_index_injective (lda : Int) (rows : Nat) (bound : rows ≤ toUsize lda) :
    Set.InjOn (fun cell : Nat × Nat => matIndex lda cell.1 cell.2) {cell | cell.1 < rows} := by
  rintro ⟨i, j⟩ inFirst ⟨k, l⟩ inSecond same
  simp only [Set.mem_ofPred_eq] at inFirst inSecond
  simp only [matIndex] at same
  have wide : 0 < toUsize lda := by omega
  have sameRow : i = k := by
    have left : (i + j * toUsize lda) % toUsize lda = i := by
      rw [Nat.add_mul_mod_self_right, Nat.mod_eq_of_lt (by omega)]
    have right : (k + l * toUsize lda) % toUsize lda = k := by
      rw [Nat.add_mul_mod_self_right, Nat.mod_eq_of_lt (by omega)]
    rw [← left, ← right, same]
  have sameCol : j = l := by
    rw [sameRow] at same
    exact Nat.eq_of_mul_eq_mul_right wide (Nat.add_left_cancel same)
  rw [sameRow, sameCol]

end Zynum
