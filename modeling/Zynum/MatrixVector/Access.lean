import Zynum.MatrixVector.GeneralExact

set_option autoImplicit false

/- Reading structured operands: core/matrix_vector/access.zig. -/
namespace Zynum

section Access

variable {T : Type} [Scalar T]

def stored (uplo : Triangle) (row col : Nat) : Bool :=
  match uplo with
  | .upper => row ≤ col
  | .lower => row ≥ col

def symValue (uplo : Triangle) (a : Mem T) (lda : Int) (row col : Nat) (herm : Bool) : T :=
  if (uplo = .upper ∧ row ≤ col) ∨ (uplo = .lower ∧ row ≥ col) then
    let v := a (matIndex lda row col)
    if herm ∧ row = col then realOnly v else v
  else
    let v := a (matIndex lda col row)
    if herm then conj v else v

def triValue [Zero T] [One T] (uplo : Triangle) (diag : Diagonal) (mode : TransposeMode) (a : Mem T) (lda : Int)
    (row col : Nat) : T :=
  let ar := if mode = .noTrans then row else col
  let ac := if mode = .noTrans then col else row
  if ar = ac ∧ diag = .unit then 1
  else if uplo = .upper ∧ ar > ac then 0
  else if uplo = .lower ∧ ar < ac then 0
  else
    let v := a (matIndex lda ar ac)
    if mode = .conjTrans then conj v else v

-- triPackedValue and triPackedOpValue of the source are the same function.
def triPackedValue [Zero T] [One T] (uplo : Triangle) (diag : Diagonal) (mode : TransposeMode) (n : Nat) (ap : Mem T)
    (row col : Nat) : T :=
  let ar := if mode = .noTrans then row else col
  let ac := if mode = .noTrans then col else row
  if ar = ac ∧ diag = .unit then 1
  else
    match triPackedIndex uplo n ar ac with
    | none => 0
    | some idxp =>
      let v := ap idxp
      if mode = .conjTrans then conj v else v

def triBandValue [Zero T] [One T] (uplo : Triangle) (mode : TransposeMode) (diag : Diagonal) (k : Nat) (a : Mem T) (lda : Int)
    (row col : Nat) : T :=
  let ar := if mode = .noTrans then row else col
  let ac := if mode = .noTrans then col else row
  if ar = ac ∧ diag = .unit then 1
  else
    match triBandIndex uplo k lda ar ac with
    | none => 0
    | some idxa =>
      let value := a idxa
      if mode = .conjTrans then conj value else value

-- The matrix that a triangle of entries stands for under a transpose and a diagonal.
def triangle [Zero T] [One T] (uplo : Triangle) (diag : Diagonal) (mode : TransposeMode) (entry : Nat → Nat → T)
    (row col : Nat) : T :=
  let ar := if mode = .noTrans then row else col
  let ac := if mode = .noTrans then col else row
  if ar = ac ∧ diag = .unit then 1
  else if stored uplo ar ac then
    let v := entry ar ac
    if mode = .conjTrans then conj v else v
  else 0

def compactEntry [Zero T] (index : Nat → Nat → Option Nat) (a : Mem T) (row col : Nat) : T :=
  match index row col with
  | none => 0
  | some slot => a slot

-- The matrix that a stored triangle stands for: mirrored, and for a Hermitian
-- matrix conjugated with a real diagonal.
def completion (herm : Bool) (uplo : Triangle) (entry : Nat → Nat → T) (row col : Nat) : T :=
  if row = col then (if herm then realOnly (entry row row) else entry row row)
  else if stored uplo row col then entry row col
  else if herm then conj (entry col row) else entry col row

theorem stored_iff (uplo : Triangle) (row col : Nat) :
    stored uplo row col = true ↔ (uplo = .upper ∧ row ≤ col) ∨ (uplo = .lower ∧ row ≥ col) := by
  cases uplo <;> simp only [stored, decide_eq_true_eq, reduceCtorEq, true_and, false_and, or_false, false_or]

theorem stored_diagonal (uplo : Triangle) (index : Nat) : stored uplo index index = true := by
  rw [stored_iff]
  cases uplo
  · exact Or.inl ⟨rfl, Nat.le_refl index⟩
  · exact Or.inr ⟨rfl, Nat.le_refl index⟩

theorem stored_flip (uplo : Triangle) (row col : Nat) (missing : stored uplo row col = false) :
    stored uplo col row = true := by
  have outside : ¬ stored uplo row col = true := by rw [missing]; exact Bool.false_ne_true
  rw [stored_iff] at outside ⊢
  cases uplo
  · exact Or.inl ⟨rfl, Nat.le_of_not_le (fun inside => outside (Or.inl ⟨rfl, inside⟩))⟩
  · exact Or.inr ⟨rfl, Nat.le_of_not_le (fun inside => outside (Or.inr ⟨rfl, inside⟩))⟩

theorem stored_both (uplo : Triangle) (row col : Nat) (one : stored uplo row col = true)
    (other : stored uplo col row = true) : row = col := by
  rw [stored_iff] at one other
  cases uplo <;> simp only [reduceCtorEq, true_and, false_and, or_false, false_or] at one other <;> omega

theorem sym_value_completion (uplo : Triangle) (a : Mem T) (lda : Int) (row col : Nat) (herm : Bool) :
    symValue uplo a lda row col herm = completion herm uplo (denseEntry a lda) row col := by
  simp only [symValue, completion, denseEntry, ← stored_iff]
  by_cases diagonal : row = col
  · subst diagonal
    rw [if_pos (stored_diagonal uplo row), if_pos rfl]
    simp only [and_true]
  · rw [if_neg diagonal]
    split
    · rw [if_neg (fun both => diagonal both.2)]
    · rfl

theorem completion_congr (herm : Bool) (uplo : Triangle) (entry entry' : Nat → Nat → T) (row col : Nat)
    (off : ∀ i j, i ≠ j → stored uplo i j = true → (i = row ∧ j = col ∨ i = col ∧ j = row) → entry i j = entry' i j)
    (diagonal : row = col → (if herm then realOnly (entry row row) else entry row row) =
      (if herm then realOnly (entry' row row) else entry' row row)) :
    completion herm uplo entry row col = completion herm uplo entry' row col := by
  simp only [completion]
  by_cases same : row = col
  · rw [if_pos same, if_pos same, diagonal same]
  · rw [if_neg same, if_neg same]
    cases inside : stored uplo row col with
    | true => rw [if_pos rfl, if_pos rfl, off row col same inside (Or.inl ⟨rfl, rfl⟩)]
    | false =>
      rw [if_neg Bool.false_ne_true, if_neg Bool.false_ne_true,
        off col row (Ne.symm same) (stored_flip uplo row col inside) (Or.inr ⟨rfl, rfl⟩)]

end Access

section Mirror

variable {T : Type} [CommRing T] [Scalar T] [LawfulScalar T]

theorem completion_mirror (herm : Bool) (uplo : Triangle) (entry : Nat → Nat → T) (row col : Nat) :
    completion herm uplo entry col row =
      if herm then conj (completion herm uplo entry row col) else completion herm uplo entry row col := by
  simp only [completion]
  by_cases same : row = col
  · subst same
    rw [if_pos rfl]
    cases herm with
    | true => exact (LawfulScalar.conj_realOnly _).symm
    | false => rfl
  · rw [if_neg same, if_neg (Ne.symm same)]
    cases inside : stored uplo row col with
    | true =>
      have outside : stored uplo col row = false := by
        cases other : stored uplo col row with
        | true => exact absurd (stored_both uplo row col inside other) same
        | false => rfl
      rw [outside]
      rfl
    | false =>
      rw [stored_flip uplo row col inside]
      cases herm with
      | true => exact (LawfulScalar.conj_conj _).symm
      | false => rfl

end Mirror

end Zynum
