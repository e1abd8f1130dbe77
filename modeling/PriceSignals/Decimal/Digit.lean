/-
Module: PriceSignals.Decimal.Digit
Purpose: Decimal digits and the numbers that rows of them stand for.
Main exports:
  Digit, Digit.zero, Digit.toChar, Digit.ofChar?, Digit.takeRow, Digit.value, Digit.ofNat,
  Digit.takeRow_text, Digit.takeRow_map, Digit.value_ofNat, Digit.value_padded
-/

namespace PriceSignals

/-- One decimal digit. -/
abbrev Digit := Fin 10

namespace Digit

/-- The digit nought. -/
abbrev zero : Digit := 0

/-- The ASCII character of a digit. -/
def toChar (d : Digit) : Char := Char.ofNat (48 + d.val)

/-- The digit that an ASCII character stands for, if it is one. -/
def ofChar? (c : Char) : Option Digit :=
  if h : 48 ≤ c.toNat ∧ c.toNat < 58 then some ⟨c.toNat - 48, by omega⟩ else none

/-- Splits the digits off the front of a text. `asDigit` says which symbols are digits. -/
def takeRow {α : Type} (asDigit : α → Option Digit) : List α → List Digit × List α
  | [] => ([], [])
  | a :: rest =>
    match asDigit a with
    | some d => let (row, tail) := takeRow asDigit rest; (d :: row, tail)
    | none => ([], a :: rest)

/-- The number that a row of digits stands for, the most significant digit first. -/
def value (row : List Digit) : Nat :=
  row.foldl (fun n d => n * 10 + d.val) 0

/-- The digits of a number without leading zeros; zero is one digit. -/
def ofNat (n : Nat) : List Digit :=
  if n < 10 then [Fin.ofNat 10 n]
  else ofNat (n / 10) ++ [Fin.ofNat 10 n]
termination_by n

/-- A row of digits as text. -/
def text (row : List Digit) : List Char := row.map toChar

/-- A row of exactly `width` digits, filled with zeros on the left; a longer number keeps all
its digits. -/
def padded (width n : Nat) : List Digit :=
  let row := ofNat n
  List.replicate (width - row.length) zero ++ row

/-! ### Laws -/

/-- The character of a digit is read as that digit. -/
theorem ofChar?_toChar (d : Digit) : ofChar? d.toChar = some d := by
  revert d
  decide

/-- Digits in front of a text are split off it. -/
theorem takeRow_text (row : List Digit) (rest : List Char) :
    takeRow ofChar? (text row ++ rest)
      = (row ++ (takeRow ofChar? rest).1, (takeRow ofChar? rest).2) := by
  induction row with
  | nil => simp [text]
  | cons d row ih =>
    change takeRow ofChar? (d.toChar :: (text row ++ rest)) = _
    rw [takeRow, ofChar?_toChar]
    simp only [ih]
    rfl

/-- From symbols of digits, exactly these are taken where no further one follows. -/
theorem takeRow_map {α : Type} {asDigit : α → Option Digit} {symbol : Digit → α}
    (known : ∀ d, asDigit (symbol d) = some d) (row : List Digit) {rest : List α}
    (stop : ∀ a, rest.head? = some a → asDigit a = none) :
    takeRow asDigit (row.map symbol ++ rest) = (row, rest) := by
  induction row with
  | nil =>
    cases rest with
    | nil => rfl
    | cons a rest => rw [List.map_nil, List.nil_append, takeRow, stop a rfl]
  | cons d row ih =>
    rw [List.map_cons, List.cons_append, takeRow, known, ih]

/-- Further digits shift the number and are added to it. -/
theorem value_append (row more : List Digit) :
    value (row ++ more) = value row * Nat.pow 10 more.length + value more := by
  have general (acc : Nat) (ds : List Digit) :
      ds.foldl (fun n d => n * 10 + d.val) acc = acc * Nat.pow 10 ds.length + value ds := by
    induction ds generalizing acc with
    | nil => simp [value]
    | cons d ds ih =>
      have fromZero := ih (0 * 10 + d.val)
      have shifted : Nat.pow 10 (ds.length + 1) = Nat.pow 10 ds.length * 10 := rfl
      simp only [value, List.foldl_cons, List.length_cons]
      rw [ih, fromZero, shifted]
      simp only [Nat.zero_mul, Nat.zero_add, Nat.add_mul]
      rw [Nat.mul_assoc, Nat.mul_comm 10, Nat.add_assoc]
  unfold value
  rw [List.foldl_append, general]
  rfl

theorem value_replicate_zero (k : Nat) : value (List.replicate k zero) = 0 := by
  induction k with
  | zero => rfl
  | succ k ih => simpa [value, List.replicate_succ] using ih

/-- The digits of a number stand for it. -/
theorem value_ofNat (n : Nat) : value (ofNat n) = n := by
  induction n using Nat.strongRecOn with
  | _ n ih =>
    rw [ofNat]
    split
    · rename_i small
      simp [value, Fin.ofNat, Nat.mod_eq_of_lt small]
    · rename_i large
      rw [value_append, ih (n / 10) (by omega)]
      simp [value, Fin.ofNat]
      omega

/-- Zeros on the left do not change a number. -/
theorem value_padded (width n : Nat) : value (padded width n) = n := by
  rw [padded, value_append, value_replicate_zero, value_ofNat]
  simp

end Digit

/-- A whole number as decimal text, with a minus sign when it is negative. -/
def decimalText (n : Int) : List Char :=
  match n with
  | .ofNat m => Digit.text (Digit.ofNat m)
  | .negSucc m => '-' :: Digit.text (Digit.ofNat (m + 1))

end PriceSignals
