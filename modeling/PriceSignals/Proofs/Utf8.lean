/-
Module: PriceSignals.Proofs.Utf8
Purpose: A text that is written to a file as UTF-8 is found again in it, character by character.
Main exports:
  Glyph.scalar?_toNat, Glyph.leading?_utf8EncodeChar, Glyph.ofBytes_flatMap_bytes
-/
import PriceSignals.Text.Glyph

namespace PriceSignals.Glyph

/-- A character is found from its code if it has not been written with too many bytes. -/
theorem scalar?_toNat {low n : Nat} {c : Char} (code : n = c.toNat) (short : low ≤ n) :
    scalar? low n = some c := by
  subst code
  have valid : c.toNat.isValidChar := c.valid
  rw [scalar?, dif_pos valid, if_pos short]
  rfl

/-- The byte that carries six bits of a code behind the first byte. -/
theorem continuation?_ofNat {n : Nat} (bits : n < 64) :
    continuation? (UInt8.ofNat (n + 128)) = some n := by
  have byte : (UInt8.ofNat (n + 128)).toNat = n + 128 := by
    rw [UInt8.toNat_ofNat']
    omega
  rw [continuation?, byte, if_pos (by omega), Nat.add_sub_cancel]

/-- A character is read from the front of its own bytes. The cases are the numbers of bytes. -/
theorem leading?_utf8EncodeChar (c : Char) (rest : List UInt8) :
    leading? (String.utf8EncodeChar c ++ rest)
      = some (c, (String.utf8EncodeChar c).length - 1) := by
  have valid : c.toNat < 0xD800 ∨ 0xDFFF < c.toNat ∧ c.toNat < 0x110000 := c.valid
  have first {n k : Nat} (small : n + k < 256) : (UInt8.ofNat (n + k)).toNat = n + k := by
    rw [UInt8.toNat_ofNat']
    omega
  unfold String.utf8EncodeChar
  rw [show c.val.toNat = c.toNat from rfl]
  generalize code : c.toNat = v at valid
  dsimp only
  by_cases one : v ≤ 127
  · have byte : (UInt8.ofNat v).toNat = v := first (n := v) (k := 0) (by omega)
    rw [if_pos one]
    simp only [List.cons_append, List.nil_append, leading?, byte]
    rw [if_pos (by omega), scalar?_toNat code.symm (Nat.zero_le v)]
    rfl
  · rw [if_neg one]
    by_cases two : v ≤ 2047
    · rw [if_pos two]
      simp only [List.cons_append, List.nil_append, leading?]
      rw [first (by omega), if_neg (by omega), if_neg (by omega), if_pos (by omega),
        continuation?_ofNat (by omega)]
      simp only [Option.bind_eq_bind, Option.bind_some, List.length_cons, List.length_nil]
      rw [scalar?_toNat (c := c) (by omega) (by omega)]
      rfl
    · rw [if_neg two]
      by_cases three : v ≤ 65535
      · rw [if_pos three]
        simp only [List.cons_append, List.nil_append, leading?]
        rw [first (by omega), if_neg (by omega), if_neg (by omega), if_neg (by omega),
          if_pos (by omega), continuation?_ofNat (by omega), continuation?_ofNat (by omega)]
        simp only [Option.bind_eq_bind, Option.bind_some, List.length_cons, List.length_nil]
        rw [scalar?_toNat (c := c) (by omega) (by omega)]
        rfl
      · rw [if_neg three]
        simp only [List.cons_append, List.nil_append, leading?]
        rw [first (by omega), if_neg (by omega), if_neg (by omega), if_neg (by omega),
          if_neg (by omega), if_pos (by omega), continuation?_ofNat (by omega),
          continuation?_ofNat (by omega), continuation?_ofNat (by omega)]
        simp only [Option.bind_eq_bind, Option.bind_some, List.length_cons, List.length_nil]
        rw [scalar?_toNat (c := c) (by omega) (by omega)]
        rfl

/-- A text is read from its bytes. -/
theorem ofBytes_flatMap_bytes (cs : List Char) :
    ofBytes ((ofChars cs).flatMap bytes) = ofChars cs := by
  induction cs with
  | nil => simp [ofChars, ofBytes]
  | cons c cs ih =>
      have found := leading?_utf8EncodeChar c ((ofChars cs).flatMap bytes)
      change ofBytes (String.utf8EncodeChar c ++ (ofChars cs).flatMap bytes) = .char c :: ofChars cs
      obtain ⟨b, more, written⟩ := List.exists_cons_of_ne_nil
        (List.ne_nil_of_length_pos ((String.length_utf8EncodeChar c).symm ▸ c.utf8Size_pos))
      rw [written] at found ⊢
      rw [List.cons_append] at found ⊢
      rw [ofBytes, found]
      dsimp only
      rw [List.length_cons, Nat.add_sub_cancel, List.drop_left, ih]

end PriceSignals.Glyph
