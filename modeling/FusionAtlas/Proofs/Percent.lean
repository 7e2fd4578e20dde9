import FusionAtlas.Proofs.Text
import FusionAtlas.Text.Percent

/-!
Percent coding read back. What is written stands in characters that are not escaped again, and the bytes
of a text can be told from how they are written.
-/

set_option autoImplicit false
set_option relaxedAutoImplicit false

namespace FusionAtlas.Text

/-- What holds of the characters up to 0x7F, one by one, holds of ASCII. -/
theorem forall_ascii {p : Char → Prop} (all : ∀ n : Fin 128, p (Char.ofNat n)) {c : Char}
    (ascii : c.toNat < 0x80) : p c := by
  have here := all ⟨c.toNat, ascii⟩
  rwa [Char.ofNat_toNat] at here

/-- What holds of all bytes, one by one. -/
theorem forall_byte {p : UInt8 → Prop} (all : ∀ n : Fin 256, p (UInt8.ofNat n)) (b : UInt8) : p b := by
  have here := all ⟨b.toNat, b.toNat_lt⟩
  rwa [UInt8.ofNat_toNat] at here

theorem toNat_of_isAlpha {c : Char} (alpha : c.isAlpha = true) : c.toNat < 0x80 := by
  have range := range_of_isAlpha alpha
  omega

theorem Utf8.encodeChar_of_ascii {c : Char} (ascii : c.toNat < 0x80) :
    String.utf8EncodeChar c = [UInt8.ofNat c.toNat] := by
  have size : c.utf8Size = 1 := Char.utf8Size_eq_one_iff.mpr (UInt32.le_iff_toNat_le.mpr (by
    have bound : c.val.toNat < 0x80 := ascii
    have last : (127 : UInt32).toNat = 127 := rfl
    omega))
  exact String.utf8EncodeChar_eq_singleton size

namespace Percent

/-- A character that escaping leaves as it is. -/
def Kept (escapes : Char → Bool) (c : Char) : Prop := c.toNat < 0x80 ∧ escapes c = false

instance (escapes : Char → Bool) (c : Char) : Decidable (Kept escapes c) :=
  inferInstanceAs (Decidable (_ ∧ _))

/-- The characters that an escaped byte is written with. -/
def codeCharacters : List Char := "%0123456789ABCDEF".toList

variable {escapes : Char → Bool} {c : Char} {text : List Char}

theorem encode_cons (escapes : Char → Bool) (c : Char) (text : List Char) :
    encode escapes (c :: text) =
      encodeBytes escapes (String.utf8EncodeChar c) ++ encode escapes text := by
  rw [encode, encode, encodeBytes, encodeBytes, encodeBytes, Utf8.encode, List.flatMap_cons,
    List.flatMap_append, Utf8.encode]

private theorem hexDigit_mem {n : Nat} (bound : n < 16) : hexDigit n ∈ codeCharacters := by
  have all : ∀ n : Fin 16, hexDigit n ∈ codeCharacters := by decide
  exact all ⟨n, bound⟩

private theorem hexValue?_hexDigit {n : Nat} (bound : n < 16) : hexValue? (hexDigit n) = some n := by
  have all : ∀ n : Fin 16, hexValue? (hexDigit n) = some n.val := by decide
  exact all ⟨n, bound⟩

/-- A byte is written as the character it stands for, or in the characters of codes. -/
theorem mem_encodeByte {b : UInt8} (member : c ∈ encodeByte escapes b) :
    (c = Char.ofNat b.toNat ∧ b.toNat < 0x80 ∧ escapes c = false) ∨ c ∈ codeCharacters := by
  simp only [encodeByte] at member
  split at member
  · right
    have bound := b.toNat_lt
    simp only [List.mem_cons, List.not_mem_nil, or_false] at member
    rcases member with rfl | rfl | rfl
    · decide
    · exact hexDigit_mem (by omega)
    · exact hexDigit_mem (by omega)
  · rename_i plain
    left
    obtain rfl := List.mem_singleton.mp member
    rw [not_or, Bool.not_eq_true] at plain
    exact ⟨rfl, by omega, plain.2⟩

/-- Each character of an escaped text was kept, or belongs to a code. -/
theorem mem_encode (member : c ∈ encode escapes text) :
    (c ∈ text ∧ Kept escapes c) ∨ c ∈ codeCharacters := by
  obtain ⟨b, listed, written⟩ := List.mem_flatMap.mp member
  rcases mem_encodeByte written with ⟨rfl, ascii, kept⟩ | code
  · left
    have value : (Char.ofNat b.toNat).toNat = b.toNat := by
      have small : ∀ n : Fin 128, (Char.ofNat n).toNat = n.val := by decide +kernel
      exact small ⟨b.toNat, ascii⟩
    exact ⟨Utf8.mem_of_mem_encode listed ascii, by rw [value]; exact ascii, kept⟩
  · exact Or.inr code

/-- Where codes are not escaped themselves, nothing is left to escape in an escaped text. -/
theorem kept_of_mem_encode (codes : ∀ c ∈ codeCharacters, Kept escapes c)
    (member : c ∈ encode escapes text) : Kept escapes c := by
  rcases mem_encode member with ⟨-, kept⟩ | code
  · exact kept
  · exact codes c code

theorem encodeChar_of_kept (kept : Kept escapes c) :
    encodeBytes escapes (String.utf8EncodeChar c) = [c] := by
  have byte : (UInt8.ofNat c.toNat).toNat = c.toNat := by
    rw [UInt8.toNat_ofNat', Nat.mod_eq_of_lt (by have := kept.1; omega)]
  have written : ¬(0x80 ≤ c.toNat ∨ escapes c = true) := by
    rw [not_or, Bool.not_eq_true]
    exact ⟨by have := kept.1; omega, kept.2⟩
  rw [Utf8.encodeChar_of_ascii kept.1, encodeBytes, List.flatMap_singleton, encodeByte, byte,
    Char.ofNat_toNat]
  exact if_neg written

theorem encode_of_kept (kept : ∀ c ∈ text, Kept escapes c) : encode escapes text = text := by
  induction text with
  | nil => rfl
  | cons c text ih =>
    have head := encodeChar_of_kept (kept c (List.mem_cons_self ..))
    have rest := ih fun d member => kept d (List.mem_cons_of_mem c member)
    rw [encode_cons, head, rest, List.singleton_append]

/-- An escaped text starts as the text does, or with a percent sign. -/
theorem head?_encode_cons (escapes : Char → Bool) (c : Char) (text : List Char) :
    (encode escapes (c :: text)).head? = some c ∨ (encode escapes (c :: text)).head? = some '%' := by
  obtain ⟨b, bytes, written⟩ := List.exists_cons_of_ne_nil (String.utf8EncodeChar_ne_nil (c := c))
  have first : encodeByte escapes b = [c] ∨ (encodeByte escapes b).head? = some '%' := by
    unfold encodeByte
    simp only
    split
    · exact Or.inr rfl
    · have held : b ∈ String.utf8EncodeChar c := by rw [written]; exact List.mem_cons_self ..
      rw [(Utf8.encodeChar_of_mem_ascii held (by omega)).1]
      exact Or.inl rfl
  rw [encode_cons, written, encodeBytes, List.flatMap_cons]
  rcases first with same | percent
  · rw [same]
    exact Or.inl rfl
  · obtain ⟨code, spelled⟩ := List.head?_eq_some_iff.mp percent
    rw [spelled]
    exact Or.inr rfl

theorem encode_eq_nil (empty : encode escapes text = []) : text = [] := by
  cases text with
  | nil => rfl
  | cons c text =>
    have first := head?_encode_cons escapes c text
    rw [empty] at first
    rcases first with none | none <;> cases none

theorem decode_cons_of_ne (other : c ≠ '%') (text : List Char) :
    decode (c :: text) = String.utf8EncodeChar c ++ decode text := by
  rw [decode]
  intro a b rest percent
  exact absurd percent other

/-- A text without percent signs stands for its own bytes. -/
theorem decode_of_not_mem (absent : '%' ∉ text) : decode text = Utf8.encode text := by
  induction text with
  | nil => rfl
  | cons c text ih =>
    rw [List.mem_cons, not_or] at absent
    have other : c ≠ '%' := fun same => absent.1 same.symm
    rw [decode_cons_of_ne other, ih absent.2, Utf8.encode, Utf8.encode, List.flatMap_cons]

/-- A byte is read back from how it is written, if percent signs are escaped. -/
theorem decode_encodeByte (percent : escapes '%' = true) (b : UInt8) (text : List Char) :
    decode (encodeByte escapes b ++ text) = b :: decode text := by
  have bound := b.toNat_lt
  simp only [encodeByte]
  split
  · have joined : b.toNat / 16 * 16 + b.toNat % 16 = b.toNat := by omega
    simp only [List.cons_append, List.nil_append]
    rw [decode, hexValue?_hexDigit (by omega), hexValue?_hexDigit (by omega)]
    simp only [joined, UInt8.ofNat_toNat]
  · rename_i plain
    rw [not_or, Bool.not_eq_true] at plain
    have small : ∀ n : Fin 128, String.utf8EncodeChar (Char.ofNat n) = [UInt8.ofNat n] := by
      decide +kernel
    have single := small ⟨b.toNat, by omega⟩
    have other : Char.ofNat b.toNat ≠ '%' := by
      intro same
      rw [same, percent] at plain
      exact absurd plain.2 (by decide)
    rw [List.singleton_append, decode_cons_of_ne other, single, UInt8.ofNat_toNat]
    rfl

/-- Bytes are read back from how they are written. -/
theorem decode_encodeBytes (percent : escapes '%' = true) (bytes : List UInt8) :
    decode (encodeBytes escapes bytes) = bytes := by
  induction bytes with
  | nil => rfl
  | cons b bytes ih =>
    rw [encodeBytes, List.flatMap_cons, decode_encodeByte percent, ← encodeBytes, ih]

end Percent

end FusionAtlas.Text
