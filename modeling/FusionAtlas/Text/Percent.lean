import FusionAtlas.Text.Utf8

/-!
Percent coding: a byte that may not stand for itself is written as a percent sign and two
hexadecimal digits.
-/

set_option autoImplicit false
set_option relaxedAutoImplicit false

namespace FusionAtlas.Text.Percent

/-- The upper-case hexadecimal digit of a number below sixteen. -/
def hexDigit (n : Nat) : Char :=
  if n < 10 then Char.ofNat ('0'.toNat + n) else Char.ofNat ('A'.toNat + (n - 10))

/-- The number of a hexadecimal digit in either case. -/
def hexValue? (c : Char) : Option Nat :=
  if '0' ≤ c ∧ c ≤ '9' then some (c.toNat - '0'.toNat)
  else if 'A' ≤ c ∧ c ≤ 'F' then some (c.toNat - 'A'.toNat + 10)
  else if 'a' ≤ c ∧ c ≤ 'f' then some (c.toNat - 'a'.toNat + 10)
  else none

/-- One byte, written as itself or escaped. Bytes outside ASCII are always escaped. -/
def encodeByte (escapes : Char → Bool) (b : UInt8) : List Char :=
  let c := Char.ofNat b.toNat
  if 0x80 ≤ b.toNat ∨ escapes c then
    ['%', hexDigit (b.toNat / 16), hexDigit (b.toNat % 16)]
  else [c]

def encodeBytes (escapes : Char → Bool) (bytes : List UInt8) : List Char :=
  bytes.flatMap (encodeByte escapes)

/-- Write a text by its bytes, escaping what `escapes` names. -/
def encode (escapes : Char → Bool) (text : List Char) : List Char :=
  encodeBytes escapes (Utf8.encode text)

/-- The bytes a text stands for; a percent sign without two digits stands for itself. -/
def decode : List Char → List UInt8
  | [] => []
  | '%' :: a :: b :: rest =>
    match hexValue? a, hexValue? b with
    | some high, some low => UInt8.ofNat (high * 16 + low) :: decode rest
    | _, _ => String.utf8EncodeChar '%' ++ decode (a :: b :: rest)
  | c :: rest => String.utf8EncodeChar c ++ decode rest

end FusionAtlas.Text.Percent
