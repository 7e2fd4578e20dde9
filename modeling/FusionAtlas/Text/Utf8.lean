/-!
UTF-8: the bytes of a text, and the text of bytes. Malformed bytes either refuse the whole text or
are replaced by U+FFFD, one for each longest start of a character.
-/

set_option autoImplicit false
set_option relaxedAutoImplicit false

namespace FusionAtlas.Text.Utf8

def encode (text : List Char) : List UInt8 := text.flatMap String.utf8EncodeChar

def within (low high : Nat) (b : UInt8) : Bool := low ≤ b.toNat && b.toNat ≤ high

def continues (b : UInt8) : Bool := within 0x80 0xBF b

/-- The six low bits of a continuation byte. -/
def low (b : UInt8) : Nat := b.toNat % 64

/-- Second bytes that may follow a given first byte of a three or four byte character: no overlong
form, no surrogate, nothing above U+10FFFF. -/
def secondAllowed (b : UInt8) : UInt8 → Bool :=
  if b.toNat = 0xE0 then within 0xA0 0xBF
  else if b.toNat = 0xED then within 0x80 0x9F
  else if b.toNat = 0xF0 then within 0x90 0xBF
  else if b.toNat = 0xF4 then within 0x80 0x8F
  else continues

/-- The character that starts with byte `b`, or none if it is malformed, and how many of the
following bytes it takes. -/
def decodeFrom (b : UInt8) (rest : List UInt8) : Option Char × Nat :=
  let n := b.toNat
  if n < 0x80 then (some (Char.ofNat n), 0)
  else if 0xC2 ≤ n ∧ n ≤ 0xDF then
    match rest with
    | b₁ :: _ =>
      if continues b₁ then (some (Char.ofNat ((n - 0xC0) * 64 + low b₁)), 1) else (none, 0)
    | [] => (none, 0)
  else if 0xE0 ≤ n ∧ n ≤ 0xEF then
    match rest with
    | b₁ :: more =>
      if secondAllowed b b₁ then
        match more with
        | b₂ :: _ =>
          if continues b₂ then
            (some (Char.ofNat (((n - 0xE0) * 64 + low b₁) * 64 + low b₂)), 2)
          else (none, 1)
        | [] => (none, 1)
      else (none, 0)
    | [] => (none, 0)
  else if 0xF0 ≤ n ∧ n ≤ 0xF4 then
    match rest with
    | b₁ :: more =>
      if secondAllowed b b₁ then
        match more with
        | b₂ :: most =>
          if continues b₂ then
            match most with
            | b₃ :: _ =>
              if continues b₃ then
                (some (Char.ofNat ((((n - 0xF0) * 64 + low b₁) * 64 + low b₂) * 64 + low b₃)), 3)
              else (none, 2)
            | [] => (none, 2)
          else (none, 1)
        | [] => (none, 1)
      else (none, 0)
    | [] => (none, 0)
  else (none, 0)

/-- The characters of the bytes, none for each malformed place. -/
def decodePieces : List UInt8 → List (Option Char)
  | [] => []
  | b :: rest => (decodeFrom b rest).1 :: decodePieces (rest.drop (decodeFrom b rest).2)
termination_by bytes => bytes.length
decreasing_by simp only [List.length_drop, List.length_cons]; omega

/-- The text of the bytes, if they are well-formed. -/
def decode? (bytes : List UInt8) : Option (List Char) :=
  let pieces := decodePieces bytes
  if pieces.all Option.isSome then some (pieces.filterMap id) else none

/-- The text of the bytes, with U+FFFD for malformed places. -/
def decodeLossy (bytes : List UInt8) : List Char :=
  (decodePieces bytes).map fun piece => piece.getD '\uFFFD'

end FusionAtlas.Text.Utf8
