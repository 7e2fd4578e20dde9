/-!
Text as a list of characters, measured in UTF-8 bytes. Offsets in this library count bytes; a cut
that would fall inside a character has no result.
-/

set_option autoImplicit false
set_option relaxedAutoImplicit false

namespace FusionAtlas.Text

/-- Number of bytes of a text. -/
def byteSize : List Char → Nat
  | [] => 0
  | c :: rest => c.utf8Size + byteSize rest

/-- What is left after the first `n` bytes, unless the cut splits a character or lies past the
end. -/
def dropBytes : List Char → Nat → Option (List Char)
  | [], n => if n = 0 then some [] else none
  | c :: rest, n =>
    if n = 0 then some (c :: rest)
    else if c.utf8Size ≤ n then dropBytes rest (n - c.utf8Size)
    else none

/-- The first `n` bytes, unless the cut splits a character or lies past the end. -/
def takeBytes : List Char → Nat → Option (List Char)
  | [], n => if n = 0 then some [] else none
  | c :: rest, n =>
    if n = 0 then some []
    else if c.utf8Size ≤ n then (takeBytes rest (n - c.utf8Size)).map (c :: ·)
    else none

def slice? (text : List Char) (start stop : Nat) : Option (List Char) :=
  (dropBytes text start).bind fun rest => takeBytes rest (stop - start)

/-- Like `slice?`, with the empty text for a cut that does not exist. -/
def slice (text : List Char) (start stop : Nat) : List Char :=
  (slice? text start stop).getD []

/-- A character with the Unicode property White_Space. -/
def isBlank (c : Char) : Bool :=
  let n := c.toNat
  (9 ≤ n && n ≤ 13) || n == 0x20 || n == 0x85 || n == 0xA0 || n == 0x1680 ||
    (0x2000 ≤ n && n ≤ 0x200A) || n == 0x2028 || n == 0x2029 || n == 0x202F || n == 0x205F ||
    n == 0x3000

/-- Drop the longest run of characters satisfying `p` from the end. -/
def dropEndWhile (p : Char → Bool) (text : List Char) : List Char :=
  (text.reverse.dropWhile p).reverse

def trimStart (text : List Char) : List Char := text.dropWhile isBlank

def trimEnd (text : List Char) : List Char := dropEndWhile isBlank text

def trim (text : List Char) : List Char := trimEnd (trimStart text)

/-- The rest of a text behind the given opening, if it opens so. -/
def afterOpening? (opening text : List Char) : Option (List Char) :=
  match opening, text with
  | [], rest => some rest
  | _ :: _, [] => none
  | o :: os, c :: cs => if o = c then afterOpening? os cs else none

/-- The start of a text before the given ending, if it ends so. -/
def beforeEnding? (ending text : List Char) : Option (List Char) :=
  (afterOpening? ending.reverse text.reverse).map List.reverse

/-- The texts before and after the first occurrence of `mark`. -/
def splitFirst? (mark : List Char) : List Char → Option (List Char × List Char)
  | [] => if mark.isEmpty then some ([], []) else none
  | c :: cs =>
    match afterOpening? mark (c :: cs) with
    | some rest => some ([], rest)
    | none => (splitFirst? mark cs).map fun parts => (c :: parts.1, parts.2)

/-- What follows the last `mark`, or the whole text if there is none. -/
def afterLast (mark : Char) (text : List Char) : List Char :=
  (text.reverse.takeWhile (· != mark)).reverse

/-- An ASCII letter in either case compares equal to its counterpart. -/
def eqIgnoringAsciiCase (a b : String) : Bool :=
  a.toList.map Char.toLower == b.toList.map Char.toLower

def isAsciiLetter (c : Char) : Bool := c.isAlpha

def isAsciiAlphanumeric (c : Char) : Bool := c.isAlpha || c.isDigit

end FusionAtlas.Text
