/-!
Text in ASCII letters, digits and hyphens. The characters of ASCII come first; each other character
is given, in the order of their numbers, by how far it is from the one before, counted in places
where it could stand. These counts are written in digits whose weights adapt to the counts so far.
-/

set_option autoImplicit false
set_option relaxedAutoImplicit false

namespace FusionAtlas.Text.Punycode

/-- The digit for a number below 36. -/
def digit (n : Nat) : Char :=
  if n < 26 then Char.ofNat ('a'.toNat + n) else Char.ofNat ('0'.toNat + (n - 26))

def digitValue? (c : Char) : Option Nat :=
  if 'a' ≤ c ∧ c ≤ 'z' then some (c.toNat - 'a'.toNat)
  else if 'A' ≤ c ∧ c ≤ 'Z' then some (c.toNat - 'A'.toNat)
  else if '0' ≤ c ∧ c ≤ '9' then some (c.toNat - '0'.toNat + 26)
  else none

/-- A digit below the threshold of its place is the last of its number. -/
def threshold (place bias : Nat) : Nat := min 26 (max 1 (36 * (place + 1) - bias))

theorem threshold_pos (place bias : Nat) : 0 < threshold place bias := by
  simp only [threshold]; omega

/-- Divide by 35 while the number is above 455, and count how often. -/
def scaleDown (n : Nat) : Nat × Nat :=
  if 455 < n then
    let (left, count) := scaleDown (n / 35)
    (left, count + 1)
  else (n, 0)
termination_by n
decreasing_by exact Nat.div_lt_self (by omega) (by omega)

/-- The bias after a count, given how many characters are known by then. -/
def adapted (count known : Nat) (first : Bool) : Nat :=
  let count := if first then count / 700 else count / 2
  let (left, times) := scaleDown (count + count / known)
  36 * times + 36 * left / (left + 38)

def initialBias : Nat := 72

/-- The digits of a number, from the given place on. -/
def digits (bias place n : Nat) : List Char :=
  let limit := threshold place bias
  if n < limit then [digit n]
  else
    digit (limit + (n - limit) % (36 - limit)) ::
      digits bias (place + 1) ((n - limit) / (36 - limit))
termination_by n
decreasing_by
  have h := threshold_pos place bias
  exact Nat.lt_of_le_of_lt (Nat.div_le_self _ _) (by omega)

def isBasic (c : Char) : Bool := c.toNat < 0x80

/-- Where writing stands. -/
structure Writing where
  output : List Char
  /-- Places passed since the last character written. -/
  count : Nat
  bias : Nat
  /-- Number of characters written. -/
  known : Nat

/-- Pass one place of the text while the character with the given number is written. -/
def Writing.pass (basic code : Nat) (w : Writing) (c : Char) : Writing :=
  if c.toNat < code then { w with count := w.count + 1 }
  else if c.toNat = code then
    ⟨w.output ++ digits w.bias 0 w.count, 0, adapted w.count (w.known + 1) (w.known == basic),
      w.known + 1⟩
  else w

/-- Write the characters with the given numbers, which ascend from `next` on. -/
def writeCodes (text : List Char) (basic : Nat) (next : Nat) (w : Writing) : List Nat → List Char
  | [] => w.output
  | code :: more =>
    let start := { w with count := w.count + (code - next) * (w.known + 1) }
    let w := text.foldl (Writing.pass basic code) start
    writeCodes text basic (code + 1) { w with count := w.count + 1 } more

def encode (text : List Char) : List Char :=
  let basic := text.filter isBasic
  let codes := ((text.filter fun c => !isBasic c).map Char.toNat).mergeSort.eraseDups
  (if basic.isEmpty then [] else basic ++ ['-']) ++
    writeCodes text basic.length 0x80 ⟨[], 0, initialBias, basic.length⟩ codes

/-- Where reading stands. -/
structure Reading where
  text : List Char
  /-- Number of the character that is read next, at the earliest. -/
  code : Nat
  /-- Place where it may stand. -/
  position : Nat
  bias : Nat
  /-- The count whose digits are being read: its value so far, the weight of the next digit and the
  place of that digit. -/
  count : Nat
  weight : Nat
  place : Nat

/-- Read a digit; the last one of a count gives a character and its place. -/
def Reading.next? (r : Reading) (c : Char) : Option Reading := do
  let value ← digitValue? c
  let count := r.count + value * r.weight
  let limit := threshold r.place r.bias
  if limit ≤ value then
    return { r with count, weight := r.weight * (36 - limit), place := r.place + 1 }
  let known := r.text.length + 1
  let position := r.position + count
  let code := r.code + position / known
  if h : code.isValidChar then
    return {
      text := r.text.insertIdx (position % known) (Char.ofNatAux code h)
      code
      position := position % known + 1
      bias := adapted count known (r.text.all isBasic)
      count := 0
      weight := 1
      place := 0 }
  else none

/-- Read a text: behind its last hyphen stand the characters that are not of ASCII. -/
def decode? (written : List Char) : Option (List Char) := do
  let counts := (written.reverse.takeWhile (· != '-')).reverse
  let basic := written.take (written.length - counts.length - 1)
  if basic.isEmpty ∧ counts.length < written.length then none
  let reading ← counts.foldlM Reading.next? ⟨basic, 0x80, 0, initialBias, 0, 1, 0⟩
  if reading.place = 0 then some reading.text else none

end FusionAtlas.Text.Punycode
