import FusionAtlas.Yaml.Token
import FusionAtlas.Yaml.Value

/-!
What a scalar without quotes means: nothing, a truth value, an integer, a float, or its own text.
Digits behind a leading zero are text. An integer that needs more than 64 bits, but not more than
128, is refused; a longer one is read as a float.
-/

set_option autoImplicit false
set_option relaxedAutoImplicit false

namespace FusionAtlas.Yaml.Scalar

def isNull (text : String) : Bool := ["null", "Null", "NULL", "~"].contains text

def bool? (text : String) : Option Bool :=
  if ["true", "True", "TRUE"].contains text then some true
  else if ["false", "False", "FALSE"].contains text then some false
  else none

/-- Value of a digit in any base up to sixteen. -/
def digit? (base : Nat) (c : Char) : Option Nat :=
  let value :=
    if c.isDigit then c.toNat - '0'.toNat
    else if 'a' ≤ c ∧ c ≤ 'f' then c.toNat - 'a'.toNat + 10
    else if 'A' ≤ c ∧ c ≤ 'F' then c.toNat - 'A'.toNat + 10
    else base
  if value < base then some value else none

/-- Value of a non-empty run of digits. -/
def natural? (base : Nat) (digits : List Char) : Option Nat :=
  if digits.isEmpty then none
  else (digits.mapM (digit? base)).map fun values => values.foldl (fun n d => n * base + d) 0

/-- A leading zero with nothing but digits behind it, after at most one sign. -/
def isPaddedNumber (text : List Char) : Bool :=
  let digits := match text with
    | '+' :: rest | '-' :: rest => rest
    | _ => text
  digits.length > 1 && digits.head? == some '0' && digits.all Char.isDigit

/-- Magnitude of an integer without its sign: decimal, or behind a mark for its base. -/
def magnitude? : List Char → Option Nat
  | '0' :: 'x' :: digits => natural? 16 digits
  | '0' :: 'o' :: digits => natural? 8 digits
  | '0' :: 'b' :: digits => natural? 2 digits
  | digits => natural? 10 digits

/-- The integer a text is a spelling of. -/
def integer? (text : List Char) : Option Int :=
  if isPaddedNumber text then none
  else
    match text with
    | '-' :: rest => (magnitude? rest).map fun n => -Int.ofNat n
    | '+' :: rest => (magnitude? rest).map Int.ofNat
    | _ => (magnitude? text).map Int.ofNat

/-- An integer that a value can hold. -/
def fits64 (n : Int) : Bool :=
  -Int.ofNat (Nat.pow 2 63) ≤ n && n < Int.ofNat (Nat.pow 2 64)

/-- An integer too large for a value that is still known to be one. -/
def fits128 (n : Int) : Bool :=
  -Int.ofNat (Nat.pow 2 127) ≤ n && n < Int.ofNat (Nat.pow 2 128)

/-- Digits with at most one point among them, and the number of digits behind it. At least one digit
is needed. -/
def mantissa? (text : List Char) : Option (Nat × Nat) :=
  let whole := text.takeWhile Char.isDigit
  let rest := text.dropWhile Char.isDigit
  let fraction := match rest with
    | '.' :: digits => some digits
    | [] => some []
    | _ => none
  match fraction with
  | some digits => (natural? 10 (whole ++ digits)).map fun n => (n, digits.length)
  | none => none

/-- An exponent: digits behind at most one sign. -/
def exponent? (text : List Char) : Option Int :=
  match text with
  | '-' :: digits => (natural? 10 digits).map fun n => -Int.ofNat n
  | '+' :: digits => (natural? 10 digits).map Int.ofNat
  | digits => (natural? 10 digits).map Int.ofNat

/-- The finite number a decimal text without a plus sign stands for. -/
def decimal? (text : List Char) : Option Binary64 := do
  let (negative, body) := match text with
    | '-' :: rest => (true, rest)
    | _ => (false, text)
  let (digits, places) ← mantissa? (body.takeWhile fun c => c != 'e' && c != 'E')
  let exponent ← match body.dropWhile fun c => c != 'e' && c != 'E' with
    | [] => some 0
    | _ :: written => exponent? written
  Binary64.ofDecimal? negative digits (exponent - Int.ofNat places)

/-- The float a text is a spelling of. -/
def float? (text : List Char) : Option Binary64 :=
  let unsigned := match text with
    | '+' :: rest => rest
    | _ => text
  if [".inf", ".Inf", ".INF"].contains (String.ofList unsigned) then some .infinity
  else if ["-.inf", "-.Inf", "-.INF"].contains (String.ofList text) then some .negInfinity
  else if [".nan", ".NaN", ".NAN"].contains (String.ofList text) then some .nan
  else if text.head? == some '+' && unsigned.head? == some '-' then none
  else decimal? unsigned

/-- The value of an integer, unless it is out of range. -/
def integerValue (n : Int) (text : List Char) : Except Fault Value :=
  if fits64 n then .ok (.int n) else .error (.integerOutOfRange (String.ofList text))

/-- The integer or refusal a text stands for, if it is short enough for an integer. -/
def shortInteger? (text : List Char) : Option Int :=
  (integer? text).filter fits128

/-- The value of a scalar without quotes. -/
def plainValue (text : List Char) : Except Fault Value :=
  let written := String.ofList text
  if text.isEmpty || isNull written then .ok .null
  else
    match bool? written, shortInteger? text with
    | some b, _ => .ok (.bool b)
    | none, some n => integerValue n text
    | none, none =>
      if isPaddedNumber text then .ok (.string written)
      else
        match float? text with
        | some x => .ok (.float x)
        | none => .ok (.string written)

/-- The tag of a standard kind of value. -/
def standardTag (kind : String) : List Char := ("tag:yaml.org,2002:" ++ kind).toList

/-- The value of a scalar with a tag that is not the program's own. Tags of the standard kinds ask
for a spelling of that kind; any other makes it text. -/
def taggedValue (tag text : List Char) : Except Fault Value :=
  let unfit : Fault := .unfitTag (String.ofList tag)
  if tag = standardTag "bool" then
    match bool? (String.ofList text) with
    | some b => .ok (.bool b)
    | none => .error unfit
  else if tag = standardTag "int" then
    match shortInteger? text with
    | some n => integerValue n text
    | none => .error unfit
  else if tag = standardTag "float" then
    match float? text with
    | some x => .ok (.float x)
    | none => .error unfit
  else if tag = standardTag "null" then
    if isNull (String.ofList text) then .ok .null else .error unfit
  else .ok (.string (String.ofList text))

end FusionAtlas.Yaml.Scalar
