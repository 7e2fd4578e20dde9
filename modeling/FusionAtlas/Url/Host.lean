import FusionAtlas.Text.Basic
import FusionAtlas.Text.Percent
import FusionAtlas.Url.DomainName

/-!
Hosts of a url. Schemes with well-known servers have domains and addresses; any other scheme has
an opaque host. Domains are written in ASCII.
-/

set_option autoImplicit false
set_option relaxedAutoImplicit false

namespace FusionAtlas.Url

open FusionAtlas.Text (afterOpening?)

/-- A server. -/
inductive Host where
  | domain (name : List Char)
  | ipv4 (address : Nat)
  /-- Eight numbers of sixteen bits. -/
  | ipv6 (groups : List Nat)
  deriving DecidableEq, Repr

def isControl (c : Char) : Bool := c.toNat < 0x20 || c.toNat == 0x7F

/-- The number written by digits in a given base. -/
def number? (base : Nat) (digits : List Char) : Option Nat :=
  digits.foldlM (fun n c =>
    match Text.Percent.hexValue? c with
    | some d => if d < base then some (n * base + d) else none
    | none => none) 0

/-- A number of an address: decimal, octal behind `0`, hexadecimal behind `0x`. -/
def ipv4Number? : List Char → Option Nat
  | [] => none
  | '0' :: 'x' :: digits | '0' :: 'X' :: digits => number? 16 digits
  | '0' :: d :: digits => number? 8 (d :: digits)
  | digits => number? 10 digits

/-- The parts of a domain between dots, without an empty one at the end. -/
def labels (domain : List Char) : List (List Char) :=
  let parts := domain.splitOn '.'
  if parts.getLast? = some [] then parts.dropLast else parts

/-- A domain whose last label is a number must be an address. -/
def endsInNumber (domain : List Char) : Bool :=
  match (labels domain).getLast? with
  | none => false
  | some last => (!last.isEmpty && last.all Char.isDigit) || (ipv4Number? last).isSome

/-- The address written by up to four numbers, the last of which fills what is left. -/
def ipv4? (domain : List Char) : Option Nat := do
  let numbers ← (labels domain).mapM ipv4Number?
  let last ← numbers.getLast?
  let first := numbers.dropLast
  if first.length ≥ 4 ∨ first.any (· > 255) ∨ last ≥ Nat.pow 256 (4 - first.length) then none
  else
    some (first.zipIdx.foldl (fun sum p => sum + p.1 * Nat.pow 256 (3 - p.2)) last)

/-- One to four hexadecimal digits. -/
def group? (digits : List Char) : Option Nat :=
  if digits.isEmpty ∨ digits.length > 4 then none else number? 16 digits

/-- A decimal number up to 255 without leading zeros. -/
def octet? (digits : List Char) : Option Nat :=
  if digits.isEmpty ∨ digits.length > 3 ∨ (digits.length > 1 ∧ digits.head? = some '0') then none
  else (number? 10 digits).bind fun n => if n ≤ 255 then some n else none

/-- Groups separated by colons; the last may be a dotted address, which counts twice. -/
def groups? (text : List Char) : Option (List Nat) :=
  if text.isEmpty then some []
  else
    let parts := text.splitOn ':'
    let last := parts.getLast?.getD []
    if last.contains '.' then do
      let first ← parts.dropLast.mapM group?
      match ← (last.splitOn '.').mapM octet? with
      | [a, b, c, d] => some (first ++ [a * 256 + b, c * 256 + d])
      | _ => none
    else parts.mapM group?

/-- The address between brackets: eight groups, or fewer around one `::`. -/
def ipv6? (text : List Char) : Option (List Nat) :=
  match Text.splitFirst? "::".toList text with
  | none => (groups? text).bind fun groups => if groups.length = 8 then some groups else none
  | some (before, behind) =>
    if before.contains '.' then none
    else do
      let first ← groups? before
      let second ← groups? behind
      if first.length + second.length ≤ 7 then
        some (first ++ List.replicate (8 - first.length - second.length) 0 ++ second)
      else none

def forbiddenInDomain (c : Char) : Bool :=
  isControl c || " #/:<>?@[\\]^|%".toList.contains c

/-- Characters that no opaque host may hold. -/
def forbiddenInOpaque (c : Char) : Bool :=
  "\x00\t\n\r #/:<>?@[\\]^|".toList.contains c

def bracketed? : List Char → Option (Option Host)
  | '[' :: rest =>
    if rest.getLast? = some ']' then some ((ipv6? rest.dropLast).map .ipv6) else some none
  | _ => none

/-- Read the host of a well-known scheme. -/
def domainHost? (text : List Char) : Option Host :=
  match bracketed? text with
  | some address => address
  | none => do
    let decoded ← Text.Utf8.decode? (Text.Percent.decode text)
    let name ← DomainName.ascii? decoded
    if name.isEmpty ∨ name.any forbiddenInDomain then none
    else if endsInNumber name then (ipv4? name).map .ipv4
    else some (.domain name)

/-- Read the host of any other scheme; it may be empty. -/
def opaqueHost? (text : List Char) : Option Host :=
  match bracketed? text with
  | some address => address
  | none =>
    if text.any forbiddenInOpaque then none
    else some (.domain (Text.Percent.encode isControl text))

/-- A number below 65536 in lower-case hexadecimal digits. -/
def hexText (n : Nat) : List Char := Nat.toDigits 16 n

/-- Length of the run of zeros at the start of each place of a list. -/
def zeroRuns : List Nat → List Nat
  | [] => []
  | g :: rest => (if g = 0 then (zeroRuns rest).headD 0 + 1 else 0) :: zeroRuns rest

/-- Where the longest run of at least two zeros starts, and its length; the first of equals. -/
def longestZeros (groups : List Nat) : Option (Nat × Nat) :=
  (zeroRuns groups).zipIdx.foldl (fun best p =>
    match best with
    | none => if 2 ≤ p.1 then some (p.2, p.1) else none
    | some (_, n) => if n < p.1 then some (p.2, p.1) else best) none

def joinGroups (groups : List Nat) : List Char := [':'].intercalate (groups.map hexText)

namespace Host

def text : Host → List Char
  | domain name => name
  | ipv4 address =>
    ['.'].intercalate ([address / 16777216 % 256, address / 65536 % 256, address / 256 % 256,
      address % 256].map (Nat.toDigits 10))
  | ipv6 groups =>
    match longestZeros groups with
    | none => '[' :: joinGroups groups ++ [']']
    | some (start, n) =>
      '[' :: joinGroups (groups.take start) ++ "::".toList ++
        joinGroups (groups.drop (start + n)) ++ [']']

end Host

end FusionAtlas.Url
