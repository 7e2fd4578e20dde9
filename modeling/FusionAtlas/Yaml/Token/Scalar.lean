import FusionAtlas.Yaml.Token

/-!
The written forms of a scalar: plain, quoted, and block. Each reader starts behind the mark that
chose it and answers with the text meant, the place behind it and the characters left.

Line breaks inside plain and quoted scalars are folded: a single newline becomes a space, and of
several newlines the first is dropped.
-/

set_option autoImplicit false
set_option relaxedAutoImplicit false

namespace FusionAtlas.Yaml

def isGap (c : Char) : Bool := c == ' ' || c == '\t'

/-- A character that ends a line, once all kinds of newline are written alike. -/
def isBreak (c : Char) : Bool := c == '\n' || c == '\u2028' || c == '\u2029'

/-- A gap, a line break, or the end of the text is next. -/
def atGap : List Char → Bool
  | [] => true
  | c :: _ => isGap c || isBreak c

/-- A marker that starts or ends a document is next, given that a line starts here. -/
def atDocumentMarker : List Char → Bool
  | '-' :: '-' :: '-' :: rest => atGap rest
  | '.' :: '.' :: '.' :: rest => atGap rest
  | _ => false

/-- What was read, and where reading goes on. -/
structure Scanned (α : Type) where
  value : α
  place : Place
  rest : List Char

/-- Blanks and line breaks between two words. -/
structure Interval where
  blanks : List Char
  breaks : List Char
  crossesLine : Bool

namespace Interval

/-- Line breaks as they count inside a scalar. -/
def fold : List Char → List Char
  | [] => []
  | c :: more => if c = '\n' then (if more.isEmpty then [' '] else more) else c :: more

/-- What the interval adds to the scalar when a word follows. -/
def text (interval : Interval) : List Char :=
  if interval.crossesLine then fold interval.breaks else interval.blanks

/-- Read an interval. On a new line, a tab left of the margin is a fault. -/
def read (margin : Nat) (found : Interval) :
    Place → List Char → Except Fault (Scanned Interval)
  | place, [] => .ok ⟨found, place, []⟩
  | place, c :: rest =>
    if isBreak c then
      read margin ⟨[], found.breaks ++ [c], true⟩ place.nextLine rest
    else if isGap c then
      if found.crossesLine then
        if c = '\t' ∧ place.column < margin then .error (.tabInIndentation place)
        else read margin found (place.past [c]) rest
      else read margin { found with blanks := found.blanks ++ [c] } (place.past [c]) rest
    else .ok ⟨found, place, c :: rest⟩

end Interval

/-- The nothing between two words that touch. -/
def Interval.nothing : Interval := ⟨[], [], false⟩

namespace Plain

/-- The characters that end a plain word inside brackets. -/
def endsInFlow (c : Char) : Bool := c == ',' || c == '[' || c == ']' || c == '\x7b' || c == '\x7d'

/-- The longest plain word. It ends before a gap, before a colon that a gap follows, and inside
brackets before their marks; there a colon must not touch such a mark. -/
def readWord (inFlow : Bool) (place : Place) : List Char → Except Fault (List Char × List Char)
  | [] => .ok ([], [])
  | c :: rest =>
    if isGap c || isBreak c then .ok ([], c :: rest)
    else if inFlow && c == ':' && (rest.head?.any fun d => endsInFlow d || d == '?') then
      .error (.unexpectedCharacter place)
    else if (c == ':' && atGap rest) || (inFlow && endsInFlow c) then .ok ([], c :: rest)
    else (readWord inFlow place rest).map fun word => (c :: word.1, word.2)

/-- Read words and the intervals between them. A continued line is indented to the margin, unless
the scalar stands inside brackets. The flag tells whether the scalar is followed by a new line. -/
def readFrom (inFlow : Bool) (margin : Nat) :
    Nat → List Char → Interval → Place → List Char → Except Fault (Scanned (List Char × Bool))
  | 0, text, before, place, rest => .ok ⟨(text, before.crossesLine), place, rest⟩
  | fuel + 1, text, before, place, rest => do
    if (place.column = 0 && atDocumentMarker rest) || rest.head? == some '#' then
      return ⟨(text, before.crossesLine), place, rest⟩
    let (word, rest) ← readWord inFlow place rest
    let place := place.past word
    let text := if word.isEmpty then text else text ++ before.text ++ word
    let before := if word.isEmpty then before else .nothing
    if rest.isEmpty || !atGap rest then
      return ⟨(text, before.crossesLine), place, rest⟩
    let after ← Interval.read margin before place rest
    if !inFlow && after.place.column < margin then
      return ⟨(text, after.value.crossesLine), after.place, after.rest⟩
    readFrom inFlow margin fuel text after.value after.place after.rest

def read (inFlow : Bool) (margin : Nat) (place : Place) (rest : List Char) :
    Except Fault (Scanned (List Char × Bool)) :=
  readFrom inFlow margin (rest.length + 1) [] .nothing place rest

end Plain

namespace Quoted

def simpleEscape? : Char → Option Char
  | '0' => some '\x00'
  | 'a' => some '\x07'
  | 'b' => some '\x08'
  | 't' | '\t' => some '\t'
  | 'n' => some '\n'
  | 'v' => some '\x0b'
  | 'f' => some '\x0c'
  | 'r' => some '\r'
  | 'e' => some '\x1b'
  | ' ' => some ' '
  | '"' => some '"'
  | '/' => some '/'
  | '\\' => some '\\'
  | 'N' => some '\u0085'
  | '_' => some '\u00a0'
  | 'L' => some '\u2028'
  | 'P' => some '\u2029'
  | _ => none

/-- Number of digits behind the letter of a numeric escape. -/
def escapeWidth? : Char → Option Nat
  | 'x' => some 2
  | 'u' => some 4
  | 'U' => some 8
  | _ => none

def hexDigit? (c : Char) : Option Nat :=
  if c.isDigit then some (c.toNat - '0'.toNat)
  else if 'a' ≤ c ∧ c ≤ 'f' then some (c.toNat - 'a'.toNat + 10)
  else if 'A' ≤ c ∧ c ≤ 'F' then some (c.toNat - 'A'.toNat + 10)
  else none

/-- The character with a code given in hexadecimal digits. -/
def charOfHex? (width : Nat) (digits : List Char) : Option Char := do
  if digits.length < width then none
  let values ← (digits.take width).mapM hexDigit?
  let code := values.foldl (fun n d => n * 16 + d) 0
  if h : code.isValidChar then some (Char.ofNatAux code h) else none

def prepend (text : List Char) (found : Except Fault (Scanned (List Char))) :
    Except Fault (Scanned (List Char)) :=
  found.map fun scanned => { scanned with value := text ++ scanned.value }

/-- Read up to the closing quote. In double quotes a backslash starts an escape, and one at the end
of a line drops the break; in single quotes the quote itself is written twice. -/
def readFrom (quote : Char) :
    Nat → Place → List Char → Except Fault (Scanned (List Char))
  | 0, place, _ => .error (.unendedQuote place)
  | _ + 1, place, [] => .error (.unendedQuote place)
  | fuel + 1, place, c :: rest => do
    if place.column = 0 && atDocumentMarker (c :: rest) then .error (.unexpectedCharacter place)
    else if c = quote then
      match quote, rest with
      | '\'', '\'' :: more => prepend ['\''] (readFrom quote fuel (place.past [c, c]) more)
      | _, _ => .ok ⟨[], place.past [c], rest⟩
    else if c = '\\' ∧ quote = '"' then
      match rest with
      | [] => .error (.unendedQuote place)
      | letter :: more =>
        if isBreak letter then
          let after ← Interval.read 0 ⟨[], [], true⟩ place.nextLine more
          prepend after.value.breaks (readFrom quote fuel after.place after.rest)
        else
          match simpleEscape? letter, escapeWidth? letter with
          | some meant, _ => prepend [meant] (readFrom quote fuel (place.past [c, letter]) more)
          | none, some width =>
            match charOfHex? width more with
            | some meant =>
              let place := place.past (c :: letter :: more.take width)
              prepend [meant] (readFrom quote fuel place (more.drop width))
            | none => .error (.unknownEscape place)
          | none, none => .error (.unknownEscape place)
    else if isGap c || isBreak c then
      let after ← Interval.read 0 .nothing place (c :: rest)
      prepend after.value.text (readFrom quote fuel after.place after.rest)
    else prepend [c] (readFrom quote fuel (place.past [c]) rest)

/-- Read a quoted scalar behind its opening quote. -/
def read (quote : Char) (place : Place) (rest : List Char) :
    Except Fault (Scanned (List Char)) :=
  readFrom quote (rest.length + 1) place rest

end Quoted

namespace Block

/-- What happens to the line breaks at the end. -/
inductive Chomping where
  | strip | clip | keep
  deriving DecidableEq, Repr

/-- What the header of a block scalar says. -/
structure Header where
  chomping : Chomping
  indentation : Nat

/-- The sign that chooses a chomping. -/
def chomping? : Char → Option Chomping
  | '+' => some .keep
  | '-' => some .strip
  | _ => none

/-- The marks behind the bar or angle: a sign and a digit from one to nine, in either order. -/
def readHeader (place : Place) (rest : List Char) : Except Fault (Scanned Header) :=
  let sign? (cs : List Char) := cs.head?.bind chomping?
  let digit? (cs : List Char) := (cs.head?.filter Char.isDigit).map fun c => c.toNat - '0'.toNat
  let first := sign? rest
  let rest₁ := if first.isSome then rest.tail else rest
  let width := digit? rest₁
  let rest₂ := if width.isSome then rest₁.tail else rest₁
  let second := if first.isNone && width.isSome then sign? rest₂ else none
  let rest₃ := if second.isSome then rest₂.tail else rest₂
  if width = some 0 then .error (.malformedBlockHeader place)
  else
    .ok ⟨⟨(first.or second).getD .clip, width.getD 0⟩,
      place.past (rest.take (rest.length - rest₃.length)), rest₃⟩

/-- Skip the indentation of the next line and the empty lines before it. An indentation of zero is
not known yet; then the widest is found. -/
def readIndentation (indentation : Nat) (widest : Nat) (breaks : List Char) :
    Place → List Char → Except Fault (Scanned (List Char × Nat))
  | place, [] => .ok ⟨(breaks, max widest place.column), place, []⟩
  | place, c :: rest =>
    let within := indentation = 0 ∨ place.column < indentation
    if within ∧ c = ' ' then readIndentation indentation widest breaks (place.past [c]) rest
    else if within ∧ c = '\t' then .error (.tabInIndentation place)
    else if isBreak c then
      readIndentation indentation (max widest place.column) (breaks ++ [c]) place.nextLine rest
    else .ok ⟨(breaks, max widest place.column), place, c :: rest⟩

/-- What two lines of a scalar are joined by: their line break and the empty lines between them. In
a folded scalar the break is folded unless one of the lines starts with a blank. -/
def joint (literal previousBlank nextBlank : Bool) (lineBreak emptyLines : List Char) :
    List Char :=
  if !literal && lineBreak == ['\n'] && !previousBlank && !nextBlank then
    (if emptyLines.isEmpty then [' '] else emptyLines)
  else lineBreak ++ emptyLines

def readLines (literal : Bool) (header : Header) (indentation : Nat) :
    Nat → (text lineBreak emptyLines : List Char) → Bool → Place → List Char →
      Except Fault (Scanned (List Char))
  | 0, text, _, _, _, place, rest => .ok ⟨text, place, rest⟩
  | fuel + 1, text, lineBreak, emptyLines, previousBlank, place, rest => do
    if place.column ≠ indentation || rest.isEmpty then
      let tail := match header.chomping with
        | .strip => []
        | .clip => lineBreak
        | .keep => lineBreak ++ emptyLines
      return ⟨text ++ tail, place, rest⟩
    let nextBlank := rest.head?.any isGap
    let line := rest.takeWhile fun c => !isBreak c
    let below := rest.dropWhile fun c => !isBreak c
    let text := text ++ joint literal previousBlank nextBlank lineBreak emptyLines ++ line
    let place := if below.isEmpty then place.past line else place.nextLine
    let next ← readIndentation indentation 0 [] place below.tail
    readLines literal header indentation fuel text (below.take 1) next.value.1 nextBlank
      next.place next.rest

/-- Read a block scalar behind its bar or angle. -/
def read (literal : Bool) (margin : Nat) (place : Place) (rest : List Char) :
    Except Fault (Scanned (List Char)) := do
  let header ← readHeader place rest
  let blanks := header.rest.takeWhile isGap
  let behind := header.rest.dropWhile isGap
  let comment := if behind.head? == some '#' then behind.takeWhile (fun c => !isBreak c) else []
  let below := behind.drop comment.length
  match below with
  | c :: _ => if !isBreak c then throw (.malformedBlockHeader header.place)
  | [] => pure ()
  let place :=
    if below.isEmpty then header.place.past (blanks ++ comment)
    else header.place.nextLine
  let given := if header.value.indentation = 0 then 0 else (margin - 1) + header.value.indentation
  let first ← readIndentation given 0 [] place below.tail
  let indentation := if given = 0 then max 1 (max margin first.value.2) else given
  readLines literal header.value indentation (rest.length + 1) [] [] first.value.1 false
    first.place first.rest

end Block

end FusionAtlas.Yaml
