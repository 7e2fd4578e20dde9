import FusionAtlas.Text.Utf8
import FusionAtlas.Yaml.Token.Scalar

/-!
From a text to its tokens. A key of a mapping shows only at the colon behind it, so whatever may be
a key is remembered, and the colon announces it afterwards. Outside brackets, indentation opens and
closes collections: a collection's margin is one more than the column of its entries.
-/

set_option autoImplicit false
set_option relaxedAutoImplicit false

namespace FusionAtlas.Yaml

/-- A token, and whether it is a key, and the first key of a mapping. -/
structure Slot where
  token : Token
  isKey : Bool
  opensMapping : Bool
  deriving DecidableEq, Repr, Inhabited

/-- The tokens a slot stands for. -/
def Slot.tokens (slot : Slot) : List Token :=
  (if slot.opensMapping then [.blockMappingStart] else []) ++
    (if slot.isKey then [.key] else []) ++ [slot.token]

/-- A token that is a key if a colon follows on its line. It is required to be one if it stands
where only a key can stand. -/
structure Candidate where
  slot : Nat
  place : Place
  required : Bool
  deriving DecidableEq, Repr

/-- Where lexing stands. -/
structure Layout where
  /-- Margin of the innermost indented collection, zero outside of all. -/
  margin : Nat
  /-- Margins of the collections around it. -/
  outer : List Nat
  /-- The candidate of the innermost brackets, or outside brackets. -/
  candidate : Option Candidate
  /-- The candidates around it, one for each open bracket. -/
  enclosing : List (Option Candidate)
  /-- A key may start here. -/
  keyAllowed : Bool
  /-- Tokens so far. -/
  slots : Array Slot

namespace Layout

def start : Layout := ⟨0, [], none, [], true, #[]⟩

/-- Inside brackets. -/
def inFlow (layout : Layout) : Bool := !layout.enclosing.isEmpty

def push (layout : Layout) (token : Token) : Layout :=
  { layout with slots := layout.slots.push ⟨token, false, false⟩ }

/-- Enter an indented collection if the column lies beyond the current one. -/
def indent (layout : Layout) (column : Nat) : Layout × Bool :=
  if !layout.inFlow && layout.margin ≤ column then
    ({ layout with margin := column + 1, outer := layout.margin :: layout.outer }, true)
  else (layout, false)

/-- Leave the collections with a margin beyond the given one. -/
def leaveTo (margin : Nat) (current : Nat) : List Nat → Array Slot → Nat × List Nat × Array Slot
  | outer, slots =>
    if current ≤ margin then (current, outer, slots)
    else
      match outer with
      | [] => (0, [], slots.push ⟨.blockEnd, false, false⟩)
      | next :: more => leaveTo margin next more (slots.push ⟨.blockEnd, false, false⟩)
termination_by outer => outer.length

/-- Leave the indented collections that a line at the margin does not belong to. -/
def dedent (layout : Layout) (margin : Nat) : Layout :=
  if layout.inFlow then layout
  else
    let (margin, outer, slots) := leaveTo margin layout.margin layout.outer layout.slots
    { layout with margin, outer, slots }

/-- Give up the candidate; one that is required must not be given up. -/
def dropCandidate (layout : Layout) : Except Fault Layout :=
  match layout.candidate with
  | some candidate =>
    if candidate.required then .error (.keyWithoutValue candidate.place)
    else .ok { layout with candidate := none }
  | none => .ok layout

/-- The next token may be a key, if a key may start here. -/
def markCandidate (layout : Layout) (place : Place) : Except Fault Layout :=
  if layout.keyAllowed then do
    let layout ← layout.dropCandidate
    let required := !layout.inFlow && layout.margin == place.column + 1
    return { layout with candidate := some ⟨layout.slots.size, place, required⟩ }
  else .ok layout

/-- A candidate holds on its own line, for at most 1024 bytes. -/
def Candidate.holdsAt (candidate : Candidate) (place : Place) : Bool :=
  candidate.place.line == place.line && place.bytes ≤ candidate.place.bytes + 1024

/-- Give up the candidate if it does not hold any more. -/
def refreshCandidate (layout : Layout) (place : Place) : Except Fault Layout :=
  match layout.candidate with
  | some candidate => if Candidate.holdsAt candidate place then .ok layout else layout.dropCandidate
  | none => .ok layout

/-- Announce the slot as a key. -/
def announceKey (layout : Layout) (candidate : Candidate) : Layout :=
  let (layout, opens) := layout.indent candidate.place.column
  { layout with
    candidate := none
    keyAllowed := false
    slots := layout.slots.modify candidate.slot fun slot =>
      { slot with isKey := true, opensMapping := opens } }

/-- A colon: the candidate becomes a key, or a key is left out. -/
def value (layout : Layout) (place : Place) : Except Fault Layout := do
  let layout ← layout.refreshCandidate place
  match layout.candidate with
  | some candidate => return (layout.announceKey candidate).push .value
  | none =>
    if !layout.inFlow && !layout.keyAllowed then throw (.valueNotAllowed place)
    let (layout, opens) := layout.indent place.column
    let layout := if opens then layout.push .blockMappingStart else layout
    return { layout.push .value with keyAllowed := !layout.inFlow }

/-- A question mark: what follows is a key. -/
def explicitKey (layout : Layout) (place : Place) : Except Fault Layout := do
  if !layout.inFlow && !layout.keyAllowed then throw (.keyNotAllowed place)
  let (layout, opens) := layout.indent place.column
  let layout ← (if opens then layout.push .blockMappingStart else layout).dropCandidate
  return { layout.push .key with keyAllowed := !layout.inFlow }

/-- A dash: an entry of an indented sequence. -/
def blockEntry (layout : Layout) (place : Place) : Except Fault Layout := do
  if !layout.inFlow && !layout.keyAllowed then throw (.entryNotAllowed place)
  let (layout, opens) := layout.indent place.column
  let layout ← (if opens then layout.push .blockSequenceStart else layout).dropCandidate
  return { layout.push .blockEntry with keyAllowed := true }

def openFlow (layout : Layout) (place : Place) (token : Token) : Except Fault Layout := do
  let layout ← layout.markCandidate place
  return { layout.push token with
    candidate := none, enclosing := layout.candidate :: layout.enclosing, keyAllowed := true }

def closeFlow (layout : Layout) (token : Token) : Except Fault Layout := do
  let layout ← layout.dropCandidate
  let layout := { layout.push token with keyAllowed := false }
  match layout.enclosing with
  | candidate :: more => return { layout with candidate, enclosing := more }
  | [] => return layout

def flowEntry (layout : Layout) : Except Fault Layout := do
  let layout ← layout.dropCandidate
  return { layout.push .flowEntry with keyAllowed := true }

/-- A token that may be a key. -/
def node (layout : Layout) (place : Place) (token : Token) (keyAllowed : Bool) :
    Except Fault Layout := do
  let layout ← layout.markCandidate place
  return { layout.push token with keyAllowed }

/-- A directive or a marker at the start of a line closes everything indented. -/
def atMargin (layout : Layout) (token : Token) : Except Fault Layout := do
  let layout ← (layout.dedent 0).dropCandidate
  return { layout.push token with keyAllowed := false }

def finish (layout : Layout) : Except Fault (List Token) := do
  let layout ← (layout.dedent 0).dropCandidate
  return layout.slots.toList.flatMap Slot.tokens

end Layout

namespace Lexer

/-- A character of names, handles and directives. -/
def isWordChar (c : Char) : Bool := c.isAlphanum || c == '_' || c == '-'

/-- Skip blanks, comments and line breaks before a token, and a byte order mark at the start of a
line. A tab is skipped only where no indentation is read. After a line break outside brackets a key
may start. -/
def skipGap (inFlow : Bool) (keyAllowed inComment : Bool) :
    Place → List Char → Scanned Bool
  | place, [] => ⟨keyAllowed, place, []⟩
  | place, c :: rest =>
    if isBreak c then skipGap inFlow (keyAllowed || !inFlow) false place.nextLine rest
    else if inComment || c == '#' then skipGap inFlow keyAllowed true (place.past [c]) rest
    else if c == ' ' || (c == '\t' && (inFlow || !keyAllowed)) ||
        (c == '\uFEFF' && place.column == 0) then
      skipGap inFlow keyAllowed false (place.past [c]) rest
    else ⟨keyAllowed, place, c :: rest⟩

/-- The name of an anchor or alias, behind its mark. -/
def readName (place : Place) (rest : List Char) : Except Fault (Scanned (List Char)) :=
  let name := rest.takeWhile isWordChar
  let behind := rest.dropWhile isWordChar
  if name.isEmpty || !(atGap behind || behind.head?.any fun c => "?:,]\x7d%@`".toList.contains c) then
    .error (.malformedAnchor place)
  else .ok ⟨name, place.past name, behind⟩

/-- A character of a tag; some marks only stand in a tag between angle brackets. -/
def isTagChar (bracketed : Bool) (c : Char) : Bool :=
  isWordChar c || ";/?:@&=+$.%!~*'()".toList.contains c || (bracketed && ",[]".toList.contains c)

def decodeEscapes : List Char → Option (List UInt8)
  | [] => some []
  | '%' :: a :: b :: rest => do
    let high ← Quoted.hexDigit? a
    let low ← Quoted.hexDigit? b
    return UInt8.ofNat (high * 16 + low) :: (← decodeEscapes rest)
  | '%' :: _ => none
  | c :: rest => (decodeEscapes rest).map (Text.Utf8.encode [c] ++ ·)

/-- The longest run of tag characters, decoded. -/
def readTagText (bracketed : Bool) (place : Place) (rest : List Char) :
    Except Fault (Scanned (List Char)) :=
  let written := rest.takeWhile (isTagChar bracketed)
  match (decodeEscapes written).bind Text.Utf8.decode? with
  | some text => .ok ⟨text, place.past written, rest.drop written.length⟩
  | none => .error (.malformedTag place)

/-- Split a handle off: an exclamation mark, and more up to another one if there is one. -/
def splitHandle (rest : List Char) : List Char × List Char :=
  match rest with
  | '!' :: more =>
    let word := more.takeWhile isWordChar
    match more.dropWhile isWordChar with
    | '!' :: behind => ('!' :: (word ++ ['!']), behind)
    | behind => ('!' :: word, behind)
  | _ => ([], rest)

/-- A tag, from its exclamation mark on. -/
def readTag (inFlow : Bool) (place : Place) (rest : List Char) :
    Except Fault (Scanned Token) := do
  let found : Scanned Token ← match rest with
    | '!' :: '<' :: more => do
      let text ← readTagText true (place.past "!<".toList) more
      match text.value, text.rest with
      | _ :: _, '>' :: behind => pure ⟨.tag [] text.value, text.place.past ['>'], behind⟩
      | _, _ => throw (.malformedTag place)
    | _ => do
      let (handle, behind) := splitHandle rest
      if handle.length > 1 ∧ handle.getLast? = some '!' then
        let text ← readTagText false (place.past handle) behind
        if text.value.isEmpty then throw (.malformedTag place)
        pure ⟨.tag handle text.value, text.place, text.rest⟩
      else
        let text ← readTagText false (place.past handle) behind
        let suffix := handle.drop 1 ++ text.value
        pure ⟨if suffix.isEmpty then .tag [] ['!'] else .tag ['!'] suffix, text.place, text.rest⟩
  if atGap found.rest || (inFlow && found.rest.head? == some ',') then return found
  else throw (.malformedTag place)

/-- A number of at most nine digits. -/
def readVersionNumber (rest : List Char) : Option (Nat × List Char) :=
  let digits := rest.takeWhile Char.isDigit
  if digits.isEmpty || digits.length > 9 then none
  else
    some (digits.foldl (fun n d => n * 10 + (d.toNat - '0'.toNat)) 0, rest.drop digits.length)

/-- What a directive says, behind its name. -/
def readDirectiveValue (name : List Char) (rest : List Char) : Option (Token × List Char) :=
  if name = "YAML".toList then do
    let (major, rest) ← readVersionNumber (rest.dropWhile isGap)
    match rest with
    | '.' :: rest =>
      let (minor, rest) ← readVersionNumber rest
      some (.versionDirective major minor, rest)
    | _ => none
  else if name = "TAG".toList then do
    let rest := rest.dropWhile isGap
    let (handle, behind) := splitHandle rest
    if handle.isEmpty ∨ (handle ≠ ['!'] ∧ handle.getLast? ≠ some '!') then none
    match behind with
    | c :: _ =>
      if !isGap c then none
      let behind := behind.dropWhile isGap
      let written := behind.takeWhile (isTagChar true)
      let start ← (decodeEscapes written).bind Text.Utf8.decode?
      let behind := behind.drop written.length
      if start.isEmpty || !atGap behind then none
      some (.tagDirective handle start, behind)
    | [] => none
  else none

/-- A directive, behind its percent sign, with the comment on its line. -/
def readDirective (place : Place) (rest : List Char) : Except Fault (Scanned Token) :=
  let name := rest.takeWhile isWordChar
  let behind := rest.dropWhile isWordChar
  if name.isEmpty || !atGap behind then .error (.malformedDirective place)
  else
    match readDirectiveValue name behind with
    | none => .error (.malformedDirective place)
    | some (token, behind) =>
      let behind := behind.dropWhile isGap
      let below := if behind.head? == some '#' then behind.dropWhile (fun c => !isBreak c) else behind
      match below with
      | [] => .ok ⟨token, place.past ('%' :: rest), []⟩
      | c :: rest =>
        if isBreak c then .ok ⟨token, place.nextLine, rest⟩ else .error (.malformedDirective place)

/-- A mark that starts no plain scalar. -/
def isIndicator (c : Char) : Bool := "-?:,[]\x7b\x7d#&*!|>'\"%@`".toList.contains c

/-- A plain scalar may start here. -/
def startsPlain (inFlow : Bool) (c : Char) (rest : List Char) : Bool :=
  !(isGap c || isBreak c || isIndicator c) || (c == '-' && !(rest.head?.any isGap)) ||
    (!inFlow && (c == '?' || c == ':') && !atGap rest)

def step (layout : Layout) (place : Place) (c : Char) (rest : List Char) :
    Except Fault (Scanned Layout) := do
  let next := place.past [c]
  let gap := atGap rest
  if place.column = 0 ∧ c = '%' then
    let found ← readDirective place rest
    return { found with value := ← layout.atMargin found.value }
  if place.column = 0 ∧ atDocumentMarker (c :: rest) then
    let token := if c = '-' then Token.documentStart else .documentEnd
    return ⟨← layout.atMargin token, place.past (c :: rest.take 2), rest.drop 2⟩
  match c with
  | '[' => return ⟨← layout.openFlow place .flowSequenceStart, next, rest⟩
  | '\x7b' => return ⟨← layout.openFlow place .flowMappingStart, next, rest⟩
  | ']' => return ⟨← layout.closeFlow .flowSequenceEnd, next, rest⟩
  | '\x7d' => return ⟨← layout.closeFlow .flowMappingEnd, next, rest⟩
  | ',' => return ⟨← layout.flowEntry, next, rest⟩
  | '*' =>
    let found ← readName next rest
    return { found with value := ← layout.node place (.aliasName found.value) false }
  | '&' =>
    let found ← readName next rest
    return { found with value := ← layout.node place (.anchor found.value) false }
  | '!' =>
    let found ← readTag layout.inFlow place (c :: rest)
    return { found with value := ← layout.node place found.value false }
  | '\'' | '"' =>
    let found ← Quoted.read c next rest
    return { found with value := ← layout.node place (.scalar found.value false) false }
  | _ =>
    if c = '-' ∧ gap then return ⟨← layout.blockEntry place, next, rest⟩
    else if c = '?' ∧ (layout.inFlow ∨ gap) then return ⟨← layout.explicitKey place, next, rest⟩
    else if c = ':' ∧ (layout.inFlow ∨ gap) then return ⟨← layout.value place, next, rest⟩
    else if (c = '|' ∨ c = '>') ∧ !layout.inFlow then
      let layout ← layout.dropCandidate
      let found ← Block.read (c == '|') layout.margin next rest
      return { found with value := { layout.push (.scalar found.value false) with keyAllowed := true } }
    else if startsPlain layout.inFlow c rest then
      let found ← Plain.read layout.inFlow layout.margin place (c :: rest)
      return { found with
        value := ← layout.node place (.scalar found.value.1 true) found.value.2 }
    else throw (.unexpectedCharacter place)

/-- Read tokens to the end. Every step takes at least one character. -/
def run : Nat → Layout → Place → List Char → Except Fault (List Token)
  | 0, layout, _, _ => layout.finish
  | fuel + 1, layout, place, rest => do
    let found := skipGap layout.inFlow layout.keyAllowed false place rest
    let layout := { layout with keyAllowed := found.value }
    match found.rest with
    | [] => layout.finish
    | c :: rest =>
      let layout ← (layout.dedent (found.place.column + 1)).refreshCandidate found.place
      let next ← step layout found.place c rest
      run fuel next.value next.place next.rest

def isAllowed (c : Char) : Bool :=
  let n := c.toNat
  n == 0x09 || n == 0x0A || n == 0x0D || (0x20 ≤ n && n ≤ 0x7E) || n == 0x85 ||
    (0xA0 ≤ n && n ≤ 0xFFFD) || 0x10000 ≤ n

/-- Write every kind of newline alike. -/
def unifyNewlines : List Char → List Char
  | '\r' :: '\n' :: rest => '\n' :: unifyNewlines rest
  | '\r' :: rest => '\n' :: unifyNewlines rest
  | '\u0085' :: rest => '\n' :: unifyNewlines rest
  | c :: rest => c :: unifyNewlines rest
  | [] => []

def tokens (text : List Char) : Except Fault (List Token) :=
  match text.find? fun c => !isAllowed c with
  | some c => .error (.forbiddenCharacter c)
  | none => run (text.length + 1) .start .start (unifyNewlines text)

end Lexer

end FusionAtlas.Yaml
