import FusionAtlas.Template.ExpressionReader
import FusionAtlas.Template.Statement
import FusionAtlas.Token.Lexer

/-!
Reading statements. The grammar:

* statement: an include line, a `namespace:` line (which declares nothing), or an object
* object: path (`=` value | `<` path | `>`)? block?
* block: statements in braces
* path: segments joined by dots
* segment: `prototype(` component `)`, `@` identifier, identifier, number or string
* component: identifiers and numbers joined by dots and a colon, with nothing in between

A token that starts no statement is reported and skipped, so reading always reaches the end.
-/

set_option autoImplicit false
set_option relaxedAutoImplicit false

namespace FusionAtlas.Template

open FusionAtlas.Text (byteSize trim dropBytes)

/-- Kinds a component name may consist of behind its first token. -/
def continuesComponent : TokenKind → Bool
  | .ident | .number | .dot | .colon => true
  | _ => false

/-- How many tokens from here on go on with a component name that has reached `lastEnd`. -/
def componentLength (lastEnd : Nat) : List Token → Nat
  | [] => 0
  | t :: ts =>
    if continuesComponent t.kind ∧ t.start = lastEnd then componentLength t.stop ts + 1 else 0

/-- The cursor behind the next `n` tokens. -/
def Cursor.skip (c : Cursor) (n : Nat) : Cursor :=
  { c with
    rest := c.rest.drop n
    lastEnd := ((c.rest.take n).getLast?.map Token.stop).getD c.lastEnd }

@[simp] theorem Cursor.remaining_skip (c : Cursor) (n : Nat) :
    (c.skip n).remaining = c.remaining - n := by
  simp [Cursor.skip, Cursor.remaining]

/-- Read a component name whose first token is already read. A name without a colon is
reported. -/
def component (source : Source) (first : Token) (c : Cursor) : Step c (String × ByteRange) :=
  let n := componentLength c.lastEnd c.rest
  let range : ByteRange := ⟨first.start, (c.skip n).lastEnd⟩
  let after := (c.skip n).need source range
  if (c.rest.take n).any (·.kind = .colon) then
    ⟨(quote source range, range), after, by simp [after]⟩
  else
    ⟨(quote source range, range), after.failAt .componentUnqualified range, by simp [after]⟩

/-- Read a component name if one starts here. -/
def component? (source : Source) (c : Cursor) : Option (Step c (String × ByteRange)) :=
  match h : c.rest with
  | t :: ts =>
    if t.kind = .ident ∨ t.kind = .number then
      some ((component source t (c.past t ts)).weaken (Cursor.remaining_past_le h))
    else none
  | [] => none

/-- Read what stands in the parentheses of a `prototype` segment, the closing one included. -/
def prototypeName (source : Source) (c : Cursor) : Step c String :=
  match component? source c with
  | some ⟨name, c₁, h₁⟩ =>
    ⟨name.1, c₁.expect source.size .rightParen (.closingExpected ')'), by
      have := c₁.remaining_expect_le source.size .rightParen (.closingExpected ')')
      omega⟩
  | none =>
    let c₁ := c.fail source.size .componentExpected
    ⟨"", c₁.expect source.size .rightParen (.closingExpected ')'), by
      have := c₁.remaining_expect_le source.size .rightParen (.closingExpected ')')
      simpa [c₁] using this⟩

/-- Read the name behind an `@`, which must follow at once. -/
def metaName (source : Source) (c : Cursor) : Step c String :=
  match h : c.rest with
  | t :: ts =>
    if t.kind = .ident ∧ t.start = c.lastEnd then
      ⟨t.text, c.past t ts, Cursor.remaining_past_le h⟩
    else ⟨"", c.fail source.size .metaNameExpected, c.remaining_fail_le _ _⟩
  | [] => ⟨"", c.fail source.size .metaNameExpected, c.remaining_fail_le _ _⟩

/-- Read a path segment that starts with token `t`, if it can start one. -/
def segmentFrom (source : Source) (c : Cursor) (t : Token) (ts : List Token) :
    Option (Step (c.past t ts) PathSegment) :=
  match t.kind with
  | .ident =>
    match ts with
    | u :: us =>
      if t.text = "prototype" ∧ u.kind = .leftParen then
        let name := prototypeName source ((c.past t (u :: us)).past u us)
        some ⟨.prototype ⟨t.start, name.cursor.lastEnd⟩ name.value, name.cursor, by
          have := name.le
          simp only [Cursor.remaining_past, List.length_cons] at this ⊢; omega⟩
      else some (.pure (.plain t.range t.text))
    | [] => some (.pure (.plain t.range t.text))
  | .number => some (.pure (.plain t.range t.text))
  | .string => some (.pure (.plain t.range (unquote t.text)))
  | .at =>
    let name := metaName source (c.past t ts)
    some ⟨.property ⟨t.start, name.cursor.lastEnd⟩ name.value, name.cursor, name.le⟩
  | _ => none

/-- Kinds a path segment may start with. -/
def startsSegment : TokenKind → Bool
  | .ident | .number | .string | .at => true
  | _ => false

/-- Read a dot and the path segment behind it, if both are there. -/
def dottedSegment? (source : Source) (c : Cursor) :
    Option { s : Step c PathSegment // s.cursor.remaining < c.remaining } :=
  match h : c.rest with
  | dot :: t :: ts =>
    if dot.kind = .dot ∧ startsSegment t.kind then
      match segmentFrom source (c.past dot (t :: ts)) t ts with
      | some ⟨segment, c₁, h₁⟩ =>
        have lt : c₁.remaining < c.remaining := by
          have := Cursor.remaining_of_rest h
          simp only [Cursor.remaining_past, List.length_cons] at this h₁
          omega
        some ⟨⟨segment, c₁, Nat.le_of_lt lt⟩, lt⟩
      | none => none
    else none
  | _ => none

/-- Read the segments of a path that follow dots. -/
def pathTail (source : Source) (c : Cursor) : Step c (List PathSegment) :=
  match dottedSegment? source c with
  | none => .pure []
  | some ⟨s, _lt⟩ => ((pathTail source s.cursor).map (s.value :: ·)).weaken s.le
termination_by c.remaining

/-- Read a path if one starts here. -/
def path? (source : Source) (c : Cursor) : Option (Step c Path) :=
  match h : c.rest with
  | t :: ts =>
    match segmentFrom source c t ts with
    | some ⟨first, c₁, h₁⟩ =>
      let others := pathTail source c₁
      some ⟨⟨first, others.value⟩, others.cursor, by
        have := Cursor.remaining_of_rest h
        have := others.le
        simp only [Cursor.remaining_past] at h₁; omega⟩
    | none => none
  | [] => none

theorem path?_lt {source : Source} {c : Cursor} {s : Step c Path}
    (h : path? source c = some s) : s.cursor.remaining < c.remaining := by
  unfold path? at h
  split at h
  · next t ts hr =>
    have h₀ := Cursor.remaining_of_rest hr
    split at h
    · next first c₁ h₁ _ =>
      cases h
      have := (pathTail source c₁).le
      simp at h₁ ⊢
      omega
    · simp at h
  · simp at h

/-- Number of tokens up to, not including, the brace that closes the current expression. -/
def recoveryLength (depth : Nat) : List Token → Nat
  | [] => 0
  | t :: ts =>
    match t.kind with
    | .leftBrace | .eelOpen => recoveryLength (depth + 1) ts + 1
    | .rightBrace =>
      match depth with
      | 0 => 0
      | d + 1 => recoveryLength d ts + 1
    | _ => recoveryLength depth ts + 1

/-- Read the body of an expression in braces, up to the closing one. -/
def expressionBody (source : Source) (c : Cursor) : Step c (Option Argument) :=
  if c.kind? = some .rightBrace then .pure none
  else (expression source c).map fun attempt => some (.ofAttempt attempt)

/-- Close an expression in braces, skipping what does not belong to it. -/
def closeExpression (source : Source) (c : Cursor) : Cursor :=
  match c.rest with
  | t :: ts =>
    if t.kind = .rightBrace then c.past t ts
    else
      ((c.fail source.size .expressionUnclosed).skip (recoveryLength 0 c.rest)).advance
  | [] => c.fail source.size .expressionUnclosed

theorem remaining_closeExpression_le (source : Source) (c : Cursor) :
    (closeExpression source c).remaining ≤ c.remaining := by
  unfold closeExpression
  split
  · next t ts h =>
    have := Cursor.remaining_of_rest h
    split
    · simp only [Cursor.remaining_past]; omega
    · simp only [Cursor.remaining_advance, Cursor.remaining_skip, Cursor.remaining_fail]; omega
  · simp

/-- Read a value that starts with token `t`, if it can start one. -/
def valueFrom (source : Source) (c : Cursor) (t : Token) (ts : List Token) :
    Option (Step (c.past t ts) Value) :=
  match t.kind with
  | .string => some (.pure (.text t.range (unquote t.text)))
  | .ident =>
    match boolean? t.text with
    | some b => some (.pure (.boolean t.range b))
    | none =>
      if isNull t.text then some (.pure (.null t.range))
      else some ((component source t (c.past t ts)).map fun name => .component name.2 name.1)
  | .dsl => some (.pure (.embedded t.range (String.ofList (t.text.toList.takeWhile (· != '`')))))
  | .eelOpen =>
    let body := expressionBody source (c.past t ts)
    let closed := closeExpression source body.cursor
    some ⟨.expression ⟨t.start, closed.lastEnd⟩ body.value, closed,
      Nat.le_trans (remaining_closeExpression_le source body.cursor) body.le⟩
  | _ => none

/-- Read a value, or report that there is none. -/
def value (source : Source) (c : Cursor) : Step c Value :=
  match number? source c with
  | some digits => digits.map fun d => .number d.2 d.1
  | none =>
    match h : c.rest with
    | t :: ts =>
      match valueFrom source c t ts with
      | some s => s.weaken (Cursor.remaining_past_le h)
      | none => ⟨.missing t.start, c.fail source.size .valueExpected, c.remaining_fail_le _ _⟩
    | [] => ⟨.missing source.size, c.fail source.size .valueExpected, c.remaining_fail_le _ _⟩

/-- Offset of the current token, or of the end of the text. -/
def Cursor.offset (c : Cursor) (size : Nat) : Nat := (c.rest.head?.map Token.start).getD size

/-- Read what a statement copies from, or report that there is nothing. -/
def copySource (source : Source) (c : Cursor) : Step c CopySource :=
  match path? source c with
  | some s => s.map .path
  | none =>
    ⟨.missing (c.offset source.size), c.fail source.size .copySourceExpected,
      c.remaining_fail_le _ _⟩

/-- Read the operation of a statement, if it has one. -/
def operation (source : Source) (c : Cursor) : Step c (Option Operation) :=
  match h : c.rest with
  | t :: ts =>
    have h₀ := Cursor.remaining_past_le h
    match t.kind with
    | .eq =>
      let v := value source (c.past t ts)
      ⟨some (.assign ⟨t.start, max v.cursor.lastEnd t.start⟩ v.value), v.cursor,
        Nat.le_trans v.le h₀⟩
    | .lt =>
      let s := copySource source (c.past t ts)
      ⟨some (.copy ⟨t.start, s.cursor.lastEnd⟩ s.value), s.cursor, Nat.le_trans s.le h₀⟩
    | .gt => ⟨some (.unset t.range), c.past t ts, h₀⟩
    | _ => .pure none
  | [] => .pure none

/-- Read an include line, a single token. -/
def includeLine (t : Token) : Statement :=
  .includeFile t.range (String.ofList (trim ((t.text.toList.dropWhile (· != ':')).drop 1)))

/-- Skip every token that starts before the end of the line reached. -/
def skipLine (source : Source) (c : Cursor) : Cursor :=
  let behind := (dropBytes source.text c.lastEnd).getD []
  let lineEnd := c.lastEnd + byteSize (behind.takeWhile (· != '\n'))
  let after := (c.need source ⟨c.lastEnd, source.size⟩).skip
    (c.rest.takeWhile (·.start < lineEnd)).length
  { after with lastEnd := max after.lastEnd lineEnd }

theorem remaining_skipLine_le (source : Source) (c : Cursor) :
    (skipLine source c).remaining ≤ c.remaining := by
  simp only [skipLine, Cursor.skip, Cursor.need, Cursor.remaining, List.length_drop]
  omega

/-- Read a statement of one line: an include line, or a `namespace:` line, which gives none. -/
def lineStatement? (source : Source) (c : Cursor) : Option (Step c (Option Statement)) :=
  match h : c.rest with
  | [] => none
  | t :: ts =>
    if t.kind = .includeLine then
      some ⟨some (includeLine t), c.past t ts, Cursor.remaining_past_le h⟩
    else if t.kind = .ident ∧ t.text = "namespace" ∧ ts.head?.map Token.kind = some .colon then
      some ⟨none, skipLine source (c.past t ts),
        Nat.le_trans (remaining_skipLine_le _ _) (Cursor.remaining_past_le h)⟩
    else none

/-- What an object statement says before its block. -/
structure ObjectHead where
  path : Path
  operation : Option Operation

namespace ObjectHead

/-- The statement that ends at an offset, with its block if there is one. -/
def statement (head : ObjectHead) (stop : Nat) (block : Option (List Statement)) : Statement :=
  .object ⟨head.path.range.start, stop⟩ head.path head.operation block

end ObjectHead

/-- Read the path and the operation of an object statement, if a path starts here. -/
def objectHead? (source : Source) (c : Cursor) :
    Option { s : Step c ObjectHead // s.cursor.remaining < c.remaining } :=
  match h : path? source c with
  | none => none
  | some p =>
    let op := operation source p.cursor
    have lt : op.cursor.remaining < c.remaining := Nat.lt_of_le_of_lt op.le (path?_lt h)
    some ⟨⟨⟨p.value, op.value⟩, op.cursor, Nat.le_of_lt lt⟩, lt⟩

/-- The cursor inside a block, if one starts here. -/
def insideBlock? (c : Cursor) : Option { inside : Cursor // inside.remaining < c.remaining } :=
  match h : c.rest with
  | [] => none
  | t :: ts =>
    if t.kind = .leftBrace then
      some ⟨c.past t ts, by rw [Cursor.remaining_of_rest h]; exact Nat.lt_succ_self _⟩
    else none

/-- An object statement without a block; one that does nothing either is reported. -/
def bareObject (source : Source) {c : Cursor} (head : Step c ObjectHead) :
    Step c (Option Statement) :=
  ⟨some (head.value.statement head.cursor.lastEnd none),
    if head.value.operation.isNone then head.cursor.fail source.size .operationExpected
    else head.cursor, by
      have := head.le
      split <;> simpa using this⟩

/-- An object statement whose block has been read up to its closing brace. -/
def blockObject (source : Source) {c inside : Cursor} (head : Step c ObjectHead)
    (lt : inside.remaining < head.cursor.remaining) (block : Step inside (List Statement)) :
    Step c (Option Statement) :=
  let closed := block.cursor.expect source.size .rightBrace (.closingExpected '\x7d')
  ⟨some (head.value.statement closed.lastEnd (some block.value)), closed,
    Nat.le_trans (Cursor.remaining_expect_le ..)
      (Nat.le_trans block.le (Nat.le_trans (Nat.le_of_lt lt) head.le))⟩

mutual

/-- Read a statement; a `namespace:` line and what starts no statement give none. -/
def statement (source : Source) (c : Cursor) : Step c (Option Statement) :=
  match lineStatement? source c with
  | some read => read
  | none =>
    match objectHead? source c with
    | none => .pure none
    | some ⟨head, _headLt⟩ =>
      match insideBlock? head.cursor with
      | none => bareObject source head
      | some ⟨inside, lt⟩ => blockObject source head lt (statementList source true inside)
termination_by 2 * c.remaining

/-- Read statements up to the end, or in a block up to its closing brace. -/
def statementList (source : Source) (inBlock : Bool) (c : Cursor) : Step c (List Statement) :=
  match h : c.rest with
  | [] => .pure []
  | t :: ts =>
    if inBlock ∧ t.kind = .rightBrace then .pure []
    else
      match statement source c with
      | ⟨found, c₁, h₁⟩ =>
        if h₂ : c₁.remaining < c.remaining then
          match statementList source inBlock c₁ with
          | ⟨more, c₃, h₃⟩ => ⟨found.toList ++ more, c₃, by omega⟩
        else
          have h₀ := Cursor.remaining_of_rest h
          match statementList source inBlock
            ((c.fail source.size (.unexpected t.text)).past t ts) with
          | ⟨more, c₃, h₃⟩ => ⟨found.toList ++ more, c₃, by
            simp only [Cursor.remaining_past] at h₃; omega⟩
termination_by 2 * c.remaining + 1
decreasing_by
  · omega
  · omega
  · simp only [Cursor.remaining_past]; omega

end

end FusionAtlas.Template

namespace FusionAtlas

/-- A template with the faults found while reading it. -/
structure Parsed where
  template : Template
  errors : Array Template.SyntaxError
  /-- Reading never asked for a piece of the text that is not there. -/
  intact : Bool

/-- Read a template. Every text gives one, however malformed. -/
def parseTemplate (text : String) : Parsed :=
  let source := Template.Source.ofText text
  let tokens := (tokenize text).filter fun t => !t.kind.isTrivia
  let read := Template.statementList source false { rest := tokens }
  ⟨⟨read.value, source.size⟩, read.cursor.errors, read.cursor.intact⟩

end FusionAtlas
