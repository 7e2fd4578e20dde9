import FusionAtlas.Template.Cursor
import FusionAtlas.Template.Expression

/-!
Reading expressions. The grammar, loosest first:

* expression: binary (`?` expression `:` expression)?
* binary: unary operands joined by operators of `precedence?`, grouping to the left
* unary: `!` unary, or a primary
* primary: string, number, boolean, `null`, array, parenthesised expression, or chain
* chain: links joined by dots, each an identifier with optional arguments

Each function is called with fewer tokens left, or with as many and a tighter level of the
grammar.
-/

set_option autoImplicit false
set_option relaxedAutoImplicit false

namespace FusionAtlas.Template

/-- How tightly a binary operator binds. -/
def precedence? : TokenKind → Option Nat
  | .pipePipe => some 1
  | .ampAmp => some 2
  | .eqEq | .bangEq => some 3
  | .lt | .ltEq | .gt | .gtEq => some 4
  | .plus | .minus => some 5
  | .star | .slash | .percent => some 6
  | _ => none

/-- A string token without its quotes; escapes stay as written. -/
def unquote (text : String) : String := String.ofList (text.toList.drop 1).dropLast

def boolean? (word : String) : Option Bool :=
  if word = "true" ∨ word = "TRUE" then some true
  else if word = "false" ∨ word = "FALSE" then some false
  else none

def isNull (word : String) : Bool := word == "null" || word == "NULL"

/-- The text in a range, or the empty text if there is none. -/
def quote (source : Source) (range : ByteRange) : String :=
  String.ofList ((source.piece? range).getD [])

/-- The fraction of a decimal whose integer part ends at `lastEnd`: a dot and a number, with
nothing in between. -/
def fraction? (lastEnd : Nat) : List Token → Option (Token × List Token)
  | dot :: digits :: more =>
    if dot.kind = .dot ∧ digits.kind = .number ∧ dot.start = lastEnd ∧ digits.start = dot.stop then
      some (digits, more)
    else none
  | _ => none

theorem length_of_fraction? {lastEnd : Nat} {ts : List Token} {r : Token × List Token}
    (h : fraction? lastEnd ts = some r) : r.2.length + 2 = ts.length := by
  unfold fraction? at h
  split at h
  · split at h
    · cases h; rfl
    · simp at h
  · simp at h

/-- Read on behind the integer part of a number, which ended at token `t`. -/
def numberFrom (source : Source) (c : Cursor) (start : Nat) (t : Token) (ts : List Token) :
    Step (c.past t ts) (String × ByteRange) :=
  match h : fraction? t.stop ts with
  | some (digits, more) =>
    let range : ByteRange := ⟨start, digits.stop⟩
    ⟨(quote source range, range), ((c.past t ts).past digits more).need source range, by
      have := length_of_fraction? h
      simp only [Cursor.remaining_past, Cursor.remaining_need] at this ⊢; omega⟩
  | none =>
    let range : ByteRange := ⟨start, t.stop⟩
    ⟨(quote source range, range), (c.past t ts).need source range, Nat.le_refl _⟩

/-- Read a number: an optional minus, digits, and an optional fraction. -/
def number? (source : Source) (c : Cursor) : Option (Step c (String × ByteRange)) :=
  match h : c.rest with
  | t :: ts =>
    if t.kind = .number then
      some ((numberFrom source c t.start t ts).weaken (by
        have := Cursor.remaining_of_rest h
        simp only [Cursor.remaining_past]; omega))
    else if t.kind = .minus then
      match ts, h with
      | d :: ds, h =>
        if d.kind = .number then
          some ((numberFrom source c t.start d ds).weaken (by
            have := Cursor.remaining_of_rest h
            simp only [Cursor.remaining_past, List.length_cons] at this ⊢; omega))
        else none
      | [], _ => none
    else none
  | [] => none

mutual

def expression (source : Source) (c : Cursor) : Step c Attempt :=
  match binary source 1 c with
  | ⟨.error pieces, c₁, h₁⟩ => ⟨.error pieces, c₁, h₁⟩
  | ⟨.ok condition, c₁, h₁⟩ =>
    match h : c₁.rest with
    | [] => ⟨.ok condition, c₁, h₁⟩
    | t :: ts =>
      if t.kind = .question then
        have h₂ := Cursor.remaining_of_rest h
        match expression source (c₁.past t ts) with
        | ⟨.error pieces, c₃, h₃⟩ =>
          ⟨.error (condition :: pieces), c₃, by simp only [Cursor.remaining_past] at h₃; omega⟩
        | ⟨.ok thenBranch, c₃, h₃⟩ =>
          match hc : c₃.rest with
          | u :: us =>
            if u.kind = .colon then
              have h₄ := Cursor.remaining_of_rest hc
              match expression source (c₃.past u us) with
              | ⟨.error pieces, c₅, h₅⟩ =>
                ⟨.error (condition :: thenBranch :: pieces), c₅, by
                  simp only [Cursor.remaining_past] at h₃ h₅; omega⟩
              | ⟨.ok elseBranch, c₅, h₅⟩ =>
                ⟨.ok (.ternary ⟨condition.range.start, elseBranch.range.stop⟩ condition thenBranch
                  elseBranch), c₅, by simp only [Cursor.remaining_past] at h₃ h₅; omega⟩
            else
              ⟨.ok (.trailed condition [thenBranch]),
                c₃.fail source.size .colonExpected, by
                  simp only [Cursor.remaining_past, Cursor.remaining_fail] at h₃ ⊢; omega⟩
          | [] =>
            ⟨.ok (.trailed condition [thenBranch]),
              c₃.fail source.size .colonExpected, by
                simp only [Cursor.remaining_past, Cursor.remaining_fail] at h₃ ⊢; omega⟩
      else ⟨.ok condition, c₁, h₁⟩
termination_by 8 * c.remaining + 4
decreasing_by
  all_goals try simp only [Cursor.remaining_past] at *
  all_goals omega

/-- Read operands joined by operators that bind at least as tightly as `level`. -/
def binary (source : Source) (level : Nat) (c : Cursor) : Step c Attempt :=
  match unary source c with
  | ⟨.error pieces, c₁, h₁⟩ => ⟨.error pieces, c₁, h₁⟩
  | ⟨.ok left, c₁, h₁⟩ => (binaryTail source level left c₁).weaken h₁
termination_by 8 * c.remaining + 3
decreasing_by all_goals omega

/-- Go on reading operators and operands behind `left`. -/
def binaryTail (source : Source) (level : Nat) (left : Expr) (c : Cursor) : Step c Attempt :=
  match h : c.rest with
  | [] => .pure (.ok left)
  | t :: ts =>
    match precedence? t.kind with
    | none => .pure (.ok left)
    | some p =>
      if p < level then .pure (.ok left)
      else
        have h₁ := Cursor.remaining_of_rest h
        match binary source (p + 1) (c.past t ts) with
        | ⟨.error pieces, c₂, h₂⟩ => ⟨.error (left :: pieces), c₂, by
          simp only [Cursor.remaining_past] at h₂; omega⟩
        | ⟨.ok right, c₂, h₂⟩ =>
          (binaryTail source level
            (.operation ⟨left.range.start, right.range.stop⟩ left t.text right) c₂).weaken
              (by simp only [Cursor.remaining_past] at h₂; omega)
termination_by 8 * c.remaining
decreasing_by
  all_goals try simp only [Cursor.remaining_past] at *
  all_goals omega

/-- Read a primary behind any number of negations. -/
def unary (source : Source) (c : Cursor) : Step c Attempt :=
  match h : c.rest with
  | [] => primary source c
  | t :: ts =>
    if t.kind = .bang then
      have h₁ := Cursor.remaining_of_rest h
      match unary source (c.past t ts) with
      | ⟨.error pieces, c₂, h₂⟩ => ⟨.error pieces, c₂, by
        simp only [Cursor.remaining_past] at h₂; omega⟩
      | ⟨.ok operand, c₂, h₂⟩ =>
        ⟨.ok (.negation ⟨t.start, operand.range.stop⟩ operand), c₂, by
          simp only [Cursor.remaining_past] at h₂; omega⟩
    else primary source c
termination_by 8 * c.remaining + 2
decreasing_by
  all_goals try simp only [Cursor.remaining_past] at *
  all_goals omega

/-- Read an operand without operators of its own. -/
def primary (source : Source) (c : Cursor) : Step c Attempt :=
  match number? source c with
  | some digits => digits.map fun d => .ok (.number d.2 d.1)
  | none =>
    match h : c.rest with
    | [] => ⟨.error [], c.fail source.size .expressionExpected, c.remaining_fail_le _ _⟩
    | t :: ts =>
      have h₁ := Cursor.remaining_of_rest h
      have h₀ : (c.past t ts).remaining ≤ c.remaining := by simp only [Cursor.remaining_past]; omega
      match t.kind with
      | .string => ⟨.ok (.text t.range (unquote t.text)), c.past t ts, h₀⟩
      | .leftBracket =>
        match arguments source .rightBracket (c.past t ts) with
        | ⟨items, c₂, h₂⟩ =>
          let c₃ := c₂.expect source.size .rightBracket (.closingExpected ']')
          ⟨.ok (.array ⟨t.start, c₃.lastEnd⟩ items), c₃, by
            have : c₃.remaining ≤ c₂.remaining := Cursor.remaining_expect_le ..
            omega⟩
      | .leftParen =>
        match expression source (c.past t ts) with
        | ⟨inner, c₂, h₂⟩ =>
          ⟨inner, c₂.expect source.size .rightParen (.closingExpected ')'), by
            have := c₂.remaining_expect_le source.size .rightParen (.closingExpected ')')
            omega⟩
      | .ident =>
        match boolean? t.text with
        | some value => ⟨.ok (.boolean t.range value), c.past t ts, h₀⟩
        | none =>
          if isNull t.text then ⟨.ok (.null t.range), c.past t ts, h₀⟩
          else
            ((chain source t (c.past t ts)).weaken h₀).map fun segments =>
              .ok (.chain ⟨t.start, ((segments.getLast?.map Segment.range).getD t.range).stop⟩
                segments)
      | _ => ⟨.error [], c.fail source.size .expressionExpected, c.remaining_fail_le _ _⟩
termination_by 8 * c.remaining + 1
decreasing_by
  all_goals try simp only [Cursor.remaining_past] at *
  all_goals omega

/-- Read the links of a chain; the identifier `word` of the first one is already read. -/
def chain (source : Source) (word : Token) (c : Cursor) : Step c (List Segment) :=
  match link source word c with
  | ⟨segment, c₁, h₁⟩ =>
    match h : c₁.rest with
    | dot :: next :: more =>
      if dot.kind = .dot ∧ next.kind = .ident then
        have h₂ := Cursor.remaining_of_rest h
        match chain source next ((c₁.past dot (next :: more)).past next more) with
        | ⟨segments, c₃, h₃⟩ => ⟨segment :: segments, c₃, by
          simp only [Cursor.remaining_past, List.length_cons] at h₂ h₃; omega⟩
      else ⟨[segment], c₁, h₁⟩
    | _ => ⟨[segment], c₁, h₁⟩
termination_by 8 * c.remaining + 1
decreasing_by
  all_goals try simp only [Cursor.remaining_past, List.length_cons] at *
  all_goals omega

/-- Read one link of a chain behind its identifier. -/
def link (source : Source) (word : Token) (c : Cursor) : Step c Segment :=
  match h : c.rest with
  | [] => .pure (.name word.range word.text)
  | t :: ts =>
    if t.kind = .leftParen then
      have h₁ := Cursor.remaining_of_rest h
      match arguments source .rightParen (c.past t ts) with
      | ⟨given, c₂, h₂⟩ =>
        let c₃ := c₂.expect source.size .rightParen (.closingExpected ')')
        ⟨.call ⟨word.start, c₃.lastEnd⟩ word.text given, c₃, by
          have : c₃.remaining ≤ c₂.remaining := Cursor.remaining_expect_le ..
          simp only [Cursor.remaining_past] at h₂; omega⟩
    else .pure (.name word.range word.text)
termination_by 8 * c.remaining
decreasing_by
  all_goals try simp only [Cursor.remaining_past] at *
  all_goals omega

/-- Read expressions separated by commas, up to a token of kind `close`. -/
def arguments (source : Source) (close : TokenKind) (c : Cursor) : Step c (List Argument) :=
  match c.rest with
  | [] => .pure []
  | t :: _ =>
    if t.kind = close then .pure []
    else
      match expression source c with
      | ⟨attempt, c₁, h₁⟩ =>
        match h : c₁.rest with
        | u :: us =>
          if u.kind = .comma then
            have h₂ := Cursor.remaining_of_rest h
            match arguments source close (c₁.past u us) with
            | ⟨more, c₃, h₃⟩ => ⟨.ofAttempt attempt :: more, c₃, by
              simp only [Cursor.remaining_past] at h₃; omega⟩
          else ⟨[.ofAttempt attempt], c₁, h₁⟩
        | [] => ⟨[.ofAttempt attempt], c₁, h₁⟩
termination_by 8 * c.remaining + 5
decreasing_by
  all_goals try simp only [Cursor.remaining_past] at *
  all_goals omega

end

end FusionAtlas.Template
