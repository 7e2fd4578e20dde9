import FusionAtlas.Text.Basic
import FusionAtlas.Token

/-!
Reading position in a token list, with the faults found so far. A step of a reader returns a
cursor that is never behind the one it was given; this is what makes reading end.
-/

set_option autoImplicit false
set_option relaxedAutoImplicit false

namespace FusionAtlas.Template

/-- Why a template is malformed. -/
inductive SyntaxFault where
  | unexpected (text : String)
  | operationExpected
  | copySourceExpected
  | componentExpected
  | metaNameExpected
  | componentUnqualified
  | valueExpected
  | expressionExpected
  | expressionUnclosed
  | colonExpected
  | closingExpected (delimiter : Char)
  deriving DecidableEq, Repr

namespace SyntaxFault

/-- The wording shown to the author of the template. -/
def message : SyntaxFault → String
  | unexpected text => "unexpected `" ++ text ++ "`"
  | operationExpected => "expected `=`, `<`, `>` or `\x7b`"
  | copySourceExpected => "expected path to copy from"
  | componentExpected => "expected component name"
  | metaNameExpected => "expected meta property name"
  | componentUnqualified => "component name needs a `Vendor:Name` form"
  | valueExpected => "expected value"
  | expressionExpected => "expected expression"
  | expressionUnclosed => "expected `\x7d` to close expression"
  | colonExpected => "expected `:` in conditional expression"
  | closingExpected delimiter => "expected `" ++ delimiter.toString ++ "`"

end SyntaxFault

/-- A fault and where it shows. -/
structure SyntaxError where
  fault : SyntaxFault
  range : ByteRange
  deriving DecidableEq, Repr

/-- The text being read, with its size in bytes. -/
structure Source where
  text : List Char
  size : Nat
  size_eq : size = Text.byteSize text

namespace Source

def ofText (text : String) : Source := ⟨text.toList, Text.byteSize text.toList, rfl⟩

/-- What stands in a range. A range that ends before it starts holds nothing, and neither does one
that cuts a character or lies past the end. -/
def piece? (source : Source) (range : ByteRange) : Option (List Char) :=
  if range.start ≤ range.stop then Text.slice? source.text range.start range.stop else none

end Source

/-- The tokens still to be read, the end of the last one read, and the faults so far. -/
structure Cursor where
  rest : List Token
  lastEnd : Nat := 0
  errors : Array SyntaxError := #[]
  /-- Every piece of the text that was asked for is there. Asking for one that is not would break the
  reading off. -/
  intact : Bool := true

namespace Cursor

def remaining (c : Cursor) : Nat := c.rest.length

/-- The cursor behind token `t`, when `ts` follow it. -/
def past (c : Cursor) (t : Token) (ts : List Token) : Cursor :=
  { c with rest := ts, lastEnd := t.stop }

/-- The cursor behind the current token, if there is one. -/
def advance (c : Cursor) : Cursor :=
  match c.rest with
  | t :: ts => c.past t ts
  | [] => c

def kind? (c : Cursor) : Option TokenKind := c.rest.head?.map Token.kind

/-- Record a fault at a given place. -/
def failAt (c : Cursor) (fault : SyntaxFault) (range : ByteRange) : Cursor :=
  { c with errors := c.errors.push ⟨fault, range⟩ }

/-- Record a fault at the current token, or at the end of a text of `size` bytes. -/
def fail (c : Cursor) (size : Nat) (fault : SyntaxFault) : Cursor :=
  c.failAt fault ((c.rest.head?.map Token.range).getD (.emptyAt size))

/-- Ask for a piece of the text. -/
def need (c : Cursor) (source : Source) (range : ByteRange) : Cursor :=
  { c with intact := c.intact && (source.piece? range).isSome }

/-- Read one token of the wanted kind, or record what was missing. -/
def expect (c : Cursor) (size : Nat) (kind : TokenKind) (fault : SyntaxFault) : Cursor :=
  match c.rest with
  | t :: ts => if t.kind = kind then c.past t ts else c.fail size fault
  | [] => c.fail size fault

@[simp] theorem remaining_failAt (c : Cursor) (fault : SyntaxFault) (range : ByteRange) :
    (c.failAt fault range).remaining = c.remaining := rfl

@[simp] theorem remaining_fail (c : Cursor) (size : Nat) (fault : SyntaxFault) :
    (c.fail size fault).remaining = c.remaining := rfl

@[simp] theorem remaining_need (c : Cursor) (source : Source) (range : ByteRange) :
    (c.need source range).remaining = c.remaining := rfl

@[simp] theorem remaining_past (c : Cursor) (t : Token) (ts : List Token) :
    (c.past t ts).remaining = ts.length := rfl

@[simp] theorem remaining_advance (c : Cursor) : c.advance.remaining = c.remaining - 1 := by
  unfold advance
  split
  · next h => simp [remaining, past, h]
  · next h => simp [remaining, h]

theorem remaining_of_rest {c : Cursor} {t : Token} {ts : List Token} (h : c.rest = t :: ts) :
    c.remaining = ts.length + 1 := by
  simp [remaining, h]

theorem remaining_past_le {c : Cursor} {t : Token} {ts : List Token} (h : c.rest = t :: ts) :
    (c.past t ts).remaining ≤ c.remaining := by
  rw [remaining_of_rest h, remaining_past]
  exact Nat.le_succ _

theorem remaining_fail_le (c : Cursor) (size : Nat) (fault : SyntaxFault) :
    (c.fail size fault).remaining ≤ c.remaining := Nat.le_refl _

theorem remaining_expect_le (c : Cursor) (size : Nat) (kind : TokenKind) (fault : SyntaxFault) :
    (c.expect size kind fault).remaining ≤ c.remaining := by
  unfold expect
  split
  · next t ts h =>
    have := remaining_of_rest h
    split
    · simp only [remaining_past]; omega
    · simp
  · simp

end Cursor

/-- The outcome of reading from `c`: a value and a cursor with no more tokens left than `c`. -/
structure Step (c : Cursor) (α : Type) where
  value : α
  cursor : Cursor
  le : cursor.remaining ≤ c.remaining

namespace Step

def pure {c : Cursor} {α : Type} (value : α) : Step c α := ⟨value, c, Nat.le_refl _⟩

/-- A step from a later cursor is a step from an earlier one. -/
def weaken {c c' : Cursor} {α : Type} (h : c'.remaining ≤ c.remaining) (s : Step c' α) :
    Step c α := ⟨s.value, s.cursor, Nat.le_trans s.le h⟩

/-- Change the value only. -/
def map {c : Cursor} {α β : Type} (f : α → β) (s : Step c α) : Step c β :=
  ⟨f s.value, s.cursor, s.le⟩

end Step

end FusionAtlas.Template
