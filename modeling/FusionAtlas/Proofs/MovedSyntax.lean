import FusionAtlas.Proofs.OperandText

/-!
Syntax further behind in a text. A source that ends in a text has everything of it at the same distance from
where the text has it: tokens, pieces, and what is read of them. Here is what moving means for each part of a
template and for a cursor; that the readers keep to it is `Template.expression_moved` and
`Template.statementList_moved`.
-/

set_option autoImplicit false
set_option relaxedAutoImplicit false

namespace FusionAtlas

open FusionAtlas.Text (byteSize dropBytes)

/-- The same bytes `k` further behind. -/
def ByteRange.moved (k : Nat) (r : ByteRange) : ByteRange := ⟨r.start + k, r.stop + k⟩

@[simp] theorem ByteRange.start_moved (k : Nat) (r : ByteRange) : (r.moved k).start = r.start + k := rfl

@[simp] theorem ByteRange.stop_moved (k : Nat) (r : ByteRange) : (r.moved k).stop = r.stop + k := rfl

@[simp] theorem Token.range_moved (k : Nat) (t : Token) : (t.moved k).range = t.range.moved k := by
  rw [range, stop_moved, start_moved, range, ByteRange.moved]

namespace Template

mutual

def Expr.moved (k : Nat) : Expr → Expr
  | .text r value => .text (r.moved k) value
  | .number r value => .number (r.moved k) value
  | .boolean r value => .boolean (r.moved k) value
  | .null r => .null (r.moved k)
  | .array r items => .array (r.moved k) (argumentsMoved k items)
  | .chain r segments => .chain (r.moved k) (segmentsMoved k segments)
  | .negation r operand => .negation (r.moved k) (operand.moved k)
  | .operation r left operator right => .operation (r.moved k) (left.moved k) operator (right.moved k)
  | .ternary r condition thenBranch elseBranch =>
    .ternary (r.moved k) (condition.moved k) (thenBranch.moved k) (elseBranch.moved k)
  | .trailed value abandoned => .trailed (value.moved k) (abandonedMoved k abandoned)

def abandonedMoved (k : Nat) : List Expr → List Expr
  | [] => []
  | piece :: pieces => piece.moved k :: abandonedMoved k pieces

def Argument.moved (k : Nat) : Argument → Argument
  | .given value => .given (value.moved k)
  | .broken abandoned => .broken (abandonedMoved k abandoned)

def argumentsMoved (k : Nat) : List Argument → List Argument
  | [] => []
  | argument :: more => argument.moved k :: argumentsMoved k more

def Segment.moved (k : Nat) : Segment → Segment
  | .name r value => .name (r.moved k) value
  | .call r value arguments => .call (r.moved k) value (argumentsMoved k arguments)

def segmentsMoved (k : Nat) : List Segment → List Segment
  | [] => []
  | segment :: more => segment.moved k :: segmentsMoved k more

end

def Attempt.moved (k : Nat) : Attempt → Attempt
  | .ok value => .ok (value.moved k)
  | .error pieces => .error (abandonedMoved k pieces)

def PathSegment.moved (k : Nat) : PathSegment → PathSegment
  | .plain r identifier => .plain (r.moved k) identifier
  | .property r identifier => .property (r.moved k) identifier
  | .prototype r identifier => .prototype (r.moved k) identifier

def Path.moved (k : Nat) (path : Path) : Path :=
  ⟨path.first.moved k, path.others.map (PathSegment.moved k)⟩

def Value.moved (k : Nat) : Value → Value
  | .text r value => .text (r.moved k) value
  | .number r value => .number (r.moved k) value
  | .boolean r value => .boolean (r.moved k) value
  | .null r => .null (r.moved k)
  | .component r name => .component (r.moved k) name
  | .embedded r identifier => .embedded (r.moved k) identifier
  | .expression r body => .expression (r.moved k) (body.map (Argument.moved k))
  | .missing offset => .missing (offset + k)

def CopySource.moved (k : Nat) : CopySource → CopySource
  | .path source => .path (source.moved k)
  | .missing offset => .missing (offset + k)

def Operation.moved (k : Nat) : Operation → Operation
  | .assign r value => .assign (r.moved k) (value.moved k)
  | .copy r source => .copy (r.moved k) (source.moved k)
  | .unset r => .unset (r.moved k)

def ObjectHead.moved (k : Nat) (head : ObjectHead) : ObjectHead :=
  ⟨head.path.moved k, head.operation.map (Operation.moved k)⟩

mutual

def Statement.moved (k : Nat) : Statement → Statement
  | .includeFile r path => .includeFile (r.moved k) path
  | .object r path operation none =>
    .object (r.moved k) (path.moved k) (operation.map (Operation.moved k)) none
  | .object r path operation (some block) =>
    .object (r.moved k) (path.moved k) (operation.map (Operation.moved k)) (some (statementsMoved k block))

def statementsMoved (k : Nat) : List Statement → List Statement
  | [] => []
  | statement :: more => statement.moved k :: statementsMoved k more

end

def SyntaxError.moved (k : Nat) (error : SyntaxError) : SyntaxError := ⟨error.fault, error.range.moved k⟩

theorem Expr.range_moved (k : Nat) (e : Expr) : (e.moved k).range = e.range.moved k := by
  cases e with
  | trailed value abandoned => exact value.range_moved k
  | _ => rfl

theorem Segment.range_moved (k : Nat) (segment : Segment) :
    (segment.moved k).range = segment.range.moved k := by
  cases segment <;> rfl

theorem getLast?_segmentsMoved (k : Nat) (segments : List Segment) :
    (segmentsMoved k segments).getLast? = segments.getLast?.map (Segment.moved k) := by
  induction segments with
  | nil => rfl
  | cons segment segments ih =>
    rw [segmentsMoved, List.getLast?_cons, List.getLast?_cons, ih]
    cases segments.getLast? <;> rfl

theorem PathSegment.range_moved (k : Nat) (segment : PathSegment) :
    (segment.moved k).range = segment.range.moved k := by
  cases segment <;> rfl

theorem Path.range_moved (k : Nat) (path : Path) : (path.moved k).range = path.range.moved k := by
  have last : (path.moved k).last = path.last.moved k := by
    simp only [last, moved, List.getLast?_map]
    cases path.others.getLast? <;> rfl
  rw [range, last, PathSegment.range_moved, moved, PathSegment.range_moved]
  rfl

theorem Argument.moved_ofAttempt (k : Nat) (attempt : Attempt) :
    ofAttempt (attempt.moved k) = (ofAttempt attempt).moved k := by
  cases attempt <;> rfl

theorem statementsMoved_append (k : Nat) (front behind : List Statement) :
    statementsMoved k (front ++ behind) = statementsMoved k front ++ statementsMoved k behind := by
  induction front with
  | nil => rfl
  | cons statement front ih => exact congrArg (_ :: ·) ih

theorem statementsMoved_toList (k : Nat) (found : Option Statement) :
    statementsMoved k found.toList = (found.map (Statement.moved k)).toList := by
  cases found <;> rfl

/-- The source ends in another text, `k` bytes behind its own start. -/
def Source.EndsIn (source : Source) (k : Nat) (small : Source) : Prop :=
  ∃ front, source.text = front ++ small.text ∧ byteSize front = k

namespace Source.EndsIn

variable {source small : Source} {k : Nat}

theorem size_eq (ends : source.EndsIn k small) : source.size = small.size + k := by
  obtain ⟨front, text, size⟩ := ends
  rw [source.size_eq, text, Text.byteSize_append, size, small.size_eq, Nat.add_comm]

theorem dropBytes_moved (ends : source.EndsIn k small) (n : Nat) :
    dropBytes source.text (n + k) = dropBytes small.text n := by
  obtain ⟨front, text, rfl⟩ := ends
  rw [text]
  clear text
  induction front with
  | nil => rfl
  | cons c front ih =>
    have positive := c.utf8Size_pos
    rw [List.cons_append, dropBytes, byteSize, if_neg (by omega), if_pos (by omega)]
    rw [show n + (c.utf8Size + byteSize front) - c.utf8Size = n + byteSize front by omega, ih]

theorem piece?_moved (ends : source.EndsIn k small) (r : ByteRange) :
    source.piece? (r.moved k) = small.piece? r := by
  rw [piece?, piece?, Text.slice?, Text.slice?, ByteRange.start_moved, ByteRange.stop_moved,
    ends.dropBytes_moved, Nat.add_sub_add_right]
  simp only [Nat.add_le_add_iff_right]

theorem quote_moved (ends : source.EndsIn k small) (r : ByteRange) :
    quote source (r.moved k) = quote small r := by
  rw [quote, quote, ends.piece?_moved]

end Source.EndsIn

namespace Cursor

variable {k : Nat} {source small : Source} {c : Cursor}

/-- The cursor at the same tokens further behind, with the same faults there. -/
def moved (k : Nat) (c : Cursor) : Cursor :=
  { c with
    rest := c.rest.map (Token.moved k)
    lastEnd := c.lastEnd + k
    errors := c.errors.map (SyntaxError.moved k) }

theorem moved_past (k : Nat) (c : Cursor) (t : Token) (ts : List Token) :
    (c.past t ts).moved k = (c.moved k).past (t.moved k) (ts.map (Token.moved k)) := by
  simp [past, moved]

theorem moved_failAt (k : Nat) (c : Cursor) (fault : SyntaxFault) (r : ByteRange) :
    (c.failAt fault r).moved k = (c.moved k).failAt fault (r.moved k) := by
  simp [failAt, moved, SyntaxError.moved]

theorem moved_fail (ends : source.EndsIn k small) (c : Cursor) (fault : SyntaxFault) :
    (c.fail small.size fault).moved k = (c.moved k).fail source.size fault := by
  rw [fail, moved_failAt, fail]
  cases here : c.rest with
  | nil => simp [moved, here, ends.size_eq, ByteRange.moved, ByteRange.emptyAt]
  | cons t ts => simp [moved, here]

theorem moved_need (ends : source.EndsIn k small) (c : Cursor) (r : ByteRange) :
    (c.need small r).moved k = (c.moved k).need source (r.moved k) := by
  rw [need, need, ends.piece?_moved]
  rfl

theorem moved_expect (ends : source.EndsIn k small) (c : Cursor) (kind : TokenKind) (fault : SyntaxFault) :
    (c.expect small.size kind fault).moved k = (c.moved k).expect source.size kind fault := by
  obtain ⟨_ | ⟨t, ts⟩, lastEnd, errors, intact⟩ := c
  · exact moved_fail ends _ fault
  · change moved k (if t.kind = kind then _ else _) = if t.kind = kind then _ else _
    by_cases wanted : t.kind = kind
    · rw [if_pos wanted, if_pos wanted]
      exact moved_past k _ t ts
    · rw [if_neg wanted, if_neg wanted]
      exact moved_fail ends _ fault

theorem moved_advance (k : Nat) (c : Cursor) : c.advance.moved k = (c.moved k).advance := by
  obtain ⟨_ | ⟨t, ts⟩, lastEnd, errors, intact⟩ := c
  · rfl
  · exact moved_past k _ t ts

theorem moved_skip (k : Nat) (c : Cursor) (n : Nat) : (c.skip n).moved k = (c.moved k).skip n := by
  simp only [skip, moved, List.map_drop, ← List.map_take, List.getLast?_map]
  congr 1
  cases (c.rest.take n).getLast? <;> simp

theorem offset_moved (ends : source.EndsIn k small) (c : Cursor) :
    (c.moved k).offset source.size = c.offset small.size + k := by
  rw [offset, offset]
  cases here : c.rest with
  | nil => simp [moved, here, ends.size_eq]
  | cons t ts => simp [moved, here]

end Cursor

end Template

end FusionAtlas
