import FusionAtlas.Proofs.Arena
import FusionAtlas.Proofs.StatementSoundness

/-!
What a derivation guarantees: the brackets of its tokens match, every token is known, and nothing in
its tree stands for something missing. Main statements: `parseTemplate_written` and
`parseTemplate_ordered`.
-/

set_option autoImplicit false
set_option relaxedAutoImplicit false

namespace FusionAtlas

namespace TokenKind

/-- What closes an opening bracket. -/
def closing? : TokenKind → Option TokenKind
  | .leftParen => some .rightParen
  | .leftBracket => some .rightBracket
  | .leftBrace | .eelOpen => some .rightBrace
  | _ => none

/-- A bracket that closes another one. -/
def isClosing : TokenKind → Bool
  | .rightParen | .rightBracket | .rightBrace => true
  | _ => false

/-- Neither a bracket nor text that begins no token. -/
def isPlain (kind : TokenKind) : Bool :=
  kind.closing?.isNone && !kind.isClosing && kind != .unknown

/-- The brackets still to be closed behind a token, the innermost first. There is no answer if a
bracket closes that is not the innermost one. -/
def settle (pending : List TokenKind) (kind : TokenKind) : Option (List TokenKind) :=
  match kind.closing? with
  | some awaited => some (awaited :: pending)
  | none =>
    if kind.isClosing then
      match pending with
      | awaited :: others => if awaited = kind then some others else none
      | [] => none
    else some pending

variable {kind closing : TokenKind}

theorem of_isPlain (plain : kind.isPlain = true) (pending : List TokenKind) :
    kind ≠ .unknown ∧ settle pending kind = some pending := by
  cases kind <;> cases plain <;> exact ⟨nofun, rfl⟩

theorem of_closing? (pair : kind.closing? = some closing) (pending : List TokenKind) :
    (kind ≠ .unknown ∧ settle pending kind = some (closing :: pending)) ∧
      closing ≠ .unknown ∧ settle (closing :: pending) closing = some pending := by
  cases kind <;> cases pair <;> exact ⟨⟨nofun, rfl⟩, nofun, rfl⟩

end TokenKind

namespace Token

/-- The brackets still to be closed behind some tokens. -/
def pendingAfter (pending : List TokenKind) (ts : List Token) : Option (List TokenKind) :=
  ts.foldlM (fun pending t => TokenKind.settle pending t.kind) pending

/-- Every bracket has its partner. -/
def Matched (ts : List Token) : Prop := pendingAfter [] ts = some []

/-- All tokens are known and the brackets among them match. -/
structure Sane (ts : List Token) : Prop where
  known : ∀ t ∈ ts, t.kind ≠ .unknown
  matched : ∀ pending, pendingAfter pending ts = some pending

namespace Sane

variable {ts us : List Token} {t opening closing : Token} {kind last : TokenKind}

theorem nil : Sane [] := ⟨(fun _ member => nomatch member), fun _ => rfl⟩

theorem append (first : Sane ts) (second : Sane us) : Sane (ts ++ us) := by
  constructor
  · intro t member
    rcases List.mem_append.mp member with early | late
    · exact first.known t early
    · exact second.known t late
  · intro pending
    rw [pendingAfter, List.foldlM_append]
    exact (congrArg (· >>= _) (first.matched pending)).trans (second.matched pending)

theorem cons (same : t.kind = kind) (plain : kind.isPlain = true) (rest : Sane ts) :
    Sane (t :: ts) := by
  subst same
  constructor
  · exact List.forall_mem_cons.mpr ⟨(TokenKind.of_isPlain plain []).1, rest.known⟩
  · intro pending
    rw [pendingAfter, List.foldlM_cons, (TokenKind.of_isPlain plain pending).2]
    exact rest.matched pending

theorem single (same : t.kind = kind) (plain : kind.isPlain = true) : Sane [t] :=
  cons same plain nil

theorem of_forall (plain : ∀ t ∈ ts, t.kind.isPlain = true) : Sane ts := by
  induction ts with
  | nil => exact nil
  | cons t ts ih =>
    obtain ⟨first, others⟩ := List.forall_mem_cons.mp plain
    exact cons rfl first (ih others)

theorem between (same : t.kind = kind) (plain : kind.isPlain = true) (first : Sane ts)
    (second : Sane us) : Sane (ts ++ t :: us) := first.append (cons same plain second)

theorem enclose (inside : Sane ts) (opens : opening.kind = kind) (closes : closing.kind = last)
    (pair : kind.closing? = some last) : Sane (opening :: ts ++ [closing]) := by
  subst opens closes
  constructor
  · obtain ⟨⟨first, -⟩, last, -⟩ := TokenKind.of_closing? pair []
    refine List.forall_mem_cons.mpr ⟨first, List.forall_mem_append.mpr ⟨inside.known, ?_⟩⟩
    exact List.forall_mem_singleton.mpr last
  · intro pending
    obtain ⟨⟨-, opened⟩, -, closed⟩ := TokenKind.of_closing? pair pending
    have around : pendingAfter (closing.kind :: pending) (ts ++ [closing]) = some pending := by
      rw [pendingAfter, List.foldlM_append]
      refine (congrArg (· >>= _) (inside.matched _)).trans ?_
      exact (congrArg (· >>= pure) closed)
    rw [List.cons_append, pendingAfter, List.foldlM_cons, opened]
    exact around

end Sane

end Token

namespace Template

open Token (Sane)
open SyntaxTree (Outline Parts)
open SyntaxTree.Outline (CleanOf cleanOf_append)

variable {source : Source} {ts : List Token}

section Brackets

theorem isPlain_of_precedence? {kind : TokenKind} {p : Nat} (binds : precedence? kind = some p) :
    kind.isPlain = true := by
  cases kind <;> cases binds <;> rfl

theorem isPlain_of_continuesComponent {kind : TokenKind} (continues : continuesComponent kind = true) :
    kind.isPlain = true := by
  cases kind <;> cases continues <;> rfl

theorem IsNumber.sane {r : ByteRange} {digits : String} (written : IsNumber source ts r digits) :
    Sane ts := by
  have signed (sign : Option Token) (minus : ∀ m ∈ sign, m.kind = .minus) : Sane sign.toList := by
    refine Sane.of_forall fun m member => ?_
    rw [minus m (Option.mem_toList.mp member)]
    rfl
  cases written with
  | whole minus number => exact (signed _ minus).append (Sane.single number rfl)
  | decimal minus number point places =>
    refine (signed _ minus).append (Sane.cons number rfl (Sane.cons point rfl
      (Sane.single places rfl)))

theorem IsComponent.sane {first : Token} {more : List Token} {r : ByteRange} {name : String}
    (written : IsComponent source first more r name) : Sane (first :: more) := by
  have others : Sane more := Sane.of_forall fun t member =>
    isPlain_of_continuesComponent (written.kinds t member)
  rcases written.start with ident | number
  · exact Sane.cons ident rfl others
  · exact Sane.cons number rfl others

theorem Derives.sane {phrase : Phrase} (derives : Derives source ts phrase) : Sane ts := by
  induction derives with
  | condition _ ih | operand _ ih | positive _ ih | lastLink _ ih | lastArgument _ ih
  | chain _ _ _ ih => exact ih
  | ternary _ question _ between _ first second third =>
    rw [List.append_assoc]
    refine Sane.between question rfl first ?_
    exact Sane.between between rfl second third
  | operation binds _ _ _ first second =>
    exact Sane.between rfl (isPlain_of_precedence? binds) first second
  | negation sign _ ih => exact Sane.cons sign rfl ih
  | text kind => exact Sane.single kind rfl
  | number written => exact written.sane
  | boolean kind _ | null kind _ | name kind => exact Sane.single kind rfl
  | array opens _ closes ih | parenthesised opens _ closes ih =>
    exact ih.enclose opens closes rfl
  | links _ kind _ first others => exact Sane.between kind rfl first others
  | call kind opens _ closes ih =>
    exact Sane.cons kind rfl (ih.enclose opens closes rfl)
  | noArguments => exact Sane.nil
  | argument _ kind _ first others => exact Sane.between kind rfl first others

theorem IsSegment.sane {segment : PathSegment} (written : IsSegment source ts segment) :
    Sane ts := by
  cases written with
  | word kind =>
    rcases kind with kind | kind <;> exact Sane.single kind rfl
  | quoted kind => exact Sane.single kind rfl
  | property sign kind _ =>
    exact Sane.cons sign rfl (Sane.single kind rfl)
  | prototype kind _ opens component closes =>
    exact Sane.cons kind rfl (component.sane.enclose opens closes rfl)

theorem IsSegments.sane {segments : List PathSegment} (written : IsSegments source ts segments) :
    Sane ts := by
  induction written with
  | last only => exact only.sane
  | more first kind _ ih => exact Sane.between kind rfl first.sane ih

theorem IsValue.sane {value : Value} (written : IsValue source ts value) : Sane ts := by
  cases written with
  | text kind | boolean kind _ | null kind _ | embedded kind =>
    exact Sane.single kind rfl
  | number written => exact written.sane
  | component _ written => exact written.sane
  | nothing opens closes => exact Sane.nil.enclose opens closes rfl
  | expression opens inside closes => exact inside.sane.enclose opens closes rfl

theorem IsOperation.sane {operation : Operation} (written : IsOperation source ts operation) :
    Sane ts := by
  cases written with
  | assign kind behind => exact Sane.cons kind rfl behind.sane
  | copy kind behind => exact Sane.cons kind rfl (IsSegments.sane behind)
  | unset kind => exact Sane.single kind rfl

theorem IsOptional.sane {operation : Option Operation} (written : IsOptional source ts operation) :
    Sane ts := by
  cases written with
  | absent => exact Sane.nil
  | present only => exact only.sane

/-- Outside `namespace:` lines the tokens of statements are sane. -/
theorem IsStatements.sane {all outside : List Token} {statements : List Statement}
    (written : IsStatements source all ts outside statements) : Sane outside := by
  induction written with
  | nil => exact Sane.nil
  | includeFile kind _ ih => exact Sane.cons kind rfl ih
  | namespaceLine _ _ _ _ _ ih => exact ih
  | bare first second _ ih =>
    exact ((IsSegments.sane first).append second.sane).append ih
  | block first second opens _ closes _ inner others =>
    have braces := inner.enclose opens closes rfl
    exact (((IsSegments.sane first).append second.sane).append braces).append others

end Brackets

section Clean

/-- The parts of what a phrase speaks of. -/
def Phrase.parts : Phrase → Parts
  | expression e | binary _ e | unary e | primary e => e.parts
  | chain segments => segmentsParts segments
  | link segment => segment.parts
  | arguments items => argumentsParts items

/-- A node that stands for something and whose parts are clean. -/
theorem cleanOf_node {tag : NodeTag} {r : ByteRange} {parts : Parts} (present : tag ≠ .error)
    (clean : CleanOf parts) : CleanOf [(true, .node tag r parts)] :=
  ⟨rfl, ⟨present, clean⟩, trivial⟩

theorem Derives.clean {phrase : Phrase} (derives : Derives source ts phrase) :
    CleanOf phrase.parts := by
  induction derives with
  | condition _ ih | operand _ ih | positive _ ih | parenthesised _ _ _ ih => exact ih
  | ternary _ _ _ _ _ first second third =>
    exact cleanOf_node nofun (cleanOf_append.mpr ⟨cleanOf_append.mpr ⟨first, second⟩, third⟩)
  | operation _ _ _ _ first second => exact cleanOf_node nofun (cleanOf_append.mpr ⟨first, second⟩)
  | negation _ _ ih | array _ _ _ ih | chain _ _ _ ih | call _ _ _ _ ih =>
    exact cleanOf_node nofun ih
  | text | number | boolean | null | name => exact cleanOf_node nofun trivial
  | lastLink _ ih | lastArgument _ ih => exact cleanOf_append.mpr ⟨ih, trivial⟩
  | links _ _ _ first others | argument _ _ _ first others =>
    exact cleanOf_append.mpr ⟨first, others⟩
  | noArguments => trivial

theorem cleanOf_segments (segments : List PathSegment) :
    CleanOf (segments.map fun segment => (true, segment.outline)) := by
  induction segments with
  | nil => trivial
  | cons segment segments ih =>
    refine ⟨rfl, ⟨?_, trivial⟩, ih⟩
    cases segment <;> exact nofun

theorem cleanOf_path (path : Path) : CleanOf [(true, path.outline)] :=
  cleanOf_node nofun (cleanOf_segments path.segments)

theorem IsValue.clean {value : Value} (written : IsValue source ts value) :
    CleanOf [(true, value.outline)] := by
  cases written with
  | expression _ inside _ => exact cleanOf_node nofun inside.clean
  | _ => exact cleanOf_node nofun trivial

theorem IsOperation.clean {operation : Operation} (written : IsOperation source ts operation) :
    CleanOf [(true, operation.outline)] := by
  cases written with
  | assign _ behind => exact cleanOf_node nofun behind.clean
  | copy => exact cleanOf_node nofun (cleanOf_path _)
  | unset => exact cleanOf_node nofun trivial

theorem IsOptional.clean {operation : Option Operation} (written : IsOptional source ts operation)
    (path : Path) : CleanOf (headParts path operation) := by
  have first := cleanOf_path path
  cases written with
  | absent => exact first
  | present only => exact cleanOf_append.mpr ⟨first, only.clean⟩

theorem IsStatements.clean {all outside : List Token} {statements : List Statement}
    (written : IsStatements source all ts outside statements) :
    CleanOf (statementsParts statements) := by
  induction written with
  | nil => trivial
  | includeFile _ _ ih => exact ⟨rfl, ⟨nofun, trivial⟩, ih⟩
  | namespaceLine _ _ _ _ _ ih => exact ih
  | bare _ second _ ih => exact ⟨rfl, ⟨nofun, (IsOptional.present second).clean _⟩, ih⟩
  | block _ second _ _ _ _ inner others =>
    exact ⟨rfl, ⟨nofun, cleanOf_append.mpr ⟨second.clean _, inner⟩⟩, others⟩

end Clean

end Template

section Whole

open Template (Source)

/-- The tokens of a text without blanks and comments. -/
def significantTokens (text : String) : List Token := (tokenize text).filter fun t => !t.kind.isTrivia

theorem exists_isStatements {text : String} (faultless : (parseTemplate text).errors = #[]) :
    ∃ outside, Template.IsStatements (Source.ofText text) (significantTokens text)
      (significantTokens text) outside (parseTemplate text).template.statements := by
  have tokens := sound_tokens text
  have parses := Template.statementList_parses tokens false tokens (List.suffix_refl _)
  rcases parses.outcome with lt | ⟨-, read, rest, ⟨outside, written⟩, ends, -⟩
  · have errors : (#[] : Array Template.SyntaxError).size < (parseTemplate text).errors.size := lt
    rw [faultless] at errors
    exact absurd errors (Nat.lt_irrefl _)
  · rw [ends rfl, List.append_nil] at rest
    subst rest
    exact ⟨outside, written⟩

/-- A template that is read without a fault is written as the grammar says, and its tree is that of
the derivation. Outside `namespace:` lines every token is known and every bracket has its partner. -/
theorem parseTemplate_written (text : String) (faultless : (parseTemplate text).errors = #[]) :
    ∃ outside statements,
      Template.IsStatements (Source.ofText text) (significantTokens text) (significantTokens text)
        outside statements ∧
      (parseTemplate text).tree = .ofTemplate ⟨statements, Text.byteSize text.toList⟩ ∧
      (∀ t ∈ outside, t.kind ≠ .unknown) ∧ Token.Matched outside := by
  obtain ⟨outside, written⟩ := exists_isStatements faultless
  have sane := written.sane
  exact ⟨outside, _, written, rfl, sane.known, sane.matched []⟩

/-- Every expression form, a block, a copy and a skipped line. -/
private def faultlessText : String :=
  "a.@b = $\x7b!(x.f(1, 'y',) ? [2] : -3) + z\x7d\nnamespace: ( ?\nc < d \x7b e = N:M\n f > \x7d"

/-- The text is read without a fault, so it is written by the grammar as a whole. -/
theorem parseTemplate_written_sample :
    (parseTemplate faultlessText).errors = #[] ∧
      ∃ outside statements,
        Template.IsStatements (Source.ofText faultlessText) (significantTokens faultlessText)
          (significantTokens faultlessText) outside statements ∧
        (parseTemplate faultlessText).tree =
          .ofTemplate ⟨statements, Text.byteSize faultlessText.toList⟩ ∧
        (∀ t ∈ outside, t.kind ≠ .unknown) ∧ Token.Matched outside :=
  have faultless : (parseTemplate faultlessText).errors = #[] := by decide +kernel
  ⟨faultless, parseTemplate_written faultlessText faultless⟩

/-- Every tree is numbered from the leaves up and linked both ways, and a search for an ancestor
ends at the nearest one. Where no fault is reported, no node is an error or an orphan. -/
theorem parseTemplate_ordered (text : String) :
    (parseTemplate text).tree.Ordered ∧
      (∀ id tag,
        (parseTemplate text).tree.Climbs tag id ((parseTemplate text).tree.findAncestor id tag) ∧
        (parseTemplate text).tree.FindsNearest id tag
          ((parseTemplate text).tree.findAncestor id tag)) ∧
      ((parseTemplate text).errors = #[] → (parseTemplate text).tree.Complete) := by
  have follows := SyntaxTree.ofTemplate_follows (parseTemplate text).template
  have ordered : (parseTemplate text).tree.Ordered := follows.ordered rfl
  refine ⟨ordered, ?_, ?_⟩
  · intro id tag
    have climbs := ordered.climbs_findAncestor id tag
    exact ⟨climbs, climbs.findsNearest⟩
  · intro faultless
    obtain ⟨outside, written⟩ := exists_isStatements faultless
    exact follows.complete ⟨nofun, written.clean⟩

/-- The text is read without a fault, so no node of its tree is an error or an orphan. -/
theorem parseTemplate_ordered_sample :
    (parseTemplate faultlessText).errors = #[] ∧ (parseTemplate faultlessText).tree.Complete :=
  have faultless : (parseTemplate faultlessText).errors = #[] := by decide +kernel
  ⟨faultless, (parseTemplate_ordered faultlessText).2.2 faultless⟩

end Whole

end FusionAtlas
