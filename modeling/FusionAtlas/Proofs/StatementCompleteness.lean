import FusionAtlas.Proofs.BareSyntax
import FusionAtlas.Proofs.ExpressionCompleteness

/-!
Readers of paths, values and operations accept what the grammar derives. Behind a component name no
token may follow at once that could belong to it; otherwise the kind of the next token decides. Main
statements: `Template.path?_yields`, `Template.value_yields` and `Template.operation_yields`.
-/

set_option autoImplicit false
set_option relaxedAutoImplicit false

namespace FusionAtlas.Template

variable {source : Source} {c : Cursor} {t : Token} {ts us : List Token}

section Names

/-- No token ahead goes on with a component name that ends at the offset. -/
def Apart (stop : Nat) (us : List Token) : Prop :=
  ∀ t, us.head? = some t → continuesComponent t.kind = true → t.start ≠ stop

theorem apart_of_kind {stop : Nat} (other : continuesComponent t.kind = false) :
    Apart stop (t :: ts) := by
  intro u found continues
  obtain rfl := Option.some.inj found
  rw [other] at continues
  cases continues

theorem componentLength_append {lastEnd : Nat} {more : List Token}
    (kinds : ∀ t ∈ more, continuesComponent t.kind = true)
    (adjacent : Token.Contiguous lastEnd more)
    (apart : Apart ((more.getLast?.map Token.stop).getD lastEnd) us) :
    componentLength lastEnd (more ++ us) = more.length := by
  induction more generalizing lastEnd with
  | nil =>
    cases us with
    | nil => rfl
    | cons t us => exact if_neg fun both => apart t rfl both.1 both.2
  | cons t more ih =>
    obtain ⟨first, others⟩ := List.forall_mem_cons.mp kinds
    have rest := ih others adjacent.2 (by
      rw [List.getLast?_cons] at apart
      cases last : more.getLast? <;> rw [last] at apart <;> exact apart)
    rw [List.cons_append, componentLength, if_pos ⟨first, adjacent.1⟩, rest, List.length_cons]

theorem component_yields {first : Token} {more : List Token} {r : ByteRange} {name : String}
    (written : IsComponent source first more r name) (apart : Apart r.stop us)
    (here : c.rest = more ++ us) (ends : c.lastEnd = first.stop) :
    (component source first c).Yields (name, r) us := by
  have stop : (more.getLast?.map Token.stop).getD first.stop = r.stop := by
    rw [written.range]
    cases more.getLast? <;> rfl
  have length : componentLength c.lastEnd c.rest = more.length := by
    rw [here, ends]
    exact componentLength_append written.kinds written.adjacent (stop ▸ apart)
  have taken : c.rest.take more.length = more := by rw [here, List.take_left]
  have range : (⟨first.start, (c.skip more.length).lastEnd⟩ : ByteRange) = r := by
    rw [Cursor.skip, taken, ends, stop, written.range]
  have colon : more.any (·.kind = .colon) = true := by
    rw [List.any_eq_true]
    obtain ⟨t, member, kind⟩ := written.colon
    exact ⟨t, member, decide_eq_true kind⟩
  unfold component
  simp only [length, range, taken, if_pos colon]
  refine ⟨by rw [written.text], ?_, rfl⟩
  change c.rest.drop more.length = us
  rw [here, List.drop_left]

theorem component?_yields {first : Token} {more : List Token} {r : ByteRange} {name : String}
    (written : IsComponent source first more r name) (apart : Apart r.stop us)
    (here : c.rest = first :: (more ++ us)) :
    ∃ s, component? source c = some s ∧ s.Yields (name, r) us := by
  obtain ⟨_, lastEnd, faults, intact⟩ := c
  cases here
  have read := @component_yields source
    (Cursor.past ⟨first :: (more ++ us), lastEnd, faults, intact⟩ first (more ++ us)) us first more
    r name written apart rfl rfl
  exact ⟨_, if_pos written.start, read.value, read.rest, read.errors⟩

theorem prototypeName_yields {first closing : Token} {more : List Token} {r : ByteRange}
    {name : String} (written : IsComponent source first more r name)
    (closes : closing.kind = .rightParen) (here : c.rest = first :: (more ++ closing :: us)) :
    (prototypeName source c).Yields name us ∧
      (prototypeName source c).cursor.lastEnd = closing.stop := by
  have apart : Apart r.stop (closing :: us) := apart_of_kind (by rw [closes]; rfl)
  obtain ⟨s, found, yields⟩ := component?_yields written apart here
  obtain ⟨after, h, rfl, rest, errors⟩ := yields.eq
  unfold prototypeName
  simp only [found, expect_of_kind source.size (.closingExpected ')') rest closes]
  exact ⟨⟨rfl, rfl, errors⟩, rfl⟩

theorem metaName_yields (ident : t.kind = .ident) (adjacent : t.start = c.lastEnd)
    (here : c.rest = t :: us) :
    (metaName source c).Yields t.text us ∧ (metaName source c).cursor.lastEnd = t.stop := by
  obtain ⟨_, lastEnd, faults, intact⟩ := c
  cases here
  unfold metaName
  simp only [if_pos (And.intro ident adjacent)]
  exact ⟨⟨rfl, rfl, rfl⟩, rfl⟩

end Names

section Paths

/-- The first token of a path segment, read as the segment with all of its tokens. -/
def SegmentAccepted (source : Source) (ts : List Token) (segment : PathSegment) : Prop :=
  ∃ t more, ts = t :: more ∧ startsSegment t.kind = true ∧ more.head?.map Token.kind ≠ some .colon ∧
    ∀ us, Ahead us (· ≠ .leftParen) → ∀ c, ∃ s,
      segmentFrom source c t (more ++ us) = some s ∧ s.Yields segment us

theorem IsSegment.accepted {segment : PathSegment} (written : IsSegment source ts segment) :
    SegmentAccepted source ts segment := by
  cases written with
  | @word t kind =>
    refine ⟨t, [], rfl, by rcases kind with kind | kind <;> rw [kind] <;> rfl, nofun,
      fun us ends c => ?_⟩
    unfold segmentFrom
    rcases kind with kind | kind
    · simp only [kind, List.nil_append]
      cases us with
      | nil => exact ⟨_, rfl, rfl, rfl, rfl⟩
      | cons u us =>
        refine ⟨_, if_neg fun both => ahead_cons.mp ends both.2, rfl, rfl, rfl⟩
    · simp only [kind]
      exact ⟨_, rfl, rfl, rfl, rfl⟩
  | @quoted t kind =>
    refine ⟨t, [], rfl, by rw [kind]; rfl, nofun, fun us _ c => ?_⟩
    unfold segmentFrom
    simp only [kind]
    exact ⟨_, rfl, rfl, rfl, rfl⟩
  | @property mark name sign ident adjacent =>
    refine ⟨mark, [name], rfl, by rw [sign]; rfl, ?_, fun us _ c => ?_⟩
    · rw [List.head?_cons, Option.map_some, ident]
      exact nofun
    obtain ⟨read, stop⟩ := @metaName_yields source (c.past mark (name :: us)) name us ident adjacent
      rfl
    unfold segmentFrom
    simp only [sign, List.singleton_append]
    refine ⟨_, rfl, ?_, read.rest, read.errors⟩
    dsimp only
    rw [read.value, stop]
  | @prototype word opening first closing more r name ident text opens component closes =>
    refine ⟨word, opening :: first :: more ++ [closing], rfl, by rw [ident]; rfl, ?_,
      fun us _ c => ?_⟩
    · rw [List.cons_append, List.head?_cons, Option.map_some, opens]
      exact nofun
    have behind : first :: (more ++ [closing] ++ us) = first :: (more ++ closing :: us) := by
      rw [List.append_assoc, List.singleton_append]
    obtain ⟨read, stop⟩ := @prototypeName_yields source
      ((c.past word (opening :: first :: (more ++ [closing] ++ us))).past opening _) us first
      closing more r name component closes behind
    unfold segmentFrom
    simp only [ident, List.cons_append, if_pos (And.intro text opens)]
    refine ⟨_, rfl, ?_, read.rest, read.errors⟩
    dsimp only
    rw [read.value, stop]

/-- The segment behind a dot is read with the dot. -/
theorem dottedSegment?_yields {dot : Token} {segment : PathSegment} (between : dot.kind = .dot)
    (accepted : SegmentAccepted source ts segment) (ends : Ahead us (· ≠ .leftParen))
    (here : c.rest = dot :: (ts ++ us)) :
    ∃ s, dottedSegment? source c = some s ∧ s.1.Yields segment us := by
  obtain ⟨t, more, rfl, starts, -, read⟩ := accepted
  have here : c.rest = dot :: t :: (more ++ us) := here
  obtain ⟨⟨found, after, h⟩, some', yields⟩ := read us ends (c.past dot (t :: (more ++ us)))
  obtain ⟨_, lastEnd, faults, intact⟩ := c
  cases here
  unfold dottedSegment?
  simp only [if_pos (And.intro between starts), some']
  exact ⟨_, rfl, yields.value, yields.rest, yields.errors⟩

theorem dottedSegment?_of_ahead (apart : Ahead c.rest (· ≠ .dot)) :
    dottedSegment? source c = none := by
  unfold dottedSegment?
  split
  · next dot t more here =>
    rw [here] at apart
    exact if_neg fun both => ahead_cons.mp apart both.1
  · rfl

theorem pathTail_of_ahead (apart : Ahead us (· ≠ .dot)) (here : c.rest = us) :
    (pathTail source c).Yields [] us := by
  subst here
  rw [pathTail]
  simp only [dottedSegment?_of_ahead apart]
  exact ⟨rfl, rfl, rfl⟩

theorem pathTail_of_dotted {s : { s : Step c PathSegment // s.cursor.remaining < c.remaining }}
    {segments : List PathSegment} (found : dottedSegment? source c = some s)
    (errors : s.1.cursor.errors = c.errors)
    (others : (pathTail source s.1.cursor).Yields segments us) :
    (pathTail source c).Yields (s.1.value :: segments) us := by
  rw [pathTail]
  simp only [found]
  exact ⟨congrArg (s.1.value :: ·) others.value, others.rest, others.errors.trans errors⟩

/-- Segments behind a dot are read on with the dot. -/
theorem IsSegments.pathTail_yields {segments : List PathSegment}
    (written : IsSegments source ts segments) (ends : Ahead us EndsOperand) :
    ∀ {c : Cursor} {dot : Token}, dot.kind = .dot → c.rest = dot :: (ts ++ us) →
      (pathTail source c).Yields segments us := by
  induction written with
  | @last ts segment only =>
    intro c dot between here
    obtain ⟨s, found, yields⟩ := dottedSegment?_yields between only.accepted
      (ends.imp fun kind both => both.2) here
    rw [← yields.value]
    refine pathTail_of_dotted found yields.errors (pathTail_of_ahead ?_ yields.rest)
    exact ends.imp fun kind both => both.1
  | @more ts vs dot' segment segments first between' others ih =>
    intro c dot between here
    rw [List.append_assoc, List.cons_append] at here
    obtain ⟨s, found, yields⟩ := dottedSegment?_yields between first.accepted
      (ahead_of_kind between' nofun) here
    rw [← yields.value]
    exact pathTail_of_dotted found yields.errors (ih between' yields.rest)

/-- How a path starts: with a token that starts a segment and that no colon follows. -/
theorem IsSegments.begins {segments : List PathSegment} (written : IsSegments source ts segments) :
    ∃ t more, ts = t :: more ∧ startsSegment t.kind = true ∧
      more.head?.map Token.kind ≠ some .colon := by
  cases written with
  | last only =>
    obtain ⟨t, more, rfl, starts, colon, -⟩ := only.accepted
    exact ⟨t, more, rfl, starts, colon⟩
  | @more ts us dot segment segments first between others =>
    obtain ⟨t, more, rfl, starts, colon, -⟩ := first.accepted
    refine ⟨t, more ++ dot :: us, rfl, starts, ?_⟩
    cases more with
    | nil =>
      rw [List.nil_append, List.head?_cons, Option.map_some, between]
      exact nofun
    | cons u more => exact colon

theorem path?_of_segment {first : PathSegment} {others : List PathSegment} {vs : List Token}
    (accepted : SegmentAccepted source ts first) (ends : Ahead us (· ≠ .leftParen))
    (behind : ∀ {c : Cursor}, c.rest = us → (pathTail source c).Yields others vs)
    (here : c.rest = ts ++ us) :
    ∃ s, path? source c = some s ∧ s.Yields ⟨first, others⟩ vs := by
  obtain ⟨t, more, rfl, -, -, read⟩ := accepted
  have here : c.rest = t :: (more ++ us) := here
  obtain ⟨⟨found, after, h⟩, some', yields⟩ := read us ends c
  have tail := behind yields.rest
  obtain ⟨_, lastEnd, faults, intact⟩ := c
  cases here
  unfold path?
  simp only [some']
  refine ⟨_, rfl, ?_, tail.rest, tail.errors.trans yields.errors⟩
  simp only [tail.value, ← yields.value]

theorem path?_yields {path : Path} (written : IsPath source ts path) (ends : Ahead us EndsOperand)
    (here : c.rest = ts ++ us) : ∃ s, path? source c = some s ∧ s.Yields path us := by
  obtain ⟨first, others⟩ := path
  cases written with
  | last only =>
    refine path?_of_segment only.accepted (ends.imp fun kind both => both.2) ?_ here
    exact pathTail_of_ahead (ends.imp fun kind both => both.1)
  | more only between behind =>
    rw [List.append_assoc, List.cons_append] at here
    refine path?_of_segment only.accepted (ahead_of_kind between nofun) ?_ here
    exact behind.pathTail_yields ends between

end Paths

section Values

/-- The next token goes on neither with a number nor with a component name that ends at the
offset. -/
structure EndsValue (stop : Nat) (us : List Token) : Prop where
  dot : Ahead us (· ≠ .dot)
  apart : Apart stop us

theorem closeExpression_of_kind (source : Source) (here : c.rest = t :: ts)
    (closes : t.kind = .rightBrace) : closeExpression source c = c.past t ts := by
  unfold closeExpression
  rw [here]
  exact if_pos closes

theorem expressionBody_yields {e : Expr} (derives : Derives source ts (.expression e))
    (closes : t.kind = .rightBrace) (here : c.rest = ts ++ t :: us) :
    (expressionBody source c).Yields (some (.given e)) (t :: us) := by
  have read := derives.accepted (t :: us)
    (ahead_of_kind closes (endsExpression_of_kind (.inr (.inr (.inr (.inr rfl)))))) c here
  obtain ⟨first, more, rfl, kind⟩ := derives.begins
  have apart : ¬c.kind? = some .rightBrace := by
    rw [Cursor.kind?, here, List.cons_append, List.head?_cons, Option.map_some]
    intro same
    rw [Option.some.inj same] at kind
    rcases kind with kind | kind <;> cases kind
  unfold expressionBody
  rw [if_neg apart]
  refine ⟨?_, read.rest, read.errors⟩
  change some (Argument.ofAttempt (expression source c).value) = _
  rw [read.value]
  rfl

/-- Kinds of the first token of a value, numbers apart. -/
def startsValue : TokenKind → Bool
  | .string | .ident | .dsl | .eelOpen => true
  | _ => false

/-- A value that is no number is read from its first token on. -/
theorem value_of_valueFrom {found : Value} (starts : startsValue t.kind = true)
    (here : c.rest = t :: ts)
    (read : ∃ s, valueFrom source c t ts = some s ∧ s.Yields found us) :
    (value source c).Yields found us := by
  obtain ⟨s, some', yields⟩ := read
  have none' : number? source c = none := by
    refine number?_of_kind here rfl ?_ ?_ <;> intro same <;> rw [same] at starts <;> cases starts
  obtain ⟨_, lastEnd, faults, intact⟩ := c
  cases here
  unfold value
  simp only [none', some']
  exact ⟨yields.value, yields.rest, yields.errors⟩

/-- An expression in braces, once its body is read. -/
theorem value_of_braces {opening closing : Token} {body : Option Argument}
    (opens : opening.kind = .eelOpen) (closes : closing.kind = .rightBrace)
    (here : c.rest = opening :: ts)
    (inside : (expressionBody source (c.past opening ts)).Yields body (closing :: us)) :
    (value source c).Yields (.expression ⟨opening.start, closing.stop⟩ body) us := by
  refine value_of_valueFrom (by rw [opens]; rfl) here ?_
  unfold valueFrom
  simp only [opens]
  have closed := closeExpression_of_kind source inside.rest closes
  refine ⟨_, rfl, ?_, ?_, ?_⟩
  · simp only [closed, inside.value]
    rfl
  · simp only [closed]
    rfl
  · simp only [closed]
    exact inside.errors

theorem value_yields {found : Value} (written : IsValue source ts found)
    (ends : EndsValue found.range.stop us) (here : c.rest = ts ++ us) :
    (value source c).Yields found us := by
  cases written with
  | @text t string =>
    refine value_of_valueFrom (by rw [string]; rfl) here ?_
    unfold valueFrom
    simp only [string]
    exact ⟨_, rfl, rfl, rfl, rfl⟩
  | number written =>
    obtain ⟨s, some', yields⟩ := number?_yields written ends.dot here
    unfold value
    simp only [some']
    exact ⟨by rw [Step.map, yields.value], yields.rest, yields.errors⟩
  | @boolean t b ident constant =>
    refine value_of_valueFrom (by rw [ident]; rfl) here ?_
    unfold valueFrom
    simp only [ident, constant]
    exact ⟨_, rfl, rfl, rfl, rfl⟩
  | @null t ident constant =>
    refine value_of_valueFrom (by rw [ident]; rfl) here ?_
    unfold valueFrom
    simp only [ident, boolean?_of_isNull constant, if_pos constant]
    exact ⟨_, rfl, rfl, rfl, rfl⟩
  | @component word more r name ident written =>
    have here : c.rest = word :: (more ++ us) := here
    have read := @component_yields source (c.past word (more ++ us)) us word more r name written
      ends.apart rfl rfl
    refine value_of_valueFrom (by rw [ident.kind]; rfl) here ?_
    unfold valueFrom
    simp only [ident.kind, ident.boolean, ident.null, if_neg Bool.false_ne_true]
    refine ⟨_, rfl, ?_, read.rest, read.errors⟩
    rw [Step.map, read.value]
  | @embedded t block =>
    refine value_of_valueFrom (by rw [block]; rfl) here ?_
    unfold valueFrom
    simp only [block]
    exact ⟨_, rfl, rfl, rfl, rfl⟩
  | @nothing opening closing opens closes =>
    have here : c.rest = opening :: closing :: us := here
    have closed : (c.past opening (closing :: us)).kind? = some .rightBrace := congrArg some closes
    have body :
        (expressionBody source (c.past opening (closing :: us))).Yields none (closing :: us) := by
      unfold expressionBody
      rw [if_pos closed]
      exact ⟨rfl, rfl, rfl⟩
    exact value_of_braces opens closes here body
  | @expression ts opening closing e opens inside closes =>
    have here := rest_of_enclosed here
    exact value_of_braces opens closes here (expressionBody_yields inside closes rfl)

end Values

section Operations

/-- The next token does not go on with an operation; if there is none yet, it starts none either. -/
structure EndsOperation (found : Option Operation) (us : List Token) : Prop where
  operand : Ahead us EndsOperand
  apart : ∀ op ∈ found, Apart op.range.stop us
  absent : found = none → Ahead us fun kind => kind ≠ .eq ∧ kind ≠ .lt ∧ kind ≠ .gt

theorem copySource_yields {path : Path} (written : IsPath source ts path)
    (ends : Ahead us EndsOperand) (here : c.rest = ts ++ us) :
    (copySource source c).Yields (.path path) us := by
  obtain ⟨s, found, read⟩ := path?_yields written ends here
  unfold copySource
  simp only [found]
  exact ⟨congrArg CopySource.path read.value, read.rest, read.errors⟩

/-- An operation is read, but for the places in it. -/
theorem operation_yields {found : Option Operation} (written : IsOptional source ts found)
    (ends : EndsOperation found us) (here : c.rest = ts ++ us) :
    ((operation source c).map (Option.map Operation.bare)).Yields (found.map Operation.bare)
      us := by
  cases written with
  | absent =>
    have ahead := ends.absent rfl
    unfold operation
    split
    · next t more here' =>
      rw [List.nil_append] at here
      rw [← here, here'] at ahead
      obtain ⟨eq, lt, gt⟩ := ahead_cons.mp ahead
      split
      · next kind => exact absurd kind eq
      · next kind => exact absurd kind lt
      · next kind => exact absurd kind gt
      · exact ⟨rfl, here, rfl⟩
    · exact ⟨rfl, here, rfl⟩
  | present only =>
    have apart := ends.apart _ rfl
    cases only with
    | @assign ts sign v kind behind =>
      have here : c.rest = sign :: (ts ++ us) := here
      have read := @value_yields source (c.past sign (ts ++ us)) ts us v behind
        ⟨ends.operand.imp fun kind both => both.1, apart⟩ rfl
      obtain ⟨_, lastEnd, faults, intact⟩ := c
      cases here
      unfold operation
      simp only [kind]
      refine ⟨?_, read.rest, read.errors⟩
      simp only [Step.map, Option.map_some, Operation.bare, read.value]
    | @copy ts sign path kind behind =>
      have here : c.rest = sign :: (ts ++ us) := here
      have read := @copySource_yields source (c.past sign (ts ++ us)) ts us path behind
        ends.operand rfl
      obtain ⟨_, lastEnd, faults, intact⟩ := c
      cases here
      unfold operation
      simp only [kind]
      refine ⟨?_, read.rest, read.errors⟩
      simp only [Step.map, Option.map_some, Operation.bare, read.value]
    | @unset sign kind =>
      have here : c.rest = sign :: us := here
      obtain ⟨_, lastEnd, faults, intact⟩ := c
      cases here
      unfold operation
      simp only [kind]
      exact ⟨rfl, rfl, rfl⟩

end Operations

section Statements

theorem IsOptional.ends {found : Option Operation} (written : IsOptional source ts found)
    (ends : EndsOperation found us) : Ahead (ts ++ us) EndsOperand := by
  cases written with
  | absent => exact ends.operand
  | present only =>
    cases only with
    | assign kind | copy kind | unset kind => exact ahead_of_kind kind ⟨nofun, nofun⟩

/-- The path and the operation of an object are read, but for the places in the operation. -/
theorem objectHead?_yields {path : Path} {found : Option Operation} {vs : List Token}
    (first : IsPath source ts path) (second : IsOptional source us found)
    (ends : EndsOperation found vs) (here : c.rest = ts ++ (us ++ vs)) :
    ∃ s, objectHead? source c = some s ∧ s.1.value.path = path ∧
      s.1.value.operation.map Operation.bare = found.map Operation.bare ∧
      s.1.cursor.rest = vs ∧ s.1.cursor.errors = c.errors := by
  obtain ⟨s, read, yields⟩ := path?_yields first (second.ends ends) here
  have behind := operation_yields second ends yields.rest
  unfold objectHead?
  split
  · next none' =>
    rw [read] at none'
    cases none'
  · next p found' =>
    rw [read] at found'
    obtain rfl := Option.some.inj found'
    exact ⟨_, rfl, yields.value, behind.value, behind.rest, behind.errors.trans yields.errors⟩

theorem lineStatement?_of_segment (here : c.rest = t :: ts) (starts : startsSegment t.kind = true)
    (colon : ts.head?.map Token.kind ≠ some .colon) : lineStatement? source c = none := by
  unfold lineStatement?
  split
  · rfl
  · next u more here' =>
    rw [here] at here'
    obtain ⟨rfl, rfl⟩ := List.cons.inj here'
    have apart : t.kind ≠ .includeLine := by
      intro same
      rw [same] at starts
      cases starts
    rw [if_neg apart, if_neg fun all => colon all.2.2]

/-- Where an object starts, no line statement does. -/
theorem lineStatement?_of_path {path : Path} {found : Option Operation} {vs : List Token}
    (first : IsPath source ts path) (second : IsOptional source us found)
    (colon : Ahead vs (· ≠ .colon)) (here : c.rest = ts ++ (us ++ vs)) :
    lineStatement? source c = none := by
  obtain ⟨t, more, rfl, starts, apart⟩ := IsSegments.begins first
  refine lineStatement?_of_segment here starts ?_
  cases more with
  | cons u more => exact apart
  | nil =>
    change (us ++ vs).head?.map Token.kind ≠ some .colon
    have free : Ahead (us ++ vs) (· ≠ .colon) := by
      cases second with
      | absent => exact colon
      | present only =>
        cases only with
        | assign kind | copy kind | unset kind => exact ahead_of_kind kind nofun
    intro same
    obtain ⟨u, ahead, kind⟩ := Option.map_eq_some_iff.mp same
    exact free u ahead kind

/-- What a reader of statements gives, places apart. -/
abbrev StatementYields {c : Cursor} (s : Step c (Option Statement)) (found : Option Statement)
    (rest : List Token) : Prop := (s.map (Option.map Statement.bare)).Yields found rest

abbrev StatementsYield {c : Cursor} (s : Step c (List Statement)) (found : List Statement)
    (rest : List Token) : Prop := (s.map statementsBare).Yields found rest

theorem statement_of_includeLine (kind : t.kind = .includeLine) (here : c.rest = t :: ts) :
    StatementYields (statement source c) (some (includeLine t).bare) ts := by
  obtain ⟨_, lastEnd, faults, intact⟩ := c
  cases here
  have line : lineStatement? source ⟨t :: ts, lastEnd, faults, intact⟩ =
      some ⟨some (includeLine t), Cursor.past ⟨t :: ts, lastEnd, faults, intact⟩ t ts,
        Cursor.remaining_past_le rfl⟩ := if_pos kind
  rw [statement]
  simp only [line]
  exact ⟨rfl, rfl, rfl⟩

theorem insideBlock?_of_kind (opens : t.kind = .leftBrace) (here : c.rest = t :: ts) :
    ∃ lt, insideBlock? c = some ⟨c.past t ts, lt⟩ := by
  obtain ⟨_, lastEnd, faults, intact⟩ := c
  cases here
  exact ⟨_, if_pos opens⟩

theorem insideBlock?_of_ahead (apart : Ahead c.rest (· ≠ .leftBrace)) : insideBlock? c = none := by
  unfold insideBlock?
  split
  · rfl
  · next u more here =>
    rw [here] at apart
    exact if_neg (ahead_cons.mp apart)

theorem cursor_bareObject {head : Step c ObjectHead} {operation : Operation}
    (present : head.value.operation = some operation) :
    (bareObject source head).cursor = head.cursor := by
  change (if head.value.operation.isNone then _ else _) = _
  rw [present]
  rfl

theorem statement_of_bare {path : Path} {operation : Operation} {vs : List Token}
    (first : IsPath source ts path) (second : IsOptional source us (some operation))
    (ends : EndsOperation (some operation) vs)
    (apart : Ahead vs fun kind => kind ≠ .leftBrace ∧ kind ≠ .colon)
    (here : c.rest = ts ++ (us ++ vs)) :
    StatementYields (statement source c)
      (some (.object nowhere path.bare (some operation.bare) none)) vs := by
  obtain ⟨⟨head, lt⟩, read, rfl, operation', rest, errors⟩ :=
    objectHead?_yields first second ends here
  have line := lineStatement?_of_path first second (apart.imp fun kind both => both.2) here
  have outside : insideBlock? head.cursor = none :=
    insideBlock?_of_ahead (rest.symm ▸ apart.imp fun kind both => both.1)
  obtain ⟨found, present, -⟩ := Option.map_eq_some_iff.mp operation'
  have cursor := @cursor_bareObject source c head found present
  rw [statement]
  simp only [line, read, outside]
  refine ⟨?_, (congrArg Cursor.rest cursor).trans rest,
    (congrArg Cursor.errors cursor).trans errors⟩
  change some (Statement.bare (.object _ head.value.path head.value.operation none)) = _
  rw [Statement.bare, operation', Option.map_some]

theorem statement_of_block {path : Path} {operation : Option Operation} {vs ws : List Token}
    {opening closing : Token} {block : List Statement} (first : IsPath source ts path)
    (second : IsOptional source us operation) (opens : opening.kind = .leftBrace)
    (ends : EndsOperation operation (opening :: vs)) (closes : closing.kind = .rightBrace)
    (inside : ∀ c : Cursor, c.rest = vs →
      StatementsYield (statementList source true c) block (closing :: ws))
    (here : c.rest = ts ++ (us ++ opening :: vs)) :
    StatementYields (statement source c)
      (some (.object nowhere path.bare (operation.map Operation.bare) (some block))) ws := by
  obtain ⟨⟨head, lt⟩, read, rfl, operation', rest, errors⟩ :=
    objectHead?_yields first second ends here
  have line := lineStatement?_of_path first second (ahead_of_kind opens nofun) here
  obtain ⟨lt', within⟩ := insideBlock?_of_kind opens rest
  have body := inside (head.cursor.past opening vs) rfl
  have closed := expect_of_kind source.size (.closingExpected '\x7d') body.rest closes
  rw [statement]
  simp only [line, read, within]
  refine ⟨?_, congrArg Cursor.rest closed,
    (congrArg Cursor.errors closed).trans (body.errors.trans errors)⟩
  change some (Statement.bare (.object _ head.value.path head.value.operation (some _))) = _
  rw [Statement.bare, operation']
  exact congrArg (fun block => some (Statement.object _ _ _ (some block))) body.value

/-- Statements end with the tokens, or before the brace that closes their block. -/
theorem statementList_nil {inBlock : Bool}
    (ends : us = [] ∨ inBlock = true ∧ ∃ closing more, us = closing :: more ∧
      closing.kind = .rightBrace) (here : c.rest = us) :
    StatementsYield (statementList source inBlock c) [] us := by
  obtain ⟨_, lastEnd, faults, intact⟩ := c
  cases here
  rw [statementList]
  rcases ends with rfl | ⟨rfl, closing, more, rfl, closes⟩
  · exact ⟨rfl, rfl, rfl⟩
  · dsimp only
    rw [if_pos ⟨rfl, closes⟩]
    exact ⟨rfl, rfl, rfl⟩

theorem statementList_cons {inBlock : Bool} {found : Statement} {statements : List Statement}
    {vs : List Token} (apart : inBlock = true → t.kind ≠ .rightBrace)
    (shorter : us.length ≤ ts.length)
    (first : StatementYields (statement source c) (some found) us)
    (others : ∀ c : Cursor, c.rest = us →
      StatementsYield (statementList source inBlock c) statements vs)
    (here : c.rest = t :: ts) :
    StatementsYield (statementList source inBlock c) (found :: statements) vs := by
  have behind := others (statement source c).cursor first.rest
  -- The list goes on behind a statement only if reading it has taken a token.
  have progress : (statement source c).cursor.remaining < c.remaining := by
    have rest : (statement source c).cursor.rest = us := first.rest
    rw [Cursor.remaining, Cursor.remaining, rest, here, List.length_cons]
    omega
  obtain ⟨read, some', same⟩ := Option.map_eq_some_iff.mp first.value
  rw [statementList]
  split
  · next none' =>
    rw [none'] at here
    cases here
  · next u more here' =>
    rw [here] at here'
    obtain ⟨rfl, rfl⟩ := List.cons.inj here'
    rw [if_neg fun both => apart both.1 both.2]
    simp only [dif_pos progress]
    refine ⟨?_, behind.rest, behind.errors.trans first.errors⟩
    change statementsBare ((statement source c).value.toList ++ _) = _
    rw [some']
    exact congrArg₂ List.cons same behind.value

end Statements

end FusionAtlas.Template
