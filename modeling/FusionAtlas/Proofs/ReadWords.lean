import FusionAtlas.Proofs.Derivations
import FusionAtlas.Proofs.ReadingForward

/-!
What a template says is read from tokens. However malformed it is, a string is what one string token holds
between its quotes, a number and a name of a component are pieces of the text, an operator stands between its
operands, and a chain begins with its names and the dots between them, up to the first call; pieces that were
given up on are no exception. Main statement: `parseTemplate_words`.
-/

set_option autoImplicit false
set_option relaxedAutoImplicit false

namespace FusionAtlas

/-- A link of a chain: its bytes, arguments included, and its name. -/
structure ChainLink where
  range : ByteRange
  name : String
  isCall : Bool
  deriving DecidableEq, Repr

/-- The tokens begin with the names of the links and the dots between them, up to the first call, of which
the opening parenthesis is next. -/
inductive ChainLink.Lead : List ChainLink → List Token → Prop
  | last {word : Token} {ts : List Token} (ident : word.kind = .ident) :
      Lead [⟨word.range, word.text, false⟩] (word :: ts)
  | name {word dot : Token} {ts : List Token} {links : List ChainLink} (ident : word.kind = .ident)
      (between : dot.kind = .dot) (others : Lead links ts) :
      Lead (⟨word.range, word.text, false⟩ :: links) (word :: dot :: ts)
  | call {word opening : Token} {ts : List Token} {stop : Nat} {links : List ChainLink}
      (ident : word.kind = .ident) (opens : opening.kind = .leftParen) (inside : opening.stop ≤ stop) :
      Lead (⟨⟨word.start, stop⟩, word.text, true⟩ :: links) (word :: opening :: ts)

namespace ChainLink.Lead

variable {link : ChainLink} {links : List ChainLink} {ts : List Token}

theorem plain (lead : Lead (link :: links) ts) (name : link.isCall = false) :
    ∃ word behind, ts = word :: behind ∧ word.kind = .ident ∧ link = ⟨word.range, word.text, false⟩ := by
  cases lead with
  | last ident => exact ⟨_, _, rfl, ident, rfl⟩
  | name ident => exact ⟨_, _, rfl, ident, rfl⟩
  | call => cases name

theorem opened (lead : Lead (link :: links) ts) (call : link.isCall = true) :
    ∃ word opening behind, ts = word :: opening :: behind ∧ word.kind = .ident ∧
      link.name = word.text ∧ link.range.start = word.start ∧ opening.kind = .leftParen ∧
      opening.stop ≤ link.range.stop := by
  cases lead with
  | last => cases call
  | name => cases call
  | call ident opens inside => exact ⟨_, _, _, rfl, ident, rfl, rfl, opens, inside⟩

end ChainLink.Lead

/-- Something a template says, with its bytes. -/
inductive Word where
  | string (range : ByteRange) (value : String)
  | number (range : ByteRange) (value : String)
  | component (range : ByteRange) (name : String)
  | embedded (range : ByteRange) (identifier : String)
  | includeLine (range : ByteRange) (path : String)
  | segment (range : ByteRange) (identifier : String)
  | property (range : ByteRange) (identifier : String)
  | prototype (range : ByteRange) (identifier : String)
  /-- An operator, with the bytes of its operands. -/
  | operator (left : ByteRange) (text : String) (right : ByteRange)
  /-- A whole chain, or one of its links. -/
  | links (range : ByteRange) (chain : List ChainLink)
  deriving DecidableEq, Repr

/-- The word was read from the tokens, or is a piece of the text. -/
def Word.ReadFrom (source : Template.Source) (tokens : List Token) : Word → Prop
  | string range value =>
    ∃ t ∈ tokens, t.kind = .string ∧ range = t.range ∧ value = Template.unquote t.text
  | number range value => ∃ ts, ts <:+: tokens ∧ Template.IsNumber source ts range value
  | component range name => name = Template.quote source range
  | embedded range identifier =>
    ∃ t ∈ tokens, t.kind = .dsl ∧ range = t.range ∧
      identifier = String.ofList (t.text.toList.takeWhile (· != '`'))
  | includeLine range path =>
    ∃ t ∈ tokens, t.kind = .includeLine ∧ range = t.range ∧
      path = String.ofList (Text.trim ((t.text.toList.dropWhile (· != ':')).drop 1))
  | segment range identifier =>
    ∃ t ∈ tokens, range = t.range ∧
      ((t.kind = .ident ∨ t.kind = .number) ∧ identifier = t.text ∨
        t.kind = .string ∧ identifier = Template.unquote t.text)
  | property range identifier =>
    ∃ t ∈ tokens, t.kind = .at ∧ range.start = t.start ∧
      (identifier = "" ∧ range.stop = t.stop ∨
        ∃ u ∈ tokens, u.start = t.stop ∧ identifier = u.text ∧ range.stop = u.stop)
  | prototype _ identifier => identifier = "" ∨ ∃ inner, identifier = Template.quote source inner
  | operator left text right =>
    ∃ t ∈ tokens, t.text = text ∧ left.stop ≤ t.start ∧ t.stop ≤ right.start
  | links range chain =>
    ∃ t ts, t :: ts <:+ tokens ∧ range.start = t.start ∧ ChainLink.Lead chain (t :: ts)

namespace Template

def Segment.link : Segment → ChainLink
  | .name r v => ⟨r, v, false⟩
  | .call r v _ => ⟨r, v, true⟩

mutual

/-- The words of an expression in the order of their ends, those of abandoned pieces included. -/
def Expr.words : Expr → List Word
  | .text r v => [.string r v]
  | .number r v => [.number r v]
  | .boolean _ _ | .null _ => []
  | .array _ items => argumentsWords items
  | .chain r segments => segmentsWords segments ++ [.links r (segments.map Segment.link)]
  | .negation _ operand => operand.words
  | .operation _ left operator right =>
    left.words ++ right.words ++ [.operator left.range operator right.range]
  | .ternary _ condition thenBranch elseBranch =>
    condition.words ++ thenBranch.words ++ elseBranch.words
  | .trailed value abandoned => value.words ++ abandonedWords abandoned

def abandonedWords : List Expr → List Word
  | [] => []
  | piece :: pieces => piece.words ++ abandonedWords pieces

def Argument.words : Argument → List Word
  | .given value => value.words
  | .broken abandoned => abandonedWords abandoned

def argumentsWords : List Argument → List Word
  | [] => []
  | argument :: more => argument.words ++ argumentsWords more

def Segment.words : Segment → List Word
  | .name r v => [.links r [⟨r, v, false⟩]]
  | .call r v args => argumentsWords args ++ [.links r [⟨r, v, true⟩]]

def segmentsWords : List Segment → List Word
  | [] => []
  | segment :: more => segment.words ++ segmentsWords more

end

/-- The words that an attempt gives whatever came of it. -/
def attemptWords (attempt : Attempt) : List Word := (Argument.ofAttempt attempt).words

/-- The words of an expression's body, if there is one. -/
def bodyWords : Option Argument → List Word
  | none => []
  | some body => body.words

def PathSegment.word : PathSegment → Word
  | .plain r identifier => .segment r identifier
  | .property r identifier => .property r identifier
  | .prototype r identifier => .prototype r identifier

def Path.words (path : Path) : List Word := path.segments.map PathSegment.word

def Value.words : Value → List Word
  | .text r v => [.string r v]
  | .number r v => [.number r v]
  | .component r name => [.component r name]
  | .embedded r identifier => [.embedded r identifier]
  | .expression _ body => bodyWords body
  | .boolean _ _ | .null _ | .missing _ => []

def CopySource.words : CopySource → List Word
  | .path target => target.words
  | .missing _ => []

def Operation.words : Operation → List Word
  | .assign _ value => value.words
  | .copy _ source => source.words
  | .unset _ => []

def operationWords : Option Operation → List Word
  | none => []
  | some operation => operation.words

/-- The words of an object statement in front of its block. -/
def headWords (path : Path) (operation : Option Operation) : List Word :=
  path.words ++ operationWords operation

mutual

def Statement.words : Statement → List Word
  | .includeFile r path => [.includeLine r path]
  | .object _ path operation none => headWords path operation
  | .object _ path operation (some block) => headWords path operation ++ statementsWords block

def statementsWords : List Statement → List Word
  | [] => []
  | statement :: more => statement.words ++ statementsWords more

end

theorem statementsWords_append (front behind : List Statement) :
    statementsWords (front ++ behind) = statementsWords front ++ statementsWords behind := by
  induction front with
  | nil => rfl
  | cons first front ih =>
    rw [List.cons_append, statementsWords, statementsWords, ih, List.append_assoc]

section Numbers

variable {source : Source} {c : Cursor}

theorem number?_errors {s : Step c (String × ByteRange)} (found : number? source c = some s) :
    s.cursor.errors = c.errors := by
  have from_errors (start : Nat) (c : Cursor) (t : Token) (ts : List Token) :
      (numberFrom source c start t ts).cursor.errors = c.errors := by
    unfold numberFrom
    split <;> rfl
  unfold number? at found
  split at found
  · split at found
    · obtain rfl := Option.some.inj found
      exact from_errors _ _ _ _
    · split at found
      · split at found
        · split at found
          · obtain rfl := Option.some.inj found
            exact from_errors _ _ _ _
          · cases found
        · cases found
      · cases found
  · cases found

/-- Reading a number never fails, so the tokens read write it. -/
theorem number?_written {s : Step c (String × ByteRange)} (found : number? source c = some s) :
    ∃ written, c.rest = written ++ s.cursor.rest ∧ IsNumber source written s.value.2 s.value.1 := by
  rcases (number?_parses found).outcome with faulty | ⟨-, written⟩
  · rw [number?_errors found] at faulty
    exact absurd faulty (Nat.lt_irrefl _)
  · exact written

end Numbers

variable {source : Source} {tokens : List Token}

/-- A sound cursor with the last of the tokens ahead of it. -/
structure Cursor.Ready (source : Source) (tokens : List Token) (c : Cursor) : Prop where
  sound : c.Sound source
  ahead : c.rest <:+ tokens

/-- Reading went on to another such cursor, and found words of the tokens on the way. -/
structure Cursor.Finds (source : Source) (tokens : List Token) (c after : Cursor)
    (words : List Word) : Prop where
  ready : after.Ready source tokens
  lastEnd_le : c.lastEnd ≤ after.lastEnd
  words : ∀ word ∈ words, word.ReadFrom source tokens

open Cursor (Ready Finds)

theorem Cursor.Ready.mem {c : Cursor} {t : Token} {ts : List Token} (ready : c.Ready source tokens)
    (here : c.rest = t :: ts) : t ∈ tokens :=
  ready.ahead.subset (here ▸ List.mem_cons_self)

namespace Cursor.Finds

variable {c mid after : Cursor} {t : Token} {ts : List Token} {words more : List Word} {word : Word}

/-- A reader that finds no words. -/
theorem of_reads {parts : SyntaxTree.Parts} (ready : c.Ready source tokens)
    (reads : c.Reads source after parts) (suffix : after.rest <:+ c.rest) :
    c.Finds source tokens after [] :=
  ⟨⟨reads.sound, suffix.trans ready.ahead⟩, reads.lastEnd_le, List.forall_mem_nil _⟩

theorem refl (ready : c.Ready source tokens) : c.Finds source tokens c [] :=
  ⟨ready, Nat.le_refl _, List.forall_mem_nil _⟩

theorem past (ready : c.Ready source tokens) (here : c.rest = t :: ts) :
    c.Finds source tokens (c.past t ts) [] :=
  of_reads ready (.past ready.sound here) (suffix_past here)

theorem fail (ready : c.Ready source tokens) (fault : SyntaxFault) :
    c.Finds source tokens (c.fail source.size fault) [] :=
  of_reads ready (.fail ready.sound fault) (List.suffix_refl _)

theorem expect (ready : c.Ready source tokens) (kind : TokenKind) (fault : SyntaxFault) :
    c.Finds source tokens (c.expect source.size kind fault) [] :=
  of_reads ready (expect_reads ready.sound kind fault) (suffix_expect ..)

theorem append (first : c.Finds source tokens mid words)
    (second : mid.Finds source tokens after more) : c.Finds source tokens after (words ++ more) :=
  ⟨second.ready, Nat.le_trans first.lastEnd_le second.lastEnd_le,
    List.forall_mem_append.mpr ⟨first.words, second.words⟩⟩

/-- A step without words of its own, before the others. -/
theorem behind (first : c.Finds source tokens mid [])
    (second : mid.Finds source tokens after more) : c.Finds source tokens after more :=
  first.append second

/-- A step without words of its own, after the others. -/
theorem andThen (first : c.Finds source tokens mid words)
    (second : mid.Finds source tokens after []) : c.Finds source tokens after words := by
  have both := first.append second
  rwa [List.append_nil] at both

/-- What was read says one word more. -/
theorem also (reads : c.Finds source tokens after words) (read : word.ReadFrom source tokens) :
    c.Finds source tokens after (words ++ [word]) :=
  { reads with words := List.forall_mem_append.mpr ⟨reads.words, List.forall_mem_singleton.mpr read⟩ }

end Cursor.Finds

/-- An expression lies between the cursors it is read from and to. -/
theorem Cursor.Reads.operand {c after : Cursor} {e : Expr} (reads : c.Reads source after e.parts) :
    c.lastEnd ≤ e.range.start ∧ e.range.stop ≤ after.lastEnd := by
  obtain ⟨own, pieces, parts, range, present, -⟩ := e.exists_node
  rw [parts] at reads
  have spans := reads.spans own (List.mem_append_left _ (SyntaxTree.Outline.self_mem_nodes own))
  rw [← range]
  refine ⟨Nat.le_trans reads.before.lastEnd_le_offset spans.start, ?_⟩
  rcases spans.reached with reached | ⟨missing, -⟩
  · exact reached
  · exact absurd missing present

section Readers

theorem number?_finds {c : Cursor} {s : Step c (String × ByteRange)} (ready : c.Ready source tokens)
    (found : number? source c = some s) :
    c.Finds source tokens s.cursor [.number s.value.2 s.value.1] := by
  obtain ⟨written, rest, number⟩ := number?_written found
  have whole : written ++ s.cursor.rest <:+ tokens := rest ▸ ready.ahead
  have read := Finds.of_reads ready (number?_reads ready.sound found).1 ⟨written, rest.symm⟩
  exact read.also ⟨written, ((List.prefix_append ..).isInfix).trans whole.isInfix, number⟩

mutual

theorem expression_finds {c : Cursor} (ready : c.Ready source tokens) :
    c.Finds source tokens (expression source c).cursor
      (attemptWords (expression source c).value) := by
  have first := binary_finds 1 ready
  rw [expression]
  split
  · next pieces c₁ h₁ equal =>
    rw [equal] at first
    exact first
  · next condition c₁ h₁ equal =>
    rw [equal] at first
    split
    · exact first
    · next t ts here =>
      have lt := Cursor.remaining_past_lt here
      split
      · have question := first.andThen (.past first.ready here)
        have second := expression_finds question.ready
        split
        · next pieces c₃ h₃ equal' =>
          rw [equal'] at second
          exact question.append second
        · next thenBranch c₃ h₃ equal' =>
          rw [equal'] at second
          have trailed : c.Finds source tokens (c₃.fail source.size .colonExpected)
              (Expr.trailed condition [thenBranch]).words :=
            question.append ((second.append (.refl second.ready)).andThen
              (.fail second.ready .colonExpected))
          split
          · next u us here' =>
            have lt' := Cursor.remaining_past_lt here'
            split
            · have colon := second.andThen (.past second.ready here')
              have third := expression_finds colon.ready
              split
              · next pieces c₅ h₅ equal'' =>
                rw [equal''] at third
                exact question.append (colon.append third)
              · next elseBranch c₅ h₅ equal'' =>
                rw [equal''] at third
                exact (question.append colon).append third
            · exact trailed
          · exact trailed
      · exact first
termination_by 8 * c.remaining + 4
decreasing_by all_goals omega

theorem binary_finds {c : Cursor} (level : Nat) (ready : c.Ready source tokens) :
    c.Finds source tokens (binary source level c).cursor
      (attemptWords (binary source level c).value) := by
  have first := unary_finds ready
  have placed := unary_reads ready.sound
  rw [binary]
  split
  · next pieces c₁ h₁ equal =>
    rw [equal] at first
    exact first
  · next left c₁ h₁ equal =>
    rw [equal] at first placed
    exact binaryTail_finds level first placed.operand.2
termination_by 8 * c.remaining + 3
decreasing_by all_goals omega

/-- Going on behind a left operand, seen from where that was read. -/
theorem binaryTail_finds {origin c : Cursor} {left : Expr} (level : Nat)
    (reads : origin.Finds source tokens c left.words) (ends : left.range.stop ≤ c.lastEnd) :
    origin.Finds source tokens (binaryTail source level left c).cursor
      (attemptWords (binaryTail source level left c).value) := by
  rw [binaryTail]
  split
  · exact reads
  · next t ts here =>
    have lt := Cursor.remaining_past_lt here
    split
    · exact reads
    · next p bound =>
      split
      · exact reads
      · have operator := reads.andThen (.past reads.ready here)
        have second := binary_finds (p + 1) operator.ready
        have placed := binary_reads (p + 1) operator.ready.sound
        split
        · next pieces c₂ h₂ equal =>
          rw [equal] at second
          exact operator.append second
        · next right c₂ h₂ equal =>
          rw [equal] at second placed
          obtain ⟨start, stop⟩ := Cursor.Reads.operand placed
          have between : left.range.stop ≤ t.start :=
            Nat.le_trans ends (reads.ready.sound.behind t (here ▸ List.mem_cons_self))
          have joined : origin.Finds source tokens c₂
              (Expr.operation ⟨left.range.start, right.range.stop⟩ left t.text right).words :=
            (operator.append second).also ⟨t, reads.ready.mem here, rfl, between, start⟩
          exact binaryTail_finds level joined stop
termination_by 8 * c.remaining
decreasing_by all_goals omega

theorem unary_finds {c : Cursor} (ready : c.Ready source tokens) :
    c.Finds source tokens (unary source c).cursor (attemptWords (unary source c).value) := by
  rw [unary]
  split
  · exact primary_finds ready
  · next t ts here =>
    have lt := Cursor.remaining_past_lt here
    split
    · have bang := Finds.past ready here
      have second := unary_finds bang.ready
      split
      · next pieces c₂ h₂ equal =>
        rw [equal] at second
        exact bang.behind second
      · next operand c₂ h₂ equal =>
        rw [equal] at second
        exact bang.behind second
    · exact primary_finds ready
termination_by 8 * c.remaining + 2
decreasing_by all_goals omega

theorem primary_finds {c : Cursor} (ready : c.Ready source tokens) :
    c.Finds source tokens (primary source c).cursor (attemptWords (primary source c).value) := by
  rw [primary]
  split
  · next digits found => exact number?_finds ready found
  · split
    · exact Finds.fail ready .expressionExpected
    · next t ts here =>
      have lt := Cursor.remaining_past_lt here
      have token := Finds.past ready here
      split
      · next kind => exact token.also ⟨t, ready.mem here, kind, rfl, rfl⟩
      · have items := arguments_finds .rightBracket token.ready
        split
        next given c₂ h₂ equal =>
          rw [equal] at items
          exact token.behind (items.andThen (.expect items.ready .rightBracket (.closingExpected ']')))
      · have inner := expression_finds token.ready
        split
        next given c₂ h₂ equal =>
          rw [equal] at inner
          exact token.behind (inner.andThen (.expect inner.ready .rightParen (.closingExpected ')')))
      · next ident =>
        split
        · exact token
        · split
          · exact token
          · obtain ⟨links, lead⟩ := chain_finds ready here ident
            rw [here] at lead
            exact links.also ⟨t, ts, here ▸ ready.ahead, rfl, lead⟩
      · exact Finds.fail ready .expressionExpected
termination_by 8 * c.remaining + 1
decreasing_by all_goals omega

theorem chain_finds {origin : Cursor} {word : Token} {ts : List Token}
    (ready : origin.Ready source tokens) (here : origin.rest = word :: ts)
    (ident : word.kind = .ident) :
    let s := chain source word (origin.past word ts)
    origin.Finds source tokens s.cursor (segmentsWords s.value) ∧
      ChainLink.Lead (s.value.map Segment.link) origin.rest := by
  have read := link_finds ready here ident
  dsimp only
  rw [chain]
  split
  next segment c₁ h₁ equal =>
    rw [equal] at read
    obtain ⟨first, shape⟩ := read
    have one : origin.Finds source tokens c₁ (segmentsWords [segment]) :=
      first.append (.refl first.ready)
    have only : ChainLink.Lead [segment.link] origin.rest := by
      rcases shape with ⟨plain, -⟩ | lead
      · rw [plain, here]
        exact .last ident
      · exact lead []
    split
    · next dot next more here' =>
      have lt := Cursor.remaining_past_lt here'
      split
      · next both =>
        have dotted := first.andThen (.past first.ready here')
        have lt' : ((c₁.past dot (next :: more)).past next more).remaining <
            (c₁.past dot (next :: more)).remaining := Cursor.remaining_past_lt rfl
        have others := @chain_finds _ next more dotted.ready rfl both.2
        split
        next segments c₃ h₃ equal' =>
          rw [equal'] at others
          obtain ⟨behind, leads⟩ := others
          refine ⟨dotted.append behind, ?_⟩
          rw [List.map_cons]
          rcases shape with ⟨plain, rest⟩ | lead
          · rw [plain, here, ← rest, here']
            exact .name ident both.1 leads
          · exact lead _
      · exact ⟨one, only⟩
    · exact ⟨one, only⟩
termination_by 8 * (origin.past word ts).remaining + 1
decreasing_by all_goals omega

theorem link_finds {origin : Cursor} {word : Token} {ts : List Token}
    (ready : origin.Ready source tokens) (here : origin.rest = word :: ts)
    (ident : word.kind = .ident) :
    let s := link source word (origin.past word ts)
    origin.Finds source tokens s.cursor s.value.words ∧
      ((s.value.link = ⟨word.range, word.text, false⟩ ∧ s.cursor.rest = ts) ∨
        ∀ links, ChainLink.Lead (s.value.link :: links) origin.rest) := by
  have name := Finds.past ready here
  have read : (Word.links word.range [⟨word.range, word.text, false⟩]).ReadFrom source tokens :=
    ⟨word, ts, here ▸ ready.ahead, rfl, .last ident⟩
  have alone := name.also read
  dsimp only
  rw [link]
  split
  · next nothing => exact ⟨alone, .inl ⟨rfl, rfl⟩⟩
  · next t us here' =>
    have lt := Cursor.remaining_past_lt here'
    split
    · next opens =>
      have opened := Finds.past name.ready here'
      have given := arguments_finds .rightParen opened.ready
      split
      next args c₂ h₂ equal =>
        rw [equal] at given
        have closed := given.andThen (.expect given.ready .rightParen (.closingExpected ')'))
        have lead (links : List ChainLink) : ChainLink.Lead
            (⟨⟨word.start, (c₂.expect source.size .rightParen (.closingExpected ')')).lastEnd⟩,
              word.text, true⟩ :: links) origin.rest := by
          rw [here, show ts = t :: us from here']
          exact .call ident opens closed.lastEnd_le
        have whole := (name.behind opened).behind closed
        have alone := lead []
        rw [here] at alone
        exact ⟨whole.also ⟨word, ts, here ▸ ready.ahead, rfl, alone⟩, .inr lead⟩
    · exact ⟨alone, .inl ⟨rfl, rfl⟩⟩
termination_by 8 * (origin.past word ts).remaining
decreasing_by all_goals omega

theorem arguments_finds {c : Cursor} (close : TokenKind) (ready : c.Ready source tokens) :
    c.Finds source tokens (arguments source close c).cursor
      (argumentsWords (arguments source close c).value) := by
  rw [arguments]
  split
  · exact Finds.refl ready
  · next t ts here =>
    split
    · exact Finds.refl ready
    · have first := expression_finds ready
      split
      next attempt c₁ h₁ equal =>
        rw [equal] at first
        have one : c.Finds source tokens c₁ (argumentsWords [Argument.ofAttempt attempt]) :=
          first.append (.refl first.ready)
        split
        · next u us here' =>
          have lt := Cursor.remaining_past_lt here'
          split
          · have comma := first.andThen (.past first.ready here')
            have others := arguments_finds close comma.ready
            split
            next more c₃ h₃ equal' =>
              rw [equal'] at others
              exact comma.append others
          · exact one
        · exact one
termination_by 8 * c.remaining + 5
decreasing_by all_goals omega

end

variable {c : Cursor} {t : Token} {ts : List Token}

theorem expressionBody_finds (ready : c.Ready source tokens) :
    c.Finds source tokens (expressionBody source c).cursor
      (bodyWords (expressionBody source c).value) := by
  unfold expressionBody
  split
  · exact .refl ready
  · exact expression_finds ready

/-- A component name is the piece of text that it covers. -/
theorem component_quote (source : Source) (first : Token) (c : Cursor) :
    (component source first c).value.1 = quote source (component source first c).value.2 := by
  unfold component
  dsimp only
  split <;> rfl

theorem prototypeName_finds (ready : c.Ready source tokens) :
    c.Finds source tokens (prototypeName source c).cursor [] ∧
      ((prototypeName source c).value = "" ∨
        ∃ inner, (prototypeName source c).value = quote source inner) := by
  unfold prototypeName
  split
  · next name c₁ h₁ found =>
    unfold component? at found
    split at found
    · next t ts here =>
      split at found
      · have reads := Finds.of_reads ready (component_reads ready.sound here).1
          ((component_suffix ..).trans (Cursor.suffix_past here))
        have quoted := component_quote source t (c.past t ts)
        obtain equal := Option.some.inj found
        rw [Step.weaken, Step.mk.injEq] at equal
        rw [equal.1] at quoted
        rw [equal.2] at reads
        exact ⟨reads.andThen (.expect reads.ready .rightParen (.closingExpected ')')),
          .inr ⟨name.2, quoted⟩⟩
      · cases found
    · cases found
  · have failed := Finds.fail ready .componentExpected
    exact ⟨failed.andThen (.expect failed.ready .rightParen (.closingExpected ')')), .inl rfl⟩

theorem metaName_finds (ready : c.Ready source tokens) :
    c.Finds source tokens (metaName source c).cursor [] ∧
      ((metaName source c).value = "" ∧ (metaName source c).cursor.lastEnd = c.lastEnd ∨
        ∃ u ∈ tokens, u.start = c.lastEnd ∧ (metaName source c).value = u.text ∧
          (metaName source c).cursor.lastEnd = u.stop) := by
  have failed := Finds.fail ready .metaNameExpected
  unfold metaName
  split
  · next t ts here =>
    split
    · next both =>
      exact ⟨.past ready here, .inr ⟨t, ready.mem here, both.2, rfl, rfl⟩⟩
    · exact ⟨failed, .inl ⟨rfl, rfl⟩⟩
  · exact ⟨failed, .inl ⟨rfl, rfl⟩⟩

theorem segmentFrom_finds {s : Step (c.past t ts) PathSegment} (ready : c.Ready source tokens)
    (here : c.rest = t :: ts) (found : segmentFrom source c t ts = some s) :
    c.Finds source tokens s.cursor [s.value.word] := by
  have token := Finds.past ready here
  have member := ready.mem here
  unfold segmentFrom at found
  split at found
  · next kind =>
    have read : (Word.segment t.range t.text).ReadFrom source tokens :=
      ⟨t, member, rfl, .inl ⟨.inl kind, rfl⟩⟩
    have plain := token.also read
    split at found
    · next u us =>
      split at found
      · obtain rfl := Option.some.inj found
        have opened := token.behind (.past token.ready rfl)
        obtain ⟨reads, named⟩ := prototypeName_finds opened.ready
        exact (opened.behind reads).also named
      · obtain rfl := Option.some.inj found
        exact plain
    · obtain rfl := Option.some.inj found
      exact plain
  · next kind =>
    obtain rfl := Option.some.inj found
    exact token.also ⟨t, member, rfl, .inl ⟨.inr kind, rfl⟩⟩
  · next kind =>
    obtain rfl := Option.some.inj found
    exact token.also ⟨t, member, rfl, .inr ⟨kind, rfl⟩⟩
  · next kind =>
    obtain rfl := Option.some.inj found
    obtain ⟨reads, named⟩ := metaName_finds token.ready
    exact (token.behind reads).also ⟨t, member, kind, rfl, named⟩
  · cases found

theorem dottedSegment?_finds {s : { s : Step c PathSegment // s.cursor.remaining < c.remaining }}
    (ready : c.Ready source tokens) (found : dottedSegment? source c = some s) :
    c.Finds source tokens s.1.cursor [s.1.value.word] := by
  unfold dottedSegment? at found
  split at found
  · next dot t ts here =>
    split at found
    · split at found
      · next segment c₁ h₁ read =>
        obtain rfl := Option.some.inj found
        have dotted := Finds.past ready here
        exact dotted.behind (segmentFrom_finds dotted.ready rfl read)
      · cases found
    · cases found
  · cases found

theorem pathTail_finds {c : Cursor} (ready : c.Ready source tokens) :
    c.Finds source tokens (pathTail source c).cursor
      ((pathTail source c).value.map PathSegment.word) := by
  rw [pathTail]
  split
  · exact .refl ready
  · next s lt found =>
    have first := dottedSegment?_finds ready found
    exact first.append (pathTail_finds (c := s.cursor) first.ready)
termination_by c.remaining

theorem path?_finds {s : Step c Path} (ready : c.Ready source tokens)
    (found : path? source c = some s) : c.Finds source tokens s.cursor s.value.words := by
  unfold path? at found
  split at found
  · next t ts here =>
    split at found
    · next first c₁ h₁ read =>
      obtain rfl := Option.some.inj found
      have reads := segmentFrom_finds ready here read
      exact reads.append (pathTail_finds reads.ready)
    · cases found
  · cases found

theorem copySource_finds (ready : c.Ready source tokens) :
    c.Finds source tokens (copySource source c).cursor (copySource source c).value.words := by
  unfold copySource
  split
  · next s found => exact path?_finds ready found
  · exact .fail ready .copySourceExpected

theorem valueFrom_finds {s : Step (c.past t ts) Value} (ready : c.Ready source tokens)
    (here : c.rest = t :: ts) (found : valueFrom source c t ts = some s) :
    c.Finds source tokens s.cursor s.value.words := by
  have token := Finds.past ready here
  unfold valueFrom at found
  split at found
  · next kind =>
    obtain rfl := Option.some.inj found
    exact token.also ⟨t, ready.mem here, kind, rfl, rfl⟩
  · split at found
    · obtain rfl := Option.some.inj found
      exact token
    · split at found
      · obtain rfl := Option.some.inj found
        exact token
      · obtain rfl := Option.some.inj found
        have name := Finds.of_reads ready (component_reads ready.sound here).1
          ((component_suffix ..).trans (Cursor.suffix_past here))
        exact name.also (component_quote source t _)
  · next kind =>
    obtain rfl := Option.some.inj found
    exact token.also ⟨t, ready.mem here, kind, rfl, rfl⟩
  · obtain rfl := Option.some.inj found
    have body := token.behind (expressionBody_finds token.ready)
    exact body.andThen (.of_reads body.ready (closeExpression_reads body.ready.sound)
      (closeExpression_suffix ..))
  · cases found

theorem value_finds (ready : c.Ready source tokens) :
    c.Finds source tokens (value source c).cursor (value source c).value.words := by
  have missing := Finds.fail ready .valueExpected
  unfold value
  split
  · next digits found => exact number?_finds ready found
  · split
    · next t ts here =>
      split
      · next s found => exact valueFrom_finds ready here found
      · exact missing
    · exact missing

theorem operation_finds (ready : c.Ready source tokens) :
    c.Finds source tokens (operation source c).cursor (operationWords (operation source c).value) := by
  unfold operation
  split
  · next t ts here =>
    have token := Finds.past ready here
    dsimp only
    split
    · exact token.behind (value_finds token.ready)
    · exact token.behind (copySource_finds token.ready)
    · exact token
    · exact .refl ready
  · exact .refl ready

theorem lineStatement?_finds {s : Step c (Option Statement)} (ready : c.Ready source tokens)
    (found : lineStatement? source c = some s) :
    c.Finds source tokens s.cursor (statementsWords s.value.toList) := by
  unfold lineStatement? at found
  split at found
  · cases found
  · next t ts here =>
    split at found
    · next kind =>
      obtain rfl := Option.some.inj found
      exact (Finds.past ready here).also ⟨t, ready.mem here, kind, rfl, rfl⟩
    · split at found
      · obtain rfl := Option.some.inj found
        exact .of_reads ready (skipLine_reads ready.sound here)
          ((List.drop_suffix _ _).trans (Cursor.suffix_past here))
      · cases found

theorem objectHead?_finds {s : { s : Step c ObjectHead // s.cursor.remaining < c.remaining }}
    (ready : c.Ready source tokens) (found : objectHead? source c = some s) :
    c.Finds source tokens s.1.cursor (headWords s.1.value.path s.1.value.operation) := by
  unfold objectHead? at found
  split at found
  · cases found
  · next p read =>
    obtain rfl := Option.some.inj found
    have path := path?_finds ready read
    exact path.append (operation_finds path.ready)

mutual

theorem statement_finds {c : Cursor} (ready : c.Ready source tokens) :
    c.Finds source tokens (statement source c).cursor
      (statementsWords (statement source c).value.toList) := by
  rw [statement]
  split
  · next s found => exact lineStatement?_finds ready found
  · split
    · exact .refl ready
    · next head lt found =>
      have reads := objectHead?_finds ready found
      have bare : c.Finds source tokens head.cursor
          (statementsWords [head.value.statement head.cursor.lastEnd none]) :=
        reads.append (.refl reads.ready)
      split
      · unfold bareObject
        dsimp only
        split
        · exact bare.andThen (.fail reads.ready .operationExpected)
        · exact bare
      · next inside lt' opened =>
        unfold insideBlock? at opened
        split at opened
        · cases opened
        · next t ts here =>
          split at opened
          · obtain equal := Option.some.inj opened
            obtain rfl := congrArg Subtype.val equal
            have brace := Finds.past reads.ready here
            have shorter := Cursor.remaining_past_lt here
            have block := statementList_finds true brace.ready
            have closed := block.andThen (.expect block.ready .rightBrace (.closingExpected '\x7d'))
            have all := (reads.andThen brace).append closed
            exact all.append (.refl all.ready)
          · cases opened
termination_by 2 * c.remaining
decreasing_by all_goals omega

theorem statementList_finds {c : Cursor} (inBlock : Bool) (ready : c.Ready source tokens) :
    c.Finds source tokens (statementList source inBlock c).cursor
      (statementsWords (statementList source inBlock c).value) := by
  rw [statementList]
  split
  · exact .refl ready
  · next t ts here =>
    have lt := Cursor.remaining_past_lt here
    split
    · exact .refl ready
    · have first := statement_finds ready
      split
      next found c₁ h₁ equal =>
        rw [equal] at first
        split
        · have others := statementList_finds inBlock first.ready
          split
          next more c₃ h₃ equal' =>
            rw [equal'] at others
            rw [statementsWords_append]
            exact first.append others
        · have failed := Finds.fail ready (.unexpected t.text)
          have skipped := failed.behind (.past failed.ready here)
          have lt' : ((c.fail source.size (.unexpected t.text)).past t ts).remaining <
            c.remaining := lt
          have others := statementList_finds inBlock skipped.ready
          split
          next more c₃ h₃ equal' =>
            rw [equal'] at others
            rw [statementsWords_append]
            -- A statement that reads nothing still has its words from the tokens.
            refine { skipped.behind others with words := List.forall_mem_append.mpr ?_ }
            exact ⟨first.words, others.words⟩
termination_by 2 * c.remaining + 1
decreasing_by all_goals omega

end

end Readers

end Template

/-- The words of a template are read from its tokens. -/
theorem parseTemplate_words (text : String) :
    ∀ word ∈ Template.statementsWords (parseTemplate text).template.statements,
      word.ReadFrom (.ofText text) (significantTokens text) := by
  have ready : Template.Cursor.Ready (.ofText text) (significantTokens text)
      { rest := (tokenize text).filter fun t => !t.kind.isTrivia } :=
    ⟨sound_tokens text, List.suffix_refl _⟩
  exact (Template.statementList_finds false ready).words

end FusionAtlas
