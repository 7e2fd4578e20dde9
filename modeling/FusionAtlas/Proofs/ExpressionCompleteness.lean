import FusionAtlas.Proofs.ExpressionSoundness

/-!
Readers of expressions accept what the grammar derives, and read the tree of the derivation. All
that is asked of the tokens behind is that none of them goes on with the phrase. Main statement:
`Template.Derives.accepted`.
-/

set_option autoImplicit false
set_option relaxedAutoImplicit false

namespace FusionAtlas.Template

/-- The step gave the value, left the tokens and recorded no fault. -/
structure Step.Yields {c : Cursor} {α : Type} (s : Step c α) (value : α) (rest : List Token) :
    Prop where
  value : s.value = value
  rest : s.cursor.rest = rest
  errors : s.cursor.errors = c.errors

theorem Step.Yields.eq {c : Cursor} {α : Type} {s : Step c α} {value : α} {rest : List Token}
    (yields : s.Yields value rest) :
    ∃ after h, s = ⟨value, after, h⟩ ∧ after.rest = rest ∧ after.errors = c.errors := by
  obtain ⟨found, after, h⟩ := s
  obtain ⟨rfl, here, errors⟩ := yields
  exact ⟨after, h, rfl, here, errors⟩

/-- The next token is of such a kind, if there is one. -/
def Ahead (ts : List Token) (p : TokenKind → Prop) : Prop := ∀ t, ts.head? = some t → p t.kind

/-- A token of this kind does not go on with an operand. -/
def EndsOperand (kind : TokenKind) : Prop := kind ≠ .dot ∧ kind ≠ .leftParen

/-- A token of this kind does not go on with an expression. -/
def EndsExpression (kind : TokenKind) : Prop :=
  EndsOperand kind ∧ kind ≠ .question ∧ precedence? kind = none

section Ahead

variable {t : Token} {ts us : List Token} {p q : TokenKind → Prop}

@[simp] theorem ahead_nil : Ahead [] p := by
  intro t found
  cases found

@[simp] theorem ahead_cons : Ahead (t :: ts) p ↔ p t.kind := by
  constructor
  · exact fun ahead => ahead t rfl
  · rintro here u found
    obtain rfl := Option.some.inj found
    exact here

theorem Ahead.imp (ahead : Ahead ts p) (implies : ∀ kind, p kind → q kind) : Ahead ts q :=
  fun t found => implies t.kind (ahead t found)

theorem ahead_of_kind {kind : TokenKind} (same : t.kind = kind) (here : p kind) :
    Ahead (t :: us) p := ahead_cons.mpr (same ▸ here)

end Ahead

theorem endsExpression_of_kind {kind : TokenKind}
    (closes : kind = .comma ∨ kind = .colon ∨ kind = .rightParen ∨ kind = .rightBracket ∨
      kind = .rightBrace) : EndsExpression kind := by
  rcases closes with rfl | rfl | rfl | rfl | rfl <;> exact ⟨⟨nofun, nofun⟩, nofun, rfl⟩

theorem endsOperand_of_precedence? {kind : TokenKind} {p : Nat}
    (binds : precedence? kind = some p) : EndsOperand kind := by
  cases kind <;> cases binds <;> exact ⟨nofun, nofun⟩

section Numbers

variable {source : Source} {c : Cursor} {t : Token} {ts us : List Token}

theorem fraction?_of_ahead {lastEnd : Nat} (apart : Ahead ts (· ≠ .dot)) :
    fraction? lastEnd ts = none := by
  unfold fraction?
  split
  · next dot digits more =>
    exact if_neg fun all => ahead_cons.mp apart all.1
  · rfl

theorem numberFrom_whole {start : Nat} (apart : Ahead us (· ≠ .dot)) :
    (numberFrom source c start t us).Yields
      (quote source ⟨start, t.stop⟩, ⟨start, t.stop⟩) us := by
  unfold numberFrom
  split
  · next digits more found =>
    rw [fraction?_of_ahead apart] at found
    cases found
  · exact ⟨rfl, rfl, rfl⟩

theorem numberFrom_decimal {start : Nat} {dot digits : Token} (point : dot.kind = .dot)
    (places : digits.kind = .number) (adjacent : dot.start = t.stop)
    (adjacent' : digits.start = dot.stop) :
    (numberFrom source c start t (dot :: digits :: us)).Yields
      (quote source ⟨start, digits.stop⟩, ⟨start, digits.stop⟩) us := by
  have fraction : fraction? t.stop (dot :: digits :: us) = some (digits, us) :=
    if_pos ⟨point, places, adjacent, adjacent'⟩
  unfold numberFrom
  split
  · next found more here =>
    rw [fraction] at here
    obtain ⟨rfl, rfl⟩ := Prod.mk.inj (Option.some.inj here)
    exact ⟨rfl, rfl, rfl⟩
  · next missing =>
    rw [fraction] at missing
    cases missing

/-- Digits behind an optional minus are read on from the digits. -/
theorem number?_of_digits {sign : Option Token} {value : String × ByteRange}
    (minus : ∀ m ∈ sign, m.kind = .minus) (digits : t.kind = .number)
    (here : c.rest = sign.toList ++ t :: ts)
    (read : ∀ c, (numberFrom source c (sign.getD t).start t ts).Yields value us) :
    ∃ s, number? source c = some s ∧ s.Yields value us := by
  have read := read c
  unfold number?
  cases sign with
  | none =>
    split
    · next u rest here' =>
      rw [here] at here'
      obtain ⟨rfl, rfl⟩ := List.cons.inj here'
      rw [if_pos digits]
      exact ⟨_, rfl, read.value, read.rest, read.errors⟩
    · next none' =>
      rw [here] at none'
      cases none'
  | some m =>
    have minus : m.kind = .minus := minus m rfl
    split
    · next u rest here' =>
      rw [here] at here'
      obtain ⟨rfl, rfl⟩ := List.cons.inj here'
      have apart : ¬m.kind = .number := by
        rw [minus]
        decide
      rw [if_neg apart, if_pos minus]
      exact ⟨_, if_pos digits, read.value, read.rest, read.errors⟩
    · next none' =>
      rw [here] at none'
      cases none'

theorem number?_yields {r : ByteRange} {digits : String} (written : IsNumber source ts r digits)
    (apart : Ahead us (· ≠ .dot)) (here : c.rest = ts ++ us) :
    ∃ s, number? source c = some s ∧ s.Yields (digits, r) us := by
  cases written with
  | whole minus number range =>
    subst range
    rw [List.append_assoc] at here
    exact number?_of_digits minus number here fun _ => numberFrom_whole apart
  | decimal minus number point places adjacent adjacent' range =>
    subst range
    rw [List.append_assoc] at here
    exact number?_of_digits minus number here fun _ =>
      numberFrom_decimal point places adjacent adjacent'

theorem number?_of_kind {kind : TokenKind} (here : c.rest = t :: ts) (same : t.kind = kind)
    (number : kind ≠ .number) (minus : kind ≠ .minus) : number? source c = none := by
  subst same
  unfold number?
  split
  · next u rest here' =>
    rw [here] at here'
    obtain ⟨rfl, rfl⟩ := List.cons.inj here'
    rw [if_neg number, if_neg minus]
  · rfl

end Numbers

/-- Kinds of tokens that an operand starts with, if it has no sign of negation. -/
def startsOperand : TokenKind → Bool
  | .string | .number | .minus | .ident | .leftBracket | .leftParen => true
  | _ => false

/-- The first token of a phrase, which only a list of arguments may lack. -/
def Begins (ts : List Token) : Phrase → Prop
  | .expression _ | .binary _ _ | .unary _ =>
    ∃ t more, ts = t :: more ∧ (t.kind = .bang ∨ startsOperand t.kind = true)
  | .primary _ => ∃ t more, ts = t :: more ∧ startsOperand t.kind = true
  | .chain _ | .link _ => ∃ t more, ts = t :: more ∧ t.kind = .ident
  | .arguments _ => True

theorem IsNumber.begins {source : Source} {ts : List Token} {r : ByteRange} {digits : String}
    (written : IsNumber source ts r digits) :
    ∃ t more, ts = t :: more ∧ startsOperand t.kind = true := by
  have first {sign : Option Token} {digits : Token} {more : List Token}
      (minus : ∀ m ∈ sign, m.kind = .minus) (number : digits.kind = .number) :
      ∃ t rest, sign.toList ++ digits :: more = t :: rest ∧ startsOperand t.kind = true := by
    cases sign with
    | none => exact ⟨digits, more, rfl, by rw [number]; rfl⟩
    | some m => exact ⟨m, digits :: more, rfl, by rw [minus m rfl]; rfl⟩
  cases written with
  | whole minus number => exact first minus number
  | decimal minus number => exact first minus number

theorem Derives.begins {source : Source} {ts : List Token} {phrase : Phrase}
    (derives : Derives source ts phrase) : Begins ts phrase := by
  induction derives with
  | condition _ ih | operand _ ih | lastLink _ ih => exact ih
  | ternary _ _ _ _ _ first | operation _ _ _ _ first | links _ _ _ first =>
    obtain ⟨t, more, rfl, kind⟩ := first
    exact ⟨t, _, rfl, kind⟩
  | negation sign => exact ⟨_, _, rfl, .inl sign⟩
  | positive _ ih =>
    obtain ⟨t, more, rfl, kind⟩ := ih
    exact ⟨t, more, rfl, .inr kind⟩
  | number written => exact written.begins
  | text kind | boolean kind | null kind | array kind | parenthesised kind =>
    exact ⟨_, _, rfl, by rw [kind]; rfl⟩
  | chain name => exact ⟨_, _, rfl, by rw [name.kind]; rfl⟩
  | name ident | call ident => exact ⟨_, _, rfl, ident⟩
  | noArguments | lastArgument | argument => trivial

section Readers

variable {source : Source} {c : Cursor} {t : Token} {ts us : List Token}

/-- What is between two tokens is ahead of the second one. -/
theorem rest_of_enclosed {opening closing : Token}
    (here : c.rest = opening :: ts ++ [closing] ++ us) : c.rest = opening :: (ts ++ closing :: us) := by
  rw [here, List.append_assoc]
  rfl

/-- Some word is read already, and what is read behind it, whatever follows that does not go on. -/
def ReadBehind (ts : List Token) (ends : TokenKind → Prop)
    (read : Token → Cursor → List Token → Prop) : Prop :=
  ∃ word more, ts = word :: more ∧ word.kind = .ident ∧
    ∀ us, Ahead us ends → ∀ c, c.rest = more ++ us → read word c us

/-- The reader of a phrase reads it from the tokens, if those behind do not go on with it. A reader
of operands has got as far as reading on behind them. -/
def Accepted (source : Source) (ts : List Token) : Phrase → Prop
  | .expression e => ∀ us, Ahead us EndsExpression → ∀ c, c.rest = ts ++ us →
    (expression source c).Yields (.ok e) us
  | .binary level e => ∀ us, Ahead us EndsOperand →
    Ahead us (fun kind => ∀ q, precedence? kind = some q → q ≤ level) → ∀ l ≤ level,
    ∀ c, c.rest = ts ++ us → ∃ after : Cursor, after.rest = us ∧ after.errors = c.errors ∧
      (binary source l c).value = (binaryTail source l e after).value ∧
      (binary source l c).cursor = (binaryTail source l e after).cursor
  | .unary e => ∀ us, Ahead us EndsOperand → ∀ c, c.rest = ts ++ us →
    (unary source c).Yields (.ok e) us
  | .primary e => ∀ us, Ahead us EndsOperand → ∀ c, c.rest = ts ++ us →
    (primary source c).Yields (.ok e) us
  | .chain segments => ReadBehind ts EndsOperand fun word c us =>
    (chain source word c).Yields segments us
  | .link segment => ReadBehind ts (· ≠ .leftParen) fun word c us =>
    (link source word c).Yields segment us
  | .arguments items => ∀ close, close = .rightBracket ∨ close = .rightParen → ∀ closing us,
    closing.kind = close → ∀ c, c.rest = ts ++ closing :: us →
      (arguments source close c).Yields items (closing :: us)

theorem unary_accepted {e : Expr} (begins : ∃ t more, ts = t :: more ∧ startsOperand t.kind = true)
    (accepted : Accepted source ts (.primary e)) : Accepted source ts (.unary e) := by
  intro us ends c here
  have read := accepted us ends c here
  obtain ⟨t, more, rfl, kind⟩ := begins
  have apart : t.kind ≠ .bang := by
    intro bang
    rw [bang] at kind
    cases kind
  obtain ⟨_, lastEnd, faults, intact⟩ := c
  cases here
  rw [unary]
  simp only [if_neg apart]
  exact read

theorem negation_accepted {e : Expr} {bang : Token} (sign : bang.kind = .bang)
    (accepted : Accepted source ts (.unary e)) :
    Accepted source (bang :: ts) (.unary (.negation ⟨bang.start, e.range.stop⟩ e)) := by
  intro us ends c here
  have here : c.rest = bang :: (ts ++ us) := here
  obtain ⟨after, _, read, rest, errors⟩ := (accepted us ends (c.past bang (ts ++ us)) rfl).eq
  obtain ⟨_, lastEnd, faults, intact⟩ := c
  cases here
  rw [unary]
  simp only [if_pos sign, read]
  exact ⟨rfl, rest, errors⟩

/-- An operand alone: what is read on behind it is read on behind any operand. -/
theorem operand_accepted {e : Expr} {level : Nat} (accepted : Accepted source ts (.unary e)) :
    Accepted source ts (.binary level e) := by
  intro us ends _ l _ c here
  obtain ⟨after, _, read, rest, errors⟩ := (accepted us ends c here).eq
  rw [binary]
  simp only [read]
  exact ⟨after, rest, errors, rfl, rfl⟩

/-- Reading on behind an operand ends where no operator is that binds tightly enough. -/
theorem binaryTail_of_ahead {level : Nat} {e : Expr}
    (loose : Ahead c.rest fun kind => ∀ q, precedence? kind = some q → q < level) :
    (binaryTail source level e c).Yields (.ok e) c.rest := by
  rw [binaryTail]
  split
  · exact ⟨rfl, rfl, rfl⟩
  · next t rest here =>
    split
    · exact ⟨rfl, rfl, rfl⟩
    · next p binds =>
      rw [here] at loose
      rw [if_pos (ahead_cons.mp loose p binds)]
      exact ⟨rfl, rfl, rfl⟩

/-- Reading on over an operator and its right operand. -/
theorem binaryTail_of_operator {level p : Nat} (left : Expr) {right : Expr} {operator : Token}
    (binds : precedence? operator.kind = some p) (tight : level ≤ p)
    (here : c.rest = operator :: ts)
    (read : (binary source (p + 1) (c.past operator ts)).Yields (.ok right) us) :
    ∃ after : Cursor, after.rest = us ∧ after.errors = c.errors ∧
      (binaryTail source level left c).value = (binaryTail source level
        (.operation ⟨left.range.start, right.range.stop⟩ left operator.text right) after).value ∧
      (binaryTail source level left c).cursor = (binaryTail source level
        (.operation ⟨left.range.start, right.range.stop⟩ left operator.text right)
        after).cursor := by
  obtain ⟨after, _, equal, rest, errors⟩ := read.eq
  obtain ⟨_, lastEnd, faults, intact⟩ := c
  cases here
  rw [binaryTail]
  simp only [binds, if_neg (Nat.not_lt_of_le tight), equal]
  exact ⟨after, rest, errors, rfl, rfl⟩

theorem binary_of_accepted {level : Nat} {e : Expr}
    (accepted : Accepted source ts (.binary level e))
    (ends : Ahead us EndsOperand)
    (loose : Ahead us fun kind => ∀ q, precedence? kind = some q → q < level)
    (here : c.rest = ts ++ us) : (binary source level c).Yields (.ok e) us := by
  have weak := loose.imp fun kind below q binds => Nat.le_of_lt (below q binds)
  obtain ⟨after, rest, errors, value, cursor⟩ :=
    accepted us ends weak level (Nat.le_refl level) c here
  have stop := @binaryTail_of_ahead source after level e (rest ▸ loose)
  rw [rest] at stop
  exact ⟨value.trans stop.value, cursor ▸ stop.rest, cursor ▸ stop.errors.trans errors⟩

theorem operation_accepted {left right : Expr} {operator : Token} {level p : Nat}
    (binds : precedence? operator.kind = some p) (tight : level ≤ p)
    (first : Accepted source ts (.binary p left))
    (second : Accepted source us (.binary (p + 1) right)) :
    Accepted source (ts ++ operator :: us) (.binary level
      (.operation ⟨left.range.start, right.range.stop⟩ left operator.text right)) := by
  intro vs ends loose l le c here
  rw [List.append_assoc, List.cons_append] at here
  have below : Ahead vs fun kind => ∀ q, precedence? kind = some q → q < p + 1 :=
    loose.imp fun kind weak q binds => Nat.lt_succ_of_le (Nat.le_trans (weak q binds) tight)
  have joins : Ahead (operator :: (us ++ vs))
      fun kind => ∀ q, precedence? kind = some q → q ≤ p := by
    refine ahead_cons.mpr fun q binds' => ?_
    rw [binds] at binds'
    exact Nat.le_of_eq (Option.some.inj binds').symm
  obtain ⟨mid, rest, errors, value, cursor⟩ := first (operator :: (us ++ vs))
    (ahead_cons.mpr (endsOperand_of_precedence? binds)) joins l (Nat.le_trans le tight) c here
  have right := @binary_of_accepted source (mid.past operator (us ++ vs)) us vs (p + 1) right second
    ends below rfl
  obtain ⟨after, rest', errors', value', cursor'⟩ :=
    binaryTail_of_operator left binds (Nat.le_trans le tight) rest right
  exact ⟨after, rest', errors'.trans errors, value.trans value', cursor.trans cursor'⟩

theorem condition_accepted {e : Expr} (accepted : Accepted source ts (.binary 1 e)) :
    Accepted source ts (.expression e) := by
  intro us ends c here
  obtain ⟨after, _, read, rest, errors⟩ := (binary_of_accepted accepted
    (ends.imp fun kind both => both.1)
    (ends.imp fun kind all q binds => by rw [all.2.2] at binds; cases binds) here).eq
  subst rest
  rw [expression]
  simp only [read]
  split
  · exact ⟨rfl, rfl, errors⟩
  · next t more here' =>
    rw [here'] at ends
    rw [if_neg (ahead_cons.mp ends).2.1]
    exact ⟨rfl, rfl, errors⟩

theorem ternary_accepted {vs : List Token} {mark colon : Token}
    {condition thenBranch elseBranch : Expr} (question : mark.kind = .question)
    (between : colon.kind = .colon) (first : Accepted source ts (.binary 1 condition))
    (second : Accepted source us (.expression thenBranch))
    (third : Accepted source vs (.expression elseBranch)) :
    Accepted source (ts ++ mark :: us ++ colon :: vs)
      (.expression (.ternary ⟨condition.range.start, elseBranch.range.stop⟩ condition thenBranch
        elseBranch)) := by
  intro ws ends c here
  have asks : EndsOperand mark.kind ∧ precedence? mark.kind = none := by
    rw [question]
    exact ⟨⟨nofun, nofun⟩, rfl⟩
  have here : c.rest = ts ++ mark :: (us ++ colon :: (vs ++ ws)) := by
    rw [here]
    simp only [List.append_assoc, List.cons_append]
  obtain ⟨⟨behind₁, end₁, faults₁, intact₁⟩, _, read₁, rest₁, errors₁⟩ := (binary_of_accepted first
    (ahead_cons.mpr asks.1) (ahead_cons.mpr fun q binds => by rw [asks.2] at binds; cases binds)
    here).eq
  cases rest₁
  obtain ⟨⟨behind₂, end₂, faults₂, intact₂⟩, _, read₂, rest₂, errors₂⟩ :=
    (second (colon :: (vs ++ ws)) (ahead_of_kind between (endsExpression_of_kind (.inr (.inl rfl))))
      (Cursor.past ⟨mark :: (us ++ colon :: (vs ++ ws)), end₁, faults₁, intact₁⟩ mark _) rfl).eq
  cases rest₂
  obtain ⟨after, _, read₃, rest₃, errors₃⟩ :=
    (third ws ends (Cursor.past ⟨colon :: (vs ++ ws), end₂, faults₂, intact₂⟩ colon _) rfl).eq
  rw [expression]
  simp only [read₁, if_pos question, read₂, if_pos between, read₃]
  exact ⟨rfl, rest₃, errors₃.trans (errors₂.trans errors₁)⟩

theorem expect_of_kind {kind : TokenKind} (size : Nat) (fault : SyntaxFault)
    (here : c.rest = t :: ts) (same : t.kind = kind) : c.expect size kind fault = c.past t ts := by
  unfold Cursor.expect
  rw [here]
  exact if_pos same

theorem number_accepted {r : ByteRange} {digits : String} (written : IsNumber source ts r digits) :
    Accepted source ts (.primary (.number r digits)) := by
  intro us ends c here
  obtain ⟨s, found, yields⟩ := number?_yields written (ends.imp fun kind both => both.1) here
  rw [primary]
  simp only [found]
  exact ⟨by rw [Step.map, yields.value], yields.rest, yields.errors⟩

theorem text_accepted (string : t.kind = .string) :
    Accepted source [t] (.primary (.text t.range (unquote t.text))) := by
  intro us ends c here
  have none' : number? source c = none :=
    number?_of_kind here string (by decide) (by decide)
  obtain ⟨_, lastEnd, faults, intact⟩ := c
  cases here
  rw [primary]
  simp only [none', string]
  exact ⟨rfl, rfl, rfl⟩

theorem boolean_accepted {value : Bool} (ident : t.kind = .ident)
    (constant : boolean? t.text = some value) :
    Accepted source [t] (.primary (.boolean t.range value)) := by
  intro us ends c here
  have none' : number? source c = none :=
    number?_of_kind here ident (by decide) (by decide)
  obtain ⟨_, lastEnd, faults, intact⟩ := c
  cases here
  rw [primary]
  simp only [none', ident, constant]
  exact ⟨rfl, rfl, rfl⟩

/-- No word stands for both a boolean and nothing. -/
theorem boolean?_of_isNull {word : String} (constant : isNull word = true) :
    boolean? word = none := by
  rw [isNull, Bool.or_eq_true, beq_iff_eq, beq_iff_eq] at constant
  rcases constant with rfl | rfl <;> decide

theorem null_accepted (ident : t.kind = .ident) (constant : isNull t.text = true) :
    Accepted source [t] (.primary (.null t.range)) := by
  intro us ends c here
  have none' : number? source c = none :=
    number?_of_kind here ident (by decide) (by decide)
  obtain ⟨_, lastEnd, faults, intact⟩ := c
  cases here
  rw [primary]
  simp only [none', ident, boolean?_of_isNull constant, if_pos constant]
  exact ⟨rfl, rfl, rfl⟩

theorem array_accepted {opening closing : Token} {items : List Argument}
    (opens : opening.kind = .leftBracket) (closes : closing.kind = .rightBracket)
    (inside : Accepted source ts (.arguments items)) :
    Accepted source (opening :: ts ++ [closing])
      (.primary (.array ⟨opening.start, closing.stop⟩ items)) := by
  intro us ends c here
  have here := rest_of_enclosed here
  have none' : number? source c = none :=
    number?_of_kind here opens (by decide) (by decide)
  obtain ⟨after, _, read, rest, errors⟩ := (inside .rightBracket (.inl rfl) closing us closes
    (c.past opening (ts ++ closing :: us)) rfl).eq
  obtain ⟨_, lastEnd, faults, intact⟩ := c
  cases here
  rw [primary]
  simp only [none', opens, read, expect_of_kind source.size (.closingExpected ']') rest closes]
  exact ⟨rfl, rfl, errors⟩

theorem parenthesised_accepted {opening closing : Token} {e : Expr}
    (opens : opening.kind = .leftParen) (closes : closing.kind = .rightParen)
    (inside : Accepted source ts (.expression e)) :
    Accepted source (opening :: ts ++ [closing]) (.primary e) := by
  intro us ends c here
  have here := rest_of_enclosed here
  have none' : number? source c = none :=
    number?_of_kind here opens (by decide) (by decide)
  obtain ⟨after, _, read, rest, errors⟩ := (inside (closing :: us)
    (ahead_of_kind closes (endsExpression_of_kind (.inr (.inr (.inl rfl)))))
    (c.past opening (ts ++ closing :: us)) rfl).eq
  obtain ⟨_, lastEnd, faults, intact⟩ := c
  cases here
  rw [primary]
  simp only [none', opens, read, expect_of_kind source.size (.closingExpected ')') rest closes]
  exact ⟨rfl, rfl, errors⟩

theorem chain_accepted {word : Token} {segments : List Segment} {last : Segment}
    (name : IsName word) (ends : segments.getLast? = some last)
    (links : Accepted source (word :: ts) (.chain segments)) :
    Accepted source (word :: ts)
      (.primary (.chain ⟨word.start, last.range.stop⟩ segments)) := by
  intro us apart c here
  have none' : number? source c = none :=
    number?_of_kind here name.kind (by decide) (by decide)
  obtain ⟨_, _, same, -, behind⟩ := links
  obtain ⟨rfl, rfl⟩ := List.cons.inj same
  have here : c.rest = word :: (ts ++ us) := here
  obtain ⟨after, _, read, rest, errors⟩ := (behind us apart (c.past word (ts ++ us)) rfl).eq
  obtain ⟨_, lastEnd, faults, intact⟩ := c
  cases here
  rw [primary]
  simp only [none', name.kind, name.boolean, name.null, if_neg Bool.false_ne_true, read]
  refine ⟨?_, rest, errors⟩
  simp only [Step.map, Step.weaken, ends, Option.map_some, Option.getD_some]

theorem name_accepted {word : Token} (ident : word.kind = .ident) :
    Accepted source [word] (.link (.name word.range word.text)) := by
  refine ⟨word, [], rfl, ident, fun us apart c here => ?_⟩
  change (link source word c).Yields _ us
  rw [link]
  split
  · exact ⟨rfl, here, rfl⟩
  · next t more here' =>
    rw [List.nil_append] at here
    rw [← here, here'] at apart
    rw [if_neg (ahead_cons.mp apart)]
    exact ⟨rfl, here, rfl⟩

theorem call_accepted {word opening closing : Token} {items : List Argument}
    (ident : word.kind = .ident) (opens : opening.kind = .leftParen)
    (closes : closing.kind = .rightParen) (inside : Accepted source ts (.arguments items)) :
    Accepted source (word :: opening :: ts ++ [closing])
      (.link (.call ⟨word.start, closing.stop⟩ word.text items)) := by
  refine ⟨word, opening :: ts ++ [closing], rfl, ident, fun us apart c here => ?_⟩
  have here := rest_of_enclosed here
  obtain ⟨after, _, read, rest, errors⟩ := (inside .rightParen (.inr rfl) closing us closes
    (c.past opening (ts ++ closing :: us)) rfl).eq
  obtain ⟨_, lastEnd, faults, intact⟩ := c
  cases here
  change (link source word _).Yields _ us
  rw [link]
  simp only [if_pos opens, read, expect_of_kind source.size (.closingExpected ')') rest closes]
  exact ⟨rfl, rfl, errors⟩

/-- A link that no dot follows ends the chain. -/
theorem lastLink_accepted {segment : Segment} (only : Accepted source ts (.link segment)) :
    Accepted source ts (.chain [segment]) := by
  obtain ⟨word, more, rfl, ident, behind⟩ := only
  refine ⟨word, more, rfl, ident, fun us ends c here => ?_⟩
  obtain ⟨after, _, read, rest, errors⟩ := (behind us (ends.imp fun kind both => both.2) c here).eq
  subst rest
  rw [chain]
  generalize link source word c = found at read ⊢
  subst read
  dsimp only
  split
  · next dot next more here' =>
    have here' : after.rest = dot :: next :: more := here'
    rw [here'] at ends
    rw [if_neg fun both => (ahead_cons.mp ends).1 both.1]
    exact ⟨rfl, rfl, errors⟩
  · exact ⟨rfl, rfl, errors⟩

theorem links_accepted {dot : Token} {segment : Segment} {segments : List Segment}
    (between : dot.kind = .dot) (first : Accepted source ts (.link segment))
    (others : Accepted source us (.chain segments)) :
    Accepted source (ts ++ dot :: us) (.chain (segment :: segments)) := by
  obtain ⟨word, more, rfl, ident, behind⟩ := first
  obtain ⟨next, more', rfl, ident', behind'⟩ := others
  refine ⟨word, more ++ dot :: next :: more', by simp only [List.cons_append], ident,
    fun vs ends c here => ?_⟩
  rw [List.append_assoc] at here
  obtain ⟨⟨rest, lastEnd, faults, intact⟩, _, read, ahead, errors⟩ :=
    (behind (dot :: next :: (more' ++ vs)) (ahead_of_kind between nofun) c here).eq
  cases ahead
  obtain ⟨after, _, read', rest', errors'⟩ := (behind' vs ends
    ((Cursor.past ⟨dot :: next :: (more' ++ vs), lastEnd, faults, intact⟩ dot
      (next :: (more' ++ vs))).past next _) rfl).eq
  rw [chain]
  generalize link source word c = found at read ⊢
  subst read
  simp only [if_pos (And.intro between ident'), read']
  exact ⟨rfl, rest', errors'.trans errors⟩

/-- The first token of an expression closes no list of arguments. -/
theorem ne_of_begins {close : TokenKind} (closes : close = .rightBracket ∨ close = .rightParen)
    (kind : t.kind = .bang ∨ startsOperand t.kind = true) : t.kind ≠ close := by
  intro same
  rw [same] at kind
  rcases closes with rfl | rfl <;> rcases kind with kind | kind <;> cases kind

theorem noArguments_accepted : Accepted source [] (.arguments []) := by
  intro close _ closing us same c here
  obtain ⟨_, lastEnd, faults, intact⟩ := c
  cases here
  rw [arguments]
  simp only [if_pos same]
  exact ⟨rfl, rfl, rfl⟩

theorem lastArgument_accepted {e : Expr} (begins : Begins ts (.expression e))
    (only : Accepted source ts (.expression e)) : Accepted source ts (.arguments [.given e]) := by
  intro close closes closing us same c here
  obtain ⟨t, more, rfl, kind⟩ := begins
  have ends : EndsExpression closing.kind := by
    rw [same]
    rcases closes with rfl | rfl
    · exact endsExpression_of_kind (.inr (.inr (.inr (.inl rfl))))
    · exact endsExpression_of_kind (.inr (.inr (.inl rfl)))
  have apart : closing.kind ≠ .comma := by
    rw [same]
    rcases closes with rfl | rfl <;> exact nofun
  obtain ⟨⟨rest, last, faults, intact⟩, _, read, ahead, errors⟩ :=
    (only (closing :: us) (ahead_cons.mpr ends) c here).eq
  cases ahead
  rw [arguments]
  rw [here, List.cons_append]
  simp only [if_neg (ne_of_begins closes kind)]
  generalize expression source c = found at read ⊢
  subst read
  simp only [if_neg apart]
  exact ⟨rfl, rfl, errors⟩

theorem argument_accepted {comma : Token} {e : Expr} {items : List Argument}
    (begins : Begins ts (.expression e)) (between : comma.kind = .comma)
    (first : Accepted source ts (.expression e)) (others : Accepted source us (.arguments items)) :
    Accepted source (ts ++ comma :: us) (.arguments (.given e :: items)) := by
  intro close closes closing vs same c here
  obtain ⟨t, more, rfl, kind⟩ := begins
  rw [List.append_assoc, List.cons_append] at here
  obtain ⟨⟨rest, last, faults, intact⟩, _, read, ahead, errors⟩ :=
    (first (comma :: (us ++ closing :: vs))
      (ahead_of_kind between (endsExpression_of_kind (.inl rfl))) c here).eq
  cases ahead
  obtain ⟨after, _, read', rest', errors'⟩ := (others close closes closing vs same
    (Cursor.past ⟨comma :: (us ++ closing :: vs), last, faults, intact⟩ comma _) rfl).eq
  rw [arguments]
  rw [here, List.cons_append]
  simp only [if_neg (ne_of_begins closes kind)]
  generalize expression source c = found at read ⊢
  subst read
  simp only [if_pos between, read']
  exact ⟨rfl, rest', errors'.trans errors⟩

/-- Every phrase that the grammar derives is read from its tokens. -/
theorem Derives.accepted {phrase : Phrase} (derives : Derives source ts phrase) :
    Accepted source ts phrase := by
  induction derives with
  | condition _ ih => exact condition_accepted ih
  | ternary _ question _ between _ first second third =>
    exact ternary_accepted question between first second third
  | operand _ ih => exact operand_accepted ih
  | operation binds tight _ _ first second => exact operation_accepted binds tight first second
  | negation sign _ ih => exact negation_accepted sign ih
  | positive only ih => exact unary_accepted only.begins ih
  | text string => exact text_accepted string
  | number written => exact number_accepted written
  | boolean ident constant => exact boolean_accepted ident constant
  | null ident constant => exact null_accepted ident constant
  | array opens _ closes ih => exact array_accepted opens closes ih
  | parenthesised opens _ closes ih => exact parenthesised_accepted opens closes ih
  | chain name _ ends ih => exact chain_accepted name ends ih
  | lastLink _ ih => exact lastLink_accepted ih
  | links _ between _ first others => exact links_accepted between first others
  | name ident => exact name_accepted ident
  | call ident opens _ closes ih => exact call_accepted ident opens closes ih
  | noArguments => exact noArguments_accepted
  | lastArgument only ih => exact lastArgument_accepted only.begins ih
  | argument first between _ ih others => exact argument_accepted first.begins between ih others

end Readers

end FusionAtlas.Template
