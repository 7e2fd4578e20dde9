import FusionAtlas.Proofs.Grammar
import FusionAtlas.Proofs.ReadingLayout

/-!
Readers of expressions drop nothing silently: either a fault is recorded, or the tokens read write
what was read. Main statement: `Template.expression_parses`.
-/

set_option autoImplicit false
set_option relaxedAutoImplicit false

namespace FusionAtlas.Template

namespace Cursor

/-- Between two cursors a fault is recorded, or none and the tokens read are as described. -/
structure Parses (c after : Cursor) (described : List Token → Prop) : Prop where
  suffix : after.rest <:+ c.rest
  outcome : c.errors.size < after.errors.size ∨
    after.errors.size = c.errors.size ∧ ∃ ts, c.rest = ts ++ after.rest ∧ described ts

/-- The tokens read are one token of a kind, and nothing else is read. -/
def Closed (after : Cursor) (kind : TokenKind) (ts : List Token) : Prop :=
  ∃ t, ts = [t] ∧ t.kind = kind ∧ after.lastEnd = t.stop

namespace Parses

variable {c mid after : Cursor} {t : Token} {ts : List Token} {P Q R : List Token → Prop}

theorem errors_le (parses : c.Parses after P) : c.errors.size ≤ after.errors.size := by
  rcases parses.outcome with lt | ⟨same, -⟩
  · exact Nat.le_of_lt lt
  · exact Nat.le_of_eq same.symm

theorem fault (suffix : after.rest <:+ c.rest) (lt : c.errors.size < after.errors.size) :
    c.Parses after P := ⟨suffix, Or.inl lt⟩

theorem read (same : after.errors = c.errors) (rest : c.rest = ts ++ after.rest)
    (described : P ts) : c.Parses after P :=
  ⟨⟨ts, rest.symm⟩, Or.inr ⟨congrArg Array.size same, ts, rest, described⟩⟩

theorem fail (c : Cursor) (size : Nat) (fault : SyntaxFault) : c.Parses (c.fail size fault) P := by
  refine Parses.fault (List.suffix_refl _) ?_
  rw [Cursor.fail, failAt, Array.size_push]
  exact Nat.lt_succ_self _

/-- Nothing is read. -/
theorem nothing (described : P []) : c.Parses c P := read rfl rfl described

theorem token (here : c.rest = t :: ts) (described : P [t]) : c.Parses (c.past t ts) P :=
  read rfl here described

theorem imp (parses : c.Parses after P) (implies : ∀ ts, P ts → Q ts) : c.Parses after Q := by
  refine ⟨parses.suffix, ?_⟩
  rcases parses.outcome with lt | ⟨same, ts, rest, described⟩
  · exact Or.inl lt
  · exact Or.inr ⟨same, ts, rest, implies ts described⟩

/-- Reading on: what is read first comes before what is read then. -/
theorem bind (first : c.Parses mid P) (second : mid.Parses after Q)
    (combine : ∀ ts us, P ts → Q us → R (ts ++ us)) : c.Parses after R := by
  refine ⟨second.suffix.trans first.suffix, ?_⟩
  rcases first.outcome with lt | ⟨same, ts, rest, described⟩
  · exact Or.inl (Nat.lt_of_lt_of_le lt second.errors_le)
  · rcases second.outcome with lt | ⟨same', us, rest', described'⟩
    · exact Or.inl (same ▸ lt)
    · refine Or.inr ⟨same'.trans same, ts ++ us, ?_, combine ts us described described'⟩
      rw [rest, rest', List.append_assoc]

/-- What is read behind a token, seen from before it. -/
theorem behind (here : c.rest = t :: ts) (second : (c.past t ts).Parses after Q)
    (combine : ∀ us, Q us → R (t :: us)) : c.Parses after R :=
  (token here rfl : c.Parses (c.past t ts) (· = [t])).bind second fun _ us single described =>
    single ▸ combine us described

theorem pair (first : c.Parses mid P) (second : mid.Parses after Q) :
    c.Parses after fun read => ∃ ts us, read = ts ++ us ∧ P ts ∧ Q us :=
  first.bind second fun ts us left right => ⟨ts, us, rfl, left, right⟩

/-- Reading on where that cannot end without a fault. -/
theorem bindFault (first : c.Parses mid P) (second : mid.Parses after Q) (never : ∀ ts, ¬Q ts) :
    c.Parses after R :=
  first.bind second fun _ us _ described => absurd described (never us)

/-- A token behind what is read. -/
theorem andToken (first : c.Parses mid P) (here : mid.rest = t :: ts)
    (combine : ∀ us, P us → R (us ++ [t])) : c.Parses (mid.past t ts) R :=
  first.bind (token here rfl : mid.Parses (mid.past t ts) (· = [t])) fun us _ described single =>
    single ▸ combine us described

theorem expect (c : Cursor) (size : Nat) (kind : TokenKind) (fault : SyntaxFault) :
    c.Parses (c.expect size kind fault) ((c.expect size kind fault).Closed kind) := by
  unfold Cursor.expect
  split
  · next t ts here =>
    split
    · next same => exact token here ⟨t, rfl, same, rfl⟩
    · exact fail c size fault
  · exact fail c size fault

end Parses

/-- The operator ahead, if there is one, binds less tightly than the level. -/
def Loose (c : Cursor) (level : Nat) : Prop :=
  ∀ t, c.rest.head? = some t → ∀ p, precedence? t.kind = some p → p < level

end Cursor

open Cursor (Parses)

/-- An attempt succeeded with an expression that the tokens write in the given place of the
grammar. -/
def Written (source : Source) (attempt : Attempt) (place : Expr → Phrase) (ts : List Token) : Prop :=
  ∃ e, attempt = .ok e ∧ Derives source ts (place e)

theorem written_ok {source : Source} {e : Expr} {place : Expr → Phrase} {ts : List Token} :
    Written source (.ok e) place ts ↔ Derives source ts (place e) := by
  constructor
  · rintro ⟨_, same, derives⟩
    obtain rfl := Except.ok.inj same
    exact derives
  · exact fun derives => ⟨e, rfl, derives⟩

theorem not_written_error {source : Source} {pieces : List Expr} {place : Expr → Phrase}
    {ts : List Token} : ¬Written source (.error pieces) place ts :=
  fun ⟨_, failed, _⟩ => nomatch failed

section Readers

variable {source : Source}

/-- Reading a number on behind an optional sign. -/
theorem numberFrom_parses {origin : Cursor} {sign : Option Token} {t : Token} {ts : List Token}
    (minus : ∀ m ∈ sign, m.kind = .minus) (digits : t.kind = .number)
    (here : origin.rest = sign.toList ++ t :: ts) :
    origin.Parses (numberFrom source origin (sign.getD t).start t ts).cursor fun read =>
      IsNumber source read (numberFrom source origin (sign.getD t).start t ts).value.2
        (numberFrom source origin (sign.getD t).start t ts).value.1 := by
  unfold numberFrom
  split
  · next fraction more found =>
    obtain ⟨dot, rfl, point, places, adjacent, adjacent'⟩ := fraction?_written found
    refine Parses.read rfl ?_ (.decimal minus digits point places adjacent adjacent' rfl)
    rw [here, List.append_assoc]
    rfl
  · refine Parses.read rfl ?_ (.whole minus digits rfl)
    rw [here, List.append_assoc]
    rfl

theorem number?_parses {c : Cursor} {s : Step c (String × ByteRange)}
    (found : number? source c = some s) :
    c.Parses s.cursor fun ts => IsNumber source ts s.value.2 s.value.1 := by
  unfold number? at found
  split at found
  · next t ts here =>
    split at found
    · next digits =>
      obtain rfl := Option.some.inj found
      refine @numberFrom_parses source c none t ts ?_ digits here
      intro minus member
      cases member
    · split at found
      · next minus =>
        split at found
        · next _ d ds here' =>
          split at found
          · next digits =>
            obtain rfl := Option.some.inj found
            refine @numberFrom_parses source c (some t) d ds ?_ digits here'
            intro m member
            obtain rfl := Option.some.inj member
            exact minus
          · cases found
        · cases found
      · cases found
  · cases found

mutual

theorem expression_parses (c : Cursor) :
    c.Parses (expression source c).cursor
      (Written source (expression source c).value .expression) := by
  have first := binary_parses 1 c
  rw [expression]
  split
  · next pieces c₁ h₁ equal =>
    rw [equal] at first
    exact first.imp fun ts both => absurd both.1 not_written_error
  · next condition c₁ h₁ equal =>
    rw [equal] at first
    have only : c.Parses c₁ fun ts => Derives source ts (.binary 1 condition) :=
      first.imp fun ts both => written_ok.mp both.1
    have alone : c.Parses c₁ (Written source (.ok condition) .expression) :=
      only.imp fun ts derives => written_ok.mpr (.condition derives)
    split
    · exact alone
    · next t ts here =>
      have lt := Cursor.remaining_past_lt here
      split
      · next question =>
        have asked : c.Parses (c₁.past t ts) fun read => ∃ us, read = us ++ [t] ∧
            Derives source us (.binary 1 condition) :=
          only.andToken here fun us derives => ⟨us, rfl, derives⟩
        have second := expression_parses (c₁.past t ts)
        split
        · next pieces c₃ h₃ equal' =>
          rw [equal'] at second
          exact asked.bindFault second fun _ => not_written_error
        · next thenBranch c₃ h₃ equal' =>
          rw [equal'] at second
          have faulty : c.Parses (c₃.fail source.size .colonExpected)
              (Written source (.ok (.trailed condition [thenBranch])) .expression) :=
            (asked.bindFault (second.bindFault (Parses.fail c₃ _ _) fun _ => id) fun _ => id)
          split
          · next u us here' =>
            have lt' := Cursor.remaining_past_lt here'
            split
            · next between =>
              have colon : (c₁.past t ts).Parses (c₃.past u us) fun read => ∃ vs, read = vs ++ [u] ∧
                  Derives source vs (.expression thenBranch) :=
                second.andToken here' fun vs written => ⟨vs, rfl, written_ok.mp written⟩
              have third := expression_parses (c₃.past u us)
              split
              · next pieces c₅ h₅ equal'' =>
                rw [equal''] at third
                exact asked.bindFault (colon.bindFault third fun _ => not_written_error) fun _ => id
              · next elseBranch c₅ h₅ equal'' =>
                rw [equal''] at third
                refine asked.bind (colon.pair third) ?_
                rintro _ _ ⟨ws, rfl, first⟩ ⟨_, xs, rfl, ⟨vs, rfl, second⟩, third⟩
                have derives := Derives.ternary first question second between (written_ok.mp third)
                simpa [written_ok] using derives
            · exact faulty
          · exact faulty
      · exact alone
termination_by 8 * c.remaining + 4
decreasing_by all_goals omega

theorem binary_parses (level : Nat) (c : Cursor) :
    c.Parses (binary source level c).cursor fun ts =>
      Written source (binary source level c).value (.binary level) ts ∧
        (binary source level c).cursor.Loose level := by
  have first := unary_parses c
  rw [binary]
  split
  · next pieces c₁ h₁ equal =>
    rw [equal] at first
    exact first.imp fun ts written => absurd written not_written_error
  · next left c₁ h₁ equal =>
    rw [equal] at first
    refine binaryTail_parses level (first.imp ?_)
    intro ts written
    have derives := written_ok.mp written
    exact ⟨.operand derives, fun _ _ _ _ _ => .operand derives⟩
termination_by 8 * c.remaining + 3
decreasing_by all_goals omega

/-- A left operand may be joined by the operator ahead. -/
theorem binaryTail_parses {origin c : Cursor} {left : Expr} (level : Nat)
    (first : origin.Parses c fun ts => Derives source ts (.binary level left) ∧
      ∀ t, c.rest.head? = some t → ∀ p, precedence? t.kind = some p → level ≤ p →
        Derives source ts (.binary p left)) :
    origin.Parses (binaryTail source level left c).cursor fun ts =>
      Written source (binaryTail source level left c).value (.binary level) ts ∧
        (binaryTail source level left c).cursor.Loose level := by
  rw [binaryTail]
  split
  · next here =>
    refine first.imp ?_
    rintro ts ⟨derives, -⟩
    refine ⟨⟨left, rfl, derives⟩, ?_⟩
    intro t ahead
    change c.rest.head? = some t at ahead
    rw [here] at ahead
    cases ahead
  · next t ts here =>
    have lt := Cursor.remaining_past_lt here
    have ahead : c.rest.head? = some t := congrArg List.head? here
    have stop (loose : ∀ p, precedence? t.kind = some p → p < level) :
        origin.Parses c fun ts => Written source (.ok left) (.binary level) ts ∧ c.Loose level := by
      refine first.imp ?_
      rintro ts ⟨derives, -⟩
      refine ⟨⟨left, rfl, derives⟩, ?_⟩
      intro u ahead' p binds
      rw [ahead] at ahead'
      obtain rfl := Option.some.inj ahead'
      exact loose p binds
    split
    · next none' =>
      exact stop fun p binds => nomatch none'.symm.trans binds
    · next p binds =>
      split
      · next loose =>
        refine stop fun q binds' => ?_
        rw [binds] at binds'
        obtain rfl := Option.some.inj binds'
        exact loose
      · next tight =>
        have tight : level ≤ p := Nat.le_of_not_lt tight
        have operator : origin.Parses (c.past t ts) fun read => ∃ us, read = us ++ [t] ∧
            Derives source us (.binary p left) :=
          first.andToken here fun us derives => ⟨us, rfl, derives.2 t ahead p binds tight⟩
        have second := binary_parses (p + 1) (c.past t ts)
        split
        · next pieces c₂ h₂ equal =>
          rw [equal] at second
          exact operator.bindFault second fun _ both => not_written_error both.1
        · next right c₂ h₂ equal =>
          rw [equal] at second
          refine binaryTail_parses level (operator.bind second ?_)
          rintro _ vs ⟨us, rfl, first⟩ ⟨second, loose⟩
          rw [List.append_assoc]
          have joined (l : Nat) (le : l ≤ p) :=
            Derives.operation binds le first (written_ok.mp second)
          refine ⟨joined level tight, ?_⟩
          intro u ahead' q binds' _
          exact joined q (Nat.le_of_lt_succ (loose u ahead' q binds'))
termination_by 8 * c.remaining
decreasing_by all_goals omega

theorem unary_parses (c : Cursor) :
    c.Parses (unary source c).cursor (Written source (unary source c).value .unary) := by
  have positive : c.Parses (primary source c).cursor
      (Written source (primary source c).value .unary) := by
    refine (primary_parses c).imp ?_
    rintro ts ⟨e, ok, derives⟩
    exact ⟨e, ok, .positive derives⟩
  rw [unary]
  split
  · exact positive
  · next t ts here =>
    have lt := Cursor.remaining_past_lt here
    split
    · next bang =>
      have second := unary_parses (c.past t ts)
      split
      · next pieces c₂ h₂ equal =>
        rw [equal] at second
        exact Parses.behind here second fun _ written => absurd written not_written_error
      · next operand c₂ h₂ equal =>
        rw [equal] at second
        refine Parses.behind here second ?_
        exact fun us written => written_ok.mpr (.negation bang (written_ok.mp written))
    · exact positive
termination_by 8 * c.remaining + 2
decreasing_by all_goals omega

theorem primary_parses (c : Cursor) :
    c.Parses (primary source c).cursor (Written source (primary source c).value .primary) := by
  rw [primary]
  split
  · next digits found =>
    exact (number?_parses found).imp fun ts written => ⟨_, rfl, .number written⟩
  · split
    · exact Parses.fail c source.size .expressionExpected
    · next t ts here =>
      have lt := Cursor.remaining_past_lt here
      split
      · next kind => exact Parses.token here ⟨_, rfl, .text kind⟩
      · next kind =>
        have items := arguments_parses .rightBracket (c.past t ts)
        split
        next given c₂ h₂ equal =>
          rw [equal] at items
          have closed := items.pair (Parses.expect c₂ source.size .rightBracket
            (.closingExpected ']'))
          refine Parses.behind here closed ?_
          rintro _ ⟨us, _, rfl, derives, ⟨u, rfl, closing, stop⟩⟩
          refine written_ok.mpr ?_
          rw [stop]
          exact .array kind derives closing
      · next kind =>
        have inner := expression_parses (c.past t ts)
        split
        next given c₂ h₂ equal =>
          rw [equal] at inner
          have closed := inner.pair (Parses.expect c₂ source.size .rightParen
            (.closingExpected ')'))
          refine Parses.behind here closed ?_
          rintro _ ⟨us, _, rfl, ⟨e, ok, derives⟩, ⟨u, rfl, closing, -⟩⟩
          exact ⟨e, ok, .parenthesised kind derives closing⟩
      · next kind =>
        split
        · next value constant => exact Parses.token here ⟨_, rfl, .boolean kind constant⟩
        · next boolean =>
          split
          · next null => exact Parses.token here ⟨_, rfl, .null kind null⟩
          · next null =>
            have name : IsName t := ⟨kind, boolean, Bool.eq_false_iff.mpr null⟩
            refine (chain_parses here kind).imp ?_
            rintro _ ⟨⟨us, rfl⟩, derives, last, found⟩
            refine written_ok.mpr ?_
            simp only [Step.weaken, found, Option.map_some, Option.getD_some]
            exact .chain name derives found
      · exact Parses.fail c source.size .expressionExpected
termination_by 8 * c.remaining + 1
decreasing_by all_goals omega

theorem chain_parses {origin : Cursor} {word : Token} {ts : List Token}
    (here : origin.rest = word :: ts) (ident : word.kind = .ident) :
    let s := chain source word (origin.past word ts)
    origin.Parses s.cursor fun read => (∃ us, read = word :: us) ∧
      Derives source read (.chain s.value) ∧ ∃ last, s.value.getLast? = some last := by
  have first := link_parses here ident
  dsimp only
  rw [chain]
  split
  next segment c₁ h₁ equal =>
    rw [equal] at first
    have one : origin.Parses c₁ fun read => (∃ us, read = word :: us) ∧
        Derives source read (.chain [segment]) ∧ ∃ last, [segment].getLast? = some last := by
      refine first.imp ?_
      rintro _ ⟨begins, derives⟩
      exact ⟨begins, .lastLink derives, segment, rfl⟩
    split
    · next dot next more here' =>
      split
      · next both =>
        have lt := Cursor.remaining_past_lt here'
        have lt' : ((c₁.past dot (next :: more)).past next more).remaining <
            (c₁.past dot (next :: more)).remaining := Cursor.remaining_past_lt rfl
        have others := @chain_parses (c₁.past dot (next :: more)) next more rfl both.2
        split
        next segments c₃ h₃ equal' =>
          rw [equal'] at others
          have dotted : origin.Parses (c₁.past dot (next :: more)) fun read => ∃ us,
              read = word :: us ++ [dot] ∧ Derives source (word :: us) (.link segment) := by
            refine first.andToken here' ?_
            rintro _ ⟨⟨us, rfl⟩, derives⟩
            exact ⟨us, rfl, derives⟩
          refine dotted.bind others ?_
          rintro _ vs ⟨us, rfl, first⟩ ⟨-, others, last, found⟩
          rw [List.append_assoc]
          refine ⟨⟨us ++ dot :: vs, rfl⟩, .links first both.1 others, last, ?_⟩
          rw [List.getLast?_cons, found]
          rfl
      · exact one
    · exact one
termination_by 8 * (origin.past word ts).remaining + 1
decreasing_by all_goals omega

theorem link_parses {origin : Cursor} {word : Token} {ts : List Token}
    (here : origin.rest = word :: ts) (ident : word.kind = .ident) :
    let s := link source word (origin.past word ts)
    origin.Parses s.cursor fun read => (∃ us, read = word :: us) ∧
      Derives source read (.link s.value) := by
  have name : origin.Parses (origin.past word ts) fun read => (∃ us, read = word :: us) ∧
      Derives source read (.link (.name word.range word.text)) :=
    Parses.token here ⟨⟨[], rfl⟩, .name ident⟩
  dsimp only
  rw [link]
  split
  · exact name
  · next t us here' =>
    have lt := Cursor.remaining_past_lt here'
    split
    · next opens =>
      have given := arguments_parses .rightParen ((origin.past word ts).past t us)
      split
      next args c₂ h₂ equal =>
        rw [equal] at given
        have closed := given.pair (Parses.expect c₂ source.size .rightParen
          (.closingExpected ')'))
        refine Parses.behind here (Q := fun read => Derives source (word :: read) (.link _))
          (Parses.behind here' closed ?_) fun read derives => ⟨⟨read, rfl⟩, derives⟩
        rintro _ ⟨vs, _, rfl, derives, u, rfl, closing, stop⟩
        dsimp only
        rw [stop]
        exact .call ident opens derives closing
    · exact name
termination_by 8 * (origin.past word ts).remaining
decreasing_by all_goals omega

theorem arguments_parses (close : TokenKind) (c : Cursor) :
    c.Parses (arguments source close c).cursor fun ts =>
      Derives source ts (.arguments (arguments source close c).value) := by
  rw [arguments]
  split
  · exact Parses.nothing .noArguments
  · next t ts here =>
    split
    · exact Parses.nothing .noArguments
    · have first := expression_parses c
      split
      next attempt c₁ h₁ equal =>
        rw [equal] at first
        have one : c.Parses c₁ fun ts => Derives source ts (.arguments [.ofAttempt attempt]) := by
          refine first.imp ?_
          rintro ts ⟨e, ok, derives⟩
          change attempt = .ok e at ok
          subst ok
          exact .lastArgument derives
        split
        · next u us here' =>
          have lt := Cursor.remaining_past_lt here'
          split
          · next between =>
            have comma : c.Parses (c₁.past u us) fun read => ∃ vs e, read = vs ++ [u] ∧
                attempt = .ok e ∧ Derives source vs (.expression e) := by
              refine first.andToken here' ?_
              rintro vs ⟨e, ok, derives⟩
              exact ⟨vs, e, rfl, ok, derives⟩
            have others := arguments_parses close (c₁.past u us)
            split
            next more c₃ h₃ equal' =>
              rw [equal'] at others
              refine comma.bind others ?_
              rintro _ ws ⟨vs, e, rfl, rfl, derives⟩ others
              rw [List.append_assoc]
              exact .argument derives between others
          · exact one
        · exact one
termination_by 8 * c.remaining + 5
decreasing_by all_goals omega

end

end Readers

end FusionAtlas.Template
