import FusionAtlas.Proofs.MovedSyntax
import FusionAtlas.Proofs.ReadingLayout

/-!
Expressions are read alike wherever they stand. From a cursor moved within a text that ends in the other one,
each reader of expressions gives what it gives there, moved as well: the expression or the pieces given up, the
tokens left, and the faults. Main statement: `Template.expression_moved`.
-/

set_option autoImplicit false
set_option relaxedAutoImplicit false

namespace FusionAtlas.Template

/-- One step gives what another gives, further behind in the text. -/
structure Step.Moves {c c' : Cursor} {α : Type} (k : Nat) (move : α → α) (s : Step c α) (s' : Step c' α) : Prop where
  value : s'.value = move s.value
  cursor : s'.cursor = s.cursor.moved k

namespace Step.Moves

variable {c c' d d' : Cursor} {α β : Type} {k : Nat} {move : α → α} {s : Step c α} {s' : Step c' α}

/-- Both steps taken apart. -/
theorem exists_eq (moves : s.Moves k move s') : ∃ v after h after' h',
    s = ⟨v, after, h⟩ ∧ s' = ⟨move v, after', h'⟩ ∧ after' = after.moved k := by
  obtain ⟨v, after, h⟩ := s
  obtain ⟨v', after', h'⟩ := s'
  obtain rfl : v' = move v := moves.value
  exact ⟨v, after, h, after', h', rfl, rfl, moves.cursor⟩

theorem weaken (moves : s.Moves k move s') (h : c.remaining ≤ d.remaining)
    (h' : c'.remaining ≤ d'.remaining) : (s.weaken h).Moves k move (s'.weaken h') :=
  ⟨moves.value, moves.cursor⟩

theorem map {f f' : α → β} {move' : β → β} (moves : s.Moves k move s')
    (same : ∀ v, f' (move v) = move' (f v)) : (s.map f).Moves k move' (s'.map f') :=
  ⟨(congrArg f' moves.value).trans (same s.value), moves.cursor⟩

end Step.Moves

open Step (Moves)

/-- Behind the first of the moved tokens is where moving leads from behind the token itself. -/
theorem Cursor.past_moved {k : Nat} {t : Token} {ts : List Token} {lastEnd : Nat} {errors : Array SyntaxError}
    {intact : Bool} :
    (Cursor.mk (t.moved k :: ts.map (Token.moved k)) (lastEnd + k) (errors.map (SyntaxError.moved k))
        intact).past (t.moved k) (ts.map (Token.moved k)) =
      ((Cursor.mk (t :: ts) lastEnd errors intact).past t ts).moved k :=
  (moved_past k ⟨t :: ts, lastEnd, errors, intact⟩ t ts).symm

section Readers

variable {source small : Source} {k : Nat} {c c' : Cursor}

theorem fraction?_moved (k lastEnd : Nat) (ts : List Token) :
    fraction? (lastEnd + k) (ts.map (Token.moved k)) =
      (fraction? lastEnd ts).map fun found => (found.1.moved k, found.2.map (Token.moved k)) := by
  rcases ts with _ | ⟨dot, _ | ⟨digits, more⟩⟩
  · rfl
  · rfl
  · simp only [fraction?, List.map_cons, Token.kind_moved, Token.start_moved, Token.stop_moved,
      Nat.add_right_cancel_iff]
    split <;> rfl

/-- A text with its place, further behind. -/
def placedMoved (k : Nat) (found : String × ByteRange) : String × ByteRange := (found.1, found.2.moved k)

theorem numberFrom_moved (ends : source.EndsIn k small) (c : Cursor) (start : Nat) (t : Token) (ts : List Token) :
    (numberFrom small c start t ts).Moves k (placedMoved k)
      (numberFrom source (c.moved k) (start + k) (t.moved k) (ts.map (Token.moved k))) := by
  have found := fraction?_moved k t.stop ts
  rw [← Token.stop_moved] at found
  unfold numberFrom
  split
  · next digits more there =>
    rw [there] at found
    split
    · next digits' more' there' =>
      rw [there'] at found
      obtain ⟨rfl, rfl⟩ := Prod.mk.inj (Option.some.inj found)
      have range : (⟨start + k, (digits.moved k).stop⟩ : ByteRange) = ByteRange.moved k ⟨start, digits.stop⟩ := by
        rw [Token.stop_moved, ByteRange.moved]
      refine ⟨?_, ?_⟩
      · dsimp only
        rw [range, ends.quote_moved, placedMoved]
      · dsimp only
        rw [Cursor.moved_need ends, Cursor.moved_past, Cursor.moved_past, range]
    · next there' =>
      rw [there'] at found
      cases found
  · next there =>
    rw [there] at found
    split
    · next there' =>
      rw [there'] at found
      cases found
    · have range : (⟨start + k, (t.moved k).stop⟩ : ByteRange) = ByteRange.moved k ⟨start, t.stop⟩ := by
        rw [Token.stop_moved, ByteRange.moved]
      refine ⟨?_, ?_⟩
      · dsimp only
        rw [range, ends.quote_moved, placedMoved]
      · dsimp only
        rw [Cursor.moved_need ends, Cursor.moved_past, range]

theorem number?_moved (ends : source.EndsIn k small) (same : c' = c.moved k) :
    Option.Rel (Moves k (placedMoved k)) (number? small c) (number? source c') := by
  obtain ⟨_ | ⟨t, ts⟩, lastEnd, errors, intact⟩ := c
  · subst same
    exact .none
  obtain rfl : c' = ⟨t.moved k :: ts.map (Token.moved k), lastEnd + k,
    errors.map (SyntaxError.moved k), intact⟩ := same
  unfold number?
  dsimp only
  by_cases number : t.kind = .number
  · rw [if_pos number, if_pos (show (t.moved k).kind = _ from number)]
    exact .some ((numberFrom_moved ends ⟨t :: ts, lastEnd, errors, intact⟩ t.start t ts).weaken _ _)
  rw [if_neg number, if_neg (show ¬(t.moved k).kind = _ from number)]
  by_cases minus : t.kind = .minus
  · rw [if_pos minus, if_pos (show (t.moved k).kind = _ from minus)]
    rcases ts with _ | ⟨d, ds⟩
    · exact .none
    change Option.Rel _ (if d.kind = .number then _ else none) (if (d.moved k).kind = .number then _ else none)
    by_cases digits : d.kind = .number
    · rw [if_pos digits, if_pos (show (d.moved k).kind = _ from digits)]
      exact .some ((numberFrom_moved ends ⟨t :: d :: ds, lastEnd, errors, intact⟩ t.start d ds).weaken _ _)
    · rw [if_neg digits, if_neg (show ¬(d.moved k).kind = _ from digits)]
      exact .none
  · rw [if_neg minus, if_neg (show ¬(t.moved k).kind = _ from minus)]
    exact .none

mutual

theorem expression_moved (ends : source.EndsIn k small) {c c' : Cursor} (same : c' = c.moved k) :
    (expression small c).Moves k (Attempt.moved k) (expression source c') := by
  obtain ⟨v, c₁, h₁, c₁', h₁', here, there, same₁⟩ := (binary_moved ends 1 same).exists_eq
  rw [expression, here, expression, there]
  rcases v with pieces | condition
  · exact ⟨rfl, same₁⟩
  rcases c₁ with ⟨_ | ⟨t, ts⟩, lastEnd, errors, intact⟩
  · subst same₁
    exact ⟨rfl, rfl⟩
  obtain rfl : c₁' = ⟨t.moved k :: ts.map (Token.moved k), lastEnd + k,
    errors.map (SyntaxError.moved k), intact⟩ := same₁
  have lt := Cursor.remaining_past_lt (c := ⟨t :: ts, lastEnd, errors, intact⟩) rfl
  dsimp only [Attempt.moved]
  by_cases question : t.kind = .question
  · rw [if_pos question, if_pos (show (t.moved k).kind = _ from question)]
    obtain ⟨v, c₃, h₃, c₃', h₃', here, there, same₃⟩ := (expression_moved ends Cursor.past_moved).exists_eq
    rw [here, there]
    rcases v with pieces | thenBranch
    · exact ⟨rfl, same₃⟩
    rcases c₃ with ⟨_ | ⟨u, us⟩, lastEnd₃, errors₃, intact₃⟩
    · subst same₃
      exact ⟨rfl, (Cursor.moved_fail ends _ _).symm⟩
    obtain rfl : c₃' = ⟨u.moved k :: us.map (Token.moved k), lastEnd₃ + k,
      errors₃.map (SyntaxError.moved k), intact₃⟩ := same₃
    have lt' := Cursor.remaining_past_lt (c := ⟨u :: us, lastEnd₃, errors₃, intact₃⟩) rfl
    dsimp only [Attempt.moved]
    by_cases colon : u.kind = .colon
    · rw [if_pos colon, if_pos (show (u.moved k).kind = _ from colon)]
      obtain ⟨v, c₅, h₅, c₅', h₅', here, there, same₅⟩ := (expression_moved ends Cursor.past_moved).exists_eq
      rw [here, there]
      rcases v with pieces | elseBranch
      · exact ⟨rfl, same₅⟩
      · refine ⟨?_, same₅⟩
        simp only [Attempt.moved, Expr.moved, Expr.range_moved]
        rfl
    · rw [if_neg colon, if_neg (show ¬(u.moved k).kind = _ from colon)]
      exact ⟨rfl, (Cursor.moved_fail ends ⟨u :: us, lastEnd₃, errors₃, intact₃⟩ _).symm⟩
  · rw [if_neg question, if_neg (show ¬(t.moved k).kind = _ from question)]
    exact ⟨rfl, rfl⟩
termination_by 8 * c.remaining + 4
decreasing_by all_goals omega

theorem binary_moved (ends : source.EndsIn k small) (level : Nat) {c c' : Cursor} (same : c' = c.moved k) :
    (binary small level c).Moves k (Attempt.moved k) (binary source level c') := by
  obtain ⟨v, c₁, h₁, c₁', h₁', here, there, same₁⟩ := (unary_moved ends same).exists_eq
  rw [binary, here, binary, there]
  rcases v with pieces | left
  · exact ⟨rfl, same₁⟩
  · exact (binaryTail_moved ends level left same₁).weaken _ _
termination_by 8 * c.remaining + 3
decreasing_by all_goals omega

theorem binaryTail_moved (ends : source.EndsIn k small) (level : Nat) (left : Expr) {c c' : Cursor}
    (same : c' = c.moved k) :
    (binaryTail small level left c).Moves k (Attempt.moved k) (binaryTail source level (left.moved k) c') := by
  rw [binaryTail, binaryTail]
  rcases whole : c with ⟨_ | ⟨t, ts⟩, lastEnd, errors, intact⟩
  · subst whole same
    exact ⟨rfl, rfl⟩
  have lt : (Cursor.past ⟨t :: ts, lastEnd, errors, intact⟩ t ts).remaining < c.remaining :=
    by rw [whole]; exact Cursor.remaining_past_lt rfl
  rw [whole] at same
  obtain rfl : c' = ⟨t.moved k :: ts.map (Token.moved k), lastEnd + k,
    errors.map (SyntaxError.moved k), intact⟩ := same
  dsimp only [Token.kind_moved]
  cases binds : precedence? t.kind with
  | none => exact ⟨rfl, rfl⟩
  | some p =>
    dsimp only
    by_cases loose : p < level
    · rw [if_pos loose, if_pos loose]
      exact ⟨rfl, rfl⟩
    · rw [if_neg loose, if_neg loose]
      obtain ⟨v, c₂, h₂, c₂', h₂', here, there, same₂⟩ := (binary_moved ends (p + 1) Cursor.past_moved).exists_eq
      rw [here, there]
      rcases v with pieces | right
      · exact ⟨rfl, same₂⟩
      · have tail := binaryTail_moved ends level
          (.operation ⟨left.range.start, right.range.stop⟩ left t.text right) same₂
        simp only [Expr.moved, Attempt.moved, Expr.range_moved] at tail ⊢
        exact tail.weaken _ _
termination_by 8 * c.remaining
decreasing_by all_goals omega

theorem unary_moved (ends : source.EndsIn k small) {c c' : Cursor} (same : c' = c.moved k) :
    (unary small c).Moves k (Attempt.moved k) (unary source c') := by
  have operand := primary_moved ends same
  rw [unary, unary]
  rcases whole : c with ⟨_ | ⟨t, ts⟩, lastEnd, errors, intact⟩
  · subst whole same
    exact operand
  have lt : (Cursor.past ⟨t :: ts, lastEnd, errors, intact⟩ t ts).remaining < c.remaining :=
    by rw [whole]; exact Cursor.remaining_past_lt rfl
  rw [whole] at same operand
  obtain rfl : c' = ⟨t.moved k :: ts.map (Token.moved k), lastEnd + k,
    errors.map (SyntaxError.moved k), intact⟩ := same
  dsimp only
  by_cases bang : t.kind = .bang
  · rw [if_pos bang, if_pos (show (t.moved k).kind = _ from bang)]
    obtain ⟨v, c₂, h₂, c₂', h₂', here, there, same₂⟩ := (unary_moved ends Cursor.past_moved).exists_eq
    rw [here, there]
    rcases v with pieces | operand
    · exact ⟨rfl, same₂⟩
    · refine ⟨?_, same₂⟩
      simp only [Attempt.moved, Expr.moved, Expr.range_moved]
      rfl
  · rw [if_neg bang, if_neg (show ¬(t.moved k).kind = _ from bang)]
    exact operand
termination_by 8 * c.remaining + 2
decreasing_by all_goals omega

theorem primary_moved (ends : source.EndsIn k small) {c c' : Cursor} (same : c' = c.moved k) :
    (primary small c).Moves k (Attempt.moved k) (primary source c') := by
  have digits := number?_moved ends same
  rw [primary, primary]
  generalize number? small c = found at digits ⊢
  generalize number? source c' = found' at digits ⊢
  cases digits with
  | some moves => exact moves.map fun _ => rfl
  | none =>
    rcases whole : c with ⟨_ | ⟨t, ts⟩, lastEnd, errors, intact⟩
    · subst whole same
      exact ⟨rfl, (Cursor.moved_fail ends _ _).symm⟩
    have lt : (Cursor.past ⟨t :: ts, lastEnd, errors, intact⟩ t ts).remaining < c.remaining := by
      rw [whole]
      exact Cursor.remaining_past_lt rfl
    rw [whole] at same
    obtain rfl : c' = ⟨t.moved k :: ts.map (Token.moved k), lastEnd + k,
      errors.map (SyntaxError.moved k), intact⟩ := same
    dsimp only [Token.kind_moved]
    cases kind : t.kind with
    | string =>
      exact ⟨by simp only [Attempt.moved, Expr.moved, Token.range_moved, Token.text_moved], Cursor.past_moved⟩
    | leftBracket =>
      obtain ⟨v, c₂, h₂, c₂', h₂', here, there, rfl⟩ :=
        (arguments_moved ends .rightBracket Cursor.past_moved).exists_eq
      dsimp only
      rw [here, there]
      have closed := Cursor.moved_expect ends c₂ .rightBracket (.closingExpected ']')
      refine ⟨?_, closed.symm⟩
      dsimp only
      rw [← closed]
      rfl
    | leftParen =>
      obtain ⟨v, c₂, h₂, c₂', h₂', here, there, rfl⟩ := (expression_moved ends Cursor.past_moved).exists_eq
      dsimp only
      rw [here, there]
      exact ⟨rfl, (Cursor.moved_expect ends c₂ .rightParen (.closingExpected ')')).symm⟩
    | ident =>
      dsimp only
      rw [Token.text_moved]
      cases constant : boolean? t.text with
      | some value => exact ⟨by simp only [Attempt.moved, Expr.moved, Token.range_moved], Cursor.past_moved⟩
      | none =>
        dsimp only
        by_cases null : isNull t.text = true
        · rw [if_pos null, if_pos null]
          exact ⟨by simp only [Attempt.moved, Expr.moved, Token.range_moved], Cursor.past_moved⟩
        · rw [if_neg null, if_neg null]
          refine Moves.map ((chain_moved ends t Cursor.past_moved).weaken _ _) fun segments => ?_
          simp only [getLast?_segmentsMoved, Token.range_moved, Attempt.moved, Expr.moved]
          cases segments.getLast? with
          | none => rfl
          | some last => simp only [Option.map_some, Option.getD_some, Segment.range_moved]; rfl
    | _ => exact ⟨rfl, (Cursor.moved_fail ends ⟨t :: ts, lastEnd, errors, intact⟩ _).symm⟩
termination_by 8 * c.remaining + 1
decreasing_by all_goals omega

theorem chain_moved (ends : source.EndsIn k small) (word : Token) {c c' : Cursor} (same : c' = c.moved k) :
    (chain small word c).Moves k (segmentsMoved k) (chain source (word.moved k) c') := by
  obtain ⟨segment, c₁, h₁, c₁', h₁', here, there, same₁⟩ := (link_moved ends word same).exists_eq
  rw [chain, here, chain, there]
  rcases c₁ with ⟨_ | ⟨dot, _ | ⟨next, more⟩⟩, lastEnd, errors, intact⟩
  · subst same₁
    exact ⟨rfl, rfl⟩
  · subst same₁
    exact ⟨rfl, rfl⟩
  have lt : (Cursor.past (Cursor.past ⟨dot :: next :: more, lastEnd, errors, intact⟩ dot (next :: more))
      next more).remaining < c.remaining :=
    Nat.lt_trans (Cursor.remaining_past_lt rfl) (Nat.lt_of_lt_of_le (Cursor.remaining_past_lt rfl) h₁)
  obtain rfl : c₁' = ⟨dot.moved k :: next.moved k :: more.map (Token.moved k), lastEnd + k,
    errors.map (SyntaxError.moved k), intact⟩ := same₁
  dsimp only
  by_cases dotted : dot.kind = .dot ∧ next.kind = .ident
  · rw [if_pos dotted, if_pos (show (dot.moved k).kind = _ ∧ (next.moved k).kind = _ from dotted)]
    have behind : Cursor.past (Cursor.past ⟨dot.moved k :: next.moved k :: more.map (Token.moved k),
        lastEnd + k, errors.map (SyntaxError.moved k), intact⟩ (dot.moved k)
          (next.moved k :: more.map (Token.moved k))) (next.moved k) (more.map (Token.moved k)) =
        Cursor.moved k (Cursor.past (Cursor.past ⟨dot :: next :: more, lastEnd, errors, intact⟩ dot
          (next :: more)) next more) := by
      rw [Cursor.moved_past, Cursor.moved_past]
      rfl
    obtain ⟨segments, c₃, h₃, c₃', h₃', here, there, same₃⟩ := (chain_moved ends next behind).exists_eq
    rw [here, there]
    exact ⟨rfl, same₃⟩
  · rw [if_neg dotted, if_neg (show ¬((dot.moved k).kind = _ ∧ (next.moved k).kind = _) from dotted)]
    exact ⟨rfl, rfl⟩
termination_by 8 * c.remaining + 1
decreasing_by all_goals omega

theorem link_moved (ends : source.EndsIn k small) (word : Token) {c c' : Cursor} (same : c' = c.moved k) :
    (link small word c).Moves k (Segment.moved k) (link source (word.moved k) c') := by
  rw [link, link]
  rcases whole : c with ⟨_ | ⟨t, ts⟩, lastEnd, errors, intact⟩
  · subst whole same
    exact ⟨congrArg (Segment.name · word.text) (word.range_moved k), rfl⟩
  have lt : (Cursor.past ⟨t :: ts, lastEnd, errors, intact⟩ t ts).remaining < c.remaining := by
    rw [whole]
    exact Cursor.remaining_past_lt rfl
  rw [whole] at same
  obtain rfl : c' = ⟨t.moved k :: ts.map (Token.moved k), lastEnd + k,
    errors.map (SyntaxError.moved k), intact⟩ := same
  dsimp only
  by_cases opens : t.kind = .leftParen
  · rw [if_pos opens, if_pos (show (t.moved k).kind = _ from opens)]
    obtain ⟨v, c₂, h₂, c₂', h₂', here, there, rfl⟩ :=
      (arguments_moved ends .rightParen Cursor.past_moved).exists_eq
    rw [here, there]
    have closed := Cursor.moved_expect ends c₂ .rightParen (.closingExpected ')')
    refine ⟨?_, closed.symm⟩
    dsimp only
    rw [← closed]
    rfl
  · rw [if_neg opens, if_neg (show ¬(t.moved k).kind = _ from opens)]
    exact ⟨congrArg (Segment.name · word.text) (word.range_moved k), rfl⟩
termination_by 8 * c.remaining
decreasing_by all_goals omega

theorem arguments_moved (ends : source.EndsIn k small) (close : TokenKind) {c c' : Cursor}
    (same : c' = c.moved k) :
    (arguments small close c).Moves k (argumentsMoved k) (arguments source close c') := by
  have read := expression_moved ends same
  rw [arguments, arguments]
  rcases whole : c with ⟨_ | ⟨t, ts⟩, lastEnd, errors, intact⟩
  · subst whole same
    exact ⟨rfl, rfl⟩
  rw [whole] at same read
  obtain rfl : c' = ⟨t.moved k :: ts.map (Token.moved k), lastEnd + k,
    errors.map (SyntaxError.moved k), intact⟩ := same
  dsimp only
  by_cases closes : t.kind = close
  · rw [if_pos closes, if_pos (show (t.moved k).kind = _ from closes)]
    exact ⟨rfl, rfl⟩
  rw [if_neg closes, if_neg (show ¬(t.moved k).kind = _ from closes)]
  obtain ⟨attempt, c₁, h₁, c₁', h₁', here, there, same₁⟩ := read.exists_eq
  rw [here, there]
  rcases c₁ with ⟨_ | ⟨u, us⟩, lastEnd₁, errors₁, intact₁⟩
  · subst same₁
    exact ⟨by simp only [Argument.moved_ofAttempt]; rfl, rfl⟩
  have lt : (Cursor.past ⟨u :: us, lastEnd₁, errors₁, intact₁⟩ u us).remaining < c.remaining := by
    rw [whole]
    exact Nat.lt_of_lt_of_le (Cursor.remaining_past_lt rfl) h₁
  obtain rfl : c₁' = ⟨u.moved k :: us.map (Token.moved k), lastEnd₁ + k,
    errors₁.map (SyntaxError.moved k), intact₁⟩ := same₁
  dsimp only
  by_cases comma : u.kind = .comma
  · rw [if_pos comma, if_pos (show (u.moved k).kind = _ from comma)]
    obtain ⟨more, c₃, h₃, c₃', h₃', here, there, same₃⟩ := (arguments_moved ends close Cursor.past_moved).exists_eq
    rw [here, there]
    exact ⟨by simp only [Argument.moved_ofAttempt, argumentsMoved], same₃⟩
  · rw [if_neg comma, if_neg (show ¬(u.moved k).kind = _ from comma)]
    exact ⟨by simp only [Argument.moved_ofAttempt]; rfl, rfl⟩
termination_by 8 * c.remaining + 5
decreasing_by all_goals omega

end

end Readers

end FusionAtlas.Template
