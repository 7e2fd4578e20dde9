import FusionAtlas.Proofs.MovedExpressions

/-!
Statements are read alike wherever they stand. From a cursor that has the tokens of another text ahead, moved with
that text, the readers give what they give there, moved as well. A list of statements does not even ask what was
read before it; only an empty block does, for where it ends. Main statements: `Template.statement_moved` and
`Template.statementList_moved`.
-/

set_option autoImplicit false
set_option relaxedAutoImplicit false

namespace FusionAtlas.Template

open FusionAtlas.Text (byteSize dropBytes)
open Step (Moves)

section Parts

variable {source small : Source} {k : Nat} {c c' : Cursor} {t : Token} {ts : List Token}

theorem componentLength_moved (k lastEnd : Nat) (ts : List Token) :
    componentLength (lastEnd + k) (ts.map (Token.moved k)) = componentLength lastEnd ts := by
  induction ts generalizing lastEnd with
  | nil => rfl
  | cons t ts ih =>
    simp only [List.map_cons, componentLength, Token.kind_moved, Token.start_moved, Token.stop_moved,
      Nat.add_right_cancel_iff, ih]

theorem recoveryLength_moved (k depth : Nat) (ts : List Token) :
    recoveryLength depth (ts.map (Token.moved k)) = recoveryLength depth ts := by
  induction ts generalizing depth with
  | nil => rfl
  | cons t ts ih =>
    rw [List.map_cons]
    unfold recoveryLength
    simp only [Token.kind_moved, ih]

theorem component_moved (ends : source.EndsIn k small) (first : Token) (same : c' = c.moved k) :
    (component small first c).Moves k (placedMoved k) (component source (first.moved k) c') := by
  subst same
  have length : componentLength (c.moved k).lastEnd (c.moved k).rest = componentLength c.lastEnd c.rest :=
    componentLength_moved k c.lastEnd c.rest
  have colon (n : Nat) : ((c.moved k).rest.take n).any (·.kind = .colon) = (c.rest.take n).any (·.kind = .colon) := by
    change ((c.rest.map (Token.moved k)).take n).any _ = _
    rw [← List.map_take, List.any_map]
    rfl
  unfold component
  simp only [length, colon, ← Cursor.moved_skip]
  have name := ends.quote_moved ⟨first.start, (c.skip (componentLength c.lastEnd c.rest)).lastEnd⟩
  by_cases qualified : (c.rest.take (componentLength c.lastEnd c.rest)).any (·.kind = .colon) = true
  · rw [if_pos qualified, if_pos qualified]
    refine ⟨Prod.ext name rfl, ?_⟩
    rw [Cursor.moved_need ends]
    rfl
  · rw [if_neg qualified, if_neg qualified]
    refine ⟨Prod.ext name rfl, ?_⟩
    rw [Cursor.moved_failAt, Cursor.moved_need ends]
    rfl

theorem component?_moved (ends : source.EndsIn k small) (same : c' = c.moved k) :
    Option.Rel (Moves k (placedMoved k)) (component? small c) (component? source c') := by
  obtain ⟨_ | ⟨t, ts⟩, lastEnd, errors, intact⟩ := c
  · subst same
    exact .none
  obtain rfl : c' = ⟨t.moved k :: ts.map (Token.moved k), lastEnd + k,
    errors.map (SyntaxError.moved k), intact⟩ := same
  unfold component?
  dsimp only
  by_cases begins : t.kind = .ident ∨ t.kind = .number
  · rw [if_pos begins, if_pos (show (t.moved k).kind = _ ∨ (t.moved k).kind = _ from begins)]
    exact .some ((component_moved ends t Cursor.past_moved).weaken _ _)
  · rw [if_neg begins, if_neg (show ¬((t.moved k).kind = _ ∨ (t.moved k).kind = _) from begins)]
    exact .none

theorem prototypeName_moved (ends : source.EndsIn k small) (same : c' = c.moved k) :
    (prototypeName small c).Moves k id (prototypeName source c') := by
  have name := component?_moved ends same
  unfold prototypeName
  generalize component? small c = found at name ⊢
  generalize component? source c' = found' at name ⊢
  cases name with
  | none =>
    subst same
    refine ⟨rfl, ?_⟩
    dsimp only
    rw [Cursor.moved_expect ends, Cursor.moved_fail ends]
  | some moves =>
    obtain ⟨v, c₁, h₁, c₁', h₁', rfl, rfl, rfl⟩ := moves.exists_eq
    exact ⟨rfl, (Cursor.moved_expect ends _ _ _).symm⟩

theorem metaName_moved (ends : source.EndsIn k small) (same : c' = c.moved k) :
    (metaName small c).Moves k id (metaName source c') := by
  obtain ⟨_ | ⟨t, ts⟩, lastEnd, errors, intact⟩ := c
  · subst same
    exact ⟨rfl, (Cursor.moved_fail ends _ _).symm⟩
  obtain rfl : c' = ⟨t.moved k :: ts.map (Token.moved k), lastEnd + k,
    errors.map (SyntaxError.moved k), intact⟩ := same
  unfold metaName
  dsimp only
  by_cases follows : t.kind = .ident ∧ t.start = lastEnd
  · have follows' : (t.moved k).kind = .ident ∧ (t.moved k).start = lastEnd + k :=
      follows.imp_right (congrArg (· + k))
    rw [if_pos follows, if_pos follows']
    exact ⟨rfl, Cursor.past_moved⟩
  · have apart : ¬((t.moved k).kind = .ident ∧ (t.moved k).start = lastEnd + k) := fun both =>
      follows (both.imp_right Nat.add_right_cancel)
    rw [if_neg follows, if_neg apart]
    exact ⟨rfl, (Cursor.moved_fail ends ⟨t :: ts, lastEnd, errors, intact⟩ _).symm⟩

/-- Reading a path segment from a token on; of the cursor before it only what is behind the token counts. -/
theorem segmentFrom_moved (ends : source.EndsIn k small)
    (past : c'.past (t.moved k) (ts.map (Token.moved k)) = (c.past t ts).moved k) :
    Option.Rel (Moves k (PathSegment.moved k)) (segmentFrom small c t ts)
      (segmentFrom source c' (t.moved k) (ts.map (Token.moved k))) := by
  have plain (word : String) : (Step.pure (c := c.past t ts) (PathSegment.plain t.range word)).Moves k
      (PathSegment.moved k) (Step.pure (c := c'.past (t.moved k) (ts.map (Token.moved k)))
        (.plain (t.moved k).range word)) :=
    ⟨congrArg (PathSegment.plain · word) (t.range_moved k), past⟩
  unfold segmentFrom
  dsimp only [Token.kind_moved]
  cases kind : t.kind with
  | ident =>
    rcases ts with _ | ⟨u, us⟩
    · exact .some (plain t.text)
    change Option.Rel _ (if t.text = "prototype" ∧ u.kind = .leftParen then _ else _)
      (if (t.moved k).text = "prototype" ∧ (u.moved k).kind = .leftParen then _ else _)
    by_cases opens : t.text = "prototype" ∧ u.kind = .leftParen
    · rw [if_pos opens, if_pos (show (t.moved k).text = _ ∧ (u.moved k).kind = _ from opens)]
      have inside : (c'.past (t.moved k) (u.moved k :: us.map (Token.moved k))).past (u.moved k)
          (us.map (Token.moved k)) = ((c.past t (u :: us)).past u us).moved k := by
        rw [Cursor.moved_past, ← past]
        rfl
      obtain ⟨name, c₁, h₁, c₁', h₁', here, there, rfl⟩ := (prototypeName_moved ends inside).exists_eq
      refine .some ⟨?_, ?_⟩
      · dsimp only
        rw [here, there]
        rfl
      · dsimp only
        rw [here, there]
    · rw [if_neg opens, if_neg (show ¬((t.moved k).text = _ ∧ (u.moved k).kind = _) from opens)]
      exact .some (plain t.text)
  | number => exact .some (plain t.text)
  | string => exact .some (plain (unquote t.text))
  | «at» =>
    obtain ⟨name, c₁, h₁, c₁', h₁', here, there, rfl⟩ := (metaName_moved ends past).exists_eq
    refine .some ⟨?_, ?_⟩
    · dsimp only
      rw [here, there]
      rfl
    · dsimp only
      rw [here, there]
  | _ => exact .none

theorem dottedSegment?_moved (ends : source.EndsIn k small) (same : c' = c.moved k) :
    Option.Rel (fun s s' => s.1.Moves k (PathSegment.moved k) s'.1) (dottedSegment? small c)
      (dottedSegment? source c') := by
  obtain ⟨_ | ⟨dot, _ | ⟨t, ts⟩⟩, lastEnd, errors, intact⟩ := c
  · subst same
    exact .none
  · subst same
    exact .none
  obtain rfl : c' = ⟨dot.moved k :: t.moved k :: ts.map (Token.moved k), lastEnd + k,
    errors.map (SyntaxError.moved k), intact⟩ := same
  unfold dottedSegment?
  dsimp only
  by_cases dotted : dot.kind = .dot ∧ startsSegment t.kind = true
  · rw [if_pos dotted, if_pos (show (dot.moved k).kind = _ ∧ startsSegment (t.moved k).kind = true from dotted)]
    have past : (Cursor.past ⟨dot.moved k :: t.moved k :: ts.map (Token.moved k), lastEnd + k,
        errors.map (SyntaxError.moved k), intact⟩ (dot.moved k) (t.moved k :: ts.map (Token.moved k))).past
          (t.moved k) (ts.map (Token.moved k)) =
        ((Cursor.past ⟨dot :: t :: ts, lastEnd, errors, intact⟩ dot (t :: ts)).past t ts).moved k := by
      rw [Cursor.moved_past]
      rfl
    have segment := segmentFrom_moved ends past
    generalize segmentFrom small (Cursor.past ⟨dot :: t :: ts, lastEnd, errors, intact⟩ dot (t :: ts)) t ts =
      found at segment ⊢
    generalize segmentFrom source _ (t.moved k) (ts.map (Token.moved k)) = found' at segment ⊢
    cases segment with
    | none => exact .none
    | some moves =>
      obtain ⟨v, c₁, h₁, c₁', h₁', rfl, rfl, rfl⟩ := moves.exists_eq
      exact .some ⟨rfl, rfl⟩
  · rw [if_neg dotted, if_neg (show ¬((dot.moved k).kind = _ ∧ startsSegment (t.moved k).kind = true) from dotted)]
    exact .none

theorem pathTail_moved (ends : source.EndsIn k small) {c c' : Cursor} (same : c' = c.moved k) :
    (pathTail small c).Moves k (List.map (PathSegment.moved k)) (pathTail source c') := by
  have next := dottedSegment?_moved ends same
  rw [pathTail, pathTail]
  generalize dottedSegment? small c = found at next ⊢
  generalize dottedSegment? source c' = found' at next ⊢
  cases next with
  | none => exact ⟨rfl, same⟩
  | @some s s' moves =>
    obtain ⟨s, lt⟩ := s
    have tail := pathTail_moved ends moves.cursor
    refine (tail.map fun others => ?_).weaken _ _
    rw [List.map_cons]
    exact congrArg (· :: _) moves.value
termination_by c.remaining

/-- The same tokens ahead further behind, with the same faults there; where the last one read ends is left open,
since reading a statement does not ask for it. -/
structure Cursor.Ahead (k : Nat) (c c' : Cursor) : Prop where
  rest : c'.rest = c.rest.map (Token.moved k)
  errors : c'.errors = c.errors.map (SyntaxError.moved k)
  intact : c'.intact = c.intact

namespace Cursor.Ahead

theorem of_eq (same : c' = c.moved k) : c.Ahead k c' := by
  subst same
  exact ⟨rfl, rfl, rfl⟩

theorem remaining (ahead : c.Ahead k c') : c'.remaining = c.remaining := by
  rw [Cursor.remaining, ahead.rest, List.length_map, Cursor.remaining]

theorem past (ahead : c.Ahead k c') (t : Token) (ts : List Token) :
    c'.past (t.moved k) (ts.map (Token.moved k)) = (c.past t ts).moved k := by
  rw [moved_past, Cursor.past, Cursor.past, ahead.errors, ahead.intact]
  rfl

end Cursor.Ahead

theorem path?_moved (ends : source.EndsIn k small) (ahead : c.Ahead k c') :
    Option.Rel (Moves k (Path.moved k)) (path? small c) (path? source c') := by
  obtain ⟨_ | ⟨t, ts⟩, lastEnd, errors, intact⟩ := c
  · obtain ⟨rest, lastEnd', errors', intact'⟩ := c'
    obtain rfl : rest = [] := ahead.rest
    exact .none
  have past := ahead.past t ts
  obtain ⟨rest, lastEnd', errors', intact'⟩ := c'
  obtain rfl : rest = t.moved k :: ts.map (Token.moved k) := ahead.rest
  have segment := segmentFrom_moved ends past
  unfold path?
  dsimp only
  generalize segmentFrom small ⟨t :: ts, lastEnd, errors, intact⟩ t ts = found at segment ⊢
  generalize segmentFrom source _ (t.moved k) (ts.map (Token.moved k)) = found' at segment ⊢
  cases segment with
  | none => exact .none
  | some moves =>
    obtain ⟨v, c₁, h₁, c₁', h₁', rfl, rfl, same⟩ := moves.exists_eq
    have tail := pathTail_moved ends same
    exact .some ⟨congrArg (Path.mk (v.moved k)) tail.value, tail.cursor⟩

theorem expressionBody_moved (ends : source.EndsIn k small) (same : c' = c.moved k) :
    (expressionBody small c).Moves k (Option.map (Argument.moved k)) (expressionBody source c') := by
  have kind : c'.kind? = c.kind? := by
    rw [same, Cursor.kind?, Cursor.moved, List.head?_map, Option.map_map]
    rfl
  unfold expressionBody
  rw [kind]
  by_cases closed : c.kind? = some .rightBrace
  · rw [if_pos closed, if_pos closed]
    exact ⟨rfl, same⟩
  · rw [if_neg closed, if_neg closed]
    exact (expression_moved ends same).map fun attempt => congrArg some (Argument.moved_ofAttempt k attempt)

theorem closeExpression_moved (ends : source.EndsIn k small) (c : Cursor) :
    closeExpression source (c.moved k) = (closeExpression small c).moved k := by
  obtain ⟨_ | ⟨t, ts⟩, lastEnd, errors, intact⟩ := c
  · exact (Cursor.moved_fail ends _ _).symm
  · unfold closeExpression
    change (if (t.moved k).kind = .rightBrace then _ else _) = Cursor.moved k (if t.kind = .rightBrace then _ else _)
    by_cases closes : t.kind = .rightBrace
    · rw [if_pos closes, if_pos (show (t.moved k).kind = _ from closes)]
      exact Cursor.past_moved
    · rw [if_neg closes, if_neg (show ¬(t.moved k).kind = _ from closes), Cursor.moved_advance, Cursor.moved_skip,
        Cursor.moved_fail ends]
      have length := recoveryLength_moved k 0 (t :: ts)
      rw [← length]
      rfl

theorem valueFrom_moved (ends : source.EndsIn k small)
    (past : c'.past (t.moved k) (ts.map (Token.moved k)) = (c.past t ts).moved k) :
    Option.Rel (Moves k (Value.moved k)) (valueFrom small c t ts)
      (valueFrom source c' (t.moved k) (ts.map (Token.moved k))) := by
  unfold valueFrom
  dsimp only [Token.kind_moved]
  cases kind : t.kind with
  | string => exact .some ⟨congrArg (Value.text · _) (t.range_moved k), past⟩
  | ident =>
    dsimp only
    rw [Token.text_moved]
    cases constant : boolean? t.text with
    | some value => exact .some ⟨congrArg (Value.boolean · _) (t.range_moved k), past⟩
    | none =>
      dsimp only
      by_cases null : isNull t.text = true
      · rw [if_pos null, if_pos null]
        exact .some ⟨congrArg Value.null (t.range_moved k), past⟩
      · rw [if_neg null, if_neg null]
        exact .some ((component_moved ends t past).map fun _ => rfl)
  | dsl => exact .some ⟨congrArg (Value.embedded · _) (t.range_moved k), past⟩
  | eelOpen =>
    obtain ⟨body, c₁, h₁, c₁', h₁', here, there, rfl⟩ := (expressionBody_moved ends past).exists_eq
    have closed := closeExpression_moved ends c₁
    refine .some ⟨?_, ?_⟩
    · dsimp only
      rw [here, there]
      dsimp only
      rw [closed]
      rfl
    · dsimp only
      rw [here, there]
      exact closed
  | _ => exact .none

theorem value_moved (ends : source.EndsIn k small) (same : c' = c.moved k) :
    (value small c).Moves k (Value.moved k) (value source c') := by
  have digits := number?_moved ends same
  unfold value
  generalize number? small c = found at digits ⊢
  generalize number? source c' = found' at digits ⊢
  cases digits with
  | some moves => exact moves.map fun _ => rfl
  | none =>
    obtain ⟨_ | ⟨t, ts⟩, lastEnd, errors, intact⟩ := c
    · subst same
      exact ⟨congrArg Value.missing ends.size_eq, (Cursor.moved_fail ends _ _).symm⟩
    have past := (Cursor.Ahead.of_eq same).past t ts
    obtain rfl : c' = ⟨t.moved k :: ts.map (Token.moved k), lastEnd + k,
      errors.map (SyntaxError.moved k), intact⟩ := same
    have read := valueFrom_moved ends past
    dsimp only
    generalize valueFrom small ⟨t :: ts, lastEnd, errors, intact⟩ t ts = found at read ⊢
    generalize valueFrom source _ (t.moved k) (ts.map (Token.moved k)) = found' at read ⊢
    cases read with
    | none => exact ⟨rfl, (Cursor.moved_fail ends ⟨t :: ts, lastEnd, errors, intact⟩ _).symm⟩
    | some moves => exact moves.weaken _ _

theorem copySource_moved (ends : source.EndsIn k small) (same : c' = c.moved k) :
    (copySource small c).Moves k (CopySource.moved k) (copySource source c') := by
  have path := path?_moved ends (.of_eq same)
  unfold copySource
  generalize path? small c = found at path ⊢
  generalize path? source c' = found' at path ⊢
  cases path with
  | none =>
    subst same
    exact ⟨congrArg CopySource.missing (Cursor.offset_moved ends c), (Cursor.moved_fail ends c _).symm⟩
  | some moves => exact moves.map fun _ => rfl

theorem operation_moved (ends : source.EndsIn k small) (same : c' = c.moved k) :
    (operation small c).Moves k (Option.map (Operation.moved k)) (operation source c') := by
  obtain ⟨_ | ⟨t, ts⟩, lastEnd, errors, intact⟩ := c
  · subst same
    exact ⟨rfl, rfl⟩
  have past := (Cursor.Ahead.of_eq same).past t ts
  obtain rfl : c' = ⟨t.moved k :: ts.map (Token.moved k), lastEnd + k,
    errors.map (SyntaxError.moved k), intact⟩ := same
  unfold operation
  dsimp only [Token.kind_moved]
  cases kind : t.kind with
  | eq =>
    obtain ⟨v, c₁, h₁, c₁', h₁', here, there, rfl⟩ := (value_moved ends past).exists_eq
    refine ⟨?_, ?_⟩
    · dsimp only
      rw [here, there]
      have stop : max (c₁.lastEnd + k) (t.start + k) = max c₁.lastEnd t.start + k := Nat.add_max_add_right ..
      simp only [Option.map_some, Operation.moved, ByteRange.moved]
      rw [← stop]
      rfl
    · dsimp only
      rw [here, there]
  | lt =>
    obtain ⟨v, c₁, h₁, c₁', h₁', here, there, rfl⟩ := (copySource_moved ends past).exists_eq
    refine ⟨?_, ?_⟩
    · dsimp only
      rw [here, there]
      rfl
    · dsimp only
      rw [here, there]
  | gt => exact ⟨congrArg (fun range => some (Operation.unset range)) (t.range_moved k), past⟩
  | _ => exact ⟨rfl, rfl⟩

theorem includeLine_moved (k : Nat) (t : Token) : includeLine (t.moved k) = (includeLine t).moved k := by
  rw [includeLine, Token.range_moved, includeLine, Statement.moved, Token.text_moved]

theorem skipLine_moved (ends : source.EndsIn k small) (c : Cursor) :
    skipLine source (c.moved k) = (skipLine small c).moved k := by
  have behind : dropBytes source.text (c.moved k).lastEnd = dropBytes small.text c.lastEnd :=
    ends.dropBytes_moved c.lastEnd
  have asked : (c.moved k).need source ⟨(c.moved k).lastEnd, source.size⟩ =
      (c.need small ⟨c.lastEnd, small.size⟩).moved k := by
    rw [Cursor.moved_need ends, ends.size_eq]
    rfl
  unfold skipLine
  dsimp only
  rw [behind, asked]
  generalize byteSize (((dropBytes small.text c.lastEnd).getD []).takeWhile (· != '\n')) = width
  have lineEnd : (c.moved k).lastEnd + width = c.lastEnd + width + k := Nat.add_right_comm ..
  have length : ((c.moved k).rest.takeWhile (·.start < (c.moved k).lastEnd + width)).length =
      (c.rest.takeWhile (·.start < c.lastEnd + width)).length := by
    rw [lineEnd, Cursor.moved, List.takeWhile_map, List.length_map]
    congr 2
    funext t
    simp
  rw [length, lineEnd, ← Cursor.moved_skip]
  exact congrArg (fun stop => Cursor.mk _ stop _ _) (Nat.add_max_add_right ..)

theorem lineStatement?_moved (ends : source.EndsIn k small) (ahead : c.Ahead k c') :
    Option.Rel (Moves k (Option.map (Statement.moved k))) (lineStatement? small c) (lineStatement? source c') := by
  obtain ⟨_ | ⟨t, ts⟩, lastEnd, errors, intact⟩ := c
  · obtain ⟨rest, lastEnd', errors', intact'⟩ := c'
    obtain rfl : rest = [] := ahead.rest
    exact .none
  have past := ahead.past t ts
  obtain ⟨rest, lastEnd', errors', intact'⟩ := c'
  obtain rfl : rest = t.moved k :: ts.map (Token.moved k) := ahead.rest
  have colon : (ts.map (Token.moved k)).head?.map Token.kind = ts.head?.map Token.kind := by
    rw [List.head?_map, Option.map_map]
    rfl
  unfold lineStatement?
  dsimp only
  by_cases whole : t.kind = .includeLine
  · rw [if_pos whole, if_pos (show (t.moved k).kind = _ from whole)]
    exact .some ⟨congrArg some (includeLine_moved k t), past⟩
  rw [if_neg whole, if_neg (show ¬(t.moved k).kind = _ from whole)]
  by_cases namespaced : t.kind = .ident ∧ t.text = "namespace" ∧ ts.head?.map Token.kind = some .colon
  · have namespaced' : (t.moved k).kind = .ident ∧ (t.moved k).text = "namespace" ∧
        (ts.map (Token.moved k)).head?.map Token.kind = some .colon :=
      ⟨namespaced.1, namespaced.2.1, colon.trans namespaced.2.2⟩
    rw [if_pos namespaced, if_pos namespaced']
    refine .some ⟨rfl, ?_⟩
    dsimp only
    rw [past, skipLine_moved ends]
  · have otherwise : ¬((t.moved k).kind = .ident ∧ (t.moved k).text = "namespace" ∧
        (ts.map (Token.moved k)).head?.map Token.kind = some .colon) := fun both =>
      namespaced ⟨both.1, both.2.1, colon.symm.trans both.2.2⟩
    rw [if_neg namespaced, if_neg otherwise]
    exact .none

theorem objectHead?_moved (ends : source.EndsIn k small) (ahead : c.Ahead k c') :
    Option.Rel (fun head head' => head.1.Moves k (ObjectHead.moved k) head'.1) (objectHead? small c)
      (objectHead? source c') := by
  have path := path?_moved ends ahead
  unfold objectHead?
  split
  · next here =>
    rw [here] at path
    split
    · exact .none
    · next there =>
      rw [there] at path
      cases path
  · next p here =>
    rw [here] at path
    split
    · next there =>
      rw [there] at path
      cases path
    · next p' there =>
      rw [there] at path
      cases path with
      | some moves =>
        have told := operation_moved ends moves.cursor
        refine .some ⟨?_, told.cursor⟩
        dsimp only
        rw [told.value, moves.value, ObjectHead.moved]

theorem insideBlock?_moved (same : c' = c.moved k) :
    Option.Rel (fun inside inside' => inside'.1 = inside.1.moved k) (insideBlock? c) (insideBlock? c') := by
  obtain ⟨_ | ⟨t, ts⟩, lastEnd, errors, intact⟩ := c
  · subst same
    exact .none
  obtain rfl : c' = ⟨t.moved k :: ts.map (Token.moved k), lastEnd + k,
    errors.map (SyntaxError.moved k), intact⟩ := same
  unfold insideBlock?
  dsimp only
  by_cases opens : t.kind = .leftBrace
  · rw [if_pos opens, if_pos (show (t.moved k).kind = _ from opens)]
    exact .some Cursor.past_moved
  · rw [if_neg opens, if_neg (show ¬(t.moved k).kind = _ from opens)]
    exact .none

theorem ObjectHead.statement_moved (k : Nat) (head : ObjectHead) (stop : Nat) (block : Option (List Statement)) :
    (head.moved k).statement (stop + k) (block.map (statementsMoved k)) = (head.statement stop block).moved k := by
  have start : (head.moved k).path.range.start = head.path.range.start + k :=
    congrArg ByteRange.start (head.path.range_moved k)
  cases block <;> rw [statement, start] <;> rfl

theorem bareObject_moved (ends : source.EndsIn k small) {head : Step c ObjectHead} {head' : Step c' ObjectHead}
    (moves : head.Moves k (ObjectHead.moved k) head') :
    (bareObject small head).Moves k (Option.map (Statement.moved k)) (bareObject source head') := by
  have idle : head'.value.operation.isNone = head.value.operation.isNone := by
    rw [moves.value]
    exact Option.isNone_map
  refine ⟨?_, ?_⟩
  · dsimp only [bareObject]
    rw [moves.cursor, moves.value]
    exact congrArg some (head.value.statement_moved k head.cursor.lastEnd none)
  · unfold bareObject
    dsimp only
    rw [idle, moves.cursor]
    split
    · exact (Cursor.moved_fail ends _ _).symm
    · rfl

end Parts

/-- From cursors with the same tokens ahead, one step gives what another gives, further behind in the text. That
the last token read ends further behind is known only if it did before. -/
structure Step.MovesAhead {c c' : Cursor} {α : Type} (k : Nat) (move : α → α) (s : Step c α) (s' : Step c' α) :
    Prop where
  value : s'.value = move s.value
  ahead : s.cursor.Ahead k s'.cursor
  lastEnd : c'.lastEnd = c.lastEnd + k → s'.cursor.lastEnd = s.cursor.lastEnd + k

open Step (MovesAhead)

section Lists

variable {source small : Source} {k : Nat} {c c' : Cursor}

theorem Step.Moves.movesAhead {α : Type} {move : α → α} {s : Step c α} {s' : Step c' α}
    (moves : s.Moves k move s') : s.MovesAhead k move s' :=
  ⟨moves.value, .of_eq moves.cursor, fun _ => congrArg Cursor.lastEnd moves.cursor⟩

theorem Step.MovesAhead.exists_eq {α : Type} {move : α → α} {s : Step c α} {s' : Step c' α}
    (moves : s.MovesAhead k move s') : ∃ v after h after' h', s = ⟨v, after, h⟩ ∧ s' = ⟨move v, after', h'⟩ ∧
      after.Ahead k after' ∧ (c'.lastEnd = c.lastEnd + k → after'.lastEnd = after.lastEnd + k) := by
  obtain ⟨v, after, h⟩ := s
  obtain ⟨v', after', h'⟩ := s'
  obtain rfl : v' = move v := moves.value
  exact ⟨v, after, h, after', h', rfl, rfl, moves.ahead, moves.lastEnd⟩

theorem Cursor.Ahead.eq_moved (ahead : c.Ahead k c') (lastEnd : c'.lastEnd = c.lastEnd + k) :
    c' = c.moved k := by
  obtain ⟨rest, lastEnd', errors, intact⟩ := c'
  obtain rfl : lastEnd' = c.lastEnd + k := lastEnd
  obtain rfl : rest = c.rest.map (Token.moved k) := ahead.rest
  obtain rfl : errors = c.errors.map (SyntaxError.moved k) := ahead.errors
  obtain rfl : intact = c.intact := ahead.intact
  rfl

/-- A token that is reported and left behind is so wherever it stands. -/
theorem Cursor.Ahead.past_fail {t : Token} {ts : List Token} {lastEnd lastEnd' : Nat}
    {errors errors' : Array SyntaxError} {intact intact' : Bool}
    (ahead : Cursor.Ahead k ⟨t :: ts, lastEnd, errors, intact⟩
      ⟨t.moved k :: ts.map (Token.moved k), lastEnd', errors', intact'⟩) (size size' : Nat) :
    ((Cursor.mk (t.moved k :: ts.map (Token.moved k)) lastEnd' errors' intact').fail size'
        (.unexpected (t.moved k).text)).past (t.moved k) (ts.map (Token.moved k)) =
      (((Cursor.mk (t :: ts) lastEnd errors intact).fail size (.unexpected t.text)).past t ts).moved k := by
  have told := congrArg (Cursor.failAt · (.unexpected t.text) (t.range.moved k)) (ahead.past t ts)
  rw [← Cursor.moved_failAt] at told
  rw [Cursor.fail, Cursor.fail]
  dsimp only [List.head?_cons, Option.map_some, Option.getD_some, Token.text_moved]
  rw [Token.range_moved]
  exact told

theorem blockObject_moved (ends : source.EndsIn k small) {inside inside' : Cursor} {head : Step c ObjectHead}
    {head' : Step c' ObjectHead} {lt : inside.remaining < head.cursor.remaining}
    {lt' : inside'.remaining < head'.cursor.remaining} {block : Step inside (List Statement)}
    {block' : Step inside' (List Statement)} (moves : head.Moves k (ObjectHead.moved k) head')
    (read : block.Moves k (statementsMoved k) block') :
    (blockObject small head lt block).Moves k (Option.map (Statement.moved k))
      (blockObject source head' lt' block') := by
  have closed := Cursor.moved_expect ends block.cursor .rightBrace (.closingExpected '\x7d')
  rw [← read.cursor] at closed
  refine ⟨?_, closed.symm⟩
  unfold blockObject
  dsimp only
  rw [← closed, moves.value, read.value]
  exact congrArg some (head.value.statement_moved k _ (some block.value))

mutual

theorem statement_moved (ends : source.EndsIn k small) {c c' : Cursor} (ahead : c.Ahead k c') :
    (statement small c).MovesAhead k (Option.map (Statement.moved k)) (statement source c') := by
  have line := lineStatement?_moved ends ahead
  have object := objectHead?_moved ends ahead
  rw [statement, statement]
  generalize lineStatement? small c = found at line ⊢
  generalize lineStatement? source c' = found' at line ⊢
  cases line with
  | some moves => exact moves.movesAhead
  | none =>
    dsimp only
    generalize objectHead? small c = found at object ⊢
    generalize objectHead? source c' = found' at object ⊢
    cases object with
    | none => exact ⟨rfl, ahead, id⟩
    | @some head head' moves =>
      obtain ⟨head, headLt⟩ := head
      obtain ⟨head', headLt'⟩ := head'
      dsimp only at moves ⊢
      have block := insideBlock?_moved moves.cursor
      generalize insideBlock? head.cursor = found at block ⊢
      generalize insideBlock? head'.cursor = found' at block ⊢
      cases block with
      | none => exact (bareObject_moved ends moves).movesAhead
      | @some inside inside' same =>
        obtain ⟨inside, lt⟩ := inside
        have read := statementList_moved ends true (.of_eq same)
        have behind := read.lastEnd (congrArg Cursor.lastEnd same)
        exact (blockObject_moved ends moves ⟨read.value, read.ahead.eq_moved behind⟩).movesAhead
termination_by 2 * c.remaining
decreasing_by omega

theorem statementList_moved (ends : source.EndsIn k small) (inBlock : Bool) {c c' : Cursor}
    (ahead : c.Ahead k c') :
    (statementList small inBlock c).MovesAhead k (statementsMoved k) (statementList source inBlock c') := by
  rcases whole : c with ⟨_ | ⟨t, ts⟩, lastEnd, errors, intact⟩
  · subst whole
    obtain ⟨rest, lastEnd', errors', intact'⟩ := c'
    obtain rfl : rest = [] := ahead.rest
    rw [statementList, statementList]
    exact ⟨rfl, ahead, id⟩
  have same := whole ▸ ahead
  have size : Cursor.remaining ⟨t :: ts, lastEnd, errors, intact⟩ = c.remaining := congrArg _ whole.symm
  have left := same.remaining
  obtain ⟨rest, lastEnd', errors', intact'⟩ := c'
  obtain rfl : rest = t.moved k :: ts.map (Token.moved k) := same.rest
  rw [statementList, statementList]
  dsimp only
  by_cases closes : inBlock = true ∧ t.kind = .rightBrace
  · rw [if_pos closes, if_pos (show inBlock = true ∧ (t.moved k).kind = _ from closes)]
    exact ⟨rfl, same, id⟩
  rw [if_neg closes, if_neg (show ¬(inBlock = true ∧ (t.moved k).kind = _) from closes)]
  obtain ⟨found, c₁, h₁, c₁', h₁', here, there, after, behind⟩ := (statement_moved ends same).exists_eq
  rw [here, there]
  dsimp only
  by_cases consumed : c₁.remaining < Cursor.remaining ⟨t :: ts, lastEnd, errors, intact⟩
  · have lt : c₁.remaining < c.remaining := size ▸ consumed
    obtain ⟨more, c₂, h₂, c₂', h₂', here', there', after', behind'⟩ :=
      (statementList_moved ends inBlock after).exists_eq
    rw [dif_pos consumed, dif_pos (by rwa [left, after.remaining]), here', there']
    refine ⟨?_, after', behind' ∘ behind⟩
    rw [statementsMoved_append, statementsMoved_toList]
  · have reported := same.past_fail small.size source.size
    have lt : (((Cursor.mk (t :: ts) lastEnd errors intact).fail small.size
        (.unexpected t.text)).past t ts).remaining < c.remaining := by
      rw [← size]
      exact Nat.lt_succ_self _
    obtain ⟨more, c₂, h₂, c₂', h₂', here', there', after', behind'⟩ :=
      (statementList_moved ends inBlock (.of_eq reported)).exists_eq
    rw [dif_neg consumed, dif_neg (by rwa [left, after.remaining]), here', there']
    refine ⟨?_, after', fun _ => behind' (congrArg Cursor.lastEnd reported)⟩
    rw [statementsMoved_append, statementsMoved_toList]
termination_by 2 * c.remaining + 1
decreasing_by all_goals omega

end

end Lists

end FusionAtlas.Template
