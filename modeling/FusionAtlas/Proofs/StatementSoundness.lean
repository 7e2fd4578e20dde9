import FusionAtlas.Proofs.ExpressionSoundness
import FusionAtlas.Proofs.StatementLayout

/-!
A template that is read without a fault is written as the grammar says, and its tree is that of the
derivation. Main statement: `Template.statementList_parses`.
-/

set_option autoImplicit false
set_option relaxedAutoImplicit false

namespace FusionAtlas.Template

open Cursor (Parses Reads Sound)

variable {source : Source} {c : Cursor} {t : Token} {ts : List Token}

section Names

theorem take_componentLength (lastEnd : Nat) (ts : List Token) :
    (∀ t ∈ ts.take (componentLength lastEnd ts), continuesComponent t.kind = true) ∧
      Token.Contiguous lastEnd (ts.take (componentLength lastEnd ts)) := by
  induction ts generalizing lastEnd with
  | nil => exact ⟨(fun _ member => nomatch member), trivial⟩
  | cons t ts ih =>
    rw [componentLength]
    split
    · next both =>
      obtain ⟨kinds, adjacent⟩ := ih t.stop
      rw [List.take_succ_cons]
      exact ⟨List.forall_mem_cons.mpr ⟨both.1, kinds⟩, both.2, adjacent⟩
    · exact ⟨(fun _ member => nomatch member), trivial⟩

/-- What a component name is read from, its first token included. -/
def NameRead (source : Source) (after : Cursor) (first : Token) (found : String × ByteRange)
    (read : List Token) : Prop :=
  ∃ more, read = first :: more ∧ IsComponent source first more found.2 found.1 ∧
    found.2.stop = after.lastEnd

theorem component_parses (here : c.rest = t :: ts) (start : t.kind = .ident ∨ t.kind = .number) :
    c.Parses (component source t (c.past t ts)).cursor
      (NameRead source (component source t (c.past t ts)).cursor t
        (component source t (c.past t ts)).value) := by
  obtain ⟨kinds, adjacent⟩ := take_componentLength t.stop ts
  have rest : c.rest = (t :: ts.take (componentLength t.stop ts)) ++
      ts.drop (componentLength t.stop ts) := by
    rw [here, List.cons_append, List.take_append_drop]
  unfold component
  dsimp only
  split
  · next colon =>
    refine Parses.read rfl rest ⟨_, rfl, ⟨start, kinds, adjacent, ?_, ?_, rfl⟩, rfl⟩
    · change (ts.take (componentLength t.stop ts)).any (·.kind = .colon) = true at colon
      simpa [List.any_eq_true] using colon
    · change (⟨t.start, ((ts.take (componentLength t.stop ts)).getLast?.map Token.stop).getD
        t.stop⟩ : ByteRange) = _
      cases (ts.take (componentLength t.stop ts)).getLast? <;> rfl
  · refine Parses.fault ⟨_, rest.symm⟩ ?_
    exact Nat.lt_of_lt_of_eq (Nat.lt_succ_self _) (Array.size_push _).symm

theorem component?_parses {s : Step c (String × ByteRange)}
    (found : component? source c = some s) :
    c.Parses s.cursor fun read => ∃ first, NameRead source s.cursor first s.value read := by
  unfold component? at found
  split at found
  · next t ts here =>
    split at found
    · next start =>
      obtain rfl := Option.some.inj found
      exact (component_parses here start).imp fun read name => ⟨t, name⟩
    · cases found
  · cases found

theorem prototypeName_parses (source : Source) (c : Cursor) :
    c.Parses (prototypeName source c).cursor fun read => ∃ first more r closing,
      read = first :: more ++ [closing] ∧
        IsComponent source first more r (prototypeName source c).value ∧
        closing.kind = .rightParen ∧ (prototypeName source c).cursor.lastEnd = closing.stop := by
  unfold prototypeName
  split
  · next name c₁ h₁ found =>
    refine (component?_parses found).bind (Parses.expect c₁ source.size .rightParen
      (.closingExpected ')')) ?_
    rintro _ _ ⟨first, more, rfl, written, -⟩ ⟨closing, rfl, kind, stop⟩
    exact ⟨first, more, _, closing, rfl, written, kind, stop⟩
  · have failed : c.Parses (c.fail source.size .componentExpected) fun _ => False :=
      Parses.fail c source.size .componentExpected
    exact failed.bind (Parses.expect _ source.size .rightParen (.closingExpected ')'))
      fun _ _ never => never.elim

theorem metaName_parses (source : Source) (c : Cursor) :
    c.Parses (metaName source c).cursor fun read => ∃ name, read = [name] ∧ name.kind = .ident ∧
      name.start = c.lastEnd ∧ (metaName source c).value = name.text ∧
      (metaName source c).cursor.lastEnd = name.stop := by
  unfold metaName
  split
  · next t ts here =>
    split
    · next both => exact Parses.token here ⟨t, rfl, both.1, both.2, rfl, rfl⟩
    · exact Parses.fail c source.size .metaNameExpected
  · exact Parses.fail c source.size .metaNameExpected

end Names

section Paths

theorem segmentFrom_parses {s : Step (c.past t ts) PathSegment} (here : c.rest = t :: ts)
    (found : segmentFrom source c t ts = some s) :
    c.Parses s.cursor fun read => IsSegment source read s.value := by
  unfold segmentFrom at found
  split at found
  · next kind =>
    have plain : c.Parses (c.past t ts) fun read => IsSegment source read (.plain t.range t.text) :=
      Parses.token here (.word (Or.inl kind))
    split at found
    · next u us =>
      split at found
      · next both =>
        obtain rfl := Option.some.inj found
        refine Parses.behind here (Q := fun read => IsSegment source (t :: read) _)
          (Parses.behind rfl (prototypeName_parses source _) ?_) fun _ written => written
        rintro _ ⟨first, more, r, closing, rfl, written, closes, stop⟩
        dsimp only
        rw [stop]
        exact .prototype kind both.1 both.2 written closes
      · obtain rfl := Option.some.inj found
        exact plain
    · obtain rfl := Option.some.inj found
      exact plain
  · next kind =>
    obtain rfl := Option.some.inj found
    exact Parses.token here (.word (Or.inr kind))
  · next kind =>
    obtain rfl := Option.some.inj found
    exact Parses.token here (.quoted kind)
  · next kind =>
    obtain rfl := Option.some.inj found
    refine Parses.behind here (metaName_parses source _) ?_
    rintro _ ⟨name, rfl, ident, adjacent, text, stop⟩
    dsimp only
    rw [text, stop]
    exact .property kind ident adjacent
  · cases found

theorem dottedSegment?_parses {s : { s : Step c PathSegment // s.cursor.remaining < c.remaining }}
    (found : dottedSegment? source c = some s) : ∃ dot rest, c.rest = dot :: rest ∧
      dot.kind = .dot ∧ (c.past dot rest).Parses s.1.cursor fun read =>
        IsSegment source read s.1.value := by
  unfold dottedSegment? at found
  split at found
  · next dot t ts here =>
    split at found
    · next both =>
      split at found
      · next segment c₁ h₁ read =>
        obtain rfl := Option.some.inj found
        exact ⟨dot, t :: ts, here, both.1, segmentFrom_parses rfl read⟩
      · cases found
    · cases found
  · cases found

/-- A path goes on behind a segment. -/
theorem pathTail_parses {origin c : Cursor} {segment : PathSegment}
    (first : origin.Parses c fun read => IsSegment source read segment) :
    origin.Parses (pathTail source c).cursor fun read =>
      IsSegments source read (segment :: (pathTail source c).value) := by
  rw [pathTail]
  split
  · exact first.imp fun read written => .last written
  · next s lt found =>
    obtain ⟨dot, rest, here, kind, second⟩ := dottedSegment?_parses found
    have others := pathTail_parses second
    refine first.bind (Parses.behind here (R := fun read => ∃ us, read = dot :: us ∧
      IsSegments source us (s.value :: (pathTail source s.cursor).value)) others
      fun us written => ⟨us, rfl, written⟩) ?_
    rintro ts _ written ⟨us, rfl, others⟩
    exact .more written kind others
termination_by c.remaining

theorem path?_parses {s : Step c Path} (found : path? source c = some s) :
    c.Parses s.cursor fun read => IsPath source read s.value := by
  unfold path? at found
  split at found
  · next t ts here =>
    split at found
    · next first c₁ h₁ read =>
      obtain rfl := Option.some.inj found
      exact pathTail_parses (segmentFrom_parses here read)
    · cases found
  · cases found

end Paths

section Values

theorem closeExpression_parses (source : Source) (c : Cursor) :
    c.Parses (closeExpression source c) ((closeExpression source c).Closed .rightBrace) := by
  unfold closeExpression
  split
  · next t ts here =>
    split
    · next kind => exact Parses.token here ⟨t, rfl, kind, rfl⟩
    · have failed : c.errors.size < (c.fail source.size .expressionUnclosed).errors.size :=
        Nat.lt_of_lt_of_eq (Nat.lt_succ_self _) (Array.size_push _).symm
      have skipped : ((c.fail source.size .expressionUnclosed).skip
        (recoveryLength 0 c.rest)).rest <:+ c.rest := List.drop_suffix _ _
      unfold Cursor.advance
      split
      · next u us ahead =>
        have behind : us <:+ u :: us := List.suffix_cons u us
        exact Parses.fault ((ahead ▸ behind).trans skipped) failed
      · exact Parses.fault skipped failed
  · exact Parses.fail c source.size .expressionUnclosed

/-- The body of an expression in braces is written by the tokens, none if there is no body. -/
def BodyWritten (source : Source) (body : Option Argument) (read : List Token) : Prop :=
  body = none ∧ read = [] ∨ ∃ e, body = some (.given e) ∧ Derives source read (.expression e)

theorem expressionBody_parses (source : Source) (c : Cursor) :
    c.Parses (expressionBody source c).cursor
      (BodyWritten source (expressionBody source c).value) := by
  unfold expressionBody
  split
  · exact Parses.nothing (Or.inl ⟨rfl, rfl⟩)
  · refine (expression_parses c).imp ?_
    rintro read ⟨e, ok, derives⟩
    refine Or.inr ⟨e, ?_, derives⟩
    change some (Argument.ofAttempt (expression source c).value) = _
    rw [ok]
    rfl

/-- The tokens write a value, which ends where the last of them does. -/
def ValueRead (source : Source) (after : Cursor) (value : Value) (read : List Token) : Prop :=
  IsValue source read value ∧ value.range.stop = after.lastEnd

theorem valueFrom_parses {s : Step (c.past t ts) Value} (here : c.rest = t :: ts)
    (found : valueFrom source c t ts = some s) :
    c.Parses s.cursor (ValueRead source s.cursor s.value) := by
  unfold valueFrom at found
  split at found
  · next kind =>
    obtain rfl := Option.some.inj found
    exact Parses.token here ⟨.text kind, rfl⟩
  · next kind =>
    split at found
    · next b constant =>
      obtain rfl := Option.some.inj found
      exact Parses.token here ⟨.boolean kind constant, rfl⟩
    · next boolean =>
      split at found
      · next null =>
        obtain rfl := Option.some.inj found
        exact Parses.token here ⟨.null kind null, rfl⟩
      · next null =>
        obtain rfl := Option.some.inj found
        have name : IsName t := ⟨kind, boolean, Bool.eq_false_iff.mpr null⟩
        refine (component_parses here (Or.inl kind)).imp ?_
        rintro _ ⟨more, rfl, written, stop⟩
        exact ⟨.component name written, stop⟩
  · next kind =>
    obtain rfl := Option.some.inj found
    exact Parses.token here ⟨.embedded kind, rfl⟩
  · next kind =>
    obtain rfl := Option.some.inj found
    have body := expressionBody_parses source (c.past t ts)
    refine Parses.behind here (body.pair (closeExpression_parses source _)) ?_
    rintro _ ⟨us, _, rfl, written, closing, rfl, closes, stop⟩
    refine ⟨?_, rfl⟩
    dsimp only
    rw [stop]
    rcases written with ⟨none', rfl⟩ | ⟨e, some', derives⟩
    · rw [none']
      exact .nothing kind closes
    · rw [some']
      exact .expression kind derives closes
  · cases found

theorem value_parses (sound : c.Sound source) :
    c.Parses (value source c).cursor
      (ValueRead source (value source c).cursor (value source c).value) := by
  unfold value
  split
  · next digits found =>
    have range := (number?_reads sound found).2.1
    exact (number?_parses found).imp fun read written => ⟨.number written, congrArg _ range⟩
  · split
    · next t ts here =>
      split
      · next s found => exact valueFrom_parses here found
      · exact Parses.fail c source.size .valueExpected
    · exact Parses.fail c source.size .valueExpected

theorem copySource_parses (sound : c.Sound source) :
    c.Parses (copySource source c).cursor fun read => ∃ path,
      (copySource source c).value = .path path ∧ IsPath source read path ∧
        path.range.stop = (copySource source c).cursor.lastEnd := by
  unfold copySource
  split
  · next s found =>
    have range := (path?_reads sound found).2.1
    exact (path?_parses found).imp fun read written =>
      ⟨s.value, rfl, written, congrArg ByteRange.stop range⟩
  · exact Parses.fail c source.size .copySourceExpected

/-- The tokens write the operation if there is one, which ends where the last of them does. -/
def OperationRead (source : Source) (after : Cursor) (operation : Option Operation)
    (read : List Token) : Prop :=
  IsOptional source read operation ∧ ∀ found ∈ operation, found.range.stop = after.lastEnd

theorem operation_parses (sound : c.Sound source) :
    c.Parses (operation source c).cursor
      (OperationRead source (operation source c).cursor (operation source c).value) := by
  have absent : c.Parses c (OperationRead source c none) :=
    Parses.nothing ⟨.absent, fun _ member => nomatch member⟩
  unfold operation
  split
  · next t ts here =>
    have past := sound.past here
    dsimp only
    split
    · next kind =>
      refine Parses.behind here (value_parses past) ?_
      rintro us ⟨written, stop⟩
      have progress := Reads.start_le sound here (value_reads past)
      rw [Nat.max_eq_left progress, ← stop]
      refine ⟨.present (.assign kind written), ?_⟩
      intro found same
      obtain rfl := Option.some.inj same
      exact stop
    · next kind =>
      refine Parses.behind here (copySource_parses past) ?_
      rintro us ⟨path, value, written, stop⟩
      rw [value, ← stop]
      refine ⟨.present (.copy kind written), ?_⟩
      intro found same
      obtain rfl := Option.some.inj same
      exact stop
    · next kind =>
      refine Parses.token here ⟨.present (.unset kind), ?_⟩
      intro found same
      obtain rfl := Option.some.inj same
      rfl
    · exact absent
  · exact absent

end Values

section Statements

/-- The tokens write a statement or a `namespace:` line, whatever statements follow. -/
def StatementRead (source : Source) (all : List Token) (found : Option Statement)
    (read : List Token) : Prop :=
  ∃ outside, ∀ rest restOutside statements, IsStatements source all rest restOutside statements →
    IsStatements source all (read ++ rest) (outside ++ restOutside) (found.toList ++ statements)

/-- A colon is next. -/
def ColonAhead (c : Cursor) : Prop := ∃ t ts, c.rest = t :: ts ∧ t.kind = .colon

variable {all : List Token}

/-- Where tokens follow one another, those that start before an offset lead. -/
theorem filter_eq_takeWhile {offset : Nat} (apart : ts.Pairwise fun a b => a.stop ≤ b.start) :
    ts.filter (·.start < offset) = ts.takeWhile (·.start < offset) := by
  induction ts with
  | nil => rfl
  | cons t ts ih =>
    rw [List.filter_cons, List.takeWhile_cons]
    split
    · rw [ih apart.tail]
    · next late =>
      refine List.filter_eq_nil_iff.mpr ?_
      intro u later early
      have order : t.stop ≤ u.start := List.rel_of_pairwise_cons apart later
      have start : t.start ≤ t.stop := Nat.le_add_right _ _
      have before : u.start < offset := of_decide_eq_true early
      exact late (decide_eq_true (by omega))

/-- The rest of a line, seen from its first token. -/
theorem restOfLine_eq (tokens : Sound source { rest := all }) (suffix : t :: ts <:+ all) :
    restOfLine source all t = t :: ts.takeWhile (·.start < lineEnd source t.stop) := by
  obtain ⟨front, rfl⟩ := suffix
  have apart := List.pairwise_append.mp tokens.apart
  have token := tokens.inPlace t (List.mem_append_right _ List.mem_cons_self)
  have within : t.start < lineEnd source t.stop :=
    Nat.lt_of_lt_of_le token.lt (Nat.le_add_right _ _)
  have before : front.filter (fun u => t.start ≤ u.start ∧ u.start < lineEnd source t.stop) = [] := by
    refine List.filter_eq_nil_iff.mpr ?_
    intro u early both
    have order : u.stop ≤ t.start := apart.2.2 u early t List.mem_cons_self
    have lt := (tokens.inPlace u (List.mem_append_left _ early)).lt
    have late : t.start ≤ u.start := (of_decide_eq_true both).1
    omega
  have behind : ts.filter (fun u => t.start ≤ u.start ∧ u.start < lineEnd source t.stop) =
      ts.filter (·.start < lineEnd source t.stop) := by
    refine List.filter_congr fun u later => ?_
    have order : t.stop ≤ u.start := List.rel_of_pairwise_cons apart.2.1 later
    have late : t.start ≤ u.start := Nat.le_trans (Nat.le_of_lt token.lt) order
    simp [late]
  have sorted : ts.Pairwise fun a b => a.stop ≤ b.start := apart.2.1.tail
  rw [restOfLine, List.filter_append, before, List.nil_append, List.filter_cons, behind,
    filter_eq_takeWhile sorted]
  simp [within]

theorem lineStatement?_parses {s : Step c (Option Statement)}
    (tokens : Sound source { rest := all }) (suffix : c.rest <:+ all)
    (found : lineStatement? source c = some s) :
    c.Parses s.cursor fun read => StatementRead source all s.value read ∨ ColonAhead s.cursor := by
  unfold lineStatement? at found
  split at found
  · cases found
  · next t ts here =>
    split at found
    · next kind =>
      obtain rfl := Option.some.inj found
      refine Parses.token here (Or.inl ⟨[t], ?_⟩)
      intro rest restOutside statements others
      exact .includeFile kind others
    · split at found
      · next word =>
        obtain rfl := Option.some.inj found
        obtain ⟨ident, text, declares⟩ := word
        have line := restOfLine_eq tokens (here ▸ suffix)
        have behind := Text.drop_length_takeWhile (·.start < lineEnd source t.stop) ts
        have rest : c.rest = (t :: ts.takeWhile (·.start < lineEnd source t.stop)) ++
            (skipLine source (c.past t ts)).rest := by
          change _ = _ ++ ts.drop (ts.takeWhile (·.start < lineEnd source t.stop)).length
          rw [here, behind, List.cons_append, List.takeWhile_append_dropWhile]
        refine Parses.read rfl rest ?_
        cases read : ts.takeWhile (·.start < lineEnd source t.stop) with
        | nil =>
          right
          rw [here, read] at rest
          cases ts with
          | nil => cases declares
          | cons colon ts =>
            have kind : colon.kind = .colon := Option.some.inj declares
            exact ⟨colon, ts, (List.cons.inj rest).2.symm, kind⟩
        | cons colon more =>
          left
          have first : ts.head? = some colon := by
            rw [← List.takeWhile_append_dropWhile (p := (·.start < lineEnd source t.stop)) (l := ts),
              read]
            rfl
          rw [first] at declares
          refine ⟨[], ?_⟩
          intro rest restOutside statements others
          refine .namespaceLine ident text (Option.some.inj declares) ?_ others
          rw [line, read]
      · cases found

theorem lineStatement?_of_colon (source : Source) (ahead : ColonAhead c) :
    lineStatement? source c = none := by
  obtain ⟨t, ts, here, kind⟩ := ahead
  unfold lineStatement?
  split
  · rfl
  · next u us here' =>
    obtain ⟨rfl, rfl⟩ := List.cons.inj (here.symm.trans here')
    rw [if_neg, if_neg]
    · rintro ⟨ident, -⟩
      rw [kind] at ident
      cases ident
    · rw [kind]
      intro equal
      cases equal

theorem path?_of_colon (source : Source) (ahead : ColonAhead c) : path? source c = none := by
  obtain ⟨t, ts, here, kind⟩ := ahead
  unfold path?
  split
  · next u us here' =>
    obtain ⟨rfl, rfl⟩ := List.cons.inj (here.symm.trans here')
    have unread : segmentFrom source c t ts = none := by
      unfold segmentFrom
      rw [kind]
    split
    · next found =>
      rw [unread] at found
      cases found
    · rfl
  · rfl

/-- No statement starts with a colon. -/
theorem statement_of_colon (source : Source) (ahead : ColonAhead c) :
    (statement source c).cursor = c := by
  rw [statement]
  split
  · next s found =>
    rw [lineStatement?_of_colon source ahead] at found
    cases found
  · split
    · rfl
    · next head lt found =>
      unfold objectHead? at found
      split at found
      · cases found
      · next p read =>
        rw [path?_of_colon source ahead] at read
        cases read

/-- The tokens write what an object statement says before its block. -/
def HeadRead (source : Source) (after : Cursor) (head : ObjectHead) (read : List Token) : Prop :=
  ∃ ts us, read = ts ++ us ∧ IsPath source ts head.path ∧ OperationRead source after head.operation us

theorem objectHead?_parses {s : { s : Step c ObjectHead // s.cursor.remaining < c.remaining }}
    (sound : c.Sound source) (found : objectHead? source c = some s) :
    c.Parses s.1.cursor (HeadRead source s.1.cursor s.1.value) := by
  unfold objectHead? at found
  split at found
  · cases found
  · next p read =>
    obtain rfl := Option.some.inj found
    have reads := (path?_reads sound read).1
    exact (path?_parses read).pair (operation_parses reads.sound)

theorem bareObject_parses {head : Step c ObjectHead}
    (first : c.Parses head.cursor (HeadRead source head.cursor head.value)) :
    c.Parses (bareObject source head).cursor
      (StatementRead source all (bareObject source head).value) := by
  obtain ⟨⟨path, operation⟩, after, le⟩ := head
  unfold bareObject
  dsimp only at first ⊢
  split
  · have failed : after.Parses (after.fail source.size .operationExpected) fun _ => False :=
      Parses.fail after source.size .operationExpected
    exact first.bindFault failed fun _ => id
  · next given =>
    refine first.imp ?_
    rintro _ ⟨ts, us, rfl, path, operation, stop⟩
    cases operation with
    | absent => exact absurd rfl given
    | present operation =>
      refine ⟨ts ++ us, ?_⟩
      intro rest restOutside statements others
      rw [← stop _ rfl]
      exact .bare path operation others

theorem blockObject_parses {head : Step c ObjectHead} {inside : Cursor}
    (lt : inside.remaining < head.cursor.remaining) {block : Step inside (List Statement)}
    (first : c.Parses head.cursor (HeadRead source head.cursor head.value))
    (here : head.cursor.rest = t :: ts) (opens : t.kind = .leftBrace)
    (past : inside = head.cursor.past t ts)
    (second : inside.Parses block.cursor fun read => ∃ outside,
      IsStatements source all read outside block.value) :
    c.Parses (blockObject source head lt block).cursor
      (StatementRead source all (blockObject source head lt block).value) := by
  subst past
  unfold blockObject
  dsimp only
  have closed := second.pair (Parses.expect block.cursor source.size .rightBrace
    (.closingExpected '\x7d'))
  generalize block.cursor.expect source.size .rightBrace (.closingExpected '\x7d') = after
    at closed ⊢
  have braces : head.cursor.Parses after fun read => ∃ inner outside closing,
      read = t :: inner ++ [closing] ∧ IsStatements source all inner outside block.value ∧
        closing.kind = .rightBrace ∧ after.lastEnd = closing.stop := by
    refine Parses.behind here closed ?_
    rintro _ ⟨inner, _, rfl, ⟨outside, written⟩, closing, rfl, kind, stop⟩
    exact ⟨inner, outside, closing, rfl, written, kind, stop⟩
  refine first.bind braces ?_
  rintro _ _ ⟨us, vs, rfl, path, operation, -⟩ ⟨inner, outside, closing, rfl, written, closes, stop⟩
  refine ⟨us ++ vs ++ (t :: outside ++ [closing]), ?_⟩
  intro rest restOutside statements others
  rw [stop]
  exact .block path operation opens written closes others

mutual

theorem statement_parses {c : Cursor} (tokens : Sound source { rest := all })
    (sound : c.Sound source) (suffix : c.rest <:+ all) :
    c.Parses (statement source c).cursor fun read =>
      StatementRead source all (statement source c).value read ∨
        ColonAhead (statement source c).cursor := by
  rw [statement]
  split
  · next s found => exact lineStatement?_parses tokens suffix found
  · split
    · exact Parses.nothing (Or.inl ⟨[], fun rest restOutside statements others => others⟩)
    · next head lt found =>
      have first := objectHead?_parses sound found
      split
      · exact (bareObject_parses first).imp fun read written => Or.inl written
      · next inside lt' opened =>
        unfold insideBlock? at opened
        split at opened
        · cases opened
        · next t ts here =>
          split at opened
          · next opens =>
            obtain equal := Option.some.inj opened
            obtain rfl := congrArg Subtype.val equal
            have shorter := Cursor.remaining_past_lt here
            have brace := ((objectHead?_reads sound found).1.sound).past here
            have inner : ts <:+ all :=
              ((here ▸ List.suffix_cons t ts : ts <:+ _).trans first.suffix).trans suffix
            have block := statementList_parses tokens true brace inner
            have object := blockObject_parses lt' first here opens rfl
              (block.imp fun read written => written.1)
            exact object.imp fun read written => Or.inl written
          · cases opened
termination_by 2 * c.remaining
decreasing_by all_goals omega

theorem statementList_parses {c : Cursor} (tokens : Sound source { rest := all }) (inBlock : Bool)
    (sound : c.Sound source) (suffix : c.rest <:+ all) :
    c.Parses (statementList source inBlock c).cursor fun read =>
      (∃ outside, IsStatements source all read outside (statementList source inBlock c).value) ∧
        (inBlock = false → (statementList source inBlock c).cursor.rest = []) ∧ ¬ColonAhead c := by
  rw [statementList]
  split
  · next here =>
    refine Parses.nothing ⟨⟨[], .nil⟩, fun _ => here, ?_⟩
    rintro ⟨t, ts, here', -⟩
    rw [here] at here'
    cases here'
  · next t ts here =>
    have lt := Cursor.remaining_past_lt here
    split
    · next both =>
      refine Parses.nothing ⟨⟨[], .nil⟩, fun outer => ?_, ?_⟩
      · rw [outer] at both
        cases both.1
      · rintro ⟨u, us, here', kind⟩
        obtain ⟨rfl, rfl⟩ := List.cons.inj (here.symm.trans here')
        rw [both.2] at kind
        cases kind
    · have first := statement_parses tokens sound suffix
      have reads := statement_reads sound
      split
      next found c₁ h₁ equal =>
        rw [equal] at first reads
        split
        · next progress =>
          have others := statementList_parses tokens inBlock reads.sound (first.suffix.trans suffix)
          split
          next more c₃ h₃ equal' =>
            rw [equal'] at others
            refine first.bind others ?_
            rintro ts us (⟨outside, written⟩ | colon) ⟨⟨restOutside, rest⟩, ends, apart⟩
            · refine ⟨⟨_, written us restOutside more rest⟩, ends, ?_⟩
              intro ahead
              have still := statement_of_colon source ahead
              rw [equal] at still
              change c₁ = c at still
              rw [still] at progress
              exact absurd progress (Nat.lt_irrefl _)
            · exact absurd colon apart
        · next stuck =>
          have lt' : ((c.fail source.size (.unexpected t.text)).past t ts).remaining <
            c.remaining := lt
          have failed := Reads.fail sound (.unexpected t.text)
          have skipped := Reads.past failed.sound here
          have behind : ts <:+ all := (here ▸ List.suffix_cons t ts : ts <:+ c.rest).trans suffix
          have others := statementList_parses tokens inBlock skipped.sound behind
          split
          next more c₃ h₃ equal' =>
            rw [equal'] at others
            have faulty : c.Parses (c.fail source.size (.unexpected t.text)) fun _ => False :=
              Parses.fail c source.size (.unexpected t.text)
            have past : (c.fail source.size (.unexpected t.text)).Parses _ fun _ => True :=
              Parses.token here trivial
            exact faulty.bind (past.pair others) fun _ _ never => never.elim
termination_by 2 * c.remaining + 1
decreasing_by all_goals omega

end

end Statements

end FusionAtlas.Template
