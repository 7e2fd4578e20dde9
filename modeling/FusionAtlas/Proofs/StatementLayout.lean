import FusionAtlas.Proofs.ExpressionLayout
import FusionAtlas.Proofs.Text

/-!
Statements keep to the text, a malformed one as well, so in every template the ranges of the nodes
nest. Main statements: `Template.statementList_reads` and `parseTemplate_nested`.
-/

set_option autoImplicit false
set_option relaxedAutoImplicit false

namespace FusionAtlas.Template

open FusionAtlas.SyntaxTree (Outline Parts)
open FusionAtlas.SyntaxTree.Outline (loosen nodesOf listedOf Laid LaidOf Admits)
open Cursor (Reads Sound offset_of_rest)

variable {source : Source} {c : Cursor} {t : Token} {ts : List Token}

namespace Cursor

theorem skip_nil (here : c.rest = []) (n : Nat) : c.skip n = c := by
  obtain ⟨rest, lastEnd, errors, intact⟩ := c
  change rest = [] at here
  subst here
  simp [skip]

theorem skip_succ (here : c.rest = t :: ts) (n : Nat) : c.skip (n + 1) = (c.past t ts).skip n := by
  simp only [skip, here, past, List.drop_succ_cons, List.take_succ_cons, List.getLast?_cons]
  cases (ts.take n).getLast? <;> rfl

theorem skip_reads (sound : c.Sound source) (n : Nat) : c.Reads source (c.skip n) [] := by
  induction n generalizing c with
  | zero => exact Reads.refl sound
  | succ n ih =>
    cases here : c.rest with
    | nil =>
      rw [skip_nil here]
      exact Reads.refl sound
    | cons t ts =>
      rw [skip_succ here]
      exact Reads.afterToken sound here (ih (sound.past here))

theorem advance_reads (sound : c.Sound source) : c.Reads source c.advance [] := by
  unfold advance
  split
  · next t ts here => exact Reads.past sound here
  · exact Reads.refl sound

end Cursor

/-- A component name covers all that is read, its first token `t` included. -/
theorem component_reads (sound : c.Sound source) (here : c.rest = t :: ts) :
    let s := component source t (c.past t ts)
    c.Reads source s.cursor [] ∧ s.value.2 = ⟨t.start, s.cursor.lastEnd⟩ ∧
      t.start ≤ s.cursor.lastEnd := by
  have token := sound.token here
  have skipped := Cursor.skip_reads (sound.past here)
    (componentLength (c.past t ts).lastEnd (c.past t ts).rest)
  have progress := Reads.start_le sound here skipped
  have read := (skipped.afterToken sound here).quote token.start progress
  dsimp only
  unfold component
  dsimp only
  split
  · exact ⟨read, rfl, progress⟩
  · have lies : ByteRange.LiesIn source.text ⟨t.start, _⟩ :=
      ⟨progress, token.start, skipped.sound.lastEnd⟩
    have failed := read.sound.failAt .componentUnqualified lies
    exact ⟨read.andThen (Reads.still read.sound failed rfl rfl), rfl, progress⟩

theorem prototypeName_reads (sound : c.Sound source) :
    c.Reads source (prototypeName source c).cursor [] := by
  unfold prototypeName
  split
  · next name c₁ h₁ found =>
    unfold component? at found
    split at found
    · next t ts here =>
      split at found
      · have reads := (component_reads sound here).1
        obtain equal := Option.some.inj found
        rw [Step.weaken, Step.mk.injEq] at equal
        rw [equal.2] at reads
        exact reads.andThen (Cursor.expect_reads reads.sound .rightParen (.closingExpected ')'))
      · cases found
    · cases found
  · have reads := Reads.fail sound .componentExpected
    exact reads.andThen (Cursor.expect_reads reads.sound .rightParen (.closingExpected ')'))

theorem metaName_reads (sound : c.Sound source) :
    c.Reads source (metaName source c).cursor [] := by
  unfold metaName
  split
  · next t ts here =>
    split
    · exact Reads.past sound here
    · exact Reads.fail sound .metaNameExpected
  · exact Reads.fail sound .metaNameExpected

/-- A path segment covers all that is read, its first token `t` included. -/
theorem segmentFrom_reads {s : Step (c.past t ts) PathSegment} (sound : c.Sound source)
    (here : c.rest = t :: ts) (found : segmentFrom source c t ts = some s) :
    c.Reads source s.cursor [(true, s.value.outline)] ∧
      s.value.range = ⟨t.start, s.cursor.lastEnd⟩ ∧ t.start < s.cursor.lastEnd := by
  have past := sound.past here
  have one := Reads.start_lt sound here (Reads.refl past)
  unfold segmentFrom at found
  split at found
  · split at found
    · next u us =>
      split at found
      · obtain rfl := Option.some.inj found
        have name := (Reads.past past rfl).behind (prototypeName_reads (past.past rfl))
        exact ⟨Reads.enclose sound here name, rfl, Reads.start_lt sound here name⟩
      · obtain rfl := Option.some.inj found
        exact ⟨Reads.leaf sound here, rfl, one⟩
    · obtain rfl := Option.some.inj found
      exact ⟨Reads.leaf sound here, rfl, one⟩
  · obtain rfl := Option.some.inj found
    exact ⟨Reads.leaf sound here, rfl, one⟩
  · obtain rfl := Option.some.inj found
    exact ⟨Reads.leaf sound here, rfl, one⟩
  · obtain rfl := Option.some.inj found
    have name := metaName_reads past
    exact ⟨Reads.enclose sound here name, rfl, Reads.start_lt sound here name⟩
  · cases found

theorem dottedSegment?_reads {s : { s : Step c PathSegment // s.cursor.remaining < c.remaining }}
    (sound : c.Sound source) (found : dottedSegment? source c = some s) :
    c.Reads source s.1.cursor [(true, s.1.value.outline)] ∧
      s.1.value.range.stop = s.1.cursor.lastEnd := by
  unfold dottedSegment? at found
  split at found
  · next dot t ts here =>
    split at found
    · split at found
      · next segment c₁ h₁ read =>
        obtain rfl := Option.some.inj found
        have dotted := Reads.past sound here
        obtain ⟨reads, range, -⟩ := segmentFrom_reads dotted.sound rfl read
        exact ⟨dotted.behind reads, congrArg ByteRange.stop range⟩
      · cases found
    · cases found
  · cases found

/-- The segments behind `first` go on to the end of what is read. -/
theorem pathTail_reads {c : Cursor} (sound : c.Sound source) (first : PathSegment)
    (ends : first.range.stop = c.lastEnd) :
    c.Reads source (pathTail source c).cursor
        ((pathTail source c).value.map fun segment => (true, segment.outline)) ∧
      ((pathTail source c).value.getLast?.getD first).range.stop =
        (pathTail source c).cursor.lastEnd := by
  rw [pathTail]
  split
  · exact ⟨Reads.refl sound, ends⟩
  · next s lt found =>
    obtain ⟨reads, stop⟩ := dottedSegment?_reads sound found
    obtain ⟨others, last⟩ := pathTail_reads reads.sound s.value stop
    refine ⟨reads.append others, ?_⟩
    change ((s.value :: (pathTail source s.cursor).value).getLast?.getD first).range.stop = _
    rw [List.getLast?_cons]
    exact last
termination_by c.remaining

/-- A path covers all that is read. -/
theorem path?_reads {s : Step c Path} (sound : c.Sound source) (found : path? source c = some s) :
    c.Reads source s.cursor [(true, s.value.outline)] ∧
      s.value.range = ⟨c.offset source.size, s.cursor.lastEnd⟩ ∧
        c.offset source.size < s.cursor.lastEnd := by
  unfold path? at found
  split at found
  · next t ts here =>
    have start := offset_of_rest here source.size
    split at found
    · next first c₁ h₁ read =>
      obtain rfl := Option.some.inj found
      obtain ⟨reads, range, progress⟩ := segmentFrom_reads sound here read
      obtain ⟨others, last⟩ := pathTail_reads reads.sound first (congrArg ByteRange.stop range)
      have parts := reads.append others
      have progress := Nat.lt_of_lt_of_le progress others.lastEnd_le
      have begins : first.range.start = t.start := congrArg ByteRange.start range
      have covers : Path.range ⟨first, (pathTail source c₁).value⟩ =
          ⟨t.start, (pathTail source c₁).cursor.lastEnd⟩ := by
        rw [Path.range, begins, Path.last, last]
      rw [start]
      refine ⟨?_, covers, progress⟩
      rw [Path.outline, covers]
      exact parts.whole start (Nat.le_of_lt progress)
    · cases found
  · cases found

theorem closeExpression_reads (sound : c.Sound source) :
    c.Reads source (closeExpression source c) [] := by
  unfold closeExpression
  split
  · next t ts here =>
    split
    · exact Reads.past sound here
    · have failed := Reads.fail sound .expressionUnclosed
      have skipped := failed.andThen (Cursor.skip_reads failed.sound (recoveryLength 0 c.rest))
      exact skipped.andThen (Cursor.advance_reads skipped.sound)
  · exact Reads.fail sound .expressionUnclosed

/-- The parts of an expression's body, if there is one. -/
def bodyParts : Option Argument → Parts
  | none => []
  | some body => body.parts

theorem expressionBody_reads (sound : c.Sound source) :
    c.Reads source (expressionBody source c).cursor (bodyParts (expressionBody source c).value) := by
  unfold expressionBody
  split
  · exact Reads.refl sound
  · exact expression_reads sound

theorem valueFrom_reads {s : Step (c.past t ts) Value} (sound : c.Sound source)
    (here : c.rest = t :: ts) (found : valueFrom source c t ts = some s) :
    c.Reads source s.cursor [(true, s.value.outline)] := by
  unfold valueFrom at found
  split at found
  · obtain rfl := Option.some.inj found
    exact Reads.leaf sound here
  · split at found
    · obtain rfl := Option.some.inj found
      exact Reads.leaf sound here
    · split at found
      · obtain rfl := Option.some.inj found
        exact Reads.leaf sound here
      · obtain rfl := Option.some.inj found
        obtain ⟨reads, range, progress⟩ := component_reads sound here
        have node : c.Reads source _ [(true, .node .fusionObjectValue ⟨t.start, _⟩ [])] :=
          reads.whole (offset_of_rest here source.size) progress
        rw [← range] at node
        exact node
  · obtain rfl := Option.some.inj found
    exact Reads.leaf sound here
  · obtain rfl := Option.some.inj found
    have body := expressionBody_reads (sound.past here)
    have closed := body.andThen (closeExpression_reads body.sound)
    dsimp only
    generalize (expressionBody source (c.past t ts)).value = value at closed ⊢
    cases value with
    | none => exact Reads.enclose sound here closed
    | some body => exact Reads.enclose sound here closed
  · cases found

theorem value_reads (sound : c.Sound source) :
    c.Reads source (value source c).cursor [(true, (value source c).value.outline)] := by
  have missing := Reads.missing sound .valueExpected
  unfold value
  split
  · next digits found =>
    obtain ⟨reads, range, progress⟩ := number?_reads sound found
    have node : c.Reads source digits.cursor [(true, .node .numberValue ⟨_, _⟩ [])] :=
      reads.whole rfl progress
    rw [← range] at node
    exact node
  · split
    · next t ts here =>
      split
      · next s found => exact valueFrom_reads sound here found
      · rw [offset_of_rest here] at missing
        exact missing
    · next here =>
      rw [Cursor.offset_of_nil here] at missing
      exact missing

theorem copySource_reads (sound : c.Sound source) :
    c.Reads source (copySource source c).cursor [(true, (copySource source c).value.outline)] := by
  unfold copySource
  split
  · next s found => exact (path?_reads sound found).1
  · exact Reads.missing sound .copySourceExpected

theorem operation_reads (sound : c.Sound source) :
    c.Reads source (operation source c).cursor
      ((operation source c).value.toList.map fun found => (true, found.outline)) := by
  unfold operation
  split
  · next t ts here =>
    have past := sound.past here
    dsimp only
    split
    · have value := value_reads past
      have progress := Reads.start_le sound here value
      rw [Nat.max_eq_left progress]
      exact Reads.enclose sound here value
    · exact Reads.enclose sound here (copySource_reads past)
    · exact Reads.leaf sound here
    · exact Reads.refl sound
  · exact Reads.refl sound

/-- Where tokens follow one another, all behind the leading ones that start before an offset start
at it or later. -/
theorem le_start_of_mem_dropWhile {offset : Nat} {u : Token}
    (apart : ts.Pairwise fun a b => a.stop ≤ b.start)
    (member : u ∈ ts.dropWhile (·.start < offset)) : offset ≤ u.start := by
  induction ts with
  | nil => cases member
  | cons t ts ih =>
    rw [List.dropWhile_cons] at member
    split at member
    · exact ih apart.tail member
    · next late =>
      have start : offset ≤ t.start := Nat.le_of_not_lt fun lt => late (decide_eq_true lt)
      rcases List.mem_cons.mp member with rfl | later
      · exact start
      · have order : t.stop ≤ u.start := List.rel_of_pairwise_cons apart later
        exact Nat.le_trans start (Nat.le_trans (Nat.le_add_right _ _) order)

/-- Skipping a line, seen from the token `t` it is skipped behind: what is read so far may grow past
the last token of the line. -/
theorem skipLine_reads (sound : c.Sound source) (here : c.rest = t :: ts) :
    c.Reads source (skipLine source (c.past t ts)) [] := by
  have past := sound.past here
  obtain ⟨behind, found⟩ := past.lastEnd.dropBytes
  have line : behind = behind.takeWhile (· != '\n') ++ behind.dropWhile (· != '\n') :=
    List.takeWhile_append_dropWhile.symm
  have ends : Text.IsBoundary source.text
      ((c.past t ts).lastEnd + Text.byteSize (behind.takeWhile (· != '\n'))) :=
    past.lastEnd.add (found.trans (congrArg some line))
  have size : Text.IsBoundary source.text source.size :=
    source.size_eq ▸ Text.IsBoundary.size source.text
  have needed : ((c.past t ts).need source ⟨(c.past t ts).lastEnd, source.size⟩).Sound source :=
    past.need ⟨source.size_eq ▸ past.lastEnd.le_size, past.lastEnd, size⟩
  unfold skipLine
  dsimp only
  rw [found, Option.getD_some]
  generalize (c.past t ts).lastEnd + Text.byteSize (behind.takeWhile (· != '\n')) = lineEnd
    at ends ⊢
  have skipped := (Reads.still past needed rfl rfl).behind
    (Cursor.skip_reads needed ((c.past t ts).rest.takeWhile (·.start < lineEnd)).length)
  have rest := Text.drop_length_takeWhile (·.start < lineEnd) ts
  change (((c.past t ts).need source ⟨(c.past t ts).lastEnd, source.size⟩).skip
    ((c.past t ts).rest.takeWhile (·.start < lineEnd)).length).rest = _ at rest
  generalize ((c.past t ts).need source ⟨(c.past t ts).lastEnd, source.size⟩).skip
    ((c.past t ts).rest.takeWhile (·.start < lineEnd)).length = after at skipped rest ⊢
  have progress := Reads.start_le sound here skipped
  have sound' : Sound source { after with lastEnd := max after.lastEnd lineEnd } := by
    refine { skipped.sound with behind := ?_, lastEnd := ?_ }
    · intro u member
      have late := le_start_of_mem_dropWhile past.apart (rest ▸ member)
      exact Nat.max_le.mpr ⟨skipped.sound.behind u member, late⟩
    · rcases Nat.le_total after.lastEnd lineEnd with le | le
      · simpa [Nat.max_eq_right le] using ends
      · simpa [Nat.max_eq_left le] using skipped.sound.lastEnd
  have start := offset_of_rest here source.size
  refine ⟨sound, sound', (skipped.afterToken sound here).offset_le, Or.inr ?_, trivial,
    List.forall_mem_nil _⟩
  rw [start]
  exact Nat.le_trans progress (Nat.le_max_left _ _)

theorem lineStatement?_reads {s : Step c (Option Statement)} (sound : c.Sound source)
    (found : lineStatement? source c = some s) :
    c.Reads source s.cursor (statementsParts s.value.toList) := by
  unfold lineStatement? at found
  split at found
  · cases found
  · next t ts here =>
    split at found
    · obtain rfl := Option.some.inj found
      exact Reads.leaf sound here
    · split at found
      · obtain rfl := Option.some.inj found
        exact skipLine_reads sound here
      · cases found

theorem objectHead?_reads {s : { s : Step c ObjectHead // s.cursor.remaining < c.remaining }}
    (sound : c.Sound source) (found : objectHead? source c = some s) :
    c.Reads source s.1.cursor (headParts s.1.value.path s.1.value.operation) ∧
      c.offset source.size = s.1.value.path.range.start ∧
        s.1.value.path.range.start ≤ s.1.cursor.lastEnd := by
  unfold objectHead? at found
  split at found
  · cases found
  · next p read =>
    obtain rfl := Option.some.inj found
    obtain ⟨reads, range, progress⟩ := path?_reads sound read
    have start := congrArg ByteRange.start range
    have operation := operation_reads reads.sound
    exact ⟨reads.append operation, start.symm,
      start ▸ Nat.le_trans (Nat.le_of_lt progress) operation.lastEnd_le⟩

theorem statementsParts_append (front behind : List Statement) :
    statementsParts (front ++ behind) = statementsParts front ++ statementsParts behind := by
  induction front with
  | nil => rfl
  | cons first front ih => rw [List.cons_append, statementsParts, statementsParts, ih, List.cons_append]

theorem lineStatement?_lt {s : Step c (Option Statement)}
    (found : lineStatement? source c = some s) : s.cursor.remaining < c.remaining := by
  unfold lineStatement? at found
  split at found
  · cases found
  · next t ts here =>
    have lt := Cursor.remaining_past_lt here
    split at found
    · obtain rfl := Option.some.inj found
      exact lt
    · split at found
      · obtain rfl := Option.some.inj found
        exact Nat.lt_of_le_of_lt (remaining_skipLine_le source _) lt
      · cases found

/-- A statement is read, or nothing is. -/
theorem statement_lt_or_none (source : Source) (c : Cursor) :
    (statement source c).cursor.remaining < c.remaining ∨
      (statement source c).value = none ∧ (statement source c).cursor = c := by
  rw [statement]
  split
  · next s found => exact Or.inl (lineStatement?_lt found)
  · split
    · exact Or.inr ⟨rfl, rfl⟩
    · next head lt found =>
      left
      split
      · unfold bareObject
        dsimp only
        split <;> exact lt
      · next inside lt' opened =>
        have block := (statementList source true inside).le
        have closed := Cursor.remaining_expect_le (statementList source true inside).cursor
          source.size .rightBrace (.closingExpected '\x7d')
        exact Nat.lt_of_le_of_lt closed (by omega)

mutual

theorem statement_reads {c : Cursor} (sound : c.Sound source) :
    c.Reads source (statement source c).cursor
      (statementsParts (statement source c).value.toList) := by
  rw [statement]
  split
  · next s found => exact lineStatement?_reads sound found
  · split
    · exact Reads.refl sound
    · next head lt found =>
      obtain ⟨reads, start, progress⟩ := objectHead?_reads sound found
      split
      · have object : c.Reads source head.cursor
            [(true, .node .objectStatement ⟨_, _⟩ (headParts _ _))] := reads.whole start progress
        unfold bareObject
        dsimp only
        split
        · exact object.andThen (Reads.fail reads.sound .operationExpected)
        · exact object
      · next inside lt' opened =>
        unfold insideBlock? at opened
        split at opened
        · cases opened
        · next t ts here =>
          split at opened
          · obtain equal := Option.some.inj opened
            obtain rfl := congrArg Subtype.val equal
            have brace := Reads.past reads.sound here
            have shorter := Cursor.remaining_past_lt here
            have block := statementList_reads true brace.sound
            have closed := block.andThen (Cursor.expect_reads block.sound .rightBrace
              (.closingExpected '\x7d'))
            have all := (reads.andThen brace).append closed
            exact all.whole start (Nat.le_trans progress (brace.behind closed).lastEnd_le)
          · cases opened
termination_by 2 * c.remaining
decreasing_by all_goals omega

theorem statementList_reads {c : Cursor} (inBlock : Bool) (sound : c.Sound source) :
    c.Reads source (statementList source inBlock c).cursor
      (statementsParts (statementList source inBlock c).value) := by
  rw [statementList]
  split
  · exact Reads.refl sound
  · next t ts here =>
    have lt := Cursor.remaining_past_lt here
    split
    · exact Reads.refl sound
    · have first := statement_reads sound
      split
      next found c₁ h₁ equal =>
        rw [equal] at first
        split
        · have others := statementList_reads inBlock first.sound
          split
          next more c₃ h₃ equal' =>
            rw [equal'] at others
            rw [statementsParts_append]
            exact first.append others
        · next stuck =>
          have failed := Reads.fail sound (.unexpected t.text)
          have skipped := failed.behind (Reads.past failed.sound here)
          have lt' : ((c.fail source.size (.unexpected t.text)).past t ts).remaining <
            c.remaining := lt
          have others := statementList_reads inBlock skipped.sound
          split
          next more c₃ h₃ equal' =>
            rw [equal'] at others
            rcases statement_lt_or_none source c with read | ⟨unread, -⟩
            · rw [equal] at read
              exact absurd read stuck
            · rw [equal] at unread
              change found = none at unread
              subst unread
              exact skipped.behind others
termination_by 2 * c.remaining + 1
decreasing_by all_goals omega

end

end FusionAtlas.Template

namespace FusionAtlas

open Template (Source Cursor)
open SyntaxTree (Outline)

/-- Reading starts soundly: the tokens of a text stand in it one after the other. -/
theorem sound_tokens (text : String) :
    Cursor.Sound (Source.ofText text)
      { rest := (tokenize text).filter fun t => !t.kind.isTrivia } := by
  constructor
  case inPlace => exact fun t member => inPlace_of_mem_tokenize (List.mem_of_mem_filter member)
  case apart => exact (pairwise_tokenize text).filter _
  case behind => exact fun t _ => Nat.zero_le _
  case lastEnd => exact Text.IsBoundary.zero _
  case errors => exact fun e member => absurd member (Array.not_mem_empty e)
  case intact => rfl

theorem outline_laid (text : String) :
    (parseTemplate text).template.outline.Laid ∧
      ∀ outline ∈ (parseTemplate text).template.outline.nodes,
        outline.range.LiesIn text.toList := by
  have reads := Template.statementList_reads false (sound_tokens text)
  have zero := Text.IsBoundary.zero text.toList
  have size := Text.IsBoundary.size text.toList
  have spans := reads.spans
  constructor
  · refine ⟨reads.laid, ?_, ?_⟩
    · intro outline member
      exact ⟨Nat.zero_le _, Or.inl (spans outline member).lies.stop.le_size⟩
    · intro outline member _
      have inside := Outline.mem_nodesOf_of_mem_listedOf member
      exact (spans outline inside).lies.stop.le_size
  · intro outline member
    rcases List.mem_append.mp member with below | last
    · exact (spans outline below).lies
    · obtain rfl := List.mem_singleton.mp last
      exact ⟨Nat.zero_le _, zero, size⟩

/-- Between the quotes of a string token stands what is left without them. -/
theorem slice?_unquote {text : String} {t : Token} (member : t ∈ tokenize text)
    (string : t.kind = .string) :
    Text.slice? t.text.toList 1 (Text.byteSize t.text.toList - 1) =
      some (Template.unquote t.text).toList := by
  obtain ⟨quote, inner, ascii, spelled⟩ := Token.Lexer.exists_quoted member string
  have one : quote.utf8Size = 1 := by rcases ascii with rfl | rfl <;> rfl
  have front : Text.byteSize [quote] = 1 := by simp [Text.byteSize, one]
  have cut := Text.slice?_append [quote] inner [quote]
  rw [front] at cut
  have size : Text.byteSize t.text.toList - 1 = 1 + Text.byteSize inner := by
    rw [spelled, Text.byteSize, Text.byteSize_append, front, one]
    omega
  rw [size, Template.unquote, String.toList_ofList, spelled]
  simpa using cut

/-- However malformed a template is, the ranges of its nodes and faults lie in it, those of the
nodes nest, and reading it cuts no character. -/
theorem parseTemplate_nested (text : String) :
    (parseTemplate text).tree.Nested text.toList ∧
      (∀ e ∈ (parseTemplate text).errors, e.range.LiesIn text.toList) ∧
      (parseTemplate text).intact = true ∧
      ∀ t ∈ tokenize text, t.kind = .string →
        Text.slice? t.text.toList 1 (Text.byteSize t.text.toList - 1) =
          some (Template.unquote t.text).toList := by
  have reads := Template.statementList_reads false (sound_tokens text)
  obtain ⟨laid, lies⟩ := outline_laid text
  exact ⟨(SyntaxTree.ofTemplate_follows (parseTemplate text).template).nested laid lies,
    reads.sound.errors, reads.sound.intact, fun t member string => slice?_unquote member string⟩

end FusionAtlas
