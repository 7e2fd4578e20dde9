import FusionAtlas.Proofs.ReadingLayout

/-!
Expressions keep to the text: whatever a reader of expressions finds, abandoned pieces included, is
laid out between the cursors it was read from and to. Main statement: `Template.expression_reads`.
-/

set_option autoImplicit false
set_option relaxedAutoImplicit false

namespace FusionAtlas.Template

open FusionAtlas.SyntaxTree (Outline Parts)
open FusionAtlas.SyntaxTree.Outline (loosen nodesOf listedOf Laid LaidOf Admits)

/-- The parts that an attempt gives whatever came of it. -/
def attemptParts (attempt : Attempt) : Parts := (Argument.ofAttempt attempt).parts

/-- An expression's own node comes first, and nothing behind it is listed. -/
theorem Expr.exists_node (e : Expr) : ∃ outline pieces, e.parts = (true, outline) :: pieces ∧
    outline.range = e.range ∧ outline.tag ≠ .error ∧ listedOf pieces = [] := by
  cases e with
  | trailed value abandoned =>
    obtain ⟨outline, pieces, parts, range, tag, loose⟩ := value.exists_node
    refine ⟨outline, pieces ++ abandonedParts abandoned, ?_, range, tag, ?_⟩
    · rw [Expr.parts, parts, List.cons_append]
    · rw [Outline.listedOf_append, loose, List.nil_append]
      induction abandoned with
      | nil => rfl
      | cons piece abandoned ih =>
        rw [abandonedParts, Outline.listedOf_append, Outline.listedOf_loosen, ih]
        rfl
  | _ => exact ⟨_, [], rfl, rfl, (NodeTag.noConfusion ·), rfl⟩

namespace Cursor

variable {source : Source} {c after : Cursor} {t : Token} {ts : List Token}

theorem expect_reads (sound : c.Sound source) (kind : TokenKind) (fault : SyntaxFault) :
    c.Reads source (c.expect source.size kind fault) [] := by
  unfold expect
  split
  · next t ts here =>
    split
    · exact Reads.past sound here
    · exact Reads.fail sound fault
  · exact Reads.fail sound fault

namespace Reads

variable {front : Parts} {e : Expr} {tag : NodeTag} {start : Nat}

/-- A node that ends where its last operand ends, a closing parenthesis behind it not counted. -/
theorem upTo (reads : c.Reads source after (front ++ e.parts))
    (low : c.offset source.size ≤ start) (boundary : Text.IsBoundary source.text start)
    (first : ∀ outline ∈ nodesOf (front ++ e.parts), start ≤ outline.range.start) :
    c.Reads source after [(true, .node tag ⟨start, e.range.stop⟩ (front ++ e.parts))] := by
  obtain ⟨own, pieces, parts, range, present, loose⟩ := e.exists_node
  rw [← range]
  rw [parts] at reads first ⊢
  obtain ⟨-, ⟨inner, apart, -⟩, between⟩ := Outline.laidOf_append.mp reads.laid
  have mem : own ∈ nodesOf (front ++ (true, own) :: pieces) := by
    rw [Outline.nodesOf_append]
    exact List.mem_append_right _ (List.mem_append_left _ (Outline.self_mem_nodes own))
  have spans := reads.spans own mem
  have ends : own.range.stop ≤ after.lastEnd := by
    rcases spans.reached with reached | ⟨missing, -⟩
    · exact reached
    · exact absurd missing present
  have before (outline : Outline) (member : outline ∈ nodesOf front) :
      outline.range.stop ≤ own.range.stop :=
    Nat.le_trans (between outline member own
      (List.mem_append_left _ (Outline.self_mem_nodes own))) spans.lies.le
  refine reads.node ⟨Nat.le_trans (first own mem) spans.lies.le, boundary, spans.lies.stop⟩ low
    ends ?_ ?_
  · intro outline member
    refine ⟨first outline member, ?_⟩
    rw [Outline.nodesOf_append, nodesOf] at member
    rcases List.mem_append.mp member with early | member
    · exact Or.inl (before outline early)
    · rcases List.mem_append.mp member with here | late
      · exact (Outline.admits_of_laid inner here).2
      · exact Or.inr (apart own (Outline.self_mem_nodes own) outline late)
  · intro outline member _
    rw [Outline.listedOf_append, listedOf, loose, List.append_nil] at member
    rcases List.mem_append.mp member with early | last
    · exact before outline (Outline.mem_nodesOf_of_mem_listedOf early)
    · obtain rfl := List.mem_singleton.mp last
      exact Nat.le_refl _

/-- A node from a token to the end of the operand behind it. -/
theorem encloseOperand (sound : c.Sound source) (here : c.rest = t :: ts)
    (reads : (c.past t ts).Reads source after e.parts) :
    c.Reads source after [(true, .node tag ⟨t.start, e.range.stop⟩ e.parts)] := by
  have offset := offset_of_rest here source.size
  have whole : c.Reads source after ([] ++ e.parts) := reads.afterToken sound here
  refine whole.upTo (Nat.le_of_eq offset) (sound.token here).start ?_
  intro outline member
  rw [← offset]
  exact (whole.spans outline member).start

/-- A node from the start of its first operand to the end of its last. -/
theorem join {first : Expr} {middle : Parts}
    (reads : c.Reads source after (first.parts ++ middle ++ e.parts)) :
    c.Reads source after
      [(true, .node tag ⟨first.range.start, e.range.stop⟩ (first.parts ++ middle ++ e.parts))] := by
  obtain ⟨own, pieces, parts, range, -⟩ := first.exists_node
  have split : first.parts ++ middle ++ e.parts = (true, own) :: (pieces ++ middle ++ e.parts) := by
    rw [parts]
    rfl
  have mem : own ∈ nodesOf (first.parts ++ middle ++ e.parts) := by
    rw [split]
    exact List.mem_append_left _ (Outline.self_mem_nodes own)
  have spans := reads.spans own mem
  rw [← range]
  refine upTo reads spans.start spans.lies.start ?_
  intro outline member
  have laid := reads.laid
  rw [split] at laid member
  rcases List.mem_append.mp member with here | later
  · exact (Outline.admits_of_laid laid.1 here).1
  · exact Nat.le_trans spans.lies.le (laid.2.1 own (Outline.self_mem_nodes own) outline later)

end Reads

end Cursor

section Readers

open Cursor (Reads Sound offset_of_rest)

variable {source : Source} {c : Cursor}

/-- Asking for the text from a place before the cursor up to what is read. -/
theorem Cursor.Reads.quote {mid : Cursor} {parts : Parts} {start : Nat}
    (reads : c.Reads source mid parts) (boundary : Text.IsBoundary source.text start)
    (le : start ≤ mid.lastEnd) :
    c.Reads source (mid.need source ⟨start, mid.lastEnd⟩) parts :=
  reads.andThen
    (Reads.still reads.sound (reads.sound.need ⟨le, boundary, reads.sound.lastEnd⟩) rfl rfl)

/-- Reading a number on, seen from a cursor `c` before its digits. -/
theorem numberFrom_reads {start : Nat} {t : Token} {ts : List Token} (sound : c.Sound source)
    (here : c.rest = t :: ts) (boundary : Text.IsBoundary source.text start)
    (low : start ≤ t.start) :
    c.Reads source (numberFrom source c start t ts).cursor [] ∧
      (numberFrom source c start t ts).value.2 =
        ⟨start, (numberFrom source c start t ts).cursor.lastEnd⟩ ∧
      start ≤ (numberFrom source c start t ts).cursor.lastEnd := by
  have digits := Reads.past sound here
  unfold numberFrom
  split
  · next fraction more found =>
    obtain ⟨dot, rfl, -⟩ := fraction?_written found
    have further := (Reads.past digits.sound rfl).behind (Reads.past (digits.sound.past rfl) rfl)
    have progress := Nat.le_trans low (Reads.start_le sound here further)
    exact ⟨(digits.behind further).quote boundary progress, rfl, progress⟩
  · have progress := Nat.le_trans low (Reads.start_le sound here (Reads.refl digits.sound))
    exact ⟨digits.quote boundary progress, rfl, progress⟩

/-- A number begins with a token, and its range covers all that is read. -/
theorem number?_reads {s : Step c (String × ByteRange)} (sound : c.Sound source)
    (found : number? source c = some s) :
    c.Reads source s.cursor [] ∧
      s.value.2 = ⟨c.offset source.size, s.cursor.lastEnd⟩ ∧
        c.offset source.size ≤ s.cursor.lastEnd := by
  unfold number? at found
  split at found
  · next t ts here =>
    have start := offset_of_rest here source.size
    have token := sound.token here
    split at found
    · obtain rfl := Option.some.inj found
      rw [start]
      exact numberFrom_reads sound here token.start (Nat.le_refl _)
    · split at found
      · split at found
        · next _ d ds here' =>
          split at found
          · obtain rfl := Option.some.inj found
            have minus := Reads.past sound here'
            have low := minus.sound.behind d List.mem_cons_self
            obtain ⟨reads, range, progress⟩ := numberFrom_reads minus.sound rfl token.start
              (Nat.le_trans (Nat.le_of_lt token.lt) low)
            rw [start]
            exact ⟨minus.behind reads, range, progress⟩
          · cases found
        · cases found
      · cases found
  · cases found

mutual

theorem expression_reads {c : Cursor} (sound : c.Sound source) :
    c.Reads source (expression source c).cursor (attemptParts (expression source c).value) := by
  have first := binary_reads 1 sound
  rw [expression]
  split
  · next pieces c₁ h₁ equal =>
    rw [equal] at first
    exact first
  · next condition c₁ h₁ equal =>
    rw [equal] at first
    split
    · exact first
    · next t ts here =>
      have lt := Cursor.remaining_past_lt here
      split
      · have question := first.andThen (Reads.past first.sound here)
        have second := expression_reads question.sound
        split
        · next pieces c₃ h₃ equal' =>
          rw [equal'] at second
          exact question.loosen.append second
        · next thenBranch c₃ h₃ equal' =>
          rw [equal'] at second
          have trailed : c.Reads source (c₃.fail source.size .colonExpected)
              (Expr.trailed condition [thenBranch]).parts :=
            question.append ((second.loosen.append (Reads.refl second.sound)).andThen
              (Reads.fail second.sound .colonExpected))
          split
          · next u us here' =>
            have lt' := Cursor.remaining_past_lt here'
            split
            · have colon := second.andThen (Reads.past second.sound here')
              have third := expression_reads colon.sound
              split
              · next pieces c₅ h₅ equal'' =>
                rw [equal''] at third
                exact question.loosen.append (colon.loosen.append third)
              · next elseBranch c₅ h₅ equal'' =>
                rw [equal''] at third
                exact ((question.append colon).append third).join
            · exact trailed
          · exact trailed
      · exact first
termination_by 8 * c.remaining + 4
decreasing_by all_goals omega

theorem binary_reads {c : Cursor} (level : Nat) (sound : c.Sound source) :
    c.Reads source (binary source level c).cursor (attemptParts (binary source level c).value) := by
  have first := unary_reads sound
  rw [binary]
  split
  · next pieces c₁ h₁ equal =>
    rw [equal] at first
    exact first
  · next left c₁ h₁ equal =>
    rw [equal] at first
    exact binaryTail_reads level first
termination_by 8 * c.remaining + 3
decreasing_by all_goals omega

/-- Going on behind a left operand, seen from where that was read. -/
theorem binaryTail_reads {origin c : Cursor} {left : Expr} (level : Nat)
    (reads : origin.Reads source c left.parts) :
    origin.Reads source (binaryTail source level left c).cursor
      (attemptParts (binaryTail source level left c).value) := by
  rw [binaryTail]
  split
  · exact reads
  · next t ts here =>
    have lt := Cursor.remaining_past_lt here
    split
    · exact reads
    · next p bound =>
      split
      · exact reads
      · have operator := reads.andThen (Reads.past reads.sound here)
        have second := binary_reads (p + 1) operator.sound
        split
        · next pieces c₂ h₂ equal =>
          rw [equal] at second
          exact operator.loosen.append second
        · next right c₂ h₂ equal =>
          rw [equal] at second
          have both : origin.Reads source c₂ (left.parts ++ [] ++ right.parts) := by
            rw [List.append_nil]
            exact operator.append second
          have joined : origin.Reads source c₂
              (Expr.operation ⟨left.range.start, right.range.stop⟩ left t.text right).parts := by
            rw [Expr.parts, ← List.append_nil left.parts]
            exact both.join
          exact binaryTail_reads level joined
termination_by 8 * c.remaining
decreasing_by all_goals omega

theorem unary_reads {c : Cursor} (sound : c.Sound source) :
    c.Reads source (unary source c).cursor (attemptParts (unary source c).value) := by
  rw [unary]
  split
  · exact primary_reads sound
  · next t ts here =>
    have lt := Cursor.remaining_past_lt here
    split
    · have bang := Reads.past sound here
      have second := unary_reads bang.sound
      split
      · next pieces c₂ h₂ equal =>
        rw [equal] at second
        exact bang.behind second
      · next operand c₂ h₂ equal =>
        rw [equal] at second
        exact Reads.encloseOperand sound here second
    · exact primary_reads sound
termination_by 8 * c.remaining + 2
decreasing_by all_goals omega

theorem primary_reads {c : Cursor} (sound : c.Sound source) :
    c.Reads source (primary source c).cursor (attemptParts (primary source c).value) := by
  rw [primary]
  split
  · next digits found =>
    obtain ⟨reads, range, progress⟩ := number?_reads sound found
    have node : c.Reads source digits.cursor [(true, .node .literalNumber ⟨_, _⟩ [])] :=
      reads.whole rfl progress
    rw [← range] at node
    exact node
  · split
    · exact Reads.fail sound .expressionExpected
    · next t ts here =>
      have lt := Cursor.remaining_past_lt here
      have token := Reads.past sound here
      split
      · exact Reads.leaf sound here
      · have items := arguments_reads .rightBracket token.sound
        split
        next given c₂ h₂ equal =>
          rw [equal] at items
          have closed := items.andThen (Cursor.expect_reads items.sound .rightBracket
            (.closingExpected ']'))
          exact Reads.enclose sound here closed
      · have inner := expression_reads token.sound
        split
        next given c₂ h₂ equal =>
          rw [equal] at inner
          have closed := inner.andThen (Cursor.expect_reads inner.sound .rightParen
            (.closingExpected ')'))
          exact token.behind closed
      · split
        · exact Reads.leaf sound here
        · split
          · exact Reads.leaf sound here
          · obtain ⟨reads, ⟨last, found, stop⟩, progress⟩ := chain_reads sound here
            have start := offset_of_rest here source.size
            simp only [Step.map, Step.weaken, found, Option.map_some, Option.getD_some, stop]
            exact reads.whole start progress
      · exact Reads.fail sound .expressionExpected
termination_by 8 * c.remaining + 1
decreasing_by all_goals omega

theorem chain_reads {origin : Cursor} {word : Token} {ts : List Token} (sound : origin.Sound source)
    (here : origin.rest = word :: ts) :
    let s := chain source word (origin.past word ts)
    origin.Reads source s.cursor (segmentsParts s.value) ∧
      (∃ last, s.value.getLast? = some last ∧ last.range.stop = s.cursor.lastEnd) ∧
      word.start ≤ s.cursor.lastEnd := by
  have first := link_reads sound here
  dsimp only
  rw [chain]
  split
  next segment c₁ h₁ equal =>
    rw [equal] at first
    obtain ⟨reads, stop, progress⟩ := first
    have one : origin.Reads source c₁ (segmentsParts [segment]) :=
      reads.append (Reads.refl reads.sound)
    split
    · next dot next more here' =>
      have lt := Cursor.remaining_past_lt here'
      split
      · have dotted := reads.andThen (Reads.past reads.sound here')
        have lt' : ((c₁.past dot (next :: more)).past next more).remaining <
            (c₁.past dot (next :: more)).remaining := Cursor.remaining_past_lt rfl
        have others := @chain_reads _ next more dotted.sound rfl
        split
        next segments c₃ h₃ equal' =>
          rw [equal'] at others
          obtain ⟨rest, ⟨last, found, stop'⟩, -⟩ := others
          refine ⟨dotted.append rest, ⟨last, ?_, stop'⟩, ?_⟩
          · rw [List.getLast?_cons, found]
            rfl
          · have dot := Reads.past reads.sound here'
            exact Nat.le_trans progress (Nat.le_trans dot.lastEnd_le rest.lastEnd_le)
      · exact ⟨one, ⟨segment, rfl, stop⟩, progress⟩
    · exact ⟨one, ⟨segment, rfl, stop⟩, progress⟩
termination_by 8 * (origin.past word ts).remaining + 1
decreasing_by all_goals omega

theorem link_reads {origin : Cursor} {word : Token} {ts : List Token} (sound : origin.Sound source)
    (here : origin.rest = word :: ts) :
    let s := link source word (origin.past word ts)
    origin.Reads source s.cursor s.value.parts ∧ s.value.range.stop = s.cursor.lastEnd ∧
      word.start ≤ s.cursor.lastEnd := by
  have name := Reads.past sound here
  have progress := Reads.start_le sound here (Reads.refl name.sound)
  dsimp only
  rw [link]
  split
  · exact ⟨Reads.leaf sound here, rfl, progress⟩
  · next t us here' =>
    have lt := Cursor.remaining_past_lt here'
    split
    · have opened := Reads.past name.sound here'
      have given := arguments_reads .rightParen opened.sound
      split
      next args c₂ h₂ equal =>
        rw [equal] at given
        have closed := opened.behind (given.andThen (Cursor.expect_reads given.sound .rightParen
          (.closingExpected ')')))
        exact ⟨Reads.enclose sound here closed, rfl, Reads.start_le sound here closed⟩
    · exact ⟨Reads.leaf sound here, rfl, progress⟩
termination_by 8 * (origin.past word ts).remaining
decreasing_by all_goals omega

theorem arguments_reads {c : Cursor} (close : TokenKind) (sound : c.Sound source) :
    c.Reads source (arguments source close c).cursor
      (argumentsParts (arguments source close c).value) := by
  rw [arguments]
  split
  · exact Reads.refl sound
  · next t ts here =>
    split
    · exact Reads.refl sound
    · have first := expression_reads sound
      split
      next attempt c₁ h₁ equal =>
        rw [equal] at first
        have one : c.Reads source c₁ (argumentsParts [Argument.ofAttempt attempt]) :=
          first.append (Reads.refl first.sound)
        split
        · next u us here' =>
          have lt := Cursor.remaining_past_lt here'
          split
          · have comma := first.andThen (Reads.past first.sound here')
            have others := arguments_reads close comma.sound
            split
            next more c₃ h₃ equal' =>
              rw [equal'] at others
              exact comma.append others
          · exact one
        · exact one
termination_by 8 * c.remaining + 5
decreasing_by all_goals omega

end

end Readers

end FusionAtlas.Template
