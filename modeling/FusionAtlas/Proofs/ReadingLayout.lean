import FusionAtlas.Proofs.Layout
import FusionAtlas.Proofs.Tokens

/-!
Reading keeps to the text. A cursor is sound when the tokens ahead of it stand in their places
behind what is read already; reading from one cursor to another gives parts that cover what lies
between them. Main statements: `Template.Cursor.Reads.append` and `Template.Cursor.Reads.enclose`.
-/

set_option autoImplicit false
set_option relaxedAutoImplicit false

namespace FusionAtlas.Template

open FusionAtlas.SyntaxTree (Outline Parts)
open FusionAtlas.SyntaxTree.Outline (loosen nodesOf listedOf Laid LaidOf Admits)

theorem Source.piece?_of_liesIn {source : Source} {r : ByteRange} (lies : r.LiesIn source.text) :
    (source.piece? r).isSome := by
  obtain ⟨piece, found⟩ := lies.start.slice? lies.stop lies.le
  rw [piece?, if_pos lies.le, found]
  rfl

namespace Cursor

variable {source : Source} {c mid after : Cursor} {t : Token} {ts : List Token}

/-- The tokens ahead stand in the text one after the other, all behind the last one read; faults
lie in the text, and nothing was asked for that is not there. -/
structure Sound (source : Source) (c : Cursor) : Prop where
  inPlace : ∀ t ∈ c.rest, t.InPlace source.text
  apart : c.rest.Pairwise fun a b => a.stop ≤ b.start
  behind : ∀ t ∈ c.rest, c.lastEnd ≤ t.start
  lastEnd : Text.IsBoundary source.text c.lastEnd
  errors : ∀ e ∈ c.errors, e.range.LiesIn source.text
  intact : c.intact = true

theorem offset_of_rest (here : c.rest = t :: ts) (size : Nat) : c.offset size = t.start := by
  rw [offset, here]
  rfl

theorem offset_of_nil (here : c.rest = []) (size : Nat) : c.offset size = size := by
  rw [offset, here]
  rfl

theorem remaining_past_lt (here : c.rest = t :: ts) : (c.past t ts).remaining < c.remaining := by
  rw [remaining_of_rest here, remaining_past]
  exact Nat.lt_succ_self _

namespace Sound

theorem token (sound : c.Sound source) (here : c.rest = t :: ts) : t.InPlace source.text :=
  sound.inPlace t (here ▸ List.mem_cons_self)

theorem lastEnd_le_offset (sound : c.Sound source) : c.lastEnd ≤ c.offset source.size := by
  cases here : c.rest with
  | nil =>
    rw [offset_of_nil here, source.size_eq]
    exact sound.lastEnd.le_size
  | cons t ts =>
    rw [offset_of_rest here]
    exact sound.behind t (here ▸ List.mem_cons_self)

theorem offset (sound : c.Sound source) : Text.IsBoundary source.text (c.offset source.size) := by
  cases here : c.rest with
  | nil =>
    rw [offset_of_nil here, source.size_eq]
    exact Text.IsBoundary.size source.text
  | cons t ts =>
    rw [offset_of_rest here]
    exact (sound.token here).start

theorem past (sound : c.Sound source) (here : c.rest = t :: ts) : (c.past t ts).Sound source := by
  have apart := sound.apart
  rw [here] at apart
  have token := sound.token here
  constructor
  case inPlace => exact fun u member => sound.inPlace u (here ▸ List.mem_cons_of_mem t member)
  case apart => exact apart.tail
  case behind => exact fun u member => List.rel_of_pairwise_cons apart member
  case lastEnd => exact token.stop
  case errors => exact sound.errors
  case intact => exact sound.intact

theorem failAt (sound : c.Sound source) (fault : SyntaxFault) {r : ByteRange}
    (lies : r.LiesIn source.text) : (c.failAt fault r).Sound source := by
  refine { sound with errors := ?_ }
  intro e member
  rcases Array.mem_push.mp member with old | rfl
  · exact sound.errors e old
  · exact lies

theorem fail (sound : c.Sound source) (fault : SyntaxFault) :
    (c.fail source.size fault).Sound source := by
  refine sound.failAt fault ?_
  cases here : c.rest with
  | nil =>
    have stop : Text.IsBoundary source.text source.size :=
      source.size_eq ▸ Text.IsBoundary.size source.text
    exact ⟨Nat.le_refl _, stop, stop⟩
  | cons t ts =>
    have token := sound.token here
    exact ⟨Nat.le_of_lt token.lt, token.start, token.stop⟩

theorem need (sound : c.Sound source) {r : ByteRange} (lies : r.LiesIn source.text) :
    (c.need source r).Sound source := by
  refine { sound with intact := ?_ }
  rw [Cursor.need, sound.intact, Source.piece?_of_liesIn lies]
  rfl

end Sound

/-- A node found between two cursors. It ends before what is read so far, unless it stands for
something missing there. -/
structure Spans (source : Source) (c after : Cursor) (outline : Outline) : Prop where
  lies : outline.range.LiesIn source.text
  start : c.offset source.size ≤ outline.range.start
  stop : outline.range.stop ≤ after.offset source.size
  reached : outline.range.stop ≤ after.lastEnd ∨
    outline.tag = .error ∧ after.lastEnd ≤ outline.range.start

/-- Reading went on from one sound cursor to another and found some parts on the way. -/
structure Reads (source : Source) (c after : Cursor) (parts : Parts) : Prop where
  before : c.Sound source
  sound : after.Sound source
  offset_le : c.offset source.size ≤ after.offset source.size
  lastEnd : after.lastEnd = c.lastEnd ∨ c.offset source.size ≤ after.lastEnd
  laid : LaidOf parts
  spans : ∀ outline ∈ nodesOf parts, Spans source c after outline

namespace Reads

variable {parts more : Parts} {tag : NodeTag}

theorem lastEnd_le (reads : c.Reads source after parts) : c.lastEnd ≤ after.lastEnd := by
  have bound := reads.before.lastEnd_le_offset
  rcases reads.lastEnd with same | further <;> omega

/-- A step that changes neither the tokens ahead nor what is read so far. -/
theorem still (before : c.Sound source) (sound : after.Sound source) (rest : after.rest = c.rest)
    (lastEnd : after.lastEnd = c.lastEnd) : c.Reads source after [] := by
  refine ⟨before, sound, Nat.le_of_eq ?_, Or.inl lastEnd, trivial, List.forall_mem_nil _⟩
  rw [offset, offset, rest]

theorem refl (sound : c.Sound source) : c.Reads source c [] := still sound sound rfl rfl

theorem fail (sound : c.Sound source) (fault : SyntaxFault) :
    c.Reads source (c.fail source.size fault) [] :=
  still sound (sound.fail fault) rfl rfl

theorem past (sound : c.Sound source) (here : c.rest = t :: ts) :
    c.Reads source (c.past t ts) [] := by
  have token := sound.token here
  have further := (sound.past here).lastEnd_le_offset
  have start := offset_of_rest here source.size
  change t.stop ≤ _ at further
  refine ⟨sound, sound.past here, ?_, Or.inr ?_, trivial, List.forall_mem_nil _⟩
  · have lt := token.lt
    omega
  · rw [start]
    exact Nat.le_of_lt token.lt

theorem append (first : c.Reads source mid parts) (second : mid.Reads source after more) :
    c.Reads source after (parts ++ more) := by
  have middle := first.sound.lastEnd_le_offset
  have grown := second.lastEnd_le
  have low := first.offset_le
  have high := second.offset_le
  refine ⟨first.before, second.sound, Nat.le_trans low high, ?_, ?_, ?_⟩
  · rcases first.lastEnd with same | further
    · rcases second.lastEnd with same' | further'
      · exact Or.inl (same'.trans same)
      · exact Or.inr (Nat.le_trans low further')
    · exact Or.inr (Nat.le_trans further grown)
  · refine Outline.laidOf_append.mpr ⟨first.laid, second.laid, ?_⟩
    intro a here b there
    exact Nat.le_trans (first.spans a here).stop (second.spans b there).start
  · intro outline member
    rw [Outline.nodesOf_append] at member
    rcases List.mem_append.mp member with here | there
    · have spans := first.spans outline here
      refine ⟨spans.lies, spans.start, Nat.le_trans spans.stop high, ?_⟩
      rcases spans.reached with reached | ⟨missing, ahead⟩
      · exact Or.inl (Nat.le_trans reached grown)
      · rcases second.lastEnd with same | further
        · exact Or.inr ⟨missing, same ▸ ahead⟩
        · exact Or.inl (Nat.le_trans spans.stop further)
    · have spans := second.spans outline there
      exact ⟨spans.lies, Nat.le_trans low spans.start, spans.stop, spans.reached⟩

/-- A step without parts of its own, before the others. -/
theorem behind (first : c.Reads source mid []) (second : mid.Reads source after more) :
    c.Reads source after more := first.append second

/-- A step without parts of its own, after the others. -/
theorem andThen (first : c.Reads source mid parts) (second : mid.Reads source after []) :
    c.Reads source after parts := by
  have both := first.append second
  rwa [List.append_nil] at both

theorem loosen (reads : c.Reads source after parts) :
    c.Reads source after (Outline.loosen parts) := by
  refine { reads with laid := Outline.laidOf_loosen.mpr reads.laid, spans := ?_ }
  rw [Outline.nodesOf_loosen]
  exact reads.spans

/-- A node around parts that its range admits. -/
theorem node (reads : c.Reads source after parts) {r : ByteRange} (lies : r.LiesIn source.text)
    (low : c.offset source.size ≤ r.start) (high : r.stop ≤ after.lastEnd)
    (admits : ∀ outline ∈ nodesOf parts, Admits r outline)
    (listed : ∀ outline ∈ listedOf parts, outline.tag ≠ .error → outline.range.stop ≤ r.stop) :
    c.Reads source after [(true, .node tag r parts)] := by
  have bound := reads.sound.lastEnd_le_offset
  refine { reads with laid := ?_, spans := ?_ }
  · exact Outline.laidOf_singleton.mpr ⟨reads.laid, admits, listed⟩
  · intro outline member
    rw [Outline.nodesOf_singleton, Outline.nodes] at member
    rcases List.mem_append.mp member with below | last
    · exact reads.spans outline below
    · obtain rfl := List.mem_singleton.mp last
      exact ⟨lies, low, Nat.le_trans high bound, Or.inl high⟩

/-- A node from where reading began to the end of what is read. -/
theorem whole (reads : c.Reads source after parts) {start : Nat}
    (begins : c.offset source.size = start) (progress : start ≤ after.lastEnd) :
    c.Reads source after [(true, .node tag ⟨start, after.lastEnd⟩ parts)] := by
  subst begins
  have reached (outline : Outline) (member : outline ∈ nodesOf parts) :
      outline.range.stop ≤ after.lastEnd ∨ outline.tag = .error ∧
        after.lastEnd ≤ outline.range.start := (reads.spans outline member).reached
  refine reads.node ⟨progress, reads.before.offset, reads.sound.lastEnd⟩ (Nat.le_refl _)
    (Nat.le_refl _) ?_ ?_
  · intro outline member
    refine ⟨(reads.spans outline member).start, ?_⟩
    rcases reached outline member with inside | ⟨-, ahead⟩
    · exact Or.inl inside
    · exact Or.inr ahead
  · intro outline member present
    rcases reached outline (Outline.mem_nodesOf_of_mem_listedOf member) with inside | ⟨missing, -⟩
    · exact inside
    · exact absurd missing present

/-- What is read behind a token, seen from before it. -/
theorem afterToken (sound : c.Sound source) (here : c.rest = t :: ts)
    (reads : (c.past t ts).Reads source after parts) : c.Reads source after parts :=
  (past sound here).behind reads

theorem start_lt (sound : c.Sound source) (here : c.rest = t :: ts)
    (reads : (c.past t ts).Reads source after parts) : t.start < after.lastEnd :=
  Nat.lt_of_lt_of_le (sound.token here).lt reads.lastEnd_le

theorem start_le (sound : c.Sound source) (here : c.rest = t :: ts)
    (reads : (c.past t ts).Reads source after parts) : t.start ≤ after.lastEnd :=
  Nat.le_of_lt (reads.start_lt sound here)

/-- A node from a token on, around what is read behind it. -/
theorem enclose (sound : c.Sound source) (here : c.rest = t :: ts)
    (reads : (c.past t ts).Reads source after parts) :
    c.Reads source after [(true, .node tag ⟨t.start, after.lastEnd⟩ parts)] :=
  (reads.afterToken sound here).whole (offset_of_rest here source.size) (reads.start_le sound here)

/-- A node of one token. -/
theorem leaf (sound : c.Sound source) (here : c.rest = t :: ts) :
    c.Reads source (c.past t ts) [(true, .node tag t.range [])] :=
  enclose sound here (refl (sound.past here))

/-- A node that stands for something missing, with the fault that says so. -/
theorem missing (sound : c.Sound source) (fault : SyntaxFault) :
    c.Reads source (c.fail source.size fault)
      [(true, .node .error (.emptyAt (c.offset source.size)) [])] := by
  have failed := fail sound fault
  refine { failed with laid := ?_, spans := ?_ }
  · refine Outline.laidOf_singleton.mpr ⟨trivial, ?_, ?_⟩
    · exact List.forall_mem_nil _
    · exact List.forall_mem_nil _
  · intro outline member
    obtain rfl := List.mem_singleton.mp member
    have boundary := sound.offset
    exact ⟨⟨Nat.le_refl _, boundary, boundary⟩, Nat.le_refl _, Nat.le_refl _,
      Or.inr ⟨rfl, sound.lastEnd_le_offset⟩⟩

end Reads

end Cursor

/-- A fraction is a dot and digits, each right behind what stands before it. -/
theorem fraction?_written {lastEnd : Nat} {ts more : List Token} {fraction : Token}
    (found : fraction? lastEnd ts = some (fraction, more)) :
    ∃ dot : Token, ts = dot :: fraction :: more ∧ dot.kind = .dot ∧ fraction.kind = .number ∧
      dot.start = lastEnd ∧ fraction.start = dot.stop := by
  unfold fraction? at found
  split at found
  · split at found
    · next both =>
      cases found
      exact ⟨_, rfl, both⟩
    · cases found
  · cases found

end FusionAtlas.Template
