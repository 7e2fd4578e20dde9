import FusionAtlas.HostCode.Source
import FusionAtlas.Proofs.WrittenParameters

/-!
Scans of a text that is known piece by piece. A piece in which a pattern is found nowhere is passed over,
and a piece that is found whole is reported and then passed over; no pattern of a class file is found in
a piece that lacks the word the pattern is built around. Main statements: `Text.scanFrom_quiet`,
`Text.scanFrom_hit`, `ClassSource.quiet_classPattern` and `ClassSource.quiet_signaturePattern`.
-/

set_option autoImplicit false
set_option relaxedAutoImplicit false

namespace FusionAtlas

namespace Text

section Scan

variable {α : Type} {pattern : Pattern α} {before : Option Char} {front rest : List Char}

/-- The character before what follows a piece of text is its last one. -/
theorem getLast?_cons_or (c : Char) (front : List Char) (before : Option Char) :
    (c :: front).getLast?.or before = front.getLast?.or (some c) := by
  rw [List.getLast?_cons]
  cases front.getLast? <;> rfl

theorem scanFrom_skip (pattern : Pattern α) (front rest : List Char) (before : Option Char)
    (offset : Nat) :
    scanFrom pattern before offset front.length (front ++ rest) =
      scanFrom pattern (front.getLast?.or before) (offset + byteSize front) 0 rest := by
  induction front generalizing before offset with
  | nil => rfl
  | cons c front ih =>
    rw [List.length_cons, List.cons_append, scanFrom, ih, byteSize, Nat.add_assoc, getLast?_cons_or]

/-- The pattern is found nowhere in a piece of text, with `rest` behind the piece. -/
def Quiet (pattern : Pattern α) (before : Option Char) (front rest : List Char) : Prop :=
  ∀ start c behind, front = start ++ c :: behind →
    pattern (start.getLast?.or before) (c :: (behind ++ rest)) = none

theorem Quiet.nil : Quiet pattern before [] rest := by
  intro start c behind whole
  simp at whole

theorem Quiet.head {c : Char} (quiet : Quiet pattern before (c :: front) rest) :
    pattern before (c :: (front ++ rest)) = none := quiet [] c front rfl

theorem Quiet.tail {c : Char} (quiet : Quiet pattern before (c :: front) rest) :
    Quiet pattern (some c) front rest := by
  intro start d behind whole
  rw [← getLast?_cons_or c start before]
  exact quiet (c :: start) d behind (by rw [whole]; rfl)

theorem Quiet.cons {c : Char} (first : pattern before (c :: (front ++ rest)) = none)
    (others : Quiet pattern (some c) front rest) : Quiet pattern before (c :: front) rest := by
  intro start d behind whole
  cases start with
  | nil =>
    obtain ⟨rfl, rfl⟩ := List.cons.inj whole
    exact first
  | cons e start =>
    obtain ⟨rfl, rfl⟩ := List.cons.inj whole
    rw [getLast?_cons_or]
    exact others start d behind rfl

theorem Quiet.append {more : List Char} (first : Quiet pattern before front (more ++ rest))
    (second : Quiet pattern (front.getLast?.or before) more rest) :
    Quiet pattern before (front ++ more) rest := by
  induction front generalizing before with
  | nil => exact second
  | cons c front ih =>
    have head : pattern before (c :: (front ++ more ++ rest)) = none := by
      rw [List.append_assoc]
      exact first.head
    exact .cons head (ih first.tail (getLast?_cons_or c front before ▸ second))

theorem Quiet.concat {stop : Char}
    (nowhere : ∀ start behind, front = start ++ behind →
      pattern (start.getLast?.or before) (behind ++ stop :: rest) = none) :
    Quiet pattern before (front ++ [stop]) rest := by
  intro start c behind whole
  obtain ⟨inner, last, ends⟩ := (List.eq_nil_or_concat' (c :: behind)).resolve_left (by simp)
  rw [ends, ← List.append_assoc] at whole
  obtain ⟨parts, same⟩ := List.append_inj' whole rfl
  obtain rfl := List.singleton_inj.mp same
  have here := nowhere start inner parts
  rwa [List.append_cons, ← ends, List.cons_append] at here

/-- A pattern that looks only at starts of lines is found nowhere in a line that it is not found at the
start of. -/
theorem Quiet.line (inside : ∀ c text, c ≠ '\n' → pattern (some c) text = none)
    (start : pattern before (front ++ '\n' :: rest) = none) (single : '\n' ∉ front) :
    Quiet pattern before (front ++ ['\n']) rest := by
  refine .concat fun first behind whole => ?_
  rcases List.eq_nil_or_concat' first with rfl | ⟨first, last, rfl⟩
  · rw [whole] at start
    exact start
  · rw [List.getLast?_concat]
    refine inside last _ ?_
    rintro rfl
    exact single (by simp [whole])

/-- A piece in which nothing is found is passed over. -/
theorem scanFrom_quiet (quiet : Quiet pattern before front rest) (offset : Nat) :
    scanFrom pattern before offset 0 (front ++ rest) =
      scanFrom pattern (front.getLast?.or before) (offset + byteSize front) 0 rest := by
  induction front generalizing before offset with
  | nil => rfl
  | cons c front ih =>
    rw [List.cons_append, scanFrom, quiet.head]
    simp only
    rw [ih quiet.tail, byteSize, Nat.add_assoc, getLast?_cons_or]

/-- A piece that is found whole is reported with its place, and passed over. -/
theorem scanFrom_hit {piece : List Char} {value : α} (written : piece ≠ [])
    (found : pattern before (piece ++ rest) = some ⟨value, piece.length⟩) (offset : Nat) :
    scanFrom pattern before offset 0 (piece ++ rest) =
      ⟨value, offset, offset + byteSize piece⟩ ::
        scanFrom pattern (piece.getLast?.or before) (offset + byteSize piece) 0 rest := by
  obtain ⟨c, piece, rfl⟩ := List.exists_cons_of_ne_nil written
  have covered : (c :: (piece ++ rest)).take (c :: piece).length = c :: piece := by
    rw [← List.cons_append]
    exact List.take_left
  rw [List.cons_append] at found ⊢
  rw [scanFrom, found]
  simp only [covered]
  rw [List.length_cons, Nat.add_sub_cancel, scanFrom_skip, byteSize, Nat.add_assoc, getLast?_cons_or]

end Scan

/-- The words of a text, with empty ones where two other characters meet. -/
def words (text : List Char) : List (List Char) := text.splitOnP fun c => !isWord c

theorem words_append_cons {c : Char} (other : isWord c = false) (front behind : List Char) :
    words (front ++ c :: behind) = words front ++ words behind :=
  List.splitOnP_append_cons front behind (by simp [other])

theorem words_of_word {word : List Char} (all : ∀ c ∈ word, isWord c = true) : words word = [word] :=
  List.splitOnP_eq_singleton fun c member => by simp [all c member]

/-- A run of word characters is a word if no more of them stand around it. -/
theorem mem_words {front word behind : List Char} (all : ∀ c ∈ word, isWord c = true)
    (start : ∀ c ∈ front.getLast?, isWord c = false) (stop : ∀ c ∈ behind.head?, isWord c = false) :
    word ∈ words (front ++ word ++ behind) := by
  have opened : word ∈ words (word ++ behind) := by
    cases behind with
    | nil => simp [words_of_word all]
    | cons c behind => simp [words_append_cons (stop c rfl), words_of_word all]
  rcases List.eq_nil_or_concat' front with rfl | ⟨front, c, rfl⟩
  · exact opened
  · rw [List.append_assoc, List.append_assoc, List.singleton_append,
      words_append_cons (start c (by simp))]
    exact List.mem_append_right _ opened

/-- What starts a text without a character starts the text in front of that character. -/
theorem prefix_of_not_mem {opening front rest : List Char} {c : Char}
    (opens : opening <+: front ++ c :: rest) (absent : c ∉ opening) : opening <+: front := by
  have whole : front ++ [c] <+: front ++ c :: rest := ⟨rest, by simp⟩
  rcases List.prefix_or_prefix_of_prefix opens whole with inside | longer
  · rcases List.prefix_concat_iff.mp inside with rfl | inside
    · simp at absent
    · exact inside
  · exact absurd (longer.subset (by simp)) absent

theorem afterBlanks?_eq_some {text rest : List Char} (found : afterBlanks? text = some rest) :
    ∃ c blanks, text = c :: blanks ++ rest ∧ ∀ d ∈ c :: blanks, isBlank d = true := by
  cases text with
  | nil => cases found
  | cons c text =>
    rw [afterBlanks?] at found
    split at found
    · rename_i blank
      obtain rfl := Option.some.inj found
      refine ⟨c, text.takeWhile isBlank, ?_, ?_⟩
      · rw [List.cons_append, trimStart, List.takeWhile_append_dropWhile]
      · intro d member
        rcases List.mem_cons.mp member with rfl | inside
        · exact blank
        · exact List.mem_takeWhile_imp inside
    · cases found

/-- A run is written at the start of the text, and goes on as far as it can. -/
theorem takeRun?_eq_some {p : Char → Bool} {text run behind : List Char}
    (found : takeRun? p text = some (run, behind)) :
    text = run ++ behind ∧ run ≠ [] ∧ (∀ c ∈ run, p c = true) ∧ ∀ c ∈ behind.head?, p c = false := by
  unfold takeRun? at found
  split at found
  · cases found
  · next c more inside =>
    cases found
    have all : ∀ d ∈ text.takeWhile p, p d = true := fun _ member => List.mem_takeWhile_imp member
    refine ⟨by rw [← inside, List.takeWhile_append_dropWhile], List.cons_ne_nil c more, inside ▸ all, ?_⟩
    intro d first
    simpa [Option.mem_def.mp first] using List.head?_dropWhile_not p text

theorem isWord_of_isBlank {c : Char} (blank : isBlank c = true) : isWord c = false := by
  by_contra word
  rw [isBlank_of_isWord (by simpa using word)] at blank
  cases blank

end Text

namespace ClassSource

open FusionAtlas.Text (Pattern Quiet isBlank isWord words)

variable {front rest : List Char}

/-- No class is found in a piece of text without the word `class`. -/
theorem quiet_classPattern {stop : Char} (other : isWord stop = false)
    (absent : "class".toList ∉ words (front ++ [stop])) :
    Quiet classPattern none (front ++ [stop]) rest := by
  refine .concat fun start behind whole => ?_
  by_contra hit
  obtain ⟨found, hit⟩ := Option.ne_none_iff_exists'.mp hit
  simp only [classPattern] at hit
  split at hit
  · cases hit
  · rename_i alone
    simp only [Option.bind_eq_bind, Option.bind_eq_some_iff] at hit
    obtain ⟨afterWord, opens, afterBlanks, blanks, -⟩ := hit
    have spelled := Text.afterOpening?_eq_some opens
    obtain ⟨blank, more, rfl, allBlank⟩ := Text.afterBlanks?_eq_some blanks
    have letters : ∀ c ∈ "class".toList, isWord c = true := by decide
    have inside : "class".toList <+: behind := by
      refine Text.prefix_of_not_mem ⟨_, spelled.symm⟩ fun member => ?_
      rw [letters stop member] at other
      cases other
    obtain ⟨tail, rfl⟩ := inside
    rw [List.append_assoc] at spelled
    have next := List.append_cancel_left spelled
    refine absent ?_
    rw [whole, ← List.append_assoc, List.append_assoc _ tail]
    refine Text.mem_words letters (fun c last => ?_) fun c first => ?_
    · rw [Option.mem_def] at last
      simpa [last] using alone
    · have same : c = blank := by
        cases tail <;> simp_all
      rw [same]
      exact Text.isWord_of_isBlank (allBlank blank (by simp))

/-- A character that may stand between two parts of a signature before its parentheses. -/
def isWordOrBlank (c : Char) : Bool := isWord c || isBlank c

theorem afterWord?_eq_some {word : String} {text found : List Char}
    (opens : afterWord? word text = some found) :
    ∃ blanks, text = word.toList ++ blanks ++ found ∧ blanks ≠ [] ∧ ∀ c ∈ blanks, isBlank c = true := by
  obtain ⟨behind, start, blanks⟩ := Option.bind_eq_some_iff.mp opens
  obtain ⟨c, more, rfl, blank⟩ := Text.afterBlanks?_eq_some blanks
  exact ⟨c :: more, by rw [Text.afterOpening?_eq_some start, List.append_assoc], by simp, blank⟩

theorem takeEnclosed?_suffix {inPair : Bool} {text inside rest : List Char}
    (found : takeEnclosed? inPair text = some (inside, rest)) : rest <:+ text := by
  induction text generalizing inPair inside with
  | nil => cases found
  | cons c text ih =>
    have later {inPair : Bool}
        (found : (takeEnclosed? inPair text).map (fun found => (c :: found.1, found.2)) = some (inside, rest)) :
        rest <:+ c :: text := by
      obtain ⟨⟨_, _⟩, inner, same⟩ := Option.map_eq_some_iff.mp found
      cases same
      exact (ih inner).trans (List.suffix_cons c text)
    rw [takeEnclosed?] at found
    split at found
    · exact later found
    · split at found
      · split at found
        · cases found
        · exact later found
      · split at found
        · exact later found
        · cases found
          exact List.suffix_cons c rest

theorem takeReturnType?_suffix {text type rest : List Char} (found : takeReturnType? text = some (type, rest)) :
    rest <:+ text := by
  have run {text type rest : List Char} (found : Text.takeRun? isReturnTypeChar text = some (type, rest)) :
      rest <:+ text := ⟨type, (Text.takeRun?_eq_some found).1.symm⟩
  unfold takeReturnType? at found
  split at found
  · next text =>
    refine List.IsSuffix.trans ?_ (List.suffix_cons ':' text)
    split at found
    · next behind opens =>
      obtain ⟨⟨_, _⟩, inner, same⟩ := Option.map_eq_some_iff.mp found
      cases same
      have inside := (run inner).trans (List.suffix_cons '?' behind)
      exact (opens ▸ inside).trans (List.dropWhile_suffix _)
    · exact (run found).trans (List.dropWhile_suffix _)
  · cases found

/-- Parameters and return type end somewhere behind the name of a method. -/
theorem suffix_behindName {behindName inner parameters rest : List Char}
    (opened : Text.afterOpening? ['('] (Text.trimStart behindName) = some inner)
    (enclosed : takeEnclosed? false inner = some (parameters, rest)) :
    ((takeReturnType? (Text.trimStart rest)).map (·.2)).getD (Text.trimStart rest) <:+ behindName := by
  have opening : inner <:+ Text.trimStart behindName := ⟨['('], (Text.afterOpening?_eq_some opened).symm⟩
  have behind : Text.trimStart rest <:+ behindName :=
    (List.dropWhile_suffix _).trans
      ((takeEnclosed?_suffix enclosed).trans (opening.trans (List.dropWhile_suffix _)))
  refine List.IsSuffix.trans ?_ behind
  cases returned : takeReturnType? (Text.trimStart rest) with
  | none => exact List.suffix_rfl
  | some type => exact takeReturnType?_suffix returned

theorem isWordOrBlank_of_mem_append {word blanks : List Char} (letters : ∀ c ∈ word, isWord c = true)
    (blank : ∀ c ∈ blanks, isBlank c = true) : ∀ c ∈ word ++ blanks, isWordOrBlank c = true := by
  intro c member
  rcases List.mem_append.mp member with inWord | inBlanks
  · simp [isWordOrBlank, letters c inWord]
  · simp [isWordOrBlank, blank c inBlanks]

/-- The word `static` with the blank that must be behind it, if it is there. -/
theorem exists_optionalStatic (text : List Char) :
    ∃ words, text = words ++ (afterWord? "static" text).getD text ∧
      (∀ c ∈ words, isWordOrBlank c = true) ∧
      (words = [] ∨ ∃ front b, words = front ++ [b] ∧ isBlank b = true) := by
  cases opens : afterWord? "static" text with
  | none => exact ⟨[], rfl, by simp, Or.inl rfl⟩
  | some rest =>
    obtain ⟨blanks, whole, written, blank⟩ := afterWord?_eq_some opens
    obtain ⟨front, b, rfl⟩ := (List.eq_nil_or_concat' blanks).resolve_left written
    exact ⟨"static".toList ++ (front ++ [b]), whole, isWordOrBlank_of_mem_append (by decide) blank,
      Or.inr ⟨"static".toList ++ front, b, by simp, blank b (by simp)⟩⟩

/-- What a signature has before the word `function`: words and blanks, and a blank at the end. -/
theorem exists_of_beforeFunction {text behind : List Char}
    (isPublic : afterWord? "public" ((afterWord? "static" text).getD text) = some behind) :
    ∃ front b, text = front ++ [b] ++ (afterWord? "static" behind).getD behind ∧ isBlank b = true ∧
      ∀ c ∈ front, isWordOrBlank c = true := by
  obtain ⟨early, whole, earlyChars, -⟩ := exists_optionalStatic text
  obtain ⟨blanks, opening, written, blank⟩ := afterWord?_eq_some isPublic
  -- The word `static` may stand on either side of `public`.
  obtain ⟨late, further, lateChars, lateEnd⟩ := exists_optionalStatic behind
  have publicChars : ∀ c ∈ "public".toList ++ blanks, isWordOrBlank c = true :=
    isWordOrBlank_of_mem_append (by decide) blank
  have words : text = early ++ ("public".toList ++ blanks) ++ late ++
      (afterWord? "static" behind).getD behind := by
    conv_lhs => rw [whole, opening, further]
    simp only [List.append_assoc]
  rcases lateEnd with rfl | ⟨front, b, rfl, blankEnd⟩
  · obtain ⟨front, b, rfl⟩ := (List.eq_nil_or_concat' blanks).resolve_left written
    refine ⟨early ++ ("public".toList ++ front), b, words.trans (by simp), blank b (by simp), ?_⟩
    refine List.forall_mem_append.mpr ⟨earlyChars, fun c member => publicChars c ?_⟩
    exact (List.append_assoc "public".toList front [b]) ▸ List.mem_append_left [b] member
  · refine ⟨early ++ ("public".toList ++ blanks) ++ front, b, words.trans (by simp), blankEnd, ?_⟩
    refine List.forall_mem_append.mpr ⟨List.forall_mem_append.mpr ⟨earlyChars, publicChars⟩, fun c member => ?_⟩
    exact lateChars c (List.mem_append_left _ member)

/-- A signature holds the word `function` between blanks, with nothing but words and blanks before it. Behind it
stands the name, perhaps with the mark of a reference, and the name is a whole word there. -/
theorem exists_of_signaturePattern {before : Option Char} {text : List Char}
    {hit : Text.Hit Signature} (found : signaturePattern before text = some hit) :
    ∃ front b blanks mark behind after,
      text = (front ++ [b] ++ "function".toList ++ blanks ++ mark ++ hit.value.name ++ behind) ++ after ∧
      hit.length = text.length - after.length ∧
      (isBlank b = true ∧ ∀ c ∈ front, isWordOrBlank c = true) ∧
      (blanks ≠ [] ∧ ∀ c ∈ blanks, isBlank c = true) ∧ (mark = [] ∨ mark = ['&']) ∧
      (hit.value.name ≠ [] ∧ ∀ c ∈ hit.value.name, isWord c = true) ∧ ∀ c ∈ behind.head?, isWord c = false := by
  have reference (text : List Char) :
      ∃ mark, text = mark ++ (Text.afterOpening? ['&'] text).getD text ∧ (mark = [] ∨ mark = ['&']) := by
    cases opens : Text.afterOpening? ['&'] text with
    | none => exact ⟨[], rfl, Or.inl rfl⟩
    | some rest => exact ⟨['&'], Text.afterOpening?_eq_some opens, Or.inr rfl⟩
  simp only [signaturePattern, Option.bind_eq_bind, Option.bind_eq_some_iff] at found
  obtain ⟨afterPublic, isPublic, afterFunction, isFunction, ⟨name, afterName⟩, named, inner, opened,
    ⟨parameters, rest⟩, enclosed, same⟩ := found
  obtain rfl := Option.some.inj same
  obtain ⟨front, b, words, blankEnd, chars⟩ := exists_of_beforeFunction isPublic
  obtain ⟨blanks, opening, written, blank⟩ := afterWord?_eq_some isFunction
  obtain ⟨mark, marked, marks⟩ := reference afterFunction
  obtain ⟨spelled, nonempty, letters, ends⟩ := Text.takeRun?_eq_some named
  obtain ⟨behind, cut⟩ := suffix_behindName opened enclosed
  dsimp only at cut
  refine ⟨front, b, blanks, mark, behind, _, ?_, rfl, ⟨blankEnd, chars⟩, ⟨written, blank⟩, marks,
    ⟨nonempty, letters⟩, fun c first => ends c ?_⟩
  · conv_lhs => rw [words, opening, marked, spelled, ← cut]
    simp only [List.append_assoc]
  · rw [← cut, List.head?_append, Option.mem_def.mp first]
    rfl

/-- No signature is found in a piece of text without the word `function`, if the piece ends in a
character that no signature has before its parentheses. -/
theorem quiet_signaturePattern {before : Option Char} {stop : Char} (other : isWordOrBlank stop = false)
    (absent : "function".toList ∉ words (front ++ [stop])) :
    Quiet signaturePattern before (front ++ [stop]) rest := by
  refine .concat fun start behind whole => ?_
  by_contra hit
  obtain ⟨found, hit⟩ := Option.ne_none_iff_exists'.mp hit
  obtain ⟨inner, b, blanks, mark, more, after, spelled, -, ⟨blank, chars⟩, ⟨written, allBlank⟩, -⟩ :=
    exists_of_signaturePattern hit
  obtain ⟨b', blanks, rfl⟩ := List.exists_cons_of_ne_nil written
  have blank' := allBlank b' (by simp)
  have letters : ∀ c ∈ "function".toList, isWord c = true := by decide
  have opens : inner ++ [b] ++ "function".toList ++ [b'] <+: behind ++ stop :: rest :=
    ⟨blanks ++ mark ++ found.value.name ++ more ++ after, by rw [spelled]; simp⟩
  have inside : inner ++ [b] ++ "function".toList ++ [b'] <+: behind := by
    refine Text.prefix_of_not_mem opens fun member => ?_
    have allowed : isWordOrBlank stop = true := by
      simp only [List.mem_append, List.mem_singleton] at member
      rcases member with ((inInner | rfl) | inWord) | rfl
      · exact chars stop inInner
      · simp [isWordOrBlank, blank]
      · simp [isWordOrBlank, letters stop inWord]
      · simp [isWordOrBlank, blank']
    rw [allowed] at other
    cases other
  obtain ⟨tail, rfl⟩ := inside
  refine absent ?_
  have cut : front ++ [stop] =
      start ++ inner ++ [b] ++ "function".toList ++ b' :: (tail ++ [stop]) := by
    rw [whole]
    simp
  rw [cut]
  refine Text.mem_words letters (fun c last => ?_) fun c first => ?_
  · obtain rfl : b = c := by simpa using last
    exact Text.isWord_of_isBlank blank
  · obtain rfl : b' = c := by simpa using first
    exact Text.isWord_of_isBlank blank'

theorem afterWord?_eq_none {word : String} {c d : Char} {letters text : List Char}
    (spelled : word.toList = c :: letters) (other : c ≠ d) :
    afterWord? word (d :: text) = none := by
  simp [afterWord?, spelled, Text.afterOpening?, other]

/-- A signature starts with the first letter of `public` or of `static`. -/
theorem signaturePattern_eq_none {before : Option Char} {c : Char} {text : List Char}
    (other : c ∉ ['p', 's']) : signaturePattern before (c :: text) = none := by
  simp only [List.mem_cons, List.not_mem_nil, or_false, not_or] at other
  have noStatic : afterWord? "static" (c :: text) = none := afterWord?_eq_none rfl (Ne.symm other.2)
  have noPublic : afterWord? "public" (c :: text) = none := afterWord?_eq_none rfl (Ne.symm other.1)
  simp only [signaturePattern, noStatic, Option.getD_none, noPublic, Option.bind_eq_bind, Option.bind_none]

theorem quiet_signaturePattern_of_marks {before : Option Char} {text : List Char}
    (marks : ∀ c ∈ text, c ∉ ['p', 's']) : Quiet signaturePattern before text rest := by
  intro start c behind whole
  exact signaturePattern_eq_none (marks c (by simp [whole]))

end ClassSource

end FusionAtlas
