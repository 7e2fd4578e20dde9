import FusionAtlas.Proofs.CanonicalDerivations
import FusionAtlas.Proofs.CanonicalTokens
import Mathlib.Data.List.Induction

/-!
The text of an operand within a longer text. Cut on its own it gives the same tokens as where it stands, as long
as what follows goes on with no word and holds no colon; and what its tokens write is the same syntax, only
elsewhere. Main statements: `Token.Lexer.tokensFrom_append`, `Token.Lexer.tokensFrom_false` and
`Template.Derives.placed`.
-/

set_option autoImplicit false
set_option relaxedAutoImplicit false

namespace FusionAtlas

open FusionAtlas.Text (byteSize)
open FusionAtlas.Canonical (NoColon EndsWord EndsPath opensIncludeLine_of_noColon)

namespace Token.Lexer

section Append

variable {blank : Bool} {c : Char} {rest ahead : List Char} {p : Char → Bool}

/-- A run that ends within a text ends there whatever stands behind the text. -/
theorem takeWhile_append_of_lt (inside : (rest.takeWhile p).length < rest.length) :
    (rest ++ ahead).takeWhile p = rest.takeWhile p := by
  rw [List.takeWhile_append, if_neg (Nat.ne_of_lt inside)]

theorem quotedLength_append_of_closed {quote : Char} (closed : (quotedLength quote rest).2 = true) :
    quotedLength quote (rest ++ ahead) = quotedLength quote rest := by
  have plain_of {d : Char} {text : List Char} (alone : d = '\\' → text = [] → False)
      (escaped : ∀ e more, d = '\\' → text = e :: more → False) : d ≠ '\\' := by
    rintro same
    cases text with
    | nil => exact alone same rfl
    | cons e more => exact escaped e more same rfl
  fun_induction quotedLength quote rest with
  | case1 | case2 | case3 => cases closed
  | case4 c rest notFeed ih =>
    rw [List.cons_append, List.cons_append, quotedLength, if_neg notFeed, ih closed]
  | case5 rest alone escaped =>
    rw [List.cons_append, quotedLength_cons _ _ (plain_of alone escaped), if_pos rfl]
  | case6 c rest alone escaped other ih =>
    rw [List.cons_append, quotedLength_cons _ _ (plain_of alone escaped), if_neg other, ih closed]

theorem lineLength_append_of_lt (inside : lineLength rest < rest.length) :
    lineLength (rest ++ ahead) = lineLength rest := by
  rw [lineLength, lineLength, takeWhile_append_of_lt inside]

theorem blockCommentLength_append (inside : blockCommentLength rest < rest.length) :
    blockCommentLength (rest ++ ahead) = blockCommentLength rest := by
  fun_induction blockCommentLength rest with
  | case1 => cases inside
  | case2 more => rw [List.cons_append, List.cons_append, blockCommentLength]
  | case3 c rest other ih =>
    have inside : blockCommentLength rest < rest.length := Nat.lt_of_succ_lt_succ inside
    rw [List.cons_append, blockCommentLength, ih inside]
    rintro more star slash
    cases rest with
    | nil => cases inside
    | cons d rest => exact other rest star (by rw [(List.cons.inj slash).1])

/-- Whether a word is the sign of an include line is not changed by what stands behind the text. -/
theorem opensIncludeLine_append (colon : NoColon ahead) (word : List Char) :
    opensIncludeLine blank word (rest ++ ahead) = opensIncludeLine blank word rest := by
  unfold opensIncludeLine
  rw [List.dropWhile_append]
  split
  · next none =>
    rw [List.isEmpty_iff.mp none, List.head?_nil, beq_eq_false_iff_ne.mpr colon]
    rfl
  · next some =>
    obtain ⟨d, more, behind⟩ := List.exists_cons_of_ne_nil (mt List.isEmpty_iff.mpr some)
    rw [behind]
    rfl

section Words

/-- The characters behind the first one that belong to a word. -/
def wordTail (rest : List Char) : List Char := rest.takeWhile continuesIdent

theorem wordToken_of_tick {body : List Char} (behind : rest.drop (wordTail rest).length = '`' :: body) :
    wordToken blank c rest =
      if c != '_' && (wordTail rest).all Text.isAsciiAlphanumeric then
        if (body.takeWhile (· != '`')).length < body.length then
          (.dsl, (wordTail rest).length + (body.takeWhile (· != '`')).length + 2)
        else (.unknown, rest.length)
      else (.ident, (wordTail rest).length) := by
  unfold wordTail at behind ⊢
  unfold wordToken
  simp only [behind]

theorem wordToken_of_plain {behind : List Char} (split : rest.drop (wordTail rest).length = behind)
    (plain : behind.head? ≠ some '`') :
    wordToken blank c rest =
      if opensIncludeLine blank (c :: wordTail rest) behind then
        (.includeLine, (wordTail rest).length + lineLength behind)
      else (.ident, (wordTail rest).length) := by
  unfold wordTail at split ⊢
  unfold wordToken
  simp only [split]
  split
  · exact absurd rfl plain
  · rfl

/-- At least the characters of the word belong to the token. -/
theorem length_wordTail_le : (wordTail rest).length ≤ (wordToken blank c rest).2 := by
  by_cases tick : ∃ body, rest.drop (wordTail rest).length = '`' :: body
  · obtain ⟨body, behind⟩ := tick
    rw [wordToken_of_tick behind]
    split
    · split
      · rw [Nat.add_assoc]
        exact Nat.le_add_right _ _
      · exact (List.takeWhile_prefix _).length_le
    · exact Nat.le_refl _
  · have plain : (rest.drop (wordTail rest).length).head? ≠ some '`' := fun same =>
      tick (List.head?_eq_some_iff.mp same)
    rw [wordToken_of_plain rfl plain]
    split
    · exact Nat.le_add_right _ _
    · exact Nat.le_refl _

theorem wordToken_append_of_lt (colon : NoColon ahead) (known : (wordToken blank c rest).1 ≠ .unknown)
    (inside : (wordToken blank c rest).2 < rest.length) :
    wordToken blank c (rest ++ ahead) = wordToken blank c rest := by
  have run := Nat.lt_of_le_of_lt length_wordTail_le inside
  have tail : wordTail (rest ++ ahead) = wordTail rest := takeWhile_append_of_lt run
  obtain ⟨d, behind, split⟩ : ∃ d behind, rest.drop (wordTail rest).length = d :: behind :=
    List.exists_cons_of_ne_nil (by simpa using run)
  have split' : (rest ++ ahead).drop (wordTail (rest ++ ahead)).length = d :: (behind ++ ahead) := by
    rw [tail, List.drop_append_of_le_length (Nat.le_of_lt run), split, List.cons_append]
  by_cases tick : d = '`'
  · subst tick
    rw [wordToken_of_tick split] at known inside ⊢
    rw [wordToken_of_tick split', tail]
    by_cases embeds : (c != '_' && (wordTail rest).all Text.isAsciiAlphanumeric) = true
    · rw [if_pos embeds] at known ⊢
      rw [if_pos embeds]
      by_cases closed : (behind.takeWhile (· != '`')).length < behind.length
      · have body : (behind ++ ahead).takeWhile (· != '`') = behind.takeWhile (· != '`') :=
          takeWhile_append_of_lt closed
        rw [body, if_pos closed, if_pos (Nat.lt_of_lt_of_le closed (by simp))]
      · rw [if_neg closed] at known
        exact absurd rfl known
    · rw [if_neg embeds, if_neg embeds]
  · have plain (more : List Char) : (d :: more).head? ≠ some '`' := by simpa using tick
    have same := @opensIncludeLine_append blank (d :: behind) ahead colon (c :: wordTail rest)
    rw [wordToken_of_plain split (plain behind)] at inside ⊢
    rw [wordToken_of_plain split' (plain (behind ++ ahead)), tail, ← List.cons_append, same]
    by_cases line : opensIncludeLine blank (c :: wordTail rest) (d :: behind) = true
    · -- The line ends within the text, since the token does.
      rw [if_pos line] at inside
      have length := congrArg List.length split
      rw [List.length_drop] at length
      have ends : lineLength (d :: behind) < (d :: behind).length := by
        dsimp only at inside
        omega
      rw [lineLength_append_of_lt ends]
    · rw [if_neg line, if_neg line]

end Words

/-- A token that ends within a text is cut alike whatever stands behind the text. -/
theorem next_append_of_lt (colon : NoColon ahead) (known : (next blank c rest).1 ≠ .unknown)
    (inside : (next blank c rest).2 < rest.length) : next blank c (rest ++ ahead) = next blank c rest := by
  unfold next at known inside ⊢
  split
  · next space =>
    rw [if_pos space] at inside
    rw [takeWhile_append_of_lt inside]
  · next space =>
    rw [if_neg space] at known inside
    split
    · next word =>
      rw [if_pos word] at known inside
      exact wordToken_append_of_lt colon known inside
    · next word =>
      rw [if_neg word] at known inside
      split
      · next digit =>
        rw [if_pos digit] at inside
        rw [takeWhile_append_of_lt inside]
      · next digit =>
        rw [if_neg digit] at known inside
        split
        · next quoted =>
          rw [if_pos quoted] at known
          cases closed : (quotedLength c rest).2 with
          | false =>
            rw [closed] at known
            exact absurd rfl known
          | true => rw [quotedLength_append_of_closed closed, closed]
        · next quoted =>
          rw [if_neg quoted] at known inside
          cases rest with
          | nil => cases inside
          | cons d rest =>
            rw [List.cons_append]
            -- Of the rules for signs only those for comments look further than one character ahead.
            split at inside <;> simp_all
            · exact lineLength_append_of_lt (by simpa using inside)
            · exact blockCommentLength_append (by simpa using inside)
            · exact @lineLength_append_of_lt (d :: rest) ahead (by simpa using inside)

/-- Kinds of tokens that an operand ends with. -/
def endsOperand : TokenKind → Bool
  | .ident | .number | .string | .rightParen | .rightBracket => true
  | _ => false

/-- A word that may end an operand is the identifier it looks like. -/
theorem wordToken_of_endsOperand (closes : endsOperand (wordToken blank c rest).1 = true) :
    wordToken blank c rest = (.ident, (wordTail rest).length) := by
  by_cases tick : ∃ body, rest.drop (wordTail rest).length = '`' :: body
  · obtain ⟨body, behind⟩ := tick
    rw [wordToken_of_tick behind] at closes ⊢
    split
    · next embeds =>
      rw [if_pos embeds] at closes
      split at closes <;> cases closes
    · rfl
  · have plain : (rest.drop (wordTail rest).length).head? ≠ some '`' := fun same =>
      tick (List.head?_eq_some_iff.mp same)
    rw [wordToken_of_plain rfl plain] at closes ⊢
    split
    · next line =>
      rw [if_pos line] at closes
      cases closes
    · rfl

theorem forall_of_length_takeWhile (all : (rest.takeWhile p).length = rest.length) : ∀ d ∈ rest, p d = true :=
  List.takeWhile_eq_self_iff.mp ((List.takeWhile_prefix p).eq_of_length all)

/-- The last token of an operand is cut alike if nothing behind goes on with a word. -/
theorem next_append_of_eq (ends : EndsPath ahead) (closes : endsOperand (next blank c rest).1 = true)
    (whole : (next blank c rest).2 = rest.length) : next blank c (rest ++ ahead) = next blank c rest := by
  by_cases word : startsIdent c = true
  · rw [next_word word] at closes whole
    rw [wordToken_of_endsOperand closes] at whole
    have others : ∀ d ∈ rest, continuesIdent d = true := forall_of_length_takeWhile whole
    have plain (behind : List Char) (colon : NoColon behind) : opensIncludeLine blank (c :: rest) behind = false :=
      opensIncludeLine_of_noColon (c :: rest) colon
    have alone : next blank c (rest ++ []) = _ := next_ident word others nofun (plain [] nofun)
    rw [List.append_nil] at alone
    rw [next_ident word others ends.word.ident (plain ahead ends.colon), alone]
  by_cases digit : c.isDigit = true
  · have space : ¬isSpace c = true := Bool.eq_false_iff.mp (isSpace_of_isDigit digit)
    unfold next at whole
    rw [if_neg space, if_neg word, if_pos digit] at whole
    have others : ∀ d ∈ rest, d.isDigit = true := forall_of_length_takeWhile whole
    have alone : next blank c (rest ++ []) = _ := next_number digit others nofun
    rw [List.append_nil] at alone
    rw [next_number digit others ends.word.number, alone]
  -- What is left are strings, which are closed, and signs that are the last character.
  unfold next at closes whole ⊢
  by_cases space : isSpace c = true
  · rw [if_pos space] at closes
    cases closes
  rw [if_neg space, if_neg word, if_neg digit] at closes whole ⊢
  rw [if_neg space, if_neg word, if_neg digit]
  by_cases quoted : c = '\'' ∨ c = '"'
  · rw [if_pos quoted] at closes ⊢
    rw [if_pos quoted]
    cases closed : (quotedLength c rest).2 with
    | false =>
      rw [closed] at closes
      cases closes
    | true => rw [quotedLength_append_of_closed closed, closed]
  · rw [if_neg quoted] at closes whole ⊢
    rw [if_neg quoted]
    split at closes <;> simp_all [endsOperand]

/-- The tokens of a text that ends with an operand do not depend on what stands behind it. -/
theorem tokensFrom_append {text : List Char} (ends : EndsPath ahead) (start : Nat)
    (known : ∀ t ∈ tokensFrom blank start text, t.kind ≠ .unknown)
    (closes : ∀ t ∈ (tokensFrom blank start text).getLast?, endsOperand t.kind = true) :
    tokensFrom blank start (text ++ ahead) =
      tokensFrom blank start text ++ tokensFrom (blankAfter blank text) (start + byteSize text) ahead := by
  fun_induction tokensFrom blank start text with
  | case1 => rfl
  | case2 blank start c rest found piece ih =>
    obtain ⟨first, others⟩ := List.forall_mem_cons.mp known
    have same : next blank c (rest ++ ahead) = found := by
      rcases Nat.lt_or_eq_of_le (next_le blank c rest) with inside | whole
      · exact next_append_of_lt ends.colon first inside
      · have none : rest.drop found.2 = [] := List.drop_eq_nil_of_le (Nat.le_of_eq whole.symm)
        rw [none, tokensFrom] at closes
        exact next_append_of_eq ends (closes _ rfl) whole
    have room := next_le blank c rest
    have text : c :: rest = piece ++ rest.drop found.2 := by
      change _ = c :: (rest.take found.2 ++ rest.drop found.2)
      rw [List.take_append_drop]
    have behind := ih others fun t last => closes t (by
      rw [List.getLast?_cons, Option.mem_def.mp last]
      rfl)
    rw [List.cons_append, tokensFrom]
    simp only [same]
    rw [List.take_append_of_le_length room, List.drop_append_of_le_length room, List.cons_append]
    change _ :: tokensFrom (blankAfter blank piece) (start + byteSize piece) _ = _
    rw [behind, text, blankAfter_append, Text.byteSize_append, Nat.add_assoc]

theorem next_false (plain : (next true c rest).1 ≠ .includeLine) : next false c rest = next true c rest := by
  have word : (wordToken true c rest).1 ≠ .includeLine → wordToken false c rest = wordToken true c rest := by
    intro plain
    by_cases tick : ∃ body, rest.drop (wordTail rest).length = '`' :: body
    · obtain ⟨body, behind⟩ := tick
      rw [wordToken_of_tick behind, wordToken_of_tick behind]
    · have plain' : (rest.drop (wordTail rest).length).head? ≠ some '`' := fun same =>
        tick (List.head?_eq_some_iff.mp same)
      rw [wordToken_of_plain rfl plain'] at plain ⊢
      rw [wordToken_of_plain rfl plain']
      split at plain
      · exact absurd rfl plain
      · next no =>
        rw [if_neg no, if_neg]
        exact Bool.false_ne_true
  unfold next at plain ⊢
  split
  · rfl
  · next space =>
    rw [if_neg space] at plain
    split
    · next start =>
      rw [if_pos start] at plain
      exact word plain
    · rfl

theorem blankAfter_true {text : List Char} (blank : blankAfter false text = true) :
    blankAfter true text = true := by
  induction text using List.reverseRecOn with
  | nil => rfl
  | append_singleton text c ih =>
    rw [blankAfter_append] at blank ⊢
    simp only [blankAfter, List.foldl_cons, List.foldl_nil, Bool.or_eq_true, Bool.and_eq_true] at blank ⊢
    exact blank.imp_right fun both => ⟨ih both.1, both.2⟩

/-- Only include lines need a blank line before them. -/
theorem tokensFrom_false {start : Nat} {text : List Char}
    (plain : ∀ t ∈ tokensFrom true start text, t.kind ≠ .includeLine) :
    tokensFrom false start text = tokensFrom true start text := by
  generalize blank : true = b at plain ⊢
  fun_induction tokensFrom b start text with
  | case1 => rw [tokensFrom]
  | case2 b start c rest found piece ih =>
    subst blank
    obtain ⟨first, others⟩ := List.forall_mem_cons.mp plain
    have same : next false c rest = found := next_false first
    rw [tokensFrom]
    simp only [same]
    refine congrArg (List.cons _) ?_
    change tokensFrom (blankAfter false piece) _ _ = _
    cases before : blankAfter false piece with
    | true => rw [blankAfter_true before]
    | false =>
      cases after : blankAfter true piece with
      | false => rfl
      | true =>
        have same := ih after.symm others
        rwa [after] at same

end Append

/-- The lexemes of some tokens. -/
def lexemesOf (tokens : List Token) : List Lexeme := tokens.map fun t => ⟨t.kind, t.text.toList⟩

theorem spell_lexemesOf (tokens : List Token) : spell (lexemesOf tokens) = written tokens :=
  List.flatMap_map ..

end Token.Lexer

namespace Token

/-- The token further behind in a text. -/
def moved (k : Nat) (t : Token) : Token := { t with start := t.start + k }

@[simp] theorem kind_moved (k : Nat) (t : Token) : (t.moved k).kind = t.kind := rfl

@[simp] theorem text_moved (k : Nat) (t : Token) : (t.moved k).text = t.text := rfl

@[simp] theorem start_moved (k : Nat) (t : Token) : (t.moved k).start = t.start + k := rfl

@[simp] theorem stop_moved (k : Nat) (t : Token) : (t.moved k).stop = t.stop + k := by
  rw [stop, stop, start_moved, text_moved]
  omega

open Lexer (placeAt lexemesOf tokensFrom)

theorem placeAt_lexemesOf {start : Nat} {tokens : List Token} (contiguous : Contiguous start tokens) (k : Nat) :
    placeAt (start + k) (lexemesOf tokens) = tokens.map (moved k) := by
  induction tokens generalizing start with
  | nil => rfl
  | cons t tokens ih =>
    obtain ⟨rfl, behind⟩ := contiguous
    have next : t.start + k + byteSize t.text.toList = t.stop + k := by
      rw [stop]
      omega
    rw [lexemesOf, List.map_cons, placeAt, ← lexemesOf, String.ofList_toList, next, ih behind]
    rfl

theorem tokensFrom_moved (blank : Bool) (start k : Nat) (text : List Char) :
    tokensFrom blank (start + k) text = (tokensFrom blank start text).map (moved k) := by
  fun_induction tokensFrom blank start text with
  | case1 => rw [tokensFrom, List.map_nil]
  | case2 blank start c rest found piece ih =>
    have next : start + k + byteSize piece = start + byteSize piece + k := Nat.add_right_comm ..
    rw [tokensFrom, List.map_cons]
    change _ :: tokensFrom _ (start + k + byteSize piece) _ = _
    rw [next, ih]
    rfl

end Token

namespace Template

open FusionAtlas.Token.Lexer (endsOperand)

variable {small source : Source} {k : Nat} {ts : List Token}

/-- What stands at a place of a text stands further behind where the text is part of another. -/
theorem quote_moved (holds : source.Holds k small.text) {r : ByteRange}
    (start : Text.IsBoundary small.text r.start) (stop : Text.IsBoundary small.text r.stop) :
    quote source ⟨r.start + k, r.stop + k⟩ = quote small r := by
  obtain ⟨front, behind, text, rfl⟩ := holds
  rw [quote, quote, Source.piece?, Source.piece?]
  by_cases le : r.start ≤ r.stop
  · obtain ⟨before, piece, after, whole, starts, stops⟩ := start.split stop le
    rw [if_pos le, if_pos (Nat.add_le_add_right le _), text, whole, ← starts, ← stops]
    have first := Text.slice?_append before piece after
    have second := Text.slice?_append (front ++ before) piece (after ++ behind)
    simp only [List.append_assoc, Text.byteSize_append] at first second ⊢
    rw [first, Nat.add_comm (byteSize before), Nat.add_comm (byteSize before + byteSize piece),
      ← Nat.add_assoc, second]
  · rw [if_neg le, if_neg fun shifted => le (Nat.le_of_add_le_add_right shifted)]

theorem IsNumber.moved (holds : source.Holds k small.text) (inPlace : ∀ t ∈ ts, t.InPlace small.text)
    {r : ByteRange} {digits : String} (written : IsNumber small ts r digits) :
    IsNumber source (ts.map (Token.moved k)) ⟨r.start + k, r.stop + k⟩ digits := by
  cases written with
  | @whole sign number r minus kind range =>
    have first : sign.getD number ∈ sign.toList ++ [number] := by cases sign <;> simp
    have last : number ∈ sign.toList ++ [number] := by simp
    rw [← quote_moved holds (range ▸ (inPlace _ first).start) (range ▸ (inPlace _ last).stop)]
    cases sign with
    | none => exact @IsNumber.whole source none _ _ nofun kind (by simp [range])
    | some sign =>
      exact @IsNumber.whole source (some (sign.moved k)) _ _ (by simpa using minus) kind (by simp [range])
  | @decimal sign number dot fraction r minus kind point places adjacent adjacent' range =>
    have first : sign.getD number ∈ sign.toList ++ [number, dot, fraction] := by cases sign <;> simp
    have last : fraction ∈ sign.toList ++ [number, dot, fraction] := by simp
    have next : (dot.moved k).start = (number.moved k).stop := by simp [adjacent]
    have next' : (fraction.moved k).start = (dot.moved k).stop := by simp [adjacent']
    rw [← quote_moved holds (range ▸ (inPlace _ first).start) (range ▸ (inPlace _ last).stop)]
    cases sign with
    | none => exact @IsNumber.decimal source none _ _ _ _ nofun kind point places next next' (by simp [range])
    | some sign =>
      exact @IsNumber.decimal source (some (sign.moved k)) _ _ _ _ (by simpa using minus) kind point places
        next next' (by simp [range])

/-- Tokens of the small text write the phrase also further behind in the source, but for its places. -/
def Placed (source : Source) (ts : List Token) : Phrase → Prop
  | .expression e => ∃ e', e'.bare = e.bare ∧ Derives source ts (.expression e')
  | .binary level e => ∃ e', e'.bare = e.bare ∧ Derives source ts (.binary level e')
  | .unary e => ∃ e', e'.bare = e.bare ∧ Derives source ts (.unary e')
  | .primary e => ∃ e', e'.bare = e.bare ∧ Derives source ts (.primary e')
  | .chain segments =>
    ∃ segments', segmentsBare segments' = segmentsBare segments ∧ Derives source ts (.chain segments')
  | .link segment => ∃ segment', segment'.bare = segment.bare ∧ Derives source ts (.link segment')
  | .arguments items =>
    ∃ items', argumentsBare items' = argumentsBare items ∧ Derives source ts (.arguments items')

theorem length_segmentsBare (segments : List Segment) : (segmentsBare segments).length = segments.length := by
  induction segments with
  | nil => rfl
  | cons segment segments ih => rw [segmentsBare, List.length_cons, ih, List.length_cons]

/-- A chain that is another but for its places has a last segment if that has one. -/
theorem exists_getLast?_of_bare {segments segments' : List Segment} {last : Segment}
    (same : segmentsBare segments' = segmentsBare segments) (ends : segments.getLast? = some last) :
    ∃ last', segments'.getLast? = some last' := by
  have lengths := congrArg List.length same
  rw [length_segmentsBare, length_segmentsBare] at lengths
  cases segments' with
  | nil =>
    rw [List.eq_nil_of_length_eq_zero lengths.symm] at ends
    cases ends
  | cons segment others => exact ⟨_, List.getLast?_cons⟩

theorem forall_mem_inside {p : Token → Prop} {opening closing : Token}
    (all : ∀ t ∈ opening :: ts ++ [closing], p t) : ∀ t ∈ ts, p t := fun t member =>
  all t (List.mem_append_left _ (List.mem_cons_of_mem _ member))

theorem Derives.placed (holds : source.Holds k small.text) (inPlace : ∀ t ∈ ts, t.InPlace small.text)
    {phrase : Phrase} (derives : Derives small ts phrase) : Placed source (ts.map (Token.moved k)) phrase := by
  induction derives with
  | condition only ih =>
    obtain ⟨e, same, derived⟩ := ih inPlace
    exact ⟨e, same, .condition derived⟩
  | ternary first question second between third ih₁ ih₂ ih₃ =>
    rw [List.append_assoc, List.cons_append, List.forall_mem_append, List.forall_mem_cons,
      List.forall_mem_append, List.forall_mem_cons] at inPlace
    obtain ⟨condition, same, derived⟩ := ih₁ inPlace.1
    obtain ⟨thenBranch, same', derived'⟩ := ih₂ inPlace.2.2.1
    obtain ⟨elseBranch, same'', derived''⟩ := ih₃ inPlace.2.2.2.2
    simp only [List.map_append, List.map_cons]
    refine ⟨_, ?_, .ternary derived question derived' between derived''⟩
    rw [Expr.bare, Expr.bare, same, same', same'']
  | operand only ih =>
    obtain ⟨e, same, derived⟩ := ih inPlace
    exact ⟨e, same, .operand derived⟩
  | operation binds tight first second ih₁ ih₂ =>
    rw [List.forall_mem_append, List.forall_mem_cons] at inPlace
    obtain ⟨left, same, derived⟩ := ih₁ inPlace.1
    obtain ⟨right, same', derived'⟩ := ih₂ inPlace.2.2
    rw [List.map_append, List.map_cons]
    exact ⟨_, by rw [Expr.bare, Expr.bare, same, same']; rfl, .operation binds tight derived derived'⟩
  | negation sign behind ih =>
    obtain ⟨e, same, derived⟩ := ih (List.forall_mem_cons.mp inPlace).2
    exact ⟨_, by rw [Expr.bare, Expr.bare, same], .negation sign derived⟩
  | positive only ih =>
    obtain ⟨e, same, derived⟩ := ih inPlace
    exact ⟨e, same, .positive derived⟩
  | @text t string => exact ⟨.text (t.moved k).range _, rfl, .text string⟩
  | @number ts r digits written =>
    exact ⟨.number ⟨r.start + k, r.stop + k⟩ digits, rfl, .number (written.moved holds inPlace)⟩
  | @boolean t value ident constant =>
    exact ⟨.boolean (t.moved k).range value, rfl, .boolean ident constant⟩
  | @null t ident constant => exact ⟨.null (t.moved k).range, rfl, .null ident constant⟩
  | array opens inside closes ih =>
    obtain ⟨items, same, derived⟩ := ih (forall_mem_inside inPlace)
    rw [List.cons_append, List.map_cons, List.map_append]
    exact ⟨_, by rw [Expr.bare, Expr.bare, same], .array opens derived closes⟩
  | parenthesised opens inside closes ih =>
    obtain ⟨e, same, derived⟩ := ih (forall_mem_inside inPlace)
    rw [List.cons_append, List.map_cons, List.map_append]
    exact ⟨e, same, .parenthesised opens derived closes⟩
  | @chain ts word segments last name links ends ih =>
    obtain ⟨segments', same, derived⟩ := ih inPlace
    obtain ⟨last', ends'⟩ := exists_getLast?_of_bare same ends
    have word : IsName (word.moved k) := ⟨name.kind, name.boolean, name.null⟩
    exact ⟨_, by rw [Expr.bare, Expr.bare, same], .chain word derived ends'⟩
  | lastLink only ih =>
    obtain ⟨segment, same, derived⟩ := ih inPlace
    exact ⟨_, by rw [segmentsBare, segmentsBare, same]; rfl, .lastLink derived⟩
  | links first between others ih₁ ih₂ =>
    rw [List.forall_mem_append, List.forall_mem_cons] at inPlace
    obtain ⟨segment, same, derived⟩ := ih₁ inPlace.1
    obtain ⟨segments, same', derived'⟩ := ih₂ inPlace.2.2
    rw [List.map_append, List.map_cons]
    exact ⟨_, by rw [segmentsBare, segmentsBare, same, same'], .links derived between derived'⟩
  | @name word ident => exact ⟨.name (word.moved k).range word.text, rfl, .name ident⟩
  | call ident opens inside closes ih =>
    obtain ⟨items, same, derived⟩ := ih (forall_mem_inside (List.forall_mem_cons.mp inPlace).2)
    rw [List.cons_append, List.cons_append, List.map_cons, List.map_cons, List.map_append]
    exact ⟨_, by rw [Segment.bare, Segment.bare, same]; rfl, .call ident opens derived closes⟩
  | noArguments => exact ⟨[], rfl, .noArguments⟩
  | lastArgument only ih =>
    obtain ⟨e, same, derived⟩ := ih inPlace
    exact ⟨_, by simp only [argumentsBare, Argument.bare, same], .lastArgument derived⟩
  | argument first between others ih₁ ih₂ =>
    rw [List.forall_mem_append, List.forall_mem_cons] at inPlace
    obtain ⟨e, same, derived⟩ := ih₁ inPlace.1
    obtain ⟨items, same', derived'⟩ := ih₂ inPlace.2.2
    rw [List.map_append, List.map_cons]
    exact ⟨_, by simp only [argumentsBare, Argument.bare, same, same'], .argument derived between derived'⟩

section Kinds

/-- The last token of a phrase, which only a list of arguments may lack. -/
def Closes (ts : List Token) : Phrase → Prop
  | .arguments _ => True
  | _ => ∃ front t, ts = front ++ [t] ∧ endsOperand t.kind = true

theorem IsNumber.closes {r : ByteRange} {digits : String} (written : IsNumber source ts r digits) :
    ∃ front t, ts = front ++ [t] ∧ endsOperand t.kind = true := by
  cases written with
  | whole _ number => exact ⟨_, _, rfl, by rw [number]; rfl⟩
  | @decimal sign digits dot fraction r _ _ _ places =>
    exact ⟨sign.toList ++ [digits, dot], fraction, by simp, by rw [places]; rfl⟩

theorem Derives.closes {phrase : Phrase} (derives : Derives source ts phrase) : Closes ts phrase := by
  induction derives with
  | condition _ ih | operand _ ih | positive _ ih | chain _ _ _ ih | lastLink _ ih => exact ih
  | ternary _ _ _ _ _ _ _ last | operation _ _ _ _ _ last | links _ _ _ _ last =>
    obtain ⟨front, t, rfl, kind⟩ := last
    exact ⟨_, t, by rw [← List.cons_append, ← List.append_assoc], kind⟩
  | negation _ _ last =>
    obtain ⟨front, t, rfl, kind⟩ := last
    exact ⟨_ :: front, t, rfl, kind⟩
  | number written => exact written.closes
  | text kind | boolean kind | null kind | name kind => exact ⟨[], _, rfl, by rw [kind]; rfl⟩
  | array _ _ kind | parenthesised _ _ kind | call _ _ _ kind => exact ⟨_, _, rfl, by rw [kind]; rfl⟩
  | noArguments | lastArgument | argument => trivial

theorem ne_includeLine_of_precedence? {kind : TokenKind} {p : Nat} (binds : precedence? kind = some p) :
    kind ≠ .includeLine := by
  rintro rfl
  cases binds

theorem IsNumber.ne_includeLine {r : ByteRange} {digits : String} (written : IsNumber source ts r digits) :
    ∀ t ∈ ts, t.kind ≠ .includeLine := by
  have signed (sign : Option Token) (minus : ∀ m ∈ sign, m.kind = .minus) :
      ∀ t ∈ sign.toList, t.kind ≠ .includeLine := fun t member => by
    rw [minus t (Option.mem_toList.mp member)]
    decide
  cases written with
  | whole minus number =>
    exact List.forall_mem_append.mpr ⟨signed _ minus, by simp [number]⟩
  | decimal minus number point places =>
    exact List.forall_mem_append.mpr ⟨signed _ minus, by simp [number, point, places]⟩

/-- No include line is part of an expression. -/
theorem Derives.ne_includeLine {phrase : Phrase} (derives : Derives source ts phrase) :
    ∀ t ∈ ts, t.kind ≠ .includeLine := by
  induction derives with
  | condition _ ih | operand _ ih | positive _ ih | chain _ _ _ ih | lastLink _ ih | lastArgument _ ih =>
    exact ih
  | number written => exact written.ne_includeLine
  | noArguments => exact fun _ => nofun
  | operation binds _ _ _ first second =>
    exact List.forall_mem_append.mpr
      ⟨first, List.forall_mem_cons.mpr ⟨ne_includeLine_of_precedence? binds, second⟩⟩
  | text kind | boolean kind | null kind | name kind => simp [kind]
  | negation kind _ ih => exact List.forall_mem_cons.mpr ⟨by rw [kind]; decide, ih⟩
  | links _ kind _ first second | argument _ kind _ first second =>
    exact List.forall_mem_append.mpr ⟨first, List.forall_mem_cons.mpr ⟨by rw [kind]; decide, second⟩⟩
  | ternary _ question _ colon _ first second third =>
    simp only [List.append_assoc, List.cons_append, List.forall_mem_append, List.forall_mem_cons]
    exact ⟨first, by rw [question]; decide, second, by rw [colon]; decide, third⟩
  | array opens _ closes ih | parenthesised opens _ closes ih =>
    simp only [List.cons_append, List.forall_mem_append, List.forall_mem_cons]
    exact ⟨by rw [opens]; decide, ih, by rw [closes]; decide⟩
  | call ident opens _ closes ih =>
    simp only [List.cons_append, List.forall_mem_append, List.forall_mem_cons]
    exact ⟨by rw [ident]; decide, by rw [opens]; decide, ih, by rw [closes]; decide⟩

end Kinds

end Template

end FusionAtlas
