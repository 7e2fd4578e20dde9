import FusionAtlas.Proofs.LosslessTokens
import FusionAtlas.Proofs.Text

/-!
Cutting what was spelled. Lexemes that are written one after the other are cut into the same lexemes
again if each is spelled as its kind demands and no character behind it could go on with it. Main
statements: `Token.Lexer.next_of_spelled` and `Token.Lexer.Cut.append`.
-/

set_option autoImplicit false
set_option relaxedAutoImplicit false

namespace FusionAtlas.Token.Lexer

open FusionAtlas.Text (byteSize isBlank isAsciiLetter isAsciiAlphanumeric range_of_isAlpha range_of_isDigit
  takeWhile_append_of_head)

/-- A kind of token with its characters, wherever it may stand. -/
structure Lexeme where
  kind : TokenKind
  text : List Char

/-- The characters of some lexemes. -/
def spell (lexemes : List Lexeme) : List Char := lexemes.flatMap Lexeme.text

@[simp] theorem spell_cons (lexeme : Lexeme) (lexemes : List Lexeme) :
    spell (lexeme :: lexemes) = lexeme.text ++ spell lexemes := List.flatMap_cons

@[simp] theorem spell_append (front behind : List Lexeme) :
    spell (front ++ behind) = spell front ++ spell behind := List.flatMap_append

/-- The tokens that lexemes are from an offset on. -/
def placeAt (start : Nat) : List Lexeme → List Token
  | [] => []
  | lexeme :: more =>
    ⟨lexeme.kind, String.ofList lexeme.text, start⟩ :: placeAt (start + byteSize lexeme.text) more

theorem placeAt_append (start : Nat) (front behind : List Lexeme) :
    placeAt start (front ++ behind) =
      placeAt start front ++ placeAt (start + byteSize (spell front)) behind := by
  induction front generalizing start with
  | nil => rfl
  | cons lexeme front ih =>
    rw [List.cons_append, placeAt, placeAt, ih, spell_cons, Text.byteSize_append, Nat.add_assoc]
    rfl

/-- In front of the characters, the lexemes are cut as they were spelled. Whether the line is blank
so far is known before and after. -/
def Cut (blank after : Bool) (lexemes : List Lexeme) (behind : List Char) : Prop :=
  ∀ start, tokensFrom blank start (spell lexemes ++ behind) =
    placeAt start lexemes ++ tokensFrom after (start + byteSize (spell lexemes)) behind

namespace Cut

variable {blank mid after : Bool} {front behind lexemes : List Lexeme} {ahead : List Char}

theorem nil (blank : Bool) (ahead : List Char) : Cut blank blank [] ahead := fun _ => rfl

theorem append (first : Cut blank mid front (spell behind ++ ahead))
    (second : Cut mid after behind ahead) : Cut blank after (front ++ behind) ahead := by
  intro start
  rw [spell_append, List.append_assoc, first start, second, placeAt_append, List.append_assoc,
    Text.byteSize_append, Nat.add_assoc]

theorem cons {lexeme : Lexeme} (first : Cut blank mid [lexeme] (spell lexemes ++ ahead))
    (second : Cut mid after lexemes ahead) : Cut blank after (lexeme :: lexemes) ahead :=
  (append first second : Cut blank after ([lexeme] ++ lexemes) ahead)

/-- One lexeme is cut if the rule for what stands there takes just its characters. -/
theorem single {kind : TokenKind} {c : Char} {rest : List Char}
    (cut : next blank c (rest ++ ahead) = (kind, rest.length)) :
    Cut blank (blankAfter blank (c :: rest)) [⟨kind, c :: rest⟩] ahead := by
  intro start
  have text : spell [⟨kind, c :: rest⟩] = c :: rest := List.append_nil _
  rw [text, List.cons_append, tokensFrom]
  simp only [cut, List.take_left, List.drop_left, placeAt, List.singleton_append]

end Cut

/-- The characters of the kinds that are always spelled alike. -/
def symbol? : TokenKind → Option (List Char)
  | .eelOpen => some ['$', '{']
  | .leftParen => some ['(']
  | .rightParen => some [')']
  | .leftBrace => some ['{']
  | .rightBrace => some ['}']
  | .leftBracket => some ['[']
  | .rightBracket => some [']']
  | .dot => some ['.']
  | .comma => some [',']
  | .at => some ['@']
  | .eq => some ['=']
  | .eqEq => some ['=', '=']
  | .bangEq => some ['!', '=']
  | .lt => some ['<']
  | .ltEq => some ['<', '=']
  | .gt => some ['>']
  | .gtEq => some ['>', '=']
  | .ampAmp => some ['&', '&']
  | .pipePipe => some ['|', '|']
  | .plus => some ['+']
  | .minus => some ['-']
  | .star => some ['*']
  | .slash => some ['/']
  | .percent => some ['%']
  | .bang => some ['!']
  | .question => some ['?']
  | .colon => some [':']
  | _ => none

/-- What an include line starts with. -/
def includeSign : List Char := ['i', 'n', 'c', 'l', 'u', 'd', 'e', ':']

/-- How the kinds of tokens are spelled, comments apart. -/
inductive Spelled : TokenKind → List Char → Prop
  | symbol {kind : TokenKind} {text : List Char} (same : symbol? kind = some text) :
      Spelled kind text
  | whitespace {c : Char} {rest : List Char} (first : isSpace c = true)
      (others : ∀ d ∈ rest, isSpace d = true) : Spelled .whitespace (c :: rest)
  | ident {c : Char} {rest : List Char} (first : startsIdent c = true)
      (others : ∀ d ∈ rest, continuesIdent d = true) : Spelled .ident (c :: rest)
  | number {c : Char} {rest : List Char} (first : c.isDigit = true)
      (others : ∀ d ∈ rest, d.isDigit = true) : Spelled .number (c :: rest)
  | string {quote : Char} {inner : List Char} (sign : quote = '\'' ∨ quote = '"')
      (plain : ∀ d ∈ inner, d ≠ quote ∧ d ≠ '\\') : Spelled .string (quote :: (inner ++ [quote]))
  | embedded {c : Char} {rest body : List Char} (first : isAsciiLetter c = true)
      (others : ∀ d ∈ rest, isAsciiAlphanumeric d = true) (plain : ∀ d ∈ body, d ≠ '`') :
      Spelled .dsl (c :: (rest ++ '`' :: (body ++ ['`'])))
  | includeLine {line : List Char} (plain : ∀ d ∈ line, d ≠ '\n') :
      Spelled .includeLine (includeSign ++ line)

/-- A token of the kind does not go on with the character. -/
def admits : TokenKind → Char → Bool
  | .whitespace, d => !isSpace d
  | .ident, d => !continuesIdent d && d != '`'
  | .number, d => !d.isDigit
  | .includeLine, d => d == '\n'
  | .eq, d | .lt, d | .gt, d | .bang, d => d != '='
  | .slash, d => d != '/' && d != '*'
  | _, _ => true

/-- No character ahead goes on with a token of the kind. -/
def Ends (kind : TokenKind) (ahead : List Char) : Prop :=
  ∀ d, ahead.head? = some d → admits kind d = true

theorem quotedLength_cons (quote : Char) {c : Char} (rest : List Char) (plain : c ≠ '\\') :
    quotedLength quote (c :: rest) =
      if c = quote then (1, true)
      else ((quotedLength quote rest).1 + 1, (quotedLength quote rest).2) := by
  rw [quotedLength]
  · exact fun same => absurd same plain
  · exact fun _ _ same => absurd same plain

theorem quotedLength_append {quote : Char} {inner : List Char} (ahead : List Char)
    (sign : quote ≠ '\\') (plain : ∀ d ∈ inner, d ≠ quote ∧ d ≠ '\\') :
    quotedLength quote (inner ++ quote :: ahead) = (inner.length + 1, true) := by
  induction inner with
  | nil => rw [List.nil_append, quotedLength_cons quote ahead sign, if_pos rfl, List.length_nil]
  | cons d inner ih =>
    obtain ⟨first, others⟩ := List.forall_mem_cons.mp plain
    rw [List.cons_append, quotedLength_cons quote _ first.2, if_neg first.1, ih others,
      List.length_cons]

section Next

variable {blank : Bool} {kind : TokenKind} {c : Char} {rest ahead : List Char}

theorem isSpace_of_startsIdent (starts : startsIdent c = true) : isSpace c = false := by
  rw [← Bool.not_eq_true]
  intro space
  simp only [isSpace, Bool.or_eq_true, beq_iff_eq] at space
  rcases space with (((rfl | rfl) | rfl) | rfl) | rfl <;> exact absurd starts (by decide)

theorem isSpace_of_isDigit (digit : c.isDigit = true) : isSpace c = false := by
  rw [← Bool.not_eq_true]
  intro space
  simp only [isSpace, Bool.or_eq_true, beq_iff_eq] at space
  rcases space with (((rfl | rfl) | rfl) | rfl) | rfl <;> exact absurd digit (by decide)

theorem startsIdent_of_isDigit (digit : c.isDigit = true) : startsIdent c = false := by
  have low := range_of_isDigit digit
  rw [← Bool.not_eq_true]
  intro starts
  rcases (Bool.or_eq_true _ _).mp starts with letter | line
  · have high := range_of_isAlpha letter
    omega
  · rw [beq_iff_eq.mp line] at digit
    cases digit

/-- A run of characters ends where the kind admits the character ahead. -/
theorem takeWhile_of_ends {p : Char → Bool} (inside : ∀ d ∈ rest, p d = true)
    (ends : Ends kind ahead) (admitted : ∀ d, admits kind d = true → p d = false) :
    (rest ++ ahead).takeWhile p = rest :=
  takeWhile_append_of_head inside fun d here => admitted d (ends d here)

theorem next_whitespace (first : isSpace c = true) (others : ∀ d ∈ rest, isSpace d = true)
    (ends : Ends .whitespace ahead) :
    next blank c (rest ++ ahead) = (.whitespace, rest.length) := by
  unfold next
  rw [if_pos first,
    takeWhile_of_ends others ends fun d admitted => by simpa [admits] using admitted]

theorem next_number (first : c.isDigit = true) (others : ∀ d ∈ rest, d.isDigit = true)
    (ends : Ends .number ahead) : next blank c (rest ++ ahead) = (.number, rest.length) := by
  unfold next
  rw [if_neg (by rw [isSpace_of_isDigit first]; exact Bool.false_ne_true),
    if_neg (by rw [startsIdent_of_isDigit first]; exact Bool.false_ne_true), if_pos first,
    takeWhile_of_ends others ends fun d admitted => by simpa [admits] using admitted]

theorem next_quoted (sign : c = '\'' ∨ c = '"') (plain : ∀ d ∈ rest, d ≠ c ∧ d ≠ '\\') :
    next blank c (rest ++ [c] ++ ahead) = (.string, (rest ++ [c]).length) := by
  have apart : isSpace c = false ∧ startsIdent c = false ∧ c.isDigit = false ∧ c ≠ '\\' := by
    rcases sign with rfl | rfl <;> decide
  have length := quotedLength_append ahead apart.2.2.2 plain
  unfold next
  rw [if_neg (by rw [apart.1]; exact Bool.false_ne_true),
    if_neg (by rw [apart.2.1]; exact Bool.false_ne_true),
    if_neg (by rw [apart.2.2.1]; exact Bool.false_ne_true), if_pos sign, List.append_assoc,
    List.singleton_append, length, if_pos rfl, List.length_append, List.length_singleton]

theorem next_word (first : startsIdent c = true) (more : List Char) :
    next blank c more = wordToken blank c more := by
  unfold next
  rw [if_neg (by rw [isSpace_of_startsIdent first]; exact Bool.false_ne_true), if_pos first]

theorem next_ident (first : startsIdent c = true) (others : ∀ d ∈ rest, continuesIdent d = true)
    (ends : Ends .ident ahead) (plain : opensIncludeLine blank (c :: rest) ahead = false) :
    next blank c (rest ++ ahead) = (.ident, rest.length) := by
  have tail : (rest ++ ahead).takeWhile continuesIdent = rest :=
    takeWhile_of_ends others ends fun d admitted => by
      rw [admits, Bool.and_eq_true, Bool.not_eq_true'] at admitted
      exact admitted.1
  rw [next_word first, wordToken]
  simp only [tail, List.drop_left]
  split
  · next body =>
    exact absurd (ends '`' rfl) (by decide)
  · rw [plain]
    rfl

theorem next_embedded {word body : List Char} (first : isAsciiLetter c = true)
    (others : ∀ d ∈ word, isAsciiAlphanumeric d = true) (plain : ∀ d ∈ body, d ≠ '`') :
    next blank c (word ++ '`' :: (body ++ ['`']) ++ ahead) =
      (.dsl, (word ++ '`' :: (body ++ ['`'])).length) := by
  have apart : c ≠ '_' := by
    rintro rfl
    exact absurd first (by decide)
  have tail : (word ++ '`' :: (body ++ '`' :: ahead)).takeWhile continuesIdent = word := by
    refine takeWhile_append_of_head (fun d member => ?_) fun d here => ?_
    · rw [continuesIdent, others d member, Bool.true_or]
    · obtain rfl := Option.some.inj here
      decide
  have inside : (body ++ '`' :: ahead).takeWhile (· != '`') = body := by
    refine takeWhile_append_of_head (fun d member => bne_iff_ne.mpr (plain d member))
      fun d here => ?_
    obtain rfl := Option.some.inj here
    decide
  have all : word.all isAsciiAlphanumeric = true := List.all_eq_true.mpr others
  rw [next_word (by rw [startsIdent, first, Bool.true_or]), wordToken]
  simp only [List.append_assoc, List.cons_append, List.nil_append, tail, List.drop_left, inside]
  rw [all, Bool.and_true, if_pos (bne_iff_ne.mpr apart), if_pos (by simp)]
  simp only [List.length_append, List.length_cons, List.length_nil]
  rw [Prod.mk.injEq]
  exact ⟨rfl, by omega⟩

theorem next_includeLine {line : List Char} (plain : ∀ d ∈ line, d ≠ '\n')
    (ends : Ends .includeLine ahead) :
    next true 'i' (includeSign.tail ++ line ++ ahead) =
      (.includeLine, (includeSign.tail ++ line).length) := by
  have length : lineLength (':' :: (line ++ ahead)) = line.length + 1 := by
    have run : (':' :: line ++ ahead).takeWhile (· != '\n') = ':' :: line := by
      refine takeWhile_of_ends (fun d member => ?_) ends fun d admitted => ?_
      · rcases List.mem_cons.mp member with rfl | later
        · rfl
        · exact bne_iff_ne.mpr (plain d later)
      · rw [beq_iff_eq.mp admitted]
        rfl
    exact congrArg List.length run
  -- The rule for words sees `include` alone; the colon and the line come from behind it.
  have split :
      includeSign.tail ++ line ++ ahead = "nclude".toList ++ (':' :: (line ++ ahead)) := rfl
  have word : ("nclude".toList ++ (':' :: (line ++ ahead))).takeWhile continuesIdent =
      "nclude".toList := by
    refine takeWhile_append_of_head (List.all_eq_true.mp (by decide)) fun d here => ?_
    obtain rfl := Option.some.inj here
    decide
  rw [next_word (by decide), wordToken, split]
  simp only [word, List.drop_left]
  rw [if_pos (by rfl), length]
  change (TokenKind.includeLine, 6 + (line.length + 1)) = _
  rw [List.length_append, Nat.add_comm line.length, ← Nat.add_assoc]
  rfl

/-- A sign that a second character could make another token of is cut alone before any other. -/
theorem next_sign {d : Char} (same : symbol? kind = some [c])
    (apart : c = '=' ∧ d ≠ '=' ∨ c = '!' ∧ d ≠ '=' ∨ c = '<' ∧ d ≠ '=' ∨ c = '>' ∧ d ≠ '=' ∨
      c = '/' ∧ d ≠ '/' ∧ d ≠ '*') : next blank c (d :: ahead) = (kind, 0) := by
  unfold next
  -- Of the rules for the sign, those that ask for a second character fail on `d`.
  rcases apart with ⟨rfl, apart⟩ | ⟨rfl, apart⟩ | ⟨rfl, apart⟩ | ⟨rfl, apart⟩ | ⟨rfl, apart⟩ <;>
  · cases kind <;> cases same
    rw [if_neg (by decide), if_neg (by decide), if_neg (by decide), if_neg (by decide)]
    split <;> simp_all

/-- The characters that are always spelled alike are cut so, unless more of them are ahead. -/
theorem next_symbol (same : symbol? kind = some (c :: rest)) (ends : Ends kind ahead) :
    next blank c (rest ++ ahead) = (kind, rest.length) := by
  cases ahead with
  | nil => cases kind <;> cases same <;> rfl
  | cons d ahead =>
    have admitted := ends d rfl
    cases kind with
    | eq | lt | gt | bang | slash =>
      cases same
      simp only [admits, Bool.and_eq_true, bne_iff_ne] at admitted
      exact next_sign rfl (by simp [admitted])
    | _ => cases same <;> rfl

/-- What is spelled as its kind demands is cut as its kind if no character ahead goes on with it.
Only at the start of a line does a word need care, and an include line must stand there. -/
theorem next_of_spelled (spelled : Spelled kind (c :: rest)) (ends : Ends kind ahead)
    (word : kind = .ident → opensIncludeLine blank (c :: rest) ahead = false)
    (line : kind = .includeLine → blank = true) :
    next blank c (rest ++ ahead) = (kind, rest.length) := by
  generalize same : c :: rest = text at spelled
  cases spelled with
  | symbol found => exact next_symbol (same ▸ found) ends
  | whitespace first others =>
    obtain ⟨rfl, rfl⟩ := List.cons.inj same
    exact next_whitespace first others ends
  | ident first others =>
    obtain ⟨rfl, rfl⟩ := List.cons.inj same
    exact next_ident first others ends (word rfl)
  | number first others =>
    obtain ⟨rfl, rfl⟩ := List.cons.inj same
    exact next_number first others ends
  | string sign plain =>
    obtain ⟨rfl, rfl⟩ := List.cons.inj same
    exact next_quoted sign plain
  | embedded first others plain =>
    obtain ⟨rfl, rfl⟩ := List.cons.inj same
    exact next_embedded first others plain
  | includeLine plain =>
    obtain ⟨rfl, rfl⟩ := List.cons.inj same
    obtain rfl := line rfl
    exact next_includeLine plain ends

end Next

section Blank

variable {blank : Bool} {kind : TokenKind} {text : List Char} {c : Char}

theorem isBlank_of_continuesIdent (continues : continuesIdent c = true) : isBlank c = false := by
  rw [← Bool.not_eq_true]
  intro blank
  simp only [isBlank, Bool.or_eq_true, Bool.and_eq_true, decide_eq_true_eq, beq_iff_eq] at blank
  rcases (Bool.or_eq_true _ _).mp continues with word | line
  · rcases (Bool.or_eq_true _ _).mp word with letter | digit
    · have range := range_of_isAlpha letter
      omega
    · have range := range_of_isDigit digit
      omega
  · rw [beq_iff_eq.mp line] at blank
    revert blank
    decide

theorem continuesIdent_of_isDigit (digit : c.isDigit = true) : continuesIdent c = true := by
  rw [continuesIdent, isAsciiAlphanumeric, digit, Bool.or_true, Bool.true_or]

theorem continuesIdent_of_startsIdent (starts : startsIdent c = true) :
    continuesIdent c = true := by
  rw [startsIdent, Bool.or_eq_true] at starts
  rw [continuesIdent, isAsciiAlphanumeric, Bool.or_eq_true, Bool.or_eq_true]
  exact starts.imp_left .inl

/-- A line is not blank behind a character that is not. -/
theorem blankAfter_concat (inked : isBlank c = false) : blankAfter blank (text ++ [c]) = false := by
  have apart : (c == '\n') = false := by
    rw [beq_eq_false_iff_ne]
    rintro rfl
    exact absurd inked (by decide)
  rw [blankAfter, List.foldl_append, List.foldl_cons, List.foldl_nil, inked, apart, Bool.and_false]
  rfl

theorem blankAfter_of_forall (nonempty : text ≠ [])
    (inked : ∀ d ∈ text, isBlank d = false) : blankAfter blank text = false := by
  obtain ⟨front, last, rfl⟩ := (List.eq_nil_or_concat text).resolve_left nonempty
  rw [List.concat_eq_append] at inked ⊢
  exact blankAfter_concat (inked last (List.mem_append_right _ (List.mem_singleton_self last)))

/-- A line is not blank behind a token, include lines and blanks apart. -/
theorem blankAfter_of_spelled (spelled : Spelled kind text) (space : kind ≠ .whitespace)
    (line : kind ≠ .includeLine) : blankAfter blank text = false := by
  cases spelled with
  | symbol same =>
    have inked : text.all (fun d => !isBlank d) = true ∧ text ≠ [] := by
      cases kind <;> cases same <;> exact ⟨rfl, List.cons_ne_nil _ _⟩
    refine blankAfter_of_forall inked.2 fun d member => ?_
    have plain := List.all_eq_true.mp inked.1 d member
    rwa [Bool.not_eq_true'] at plain
  | whitespace => exact absurd rfl space
  | ident first others =>
    refine blankAfter_of_forall (List.cons_ne_nil _ _) (List.forall_mem_cons.mpr ⟨?_, ?_⟩)
    · exact isBlank_of_continuesIdent (continuesIdent_of_startsIdent first)
    · exact fun d member => isBlank_of_continuesIdent (others d member)
  | number first others =>
    refine blankAfter_of_forall (List.cons_ne_nil _ _) (List.forall_mem_cons.mpr ⟨?_, ?_⟩)
    · exact isBlank_of_continuesIdent (continuesIdent_of_isDigit first)
    · exact fun d member => isBlank_of_continuesIdent (continuesIdent_of_isDigit (others d member))
  | @string quote inner sign =>
    have inked : isBlank quote = false := by rcases sign with rfl | rfl <;> decide
    exact (blankAfter_concat inked : blankAfter blank (quote :: inner ++ [quote]) = false)
  | @embedded c rest body =>
    have last : c :: (rest ++ '`' :: (body ++ ['`'])) = c :: (rest ++ '`' :: body) ++ ['`'] := by
      simp
    rw [last]
    exact blankAfter_concat (by decide)
  | includeLine => exact absurd rfl line

theorem Spelled.ne_nil (spelled : Spelled kind text) : text ≠ [] := by
  cases spelled with
  | symbol same => cases kind <;> cases same <;> exact List.cons_ne_nil _ _
  | includeLine => exact List.cons_ne_nil _ _
  | _ => exact List.cons_ne_nil _ _

end Blank

namespace Cut

variable {blank : Bool} {kind : TokenKind} {text ahead : List Char}

/-- What is spelled as its kind demands is cut so if no character ahead goes on with it. A word at
the start of a line must not be the sign of an include line. -/
theorem of_spelled (spelled : Spelled kind text) (space : kind ≠ .whitespace)
    (line : kind ≠ .includeLine) (ends : Ends kind ahead)
    (word : kind = .ident → opensIncludeLine blank text ahead = false) :
    Cut blank false [⟨kind, text⟩] ahead := by
  obtain ⟨c, rest, rfl⟩ := List.exists_cons_of_ne_nil spelled.ne_nil
  rw [← @blankAfter_of_spelled blank _ _ spelled space line]
  exact single (next_of_spelled spelled ends word fun same => absurd same line)

theorem space (ends : Ends .whitespace ahead) : Cut false false [⟨.whitespace, [' ']⟩] ahead :=
  single (next_whitespace rfl (fun _ => nofun) ends)

theorem newline (ends : Ends .whitespace ahead) : Cut blank true [⟨.whitespace, ['\n']⟩] ahead :=
  single (next_whitespace rfl (fun _ => nofun) ends)

theorem includeLine {line : List Char} (plain : ∀ d ∈ line, d ≠ '\n')
    (ends : Ends .includeLine ahead) :
    ∃ after, Cut true after [⟨.includeLine, includeSign ++ line⟩] ahead :=
  ⟨_, single (next_of_spelled (.includeLine plain) ends nofun fun _ => rfl)⟩

end Cut

end FusionAtlas.Token.Lexer
