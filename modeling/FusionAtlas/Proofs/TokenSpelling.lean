import FusionAtlas.Proofs.Lexemes

/-!
What is cut is spelled as its kind demands: the converse of cutting what was spelled. Comments, strings and
text that is no token are spelled in more ways than that, and an include line may have blanks in front of its
colon. Main statements: `Token.Lexer.spelled_of_mem` and `Token.Lexer.includeLine_next`.
-/

set_option autoImplicit false
set_option relaxedAutoImplicit false

namespace FusionAtlas

/-- The tokens of the kind are spelled in one way, up to the characters of a word, a number or a gap. -/
def TokenKind.isRegular : TokenKind → Bool
  | .comment | .string | .includeLine | .unknown => false
  | _ => true

namespace Token.Lexer

open FusionAtlas.Text (byteSize isAsciiLetter isAsciiAlphanumeric)

variable {blank : Bool} {c : Char} {rest : List Char}

theorem take_length_takeWhile (p : Char → Bool) (text : List Char) :
    text.take (text.takeWhile p).length = text.takeWhile p :=
  (List.prefix_iff_eq_take.mp (List.takeWhile_prefix p)).symm

theorem isAsciiLetter_of_startsIdent (starts : startsIdent c = true) (word : c ≠ '_') :
    isAsciiLetter c = true := by
  rw [startsIdent, Bool.or_eq_true, beq_iff_eq] at starts
  exact starts.resolve_right word

/-- Behind the longest run of characters stands none that belongs to it. -/
theorem head?_dropWhile (p : Char → Bool) (text : List Char) :
    ∀ d ∈ (text.dropWhile p).head?, p d = false := by
  intro d here
  have first := List.head?_dropWhile_not p text
  rw [here] at first
  exact first

/-- Where a run of characters does not reach the end, one follows that does not belong to it. -/
theorem exists_behind_takeWhile {p : Char → Bool} {text : List Char}
    (short : (text.takeWhile p).length < text.length) :
    ∃ d behind, text = text.takeWhile p ++ d :: behind ∧ p d = false := by
  have whole : text.takeWhile p ++ text.dropWhile p = text := List.takeWhile_append_dropWhile
  cases left : text.dropWhile p with
  | nil =>
    rw [left, List.append_nil] at whole
    rw [whole] at short
    exact absurd short (Nat.lt_irrefl _)
  | cons d behind =>
    refine ⟨d, behind, ?_, head?_dropWhile p text d (by rw [left]; rfl)⟩
    rw [← left, whole]

/-- An embedded block is a word of letters and digits in front of what stands between two backticks. -/
theorem spelled_embedded {body : List Char} (starts : startsIdent c = true) (letter : c ≠ '_')
    (letters : ∀ d ∈ rest, isAsciiAlphanumeric d = true)
    (closed : (body.takeWhile (· != '`')).length < body.length) :
    Spelled .dsl (c :: (rest ++ '`' :: body).take
      (rest.length + (body.takeWhile (· != '`')).length + 2)) := by
  obtain ⟨d, behind, split, last⟩ := exists_behind_takeWhile closed
  obtain rfl : d = '`' := by simpa using last
  have plain : ∀ d ∈ body.takeWhile (· != '`'), d ≠ '`' := fun d member =>
    bne_iff_ne.mp (List.mem_takeWhile_imp (p := (· != '`')) member)
  generalize body.takeWhile (· != '`') = inside at split plain ⊢
  have taken : (rest ++ '`' :: body).take (rest.length + inside.length + 2) =
      rest ++ '`' :: (inside ++ ['`']) := by
    have piece : rest ++ '`' :: body = (rest ++ '`' :: (inside ++ ['`'])) ++ behind := by
      rw [split]
      simp
    have length : rest.length + inside.length + 2 = (rest ++ '`' :: (inside ++ ['`'])).length := by
      simp
      omega
    rw [piece, length, List.take_left]
  rw [taken]
  exact .embedded (isAsciiLetter_of_startsIdent starts letter) letters plain

/-- A word that opens no include line is an identifier or an embedded block. -/
theorem spelled_wordToken (starts : startsIdent c = true)
    (regular : (wordToken blank c rest).1.isRegular = true) :
    Spelled (wordToken blank c rest).1 (c :: rest.take (wordToken blank c rest).2) := by
  have ident : Spelled .ident (c :: rest.take (rest.takeWhile continuesIdent).length) := by
    rw [take_length_takeWhile]
    exact .ident starts fun _ member => List.mem_takeWhile_imp member
  have whole : rest = rest.takeWhile continuesIdent ++
      rest.drop (rest.takeWhile continuesIdent).length := by
    rw [Text.drop_length_takeWhile, List.takeWhile_append_dropWhile]
  unfold wordToken at regular ⊢
  dsimp only at regular ⊢
  split at regular
  · next body behind =>
    rw [behind] at whole
    split at regular
    · next letters =>
      rw [if_pos letters]
      rw [Bool.and_eq_true, bne_iff_ne, List.all_eq_true] at letters
      split at regular
      · next closed =>
        rw [if_pos closed]
        have spelled := spelled_embedded starts letters.1 letters.2 closed
        rw [← whole] at spelled
        exact spelled
      · cases regular
    · next other =>
      rw [if_neg other]
      exact ident
  · split at regular
    · cases regular
    · next other =>
      rw [if_neg other]
      exact ident

/-- What a token takes of the text is spelled as its kind demands. -/
theorem spelled_next (regular : (next blank c rest).1.isRegular = true) :
    Spelled (next blank c rest).1 (c :: rest.take (next blank c rest).2) := by
  unfold next at regular ⊢
  split at regular
  · next space =>
    rw [if_pos space, take_length_takeWhile]
    exact .whitespace space fun _ member => List.mem_takeWhile_imp member
  · next space =>
    rw [if_neg space]
    split at regular
    · next starts =>
      rw [if_pos starts]
      exact spelled_wordToken starts regular
    · next word =>
      rw [if_neg word]
      split at regular
      · next digit =>
        rw [if_pos digit, take_length_takeWhile]
        exact .number digit fun _ member => List.mem_takeWhile_imp member
      · next digit =>
        rw [if_neg digit]
        split at regular
        · split at regular <;> cases regular
        · next quoted =>
          rw [if_neg quoted]
          -- One case per rule for a sign, each of which takes just the characters it names.
          split at regular <;> first | exact .symbol rfl | cases regular

/-- A property of each token where it is cut holds of all tokens. -/
theorem forall_tokensFrom {P : TokenKind → List Char → Prop}
    (cut : ∀ blank c rest, P (next blank c rest).1 (c :: rest.take (next blank c rest).2))
    (blank : Bool) (start : Nat) (text : List Char) :
    ∀ t ∈ tokensFrom blank start text, P t.kind t.text.toList := by
  fun_induction tokensFrom blank start text with
  | case1 => exact List.forall_mem_nil _
  | case2 blank start c rest found piece ih =>
    refine List.forall_mem_cons.mpr ⟨?_, ih⟩
    rw [String.toList_ofList]
    exact cut blank c rest

/-- Tokens are spelled as their kinds demand. -/
theorem spelled_of_mem {text : String} {t : Token} (member : t ∈ tokenize text)
    (regular : t.kind.isRegular = true) : Spelled t.kind t.text.toList :=
  forall_tokensFrom (P := fun kind chars => kind.isRegular = true → Spelled kind chars)
    (fun _ _ _ => spelled_next) true 0 text.toList t member regular

/-- How an include line is spelled: the word, spaces and tabs at most, a colon, and the rest of the line. -/
def IsIncludeLine (chars : List Char) : Prop :=
  ∃ gap path, chars = "include".toList ++ gap ++ ':' :: path ∧ (∀ d ∈ gap, d = ' ' ∨ d = '\t') ∧ '\n' ∉ path

theorem IsIncludeLine.exists_colon {chars : List Char} (spelled : IsIncludeLine chars) :
    ∃ front behind, chars = front ++ ':' :: behind ∧ ':' ∉ front := by
  obtain ⟨gap, path, rfl, blanks, -⟩ := spelled
  refine ⟨_, path, rfl, fun colon => ?_⟩
  rcases List.mem_append.mp colon with sign | space
  · exact absurd sign (by decide)
  · rcases blanks ':' space with same | same <;> cases same

/-- An include line stands where its line is blank so far, and takes all that is left of it. -/
theorem includeLine_wordToken (line : (wordToken blank c rest).1 = .includeLine) :
    blank = true ∧ IsIncludeLine (c :: rest.take (wordToken blank c rest).2) ∧
      ∀ d ∈ (rest.drop (wordToken blank c rest).2).head?, d = '\n' := by
  have whole : rest = rest.takeWhile continuesIdent ++
      rest.drop (rest.takeWhile continuesIdent).length := by
    rw [Text.drop_length_takeWhile, List.takeWhile_append_dropWhile]
  unfold wordToken at line ⊢
  dsimp only at line ⊢
  generalize rest.takeWhile continuesIdent = tail at whole line ⊢
  generalize rest.drop tail.length = behind at whole line ⊢
  subst whole
  split at line
  · split at line
    · split at line <;> cases line
    · cases line
  · split at line
    · next opens =>
      rw [if_pos opens, lineLength, List.take_length_add_append, take_length_takeWhile, List.drop_length_add_append,
        Text.drop_length_takeWhile]
      rw [opensIncludeLine, Bool.and_eq_true, Bool.and_eq_true, beq_iff_eq, beq_iff_eq] at opens
      obtain ⟨⟨first, word⟩, colon⟩ := opens
      obtain ⟨more, ahead⟩ := List.head?_eq_some_iff.mp colon
      have split := List.takeWhile_append_dropWhile (p := fun d => d == ' ' || d == '\t') (l := behind)
      rw [ahead] at split
      have blanks : ∀ d ∈ behind.takeWhile (fun d => d == ' ' || d == '\t'), d = ' ' ∨ d = '\t' := by
        intro d member
        simpa using List.mem_takeWhile_imp member
      generalize behind.takeWhile (fun d => d == ' ' || d == '\t') = gap at split blanks
      have run : behind.takeWhile (· != '\n') = gap ++ ':' :: more.takeWhile (· != '\n') := by
        have inside : ∀ d ∈ gap, (d != '\n') = true := by
          intro d member
          rcases blanks d member with rfl | rfl <;> rfl
        rw [← split, List.takeWhile_append_of_pos inside, List.takeWhile_cons_of_pos rfl]
      refine ⟨first, ⟨gap, more.takeWhile (· != '\n'), ?_, blanks, fun feed => ?_⟩, fun d here => ?_⟩
      · rw [run, ← List.cons_append, word, List.append_assoc]
      · simpa using List.mem_takeWhile_imp feed
      · simpa using head?_dropWhile (· != '\n') behind d here
    · cases line

theorem includeLine_next (line : (next blank c rest).1 = .includeLine) :
    blank = true ∧ IsIncludeLine (c :: rest.take (next blank c rest).2) ∧
      ∀ d ∈ (rest.drop (next blank c rest).2).head?, d = '\n' := by
  unfold next at line ⊢
  split at line
  · cases line
  · next space =>
    rw [if_neg space]
    split at line
    · next starts =>
      rw [if_pos starts]
      exact includeLine_wordToken line
    · split at line
      · cases line
      · split at line
        · split at line <;> cases line
        · split at line <;> cases line

/-- An include line holds a colon. -/
theorem exists_colon {text : String} {t : Token} (member : t ∈ tokenize text)
    (line : t.kind = .includeLine) :
    ∃ front behind, t.text.toList = front ++ ':' :: behind ∧ ':' ∉ front :=
  (forall_tokensFrom (P := fun kind chars => kind = .includeLine → IsIncludeLine chars)
    (fun _ _ _ line => (includeLine_next line).2.1) true 0 text.toList t member line).exists_colon

/-- Neither blanks nor a comment begin with a digit. -/
theorem isDigit_next (trivia : (next blank c rest).1.isTrivia = true) : c.isDigit = false := by
  have word : (wordToken blank c rest).1.isTrivia = false := by
    unfold wordToken
    dsimp only
    split <;> split <;> first | rfl | (split <;> rfl)
  unfold next at trivia
  split at trivia
  · next space =>
    rw [← Bool.not_eq_true]
    exact fun digit => absurd space (by rw [isSpace_of_isDigit digit]; exact Bool.false_ne_true)
  · split at trivia
    · rw [word] at trivia
      cases trivia
    · split at trivia
      · cases trivia
      · next other => exact Bool.eq_false_iff.mpr other

theorem exists_head_of_isTrivia {text : String} {t : Token} (member : t ∈ tokenize text)
    (trivia : t.kind.isTrivia = true) :
    ∃ c rest, t.text.toList = c :: rest ∧ c.isDigit = false :=
  forall_tokensFrom
    (P := fun kind chars => kind.isTrivia = true → ∃ c rest, chars = c :: rest ∧ c.isDigit = false)
    (fun _ c _ trivia => ⟨c, _, rfl, isDigit_next trivia⟩) true 0 text.toList t member trivia

end Token.Lexer

end FusionAtlas
