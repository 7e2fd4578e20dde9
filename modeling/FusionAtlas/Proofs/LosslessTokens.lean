import FusionAtlas.Proofs.Tokens

/-!
Nothing is lost between a text and its tokens. A rule of the lexer asks for some characters behind
the first one of a token; it never asks for more than there are, so every token is cut as its rule
says, and the cuts leave no gap. Main statement: `tokenize_lossless`.
-/

set_option autoImplicit false
set_option relaxedAutoImplicit false

namespace FusionAtlas

namespace Token.Lexer

open FusionAtlas.Text (byteSize)

theorem lineLength_le (text : List Char) : lineLength text ≤ text.length :=
  (List.takeWhile_prefix _).length_le

/-- An unclosed comment goes on to the end of the text, and not further. -/
theorem blockCommentLength_le (text : List Char) : blockCommentLength text ≤ text.length := by
  fun_induction blockCommentLength text with
  | case1 => exact Nat.le_refl _
  | case2 => simp
  | case3 c rest _ ih => exact Nat.succ_le_succ ih

/-- So does an unclosed string. -/
theorem quotedLength_le (quote : Char) (text : List Char) :
    (quotedLength quote text).1 ≤ text.length := by
  fun_induction quotedLength quote text with
  | case1 => exact Nat.le_refl _
  | case2 => exact Nat.zero_le _
  | case3 => exact Nat.zero_le _
  | case4 c rest _ ih => exact Nat.succ_le_succ (Nat.succ_le_succ ih)
  | case5 => simp
  | case6 c rest _ _ _ ih => exact Nat.succ_le_succ ih

theorem wordToken_le (blank : Bool) (c : Char) (rest : List Char) :
    (wordToken blank c rest).2 ≤ rest.length := by
  have word : (rest.takeWhile continuesIdent).length ≤ rest.length :=
    (List.takeWhile_prefix _).length_le
  have behind : (rest.drop (rest.takeWhile continuesIdent).length).length =
      rest.length - (rest.takeWhile continuesIdent).length := List.length_drop
  unfold wordToken
  dsimp only
  split
  · next body opened =>
    rw [opened, List.length_cons] at behind
    split
    · split
      · next closed =>
        -- The closing backtick is a character of the body, so there is room for it.
        dsimp only
        omega
      · exact Nat.le_refl _
    · exact word
  · split
    · have line := lineLength_le (rest.drop (rest.takeWhile continuesIdent).length)
      dsimp only
      omega
    · exact word

/-- No rule asks for more characters than there are. -/
theorem next_le (blank : Bool) (c : Char) (rest : List Char) :
    (next blank c rest).2 ≤ rest.length := by
  unfold next
  split
  · exact (List.takeWhile_prefix _).length_le
  · split
    · exact wordToken_le blank c rest
    · split
      · exact (List.takeWhile_prefix _).length_le
      · split
        · exact quotedLength_le c rest
        · split
          · exact Nat.succ_le_succ (lineLength_le _)
          · exact Nat.succ_le_succ (blockCommentLength_le _)
          · exact lineLength_le _
          all_goals simp

theorem blankAfter_append (blank : Bool) (front behind : List Char) :
    blankAfter blank (front ++ behind) = blankAfter (blankAfter blank front) behind :=
  List.foldl_append

/-- The token is cut from the text by the rule for what stands there: it is of the kind the rule
says, and has its first character and all the further ones that the rule asks for. -/
def CutFrom (text : List Char) (t : Token) : Prop :=
  ∃ front c rest, text = front ++ c :: rest ∧ t.start = byteSize front ∧
    t.kind = (next (blankAfter true front) c rest).1 ∧
    t.text.toList = c :: rest.take (next (blankAfter true front) c rest).2 ∧
    t.text.toList.length = (next (blankAfter true front) c rest).2 + 1

/-- The tokens behind a front part are cut from the whole text. What the lexer remembers of the front
part is its size and whether the line it ends on is blank so far. -/
theorem cutFrom_of_mem (blank : Bool) (start : Nat) (text : List Char) {t : Token} :
    ∀ front, blankAfter true front = blank → byteSize front = start →
      t ∈ tokensFrom blank start text → CutFrom (front ++ text) t := by
  fun_induction tokensFrom blank start text with
  | case1 =>
    intro front _ _ member
    cases member
  | case2 blank start c rest found piece ih =>
    intro front blanks offset member
    rcases List.mem_cons.mp member with rfl | later
    · refine ⟨front, c, rest, rfl, offset.symm, ?_, ?_, ?_⟩
      · rw [blanks]
      · rw [blanks, String.toList_ofList]
      · have room := next_le blank c rest
        rw [blanks, String.toList_ofList, List.length_cons, List.length_take, Nat.min_eq_left room]
    · have whole : front ++ c :: rest = (front ++ piece) ++ rest.drop found.2 := by
        rw [List.append_assoc]
        change _ = front ++ c :: (rest.take found.2 ++ rest.drop found.2)
        rw [List.take_append_drop]
      rw [whole]
      refine ih (front ++ piece) ?_ ?_ later
      · rw [blankAfter_append, blanks]
      · rw [Text.byteSize_append, offset]

end Token.Lexer

open Token (Contiguous written)

/-- The last of some tokens that follow one another ends where all of them together do. -/
theorem Token.stop_of_contiguous {offset : Nat} {tokens : List Token}
    (contiguous : Contiguous offset tokens) :
    (tokens.getLast?.map Token.stop).getD offset = offset + Text.byteSize (written tokens) := by
  rcases List.eq_nil_or_concat tokens with rfl | ⟨before, t, rfl⟩
  · rfl
  · rw [List.concat_eq_append] at contiguous ⊢
    have start := Token.start_of_contiguous contiguous
    rw [List.getLast?_concat, Option.map_some, Option.getD_some, Token.stop,
      start, Token.written_append, Token.written_cons, Text.byteSize_append, Text.byteSize_append]
    simp only [written, List.flatMap_nil, Text.byteSize]
    omega

/-- The tokens of a text follow one another from its start to its end and are together the text. None
is empty, each stands at its place between two characters, and each is cut as the rule for what
stands there says. -/
theorem tokenize_lossless (text : String) :
    Contiguous 0 (tokenize text) ∧
      ((tokenize text).getLast?.map Token.stop).getD 0 = Text.byteSize text.toList ∧
      (∀ t ∈ tokenize text, t.InPlace text.toList ∧ Token.Lexer.CutFrom text.toList t) ∧
      written (tokenize text) = text.toList := by
  have contiguous : Contiguous 0 (tokenize text) :=
    Token.Lexer.contiguous_tokensFrom true 0 text.toList
  have whole : written (tokenize text) = text.toList :=
    Token.Lexer.flatMap_tokensFrom true 0 text.toList
  refine ⟨contiguous, ?_, ?_, whole⟩
  · rw [Token.stop_of_contiguous contiguous, whole, Nat.zero_add]
  · intro t member
    exact ⟨inPlace_of_mem_tokenize member, Token.Lexer.cutFrom_of_mem true 0 _ [] rfl rfl member⟩

/-- An unclosed comment behind an unclosed string behind a stray letter. -/
example : (tokenize "é 'a\\\n/*").map (fun t => (t.kind, t.start, t.stop)) =
    [(.unknown, 0, 2), (.whitespace, 2, 3), (.unknown, 3, 5), (.unknown, 5, 6), (.whitespace, 6, 7),
      (.comment, 7, 9)] := by decide +kernel

end FusionAtlas
