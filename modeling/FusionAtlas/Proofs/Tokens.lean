import FusionAtlas.Proofs.TextCut
import FusionAtlas.Token.Lexer

/-!
Tokens laid end to end are the text they were cut from. Main statements: `Token.Lexer.flatMap_tokensFrom`,
`Token.Lexer.contiguous_tokensFrom`, and for a token in its place `Token.InPlace`.
-/

set_option autoImplicit false
set_option relaxedAutoImplicit false

namespace FusionAtlas

namespace Token

/-- The characters of a list of tokens. -/
def written (tokens : List Token) : List Char := tokens.flatMap fun t => t.text.toList

@[simp] theorem written_cons (t : Token) (ts : List Token) :
    written (t :: ts) = t.text.toList ++ written ts := List.flatMap_cons

@[simp] theorem written_append (front behind : List Token) :
    written (front ++ behind) = written front ++ written behind := List.flatMap_append

/-- Each token starts where the one before it ends, the first one at an offset. -/
def Contiguous : Nat → List Token → Prop
  | _, [] => True
  | start, t :: ts => t.start = start ∧ Contiguous t.stop ts

theorem start_of_contiguous {offset : Nat} {before behind : List Token} {t : Token}
    (contiguous : Contiguous offset (before ++ t :: behind)) :
    t.start = offset + Text.byteSize (written before) := by
  induction before generalizing offset with
  | nil => exact contiguous.1
  | cons first before ih =>
    obtain ⟨here, rest⟩ := contiguous
    rw [ih rest, stop, here, written_cons, Text.byteSize_append]
    omega

theorem pairwise_of_contiguous {offset : Nat} {tokens : List Token}
    (contiguous : Contiguous offset tokens) : tokens.Pairwise fun a b => a.stop ≤ b.start := by
  induction tokens generalizing offset with
  | nil => exact List.Pairwise.nil
  | cons t tokens ih =>
    obtain ⟨-, rest⟩ := contiguous
    refine List.Pairwise.cons ?_ (ih rest)
    intro later member
    obtain ⟨before, behind, rfl⟩ := List.append_of_mem member
    rw [start_of_contiguous rest]
    omega

/-- A token with the characters that stand in the text at its place. -/
structure InPlace (text : List Char) (t : Token) : Prop where
  start : Text.IsBoundary text t.start
  stop : Text.IsBoundary text t.stop
  lt : t.start < t.stop
  slice? : Text.slice? text t.start t.stop = some t.text.toList

theorem InPlace.standsAt {text : List Char} {t : Token} (inPlace : t.InPlace text) :
    Text.StandsAt text t.text.toList t.start :=
  .of_slice? inPlace.start inPlace.stop (Nat.le_of_lt inPlace.lt) inPlace.slice?

namespace Lexer

open FusionAtlas.Text (byteSize)

theorem flatMap_tokensFrom (blank : Bool) (start : Nat) (text : List Char) :
    written (tokensFrom blank start text) = text := by
  fun_induction tokensFrom blank start text with
  | case1 => rfl
  | case2 blank start c rest found piece ih =>
    rw [written_cons, ih, String.toList_ofList]
    change c :: (rest.take found.2 ++ rest.drop found.2) = c :: rest
    rw [List.take_append_drop]

theorem contiguous_tokensFrom (blank : Bool) (start : Nat) (text : List Char) :
    Contiguous start (tokensFrom blank start text) := by
  fun_induction tokensFrom blank start text with
  | case1 => trivial
  | case2 blank start c rest found piece ih =>
    refine ⟨rfl, ?_⟩
    rw [stop, String.toList_ofList]
    exact ih

theorem text_ne_nil {blank : Bool} {start : Nat} {text : List Char} {t : Token}
    (member : t ∈ tokensFrom blank start text) : t.text.toList ≠ [] := by
  fun_induction tokensFrom blank start text with
  | case1 => cases member
  | case2 blank start c rest found piece ih =>
    rcases List.mem_cons.mp member with rfl | later
    · rw [String.toList_ofList]
      exact List.cons_ne_nil c _
    · exact ih later

end Lexer

end Token

/-- Every token stands at its place. -/
theorem inPlace_of_mem_tokenize {text : String} {t : Token} (member : t ∈ tokenize text) :
    t.InPlace text.toList := by
  have nonempty := Token.Lexer.text_ne_nil member
  have whole := Token.Lexer.flatMap_tokensFrom true 0 text.toList
  have contiguous := Token.Lexer.contiguous_tokensFrom true 0 text.toList
  obtain ⟨before, behind, tokens⟩ := List.append_of_mem member
  rw [tokenize] at tokens
  rw [tokens, Token.written_append, Token.written_cons] at whole
  rw [tokens] at contiguous
  have start := Token.start_of_contiguous contiguous
  rw [Nat.zero_add] at start
  have piece := Text.slice?_append (Token.written before) t.text.toList (Token.written behind)
  rw [List.append_assoc, whole] at piece
  refine ⟨⟨_, _, whole.symm, start.symm⟩, ⟨Token.written before ++ t.text.toList,
    Token.written behind, ?_, ?_⟩, ?_, ?_⟩
  · rw [List.append_assoc]
    exact whole.symm
  · rw [Text.byteSize_append, Token.stop, start]
  · obtain ⟨c, rest, spelled⟩ := List.exists_cons_of_ne_nil nonempty
    have size : 0 < Text.byteSize (c :: rest) := Text.byteSize_pos
    rw [Token.stop, spelled]
    omega
  · rw [Token.stop, start]
    exact piece

theorem pairwise_tokenize (text : String) :
    (tokenize text).Pairwise fun a b => a.stop ≤ b.start :=
  Token.pairwise_of_contiguous (Token.Lexer.contiguous_tokensFrom true 0 text.toList)

namespace Token.Lexer

/-- What belongs to a closed string ends with its quote. -/
theorem take_quotedLength {quote : Char} {rest : List Char}
    (closed : (quotedLength quote rest).2 = true) :
    ∃ inner, rest.take (quotedLength quote rest).1 = inner ++ [quote] := by
  fun_induction quotedLength quote rest with
  | case1 => cases closed
  | case2 => cases closed
  | case3 => cases closed
  | case4 c rest _ ih =>
    obtain ⟨inner, taken⟩ := ih closed
    exact ⟨'\\' :: c :: inner, by rw [List.take_succ_cons, List.take_succ_cons, taken]; rfl⟩
  | case5 c rest _ => exact ⟨[], by simp⟩
  | case6 c rest _ _ _ ih =>
    obtain ⟨inner, taken⟩ := ih closed
    exact ⟨c :: inner, by rw [List.take_succ_cons, taken]; rfl⟩

theorem wordToken_ne_string (blank : Bool) (c : Char) (rest : List Char) :
    (wordToken blank c rest).1 ≠ .string := by
  unfold wordToken
  dsimp only
  split
  · split
    · split <;> exact nofun
    · exact nofun
  · split <;> exact nofun

theorem next_string {blank : Bool} {c : Char} {rest : List Char}
    (string : (next blank c rest).1 = .string) :
    (c = '\'' ∨ c = '"') ∧ (quotedLength c rest).2 = true ∧
      (next blank c rest).2 = (quotedLength c rest).1 := by
  unfold next at string ⊢
  split at string
  · cases string
  · next space =>
    rw [if_neg space]
    split at string
    · exact absurd string (wordToken_ne_string blank c rest)
    · next word =>
      rw [if_neg word]
      split at string
      · cases string
      · next digit =>
        rw [if_neg digit]
        split at string
        · next quoted =>
          rw [if_pos quoted]
          refine ⟨quoted, ?_, rfl⟩
          cases closed : (quotedLength c rest).2 with
          | true => rfl
          | false =>
            rw [closed] at string
            cases string
        · exfalso
          split at string <;> cases string

/-- A string token stands between two quotes of one byte. -/
theorem exists_quoted {blank : Bool} {start : Nat} {text : List Char} {t : Token}
    (member : t ∈ tokensFrom blank start text) (string : t.kind = .string) :
    ∃ quote inner, (quote = '\'' ∨ quote = '"') ∧ t.text.toList = quote :: (inner ++ [quote]) := by
  fun_induction tokensFrom blank start text with
  | case1 => cases member
  | case2 blank start c rest found piece ih =>
    rcases List.mem_cons.mp member with rfl | later
    · obtain ⟨quote, closed, length⟩ := next_string string
      obtain ⟨inner, taken⟩ := take_quotedLength closed
      refine ⟨c, inner, quote, ?_⟩
      rw [String.toList_ofList]
      change c :: rest.take (next blank c rest).2 = _
      rw [length, taken]
    · exact ih later

end Token.Lexer

end FusionAtlas
