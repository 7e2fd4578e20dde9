import FusionAtlas.Proofs.QuotedNodes

/-!
What numbers look like. A number is written as digits, with a fraction or not, behind a minus sign or
not. The fraction must follow at once, but nothing asks that of the digits behind a minus, so blanks and
comments there become part of the number. Main statement: `parseTemplate_number`.
-/

set_option autoImplicit false
set_option relaxedAutoImplicit false

namespace FusionAtlas

open Text (StandsAt byteSize)
open Token.Lexer (Spelled symbol?)

/-- One digit or more. -/
def IsDigits (chars : List Char) : Prop := chars ≠ [] ∧ ∀ c ∈ chars, c.isDigit = true

/-- A whole number, or one with a dot and more digits behind it. -/
inductive IsUnsigned : List Char → Prop
  | whole {digits : List Char} (all : IsDigits digits) : IsUnsigned digits
  | decimal {digits places : List Char} (all : IsDigits digits) (behind : IsDigits places) :
      IsUnsigned (digits ++ '.' :: places)

/-- An unsigned number, or a minus sign with one right behind it. -/
inductive IsNumeral : List Char → Prop
  | positive {chars : List Char} (unsigned : IsUnsigned chars) : IsNumeral chars
  | negative {chars : List Char} (unsigned : IsUnsigned chars) : IsNumeral ('-' :: chars)

variable {text : String} {chars : List Char}

theorem IsDigits.head (digits : IsDigits chars) :
    ∃ c rest, chars = c :: rest ∧ c.isDigit = true := by
  obtain ⟨c, rest, rfl⟩ := List.exists_cons_of_ne_nil digits.1
  exact ⟨c, rest, rfl, digits.2 c List.mem_cons_self⟩

theorem IsUnsigned.head (unsigned : IsUnsigned chars) :
    ∃ c rest, chars = c :: rest ∧ c.isDigit = true := by
  cases unsigned with
  | whole all => exact all.head
  | decimal all =>
    obtain ⟨c, rest, rfl, digit⟩ := all.head
    exact ⟨c, _, List.cons_append, digit⟩

/-- Behind a minus sign a number goes on with a digit. -/
theorem isDigit_of_isNumeral {c : Char} (numeral : IsNumeral ('-' :: c :: chars)) :
    c.isDigit = true := by
  generalize same : '-' :: c :: chars = all at numeral
  cases numeral with
  | positive unsigned =>
    obtain ⟨d, rest, rfl, digit⟩ := unsigned.head
    obtain ⟨rfl, -⟩ := List.cons.inj same
    cases digit
  | negative unsigned =>
    obtain ⟨d, rest, rfl, digit⟩ := unsigned.head
    obtain ⟨-, again⟩ := List.cons.inj same
    exact (List.cons.inj again).1 ▸ digit

theorem isDigits_significant {t : Token} (member : t ∈ significantTokens text)
    (number : t.kind = .number) : IsDigits t.text.toList := by
  have spelled := spelled_significant member (by rw [number]; rfl)
  rw [number] at spelled
  generalize t.text.toList = chars at spelled
  cases spelled with
  | symbol same => cases same
  | number first others => exact ⟨List.cons_ne_nil _ _, List.forall_mem_cons.mpr ⟨first, others⟩⟩

/-- The tokens of a number behind its sign are one piece of the text, an unsigned number. -/
theorem standsAt_unsigned {ts : List Token} {range : ByteRange} {value : String}
    (number : Template.IsNumber (.ofText text) ts range value) (sub : ts ⊆ significantTokens text) :
    ∃ (sign : Option Token) (digits : Token) (more : List Token) (unsigned : List Char),
      ts = sign.toList ++ digits :: more ∧ (∀ m ∈ sign, m.kind = .minus) ∧
      range = ⟨(sign.getD digits).start, digits.start + byteSize unsigned⟩ ∧ IsUnsigned unsigned ∧
      StandsAt text.toList unsigned digits.start := by
  cases number with
  | @whole sign digits r minus kind range =>
    have member : digits ∈ significantTokens text :=
      sub (List.mem_append_right _ (List.mem_singleton_self digits))
    exact ⟨sign, digits, [], digits.text.toList, rfl, minus, range,
      .whole (isDigits_significant member kind), (inPlace_of_significant member).standsAt⟩
  | @decimal sign digits dot fraction r minus kind point places adjacent adjacent' range =>
    have members : ∀ t ∈ [digits, dot, fraction], t ∈ significantTokens text := fun t member =>
      sub (List.mem_append_right _ member)
    obtain ⟨first, second, third, -⟩ := by simpa only [List.forall_mem_cons] using members
    have contiguous : Token.Contiguous digits.start [digits, dot, fraction] :=
      ⟨rfl, adjacent, adjacent', trivial⟩
    have stands := standsAt_contiguous (fun t member => inPlace_of_significant (members t member))
      (inPlace_of_significant first).start contiguous
    have sign' : dot.text.toList = ['.'] := symbol_significant second (by rw [point]; rfl)
    have written : Token.written [digits, dot, fraction] =
        digits.text.toList ++ '.' :: fraction.text.toList := by
      simp [Token.written, sign']
    rw [written] at stands
    refine ⟨sign, digits, [dot, fraction], _, rfl, minus, ?_,
      .decimal (isDigits_significant first kind) (isDigits_significant third places), stands⟩
    have stop : fraction.stop =
        digits.start + byteSize (digits.text.toList ++ '.' :: fraction.text.toList) := by
      rw [Text.byteSize_append, Token.stop, adjacent', Token.stop, adjacent, Token.stop, sign']
      simp [byteSize, Nat.add_assoc]
    rw [range, stop]

/-- A number starts with its digits, or with a minus sign and what stands between that and them. It has
the documented form exactly if that is nothing. -/
theorem parseTemplate_number {text value : String} {id : NodeId}
    (number : (parseTemplate text).tree.kind? id = some (.numberValue value) ∨
      (parseTemplate text).tree.kind? id = some (.literalNumber value)) :
    IsUnsigned value.toList ∨
      ∃ (gap : List Token) (unsigned : List Char),
        value.toList = '-' :: (Token.written gap ++ unsigned) ∧ IsUnsigned unsigned ∧
        (∀ g ∈ gap, g ∈ tokenize text ∧ g.kind.isTrivia = true) ∧
        (IsNumeral value.toList ↔ gap = []) := by
  have said : (parseTemplate text).tree.word? id =
      some (.number ((parseTemplate text).tree.range id) value) := by
    rcases number with here | here <;> rw [SyntaxTree.word?, here] <;> rfl
  obtain ⟨ts, within, written⟩ := readFrom_of_node said
  obtain ⟨sign, digits, more, unsigned, rfl, minus, covers, form, stands⟩ :=
    standsAt_unsigned written within.subset
  have quoted := written.quoted
  rw [covers] at quoted
  cases sign with
  | none =>
    rw [Option.getD_none, quote_of_standsAt stands] at quoted
    exact .inl (by rwa [quoted, String.toList_ofList])
  | some m =>
    have next : [m, digits] <:+: significantTokens text :=
      (List.prefix_append [m, digits] more).isInfix.trans within
    obtain ⟨gap, trivia, start, lead⟩ := exists_gap next
    have sign : m.text.toList = ['-'] :=
      symbol_significant (next.subset List.mem_cons_self) (by rw [minus m rfl]; rfl)
    rw [start] at stands
    have whole := lead.append stands
    rw [Option.getD_some, start, Nat.add_assoc, ← Text.byteSize_append, quote_of_standsAt whole, sign]
      at quoted
    have spelled : value.toList = '-' :: (Token.written gap ++ unsigned) := by
      rw [quoted, String.toList_ofList]
      simp
    refine .inr ⟨gap, unsigned, spelled, form, trivia, ?_⟩
    rw [spelled]
    constructor
    · intro numeral
      cases gap with
      | nil => rfl
      | cons g gap =>
        obtain ⟨member, trivial⟩ := trivia g List.mem_cons_self
        obtain ⟨c, rest, chars, plain⟩ := Token.Lexer.exists_head_of_isTrivia member trivial
        rw [Token.written_cons, chars] at numeral
        exact absurd (isDigit_of_isNumeral numeral) (by rw [plain]; exact Bool.false_ne_true)
    · rintro rfl
      exact .negative form

/-- A comment between the sign and the digits, and a fraction. -/
theorem parseTemplate_number_commented :
    let value := "-/* */1.5"
    (parseTemplate "a = -/* */1.5").tree.kind? 2 = some (.numberValue value) ∧
      (IsUnsigned value.toList ∨
        ∃ (gap : List Token) (unsigned : List Char),
          value.toList = '-' :: (Token.written gap ++ unsigned) ∧ IsUnsigned unsigned ∧
          (∀ g ∈ gap, g ∈ tokenize "a = -/* */1.5" ∧ g.kind.isTrivia = true) ∧
          (IsNumeral value.toList ↔ gap = [])) := by
  have here : (parseTemplate "a = -/* */1.5").tree.kind? 2 = some (.numberValue "-/* */1.5") := by
    decide +kernel
  exact ⟨here, parseTemplate_number (.inl here)⟩

/-- A blank behind the sign becomes part of the number. -/
theorem spaced_number_no_numeral :
    (parseTemplate "a = - 3").tree.kind? 2 = some (.numberValue "- 3") ∧ ¬IsNumeral "- 3".toList := by
  refine ⟨by decide +kernel, fun numeral => ?_⟩
  cases isDigit_of_isNumeral numeral

end FusionAtlas
