import FusionAtlas.Proofs.NodeWords
import FusionAtlas.Proofs.TokenSpelling

/-!
Nodes quote the text. Some values are taken from a token, others are cut from the text again, and where a piece
is missing the node has a value all the same; either way what a node holds is what stands in its range. Main
statement: `parseTemplate_quotes`.
-/

set_option autoImplicit false
set_option relaxedAutoImplicit false

namespace FusionAtlas

open Text (StandsAt byteSize)
open Token.Lexer (Spelled spelled_of_mem symbol? continuesIdent continuesIdent_of_isDigit
  continuesIdent_of_startsIdent)

/-- A quote of either kind. -/
def IsQuote (c : Char) : Prop := c = '\'' ∨ c = '"'

/-- What stands in the range of a node spells what the node holds. -/
def NodeKind.Quotes (text : String) (tree : SyntaxTree) (range : ByteRange) (piece : List Char) :
    NodeKind → Prop
  | stringValue value | literalString value =>
    ∃ quote, IsQuote quote ∧ piece = quote :: (value.toList ++ [quote])
  | numberValue value | literalNumber value | fusionObjectValue value | objectPathNode value =>
    piece = value.toList
  | pathSegment identifier =>
    (∃ quote, IsQuote quote ∧ piece = quote :: (identifier.toList ++ [quote])) ∨
      piece = identifier.toList ∧ ∀ c ∈ piece.head?, ¬IsQuote c
  | metaPathSegment identifier => piece = '@' :: identifier.toList
  | objectFunctionPathNode name _ =>
    name.toList <+: piece ∧ ∃ word opening behind,
      tokensWithin text range = word :: opening :: behind ∧ word.text = name ∧ opening.text = "("
  | dslExpression identifier =>
    ∃ body, piece = identifier.toList ++ '`' :: (body ++ ['`']) ∧ '`' ∉ identifier.toList ∧ '`' ∉ body
  | includeFile path =>
    ∃ front behind, piece = front ++ ':' :: behind ∧ ':' ∉ front ∧ path.toList = Text.trim behind
  | operation left operator right =>
    ∃ t ∈ tokenize text, t.text = operator ∧ (tree.range left).stop ≤ t.start ∧
      t.stop ≤ (tree.range right).start
  | _ => True

section Words

variable {text value : String} {range : ByteRange} {piece : List Char} {t : Token}

theorem quote_of_slice? (le : range.start ≤ range.stop)
    (found : Text.slice? text.toList range.start range.stop = some piece) :
    (Template.quote (.ofText text) range).toList = piece := by
  have there : (Template.Source.ofText text).piece? range = some piece := by
    rw [Template.Source.piece?, if_pos le]
    exact found
  rw [Template.quote, there, Option.getD_some, String.toList_ofList]

theorem quote_of_standsAt {n : Nat} (stands : StandsAt text.toList piece n) :
    Template.quote (.ofText text) ⟨n, n + byteSize piece⟩ = String.ofList piece := by
  have cut : (Template.quote (.ofText text) ⟨n, n + byteSize piece⟩).toList = piece :=
    quote_of_slice? (Nat.le_add_right _ _) stands.slice?
  exact String.ofList_toList.symm.trans (congrArg String.ofList cut)

theorem slice?_token (member : t ∈ significantTokens text) :
    Text.slice? text.toList t.range.start t.range.stop = some t.text.toList :=
  (inPlace_of_significant member).slice?

theorem toList_unquote (member : t ∈ significantTokens text) (string : t.kind = .string) :
    ∃ quote, IsQuote quote ∧
      t.text.toList = quote :: ((Template.unquote t.text).toList ++ [quote]) := by
  obtain ⟨quote, inner, ascii, spelled⟩ :=
    Token.Lexer.exists_quoted (mem_tokenize_of_significant member) string
  refine ⟨quote, ascii, ?_⟩
  rw [Template.unquote, String.toList_ofList, spelled, List.drop_succ_cons, List.drop_zero,
    List.dropLast_concat]

theorem spelled_significant (member : t ∈ significantTokens text)
    (regular : t.kind.isRegular = true) : Spelled t.kind t.text.toList :=
  spelled_of_mem (mem_tokenize_of_significant member) regular

/-- The tokens of a kind with a spelling of its own have that spelling. -/
theorem symbol_significant {chars : List Char} (member : t ∈ significantTokens text)
    (same : symbol? t.kind = some chars) : t.text.toList = chars := by
  have regular : t.kind.isRegular = true := by
    generalize t.kind = kind at same
    cases kind <;> first | rfl | cases same
  have spelled := spelled_significant member regular
  generalize t.kind = kind, t.text.toList = piece at same spelled
  cases spelled with
  | symbol written => exact Option.some.inj (written.symm.trans same)
  | _ => cases same

/-- Words and numbers consist of letters, digits and underscores. -/
theorem continuesIdent_significant (member : t ∈ significantTokens text)
    (kind : t.kind = .ident ∨ t.kind = .number) : ∀ c ∈ t.text.toList, continuesIdent c = true := by
  have spelled := spelled_significant member (by rcases kind with kind | kind <;> rw [kind] <;> rfl)
  generalize t.text.toList = chars at spelled
  rcases kind with kind | kind <;> rw [kind] at spelled
  · cases spelled with
    | symbol same => cases same
    | ident starts others =>
      exact List.forall_mem_cons.mpr ⟨continuesIdent_of_startsIdent starts, others⟩
  · cases spelled with
    | symbol same => cases same
    | number starts others =>
      exact List.forall_mem_cons.mpr
        ⟨continuesIdent_of_isDigit starts, fun d member => continuesIdent_of_isDigit (others d member)⟩

/-- Neither a word nor a number starts with a quote. -/
theorem not_isQuote_head (member : t ∈ significantTokens text)
    (kind : t.kind = .ident ∨ t.kind = .number) : ∀ c ∈ t.text.toList.head?, ¬IsQuote c := by
  intro c first quoted
  have word := continuesIdent_significant member kind c (List.mem_of_mem_head? first)
  rcases quoted with rfl | rfl <;> cases word

theorem Template.IsNumber.quoted {source : Template.Source} {ts : List Token}
    (number : Template.IsNumber source ts range value) : value = Template.quote source range := by
  cases number <;> rfl

/-- A property is its sign with its name right behind it, if it has one. -/
theorem property_quotes (read : (Word.property range value).ReadFrom (.ofText text) (significantTokens text))
    (found : Text.slice? text.toList range.start range.stop = some piece) : piece = '@' :: value.toList := by
  obtain ⟨t, member, kind, start, rest⟩ := read
  have sign : t.text.toList = ['@'] := symbol_significant member (by rw [kind]; rfl)
  have stands := (inPlace_of_significant member).standsAt
  rw [sign] at stands
  rw [start] at found
  rcases rest with ⟨rfl, stop⟩ | ⟨u, next, adjacent, rfl, stop⟩
  · have cut := slice?_token member
    rw [stop, show t.stop = t.range.stop from rfl, show t.start = t.range.start from rfl, cut] at found
    rw [← Option.some.inj found, sign]
    rfl
  · have name := (inPlace_of_significant next).standsAt
    have size : t.stop = t.start + byteSize ['@'] := by rw [Token.stop, sign]
    rw [adjacent, size] at name
    have cut := (stands.append name).slice?
    rw [stop, Token.stop, adjacent, size] at found
    rw [Text.byteSize_append, ← Nat.add_assoc, found] at cut
    exact Option.some.inj cut

theorem embedded_quotes (member : t ∈ significantTokens text) (kind : t.kind = .dsl) :
    ∃ body, t.text.toList = t.text.toList.takeWhile (· != '`') ++ '`' :: (body ++ ['`']) ∧
      '`' ∉ t.text.toList.takeWhile (· != '`') ∧ '`' ∉ body := by
  have spelled := spelled_significant member (by rw [kind]; rfl)
  rw [kind] at spelled
  generalize t.text.toList = chars at spelled
  cases spelled with
  | symbol same => cases same
  | @embedded c rest body first others plain =>
    have inside : ∀ d ∈ c :: rest, (d != '`') = true := by
      refine List.forall_mem_cons.mpr ⟨?_, fun d member => ?_⟩
      · exact bne_iff_ne.mpr fun same => by rw [same] at first; cases first
      · exact bne_iff_ne.mpr fun same => by
          have letter := others d member
          rw [same] at letter
          cases letter
    have run : (c :: (rest ++ '`' :: (body ++ ['`']))).takeWhile (· != '`') = c :: rest := by
      rw [← List.cons_append, List.takeWhile_append_of_pos inside, List.takeWhile_cons_of_neg (by decide),
        List.append_nil]
    rw [run]
    refine ⟨body, rfl, ?_, ?_⟩
    · exact fun member => absurd (inside '`' member) (by decide)
    · exact fun member => absurd rfl (plain '`' member)

theorem includeLine_quotes (member : t ∈ significantTokens text) (kind : t.kind = .includeLine) :
    ∃ front behind, t.text.toList = front ++ ':' :: behind ∧ ':' ∉ front ∧
      (t.text.toList.dropWhile (· != ':')).drop 1 = behind := by
  obtain ⟨front, behind, spelled, absent⟩ :=
    Token.Lexer.exists_colon (mem_tokenize_of_significant member) kind
  refine ⟨front, behind, spelled, absent, ?_⟩
  have inside : ∀ d ∈ front, (d != ':') = true := fun d member =>
    bne_iff_ne.mpr fun same => absent (same ▸ member)
  rw [spelled, List.dropWhile_append_of_pos inside, List.dropWhile_cons_of_neg (by decide)]
  rfl

/-- In the range of a call its name comes first, and the parenthesis is next. -/
theorem call_quotes
    (read : (Word.links range [⟨range, value, true⟩]).ReadFrom (.ofText text) (significantTokens text)) :
    ∃ word opening behind, tokensWithin text range = word :: opening :: behind ∧ word.text = value ∧
      opening.text = "(" := by
  obtain ⟨t, ts, suffix, -, lead⟩ := read
  obtain ⟨word, opening, behind, same, -, named, start, kind, inside⟩ := lead.opened rfl
  rw [same] at suffix
  change range.start = word.start at start
  change opening.stop ≤ range.stop at inside
  have apart := (pairwise_significant text).sublist suffix.sublist
  have order : word.stop ≤ opening.start := List.rel_of_pairwise_cons apart List.mem_cons_self
  have next : opening ∈ significantTokens text :=
    suffix.subset (List.mem_cons_of_mem word List.mem_cons_self)
  have lt := (inPlace_of_significant (suffix.subset List.mem_cons_self : word ∈ _)).lt
  have lt' := (inPlace_of_significant next).lt
  have within := tokensWithin_of_suffix suffix start
  rw [List.filter_cons_of_pos (by rw [decide_eq_true_eq]; omega),
    List.filter_cons_of_pos (by rw [decide_eq_true_eq]; omega)] at within
  have sign : opening.text.toList = ['('] := symbol_significant next (by rw [kind]; rfl)
  exact ⟨word, opening, _, within, named.symm, String.toList_injective sign⟩

end Words

/-- However malformed a template is, the range of each node of its tree cuts no character, and what stands
there is what the node holds: a string between two like quotes, a number, a component name or a name in a chain
itself, a path segment itself or between two like quotes, `@` and the name of a property, the name of a call in
front of its parenthesis, an embedded block between backticks behind its identifier, and the path of an include
line behind the colon; and an operator is a token between its operands. -/
theorem parseTemplate_quotes {text : String} {id : NodeId} {kind : NodeKind}
    (here : (parseTemplate text).tree.kind? id = some kind) :
    let tree := (parseTemplate text).tree
    let range := tree.range id
    ∃ piece, Text.slice? text.toList range.start range.stop = some piece ∧
      kind.Quotes text tree range piece := by
  intro tree range
  have lies : range.LiesIn text.toList := liesIn_range text id
  obtain ⟨piece, found⟩ := lies.start.slice? lies.stop lies.le
  have cut : (Template.quote (.ofText text) range).toList = piece := quote_of_slice? lies.le found
  refine ⟨piece, found, ?_⟩
  have said {word : Word} (spoken : kind.word? tree range = some word) :
      word.ReadFrom (.ofText text) (significantTokens text) := by
    have node : tree.word? id = some word := by
      rw [SyntaxTree.word?, here]
      exact spoken
    exact readFrom_of_node node
  have one {t : Token} (member : t ∈ significantTokens text) (covers : range = t.range) :
      piece = t.text.toList := by
    rw [covers, slice?_token member] at found
    exact (Option.some.inj found).symm
  cases kind with
  | stringValue value | literalString value =>
    obtain ⟨t, member, string, covers, rfl⟩ := said rfl
    rw [one member covers]
    exact toList_unquote member string
  | numberValue value | literalNumber value =>
    obtain ⟨ts, -, number⟩ := said rfl
    rw [NodeKind.Quotes, number.quoted, cut]
  | fusionObjectValue name =>
    have quoted : name = _ := said rfl
    rw [NodeKind.Quotes, quoted, cut]
  | objectPathNode name =>
    obtain ⟨t, ts, suffix, -, lead⟩ := said rfl
    obtain ⟨word, behind, same, -, link⟩ := lead.plain rfl
    rw [same] at suffix
    obtain ⟨covers, named, -⟩ := ChainLink.mk.inj link
    rw [NodeKind.Quotes, named]
    exact one (suffix.subset List.mem_cons_self) covers
  | pathSegment identifier =>
    obtain ⟨t, member, covers, ⟨kind, rfl⟩ | ⟨string, rfl⟩⟩ := said rfl
    · exact .inr ⟨one member covers, by rw [one member covers]; exact not_isQuote_head member kind⟩
    · rw [one member covers]
      exact .inl (toList_unquote member string)
  | metaPathSegment identifier => exact property_quotes (said rfl) found
  | objectFunctionPathNode name args =>
    refine ⟨?_, call_quotes (said rfl)⟩
    obtain ⟨stands, fits⟩ := parseTemplate_call here
    have whole : StandsAt text.toList piece range.start := .of_slice? lies.start lies.stop lies.le found
    have size := StandsAt.stop_of_slice? lies.start lies.stop lies.le found
    change range.start + byteSize name.toList ≤ range.stop at fits
    exact whole.isPrefix stands (by omega)
  | dslExpression identifier =>
    obtain ⟨t, member, block, covers, rfl⟩ := said rfl
    rw [NodeKind.Quotes, String.toList_ofList, one member covers]
    exact embedded_quotes member block
  | includeFile path =>
    obtain ⟨t, member, line, covers, rfl⟩ := said rfl
    obtain ⟨front, behind, spelled, absent, rest⟩ := includeLine_quotes member line
    refine ⟨front, behind, (one member covers).trans spelled, absent, ?_⟩
    rw [String.toList_ofList, rest]
  | operation left operator right =>
    obtain ⟨t, member, text, before, behind⟩ := said rfl
    exact ⟨t, mem_tokenize_of_significant member, text, before, behind⟩
  | _ => trivial

/-- Letters of two bytes, a minus apart from its digit, and a call that is never closed. -/
private def unclosedText : String := "include : ü.fusion\n@p.'q' = $\x7b- 1 + I18n.t ('ä'"

/-- A call, and the sum that it is an operand of. -/
theorem parseTemplate_quotes_unclosed :
    let tree := (parseTemplate unclosedText).tree
    let holds (id : NodeId) (kind : NodeKind) := ∃ piece,
      Text.slice? unclosedText.toList (tree.range id).start (tree.range id).stop = some piece ∧
        kind.Quotes unclosedText tree (tree.range id) piece
    tree.kind? 7 = some (.objectFunctionPathNode "t" [6]) ∧ tree.kind? 9 = some (.operation 4 "+" 8) ∧
      holds 7 (.objectFunctionPathNode "t" [6]) ∧ holds 9 (.operation 4 "+" 8) := by
  have call : (parseTemplate unclosedText).tree.kind? 7 = some (.objectFunctionPathNode "t" [6]) := by
    decide +kernel
  have sum : (parseTemplate unclosedText).tree.kind? 9 = some (.operation 4 "+" 8) := by decide +kernel
  exact ⟨call, sum, parseTemplate_quotes call, parseTemplate_quotes sum⟩

end FusionAtlas
