import FusionAtlas.Proofs.QuotedNodes

/-!
The names of components. Documented are two dotted names with a colon between; what is read is a run of
letters, digits, underscores, dots and colons of which the first is no separator and one is a colon. The
documented names are those of them with one colon and a part behind each separator. Main statements:
`isComponentName_iff` and `isLooseName_of_faultless`.
-/

set_option autoImplicit false
set_option relaxedAutoImplicit false

namespace FusionAtlas

open Token.Lexer (continuesIdent)

/-- Letters, digits and underscores, at least one. -/
def IsPart (chars : List Char) : Prop := chars ≠ [] ∧ ∀ c ∈ chars, continuesIdent c = true

/-- Parts with a dot between each and the next. -/
inductive IsDotted : List Char → Prop
  | part {chars : List Char} (only : IsPart chars) : IsDotted chars
  | more {chars others : List Char} (first : IsPart chars) (behind : IsDotted others) :
      IsDotted (chars ++ '.' :: others)

/-- Two dotted names with a colon between. -/
inductive IsComponentName : List Char → Prop
  | mk {package name : List Char} (first : IsDotted package) (second : IsDotted name) :
      IsComponentName (package ++ ':' :: name)

/-- A dot or a colon. -/
def isSeparator (c : Char) : Bool := c == '.' || c == ':'

/-- A run of parts and separators that starts with a part and has a colon. -/
structure IsLooseName (chars : List Char) : Prop where
  first : ∃ c ∈ chars.head?, continuesIdent c = true
  others : ∀ c ∈ chars, continuesIdent c = true ∨ isSeparator c = true
  colon : ':' ∈ chars

/-- A part stands behind each separator. -/
def PartsBehind : List Char → Prop
  | [] => True
  | c :: rest =>
    (isSeparator c = true → ∃ d ∈ rest.head?, continuesIdent d = true) ∧ PartsBehind rest

section Characters

variable {c : Char} {chars front behind : List Char}

theorem isSeparator_of_continuesIdent (word : continuesIdent c = true) : isSeparator c = false := by
  rw [← Bool.not_eq_true, isSeparator, Bool.or_eq_true, beq_iff_eq, beq_iff_eq]
  rintro (rfl | rfl) <;> cases word

theorem partsBehind_append (part : ∀ c ∈ front, continuesIdent c = true) (rest : PartsBehind behind) :
    PartsBehind (front ++ behind) := by
  induction front with
  | nil => exact rest
  | cons c front ih =>
    obtain ⟨word, others⟩ := List.forall_mem_cons.mp part
    refine ⟨fun separates => ?_, ih others⟩
    rw [isSeparator_of_continuesIdent word] at separates
    cases separates

/-- In front of a separator stands no other. -/
theorem PartsBehind.split (parts : PartsBehind (front ++ c :: behind)) (separates : isSeparator c = true) :
    PartsBehind front ∧ PartsBehind (c :: behind) := by
  induction front with
  | nil => exact ⟨trivial, parts⟩
  | cons d front ih =>
    obtain ⟨next, others⟩ := parts
    obtain ⟨left, right⟩ := ih others
    refine ⟨⟨fun separates' => ?_, left⟩, right⟩
    obtain ⟨e, here, word⟩ := next separates'
    cases front with
    | nil =>
      obtain rfl := Option.some.inj here
      rw [isSeparator_of_continuesIdent word] at separates
      cases separates
    | cons => exact ⟨e, here, word⟩

namespace IsDotted

theorem first (dotted : IsDotted chars) : ∃ c rest, chars = c :: rest ∧ continuesIdent c = true := by
  have start {chars : List Char} (part : IsPart chars) :
      ∃ c rest, chars = c :: rest ∧ continuesIdent c = true := by
    obtain ⟨c, rest, rfl⟩ := List.exists_cons_of_ne_nil part.1
    exact ⟨c, rest, rfl, part.2 c List.mem_cons_self⟩
  cases dotted with
  | part only => exact start only
  | more part =>
    obtain ⟨c, rest, rfl, word⟩ := start part
    exact ⟨c, _, List.cons_append, word⟩

theorem all (dotted : IsDotted chars) : ∀ c ∈ chars, continuesIdent c = true ∨ c = '.' := by
  induction dotted with
  | part only => exact fun c member => .inl (only.2 c member)
  | more part _ ih =>
    exact List.forall_mem_append.mpr
      ⟨fun c member => .inl (part.2 c member), List.forall_mem_cons.mpr ⟨.inr rfl, ih⟩⟩

theorem colon (dotted : IsDotted chars) : ':' ∉ chars := fun member => by
  rcases dotted.all _ member with word | same
  · cases word
  · cases same

theorem partsBehind (dotted : IsDotted chars) (rest : PartsBehind behind) :
    PartsBehind (chars ++ behind) := by
  induction dotted with
  | part only => exact partsBehind_append only.2 rest
  | more part others ih =>
    rw [List.append_assoc]
    refine partsBehind_append part.2 ⟨fun _ => ?_, ih⟩
    obtain ⟨c, rest, rfl, word⟩ := others.first
    exact ⟨c, rfl, word⟩

/-- One more character makes the first part longer. -/
theorem cons (word : continuesIdent c = true) (dotted : IsDotted chars) : IsDotted (c :: chars) := by
  have longer {chars : List Char} (part : IsPart chars) : IsPart (c :: chars) :=
    ⟨List.cons_ne_nil _ _, List.forall_mem_cons.mpr ⟨word, part.2⟩⟩
  cases dotted with
  | part only => exact .part (longer only)
  | more part others => exact .more (longer part) others

end IsDotted

theorem isPart_singleton (word : continuesIdent c = true) : IsPart [c] :=
  ⟨List.cons_ne_nil _ _, List.forall_mem_singleton.mpr word⟩

theorem isDotted_of_partsBehind : ∀ {chars : List Char},
    (∃ c ∈ chars.head?, continuesIdent c = true) →
    (∀ c ∈ chars, continuesIdent c = true ∨ c = '.') → PartsBehind chars → IsDotted chars
  | [], ⟨_, none', _⟩, _, _ => nomatch none'
  | [c], ⟨_, here, word⟩, _, _ => .part (isPart_singleton (Option.some.inj here ▸ word))
  | c :: d :: rest, ⟨_, here, word⟩, all, ⟨_, parts⟩ => by
    obtain rfl := Option.some.inj here
    have others := (List.forall_mem_cons.mp all).2
    rcases others d List.mem_cons_self with word' | rfl
    · exact .cons word (isDotted_of_partsBehind ⟨d, rfl, word'⟩ others parts)
    · exact .more (isPart_singleton word)
        (isDotted_of_partsBehind (parts.1 rfl) (List.forall_mem_cons.mp others).2 parts.2)

/-- The documented names are those that are read which have one colon, and a part behind each separator. -/
theorem isComponentName_iff :
    IsComponentName chars ↔ IsLooseName chars ∧ chars.count ':' = 1 ∧ PartsBehind chars := by
  constructor
  · rintro ⟨first, second⟩
    obtain ⟨c, rest, same, word⟩ := first.first
    obtain ⟨d, rest', same', word'⟩ := second.first
    refine ⟨⟨⟨c, by rw [same]; rfl, word⟩, ?_, List.mem_append_right _ List.mem_cons_self⟩, ?_, ?_⟩
    · have separates {c : Char} (all : continuesIdent c = true ∨ c = '.') :
          continuesIdent c = true ∨ isSeparator c = true :=
        all.imp_right fun same => by rw [same]; rfl
      exact List.forall_mem_append.mpr ⟨fun c member => separates (first.all c member),
        List.forall_mem_cons.mpr ⟨.inr rfl, fun c member => separates (second.all c member)⟩⟩
    · rw [List.count_append, List.count_cons_self, List.count_eq_zero_of_not_mem first.colon,
        List.count_eq_zero_of_not_mem second.colon]
    · refine first.partsBehind ⟨fun _ => ⟨d, by rw [same']; rfl, word'⟩, ?_⟩
      have parts : PartsBehind (_ ++ []) := second.partsBehind trivial
      rwa [List.append_nil] at parts
  · rintro ⟨⟨⟨c, here, word⟩, all, colon⟩, once, parts⟩
    obtain ⟨package, name, rfl⟩ := List.append_of_mem colon
    rw [List.count_append, List.count_cons_self] at once
    have dotted {chars : List Char} (within : chars ⊆ package ++ ':' :: name)
        (none' : chars.count ':' = 0) : ∀ c ∈ chars, continuesIdent c = true ∨ c = '.' := by
      intro c member
      refine (all c (within member)).imp_right fun separates => ?_
      rw [isSeparator, Bool.or_eq_true, beq_iff_eq, beq_iff_eq] at separates
      rcases separates with same | rfl
      · exact same
      · exact absurd member (List.not_mem_of_count_eq_zero none')
    obtain ⟨before, behind, parts'⟩ := parts.split rfl
    refine .mk (isDotted_of_partsBehind ?_ (dotted (List.subset_append_left _ _) (by omega)) before)
      (isDotted_of_partsBehind (behind rfl) (dotted ?_ (by omega)) parts')
    · cases package with
      | nil =>
        obtain rfl := Option.some.inj here
        cases word
      | cons d package => exact ⟨c, here, word⟩
    · exact fun c member => List.mem_append_right _ (List.mem_cons_of_mem _ member)

end Characters

/-- The name of a component that the word gives, be it a value or what a path names a prototype of. -/
def Word.componentName? : Word → Option String
  | component _ name | prototype _ name => some name
  | _ => none

namespace Template

variable {source : Source} {ts us : List Token} {words more : List Word}

/-- The names of components among the words are written by tokens of these. -/
def Named (source : Source) (ts : List Token) (words : List Word) : Prop :=
  ∀ word ∈ words, ∀ name ∈ word.componentName?, ∃ first rest range,
    first :: rest ⊆ ts ∧ IsComponent source first rest range name

namespace Named

theorem nil : Named source ts [] := fun _ => nofun

theorem append (first : Named source ts words) (second : Named source ts more) :
    Named source ts (words ++ more) := List.forall_mem_append.mpr ⟨first, second⟩

theorem mono (named : Named source ts words) (sub : ts ⊆ us) : Named source us words := by
  intro word listed name here
  obtain ⟨first, rest, range, within, written⟩ := named word listed name here
  exact ⟨first, rest, range, fun t member => sub (within member), written⟩

theorem of_plain (plain : ∀ word ∈ words, word.componentName? = none) : Named source ts words := by
  intro word listed name here
  rw [plain word listed] at here
  cases here

end Named

mutual

/-- No expression names a component. -/
theorem Expr.words_plain : ∀ e : Expr, ∀ word ∈ e.words, word.componentName? = none
  | .text _ _ | .number _ _ => List.forall_mem_singleton.mpr rfl
  | .boolean _ _ | .null _ => List.forall_mem_nil _
  | .array _ items => argumentsWords_plain items
  | .chain _ segments =>
    List.forall_mem_append.mpr ⟨segmentsWords_plain segments, List.forall_mem_singleton.mpr rfl⟩
  | .negation _ operand => operand.words_plain
  | .operation _ left _ right => List.forall_mem_append.mpr
    ⟨List.forall_mem_append.mpr ⟨left.words_plain, right.words_plain⟩, List.forall_mem_singleton.mpr rfl⟩
  | .ternary _ condition thenBranch elseBranch => List.forall_mem_append.mpr
    ⟨List.forall_mem_append.mpr ⟨condition.words_plain, thenBranch.words_plain⟩, elseBranch.words_plain⟩
  | .trailed value abandoned =>
    List.forall_mem_append.mpr ⟨value.words_plain, abandonedWords_plain abandoned⟩

theorem abandonedWords_plain :
    ∀ pieces : List Expr, ∀ word ∈ abandonedWords pieces, word.componentName? = none
  | [] => List.forall_mem_nil _
  | piece :: pieces => List.forall_mem_append.mpr ⟨piece.words_plain, abandonedWords_plain pieces⟩

theorem Argument.words_plain :
    ∀ argument : Argument, ∀ word ∈ argument.words, word.componentName? = none
  | .given value => value.words_plain
  | .broken abandoned => abandonedWords_plain abandoned

theorem argumentsWords_plain :
    ∀ items : List Argument, ∀ word ∈ argumentsWords items, word.componentName? = none
  | [] => List.forall_mem_nil _
  | argument :: more => List.forall_mem_append.mpr ⟨argument.words_plain, argumentsWords_plain more⟩

theorem Segment.words_plain :
    ∀ segment : Segment, ∀ word ∈ segment.words, word.componentName? = none
  | .name _ _ => List.forall_mem_singleton.mpr rfl
  | .call _ _ args =>
    List.forall_mem_append.mpr ⟨argumentsWords_plain args, List.forall_mem_singleton.mpr rfl⟩

theorem segmentsWords_plain :
    ∀ segments : List Segment, ∀ word ∈ segmentsWords segments, word.componentName? = none
  | [] => List.forall_mem_nil _
  | segment :: more => List.forall_mem_append.mpr ⟨segment.words_plain, segmentsWords_plain more⟩

end

theorem IsValue.named {value : Value} (written : IsValue source ts value) :
    Named source ts value.words := by
  cases written with
  | component ident written =>
    rintro word listed name here
    obtain rfl := List.mem_singleton.mp listed
    obtain rfl := Option.some.inj here
    exact ⟨_, _, _, List.Subset.refl _, written⟩
  | expression => exact .of_plain (Expr.words_plain _)
  | text | number | embedded => exact .of_plain (List.forall_mem_singleton.mpr rfl)
  | boolean | null | nothing => exact .nil

theorem IsSegment.named {segment : PathSegment} (written : IsSegment source ts segment) :
    Named source ts [segment.word] := by
  cases written with
  | prototype ident text opens written closes =>
    rintro word listed name here
    obtain rfl := List.mem_singleton.mp listed
    obtain rfl := Option.some.inj here
    refine ⟨_, _, _, fun t member => ?_, written⟩
    exact List.mem_append_left _ (List.mem_cons_of_mem _ (List.mem_cons_of_mem _ member))
  | word | quoted | property => exact .of_plain (List.forall_mem_singleton.mpr rfl)

theorem IsSegments.named {segments : List PathSegment} (written : IsSegments source ts segments) :
    Named source ts (segments.map PathSegment.word) := by
  induction written with
  | last only => exact only.named
  | more first between others ih =>
    exact (first.named.mono (List.subset_append_left _ _)).append
      (ih.mono fun t member => List.mem_append_right _ (List.mem_cons_of_mem _ member))

theorem IsOperation.named {operation : Operation} (written : IsOperation source ts operation) :
    Named source ts operation.words := by
  cases written with
  | assign kind behind => exact behind.named.mono (List.subset_cons_self _ _)
  | copy kind behind => exact (IsSegments.named behind).mono (List.subset_cons_self _ _)
  | unset => exact .nil

theorem named_head {path : Path} {operation : Option Operation} (first : IsPath source ts path)
    (second : IsOptional source us operation) : Named source (ts ++ us) (headWords path operation) := by
  refine ((IsSegments.named first).mono (List.subset_append_left _ _)).append ?_
  cases second with
  | absent => exact .nil
  | present only => exact only.named.mono (List.subset_append_right _ _)

theorem IsStatements.named {all outside : List Token} {statements : List Statement}
    (written : IsStatements source all ts outside statements) :
    Named source ts (statementsWords statements) := by
  induction written with
  | nil => exact .nil
  | includeFile kind others ih =>
    exact (Named.of_plain (List.forall_mem_singleton.mpr rfl)).append (ih.mono (List.subset_cons_self _ _))
  | namespaceLine ident text declares whole others ih => exact ih.mono (List.subset_append_right _ _)
  | bare first second others ih =>
    exact ((named_head first (.present second)).mono (List.subset_append_left _ _)).append
      (ih.mono (List.subset_append_right _ _))
  | block first second opens third closes others ih ih' =>
    rw [statementsWords, Statement.words]
    refine .append (.append ((named_head first second).mono ?_) (ih.mono fun t member => ?_))
      (ih'.mono (List.subset_append_right _ _))
    · exact fun t member => List.mem_append_left _ (List.mem_append_left _ member)
    · refine List.mem_append_left _ (List.mem_append_right _ ?_)
      exact List.mem_append_left _ (List.mem_cons_of_mem _ member)

end Template

section Faultless

variable {text name : String} {first t : Token} {rest : List Token} {range : ByteRange}

/-- A name is made of its tokens. -/
theorem toList_component (written : Template.IsComponent (.ofText text) first rest range name)
    (sub : first :: rest ⊆ significantTokens text) : name.toList = Token.written (first :: rest) := by
  have contiguous : Token.Contiguous first.start (first :: rest) := ⟨rfl, written.adjacent⟩
  have inPlace : ∀ t ∈ first :: rest, t.InPlace text.toList := fun t member =>
    inPlace_of_significant (sub member)
  have stands := standsAt_contiguous inPlace (inPlace first List.mem_cons_self).start contiguous
  have stop := Token.stop_of_contiguous contiguous
  rw [List.getLast?_cons, Option.map_some, Option.getD_some] at stop
  rw [written.text, written.range, stop, quote_of_standsAt stands, String.toList_ofList]

theorem isPart_significant (member : t ∈ significantTokens text)
    (kind : t.kind = .ident ∨ t.kind = .number) : IsPart t.text.toList := by
  have regular : t.kind.isRegular = true := by rcases kind with kind | kind <;> rw [kind] <;> rfl
  exact ⟨(spelled_significant member regular).ne_nil, continuesIdent_significant member kind⟩

/-- What goes on with a name consists of parts and separators. -/
theorem parts_of_continuesComponent (member : t ∈ significantTokens text)
    (continues : Template.continuesComponent t.kind = true) :
    ∀ c ∈ t.text.toList, continuesIdent c = true ∨ isSeparator c = true := by
  have part (kind : t.kind = .ident ∨ t.kind = .number) :
      ∀ c ∈ t.text.toList, continuesIdent c = true ∨ isSeparator c = true :=
    fun c listed => .inl ((isPart_significant member kind).2 c listed)
  cases kind : t.kind <;> rw [kind] at continues <;> cases continues
  · exact part (.inl kind)
  · exact part (.inr kind)
  · rw [symbol_significant member (by rw [kind]; rfl)]
    exact List.forall_mem_singleton.mpr (.inr rfl)
  · rw [symbol_significant member (by rw [kind]; rfl)]
    exact List.forall_mem_singleton.mpr (.inr rfl)

theorem isLooseName_component (written : Template.IsComponent (.ofText text) first rest range name)
    (sub : first :: rest ⊆ significantTokens text) : IsLooseName name.toList := by
  obtain ⟨present, others⟩ := List.forall_mem_cons.mp fun t member => sub member
  have part := isPart_significant present written.start
  rw [toList_component written sub, Token.written_cons]
  refine ⟨?_, List.forall_mem_append.mpr ⟨fun c member => .inl (part.2 c member), ?_⟩, ?_⟩
  · obtain ⟨c, more, same⟩ := List.exists_cons_of_ne_nil part.1
    rw [same]
    exact ⟨c, rfl, part.2 c (same ▸ List.mem_cons_self)⟩
  · intro c member
    obtain ⟨t, listed, here⟩ := List.mem_flatMap.mp member
    exact parts_of_continuesComponent (others t listed) (written.kinds t listed) c here
  · obtain ⟨t, listed, colon⟩ := written.colon
    refine List.mem_append_right _ (List.mem_flatMap.mpr ⟨t, listed, ?_⟩)
    rw [symbol_significant (others t listed) (by rw [colon]; rfl)]
    exact List.mem_singleton_self _

/-- Where no fault is found, each name of a component is such a run. -/
theorem isLooseName_of_faultless {id : NodeId} (faultless : (parseTemplate text).errors = #[])
    (here : (parseTemplate text).tree.kind? id = some (.fusionObjectValue name) ∨
      (parseTemplate text).tree.kind? id = some (.prototypePathSegment name)) :
    IsLooseName name.toList := by
  obtain ⟨word, said, named⟩ : ∃ word, (parseTemplate text).tree.word? id = some word ∧
      word.componentName? = some name := by
    rcases here with here | here <;> rw [SyntaxTree.word?, here] <;> exact ⟨_, rfl, rfl⟩
  obtain ⟨outside, written⟩ := exists_isStatements faultless
  obtain ⟨first, rest, range, sub, component⟩ :=
    written.named word (SyntaxTree.word_of_node said) name named
  exact isLooseName_component component sub

end Faultless

end FusionAtlas
