import FusionAtlas.Proofs.CanonicalStatements
import FusionAtlas.Proofs.ComponentNames

/-!
Which names of components are accepted. A run of parts and separators is cut into identifiers, numbers, dots
and colons that stand side by side, and these are read as one name, where a value is expected and in the
parentheses of a prototype; nothing is asked of where the separators stand. Main statement:
`parseTemplate_componentName`.
-/

set_option autoImplicit false
set_option relaxedAutoImplicit false

namespace FusionAtlas.Canonical

open FusionAtlas.Text (byteSize)
open FusionAtlas.Token.Lexer
open FusionAtlas.Template (Source Cursor IsComponent IsOperation StatementsYield statementList)

/-- Lexemes that make up a run of parts and separators, each as long as it can be. -/
inductive Glued : List Lexeme → Prop
  | nil : Glued []
  | dot {more : List Lexeme} (others : Glued more) : Glued (sign .dot :: more)
  | colon {more : List Lexeme} (others : Glued more) : Glued (sign .colon :: more)
  | word {c : Char} {rest : List Char} {more : List Lexeme} (starts : startsIdent c = true)
      (continues : ∀ d ∈ rest, continuesIdent d = true)
      (apart : ∀ d ∈ (spell more).head?, continuesIdent d = false) (others : Glued more) :
      Glued (⟨.ident, c :: rest⟩ :: more)
  | digits {c : Char} {rest : List Char} {more : List Lexeme} (starts : c.isDigit = true)
      (continues : ∀ d ∈ rest, d.isDigit = true)
      (apart : ∀ d ∈ (spell more).head?, d.isDigit = false) (others : Glued more) :
      Glued (⟨.number, c :: rest⟩ :: more)

section Runs

variable {lexemes : List Lexeme}

namespace Glued

theorem continues (glued : Glued lexemes) :
    ∀ l ∈ lexemes, Template.continuesComponent l.kind = true := by
  induction glued with
  | nil => exact List.forall_mem_nil _
  | dot _ ih | colon _ ih | word _ _ _ _ ih | digits _ _ _ _ ih => exact List.forall_mem_cons.mpr ⟨rfl, ih⟩

/-- No run is the sign of an embedded block behind a word. -/
theorem plain (glued : Glued lexemes) : ∀ d ∈ (spell lexemes).head?, d ≠ '`' := by
  rintro d here rfl
  cases glued with
  | nil | dot | colon => cases here
  | word starts =>
    obtain rfl := Option.some.inj here
    cases starts
  | digits starts =>
    obtain rfl := Option.some.inj here
    cases starts

theorem cuts (glued : Glued lexemes) : Cuts lexemes := by
  induction glued with
  | nil => exact .nil
  | dot _ ih => exact .sign ⟨rfl, fun _ => rfl⟩ ih
  | colon _ ih => exact .sign ⟨rfl, fun _ => rfl⟩ ih
  | @word c rest more starts continues apart others ih =>
    refine .cons (.ident starts continues) (by decide) (by decide) (fun ahead ends => ?_) ih
    cases spelled : spell more with
    | nil => exact ends.ident
    | cons d behind =>
      have head : d ∈ (spell more).head? := by rw [spelled]; rfl
      exact (endsWord_cons (apart d head) (others.plain d head)).ident
  | @digits c rest more starts continues apart others ih =>
    refine .cons (.number starts continues) (by decide) (by decide) (fun ahead ends => ?_) ih
    cases spelled : spell more with
    | nil => exact ends.number
    | cons d behind =>
      intro e here
      obtain rfl := Option.some.inj here
      rw [admits, apart d (by rw [spelled]; rfl)]
      rfl

theorem exists_colon (glued : Glued lexemes) (colon : ':' ∈ spell lexemes) :
    ∃ l ∈ lexemes, l.kind = .colon := by
  have later {l : Lexeme} {more : List Lexeme} (ih : ':' ∈ spell more → ∃ l ∈ more, l.kind = .colon)
      (other : ':' ∉ l.text) (colon : ':' ∈ spell (l :: more)) : ∃ l' ∈ l :: more, l'.kind = .colon := by
    rw [spell_cons] at colon
    obtain ⟨l', listed, kind⟩ := ih ((List.mem_append.mp colon).resolve_left other)
    exact ⟨l', List.mem_cons_of_mem _ listed, kind⟩
  induction glued with
  | nil => cases colon
  | dot _ ih => exact later ih (by decide) colon
  | colon => exact ⟨_, List.mem_cons_self, rfl⟩
  | word starts continues _ _ ih =>
    refine later ih (fun member => ?_) colon
    rcases List.mem_cons.mp member with rfl | listed
    · cases starts
    · cases continues _ listed
  | digits starts continues _ _ ih =>
    refine later ih (fun member => ?_) colon
    rcases List.mem_cons.mp member with rfl | listed
    · cases starts
    · cases continues _ listed

/-- The first lexeme of a run that starts with a part. -/
theorem opening (glued : Glued lexemes) {c : Char} {rest : List Char}
    (spelled : spell lexemes = c :: rest) (word : continuesIdent c = true) :
    ∃ first others, lexemes = first :: others ∧ (first.kind = .ident ∨ first.kind = .number) ∧
      (startsIdent c = true →
        first.kind = .ident ∧ first.text = (c :: rest).takeWhile continuesIdent) := by
  cases glued with
  | nil => cases spelled
  | dot =>
    obtain ⟨rfl, -⟩ := List.cons.inj spelled
    cases word
  | colon =>
    obtain ⟨rfl, -⟩ := List.cons.inj spelled
    cases word
  | word starts continues apart =>
    obtain ⟨rfl, rfl⟩ := List.cons.inj spelled
    refine ⟨_, _, rfl, .inl rfl, fun _ => ⟨rfl, ?_⟩⟩
    exact (Text.takeWhile_append_of_head (List.forall_mem_cons.mpr ⟨word, continues⟩) apart).symm
  | digits starts =>
    obtain ⟨rfl, -⟩ := List.cons.inj spelled
    refine ⟨_, _, rfl, .inr rfl, fun starts' => ?_⟩
    rw [startsIdent_of_isDigit starts] at starts'
    cases starts'

end Glued

/-- Each run of parts and separators is spelled so. -/
theorem exists_glued : ∀ chars : List Char,
    (∀ c ∈ chars, continuesIdent c = true ∨ isSeparator c = true) →
    ∃ lexemes, Glued lexemes ∧ spell lexemes = chars
  | [], _ => ⟨[], .nil, rfl⟩
  | c :: rest, all => by
    obtain ⟨first, others⟩ := List.forall_mem_cons.mp all
    have behind (p : Char → Bool) : ∃ more, Glued more ∧ spell more = rest.dropWhile p :=
      exists_glued (rest.dropWhile p) fun d member => others d ((List.dropWhile_sublist p).subset member)
    rcases first with word | separates
    · have kind : startsIdent c = true ∨ c.isDigit = true := by
        rw [continuesIdent, Text.isAsciiAlphanumeric, Bool.or_eq_true, Bool.or_eq_true] at word
        rw [startsIdent, Text.isAsciiLetter, Bool.or_eq_true]
        tauto
      rcases kind with starts | starts
      · obtain ⟨more, glued, spelled⟩ := behind continuesIdent
        refine ⟨⟨.ident, c :: rest.takeWhile continuesIdent⟩ :: more, .word starts ?_ ?_ glued, ?_⟩
        · exact fun d member => List.mem_takeWhile_imp member
        · exact spelled ▸ head?_dropWhile _ rest
        · rw [spell_cons, spelled, List.cons_append, List.takeWhile_append_dropWhile]
      · obtain ⟨more, glued, spelled⟩ := behind Char.isDigit
        refine ⟨⟨.number, c :: rest.takeWhile Char.isDigit⟩ :: more, .digits starts ?_ ?_ glued, ?_⟩
        · exact fun d member => List.mem_takeWhile_imp member
        · exact spelled ▸ head?_dropWhile _ rest
        · rw [spell_cons, spelled, List.cons_append, List.takeWhile_append_dropWhile]
    · obtain ⟨more, glued, spelled⟩ := exists_glued rest others
      rw [isSeparator, Bool.or_eq_true, beq_iff_eq, beq_iff_eq] at separates
      rcases separates with rfl | rfl
      · exact ⟨sign .dot :: more, .dot glued, congrArg ('.' :: ·) spelled⟩
      · exact ⟨sign .colon :: more, .colon glued, congrArg (':' :: ·) spelled⟩
termination_by chars => chars.length
decreasing_by
  · exact Nat.lt_succ_of_le (List.length_dropWhile_le p rest)
  · exact Nat.lt_succ_self _

end Runs

section Lines

variable {source : Source} {lexemes path operation : List Lexeme} {pathTree : Template.Path}
  {operationTree : Template.Operation}

/-- The lexemes are cut and read as the path at the start of a line. -/
structure SpellsPath (lexemes : List Lexeme) (tree : Template.Path) : Prop where
  begins : Begins lexemes
  opens : Opens lexemes
  cut : ∀ {ahead}, EndsPath ahead → Cut true false lexemes ahead
  writes : ∀ source, Writes source lexemes fun ts => ∃ found : Template.Path,
    found.bare = tree ∧ Template.IsPath source ts found

/-- The lexemes are cut and read as the operation behind a path. -/
structure SpellsOperation (lexemes : List Lexeme) (tree : Template.Operation) : Prop where
  endsPath : ∀ ahead, EndsPath (spell lexemes ++ ahead)
  cut : ∀ {ahead}, EndsHead ahead → Cut false false lexemes ahead
  writes : ∀ source, Writes source lexemes fun ts => ∃ found : Template.Operation,
    found.bare = tree ∧ IsOperation source ts found

theorem Path.spells (path : Path) : SpellsPath path.lexemes path.tree :=
  ⟨path.first.begins.append, path.opens, path.cut, fun source => path.writes source⟩

theorem Operation.spells (operation : Operation) : SpellsOperation operation.lexemes operation.tree :=
  ⟨fun _ => operation.endsPath, operation.cut, fun source => operation.writes source⟩

/-- The text of a template with one line between canonical statements. -/
def printAround (before : List Statement) (line : List Char) (after : List Statement) : String :=
  String.ofList (spell (statementsLexemes before) ++
    (line ++ '\n' :: spell (statementsLexemes after)))

/-- The lexemes of canonical statements with a line between them. -/
def aroundLexemes (before : List Statement) (line : List Lexeme) (after : List Statement) : List Lexeme :=
  statementsLexemes before ++ (line ++ [newline] ++ statementsLexemes after)

theorem toList_printAround (before : List Statement) (line : List Lexeme) (after : List Statement) :
    (printAround before (spell line) after).toList = spell (aroundLexemes before line after) := by
  rw [printAround, String.toList_ofList, aroundLexemes, spell_append, spell_append, spell_append,
    List.append_assoc]
  rfl

theorem tokens_printAround {line : List Lexeme} (before after : List Statement) (opens : Opens line)
    (cut : ∀ {ahead}, EndsHead ahead → Cut true false line ahead) :
    significantTokens (printAround before (spell line) after) =
      tokensAt 0 (aroundLexemes before line after) := by
  have whole : Cut true true (aroundLexemes before line after) [] := by
    refine .append (cut_statements before ?_) (.append (.append (cut (.inl ⟨_, rfl⟩)) (cut_newline ?_))
      (cut_statements after nofun))
    · exact (opens.append.append : Opens (line ++ [newline] ++ statementsLexemes after)).ends
    · exact ends_statements nofun
  have tokens := whole 0
  rw [List.append_nil, tokensFrom, List.append_nil, ← toList_printAround] at tokens
  rw [significantTokens, tokenize, tokens, tokensAt]

/-- A path and an operation are read as a statement, and canonical statements behind their line. -/
theorem read_after {start : Nat} {c : Cursor} {after : List Statement} (first : SpellsPath path pathTree)
    (second : SpellsOperation operation operationTree)
    (holds : source.Holds start (spell (path ++ operation ++ [newline] ++ statementsLexemes after)))
    (here : c.rest = tokensAt start (path ++ operation ++ [newline] ++ statementsLexemes after)) :
    StatementsYield (statementList source false c)
      (.object nowhere pathTree (some operationTree) none :: statementsTree after) [] := by
  rw [spell_append] at holds
  rw [tokensAt_append] at here
  have next {offset : Nat} : NextLine offset (tokensAt offset (statementsLexemes after)) := by
    have next := @nextLine_statements after [] offset fun _ _ => nofun
    rwa [List.append_nil] at next
  have line := read_line holds.left (first.writes source) (second.writes source) next here
  obtain ⟨t, ts, tokens, -⟩ :=
    (first.begins.append.append : Begins (path ++ operation ++ [newline])).tokens start
  rw [tokens] at here
  refine Template.statementList_cons nofun (by simp) line (fun c here => ?_) here
  exact read_statements after holds.right (.inl rfl) (here.trans (List.append_nil _).symm)

/-- The template is read without a fault, as the statements but for their places. -/
def ReadAs (text : String) (statements : List Template.Statement) : Prop :=
  (parseTemplate text).errors = #[] ∧
    Template.statementsBare (parseTemplate text).template.statements = statements

/-- A path and an operation are read as a statement on a line of their own. -/
theorem parseTemplate_printAround (before after : List Statement) (first : SpellsPath path pathTree)
    (second : SpellsOperation operation operationTree) :
    ReadAs (printAround before (spell (path ++ operation)) after)
      (statementsTree before ++
        .object nowhere pathTree (some operationTree) none :: statementsTree after) := by
  let text := printAround before (spell (path ++ operation)) after
  have tokens : significantTokens text = _ := tokens_printAround before after first.opens.append
    fun ends => .append (first.cut (second.endsPath _)) (second.cut ends)
  have holds : (Source.ofText text).Holds 0 (spell (aroundLexemes before (path ++ operation) after)) :=
    ⟨[], [], (toList_printAround before _ after).trans (List.append_nil _).symm, rfl⟩
  rw [aroundLexemes, spell_append] at holds
  rw [aroundLexemes, tokensAt_append] at tokens
  have begins : Begins (path ++ operation ++ [newline] ++ statementsLexemes after) :=
    first.begins.append.append.append
  have next := begins.nextLine (0 + byteSize (spell (statementsLexemes before))) []
  rw [List.append_nil] at next
  have read := read_before before (c := { rest := significantTokens text }) holds.left next
    (fun c here => read_after first second holds.right here) tokens
  exact ⟨read.errors, read.value⟩

end Lines

section Names

variable {chars : List Char}

/-- A name starts with a letter or an underscore, and with no word for a boolean or for nothing. -/
structure StartsValue (chars : List Char) : Prop where
  starts : ∃ c ∈ chars.head?, startsIdent c = true
  boolean : Template.boolean? (String.ofList (chars.takeWhile continuesIdent)) = none
  null : Template.isNull (String.ofList (chars.takeWhile continuesIdent)) = false

/-- The lexemes that a name is cut into. -/
theorem exists_lexemes (loose : IsLooseName chars) :
    ∃ first others, Glued (first :: others) ∧ spell (first :: others) = chars ∧
      (first.kind = .ident ∨ first.kind = .number) ∧ (∃ l ∈ others, l.kind = .colon) ∧
      ((∃ c ∈ chars.head?, startsIdent c = true) →
        first.kind = .ident ∧ first.text = chars.takeWhile continuesIdent) := by
  obtain ⟨lexemes, glued, rfl⟩ := exists_glued chars loose.others
  obtain ⟨c, here, word⟩ := loose.first
  obtain ⟨rest, spelled⟩ := List.head?_eq_some_iff.mp here
  obtain ⟨first, others, rfl, kind, opens⟩ := glued.opening spelled word
  obtain ⟨l, listed, colon⟩ := glued.exists_colon loose.colon
  refine ⟨first, others, glued, rfl, kind, ⟨l, ?_, colon⟩, ?_⟩
  · refine (List.mem_cons.mp listed).resolve_left ?_
    rintro rfl
    rcases kind with kind | kind <;> rw [kind] at colon <;> cases colon
  · rintro ⟨d, head, starts⟩
    obtain rfl := Option.some.inj (here.symm.trans head)
    rw [spelled]
    exact opens starts

/-- Behind a path, a name that starts like a value may be assigned. -/
theorem spells_assigned (loose : IsLooseName chars) (value : StartsValue chars) :
    ∃ lexemes, spell lexemes = ' ' :: '=' :: ' ' :: chars ∧
      SpellsOperation lexemes (.assign nowhere (.component nowhere (String.ofList chars))) := by
  obtain ⟨first, others, glued, rfl, kind, colon, opening⟩ := exists_lexemes loose
  obtain ⟨ident, word⟩ := opening value.starts
  refine ⟨space :: sign .eq :: space :: first :: others, rfl, ?_, fun ends => ?_, fun source => ?_⟩
  · exact fun ahead => endsPath_space (noColon_cons (by decide) (by decide) (by decide))
  · have opens : Opens (first :: others) := by
      obtain ⟨c, here, starts⟩ := value.starts
      obtain ⟨rest, spelled⟩ := List.head?_eq_some_iff.mp here
      refine ⟨c, rest, spelled, isSpace_of_startsIdent starts, ?_⟩
      rintro rfl
      cases starts
    exact Cuts.spaced rfl opens glued.cuts _ ends.path.word
  · refine writes_assign ((writes_component kind (fun l member => glued.continues l ?_) colon).imp ?_)
    · exact List.mem_cons_of_mem _ member
    · rintro _ ⟨t, more, r, rfl, same, text, written⟩
      have name : Template.IsName t := by
        refine ⟨same.trans ident, ?_, ?_⟩ <;> rw [text, word]
        · exact value.boolean
        · exact value.null
      exact ⟨_, rfl, .component name written⟩

/-- In front of steps of a path, any name may stand in the parentheses of a prototype. -/
theorem spells_prototype (loose : IsLooseName chars) (steps : List PathStep) :
    ∃ lexemes, spell lexemes =
        "prototype".toList ++ '(' :: (chars ++ ')' :: spell (stepLexemes steps)) ∧
      SpellsPath lexemes
        ⟨.prototype nowhere (String.ofList chars), steps.map PathStep.tree⟩ := by
  obtain ⟨first, others, glued, rfl, kind, colon, -⟩ := exists_lexemes loose
  refine ⟨constant "prototype" :: sign .leftParen :: (first :: others ++ [sign .rightParen]) ++
    stepLexemes steps, ?_, ⟨_, _, _, rfl, rfl⟩, opens_cons rfl (by decide), fun ends => ?_, fun source => ?_⟩
  · rw [List.cons_append, List.cons_append, spell_cons, spell_cons, spell_append, spell_append,
      List.append_assoc]
    rfl
  · exact .append (cut_prototype glued.cuts (endsPath_steps steps ends)) (cut_steps steps ends)
  · refine writes_path steps (writes_prototype ((writes_component kind (fun l member => ?_) colon).imp ?_))
    · exact glued.continues l (List.mem_cons_of_mem _ member)
    · rintro _ ⟨t, more, r, rfl, -, -, written⟩
      exact ⟨t, more, r, rfl, written⟩

/-- Documented are the names with one colon and a part behind each separator. Each name of a component in a
template without a fault is a run of parts and separators, starts with a part and has a colon; and each such run
is accepted, be it assigned, if it starts like a value, or named as the prototype of a path. -/
theorem parseTemplate_componentName (name : String) :
    (IsComponentName name.toList ↔
      IsLooseName name.toList ∧ name.toList.count ':' = 1 ∧ PartsBehind name.toList) ∧
    (∀ (text : String) (id : NodeId), (parseTemplate text).errors = #[] →
      (parseTemplate text).tree.kind? id = some (.fusionObjectValue name) ∨
        (parseTemplate text).tree.kind? id = some (.prototypePathSegment name) →
      IsLooseName name.toList) ∧
    (IsLooseName name.toList → ∀ before after : List Statement,
      (StartsValue name.toList → ∀ path : Path,
        ReadAs (printAround before (spell path.lexemes ++ ' ' :: '=' :: ' ' :: name.toList) after)
          (statementsTree before ++ .object nowhere path.tree
            (some (.assign nowhere (.component nowhere name))) none :: statementsTree after)) ∧
      ∀ (steps : List PathStep) (operation : Operation),
        ReadAs (printAround before ("prototype".toList ++ '(' ::
            (name.toList ++ ')' :: (spell (stepLexemes steps) ++ spell operation.lexemes))) after)
          (statementsTree before ++ .object nowhere
            ⟨.prototype nowhere name, steps.map PathStep.tree⟩
            (some operation.tree) none :: statementsTree after)) := by
  refine ⟨isComponentName_iff, fun text id faultless here => isLooseName_of_faultless faultless here,
    fun loose before after => ⟨?_, ?_⟩⟩
  · intro value path
    obtain ⟨operation, spelled, assigned⟩ := spells_assigned loose value
    rw [String.ofList_toList] at assigned
    rw [← spelled, ← spell_append]
    exact parseTemplate_printAround before after path.spells assigned
  · intro steps operation
    obtain ⟨path, spelled, prototype⟩ := spells_prototype loose steps
    rw [String.ofList_toList] at prototype
    have line : "prototype".toList ++ '(' ::
        (name.toList ++ ')' :: (spell (stepLexemes steps) ++ spell operation.lexemes)) =
          spell (path ++ operation.lexemes) := by
      rw [spell_append, spelled, List.append_assoc, List.cons_append, List.append_assoc]
      rfl
    rw [line]
    exact parseTemplate_printAround before after prototype operation.spells

end Names

/-- Two colons, a doubled dot and one at the end. -/
theorem parseTemplate_componentName_doubled :
    let line : List Statement := [.bare ⟨.prototype
      ⟨⟨⟨'A', [], rfl, nofun⟩, []⟩, ⟨⟨'B', [], rfl, nofun⟩, []⟩⟩, []⟩ .unset]
    (parseTemplate "prototype(1a::B) = A..:9.").errors = #[] ∧ IsLooseName "1a::B".toList ∧
      IsLooseName "A..:9.".toList ∧
      ReadAs "prototype(A:B) >\na = A..:9.\nprototype(A:B) >\n" (statementsTree line ++
        .object nowhere ⟨.plain nowhere "a", []⟩
          (some (.assign nowhere (.component nowhere "A..:9."))) none :: statementsTree line) ∧
      ReadAs "prototype(1a::B).a >\n" [.object nowhere ⟨.prototype nowhere "1a::B", [.plain nowhere "a"]⟩
        (some (.unset nowhere)) none] := by
  intro line
  obtain ⟨-, runs, accepts⟩ := parseTemplate_componentName "1a::B"
  obtain ⟨-, runs', accepts'⟩ := parseTemplate_componentName "A..:9."
  have faultless : (parseTemplate "prototype(1a::B) = A..:9.").errors = #[] := by decide +kernel
  have first := runs _ 0 faultless (.inr (by decide +kernel))
  have second := runs' _ 2 faultless (.inl (by decide +kernel))
  have value : StartsValue "A..:9.".toList := ⟨⟨'A', rfl, rfl⟩, by decide +kernel, by decide +kernel⟩
  have assigned := (accepts' second line line).1 value ⟨.word ⟨'a', [], rfl, nofun⟩, []⟩
  have prototype := (accepts first [] []).2 [.word ⟨'a', [], rfl, nofun⟩] .unset
  exact ⟨faultless, first, second, assigned, prototype⟩

/-- A name with two colons is none of the documented ones. -/
theorem doubled_colon_accepted :
    (parseTemplate "a = A::B").errors = #[] ∧
      (parseTemplate "a = A::B").tree.kind? 2 = some (.fusionObjectValue "A::B") ∧
      ¬IsComponentName "A::B".toList := by
  refine ⟨by decide +kernel, by decide +kernel, fun documented => ?_⟩
  have once := (isComponentName_iff.mp documented).2.1
  revert once
  decide

end FusionAtlas.Canonical
