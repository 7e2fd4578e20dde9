import FusionAtlas.Proofs.Scanning
import FusionAtlas.Proofs.TextCut

/-!
What is read from a class file of any text. A scan goes from hit to hit: the pattern is found nowhere in the gap
before a hit, and the next search starts behind it, so that the hits are apart and in order. Main statement:
`ClassSource.methods_scanned`.
-/

set_option autoImplicit false
set_option relaxedAutoImplicit false

namespace FusionAtlas

namespace Text

variable {α : Type} {pattern : Pattern α} {before : Option Char} {offset : Nat} {text : List Char}
  {hits : List (Located α)}

/-- What a scan reports of a text. Each hit is a piece of it, with a gap before the piece in which the pattern is
found nowhere; the pattern is found nowhere behind the last hit. -/
inductive Scanned (pattern : Pattern α) : Option Char → Nat → List Char → List (Located α) → Prop
  | done {before : Option Char} {offset : Nat} {text : List Char} (quiet : Quiet pattern before text []) :
    Scanned pattern before offset text []
  | hit {before : Option Char} {offset : Nat} {gap piece rest : List Char} {value : α} {hits : List (Located α)}
    (quiet : Quiet pattern before gap (piece ++ rest)) (written : piece ≠ [])
    (found : pattern (gap.getLast?.or before) (piece ++ rest) = some ⟨value, piece.length⟩)
    (later : Scanned pattern (piece.getLast?.or (gap.getLast?.or before)) (offset + byteSize gap + byteSize piece)
      rest hits) :
    Scanned pattern before offset (gap ++ (piece ++ rest))
      (⟨value, offset + byteSize gap, offset + byteSize gap + byteSize piece⟩ :: hits)

/-- The pattern covers a character at least, and no more than there are. -/
def Covering (pattern : Pattern α) : Prop :=
  ∀ before text hit, pattern before text = some hit → 0 < hit.length ∧ hit.length ≤ text.length

theorem covering_of_suffix {length : Nat} {c : Char} {after : List Char} (inside : c :: after <:+ text)
    (covered : length = text.length - after.length) : 0 < length ∧ length ≤ text.length := by
  have size := inside.length_le
  rw [List.length_cons] at size
  omega

namespace Scanned

/-- Where the pattern is not found, the gap before the next hit is longer by one. -/
theorem skip {c : Char} (nowhere : pattern before (c :: text) = none)
    (later : Scanned pattern (some c) (offset + c.utf8Size) text hits) :
    Scanned pattern before offset (c :: text) hits := by
  cases later with
  | done quiet => exact .done (.cons (by rwa [List.append_nil]) quiet)
  | hit quiet written found later =>
    rename_i gap piece rest value hits
    rw [← getLast?_cons_or c gap before] at found later
    rw [Nat.add_assoc offset, ← byteSize] at later ⊢
    exact .hit (.cons nowhere quiet) written found later

/-- There is one report of a text, and the scan gives it. -/
theorem iff_scanFrom (covering : Covering pattern) :
    Scanned pattern before offset text hits ↔ hits = scanFrom pattern before offset 0 text := by
  constructor
  · intro scanned
    induction scanned with
    | done quiet =>
      rename_i before offset text
      have passed := scanFrom_quiet quiet offset
      rw [List.append_nil] at passed
      rw [passed]
      rfl
    | hit quiet written found later ih => rw [scanFrom_quiet quiet, scanFrom_hit written found, ← ih]
  · rintro rfl
    induction size : text.length using Nat.strong_induction_on generalizing before offset text with
    | _ n ih =>
      cases text with
      | nil => exact .done .nil
      | cons c rest =>
        cases found : pattern before (c :: rest) with
        | none =>
          rw [scanFrom, found]
          exact .skip found (ih rest.length (by simp [← size]) rfl)
        | some hit =>
          obtain ⟨value, length⟩ := hit
          obtain ⟨pos, le⟩ := covering before (c :: rest) ⟨value, length⟩ found
          obtain ⟨piece, behind, whole, rfl⟩ :
              ∃ piece behind, c :: rest = piece ++ behind ∧ piece.length = length :=
            ⟨_, _, (List.take_append_drop length _).symm, List.length_take_of_le le⟩
          have written : piece ≠ [] := List.ne_nil_of_length_pos pos
          rw [whole] at found size ⊢
          rw [scanFrom_hit written found]
          have shorter : behind.length < n := by
            rw [List.length_append] at size
            have some : 0 < piece.length := pos
            omega
          have nothing : Quiet pattern before [] (piece ++ behind) := .nil
          exact .hit nothing written found (ih behind.length shorter rfl)

/-- Each hit stands in the text, where the pattern covers just its piece. -/
theorem of_mem (scanned : Scanned pattern before offset text hits) {located : Located α}
    (member : located ∈ hits) :
    ∃ front piece rest last, text = front ++ piece ++ rest ∧ piece ≠ [] ∧
      located.start = offset + byteSize front ∧ located.stop = located.start + byteSize piece ∧
      pattern last (piece ++ rest) = some ⟨located.value, piece.length⟩ := by
  induction scanned with
  | done => cases member
  | hit quiet written found later ih =>
    rename_i before offset gap piece rest value hits
    rcases List.mem_cons.mp member with rfl | behind
    · exact ⟨gap, piece, rest, _, (List.append_assoc ..).symm, written, rfl, rfl, found⟩
    · obtain ⟨front, inner, more, last, rfl, written, start, stop, found⟩ := ih behind
      refine ⟨gap ++ piece ++ front, inner, more, last, by simp, written, ?_, stop, found⟩
      rw [start, byteSize_append, byteSize_append]
      omega

/-- Each hit ends before the next one starts, if not just there. -/
theorem pairwise (scanned : Scanned pattern before offset text hits) :
    hits.Pairwise fun first second => first.stop ≤ second.start := by
  induction scanned with
  | done => exact .nil
  | hit quiet written found later ih =>
    refine List.pairwise_cons.mpr ⟨fun located member => ?_, ih⟩
    obtain ⟨front, -, -, -, -, -, start, -⟩ := later.of_mem member
    rw [start]
    exact Nat.le_add_right ..

end Scanned

end Text

namespace Import

open FusionAtlas.Text (Covering)

theorem covering_statement : Covering statement := by
  intro before text hit found
  unfold statement at found
  split at found
  · cases found
  · simp only [Option.bind_eq_bind, Option.bind_eq_some_iff] at found
    obtain ⟨behind, word, rest, blanks, found⟩ := found
    obtain ⟨c, more, apart, -⟩ := Text.afterBlanks?_eq_some blanks
    have behindWord : behind <:+ text :=
      .trans ⟨_, (Text.afterOpening?_eq_some word).symm⟩ (List.dropWhile_suffix _)
    have inside : rest <:+ text := .trans ⟨_, apart.symm⟩ behindWord
    split at found
    · next after ends =>
      have closing : ';' :: after <:+ text := (ends ▸ List.drop_suffix _ rest).trans inside
      split at found
      · split at found
        · cases found
          exact Text.covering_of_suffix closing rfl
        · cases found
      · cases found
        exact Text.covering_of_suffix closing rfl
    · cases found

/-- An import has a path, which starts with no backslash, and a name that it is known by. -/
structure IsUsable (imported : Import) : Prop where
  fqcn : imported.fqcn ≠ ""
  knownAs : imported.knownAs ≠ ""
  relative : imported.fqcn.toList.head? ≠ some '\\'

theorem isUsable_of_ofBody? {body : List Char} {imported : Import} (found : ofBody? body = some imported) :
    imported.IsUsable := by
  have usable {path knownAs : List Char}
      (written : ¬((path.dropWhile (· == '\\')).isEmpty || knownAs.isEmpty) = true) :
      IsUsable ⟨String.ofList (path.dropWhile (· == '\\')), String.ofList knownAs⟩ := by
    simp only [Bool.or_eq_true, List.isEmpty_iff, not_or] at written
    refine ⟨by simpa using written.1, by simpa using written.2, fun first => ?_⟩
    rw [String.toList_ofList] at first
    have solid := List.head?_dropWhile_not (· == '\\') path
    simp [first] at solid
  obtain ⟨written, same⟩ := Option.ite_none_left_eq_some.mp found
  obtain rfl := Option.some.inj same
  exact usable written

end Import

namespace ClassSource

open FusionAtlas.Text (Covering Scanned StandsAt isBlank isWord byteSize)

variable {source : ClassSource}

theorem covering_signaturePattern : Covering signaturePattern := by
  intro before text hit found
  obtain ⟨front, b, blanks, mark, behind, after, whole, covered, -⟩ := exists_of_signaturePattern found
  have size := congrArg List.length whole
  simp only [List.length_append, List.length_singleton] at size
  omega

/-- The piece of text is a signature with this name, which is a whole word behind the word `function`, and behind
the mark of a reference if there is one. -/
def Declares (piece name : List Char) : Prop :=
  ∃ front b blanks mark behind,
    piece = front ++ [b] ++ "function".toList ++ blanks ++ mark ++ name ++ behind ∧ isBlank b = true ∧
      (blanks ≠ [] ∧ ∀ c ∈ blanks, isBlank c = true) ∧ (mark = [] ∨ mark = ['&']) ∧
      (name ≠ [] ∧ ∀ c ∈ name, isWord c = true) ∧ ∀ c ∈ behind.head?, isWord c = false

theorem declares_of_signaturePattern {last : Option Char} {piece rest : List Char} {signature : Signature}
    (found : signaturePattern last (piece ++ rest) = some ⟨signature, piece.length⟩) :
    Declares piece signature.name := by
  obtain ⟨front, b, blanks, mark, behind, after, whole, covered, ⟨blank, -⟩, apart⟩ :=
    exists_of_signaturePattern found
  have size := congrArg List.length whole
  dsimp only at covered
  rw [List.length_append] at size covered
  rw [List.length_append] at size
  obtain ⟨same, -⟩ := List.append_inj whole (by omega)
  exact ⟨front, b, blanks, mark, behind, same, blank, apart⟩

/-- The method has a place in the text, where a signature with its name stands; its other name and its span are
those of its name and its place. -/
structure Shows (source : ClassSource) (method : MethodDeclaration) : Prop where
  declares : ∃ piece, piece ≠ [] ∧ StandsAt source.text piece method.range.start ∧
    method.range.stop = method.range.start + byteSize piece ∧ Declares piece method.name.toList
  propertyName : method.propertyName.toList = propertyNameOf method.name.toList
  span : method.span = (LineIndex.ofChars source.text).span method.range

theorem shows_methodOf {hits : List (Text.Located Signature)}
    (scanned : Scanned signaturePattern none 0 source.text hits)
    {hit : Text.Located Signature} (member : hit ∈ hits) (namespaceName : String) (imports : List Import) :
    source.Shows (source.methodOf (.ofChars source.text) namespaceName imports hit) := by
  obtain ⟨front, piece, rest, last, whole, written, start, stop, found⟩ := scanned.of_mem member
  have declares := declares_of_signaturePattern found
  refine ⟨⟨piece, written, ⟨front, rest, whole, ?_⟩, stop, ?_⟩, ?_, rfl⟩
  · exact (start.trans (Nat.zero_add _)).symm
  · simpa [methodOf] using declares
  · simp [methodOf]

theorem methods_of_declaration {fqcn expected rootName : String} {uri : FileUri} {declared : ClassDeclaration}
    (made : source.declaration fqcn expected rootName uri = .ok declared) :
    declared.methods = source.methods (.ofChars source.text) expected (Import.ofSource source.text) := by
  unfold declaration at made
  simp only at made
  split at made
  · cases made
  · split at made
    · cases made
    · cases made
      rfl

/-- Whatever a class file holds, its methods come from the first signatures in it, one for each in their order,
and at most so many as the bound says. Each has a place of its own in the text, with its signature there, and
these places are apart and go up. The imports come from the first import statements in the same way, and each of
them has a path and a name. -/
theorem methods_scanned (source : ClassSource) (namespaceName : String) (imports : List Import) :
    let index := LineIndex.ofChars source.text
    let methods := source.methods index namespaceName imports
    let found := Import.ofSource source.text
    ((∃ hits, (∀ other, Scanned signaturePattern none 0 source.text other ↔ other = hits) ∧
        methods = (hits.take maxMethods).map (source.methodOf index namespaceName imports)) ∧
      methods.length ≤ maxMethods ∧
      methods.Pairwise (fun first second => first.range.stop ≤ second.range.start) ∧
      ∀ method ∈ methods, source.Shows method) ∧
    ((∃ statements, (∀ other, Scanned Import.statement none 0 source.text other ↔ other = statements) ∧
        found = (statements.take Import.maxCount).filterMap fun hit => Import.ofBody? hit.value) ∧
      found.length ≤ Import.maxCount ∧ ∀ imported ∈ found, imported.IsUsable) ∧
    ∀ fqcn expected rootName uri declared, source.declaration fqcn expected rootName uri = .ok declared →
      declared.methods = source.methods index expected found := by
  have signatures (other) : Scanned signaturePattern none 0 source.text other ↔
      other = Text.scan signaturePattern source.text := Scanned.iff_scanFrom covering_signaturePattern
  have statements (other) : Scanned Import.statement none 0 source.text other ↔
      other = Text.scan Import.statement source.text := Scanned.iff_scanFrom Import.covering_statement
  have scanned := (signatures _).mpr rfl
  refine ⟨⟨⟨_, signatures, rfl⟩, ?_, ?_, ?_⟩, ⟨⟨_, statements, rfl⟩, ?_, ?_⟩, ?_⟩
  · rw [methods, List.length_map]
    exact List.length_take_le ..
  · exact List.pairwise_map.mpr (scanned.pairwise.sublist (List.take_sublist ..))
  · intro method member
    obtain ⟨hit, listed, rfl⟩ := List.mem_map.mp member
    exact shows_methodOf scanned (List.mem_of_mem_take listed) namespaceName imports
  · exact (List.length_filterMap_le ..).trans (List.length_take_le ..)
  · intro imported member
    obtain ⟨hit, -, body⟩ := List.mem_filterMap.mp member
    exact Import.isUsable_of_ofBody? body
  · exact fun fqcn expected rootName uri declared made => methods_of_declaration made

/-- A class file with a signature that is broken off, and with one over two lines. -/
def pumpFile : ClassSource :=
  ⟨"<?php\nnamespace Acme;\nuse \\Acme\\Node as N;\nclass Pump \x7b\n  public function run(\n".toList ++
    "  /* ü */ static public\n  function &getNode($a = f(1)): N;\n  public function of();\n".toList⟩

/-- The signature that is broken off is passed over, and the two behind it are found where they stand. -/
theorem methods_scanned_pump :
    let methods := pumpFile.methods (.ofChars pumpFile.text) "Acme" (Import.ofSource pumpFile.text)
    methods.map (fun method => (method.name, method.range)) = [("getNode", ⟨90, 137⟩), ("of", ⟨141, 161⟩)] ∧
      methods.Pairwise (fun first second => first.range.stop ≤ second.range.start) ∧
      (∀ method ∈ methods, pumpFile.Shows method) ∧
      (∀ imported ∈ Import.ofSource pumpFile.text, imported.IsUsable) ∧
      ∃ declared, pumpFile.declaration "Acme\\Pump" "Acme" "Acme" ⟨"file:///Pump.php"⟩ = .ok declared ∧
        declared.methods = methods := by
  have scanned := methods_scanned pumpFile "Acme" (Import.ofSource pumpFile.text)
  obtain ⟨⟨-, -, ordered, shown⟩, ⟨-, -, usable⟩, declares⟩ := scanned
  have found : (pumpFile.declaration "Acme\\Pump" "Acme" "Acme" ⟨"file:///Pump.php"⟩).isOk = true := by
    decide +kernel
  refine ⟨by decide +kernel, ordered, shown, usable, ?_⟩
  cases made : pumpFile.declaration "Acme\\Pump" "Acme" "Acme" ⟨"file:///Pump.php"⟩ with
  | error miss => simp [made, Except.isOk, Except.toBool] at found
  | ok declared => exact ⟨declared, rfl, declares _ _ _ _ declared made⟩

end ClassSource

end FusionAtlas
