import FusionAtlas.Proofs.TopLevelCommas
import Mathlib.Data.List.Induction

/-!
The commas that divide a parameter list. Which commas do is said without a scan: what stands in front of one is
cut into quoted strings and characters outside of them, and of the latter no bracket may be open. Main
statement: `ParameterList.pieces_at_dividing_commas`.
-/

set_option autoImplicit false
set_option relaxedAutoImplicit false

namespace FusionAtlas.ParameterList

variable {text bare content front : List Char} {quote c : Char} {nesting : Nesting}

/-- What a string may hold between its quotes: a backslash takes the character behind it along, and no other
character is the quote. -/
inductive InQuotes (quote : Char) : List Char → Prop
  | nil : InQuotes quote []
  | escaped {content : List Char} (c : Char) (inside : InQuotes quote content) :
    InQuotes quote (content ++ ['\\', c])
  | plain {content : List Char} {c : Char} (backslash : c ≠ '\\') (other : c ≠ quote)
    (inside : InQuotes quote content) : InQuotes quote (content ++ [c])

/-- The text ends outside of its strings, and without them it is `bare`. -/
inductive Outside : List Char → List Char → Prop
  | nil : Outside [] []
  | bare {text bare : List Char} {c : Char} (other : ¬(c = '\'' ∨ c = '"')) (before : Outside text bare) :
    Outside (text ++ [c]) (bare ++ [c])
  | string {text bare content : List Char} {quote : Char} (opens : quote = '\'' ∨ quote = '"')
    (inside : InQuotes quote content) (before : Outside text bare) :
    Outside (text ++ quote :: (content ++ [quote])) bare

/-- How many brackets are open behind one more character. One that closes nothing does not count. -/
def bracketStep (depth : Nat) (c : Char) : Nat :=
  if c = '(' ∨ c = '[' then depth + 1 else if c = ')' ∨ c = ']' then depth - 1 else depth

/-- How many brackets are open behind a text without strings. -/
def openBrackets (bare : List Char) : Nat := bare.foldl bracketStep 0

theorem openBrackets_concat (bare : List Char) (c : Char) :
    openBrackets (bare ++ [c]) = bracketStep (openBrackets bare) c := List.foldl_append

/-- A comma behind the text divides: it stands outside of strings, and no bracket is open there. -/
def AtTop (text : List Char) : Prop := ∃ bare, Outside text bare ∧ openBrackets bare = 0

namespace Nesting

theorem behind_concat (nesting : Nesting) (text : List Char) (c : Char) :
    nesting.behind (text ++ [c]) = (nesting.behind text).next c := behind_append nesting text [c]

theorem next_bare (other : ¬(c = '\'' ∨ c = '"')) (depth : Nat) :
    next ⟨depth, none, false⟩ c = ⟨bracketStep depth c, none, false⟩ := by
  simp only [next, if_neg other, bracketStep]
  split_ifs <;> rfl

theorem next_opening (opens : quote = '\'' ∨ quote = '"') (depth : Nat) :
    next ⟨depth, none, false⟩ quote = ⟨depth, some quote, false⟩ := by
  simp only [next, if_pos opens]

theorem next_plain (backslash : c ≠ '\\') (other : c ≠ quote) (depth : Nat) :
    next ⟨depth, some quote, false⟩ c = ⟨depth, some quote, false⟩ := by
  simp only [next, Bool.false_eq_true, if_false, if_neg backslash, if_neg other]

theorem next_closing (opens : quote = '\'' ∨ quote = '"') (depth : Nat) :
    next ⟨depth, some quote, false⟩ quote = ⟨depth, none, false⟩ := by
  have backslash : quote ≠ '\\' := by
    rcases opens with rfl | rfl <;> decide
  simp only [next, Bool.false_eq_true, if_false, if_neg backslash, if_true]

theorem behind_inQuotes (inside : InQuotes quote content) (depth : Nat) :
    behind ⟨depth, some quote, false⟩ content = ⟨depth, some quote, false⟩ := by
  induction inside with
  | nil => rfl
  | escaped c _ ih =>
    rw [behind_append, ih]
    simp [behind, next]
  | plain backslash other _ ih => rw [behind_concat, ih, next_plain backslash other]

/-- The scan of a text that ends outside of strings ends there too, with as many brackets open. -/
theorem behind_of_outside (ends : Outside text bare) :
    Nesting.outside.behind text = ⟨openBrackets bare, none, false⟩ := by
  induction ends with
  | nil => rfl
  | bare other _ ih =>
    rw [behind_concat, ih, next_bare other, openBrackets_concat]
  | string opens inside _ ih =>
    rw [behind_append, ih, behind_cons, next_opening opens, behind_concat, behind_inQuotes inside,
      next_closing opens]

end Nesting

/-- Where a text may end: outside of strings, in one, or in one behind a backslash. -/
inductive Ends : List Char → Nesting → Prop
  | outside {text bare : List Char} (before : Outside text bare) : Ends text ⟨openBrackets bare, none, false⟩
  | inQuotes {text bare content : List Char} {quote : Char} (opens : quote = '\'' ∨ quote = '"')
    (inside : InQuotes quote content) (before : Outside text bare) :
    Ends (text ++ quote :: content) ⟨openBrackets bare, some quote, false⟩
  | escaped {text bare content : List Char} {quote : Char} (opens : quote = '\'' ∨ quote = '"')
    (inside : InQuotes quote content) (before : Outside text bare) :
    Ends (text ++ quote :: (content ++ ['\\'])) ⟨openBrackets bare, some quote, true⟩

theorem Ends.next (ends : Ends text nesting) (c : Char) : Ends (text ++ [c]) (nesting.next c) := by
  cases ends with
  | outside before =>
    by_cases opens : c = '\'' ∨ c = '"'
    · rw [Nesting.next_opening opens]
      exact .inQuotes opens .nil before
    · rw [Nesting.next_bare opens, ← openBrackets_concat]
      exact .outside (.bare opens before)
  | @inQuotes text bare content quote opens inside before =>
    rw [List.append_assoc, List.cons_append]
    by_cases backslash : c = '\\'
    · subst backslash
      exact .escaped opens inside before
    · by_cases closes : c = quote
      · subst closes
        rw [Nesting.next_closing opens]
        exact .outside (.string opens inside before)
      · rw [Nesting.next_plain backslash closes]
        exact .inQuotes opens (.plain backslash closes inside) before
  | @escaped text bare content quote opens inside before =>
    have whole : text ++ quote :: (content ++ ['\\']) ++ [c] = text ++ quote :: (content ++ ['\\', c]) := by
      simp
    rw [whole]
    exact .inQuotes opens (.escaped c inside) before

theorem ends_behind (text : List Char) : Ends text (Nesting.outside.behind text) := by
  induction text using List.reverseRecOn with
  | nil => exact .outside .nil
  | append_singleton text c ih =>
    rw [Nesting.behind_concat]
    exact ih.next c

/-- The scan is outside of everything exactly behind the texts that a dividing comma may follow. -/
theorem behind_eq_outside_iff : Nesting.outside.behind text = .outside ↔ AtTop text := by
  constructor
  · intro top
    have ends := ends_behind text
    rw [top, Nesting.outside] at ends
    generalize depth : 0 = n at ends
    cases ends with
    | outside before => exact ⟨_, before, depth.symm⟩
  · rintro ⟨bare, before, closed⟩
    rw [Nesting.behind_of_outside before, closed]
    rfl

/-- What stands in front of a dividing comma and what stands behind it are divided apart. -/
theorem pieces_append_comma (top : AtTop front) (behind : List Char) :
    pieces (front ++ ',' :: behind) = pieces front ++ pieces behind := by
  have parts (nesting : Nesting) (text : List Char) (ends : nesting.behind text = .outside) :
      piecesFrom nesting (text ++ ',' :: behind) =
        ((piecesFrom nesting text).1, (piecesFrom nesting text).2 ++ pieces behind) := by
    induction text generalizing nesting with
    | nil =>
      obtain rfl : nesting = .outside := ends
      exact piecesFrom_comma behind
    | cons c text ih =>
      have later := ih (nesting.next c) ends
      by_cases cut : c = ',' ∧ nesting.atTop = true
      · rw [List.cons_append, piecesFrom, piecesFrom, if_pos cut, if_pos cut, later]
        rfl
      · rw [List.cons_append, piecesFrom_cons cut, piecesFrom_cons cut, later]
  simp only [pieces, parts .outside front (behind_eq_outside_iff.mpr top), List.cons_append]

theorem intercalate_append {before after : List (List Char)} (first : before ≠ []) (last : after ≠ []) :
    [','].intercalate (before ++ after) = [','].intercalate before ++ ',' :: [','].intercalate after := by
  induction before with
  | nil => exact absurd rfl first
  | cons piece before ih =>
    cases before with
    | nil => simp [List.intercalate_cons_of_ne_nil last]
    | cons next before =>
      have rest := ih (by simp)
      rw [List.cons_append] at rest
      rw [List.cons_append, List.cons_append, List.intercalate_cons_cons, rest, List.intercalate_cons_cons]
      simp only [List.append_assoc]

/-- Nothing is open where a divided list goes on with another piece. -/
theorem Divided.behind_intercalate {before after : List (List Char)} (divided : Divided (before ++ after))
    (first : before ≠ []) (last : after ≠ []) : Nesting.outside.behind ([','].intercalate before) = .outside := by
  induction before with
  | nil => exact absurd rfl first
  | cons piece before ih =>
    cases before with
    | nil =>
      obtain ⟨next, after, rfl⟩ := List.exists_cons_of_ne_nil last
      cases divided with
      | more _ ends _ => rwa [List.intercalate_singleton]
    | cons next before =>
      cases divided with
      | more _ ends rest =>
        have comma : Nesting.outside.behind [','] = .outside := by decide
        rw [List.intercalate_cons_cons, Nesting.behind_append, Nesting.behind_append, ends, comma]
        exact ih rest (by simp)

theorem intercalate_pieces (raw : List Char) : [','].intercalate (pieces raw) = raw :=
  (pieces_eq_iff.mp (Eq.refl (pieces raw))).2.symm

/-- The pieces of a list join to it; a comma of it stands between two of them exactly if it divides; and what
stands on the two sides of such a comma has its own pieces, also when blank ones are left out. -/
theorem pieces_at_dividing_commas (raw : List Char) :
    [','].intercalate (pieces raw) = raw ∧
      (∀ front behind : List Char,
        (∃ before after, before ≠ [] ∧ after ≠ [] ∧ pieces raw = before ++ after ∧
          [','].intercalate before = front ∧ [','].intercalate after = behind) ↔
        raw = front ++ ',' :: behind ∧ AtTop front) ∧
      (AtTop raw → ∀ behind : List Char,
        pieces (raw ++ ',' :: behind) = pieces raw ++ pieces behind ∧
          split (raw ++ ',' :: behind) = split raw ++ split behind) := by
  refine ⟨intercalate_pieces raw, fun front behind => ⟨?_, ?_⟩, fun top behind => ?_⟩
  · rintro ⟨before, after, first, last, found, rfl, rfl⟩
    obtain ⟨divided, whole⟩ := pieces_eq_iff.mp found
    exact ⟨whole.trans (intercalate_append first last),
      behind_eq_outside_iff.mp (divided.behind_intercalate first last)⟩
  · rintro ⟨rfl, top⟩
    exact ⟨pieces front, pieces behind, List.cons_ne_nil _ _, List.cons_ne_nil _ _,
      pieces_append_comma top behind, intercalate_pieces front, intercalate_pieces behind⟩
  · have parts := pieces_append_comma top behind
    refine ⟨parts, ?_⟩
    rw [split, parts, List.filter_append]
    rfl

/-- A comma in a string and one in a bracket divide nothing, and a bracket that closes nothing does not count,
so the comma behind the text divides. -/
theorem pieces_at_dividing_commas_string :
    AtTop "$a = ']\\',(', $b = [1, 2])".toList ∧
      pieces ("$a = ']\\',(', $b = [1, 2])".toList ++ ',' :: " $c".toList) =
        ["$a = ']\\',('".toList, " $b = [1, 2])".toList, " $c".toList] := by
  have top : AtTop "$a = ']\\',(', $b = [1, 2])".toList := behind_eq_outside_iff.mp (by decide +kernel)
  have parts := ((pieces_at_dividing_commas _).2.2 top " $c".toList).1
  refine ⟨top, parts.trans ?_⟩
  decide +kernel

end FusionAtlas.ParameterList
