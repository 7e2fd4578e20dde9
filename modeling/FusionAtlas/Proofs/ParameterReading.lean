import FusionAtlas.Proofs.TopLevelCommas
import FusionAtlas.Proofs.Trimming
import Mathlib.Data.List.Basic

/-!
What is read in a piece of a parameter list. The characters in front of a default value are words, marks and
blanks, so that a closing bracket behind them, with all that follows it, belongs to the default value. Main
statements: `ParameterList.exists_skips_default` and `ParameterList.readDefault?_bracket`.
-/

set_option autoImplicit false
set_option relaxedAutoImplicit false

namespace FusionAtlas.ParameterList

open FusionAtlas.Text (EndsSolid afterBlanks? afterOpening? isBlank isWord takeRun? trim trimEnd trimStart)

variable {text rest piece : List Char}

theorem dropAttributes_of_not_prefix (unopened : ¬ ['#', '['] <+: text) : dropAttributes text = text := by
  rw [dropAttributes]
  intro rest opened
  exact unopened ⟨rest, opened.symm⟩

theorem parseOne?_of_blank (blank : trim piece = []) : parseOne? piece = none := by
  have modifiers : dropModifiers piece.length [] = [] := by
    cases piece.length <;> rfl
  rw [parseOne?, blank, dropAttributes_of_not_prefix (by simp), modifiers]
  rfl

/-- Blank pieces need not be left out, as nothing is read in them. -/
theorem parse_eq_filterMap (raw : List Char) : parse raw = (pieces raw).filterMap parseOne? := by
  rw [parse, split, List.filterMap_filter]
  refine List.filterMap_congr fun piece _ => ?_
  by_cases blank : trim piece = []
  · simp [blank, parseOne?_of_blank blank]
  · simp [blank]

/-- Up to the rest, the text holds no closing square bracket. -/
def Skips (text rest : List Char) : Prop := ∃ front, text = front ++ rest ∧ ']' ∉ front

namespace Skips

theorem refl (text : List Char) : Skips text text := ⟨[], rfl, by simp⟩

theorem trans {middle : List Char} (first : Skips text middle) (second : Skips middle rest) :
    Skips text rest := by
  obtain ⟨front, rfl, free⟩ := first
  obtain ⟨more, rfl, moreFree⟩ := second
  exact ⟨front ++ more, by simp, by simp [free, moreFree]⟩

theorem length_le (skips : Skips text rest) : rest.length ≤ text.length := by
  obtain ⟨front, rfl, -⟩ := skips
  simp

theorem blanks (text : List Char) : Skips text (trimStart text) := by
  obtain ⟨blanks, whole, blank⟩ := Text.exists_eq_append_trimStart text
  exact ⟨blanks, whole, fun member => absurd (blank _ member) (by decide)⟩

theorem opening {opening : List Char} (free : ']' ∉ opening)
    (opens : afterOpening? opening text = some rest) : Skips text rest :=
  ⟨opening, Text.afterOpening?_eq_some opens, free⟩

/-- A mark that may be absent. -/
theorem mark {mark : List Char} (free : ']' ∉ mark) (text : List Char) :
    Skips text ((afterOpening? mark text).getD text) := by
  cases opens : afterOpening? mark text with
  | none => exact .refl text
  | some rest => exact .opening free opens

theorem afterBlanks (blanks : afterBlanks? text = some rest) : Skips text rest := by
  cases text with
  | nil => cases blanks
  | cons c text =>
    by_cases blank : isBlank c = true
    · have whole : trimStart (c :: text) = rest := by
        rw [afterBlanks?, if_pos blank, Option.some.injEq] at blanks
        rw [trimStart, List.dropWhile_cons_of_pos blank, ← trimStart, blanks]
      exact whole ▸ .blanks (c :: text)
    · rw [afterBlanks?, if_neg blank] at blanks
      cases blanks

theorem run {p : Char → Bool} {run : List Char} (free : p ']' = false)
    (taken : takeRun? p text = some (run, rest)) : Skips text rest := by
  rw [takeRun?] at taken
  cases found : text.takeWhile p with
  | nil => simp [found] at taken
  | cons c others =>
    simp only [found, Option.some.injEq, Prod.mk.injEq] at taken
    refine ⟨text.takeWhile p, by rw [← taken.2, List.takeWhile_append_dropWhile], fun member => ?_⟩
    have holds := List.mem_takeWhile_imp member
    rw [free] at holds
    cases holds

/-- What stands behind a closing bracket is not gone past. -/
theorem keeps {front behind : List Char} (skips : Skips (front ++ ']' :: behind) rest) :
    ∃ more, rest = more ++ ']' :: behind := by
  obtain ⟨gone, whole, free⟩ := skips
  rcases List.append_eq_append_iff.mp whole with ⟨more, rfl, behindWhole⟩ | ⟨more, rfl, restWhole⟩
  · cases more with
    | nil => exact ⟨[], by simpa using behindWhole.symm⟩
    | cons c more =>
      obtain ⟨rfl, -⟩ := List.cons.inj behindWhole
      simp at free
  · exact ⟨more, restWhole⟩

end Skips

theorem skips_takeMembers (fuel : Nat) (text : List Char) : Skips text (takeMembers fuel text).2 := by
  induction fuel generalizing text with
  | zero => exact .refl text
  | succ fuel ih =>
    unfold takeMembers
    split
    · next rest =>
      cases taken : takeRun? isTypeChar rest with
      | none => exact .refl _
      | some found =>
        obtain ⟨member, behind⟩ := found
        have ampersand : Skips ('&' :: rest) rest := ⟨['&'], rfl, by decide⟩
        exact ampersand.trans ((Skips.run (by decide) taken).trans (ih behind))
    · exact .refl text

theorem skips_takeType? {type : List Char} (taken : takeType? text = some (type, rest)) :
    Skips text rest := by
  simp only [takeType?, Option.bind_eq_bind, Option.bind_eq_some_iff, Option.pure_def, Option.some.injEq,
    Prod.mk.injEq] at taken
  obtain ⟨⟨first, behind⟩, run, gone, blanks, -, rfl⟩ := taken
  exact (Skips.run (by decide) run).trans ((skips_takeMembers _ behind).trans (.afterBlanks blanks))

theorem skips_afterModifier? (found : afterModifier? text = some rest) :
    Skips text rest ∧ rest.length < text.length := by
  obtain ⟨modifier, listed, opens⟩ := List.exists_of_findSome?_eq_some found
  obtain ⟨behind, opens, blanks⟩ := Option.bind_eq_some_iff.mp opens
  have words : ∀ modifier ∈ modifiers, ']' ∉ modifier.toList ∧ 0 < modifier.toList.length := by decide
  obtain ⟨free, written⟩ := words modifier listed
  have shorter := (Skips.afterBlanks blanks).length_le
  refine ⟨(Skips.opening free opens).trans (.afterBlanks blanks), ?_⟩
  rw [Text.afterOpening?_eq_some opens, List.length_append]
  omega

theorem skips_dropModifiers (fuel : Nat) (text : List Char) : Skips text (dropModifiers fuel text) := by
  induction fuel generalizing text with
  | zero => exact .refl text
  | succ fuel ih =>
    rw [dropModifiers]
    cases found : afterModifier? text with
    | none => exact .refl text
    | some rest => exact (skips_afterModifier? found).1.trans (ih rest)

/-- There are no more modifiers than characters. -/
theorem dropModifiers_of_le {fuel more : Nat} (enough : text.length ≤ fuel) (least : fuel ≤ more) :
    dropModifiers more text = dropModifiers fuel text := by
  induction fuel generalizing text more with
  | zero =>
    obtain rfl : text = [] := List.eq_nil_of_length_eq_zero (by omega)
    cases more <;> rfl
  | succ fuel ih =>
    obtain ⟨more, rfl⟩ : ∃ n, more = n + 1 := ⟨more - 1, by omega⟩
    rw [dropModifiers, dropModifiers]
    cases found : afterModifier? text with
    | none => rfl
    | some rest =>
      have shorter := (skips_afterModifier? found).2
      exact ih (by omega) (by omega)

/-- The marks of a parameter and the blanks behind them are gone past. -/
theorem skips_marks (marked : trimStart ((afterOpening? "...".toList
    ((afterOpening? ['&'] text).getD text)).getD ((afterOpening? ['&'] text).getD text)) = rest) :
    Skips text rest :=
  marked ▸ (Skips.mark (by decide) text).trans ((Skips.mark (by decide) _).trans (.blanks _))

/-- Reading a parameter comes to its default value without going past a closing bracket. -/
theorem exists_skips_default {parameter : Parameter} (read : parseOne? piece = some parameter) :
    ∃ rest, Skips (dropAttributes (trim piece)) rest ∧
      readDefault? rest = some (parameter.default.map String.toList) := by
  have modifiers := skips_dropModifiers piece.length (dropAttributes (trim piece))
  rw [parseOne?] at read
  generalize dropModifiers piece.length (dropAttributes (trim piece)) = text at read modifiers
  simp only [Option.bind_eq_bind] at read
  split at read
  · next behind atName =>
    have dollar : Skips ('$' :: behind) behind := ⟨['$'], rfl, by decide⟩
    have named : Skips text behind := by
      cases typed : takeType? text with
      | none =>
        simp only [typed] at atName
        exact (skips_marks atName).trans dollar
      | some found =>
        simp only [typed] at atName
        exact (skips_takeType? typed).trans ((skips_marks atName).trans dollar)
    simp only [Option.bind_eq_some_iff, Option.pure_def, Option.some.injEq] at read
    obtain ⟨⟨name, rest⟩, run, default, found, rfl⟩ := read
    refine ⟨rest, modifiers.trans (named.trans (.run (by decide) run)), ?_⟩
    simpa [Function.comp_def] using found
  · cases read

theorem readDefault?_eq_some {default : Option (List Char)} (read : readDefault? rest = some default) :
    rest = [] ∧ default = none ∨ ∃ value, trimStart rest = '=' :: value ∧ default = some (trim value) := by
  cases rest with
  | nil => exact Or.inl ⟨rfl, (Option.some.inj read).symm⟩
  | cons c rest =>
    simp only [readDefault?] at read
    split at read
    · next value equals =>
      split at read
      · cases read
      · exact Or.inr ⟨value, equals, (Option.some.inj read).symm⟩
    · cases read

/-- A default value is no longer than what stands behind the name. -/
theorem length_le_of_readDefault? {value : List Char} (read : readDefault? rest = some (some value)) :
    value.length ≤ rest.length := by
  rcases readDefault?_eq_some read with ⟨-, none⟩ | ⟨assigned, equals, given⟩
  · cases none
  · obtain rfl := Option.some.inj given
    have behind := Text.length_trimStart_le rest
    have trimmed := Text.length_trim_le assigned
    rw [equals, List.length_cons] at behind
    omega

/-- A closing bracket behind the name, with all that stands behind it, is read as a part of the default
value. -/
theorem readDefault?_bracket {front behind : List Char} {default : Option (List Char)}
    (solid : EndsSolid behind) (read : readDefault? (front ++ ']' :: behind) = some default) :
    ∃ value, default = some value ∧ behind.length < value.length := by
  rcases readDefault?_eq_some read with ⟨empty, -⟩ | ⟨value, equals, rfl⟩
  · simp at empty
  · obtain ⟨more, assigned⟩ := (Skips.blanks (front ++ ']' :: behind)).keeps
    rw [equals] at assigned
    obtain ⟨more, rfl⟩ : ∃ others, value = others ++ ']' :: behind := by
      cases more with
      | nil => simp at assigned
      | cons c more => exact ⟨more, (List.cons.inj assigned).2⟩
    obtain ⟨kept, trimmed⟩ := (Skips.blanks (more ++ ']' :: behind)).keeps
    have ends : EndsSolid (kept ++ ']' :: behind) := (solid.append [']']).append kept
    refine ⟨_, rfl, ?_⟩
    rw [trim, trimmed, ends.trimEnd, List.length_append, List.length_cons]
    omega

end FusionAtlas.ParameterList
