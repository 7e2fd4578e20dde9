import FusionAtlas.Proofs.Percent
import FusionAtlas.Url
import Mathlib.Data.List.Basic

/-!
The ends of a url and its scheme. Nothing is trimmed from a url that starts with a scheme and does not end
in a space or a control character, and the scheme is read back from it.
-/

set_option autoImplicit false
set_option relaxedAutoImplicit false

namespace FusionAtlas.Url

variable {scheme text rest : List Char} {c : Char}

theorem isIgnored_of_inner (inner : 0x20 < c.toNat) : isIgnored c = false := by
  simp only [isIgnored, Bool.or_eq_false_iff, beq_eq_false_iff_ne]
  refine ⟨⟨?_, ?_⟩, ?_⟩ <;> rintro rfl <;> revert inner <;> decide

theorem withoutIgnored_of_inner (inner : ∀ c ∈ text, 0x20 < c.toNat) :
    withoutIgnored text = text := by
  refine List.filter_eq_self.mpr fun c member => ?_
  rw [isIgnored_of_inner (inner c member), Bool.not_false]

theorem dropWhile_isIgnored_of_inner (inner : ∀ c ∈ text, 0x20 < c.toNat) :
    text.dropWhile isIgnored = text := by
  refine List.dropWhile_eq_self_iff.mpr fun bound => ?_
  rw [isIgnored_of_inner (inner _ (List.getElem_mem bound))]
  decide

section Ends

/-- The last character of a text is neither a space nor a control character. -/
def EndsInside (text : List Char) : Prop := ∀ c ∈ text.getLast?, 0x20 < c.toNat

/-- Nothing is trimmed between ends that are neither spaces nor control characters. -/
theorem trimmed_of_ends (first : ∀ c ∈ text.head?, 0x20 < c.toNat) (last : EndsInside text) :
    trimmed text = text := by
  have kept (l : List Char) (start : ∀ c ∈ l.head?, 0x20 < c.toNat) :
      l.dropWhile (fun c => c.toNat ≤ 0x20) = l := by
    cases l with
    | nil => rfl
    | cons c l =>
      have inner := start c rfl
      rw [List.dropWhile_cons_of_neg]
      simpa using inner
  rw [trimmed, Text.dropEndWhile, kept text first, kept text.reverse (by rwa [List.head?_reverse]),
    List.reverse_reverse]

theorem endsInside_trimmed (text : List Char) : EndsInside (trimmed text) := by
  intro c last
  rw [trimmed, Text.dropEndWhile, List.getLast?_reverse] at last
  have outer := List.head?_dropWhile_not (fun c : Char => decide (c.toNat ≤ 0x20))
    (text.dropWhile fun c => decide (c.toNat ≤ 0x20)).reverse
  rw [Option.mem_def.mp last] at outer
  simpa using outer

theorem endsInside_of_inner (inner : ∀ c ∈ text, 0x20 < c.toNat) : EndsInside text :=
  fun c last => inner c (List.mem_of_getLast? last)

end Ends

section Scheme

/-- The characters of schemes. -/
def standsInScheme (c : Char) : Bool := Text.isAsciiAlphanumeric c || c == '+' || c == '-' || c == '.'

/-- A scheme in lower case. -/
def IsScheme (scheme : List Char) : Prop :=
  (∃ letter more, scheme = letter :: more ∧ Text.isAsciiLetter letter = true) ∧
    ∀ c ∈ scheme, standsInScheme c = true ∧ c.toLower = c

theorem standsInScheme_spec (stands : standsInScheme c = true) :
    0x20 < c.toNat ∧ c ≠ ':' ∧ standsInScheme c.toLower = true ∧ c.toLower.toLower = c.toLower := by
  have ascii : c.toNat < 0x80 := by
    simp only [standsInScheme, Text.isAsciiAlphanumeric, Bool.or_eq_true, beq_iff_eq] at stands
    rcases stands with (((alpha | digit) | rfl) | rfl) | rfl
    · exact Text.toNat_of_isAlpha alpha
    · have most := (Char.isDigit_iff_toNat.mp digit).2
      have last : '9'.toNat = 0x39 := rfl
      omega
    all_goals decide
  exact Text.forall_ascii (p := fun c => standsInScheme c = true → 0x20 < c.toNat ∧ c ≠ ':' ∧
    standsInScheme c.toLower = true ∧ c.toLower.toLower = c.toLower) (by decide +kernel) ascii stands

/-- A scheme is read back. -/
theorem scheme?_append (named : IsScheme scheme) (rest : List Char) :
    scheme? (scheme ++ ':' :: rest) = some (scheme, rest) := by
  obtain ⟨⟨letter, more, listed, alpha⟩, characters⟩ := named
  have before : ∀ c ∈ scheme, (c != ':') = true :=
    fun c member => bne_iff_ne.mpr (standsInScheme_spec (characters c member).1).2.1
  have written : (scheme ++ ':' :: rest).takeWhile (· != ':') = scheme := by
    rw [List.takeWhile_append_of_pos before, List.takeWhile_cons_of_neg (by decide), List.append_nil]
  have whole : withoutIgnored scheme = scheme :=
    withoutIgnored_of_inner fun c member => (standsInScheme_spec (characters c member).1).1
  have valid : scheme.all (fun c => Text.isAsciiAlphanumeric c || c == '+' || c == '-' || c == '.') =
      true := List.all_eq_true.mpr fun c member => (characters c member).1
  have low : scheme.map Char.toLower = scheme := by
    conv => rhs; rw [← List.map_id scheme]
    exact List.map_congr_left fun c member => (characters c member).2
  rw [scheme?, written, whole, List.drop_left]
  subst listed
  simp only [alpha, valid, low, Bool.and_self, if_true]

/-- What is read as a scheme is one. -/
theorem scheme?_spec (read : scheme? text = some (scheme, rest)) :
    IsScheme scheme ∧ ∃ written, text = written ++ ':' :: rest := by
  unfold scheme? at read
  simp only at read
  split at read
  · rename_i letter more mark behind shown split
    split at read
    · rename_i valid
      obtain ⟨rfl, rfl⟩ := Prod.mk.inj (Option.some.inj read)
      rw [Bool.and_eq_true, List.all_eq_true] at valid
      have low : ∀ c ∈ letter :: more, Text.isAsciiLetter c = true → Text.isAsciiLetter c.toLower = true := by
        intro c _ alpha
        exact Text.forall_ascii (p := fun c => Text.isAsciiLetter c = true →
          Text.isAsciiLetter c.toLower = true) (by decide +kernel) (Text.toNat_of_isAlpha alpha) alpha
      refine ⟨⟨⟨letter.toLower, more.map Char.toLower, ?_, ?_⟩, ?_⟩, text.takeWhile (· != ':'), ?_⟩
      · rw [shown, List.map_cons]
      · exact low letter (List.mem_cons_self ..) valid.1
      · intro c member
        obtain ⟨d, listed, rfl⟩ := List.mem_map.mp member
        obtain ⟨-, -, stands, low⟩ := standsInScheme_spec (valid.2 d listed)
        exact ⟨stands, low⟩
      · rw [Text.drop_length_takeWhile] at split
        have first := List.head?_dropWhile_not (· != ':') text
        rw [split] at first
        have colon : mark = ':' := by simpa using first
        have whole := (List.takeWhile_append_dropWhile (p := (· != ':')) (l := text)).symm
        rw [split, colon] at whole
        exact whole
    · cases read
  · cases read

theorem isScheme_file : IsScheme "file".toList :=
  ⟨⟨'f', "ile".toList, rfl, by decide⟩, by decide⟩

/-- Behind a scheme, a text is read as the scheme is treated. -/
theorem parse?_append (named : IsScheme scheme) (ends : EndsInside rest) :
    parse? (scheme ++ ':' :: rest) =
      if schemeClass scheme = .file then file? rest
      else other? scheme (schemeClass scheme) (withoutIgnored rest) := by
  have whole : trimmed (scheme ++ ':' :: rest) = scheme ++ ':' :: rest := by
    refine trimmed_of_ends ?_ fun c last => ?_
    · obtain ⟨⟨letter, front, listed, -⟩, characters⟩ := named
      intro c opens
      rw [listed] at opens
      obtain rfl := Option.some.inj opens
      exact (standsInScheme_spec (characters letter (by rw [listed]; exact List.mem_cons_self ..)).1).1
    · rw [List.getLast?_append_of_ne_nil _ (List.cons_ne_nil _ _)] at last
      cases rest with
      | nil =>
        obtain rfl := Option.some.inj last
        decide
      | cons d rest => exact ends c (by rwa [List.getLast?_cons_of_ne_nil (List.cons_ne_nil _ _)] at last)
  rw [parse?, whole, scheme?_append named]
  cases cls : schemeClass scheme <;> simp [cls]

end Scheme

end FusionAtlas.Url
