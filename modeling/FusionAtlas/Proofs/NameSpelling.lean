import FusionAtlas.HostCode.ClassName

/-!
Spellings of a name. Behind any number of backslashes stand its parts, each but the first one behind a
backslash that may be doubled. All spellings are read as the parts with single backslashes between them. Main
statement: `ClassName.Spelling.collapse_text`.
-/

set_option autoImplicit false
set_option relaxedAutoImplicit false

namespace FusionAtlas.ClassName

variable {part rest : List Char} {c : Char} {others : List (Bool × List Char)}

/-- A part of a name has some characters, and no backslash among them. -/
def IsPart (part : List Char) : Prop := part ≠ [] ∧ '\\' ∉ part

instance : DecidablePred IsPart := fun _ => inferInstanceAs (Decidable (_ ∧ _))

/-- What stands between two parts. -/
def separator (doubled : Bool) : List Char := if doubled then ['\\', '\\'] else ['\\']

/-- Parts behind another one, each with its separator. -/
def separated (others : List (Bool × List Char)) : List Char :=
  others.flatMap fun other => separator other.1 ++ other.2

/-- A way to write a name: how many backslashes lead, the first part, and the others, each with whether its
separator is doubled. -/
structure Spelling where
  leading : Nat
  first : List Char
  others : List (Bool × List Char)
  isPart : ∀ part ∈ first :: others.map Prod.snd, IsPart part := by decide

namespace Spelling

/-- The parts of the name, the first one in front. -/
def parts (name : Spelling) : List (List Char) := name.first :: name.others.map Prod.snd

/-- The name as it is written. -/
def text (name : Spelling) : List Char :=
  List.replicate name.leading '\\' ++ (name.first ++ separated name.others)

end Spelling

/-- Both are written the same, or both spell the same parts. -/
def SameName (a b : List Char) : Prop :=
  a = b ∨ ∃ s t : Spelling, s.text = a ∧ t.text = b ∧ s.parts = t.parts

theorem separator_eq_replicate (doubled : Bool) :
    separator doubled = List.replicate (doubled.toNat + 1) '\\' := by
  cases doubled <;> rfl

theorem IsPart.head (isPart : IsPart part) (rest : List Char) : (part ++ rest).head? ≠ some '\\' := by
  obtain ⟨written, backslash⟩ := isPart
  obtain ⟨c, part, rfl⟩ := List.exists_cons_of_ne_nil written
  intro leads
  obtain rfl : c = '\\' := Option.some.inj leads
  exact backslash (List.mem_cons_self ..)

theorem mergeDoubled_cons (other : c ≠ '\\') (rest : List Char) :
    mergeDoubled (c :: rest) = c :: mergeDoubled rest := by
  rw [mergeDoubled]
  exact fun _ backslash => absurd backslash other

/-- A backslash with no other behind it stays. -/
theorem mergeDoubled_single (next : rest.head? ≠ some '\\') :
    mergeDoubled ('\\' :: rest) = '\\' :: mergeDoubled rest := by
  rw [mergeDoubled]
  rintro behind - rfl
  exact next rfl

/-- One or two backslashes make one, with no other behind them. -/
theorem mergeDoubled_replicate {n : Nat} (few : n ≤ 1) (next : rest.head? ≠ some '\\') :
    mergeDoubled (List.replicate (n + 1) '\\' ++ rest) = '\\' :: mergeDoubled rest := by
  rcases Nat.le_one_iff_eq_zero_or_eq_one.mp few with rfl | rfl
  · exact mergeDoubled_single next
  · rfl

theorem mergeDoubled_append (plain : '\\' ∉ part) (rest : List Char) :
    mergeDoubled (part ++ rest) = part ++ mergeDoubled rest := by
  induction part with
  | nil => rfl
  | cons c part ih =>
    rw [List.mem_cons, not_or] at plain
    obtain ⟨other, plain⟩ := plain
    rw [List.cons_append, mergeDoubled_cons (Ne.symm other), ih plain, List.cons_append]

theorem mergeDoubled_separated (isPart : ∀ part ∈ others.map Prod.snd, IsPart part) :
    mergeDoubled (separated others) = (others.map Prod.snd).flatMap ('\\' :: ·) := by
  induction others with
  | nil => rfl
  | cons other others ih =>
    obtain ⟨first, rest⟩ := List.forall_mem_cons.mp isPart
    have step : separated (other :: others) =
        separator other.1 ++ (other.2 ++ separated others) := by
      rw [separated, List.flatMap_cons, List.append_assoc]
      rfl
    rw [step, separator_eq_replicate, mergeDoubled_replicate (Bool.toNat_le _) (first.head _),
      mergeDoubled_append first.2, ih rest]
    rfl

theorem dropLeading_of_head (start : rest.head? ≠ some '\\') : dropLeading rest = rest := by
  cases rest with
  | nil => rfl
  | cons c rest =>
    have other : c ≠ '\\' := fun backslash => start (congrArg some backslash)
    rw [dropLeading, List.dropWhile_cons_of_neg (by simpa using other)]

/-- A backslash in front changes nothing, whatever follows. -/
theorem collapse_backslash : ∀ rest : List Char, collapse ('\\' :: rest) = collapse rest
  | [] => rfl
  | c :: rest => by
    by_cases backslash : c = '\\'
    · subst backslash
      -- The two make one, which is dropped like the single one in front of the rest.
      exact (collapse_backslash rest).symm
    · rw [collapse, mergeDoubled_single (by simpa using backslash)]
      rfl

theorem collapse_replicate (n : Nat) (rest : List Char) :
    collapse (List.replicate n '\\' ++ rest) = collapse rest := by
  induction n with
  | zero => rfl
  | succ n ih => rw [List.replicate_succ, List.cons_append, collapse_backslash, ih]

theorem intercalate_cons (part : List Char) (more : List (List Char)) :
    ['\\'].intercalate (part :: more) = part ++ more.flatMap ('\\' :: ·) := by
  induction more generalizing part with
  | nil => rw [List.intercalate_singleton, List.flatMap_nil, List.append_nil]
  | cons next more ih =>
    rw [List.intercalate_cons_cons, ih, List.flatMap_cons, List.append_assoc]
    rfl

namespace Spelling

theorem collapse_text (name : Spelling) : collapse name.text = ['\\'].intercalate name.parts := by
  obtain ⟨first, rest⟩ := List.forall_mem_cons.mp name.isPart
  have start : (name.first ++ (name.others.map Prod.snd).flatMap ('\\' :: ·)).head? ≠ some '\\' :=
    first.head _
  rw [text, collapse_replicate, collapse, mergeDoubled_append first.2, mergeDoubled_separated rest,
    dropLeading_of_head start, parts, intercalate_cons]

end Spelling

theorem SameName.collapse_eq {a b : List Char} (same : SameName a b) : collapse a = collapse b := by
  rcases same with rfl | ⟨s, t, rfl, rfl, parts⟩
  · rfl
  · rw [s.collapse_text, t.collapse_text, parts]

end FusionAtlas.ClassName
