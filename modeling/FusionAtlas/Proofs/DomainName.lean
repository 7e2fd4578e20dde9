import FusionAtlas.Proofs.ComposedText
import FusionAtlas.Url.DomainName
import Mathlib.Data.List.Forall2

/-!
Domain names in ASCII. What a name is written as has no capitals and is written as itself again. Main
statements: `Url.DomainName.isLowered_ascii?` and `Url.DomainName.ascii?_of_isLowered`.
-/

set_option autoImplicit false
set_option relaxedAutoImplicit false

namespace FusionAtlas

namespace Text

/-- What is read item by item corresponds to the items. -/
theorem forall₂_of_mapM {α β : Type} {f : α → Option β} {items : List α} {read : List β}
    (found : items.mapM f = some read) : List.Forall₂ (fun a b => f a = some b) items read := by
  induction items generalizing read with
  | nil =>
    rw [List.mapM_nil] at found
    obtain rfl := Option.some.inj found
    exact .nil
  | cons a items ih =>
    simp only [List.mapM_cons, Option.bind_eq_bind, Option.bind_eq_some_iff, Option.pure_def] at found
    obtain ⟨b, here, rest, behind, joined⟩ := found
    obtain rfl := Option.some.inj joined
    exact .cons here (ih behind)

theorem exists_of_mem_mapM {α β : Type} {f : α → Option β} {items : List α} {read : List β} {b : β}
    (found : items.mapM f = some read) (member : b ∈ read) : ∃ a ∈ items, f a = some b := by
  have pairs := forall₂_of_mapM found
  clear found
  induction pairs with
  | nil => cases member
  | cons here _ ih =>
    rcases List.mem_cons.mp member with rfl | inside
    · exact ⟨_, List.mem_cons_self .., here⟩
    · obtain ⟨a, listed, read⟩ := ih inside
      exact ⟨a, List.mem_cons_of_mem _ listed, read⟩

variable {mark c : Char} {part text : List Char}

theorem mem_intercalate_of_mem {parts : List (List Char)} (listed : part ∈ parts) (member : c ∈ part) :
    c ∈ [mark].intercalate parts := by
  induction parts with
  | nil => cases listed
  | cons first parts ih =>
    cases parts with
    | nil =>
      rw [List.mem_singleton.mp listed] at member
      rwa [List.intercalate_singleton]
    | cons second parts =>
      rw [List.intercalate_cons_cons, List.append_assoc, List.mem_append]
      rcases List.mem_cons.mp listed with rfl | behind
      · exact Or.inl member
      · exact Or.inr (List.mem_append_right _ (ih behind))

/-- What stands in a part between marks stands in the text. -/
theorem mem_of_mem_splitOn (listed : part ∈ text.splitOn mark) (member : c ∈ part) : c ∈ text := by
  have joined : c ∈ [mark].intercalate (text.splitOn mark) := mem_intercalate_of_mem listed member
  rwa [List.intercalate_splitOn] at joined

/-- What stands between marks is a mark or stands in one of the parts. -/
theorem mem_intercalate {parts : List (List Char)} (member : c ∈ [mark].intercalate parts) :
    c = mark ∨ ∃ part ∈ parts, c ∈ part := by
  induction parts with
  | nil => cases member
  | cons first parts ih =>
    cases parts with
    | nil =>
      rw [List.intercalate_singleton] at member
      exact Or.inr ⟨first, List.mem_singleton_self first, member⟩
    | cons second parts =>
      rw [List.intercalate_cons_cons, List.append_assoc, List.mem_append, List.mem_append,
        List.mem_singleton] at member
      rcases member with here | rfl | behind
      · exact Or.inr ⟨first, List.mem_cons_self .., here⟩
      · exact Or.inl rfl
      · rcases ih behind with same | ⟨part, listed, inside⟩
        · exact Or.inl same
        · exact Or.inr ⟨part, List.mem_cons_of_mem first listed, inside⟩

end Text

namespace Url.DomainName

open Text

/-- A name in characters of ASCII other than capitals. -/
def IsLowered (name : List Char) : Prop := ∀ c ∈ name, c.toNat < 0x80 ∧ c.isUpper = false

instance (name : List Char) : Decidable (IsLowered name) :=
  inferInstanceAs (Decidable (∀ c ∈ name, _))

variable {c d : Char} {text name : List Char}

set_option maxRecDepth 4000 in
/-- Nothing is replaced by a capital of ASCII. -/
private theorem isUpper_of_replacement? (found : replacement? c = some text) (member : d ∈ text) :
    d.isUpper = false := by
  have all : ((replacementRows.map Prod.snd).map String.toList).all
      (fun word => word.all fun d => !d.isUpper) = true := by
    apply Spells.transfer (p := fun texts => List.all texts _)
    · unfold replacementRows
      repeat apply Spells.cons
      exact .nil
    · decide +kernel
  simp only [replacement?, Option.bind_eq_bind, Option.bind_eq_some_iff] at found
  obtain ⟨row, last, place⟩ := found
  have listed : row ∈ replacementRows :=
    (List.takeWhile_sublist _).mem (List.mem_of_getLast? last)
  have inside := mem_of_mem_splitOn (List.mem_of_getElem? place) member
  have words := List.all_eq_true.mp all row.2.toList
    (List.mem_map_of_mem (List.mem_map_of_mem listed))
  simpa using List.all_eq_true.mp words d inside

/-- No character of a name is written as a capital of ASCII. -/
theorem isUpper_of_written? (found : written? c = some text) (member : d ∈ text) :
    d.isUpper = false := by
  unfold written? at found
  split at found
  · rename_i ascii
    obtain rfl := Option.some.inj found
    rw [List.mem_singleton.mp member]
    exact isUpper_toLower ascii
  · rename_i beyond
    split at found
    · obtain rfl := Option.some.inj found
      cases member
    · split at found
      · rename_i replaced
        obtain rfl := Option.some.inj found
        exact isUpper_of_replacement? replaced member
      · split at found
        · obtain rfl := Option.some.inj found
          rw [List.mem_singleton.mp member]
          exact isUpper_of_lt (by omega)
        · split at found
          · cases found
          · obtain rfl := Option.some.inj found
            exact isUpper_of_mem_lowercase member

theorem written?_of_lowered (ascii : c.toNat < 0x80) (low : c.isUpper = false) :
    written? c = some [c] := by
  have kept : c.isUpper = false → c.toLower = c :=
    forall_ascii (p := fun c => c.isUpper = false → c.toLower = c) (by decide +kernel) ascii
  rw [written?, if_pos ascii, kept low]

end Url.DomainName

namespace Text.Punycode

open Url.DomainName (IsLowered)

theorem isLowered_digit {n : Nat} (bound : n < 36) : IsLowered [digit n] := by
  have all : ∀ n : Fin 36, IsLowered [digit n] := by decide +kernel
  exact all ⟨n, bound⟩

theorem isLowered_digits (bias place n : Nat) : IsLowered (digits bias place n) := by
  have bound : threshold place bias ≤ 26 := by
    rw [threshold]
    omega
  unfold digits
  simp only
  split
  · exact isLowered_digit (by omega)
  · have small : (n - threshold place bias) % (36 - threshold place bias) < 36 - threshold place bias :=
      Nat.mod_lt _ (by omega)
    have first := isLowered_digit (n := threshold place bias +
      (n - threshold place bias) % (36 - threshold place bias)) (by omega)
    have others := isLowered_digits bias (place + 1)
      ((n - threshold place bias) / (36 - threshold place bias))
    intro c member
    rcases List.mem_cons.mp member with here | behind
    · exact first c (List.mem_singleton.mpr here)
    · exact others c behind
termination_by n
decreasing_by
  have positive := threshold_pos place bias
  exact Nat.lt_of_le_of_lt (Nat.div_le_self _ _) (by omega)

/-- Writing appends digits. -/
theorem isLowered_pass {w : Writing} (basic code : Nat) (c : Char) (before : IsLowered w.output) :
    IsLowered (w.pass basic code c).output := by
  unfold Writing.pass
  split
  · exact before
  · split
    · intro d member
      rcases List.mem_append.mp member with old | new
      · exact before d old
      · exact isLowered_digits w.bias 0 w.count d new
    · exact before

theorem isLowered_writeCodes (text : List Char) (basic next : Nat) {w : Writing} (codes : List Nat)
    (before : IsLowered w.output) : IsLowered (writeCodes text basic next w codes) := by
  have passed (code : Nat) (rest : List Char) (w : Writing) (before : IsLowered w.output) :
      IsLowered (rest.foldl (Writing.pass basic code) w).output := by
    induction rest generalizing w with
    | nil => exact before
    | cons c rest ih => exact ih _ (isLowered_pass basic code c before)
  induction codes generalizing next w with
  | nil => exact before
  | cons code codes ih => exact ih (code + 1) (passed code text _ before)

/-- Text without capitals of ASCII is written in ASCII without capitals. -/
theorem isLowered_encode {text : List Char} (low : ∀ c ∈ text, c.isUpper = false) :
    IsLowered (encode text) := by
  intro c member
  rcases List.mem_append.mp member with basic | coded
  · have kept : c ∈ text.filter isBasic ∨ c = '-' := by
      split at basic
      · cases basic
      · simpa using basic
    rcases kept with listed | rfl
    · obtain ⟨inside, ascii⟩ := List.mem_filter.mp listed
      exact ⟨by simpa [isBasic] using ascii, low c inside⟩
    · decide
  · refine isLowered_writeCodes text _ _ _ (fun d written => ?_) c coded
    cases written

end Text.Punycode

namespace Url.DomainName

open Text

variable {label name written : List Char} {found : Label}

theorem isLowered_of_all_isBasic (basic : label.all Punycode.isBasic = true)
    (low : ∀ c ∈ label, c.isUpper = false) : IsLowered label := by
  intro c member
  exact ⟨by simpa [Punycode.isBasic] using List.all_eq_true.mp basic c member, low c member⟩

/-- A label is written in ASCII as itself, or as its code. -/
theorem isLowered_read? (low : ∀ c ∈ label, c.isUpper = false) (read : Label.read? label = some found) :
    IsLowered found.ascii := by
  unfold Label.read? at read
  split at read
  · split at read
    · cases read
    · rename_i basic
      simp only [Bool.or_eq_true, not_or, Bool.not_eq_true', Bool.not_eq_false] at basic
      simp only [Option.bind_eq_bind, Option.bind_eq_some_iff] at read
      obtain ⟨text, -, shown⟩ := read
      split at shown
      · obtain rfl := Option.some.inj shown
        exact isLowered_of_all_isBasic basic.1.1 low
      · cases shown
  · split at read
    · rename_i basic
      obtain rfl := Option.some.inj read
      exact isLowered_of_all_isBasic basic low
    · split at read
      · obtain rfl := Option.some.inj read
        have opening : IsLowered codedOpening := by decide
        intro c member
        rcases List.mem_append.mp member with start | coded
        · exact opening c start
        · exact Punycode.isLowered_encode low c coded
      · cases read

/-- A label of ASCII is written as it is. -/
theorem ascii_of_read? (ascii : ∀ c ∈ label, c.toNat < 0x80) (read : Label.read? label = some found) :
    found.ascii = label := by
  have basic : label.all Punycode.isBasic = true :=
    List.all_eq_true.mpr fun c member => by simpa [Punycode.isBasic] using ascii c member
  unfold Label.read? at read
  split at read
  · split at read
    · cases read
    · simp only [Option.bind_eq_bind, Option.bind_eq_some_iff] at read
      obtain ⟨text, -, shown⟩ := read
      split at shown
      · obtain rfl := Option.some.inj shown
        rfl
      · cases shown
  · rw [if_pos basic] at read
    obtain rfl := Option.some.inj read
    rfl

/-- The written form of a name, and the labels it is made of. -/
theorem exists_of_ascii? (found : ascii? name = some written) :
    ∃ characters labels, name.mapM written? = some characters ∧
      ((composed characters.flatten).splitOn '.').mapM Label.read? = some labels ∧
      written = ['.'].intercalate (labels.map Label.ascii) := by
  simp only [ascii?, Option.bind_eq_bind, Option.bind_eq_some_iff] at found
  obtain ⟨characters, each, labels, read, directions⟩ := found
  split at directions
  · exact ⟨characters, labels, each, read, (Option.some.inj directions).symm⟩
  · cases directions

/-- The written form of a name has no capitals. -/
theorem isLowered_ascii? (found : ascii? name = some written) : IsLowered written := by
  obtain ⟨characters, labels, each, read, rfl⟩ := exists_of_ascii? found
  have low : ∀ c ∈ composed characters.flatten, c.isUpper = false := by
    refine fun c member => isUpper_of_mem_composed (fun d inside => ?_) member
    obtain ⟨text, listed, here⟩ := List.mem_flatten.mp inside
    obtain ⟨e, -, spelled⟩ := exists_of_mem_mapM each listed
    exact isUpper_of_written? spelled here
  intro c member
  rcases mem_intercalate member with rfl | ⟨part, listed, inside⟩
  · decide
  · obtain ⟨label, shown, rfl⟩ := List.mem_map.mp listed
    obtain ⟨text, divided, here⟩ := exists_of_mem_mapM read shown
    exact isLowered_read? (fun d held => low d (mem_of_mem_splitOn divided held)) here c inside

/-- A name in ASCII without capitals is written as itself, if it is a name at all. -/
theorem ascii?_of_isLowered (lowered : IsLowered name) (found : ascii? name = some written) :
    written = name := by
  obtain ⟨characters, labels, each, read, rfl⟩ := exists_of_ascii? found
  have joined : characters.flatten = name := by
    have pairs := forall₂_of_mapM each
    clear each read found
    induction pairs with
    | nil => rfl
    | cons here _ ih =>
      obtain ⟨first, others⟩ := List.forall_mem_cons.mp lowered
      rw [written?_of_lowered first.1 first.2] at here
      rw [List.flatten_cons, ih others, ← Option.some.inj here, List.singleton_append]
  rw [joined, composed_of_ascii fun c member => (lowered c member).1] at read
  have labelled : labels.map Label.ascii = name.splitOn '.' := by
    have ascii : ∀ part ∈ name.splitOn '.', ∀ c ∈ part, c.toNat < 0x80 :=
      fun part listed c member => (lowered c (mem_of_mem_splitOn listed member)).1
    have pairs := forall₂_of_mapM read
    clear read found
    generalize name.splitOn '.' = parts at ascii pairs
    induction pairs with
    | nil => rfl
    | cons here _ ih =>
      obtain ⟨first, others⟩ := List.forall_mem_cons.mp ascii
      rw [List.map_cons, ascii_of_read? first here, ih others]
  rw [labelled, List.intercalate_splitOn]

end Url.DomainName

end FusionAtlas
