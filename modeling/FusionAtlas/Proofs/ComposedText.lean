import FusionAtlas.Proofs.Percent
import FusionAtlas.Text.Composition
import FusionAtlas.Text.Lowercase

/-!
ASCII in composed text and in lower case. Taking apart and joining characters makes no ASCII capital that
was not there, and leaves text of ASCII as it is; no character has an ASCII capital for its lower case.
-/

set_option autoImplicit false
set_option relaxedAutoImplicit false

namespace FusionAtlas.Text

/-- Words by their characters. The characters of a literal are found by unfolding it, which is what this
relation is for: to compute them from the bytes of the literal takes much longer. -/
inductive Spells : List String → List (List Char) → Prop
  | nil : Spells [] []
  | cons {characters : List Char} {words : List String} {texts : List (List Char)} :
      Spells words texts → Spells (String.ofList characters :: words) (characters :: texts)

theorem Spells.map_toList {words : List String} {texts : List (List Char)} (spelled : Spells words texts) :
    words.map String.toList = texts := by
  induction spelled with
  | nil => rfl
  | cons spelled ih => rw [List.map_cons, String.toList_ofList, ih]

/-- A fact about the characters of words is one about how they are spelled. -/
theorem Spells.transfer {words : List String} {texts : List (List Char)} {p : List (List Char) → Bool}
    (spelled : Spells words texts) (checked : p texts = true) : p (words.map String.toList) = true := by
  rw [spelled.map_toList]
  exact checked

theorem isUpper_of_lt {c : Char} (high : 0x5A < c.toNat) : c.isUpper = false := by
  cases upper : c.isUpper with
  | false => rfl
  | true =>
    have := (range_of_isUpper upper).2
    omega

/-- No number above those of the ASCII capitals is that of one. -/
theorem isUpper_ofNat {n : Nat} (high : 0x5A < n) : (Char.ofNat n).isUpper = false := by
  by_cases valid : n.isValidChar
  · have value : (Char.ofNat n).toNat = n := by
      rw [Char.ofNat, dif_pos valid]
      rfl
    exact isUpper_of_lt (value.symm ▸ high)
  · rw [Char.ofNat, dif_neg valid]
    rfl

/-- Neither a character that stands for two nor the second of the two is ASCII, nor is the first one an
ASCII capital. -/
private def beyondAscii (composite : Composite) : Bool :=
  decide (0x80 ≤ composite.whole.toNat) && decide (0x80 ≤ composite.second.toNat) &&
    !composite.first.isUpper

set_option maxRecDepth 4000 in
private theorem beyondAscii_of_mem {composite : Composite} (member : composite ∈ composites) :
    0x80 ≤ composite.whole.toNat ∧ 0x80 ≤ composite.second.toNat ∧ composite.first.isUpper = false := by
  have all : composites.all beyondAscii = true := by
    have words : (compositeWords.flatMap fun line => line.toList.splitOn ' ') =
        (compositeWords.map String.toList).flatMap (·.splitOn ' ') := (List.flatMap_map ..).symm
    unfold composites
    rw [words]
    apply Spells.transfer (p := fun texts => List.all (List.filterMap _ (texts.flatMap _)) _)
    · unfold compositeWords
      repeat apply Spells.cons
      exact .nil
    · decide +kernel
  have here := List.all_eq_true.mp all composite member
  simp only [beyondAscii, Bool.and_eq_true, decide_eq_true_eq, Bool.not_eq_true'] at here
  exact ⟨here.1.1, here.1.2, here.2⟩

variable {c d : Char} {text : List Char}

private theorem mem_of_parts? {first second : Char}
    (found : (composites.find? fun composite => composite.whole == c).map (fun composite =>
      (composite.first, composite.second)) = some (first, second)) :
    ∃ composite ∈ composites,
      composite.whole = c ∧ composite.first = first ∧ composite.second = second := by
  obtain ⟨composite, hit, same⟩ := Option.map_eq_some_iff.mp found
  obtain ⟨rfl, rfl⟩ := Prod.mk.inj same
  exact ⟨composite, List.mem_of_find?_eq_some hit, by simpa using List.find?_some hit, rfl, rfl⟩

private theorem hangulParts?_of_lt (below : c.toNat < 0xAC00) : hangulParts? c = none := by
  rw [hangulParts?, if_neg]
  rintro ⟨least, -⟩
  omega

/-- A character of ASCII stands for itself. -/
theorem parts?_of_ascii (ascii : c.toNat < 0x80) : parts? c = none := by
  cases found : parts? c with
  | none => rfl
  | some parts =>
    rw [parts?, hangulParts?_of_lt (by omega), Option.none_or] at found
    obtain ⟨composite, listed, rfl, -, -⟩ := mem_of_parts? found
    have := (beyondAscii_of_mem listed).1
    omega

/-- No character stands for an ASCII capital. -/
theorem isUpper_of_parts? {first second : Char} (found : parts? c = some (first, second)) :
    first.isUpper = false ∧ second.isUpper = false := by
  rcases Option.or_eq_some_iff.mp found with hangul | ⟨-, listed⟩
  · unfold hangulParts? at hangul
    split at hangul
    · simp only at hangul
      split at hangul
      · cases hangul
        exact ⟨isUpper_ofNat (by omega), isUpper_ofNat (by omega)⟩
      · cases hangul
        exact ⟨isUpper_ofNat (by omega), isUpper_ofNat (by omega)⟩
    · cases hangul
  · obtain ⟨composite, member, -, rfl, rfl⟩ := mem_of_parts? listed
    obtain ⟨-, second, first⟩ := beyondAscii_of_mem member
    exact ⟨first, isUpper_of_lt (by omega)⟩

theorem isUpper_of_mem_takeApart {steps : Nat} (low : c.isUpper = false)
    (member : d ∈ takeApart steps c) : d.isUpper = false := by
  induction steps generalizing c with
  | zero => rwa [List.mem_singleton.mp member]
  | succ steps ih =>
    unfold takeApart at member
    split at member
    · rename_i first second found
      rcases List.mem_append.mp member with inside | last
      · exact ih (isUpper_of_parts? found).1 inside
      · rw [List.mem_singleton.mp last]
        exact (isUpper_of_parts? found).2
    · rwa [List.mem_singleton.mp member]

theorem mem_insertOrdered : d ∈ insertOrdered c text ↔ d = c ∨ d ∈ text := by
  induction text with
  | nil => simp [insertOrdered]
  | cons e text ih =>
    unfold insertOrdered
    split
    · rw [List.mem_cons, ih, List.mem_cons]
      exact or_left_comm
    · rw [List.mem_cons]

theorem mem_decomposed : d ∈ decomposed text ↔ ∃ c ∈ text, d ∈ takeApart 4 c := by
  have ordered (parts : List Char) : d ∈ parts.foldr insertOrdered [] ↔ d ∈ parts := by
    induction parts with
    | nil => rfl
    | cons c parts ih => rw [List.foldr_cons, mem_insertOrdered, ih, List.mem_cons]
  rw [decomposed, ordered, List.mem_flatMap]

/-- Neither is what stands for two characters an ASCII capital. -/
theorem isUpper_of_whole? {first second whole : Char} (found : whole? first second = some whole) :
    whole.isUpper = false := by
  rcases Option.or_eq_some_iff.mp found with hangul | ⟨-, listed⟩
  · unfold hangulWhole? at hangul
    simp only at hangul
    split at hangul
    · rw [← Option.some.inj hangul]
      exact isUpper_ofNat (by omega)
    · split at hangul
      · rw [← Option.some.inj hangul]
        exact isUpper_ofNat (by omega)
      · cases hangul
  · obtain ⟨composite, hit, rfl⟩ := Option.map_eq_some_iff.mp listed
    have := (beyondAscii_of_mem (List.mem_of_find?_eq_some hit)).1
    exact isUpper_of_lt (by omega)

/-- What is joined was there, or stands for two characters. -/
theorem isUpper_of_mem_joinFrom {passed : List Char} (low : c.isUpper = false)
    (before : ∀ e ∈ passed, e.isUpper = false) (behind : ∀ e ∈ text, e.isUpper = false)
    (member : d ∈ joinFrom c passed text) : d.isUpper = false := by
  induction text generalizing c passed with
  | nil =>
    rcases List.mem_cons.mp member with rfl | inside
    · exact low
    · exact before d (List.mem_reverse.mp inside)
  | cons next text ih =>
    have here := behind next (List.mem_cons_self ..)
    have rest : ∀ e ∈ text, e.isUpper = false := fun e inside => behind e (List.mem_cons_of_mem next inside)
    simp only [joinFrom] at member
    generalize step : (if (passed.head?.any fun last =>
      decide (combiningClass next ≤ combiningClass last)) = true then none else whole? c next) =
        joined at member
    cases joined with
    | some whole =>
      split at step
      · cases step
      · exact ih (isUpper_of_whole? step) before rest member
    | none =>
      simp only at member
      split at member
      · rw [List.cons_append, List.mem_cons, List.mem_append, List.mem_reverse] at member
        rcases member with rfl | inside | joined
        · exact low
        · exact before d inside
        · exact ih here (List.forall_mem_nil _) rest joined
      · exact ih low (List.forall_mem_cons.mpr ⟨here, before⟩) rest member

/-- Composing text makes no ASCII capitals. -/
theorem isUpper_of_mem_composed (low : ∀ c ∈ text, c.isUpper = false) (member : d ∈ composed text) :
    d.isUpper = false := by
  have apart : ∀ e ∈ decomposed text, e.isUpper = false := by
    intro e inside
    obtain ⟨c, listed, part⟩ := mem_decomposed.mp inside
    exact isUpper_of_mem_takeApart (low c listed) part
  unfold composed at member
  split at member
  · cases member
  · rename_i c rest parts
    rw [parts] at apart
    obtain ⟨first, others⟩ := List.forall_mem_cons.mp apart
    exact isUpper_of_mem_joinFrom first (List.forall_mem_nil _) others member

theorem combiningClass_of_ascii (ascii : c.toNat < 0x80) : combiningClass c = 0 := by
  have all : classRuns.all (fun run => decide (0x80 ≤ run.first)) = true := by decide +kernel
  unfold combiningClass
  split
  · rename_i run found
    have least := List.all_eq_true.mp all run (List.mem_of_find?_eq_some found)
    have covered := List.find?_some found
    simp only [Bool.and_eq_true, decide_eq_true_eq] at least covered
    omega
  · rfl

theorem whole?_of_ascii (first : Char) (ascii : c.toNat < 0x80) : whole? first c = none := by
  cases found : whole? first c with
  | none => rfl
  | some whole =>
    exfalso
    rcases Option.or_eq_some_iff.mp found with hangul | ⟨-, listed⟩
    · unfold hangulWhole? at hangul
      simp only at hangul
      split at hangul
      · omega
      · split at hangul
        · omega
        · cases hangul
    · obtain ⟨composite, hit, -⟩ := Option.map_eq_some_iff.mp listed
      have beyond := (beyondAscii_of_mem (List.mem_of_find?_eq_some hit)).2.1
      have same := List.find?_some hit
      simp only [Bool.and_eq_true, beq_iff_eq] at same
      rw [same.2] at beyond
      omega

/-- Text of ASCII is composed as it is. -/
theorem composed_of_ascii (ascii : ∀ c ∈ text, c.toNat < 0x80) : composed text = text := by
  have apart : decomposed text = text := by
    rw [decomposed]
    induction text with
    | nil => rfl
    | cons c text ih =>
      obtain ⟨first, others⟩ := List.forall_mem_cons.mp ascii
      have single : takeApart 4 c = [c] := by simp only [takeApart, parts?_of_ascii first]
      rw [List.flatMap_cons, single, List.singleton_append, List.foldr_cons, ih others]
      cases text with
      | nil => rfl
      | cons d text =>
        rw [insertOrdered, if_neg]
        rintro ⟨mark, -⟩
        rw [combiningClass_of_ascii (others d (List.mem_cons_self ..))] at mark
        exact absurd mark (by decide)
  have joined (c : Char) (rest : List Char) (low : ∀ d ∈ rest, d.toNat < 0x80) :
      joinFrom c [] rest = c :: rest := by
    induction rest generalizing c with
    | nil => rfl
    | cons next rest ih =>
      obtain ⟨first, others⟩ := List.forall_mem_cons.mp low
      simp only [joinFrom, List.head?_nil, Option.any_none, Bool.false_eq_true, if_false,
        whole?_of_ascii c first, combiningClass_of_ascii first, if_true, ih next others,
        List.reverse_nil, List.singleton_append]
  rw [composed, apart]
  cases text with
  | nil => rfl
  | cons c text => exact joined c text fun d member => ascii d (List.mem_cons_of_mem c member)

theorem isUpper_toLower (ascii : c.toNat < 0x80) : c.toLower.isUpper = false :=
  forall_ascii (p := fun c => c.toLower.isUpper = false) (by decide +kernel) ascii

/-- No character has an ASCII capital for its lower case. -/
theorem isUpper_of_mem_lowercase (member : d ∈ lowercase c) : d.isUpper = false := by
  have high : caseRuns.all (fun run => decide (0x5A < Int.ofNat run.first + run.distance)) = true := by
    decide +kernel
  unfold lowercase at member
  split at member
  · rename_i ascii
    rw [List.mem_singleton.mp member]
    exact isUpper_toLower ascii
  · rename_i beyond
    split at member
    · simp only [List.mem_cons, List.not_mem_nil, or_false] at member
      rcases member with rfl | rfl <;> decide
    · split at member
      · rename_i run found
        have least := List.all_eq_true.mp high run (List.mem_of_find?_eq_some found)
        have covered := List.find?_some found
        simp only [CaseRun.covers, Bool.and_eq_true, decide_eq_true_eq] at least covered
        rw [List.mem_singleton.mp member]
        exact isUpper_ofNat (by simp only [Int.ofNat_eq_natCast] at least ⊢; omega)
      · rw [List.mem_singleton.mp member]
        exact isUpper_of_lt (by omega)

end FusionAtlas.Text
