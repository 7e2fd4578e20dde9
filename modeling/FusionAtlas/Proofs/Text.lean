import FusionAtlas.Text.Basic
import FusionAtlas.Text.Utf8
import Mathlib.Data.List.TakeWhile

/-!
Openings of texts, and ASCII in their characters and bytes. A byte below 0x80 stands for its own character and for
nothing else, so what is asked of such bytes may be asked of the characters.
-/

set_option autoImplicit false
set_option relaxedAutoImplicit false

namespace FusionAtlas.Text

/-- What is asked of the characters of a text is decided character by character, and not by going through
all characters there are. -/
instance (priority := high) decidableForallMem (p : Char → Prop) [DecidablePred p] (text : List Char) :
    Decidable (∀ c ∈ text, p c) := List.decidableBAll p text

section Runs

variable {α : Type} {p : α → Bool} {run rest : List α}

theorem takeWhile_append_of_head (inside : ∀ c ∈ run, p c = true)
    (outside : ∀ c ∈ rest.head?, p c = false) : (run ++ rest).takeWhile p = run := by
  rw [List.takeWhile_append_of_pos inside]
  cases rest with
  | nil => rw [List.takeWhile_nil, List.append_nil]
  | cons c rest => rw [List.takeWhile_cons_of_neg (by simp [outside c rfl]), List.append_nil]

theorem dropWhile_append_of_head (inside : ∀ c ∈ run, p c = true)
    (outside : ∀ c ∈ rest.head?, p c = false) : (run ++ rest).dropWhile p = rest := by
  rw [List.dropWhile_append_of_pos inside]
  cases rest with
  | nil => rfl
  | cons c rest => rw [List.dropWhile_cons_of_neg (by simp [outside c rfl])]

theorem drop_length_takeWhile (p : α → Bool) (items : List α) :
    items.drop (items.takeWhile p).length = items.dropWhile p := by
  have split : (items.takeWhile p ++ items.dropWhile p).drop (items.takeWhile p).length =
      items.dropWhile p := List.drop_left
  rwa [List.takeWhile_append_dropWhile] at split

end Runs

section Ascii

variable {c : Char}

theorem range_of_isUpper (upper : c.isUpper = true) : 0x41 ≤ c.toNat ∧ c.toNat ≤ 0x5A := by
  obtain ⟨least, most⟩ := of_decide_eq_true upper
  exact ⟨UInt32.le_iff_toNat_le.mp least, UInt32.le_iff_toNat_le.mp most⟩

theorem range_of_isAlpha (letter : c.isAlpha = true) :
    0x41 ≤ c.toNat ∧ c.toNat ≤ 0x5A ∨ 0x61 ≤ c.toNat ∧ c.toNat ≤ 0x7A := by
  rcases (Bool.or_eq_true _ _).mp letter with upper | lower
  · exact .inl (range_of_isUpper upper)
  · obtain ⟨least, most⟩ := (Bool.and_eq_true _ _).mp lower
    exact .inr ⟨UInt32.le_iff_toNat_le.mp (of_decide_eq_true least),
      UInt32.le_iff_toNat_le.mp (of_decide_eq_true most)⟩

theorem range_of_isDigit (digit : c.isDigit = true) : 0x30 ≤ c.toNat ∧ c.toNat ≤ 0x39 := by
  obtain ⟨least, most⟩ := (Bool.and_eq_true _ _).mp digit
  exact ⟨UInt32.le_iff_toNat_le.mp (of_decide_eq_true least),
    UInt32.le_iff_toNat_le.mp (of_decide_eq_true most)⟩

end Ascii

theorem afterOpening?_eq_some {opening text rest : List Char}
    (opens : afterOpening? opening text = some rest) : text = opening ++ rest := by
  induction opening generalizing text with
  | nil => exact Option.some.inj opens
  | cons c opening ih =>
    cases text with
    | nil => cases opens
    | cons d text =>
      rw [afterOpening?] at opens
      split at opens
      · rename_i same
        rw [same, ih opens, List.cons_append]
      · cases opens

theorem afterOpening?_append (opening rest : List Char) :
    afterOpening? opening (opening ++ rest) = some rest := by
  induction opening with
  | nil => simp [afterOpening?]
  | cons c opening ih => simp [afterOpening?, ih]

theorem afterOpening?_eq_some_iff {opening text rest : List Char} :
    afterOpening? opening text = some rest ↔ text = opening ++ rest := by
  constructor
  · exact afterOpening?_eq_some
  · rintro rfl
    exact afterOpening?_append opening rest

/-- No part of a divided list holds what divides it. -/
theorem not_of_mem_splitOnP {α : Type} {divides : α → Bool} {items part : List α}
    (listed : part ∈ items.splitOnP divides) : ∀ c ∈ part, divides c = false := by
  induction items generalizing part with
  | nil =>
    rw [List.splitOnP_nil] at listed
    rw [List.mem_singleton.mp listed]
    exact List.forall_mem_nil _
  | cons x items ih =>
    rw [List.splitOnP_cons_eq_if_modifyHead] at listed
    split at listed
    · rcases List.mem_cons.mp listed with rfl | behind
      · exact List.forall_mem_nil _
      · exact ih behind
    · rename_i kept
      obtain ⟨first, rest, parts⟩ := List.exists_cons_of_ne_nil (List.splitOnP_ne_nil divides items)
      rw [parts, List.modifyHead_cons] at listed
      rw [parts] at ih
      rcases List.mem_cons.mp listed with rfl | behind
      · exact List.forall_mem_cons.mpr ⟨Bool.eq_false_iff.mpr kept, ih (List.mem_cons_self ..)⟩
      · exact ih (List.mem_cons_of_mem first behind)

theorem afterLast_of_not_mem {mark : Char} {text : List Char} (absent : mark ∉ text) :
    afterLast mark text = text := by
  have whole : text.reverse.takeWhile (· != mark) = text.reverse := by
    refine List.takeWhile_eq_self_iff.mpr fun c member => ?_
    have other : c ≠ mark := fun same => absent (same ▸ List.mem_reverse.mp member)
    simpa using other
  rw [afterLast, whole, List.reverse_reverse]

/-- What stands behind the last mark is the end of the text. -/
theorem afterLast_append {mark : Char} (front : List Char) {behind : List Char} (absent : mark ∉ behind) :
    afterLast mark (front ++ behind) = afterLast mark front ++ behind := by
  have kept : ∀ c ∈ behind.reverse, (c != mark) = true := by
    intro c member
    have other : c ≠ mark := fun same => absent (same ▸ List.mem_reverse.mp member)
    simpa using other
  rw [afterLast, List.reverse_append, List.takeWhile_append_of_pos kept, List.reverse_append,
    List.reverse_reverse, ← afterLast]

/-- What stands behind a mark stands behind the last one, if it holds none itself. -/
theorem afterLast_append_cons {mark : Char} (front : List Char) {behind : List Char}
    (absent : mark ∉ behind) : afterLast mark (front ++ mark :: behind) = behind := by
  have kept : ∀ c ∈ behind.reverse, (c != mark) = true := by
    intro c member
    have other : c ≠ mark := fun same => absent (same ▸ List.mem_reverse.mp member)
    simpa using other
  rw [afterLast, List.reverse_append, List.reverse_cons, List.append_assoc,
    List.takeWhile_append_of_pos kept, List.singleton_append, List.takeWhile_cons_of_neg (by simp),
    List.append_nil, List.reverse_reverse]

theorem afterLast_cons (mark c : Char) (text : List Char) :
    afterLast mark (c :: text) =
      if mark ∈ text then afterLast mark text else if c = mark then text else c :: text := by
  by_cases held : mark ∈ text
  · have shorter : (text.reverse.takeWhile (· != mark)).length ≠ text.reverse.length := by
      intro same
      have whole := List.takeWhile_eq_self_iff.mp ((List.takeWhile_sublist _).eq_of_length same) mark
        (List.mem_reverse.mpr held)
      simp at whole
    rw [if_pos held, afterLast, List.reverse_cons, List.takeWhile_append, if_neg shorter, ← afterLast]
  · rw [if_neg held]
    have front : afterLast mark ([c] ++ text) = afterLast mark [c] ++ text := afterLast_append [c] held
    rw [List.singleton_append] at front
    rw [front]
    by_cases same : c = mark
    · simp [afterLast, same]
    · simp [afterLast, same]

end FusionAtlas.Text

namespace FusionAtlas.Text.Utf8

variable {c : Char} {b : UInt8} {text : List Char}

private theorem not_ascii_of_le {n : Nat} (large : 0x80 ≤ n) (bound : n < 0x100) :
    ¬(UInt8.ofNat n).toNat < 0x80 := by
  rw [UInt8.toNat_ofNat', Nat.mod_eq_of_lt bound]
  omega

/-- A character that is written with an ASCII byte is that byte. -/
theorem encodeChar_of_mem_ascii (member : b ∈ String.utf8EncodeChar c) (ascii : b.toNat < 0x80) :
    c = Char.ofNat b.toNat ∧ String.utf8EncodeChar c = [b] := by
  unfold String.utf8EncodeChar at member ⊢
  simp only at member ⊢
  split at member
  · rename_i small
    have byte : (UInt8.ofNat c.val.toNat).toNat = c.toNat := by
      rw [UInt8.toNat_ofNat', Nat.mod_eq_of_lt (by omega)]
      rfl
    obtain rfl := List.mem_singleton.mp member
    rw [if_pos small, byte, Char.ofNat_toNat]
    exact ⟨rfl, rfl⟩
  · exfalso
    split at member
    · simp only [List.mem_cons, List.not_mem_nil, or_false] at member
      rcases member with rfl | rfl
      · exact not_ascii_of_le (by omega) (by omega) ascii
      · exact not_ascii_of_le (by omega) (by omega) ascii
    · split at member
      · simp only [List.mem_cons, List.not_mem_nil, or_false] at member
        rcases member with rfl | rfl | rfl
        · exact not_ascii_of_le (by omega) (by omega) ascii
        · exact not_ascii_of_le (by omega) (by omega) ascii
        · exact not_ascii_of_le (by omega) (by omega) ascii
      · simp only [List.mem_cons, List.not_mem_nil, or_false] at member
        rcases member with rfl | rfl | rfl | rfl
        · exact not_ascii_of_le (by omega) (by omega) ascii
        · exact not_ascii_of_le (by omega) (by omega) ascii
        · exact not_ascii_of_le (by omega) (by omega) ascii
        · exact not_ascii_of_le (by omega) (by omega) ascii

/-- The ASCII bytes of a text are those of its ASCII characters. -/
theorem mem_of_mem_encode (member : b ∈ encode text) (ascii : b.toNat < 0x80) :
    Char.ofNat b.toNat ∈ text := by
  obtain ⟨c, listed, written⟩ := List.mem_flatMap.mp member
  rw [← (encodeChar_of_mem_ascii written ascii).1]
  exact listed

theorem encode_append (front behind : List Char) :
    encode (front ++ behind) = encode front ++ encode behind :=
  List.flatMap_append

theorem encode_eq_nil (empty : encode text = []) : text = [] := by
  cases text with
  | nil => rfl
  | cons c text =>
    rw [encode, List.flatMap_cons, List.append_eq_nil_iff] at empty
    exact absurd empty.1 String.utf8EncodeChar_ne_nil

/-- A text that is written with one ASCII byte throughout repeats its character. -/
theorem eq_replicate_of_encode {n : Nat} (ascii : b.toNat < 0x80)
    (written : encode text = List.replicate n b) : text = List.replicate n (Char.ofNat b.toNat) := by
  induction text generalizing n with
  | nil =>
    cases n with
    | zero => rfl
    | succ n => cases written
  | cons c text ih =>
    obtain ⟨first, rest, bytes⟩ := List.exists_cons_of_ne_nil (String.utf8EncodeChar_ne_nil (c := c))
    have member : first ∈ List.replicate n b := by
      rw [← written, encode, List.flatMap_cons, bytes]
      exact List.mem_append_left _ (List.mem_cons_self ..)
    obtain rfl := List.eq_of_mem_replicate member
    have held : first ∈ String.utf8EncodeChar c := by rw [bytes]; exact List.mem_cons_self ..
    obtain ⟨rfl, single⟩ := encodeChar_of_mem_ascii held ascii
    rw [encode, List.flatMap_cons, single, List.singleton_append] at written
    cases n with
    | zero => cases written
    | succ n =>
      rw [List.replicate_succ] at written ⊢
      rw [ih (List.cons.inj written).2]

end FusionAtlas.Text.Utf8
