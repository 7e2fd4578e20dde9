import FusionAtlas.HostCode.ParameterList
import Mathlib.Tactic.SplitIfs

/-!
Where a parameter list is divided. A comma separates if no bracket and no quote is open at it, so that what a
piece does to the nesting decides how the text behind it is divided. Main statements:
`ParameterList.piecesFrom_append` and `ParameterList.pieces_eq_iff`.
-/

set_option autoImplicit false
set_option relaxedAutoImplicit false

namespace FusionAtlas.ParameterList

variable {nesting : Nesting} {raw text : List Char} {parts : List (List Char)}

namespace Nesting

/-- The nesting behind a text. -/
def behind (nesting : Nesting) (text : List Char) : Nesting := text.foldl next nesting

theorem behind_cons (nesting : Nesting) (c : Char) (rest : List Char) :
    nesting.behind (c :: rest) = (nesting.next c).behind rest := rfl

theorem behind_append (nesting : Nesting) (front rest : List Char) :
    nesting.behind (front ++ rest) = (nesting.behind front).behind rest := List.foldl_append

/-- A backslash is remembered in quotes only. -/
def Sound (nesting : Nesting) : Prop := nesting.quote = none → nesting.escaped = false

theorem Sound.next (sound : nesting.Sound) (c : Char) : (nesting.next c).Sound := by
  obtain ⟨depth, quote, escaped⟩ := nesting
  cases quote with
  | none =>
    have plain : escaped = false := sound rfl
    simp only [Nesting.next]
    split_ifs <;> simp [Sound, plain]
  | some quote =>
    simp only [Nesting.next]
    split_ifs <;> simp_all [Sound]

theorem eq_outside (sound : nesting.Sound) (top : nesting.atTop = true) : nesting = .outside := by
  obtain ⟨depth, quote, escaped⟩ := nesting
  simp only [atTop, Bool.and_eq_true, Option.isNone_iff_eq_none, beq_iff_eq] at top
  obtain ⟨rfl, rfl⟩ := top
  exact congrArg (Nesting.mk 0 none) (sound rfl)

end Nesting

/-- No comma of the text separates. -/
def Uncut (nesting : Nesting) : List Char → Prop
  | [] => True
  | c :: rest => ¬(c = ',' ∧ nesting.atTop = true) ∧ Uncut (nesting.next c) rest

theorem uncut_append {front rest : List Char} :
    Uncut nesting (front ++ rest) ↔ Uncut nesting front ∧ Uncut (nesting.behind front) rest := by
  induction front generalizing nesting with
  | nil => simp [Uncut, Nesting.behind]
  | cons c front ih => rw [List.cons_append, Uncut, Uncut, ih, and_assoc, Nesting.behind_cons]

/-- A character that does not separate goes to the piece it stands in. -/
theorem piecesFrom_cons {c : Char} (kept : ¬(c = ',' ∧ nesting.atTop = true)) (rest : List Char) :
    piecesFrom nesting (c :: rest) =
      (c :: (piecesFrom (nesting.next c) rest).1, (piecesFrom (nesting.next c) rest).2) := by
  rw [piecesFrom, if_neg kept]

theorem piecesFrom_comma (rest : List Char) : piecesFrom .outside (',' :: rest) = ([], pieces rest) := by
  rw [piecesFrom, if_pos ⟨rfl, rfl⟩]
  rfl

/-- A text without separating commas stays in one piece, and the scan goes on in the nesting behind it. -/
theorem piecesFrom_append (uncut : Uncut nesting text) (rest : List Char) :
    piecesFrom nesting (text ++ rest) =
      (text ++ (piecesFrom (nesting.behind text) rest).1,
        (piecesFrom (nesting.behind text) rest).2) := by
  induction text generalizing nesting with
  | nil => rfl
  | cons c text ih => rw [List.cons_append, piecesFrom_cons uncut.1, ih uncut.2, Nesting.behind_cons,
      List.cons_append]

/-- Each piece but the last one ends where a comma separates, and none holds such a comma. -/
inductive Divided : List (List Char) → Prop
  | last {piece : List Char} : Uncut .outside piece → Divided [piece]
  | more {piece next : List Char} {others : List (List Char)} : Uncut .outside piece →
      Nesting.outside.behind piece = .outside → Divided (next :: others) →
      Divided (piece :: next :: others)

theorem Divided.cons {piece : List Char} {others : List (List Char)} (uncut : Uncut .outside piece)
    (found : others = [] ∧ raw = piece ∨ Nesting.outside.behind piece = .outside ∧ Divided others ∧
      raw = piece ++ ',' :: [','].intercalate others) :
    Divided (piece :: others) ∧ raw = [','].intercalate (piece :: others) := by
  rcases found with ⟨rfl, rfl⟩ | ⟨ends, divided, rfl⟩
  · exact ⟨.last uncut, by simp⟩
  · cases others with
    | nil => cases divided
    | cons next more => exact ⟨.more uncut ends divided, by simp [List.intercalate_cons_cons]⟩

/-- By induction on the text: what is found in it is divided, and joins to it. -/
theorem divided_piecesFrom (sound : nesting.Sound) (raw : List Char) :
    let found := piecesFrom nesting raw
    Uncut nesting found.1 ∧
      (found.2 = [] ∧ raw = found.1 ∨
        nesting.behind found.1 = .outside ∧ Divided found.2 ∧
          raw = found.1 ++ ',' :: [','].intercalate found.2) := by
  induction raw generalizing nesting with
  | nil => exact ⟨trivial, Or.inl ⟨rfl, rfl⟩⟩
  | cons c rest ih =>
    by_cases cut : c = ',' ∧ nesting.atTop = true
    · obtain ⟨rfl, top⟩ := cut
      obtain rfl := Nesting.eq_outside sound top
      obtain ⟨uncut, found⟩ := ih sound
      obtain ⟨divided, whole⟩ := Divided.cons uncut found
      rw [piecesFrom_comma]
      exact ⟨trivial, Or.inr ⟨rfl, divided, congrArg (List.cons ',') whole⟩⟩
    · obtain ⟨uncut, found⟩ := ih (sound.next c)
      rw [piecesFrom_cons cut]
      refine ⟨⟨cut, uncut⟩, ?_⟩
      rcases found with ⟨single, whole⟩ | ⟨ends, divided, whole⟩
      · exact Or.inl ⟨single, congrArg (List.cons c) whole⟩
      · exact Or.inr ⟨ends, divided, congrArg (List.cons c) whole⟩

theorem Divided.pieces (divided : Divided parts) : pieces ([','].intercalate parts) = parts := by
  induction divided with
  | @last piece uncut =>
    have whole := piecesFrom_append uncut []
    rw [List.append_nil] at whole
    simp [ParameterList.pieces, whole, piecesFrom]
  | @more piece next others uncut ends _ ih =>
    rw [List.intercalate_cons_cons, List.append_assoc, ParameterList.pieces, piecesFrom_append uncut, ends,
      List.singleton_append, piecesFrom_comma, ih]
    simp

/-- Pieces may be replaced by those that leave the nesting in the same way. -/
theorem Divided.map {α : Type} {f g : α → List Char} {items : List α} (divided : Divided (items.map f))
    (kept : ∀ item ∈ items, (Uncut .outside (f item) → Uncut .outside (g item)) ∧
      Nesting.outside.behind (g item) = Nesting.outside.behind (f item)) : Divided (items.map g) := by
  induction items with
  | nil => exact divided
  | cons item items ih =>
    obtain ⟨⟨uncut, same⟩, others⟩ := List.forall_mem_cons.mp kept
    cases items with
    | nil =>
      cases divided with
      | last single => exact .last (uncut single)
    | cons next more =>
      cases divided with
      | more single ends rest => exact .more (uncut single) (same.trans ends) (ih rest others)

/-- The pieces of a list are those that join to it at commas and are divided there. -/
theorem pieces_eq_iff : pieces raw = parts ↔ Divided parts ∧ raw = [','].intercalate parts := by
  constructor
  · rintro rfl
    obtain ⟨uncut, found⟩ := @divided_piecesFrom .outside (fun _ => rfl) raw
    exact Divided.cons uncut found
  · rintro ⟨divided, rfl⟩
    exact divided.pieces

end FusionAtlas.ParameterList
