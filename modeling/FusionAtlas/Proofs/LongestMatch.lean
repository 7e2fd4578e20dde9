import FusionAtlas.Configuration.BoundHelpers
import Mathlib.Data.List.Basic
import Mathlib.Data.List.Induction
import Mathlib.Data.Set.Basic
import Mathlib.Order.Bounds.Defs

/-!
The helper that a chain starts with. Identifiers are bound one after the other, and a later binding takes
the place of an earlier one. Leading parts of a chain are tried from the longest on, but never more of them
than some bound identifier has. Parts may hold dots themselves, so what is made of more parts than that has
too many dots to be bound. Main statements: `BoundHelpers.get?_ofCalls_eq_some_iff` for what is bound, and
`BoundHelpers.longestMatch?_ofCalls`.
-/

set_option autoImplicit false
set_option relaxedAutoImplicit false

namespace FusionAtlas

namespace BoundHelpers

variable {helpers : BoundHelpers} {name : String} {value : HelperBinding}

@[simp] theorem get?_insert (helpers : BoundHelpers) (name : String) (value : HelperBinding)
    (other : String) : (helpers.insert name value).get? other =
      if other = name then some value else helpers.get? other := by
  rw [get?, insert, List.find?_append]
  split
  · next same =>
    subst same
    have replaced : (helpers.bindings.filter fun entry => entry.1 ≠ other).find?
        (fun entry => entry.1 == other) = none := by
      simp [List.find?_eq_none]
    rw [replaced, Option.none_or, List.find?_singleton, if_pos (beq_self_eq_true other)]
    rfl
  · next apart =>
    have kept : (helpers.bindings.filter fun entry => entry.1 ≠ name).find?
        (fun entry => entry.1 == other) = helpers.bindings.find? fun entry => entry.1 == other := by
      rw [List.find?_filter]
      congr 1
      funext entry
      by_cases here : entry.1 = other
      · simp [here, apart]
      · simp [here]
    rw [kept, List.find?_singleton, if_neg (by simpa using Ne.symm apart), Option.or_none]
    rfl

/-- No bound identifier has more parts than are ever tried. -/
def Reaches (helpers : BoundHelpers) : Prop :=
  ∀ name, helpers.get? name ≠ none → partCount name ≤ helpers.maxParts

theorem Reaches.insert (reaches : helpers.Reaches) (name : String) (value : HelperBinding) :
    (helpers.insert name value).Reaches := by
  intro other bound
  rw [get?_insert] at bound
  split at bound
  · next same =>
    subst same
    exact Nat.le_max_right _ _
  · exact Nat.le_trans (reaches other bound) (Nat.le_max_left _ _)

/-- A call that binds an identifier, to what a text stands for or to a given binding. -/
inductive Call where
  | bind (identifier text : String)
  | insert (identifier : String) (binding : HelperBinding)

namespace Call

/-- The identifier that is bound. -/
def identifier : Call → String
  | bind identifier _ | insert identifier _ => identifier

/-- What the identifier is bound to. -/
def binding : Call → HelperBinding
  | bind _ text => .ofText text
  | insert _ binding => binding

/-- The helpers behind a call. -/
def perform (helpers : BoundHelpers) : Call → BoundHelpers
  | bind identifier text => helpers.bind identifier text
  | insert identifier binding => helpers.insert identifier binding

theorem perform_eq (helpers : BoundHelpers) (call : Call) :
    call.perform helpers = helpers.insert call.identifier call.binding := by
  cases call <;> rfl

end Call

/-- The helpers that calls leave bound when nothing was bound before. -/
def ofCalls (calls : List Call) : BoundHelpers :=
  calls.foldl (fun helpers call => call.perform helpers) .empty

/-- The last call that binds the identifier binds it to this. -/
def LastBound (calls : List Call) (name : String) (value : HelperBinding) : Prop :=
  ∃ front call behind, calls = front ++ call :: behind ∧ call.identifier = name ∧
    call.binding = value ∧ ∀ later ∈ behind, later.identifier ≠ name

section Calls

variable {calls : List Call} {call : Call}

theorem ofCalls_concat (calls : List Call) (call : Call) :
    ofCalls (calls ++ [call]) = (ofCalls calls).insert call.identifier call.binding := by
  rw [ofCalls, List.foldl_concat, Call.perform_eq]
  rfl

theorem reaches_ofCalls (calls : List Call) : (ofCalls calls).Reaches := by
  induction calls using List.reverseRecOn with
  | nil => exact fun name bound => absurd rfl bound
  | append_singleton calls call ih =>
    rw [ofCalls_concat]
    exact ih.insert _ _

theorem not_lastBound_nil : ¬LastBound [] name value := by
  rintro ⟨front, call, behind, parts, -⟩
  simp at parts

theorem lastBound_concat : LastBound (calls ++ [call]) name value ↔
    if name = call.identifier then call.binding = value else LastBound calls name value := by
  constructor
  · rintro ⟨front, last, behind, parts, named, bound, others⟩
    rcases List.eq_nil_or_concat' behind with rfl | ⟨behind, final, rfl⟩
    · obtain ⟨rfl, rfl⟩ := List.append_singleton_inj.mp parts
      rw [if_pos named.symm]
      exact bound
    · rw [← List.cons_append, ← List.append_assoc] at parts
      obtain ⟨rfl, rfl⟩ := List.append_singleton_inj.mp parts
      have apart : call.identifier ≠ name := others call (by simp)
      rw [if_neg (Ne.symm apart)]
      exact ⟨front, last, behind, rfl, named, bound,
        fun later member => others later (List.mem_append_left _ member)⟩
  · intro last
    split at last
    · next same => exact ⟨calls, call, [], rfl, same.symm, last, fun _ member => (nomatch member)⟩
    · next apart =>
      obtain ⟨front, found, behind, rfl, named, bound, others⟩ := last
      refine ⟨front, found, behind ++ [call], by simp, named, bound, fun later member => ?_⟩
      rcases List.mem_append.mp member with inside | new
      · exact others later inside
      · rw [List.mem_singleton.mp new]
        exact Ne.symm apart

/-- An identifier is bound to what the last call for it says. -/
theorem get?_ofCalls_eq_some_iff : (ofCalls calls).get? name = some value ↔ LastBound calls name value := by
  induction calls using List.reverseRecOn with
  | nil => exact ⟨fun impossible => (nomatch impossible), fun last => absurd last not_lastBound_nil⟩
  | append_singleton calls call ih =>
    rw [ofCalls_concat, get?_insert, lastBound_concat]
    split
    · exact Option.some_inj
    · exact ih

/-- Nothing is bound but what some call binds. -/
theorem get?_ofCalls_ne_none_iff :
    (ofCalls calls).get? name ≠ none ↔ ∃ call ∈ calls, call.identifier = name := by
  induction calls using List.reverseRecOn with
  | nil => simp [ofCalls, get?, empty]
  | append_singleton calls call ih =>
    rw [ofCalls_concat, get?_insert]
    by_cases same : name = call.identifier
    · simp [same]
    · simp [same, ih, Ne.symm same, or_and_right, exists_or]

end Calls

/-- The identifier that the first parts make. -/
def joined (parts : List String) (count : Nat) : String := ".".intercalate (parts.take count)

theorem length_le_count_intercalate (parts : List (List Char)) :
    parts.length ≤ (['.'].intercalate parts).count '.' + 1 := by
  induction parts with
  | nil => exact Nat.zero_le _
  | cons part parts ih =>
    cases parts with
    | nil => simp
    | cons next parts =>
      rw [List.intercalate_cons_cons, List.append_assoc, List.count_append, List.count_append,
        List.count_singleton_self, List.length_cons]
      omega

section Search

variable {parts : List String} {count : Nat} {found : Match}

/-- What is made of some parts has at least as many: there is a dot behind each of them but the last. -/
theorem le_partCount_joined (bound : count ≤ parts.length) :
    count ≤ partCount (joined parts count) := by
  have dots := length_le_count_intercalate ((parts.take count).map String.toList)
  rw [List.length_map, List.length_take, Nat.min_eq_left bound] at dots
  rw [partCount, joined, String.toList_intercalate]
  exact dots

theorem matchOf?_eq_some_iff : helpers.matchOf? parts count = some found ↔
    found.consumed = count ∧ found.identifier = joined parts count ∧
      helpers.get? (joined parts count) = some found.binding := by
  obtain ⟨consumed, identifier, binding⟩ := found
  simp only [matchOf?, Option.map_eq_some_iff, Match.mk.injEq]
  constructor
  · rintro ⟨_, bound, rfl, rfl, rfl⟩
    exact ⟨rfl, rfl, bound⟩
  · rintro ⟨rfl, rfl, bound⟩
    exact ⟨_, bound, rfl, rfl, rfl⟩

theorem matchOf?_eq_none_iff :
    helpers.matchOf? parts count = none ↔ helpers.get? (joined parts count) = none :=
  Option.map_eq_none_iff

theorem matchDown?_eq_none_iff : helpers.matchDown? parts count = none ↔
    ∀ n, 1 ≤ n → n ≤ count → helpers.get? (joined parts n) = none := by
  induction count with
  | zero => exact ⟨fun _ n low high => by omega, fun _ => rfl⟩
  | succ count ih =>
    rw [matchDown?, Option.or_eq_none_iff, matchOf?_eq_none_iff, ih]
    constructor
    · rintro ⟨last, others⟩ n low high
      rcases Nat.le_succ_iff.mp high with inside | rfl
      · exact others n low inside
      · exact last
    · intro all
      exact ⟨all _ (Nat.succ_pos count) (Nat.le_refl _), fun n low high => all n low (by omega)⟩

/-- Going down from `count` parts, the match with the most parts is found first. -/
theorem matchDown?_eq_some_iff : helpers.matchDown? parts count = some found ↔
    (1 ≤ found.consumed ∧ found.consumed ≤ count) ∧
      (∀ n, found.consumed < n → n ≤ count → helpers.get? (joined parts n) = none) ∧
      found.identifier = joined parts found.consumed ∧
      helpers.get? (joined parts found.consumed) = some found.binding := by
  induction count with
  | zero =>
    rw [matchDown?]
    constructor
    · intro impossible
      cases impossible
    · rintro ⟨⟨low, high⟩, -⟩
      omega
  | succ count ih =>
    rw [matchDown?, Option.or_eq_some_iff, matchOf?_eq_some_iff, matchOf?_eq_none_iff, ih]
    constructor
    · rintro (⟨all, named, bound⟩ | ⟨unbound, ⟨low, high⟩, others, rest⟩)
      · rw [← all] at named bound
        exact ⟨⟨by omega, by omega⟩, fun n _ _ => by omega, named, bound⟩
      · refine ⟨⟨low, by omega⟩, fun n more within => ?_, rest⟩
        rcases Nat.le_succ_iff.mp within with inside | rfl
        · exact others n more inside
        · exact unbound
    · rintro ⟨⟨low, high⟩, others, named, bound⟩
      rcases Nat.le_succ_iff.mp high with inside | all
      · exact Or.inr ⟨others _ (by omega) (Nat.le_refl _), ⟨low, inside⟩,
          fun n more within => others n more (by omega), named, bound⟩
      · rw [all] at named bound
        exact Or.inl ⟨all, named, bound⟩

/-- The parts that are not tried would not match. -/
theorem Reaches.le_tried (reaches : helpers.Reaches) (high : count ≤ parts.length)
    (bound : helpers.get? (joined parts count) ≠ none) : count ≤ min parts.length helpers.maxParts :=
  Nat.le_min.mpr ⟨high, Nat.le_trans (le_partCount_joined high) (reaches _ bound)⟩

end Search

/-- Whatever identifiers were bound, in whatever order and however often, the match of some parts takes the
most of them that make a bound identifier, with its last binding, and there is none only if no leading parts
make one. -/
theorem longestMatch?_ofCalls (calls : List Call) (parts : List String) :
    let helpers := ofCalls calls
    let bound := {count | 1 ≤ count ∧ count ≤ parts.length ∧
      ∃ call ∈ calls, call.identifier = joined parts count}
    (∀ found, helpers.longestMatch? parts = some found ↔
      IsGreatest bound found.consumed ∧ found.identifier = joined parts found.consumed ∧
        LastBound calls found.identifier found.binding) ∧
    (helpers.longestMatch? parts = none ↔ bound = ∅) := by
  intro helpers bound
  have mem_iff (count : Nat) : count ∈ bound ↔
      1 ≤ count ∧ count ≤ parts.length ∧ helpers.get? (joined parts count) ≠ none := by
    rw [get?_ofCalls_ne_none_iff]
    rfl
  have tried (count : Nat) (member : count ∈ bound) :
      count ≤ min parts.length helpers.maxParts := by
    obtain ⟨-, high, made⟩ := (mem_iff count).mp member
    exact (reaches_ofCalls calls).le_tried high made
  constructor
  · intro found
    rw [longestMatch?, matchDown?_eq_some_iff]
    constructor
    · rintro ⟨⟨low, high⟩, others, named, value⟩
      have member : found.consumed ∈ bound :=
        (mem_iff _).mpr ⟨low, Nat.le_trans high (Nat.min_le_left _ _), by simp [value]⟩
      refine ⟨⟨member, fun count also => ?_⟩, named, ?_⟩
      · by_contra more
        exact ((mem_iff count).mp also).2.2 (others count (Nat.lt_of_not_le more) (tried count also))
      · rw [named]
        exact get?_ofCalls_eq_some_iff.mp value
    · rintro ⟨⟨member, greatest⟩, named, last⟩
      refine ⟨⟨member.1, tried _ member⟩, fun count more within => ?_, named, ?_⟩
      · by_contra made
        have high := Nat.le_trans within (Nat.min_le_left _ _)
        have least := greatest ((mem_iff count).mpr ⟨by omega, high, made⟩)
        omega
      · rw [← named]
        exact get?_ofCalls_eq_some_iff.mpr last
  · rw [longestMatch?, matchDown?_eq_none_iff, Set.eq_empty_iff_forall_notMem]
    constructor
    · intro unbound count member
      obtain ⟨low, -, made⟩ := (mem_iff count).mp member
      exact made (unbound count low (tried count member))
    · intro empty count low within
      by_contra made
      exact empty count ((mem_iff count).mpr ⟨low, Nat.le_trans within (Nat.min_le_left _ _), made⟩)

/-- The first part has a dot of its own, and the later binding counts. -/
example : (ofCalls [.bind "Neos" "A\\B", .insert "Neos.Node" .other, .bind "Neos.Node" "\\A\\C"]).longestMatch?
    ["Neos.Node", "nearest"] = some ⟨1, "Neos.Node", .className "A\\C"⟩ := by
  decide

end BoundHelpers

end FusionAtlas
