import FusionAtlas.Yaml.Document

/-!
Keys of a document. A key stands once in every mapping that a document holds, and a text is the same
key as itself alone. Main statement: `Yaml.Value.onceKeyed_of_parse`.
-/

set_option autoImplicit false
set_option relaxedAutoImplicit false

namespace FusionAtlas.Yaml

namespace Value

/-- No key stands twice in the value or in a mapping that lies in it below mappings only. -/
inductive OnceKeyed : Value → Prop
  | mapping {entries : Mapping} (once : entries.Pairwise fun a b => a.1.same b.1 = false)
      (values : ∀ entry ∈ entries, OnceKeyed entry.2) : OnceKeyed (.mapping entries)
  | other {value : Value} (apart : ∀ entries, value ≠ .mapping entries) : OnceKeyed value

/-- A text is the same key as itself alone, on either side. -/
@[simp] theorem same_string_right (key : Value) (name : String) :
    key.same (string name) = true ↔ key = string name := by
  cases key <;> simp [same]

@[simp] theorem same_string_left (key : Value) (name : String) :
    (string name).same key = true ↔ string name = key := by
  cases key <;> simp [same]

theorem asString?_tagged (tag : String) (value : Value) : (tagged tag value).asString? = value.asString? := by
  rw [asString?, untagged, ← asString?]

/-- So is a text under tags, if the tags are the same. -/
theorem same_iff_of_asString? {key : Value} {name : String} (text : key.asString? = some name) :
    ∀ other : Value, (key.same other = true ↔ key = other) ∧ (other.same key = true ↔ other = key) := by
  intro other
  match key with
  | string found => exact ⟨same_string_left other found, same_string_right other found⟩
  | tagged tag inner =>
    have deeper := same_iff_of_asString? (asString?_tagged tag inner ▸ text)
    cases other <;> simp [same, deeper]
  | null | bool _ | int _ | float _ | sequence _ | mapping _ => cases text
termination_by structural key

theorem same_self {key : Value} {name : String} (text : key.asString? = some name) : key.same key = true :=
  (same_iff_of_asString? text key).1.mpr rfl

end Value

theorem bind_eq_ok {ε α β : Type} {first : Except ε α} {next : α → Except ε β} {result : β}
    (run : first >>= next = .ok result) : ∃ value, first = .ok value ∧ next value = .ok result := by
  cases first with
  | error fault => cases run
  | ok value => exact ⟨value, rfl, run⟩

theorem map_eq_ok {α β : Type} {first : Except Fault α} {f : α → β} {result : β}
    (run : first.map f = .ok result) : ∃ value, first = .ok value ∧ f value = result := by
  cases first with
  | error fault => cases run
  | ok value => exact ⟨value, rfl, Except.ok.inj run⟩

/-- What holds of the start of a fold and is kept by each step holds at its end. -/
theorem foldlM_keeps {α β : Type} {P : β → Prop} {step : β → α → Except Fault β} {items : List α}
    {start result : β} (keeps : ∀ item ∈ items, ∀ before after, step before item = .ok after →
      P before → P after) (begins : P start) (run : items.foldlM step start = .ok result) :
    P result := by
  induction items generalizing start with
  | nil =>
    cases run
    exact begins
  | cons item more ih =>
    rw [List.foldlM_cons] at run
    obtain ⟨middle, first, others⟩ := bind_eq_ok run
    refine ih (fun later member => keeps later (List.mem_cons_of_mem item member)) ?_ others
    exact keeps item List.mem_cons_self start middle first begins

namespace Document

open Value (OnceKeyed)

theorem withTag_onceKeyed {tag : Option (List Char)} {value : Value} (keyed : OnceKeyed value) :
    OnceKeyed (withTag tag value) := by
  unfold withTag
  split
  · exact .other nofun
  · exact keyed

/-- A scalar is no mapping. -/
def IsScalar (result : Except Fault Value) : Prop :=
  ∀ value, result = .ok value → ∀ entries, value ≠ .mapping entries

theorem isScalar_error (fault : Fault) : IsScalar (.error fault) := by
  intro value found
  cases found

theorem isScalar_ok {value : Value} (apart : ∀ entries, value ≠ .mapping entries) :
    IsScalar (.ok value) := by
  intro found same
  cases same
  exact apart

theorem integerValue_isScalar (n : Int) (text : List Char) :
    IsScalar (Scalar.integerValue n text) := by
  unfold Scalar.integerValue
  split
  · exact isScalar_ok fun _ => Value.noConfusion
  · exact isScalar_error _

theorem plainValue_isScalar (text : List Char) : IsScalar (Scalar.plainValue text) := by
  unfold Scalar.plainValue
  dsimp only
  repeat' split
  all_goals first
    | exact integerValue_isScalar _ _
    | exact isScalar_ok fun _ => Value.noConfusion

theorem taggedValue_isScalar (tag text : List Char) : IsScalar (Scalar.taggedValue tag text) := by
  unfold Scalar.taggedValue
  dsimp only
  repeat' split
  all_goals first
    | exact isScalar_error _
    | exact integerValue_isScalar _ _
    | exact isScalar_ok fun _ => Value.noConfusion

theorem scalarValue_isScalar (tag : Option (List Char)) (text : List Char) (isPlain : Bool) :
    IsScalar (scalarValue tag text isPlain) := by
  have untagged : IsScalar
      (if isPlain then Scalar.plainValue text else .ok (.string (String.ofList text))) := by
    split
    · exact plainValue_isScalar text
    · exact isScalar_ok fun _ => Value.noConfusion
  unfold scalarValue
  dsimp only
  split
  · exact untagged
  · split
    · intro value found entries
      obtain ⟨inner, read, rfl⟩ := map_eq_ok found
      unfold withTag
      split
      · exact nofun
      · exact untagged inner read entries
    · exact taggedValue_isScalar _ text

theorem onceKeyed_of_addEntry {entries after : Mapping} {key value : Value}
    (added : addEntry entries key value = .ok after) (keyed : OnceKeyed value)
    (before : OnceKeyed (.mapping entries)) : OnceKeyed (.mapping after) := by
  unfold addEntry at added
  split at added
  · cases added
  · next new =>
    cases added
    cases before with
    | other apart => exact absurd rfl (apart entries)
    | mapping once values =>
      refine .mapping (List.pairwise_append.mpr ⟨once, List.pairwise_singleton _ _, ?_⟩) ?_
      · intro entry member last single
        rw [List.mem_singleton.mp single]
        rw [List.any_eq_true] at new
        exact Bool.eq_false_iff.mpr fun same => new ⟨entry, member, same⟩
      · intro entry member
        rcases List.mem_append.mp member with old | last
        · exact values entry old
        · rw [List.mem_singleton.mp last]
          exact keyed

/-- In the value of a node each key stands once if that holds for its parts. -/
theorem onceKeyed_of_contentValue {inner : Option (Node → Nat → Except Fault (Value × Nat))}
    {node : Node} {left behind : Nat} {value : Value}
    (parts : ∀ way ∈ inner, ∀ node left value behind, way node left = .ok (value, behind) →
      OnceKeyed value)
    (read : contentValue inner node left = .ok (value, behind)) : OnceKeyed value := by
  unfold contentValue at read
  split at read
  · next tag text isPlain =>
    obtain ⟨scalar, found, same⟩ := bind_eq_ok read
    cases same
    exact .other (scalarValue_isScalar tag text isPlain value found)
  · obtain ⟨found, -, same⟩ := bind_eq_ok read
    cases same
    exact withTag_onceKeyed (.other nofun)
  · next tag entries way =>
    obtain ⟨found, folded, same⟩ := bind_eq_ok read
    cases same
    refine withTag_onceKeyed ?_
    refine foldlM_keeps (P := fun found => OnceKeyed (.mapping found.1)) ?_ ?_ folded
    · intro entry _ before after step keyed
      obtain ⟨key, -, step⟩ := bind_eq_ok step
      obtain ⟨value, second, step⟩ := bind_eq_ok step
      obtain ⟨entries, added, same⟩ := bind_eq_ok step
      cases same
      exact onceKeyed_of_addEntry added (parts way rfl _ _ _ _ second) keyed
    · exact .mapping List.Pairwise.nil nofun
  · cases read

/-- By induction on the depth that is left. -/
theorem onceKeyed_of_valueWithin {anchors : Anchors} (depth : Nat) {node : Node}
    {left behind : Nat} {value : Value}
    (read : valueWithin anchors depth node left = .ok (value, behind)) : OnceKeyed value := by
  induction depth generalizing node left behind value with
  | zero =>
    rw [valueWithin] at read
    obtain ⟨found, -, read⟩ := bind_eq_ok read
    exact onceKeyed_of_contentValue (fun _ member => absurd member (Option.not_mem_none _)) read
  | succ depth ih =>
    rw [valueWithin] at read
    obtain ⟨found, -, read⟩ := bind_eq_ok read
    refine onceKeyed_of_contentValue ?_ read
    intro way same node left value behind read
    cases same
    exact ih read

end Document

/-- Each key of a document stands once in its mapping. -/
theorem Value.onceKeyed_of_parse {text : String} {value : Value} (read : parse text = .ok value) :
    OnceKeyed value := by
  obtain ⟨document, -, read⟩ := bind_eq_ok read
  unfold Document.value at read
  split at read
  · cases read
    exact .other nofun
  · obtain ⟨found, within, rfl⟩ := map_eq_ok read
    exact Document.onceKeyed_of_valueWithin Document.maxDepth within

end FusionAtlas.Yaml
