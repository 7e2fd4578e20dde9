import FusionAtlas.Configuration
import FusionAtlas.Proofs.YamlKeys
import Mathlib.Data.List.DropRight

/-!
Settings at a path against the merged document. A layer cuts a path if it holds something other than
a mapping above the end of the path: in the merged document that replaces whatever earlier layers hold
below, while a lookup of the path alone passes over the layer. Main statement:
`Configuration.get?_bind_memberAt?`.
-/

set_option autoImplicit false
set_option relaxedAutoImplicit false

namespace FusionAtlas

namespace Yaml.Value

/-- Something other than a mapping stands in the value before the last of the names is reached. -/
def cuts : Value → List String → Bool
  | _, [] => false
  | mapping entries, name :: more =>
    match (mapping entries).member? name with
    | some value => value.cuts more
    | none => false
  | _, _ :: _ => true

theorem memberAt?_append (value : Value) (front behind : List String) :
    value.memberAt? (front ++ behind) = (value.memberAt? front).bind (·.memberAt? behind) := by
  induction front generalizing value with
  | nil => rfl
  | cons name front ih => simp only [List.cons_append, memberAt?, ih, Option.bind_assoc]

theorem memberAt?_of_cuts {value : Value} {names : List String} (cut : value.cuts names = true) :
    value.memberAt? names = none := by
  induction names generalizing value with
  | nil => cases value <;> cases cut
  | cons name names ih =>
    cases value with
    | mapping entries =>
      rw [cuts] at cut
      rw [memberAt?]
      split at cut
      · next inner found =>
        rw [found, Option.bind_some]
        exact ih cut
      · cases cut
    | _ => rfl

section Mappings

variable {base upper : Mapping} {key other : Value} {name : String}

/-- What a key leads to in a mapping. -/
def valueOf? (entries : Mapping) (key : Value) : Option Value :=
  (entries.find? fun entry => entry.1.same key).map (·.2)

theorem valueOf?_cons (entry : Value × Value) (entries : Mapping) (key : Value) :
    valueOf? (entry :: entries) key = if entry.1.same key then some entry.2 else valueOf? entries key := by
  simp only [valueOf?, List.find?_cons]
  split <;> simp_all

/-- Altering a key changes what it leads to. -/
theorem valueOf?_alter_self (text : key.asString? = some name) (base : Mapping)
    (change : Option Value → Value) :
    valueOf? (alter base key change) key = some (change (valueOf? base key)) := by
  induction base with
  | nil =>
    rw [alter, valueOf?_cons, if_pos (same_self text)]
    rfl
  | cons entry base ih =>
    rw [alter, valueOf?_cons]
    split
    · next here => rw [valueOf?_cons, if_pos here]
    · next apart => rw [valueOf?_cons, if_neg apart, ih]

/-- It changes what no other key leads to, if that is a text. -/
theorem valueOf?_alter_of_ne (text : other.asString? = some name) (base : Mapping)
    (change : Option Value → Value) (apart : key ≠ other) :
    valueOf? (alter base key change) other = valueOf? base other := by
  have foreign {entry : Value} (same : entry.same other = true) : ¬entry.same key = true := by
    rw [(same_iff_of_asString? text entry).2.mp same]
    exact fun equal => apart ((same_iff_of_asString? text key).1.mp equal).symm
  induction base with
  | nil =>
    rw [alter, valueOf?_cons, if_neg fun same => apart ((same_iff_of_asString? text key).2.mp same)]
  | cons entry base ih =>
    rw [alter, valueOf?_cons]
    by_cases here : entry.1.same other = true
    · rw [if_neg (foreign here), valueOf?_cons, if_pos here, if_pos here]
    · split
      · rw [valueOf?_cons, if_neg here]
      · rw [valueOf?_cons, if_neg here, ih]

/-- What a text leads to in laid over entries is what it leads to in each, laid over one another. -/
theorem valueOf?_overlayEntries (text : other.asString? = some name) (base : Mapping)
    (once : upper.Pairwise fun a b => a.1.same b.1 = false) :
    valueOf? (overlayEntries base upper) other =
      Option.merge overlay (valueOf? base other) (valueOf? upper other) := by
  induction upper generalizing base with
  | nil =>
    rw [overlayEntries]
    cases valueOf? base other <;> rfl
  | cons entry upper ih =>
    obtain ⟨key, value⟩ := entry
    obtain ⟨first, others⟩ := List.pairwise_cons.mp once
    rw [overlayEntries, ih _ others, valueOf?_cons]
    by_cases own : key = other
    · subst own
      -- The key does not stand again behind its entry.
      have missing : valueOf? upper key = none := by
        rw [valueOf?, Option.map_eq_none_iff, List.find?_eq_none]
        intro entry member same
        have twice := first entry member
        rw [(same_iff_of_asString? text entry.1).2.mp same, same_self text] at twice
        cases twice
      rw [valueOf?_alter_self text, missing, if_pos (same_self text)]
      cases valueOf? base key <;> rfl
    · have apart : ¬key.same other = true := fun same => own ((same_iff_of_asString? text key).2.mp same)
      rw [valueOf?_alter_of_ne text _ _ own, if_neg apart]

/-- In a mapping with each key once, a text leads to the values that stand with it. -/
theorem valueOf?_eq_some_iff (text : key.asString? = some name) {entries : Mapping}
    (once : entries.Pairwise fun a b => a.1.same b.1 = false) {value : Value} :
    valueOf? entries key = some value ↔ (key, value) ∈ entries := by
  have same_iff (entry : Value × Value) := (same_iff_of_asString? text entry.1).2
  induction entries with
  | nil => simp [valueOf?]
  | cons entry entries ih =>
    obtain ⟨first, others⟩ := List.pairwise_cons.mp once
    rw [valueOf?_cons, List.mem_cons]
    by_cases here : entry.1 = key
    · have behind : (key, value) ∉ entries := fun member => by
        have twice := first _ member
        rw [here, same_self text] at twice
        cases twice
      rw [if_pos ((same_iff entry).mpr here), or_iff_left behind, Option.some_inj, Prod.ext_iff, here]
      exact ⟨fun same => ⟨rfl, same.symm⟩, fun same => same.2.symm⟩
    · have apart : (key, value) ≠ entry := fun same => here (same ▸ rfl)
      rw [if_neg fun same => here ((same_iff entry).mp same), or_iff_right apart]
      exact ih others

theorem OnceKeyed.pairwise {entries : Mapping} (keyed : OnceKeyed (.mapping entries)) :
    entries.Pairwise fun a b => a.1.same b.1 = false := by
  cases keyed with
  | mapping once _ => exact once
  | other apart => exact absurd rfl (apart entries)

theorem member?_overlay (base : Mapping) (keyed : OnceKeyed (.mapping upper)) (name : String) :
    (overlay (mapping base) (mapping upper)).member? name =
      Option.merge overlay ((mapping base).member? name) ((mapping upper).member? name) := by
  have text : (string name).asString? = some name := rfl
  rw [overlay]
  exact valueOf?_overlayEntries text base keyed.pairwise

end Mappings

theorem OnceKeyed.of_member? {value inner : Value} {name : String} (keyed : OnceKeyed value)
    (found : value.member? name = some inner) : OnceKeyed inner := by
  cases keyed with
  | mapping once values =>
    obtain ⟨entry, search, rfl⟩ := Option.map_eq_some_iff.mp found
    exact values entry (List.mem_of_find?_eq_some search)
  | other apart =>
    cases value with
    | mapping entries => exact absurd rfl (apart entries)
    | _ => cases found

theorem OnceKeyed.of_memberAt? {value inner : Value} {names : List String} (keyed : OnceKeyed value)
    (found : value.memberAt? names = some inner) : OnceKeyed inner := by
  induction names generalizing value with
  | nil => exact Option.some.inj found ▸ keyed
  | cons name names ih =>
    obtain ⟨middle, first, others⟩ := Option.bind_eq_some_iff.mp found
    exact ih (keyed.of_member? first) others

/-- Nothing is left of a value unless it and what is laid over it are mappings. -/
theorem overlay_of_not_mapping {base upper : Value}
    (atom : (∀ entries, base ≠ mapping entries) ∨ ∀ entries, upper ≠ mapping entries) :
    overlay base upper = upper := by
  unfold overlay
  split
  · rcases atom with atom | atom
    · exact absurd rfl (atom _)
    · exact absurd rfl (atom _)
  · rfl

theorem memberAt?_of_not_mapping {value : Value} (atom : ∀ entries, value ≠ mapping entries)
    (name : String) (names : List String) : value.memberAt? (name :: names) = none := by
  cases value with
  | mapping entries => exact absurd rfl (atom entries)
  | _ => rfl

theorem cuts_of_not_mapping {value : Value} (atom : ∀ entries, value ≠ mapping entries)
    (name : String) (names : List String) : value.cuts (name :: names) = true := by
  cases value with
  | mapping entries => exact absurd rfl (atom entries)
  | _ => rfl

/-- Where only the upper value leads on, it decides alone. -/
theorem memberAt?_eq_merge (upper : Value) (names : List String) :
    upper.memberAt? names =
      if upper.cuts names then none else Option.merge overlay none (upper.memberAt? names) := by
  split
  · next cut => exact memberAt?_of_cuts cut
  · cases upper.memberAt? names <;> rfl

/-- What names lead to in a value laid over another: nothing if the upper one cuts them, else what they
lead to in each, laid over one another. -/
theorem memberAt?_overlay (base : Value) {upper : Value} (keyed : OnceKeyed upper)
    (names : List String) :
    (overlay base upper).memberAt? names =
      if upper.cuts names then none
      else Option.merge overlay (base.memberAt? names) (upper.memberAt? names) := by
  induction names generalizing base upper with
  | nil => cases upper <;> rfl
  | cons name names ih =>
    cases keyed with
    | other atom =>
      rw [overlay_of_not_mapping (Or.inr atom), if_pos (cuts_of_not_mapping atom name names),
        memberAt?_of_not_mapping atom]
    | @mapping entries once values =>
      have keyed : OnceKeyed (mapping entries) := .mapping once values
      by_cases under : ∃ below, base = mapping below
      · obtain ⟨below, rfl⟩ := under
        rw [memberAt?, memberAt?, memberAt?, member?_overlay below keyed, cuts]
        -- The name may be missing on either side.
        cases old : (mapping below).member? name with
        | none =>
          cases new : (mapping entries).member? name with
          | none => rfl
          | some value => exact memberAt?_eq_merge value names
        | some first =>
          cases new : (mapping entries).member? name with
          | none =>
            change first.memberAt? names = Option.merge overlay (first.memberAt? names) none
            cases first.memberAt? names <;> rfl
          | some value => exact ih first (keyed.of_member? new)
      · have atom : ∀ entries, base ≠ mapping entries := fun entries same => under ⟨entries, same⟩
        rw [overlay_of_not_mapping (Or.inl atom), memberAt?_of_not_mapping atom]
        exact memberAt?_eq_merge _ _

end Yaml.Value

namespace Configuration

open FusionAtlas.Yaml (Value)
open FusionAtlas.Yaml.Value (OnceKeyed overlay)

/-- One more value is laid over the others. -/
theorem overlayAll_append (values : List Value) (last : Option Value) :
    overlayAll (values ++ last.toList) = Option.merge overlay (overlayAll values) last := by
  cases last with
  | none =>
    rw [Option.toList_none, List.append_nil]
    cases overlayAll values <;> rfl
  | some value =>
    cases values with
    | nil => rfl
    | cons first values =>
      simp only [overlayAll, Option.toList_some, List.cons_append, List.foldl_append,
        List.foldl_cons, List.foldl_nil]
      rfl

/-- What names lead to in values laid over each other: only the values behind the last one that cuts
the names have a say. -/
theorem memberAt?_overlayAll (names : List String) {values : List Value}
    (keyed : ∀ value ∈ values, OnceKeyed value) :
    (overlayAll values).bind (·.memberAt? names) =
      overlayAll ((values.rtakeWhile fun value => !value.cuts names).filterMap
        (·.memberAt? names)) := by
  induction values using List.reverseRecOn with
  | nil => rfl
  | append_singleton values last ih =>
    have others := ih fun value member => keyed value (List.mem_append_left _ member)
    have keyed := keyed last (List.mem_append_right _ List.mem_cons_self)
    have laid : (overlayAll (values ++ [last])).bind (·.memberAt? names) =
        if last.cuts names then none
        else Option.merge overlay ((overlayAll values).bind (·.memberAt? names))
          (last.memberAt? names) := by
      rw [← Option.toList_some, overlayAll_append]
      cases overlayAll values with
      | none => exact Yaml.Value.memberAt?_eq_merge last names
      | some base => exact Yaml.Value.memberAt?_overlay base keyed names
    rw [laid, List.rtakeWhile_concat]
    cases cut : last.cuts names with
    | true => rfl
    | false =>
      rw [if_neg Bool.false_ne_true, Bool.not_false, if_pos rfl, List.filterMap_append, others,
        ← overlayAll_append]
      congr 1

/-- The single mapping that all layers make, laid over each other. -/
def merged (config : Configuration) : Option Value :=
  overlayAll (config.layers.map fun layer => .mapping layer.settings)

/-- The layers behind the last one that holds, at the outer keys, a value that cuts the inner ones. -/
def behindCut (config : Configuration) (outer inner : List String) : Configuration :=
  ⟨config.layers.rtakeWhile fun layer => (layer.valueAt? outer).all fun value => !value.cuts inner⟩

/-- Every layer was read from a text. -/
def Loaded (config : Configuration) : Prop :=
  ∀ layer ∈ config.layers, ∃ text, ConfigLayer.parse layer.source text = .ok layer

theorem loaded_empty : Loaded empty := fun _ member => absurd member List.not_mem_nil

/-- A layer keeps its file, and its settings are the mapping of the text or empty. -/
theorem parse_eq_ok {source : FileUri} {text : String} {layer : ConfigLayer}
    (read : ConfigLayer.parse source text = .ok layer) :
    layer.source = source ∧
      (layer.settings = [] ∨ Yaml.parse text = .ok (.mapping layer.settings)) := by
  rw [ConfigLayer.parse] at read
  split at read
  · cases read
  · have made := Except.ok.inj read
    subst made
    exact ⟨rfl, .inl rfl⟩
  · next settings parsed =>
    have made := Except.ok.inj read
    subst made
    exact ⟨rfl, .inr parsed⟩
  · cases read

theorem Loaded.pushText {config after : Configuration} {source : FileUri} {text : String}
    (loaded : Loaded config) (pushed : config.pushText source text = .ok after) : Loaded after := by
  rw [Configuration.pushText] at pushed
  cases read : ConfigLayer.parse source text with
  | error fault =>
    rw [read] at pushed
    cases pushed
  | ok layer =>
    rw [read] at pushed
    cases pushed
    intro other member
    rcases List.mem_append.mp member with old | new
    · exact loaded other old
    · rw [List.mem_singleton.mp new]
      exact ⟨text, (parse_eq_ok read).1.symm ▸ read⟩

theorem Loaded.onceKeyed {config : Configuration} (loaded : Loaded config) {layer : ConfigLayer}
    (member : layer ∈ config.layers) : OnceKeyed (.mapping layer.settings) := by
  obtain ⟨text, read⟩ := loaded layer member
  rcases (parse_eq_ok read).2 with none | parsed
  · rw [none]
    exact .mapping .nil fun entry inside => absurd inside List.not_mem_nil
  · exact Yaml.Value.onceKeyed_of_parse parsed

theorem get?_eq_overlayAll (config : Configuration) (path : String) :
    config.get? path = overlayAll (config.layers.filterMap (·.valueAt? (keysOf path))) := by
  rw [get?, search, List.map_filterMap]
  congr 2
  funext layer
  cases layer.valueAt? (keysOf path) <;> rfl

theorem get?_whole (config : Configuration) : config.get? "" = config.merged := by
  rw [get?_eq_overlayAll, merged]
  have whole : keysOf "" = [] := rfl
  rw [whole]
  congr 1
  exact List.filterMap_eq_map' ▸ rfl

/-- A dotted path leads through the keys of its front part, then through those of the rest. -/
theorem keysOf_append {outer inner : String} (front : outer ≠ "") (rest : inner ≠ "") :
    keysOf (outer ++ "." ++ inner) = keysOf outer ++ keysOf inner := by
  have whole : outer ++ "." ++ inner ≠ "" := by
    intro empty
    have := congrArg String.toList empty
    simp at this
  rw [keysOf, keysOf, keysOf]
  simp only [String.isEmpty_iff, if_neg whole, if_neg front, if_neg rest, String.toList_append]
  rw [← List.map_append]
  congr 1
  simp only [List.splitOn, List.append_assoc]
  exact List.splitOnP_append_cons _ _ (by decide)

/-- The last values that pass a test, seen through a partial function of the layers. -/
theorem rtakeWhile_filterMap {α β : Type} (f : α → Option β) (test : β → Bool) (items : List α) :
    (items.filterMap f).rtakeWhile test =
      (items.rtakeWhile fun item => (f item).all test).filterMap f := by
  induction items using List.reverseRecOn with
  | nil => rfl
  | append_singleton items last ih =>
    rw [List.filterMap_append, List.rtakeWhile_concat]
    cases value : f last with
    | none =>
      have skipped : [last].filterMap f = [] := by rw [List.filterMap_cons, value]; rfl
      rw [skipped, List.append_nil, ih, Option.all_none, if_pos rfl, List.filterMap_append, skipped,
        List.append_nil]
    | some value' =>
      have kept : [last].filterMap f = [value'] := by rw [List.filterMap_cons, value]; rfl
      rw [kept, List.rtakeWhile_concat, Option.all_some]
      split
      · rw [List.filterMap_append, kept, ih]
      · rfl

/-- A value within the settings at a path is the one that the layers behind the last cut lead to on the
longer path. So where no layer cuts the way, it is the value at the longer path; and the settings at the
empty path are the merged document. -/
theorem get?_bind_memberAt? {config : Configuration} (loaded : config.Loaded) {outer path : String}
    {inner : List String} (longer : keysOf path = keysOf outer ++ inner) :
    config.get? "" = config.merged ∧
    (config.get? outer).bind (·.memberAt? inner) =
      (config.behindCut (keysOf outer) inner).get? path ∧
    ((∀ layer ∈ config.layers, ∀ value, layer.valueAt? (keysOf outer) = some value →
        value.cuts inner = false) →
      (config.get? outer).bind (·.memberAt? inner) = config.get? path) := by
  have keyed : ∀ value ∈ config.layers.filterMap (·.valueAt? (keysOf outer)), OnceKeyed value := by
    intro value member
    obtain ⟨layer, among, found⟩ := List.mem_filterMap.mp member
    exact (loaded.onceKeyed among).of_memberAt? found
  have law : (config.get? outer).bind (·.memberAt? inner) =
      (config.behindCut (keysOf outer) inner).get? path := by
    rw [get?_eq_overlayAll, get?_eq_overlayAll, memberAt?_overlayAll inner keyed,
      rtakeWhile_filterMap, List.filterMap_filterMap, behindCut]
    congr 2
    funext layer
    rw [longer]
    exact (Yaml.Value.memberAt?_append _ _ _).symm
  refine ⟨get?_whole config, law, fun free => ?_⟩
  have all : config.behindCut (keysOf outer) inner = config := by
    have passes : ∀ layer ∈ config.layers, ((layer.valueAt? (keysOf outer)).all fun value =>
        !value.cuts inner) = true := by
      intro layer member
      rw [Option.all_eq_true]
      intro value found
      rw [free layer member value found, Bool.not_false]
    rw [behindCut, List.rtakeWhile_eq_self_iff.mpr passes]
  rw [law, all]

theorem ok_of_any {run : Except ConfigError Configuration} {test : Configuration → Bool}
    (found : run.toOption.any test = true) : ∃ config, run = .ok config ∧ test config = true := by
  cases run with
  | error fault => cases found
  | ok config => exact ⟨config, rfl, found⟩

/-- Two files that set one key; the later one wins on both ways to it. -/
theorem get?_bind_memberAt?_two_files :
    ∃ config, (empty.pushText ⟨"file:///a.yaml"⟩ "A:\n  b: 1\n" >>=
        (·.pushText ⟨"file:///b.yaml"⟩ "A:\n  b: 2\n")) = .ok config ∧
      (config.get? "A").bind (·.memberAt? (keysOf "b")) = config.get? "A.b" ∧
      (config.get? "A.b").any (·.same (.int 2)) = true := by
  have found : (empty.pushText ⟨"file:///a.yaml"⟩ "A:\n  b: 1\n" >>=
      (·.pushText ⟨"file:///b.yaml"⟩ "A:\n  b: 2\n")).toOption.any (fun config =>
        (config.layers.all fun layer => (layer.valueAt? (keysOf "A")).all (!·.cuts (keysOf "b"))) &&
          (config.get? "A.b").any (·.same (.int 2))) = true := by decide +kernel
  obtain ⟨config, made, holds⟩ := ok_of_any found
  obtain ⟨base, first, second⟩ := Yaml.bind_eq_ok made
  obtain ⟨free, value⟩ := (Bool.and_eq_true _ _).mp holds
  refine ⟨config, made, ?_, value⟩
  have longer : keysOf "A.b" = keysOf "A" ++ keysOf "b" :=
    @keysOf_append "A" "b" (by decide) (by decide)
  refine (get?_bind_memberAt? ((loaded_empty.pushText first).pushText second) longer).2.2 ?_
  intro layer member value outer
  have passes := List.all_eq_true.mp free layer member
  rw [outer] at passes
  exact (Bool.not_eq_true' _).mp passes

/-- A later file empties the outer key: the merged document has nothing below it, and the path still
leads to the value of the earlier file. -/
theorem value_below_emptied_key :
    ∃ config, (empty.pushText ⟨"file:///a.yaml"⟩ "A:\n  b: 1\n" >>=
        (·.pushText ⟨"file:///b.yaml"⟩ "A: null\n")) = .ok config ∧
      (config.merged.bind (·.memberAt? (keysOf "A.b"))).isNone = true ∧
      (config.get? "A").any (·.same .null) = true ∧
      (config.get? "A.b").any (·.same (.int 1)) = true := by
  have found : (empty.pushText ⟨"file:///a.yaml"⟩ "A:\n  b: 1\n" >>=
      (·.pushText ⟨"file:///b.yaml"⟩ "A: null\n")).toOption.any (fun config =>
        (config.merged.bind (·.memberAt? (keysOf "A.b"))).isNone &&
          ((config.get? "A").any (·.same .null) &&
            (config.get? "A.b").any (·.same (.int 1)))) = true := by decide +kernel
  obtain ⟨config, made, holds⟩ := ok_of_any found
  obtain ⟨missing, others⟩ := (Bool.and_eq_true _ _).mp holds
  obtain ⟨emptied, kept⟩ := (Bool.and_eq_true _ _).mp others
  exact ⟨config, made, missing, emptied, kept⟩

end Configuration

end FusionAtlas
