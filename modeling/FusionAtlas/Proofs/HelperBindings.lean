import FusionAtlas.Proofs.LongestMatch
import FusionAtlas.Proofs.MergedSettings
import FusionAtlas.Proofs.Trimming

/-!
The helpers that settings in layers bind. Laid over each other, mappings keep their keys in the order in which
each first occurs, and a key leads to what the last layer with that key makes of it. A helper is the text of a
key; tags make different keys of one text, and then the one that is new last binds it. Main statements:
`Yaml.Value.keys_overlayEntries`, `HelperBinding.binds_iff` and
`BoundHelpers.get?_ofConfiguration_eq_some_iff`.
-/

set_option autoImplicit false
set_option relaxedAutoImplicit false

namespace FusionAtlas

open Yaml (Mapping Value)
open Yaml.Value (OnceKeyed overlay overlayEntries alter valueOf?)

namespace Yaml.Value

section Keys

variable {known listed : List Value} {key : Value} {name : String}

/-- The keys of a mapping in order. -/
def keys (entries : Mapping) : List Value := entries.map (·.1)

@[simp] theorem keys_cons (entry : Value × Value) (entries : Mapping) :
    keys (entry :: entries) = entry.1 :: keys entries := rfl

theorem mem_keys_iff {entries : Mapping} {key : Value} : key ∈ keys entries ↔ ∃ value, (key, value) ∈ entries := by
  simp [keys]

/-- One more key, at the end if it is new. -/
def addKey (known : List Value) (key : Value) : List Value :=
  if known.any (·.same key) then known else known ++ [key]

theorem keys_alter (base : Mapping) (key : Value) (change : Option Value → Value) :
    keys (alter base key change) = addKey (keys base) key := by
  induction base with
  | nil => rfl
  | cons entry base ih =>
    rw [alter, addKey, keys_cons, List.any_cons]
    by_cases here : entry.1.same key = true
    · rw [if_pos here, here, Bool.true_or, if_pos rfl, keys_cons]
    · rw [if_neg here, Bool.eq_false_iff.mpr here, Bool.false_or, keys_cons, ih, addKey]
      split <;> rfl

/-- Entries laid over a mapping add the keys that are new. -/
theorem keys_overlayEntries (base upper : Mapping) :
    keys (overlayEntries base upper) = (keys upper).foldl addKey (keys base) := by
  induction upper generalizing base with
  | nil => rw [overlayEntries, keys, keys, List.map_nil, List.foldl_nil]
  | cons entry upper ih =>
    obtain ⟨key, value⟩ := entry
    rw [overlayEntries, ih, keys_alter, keys_cons, List.foldl_cons]

/-- Keys of which each stands once are all new. -/
theorem foldl_addKey_of_pairwise (once : (known ++ listed).Pairwise fun a b => a.same b = false) :
    listed.foldl addKey known = known ++ listed := by
  induction listed generalizing known with
  | nil => rw [List.foldl_nil, List.append_nil]
  | cons key listed ih =>
    have new : addKey known key = known ++ [key] := by
      refine if_neg fun found => ?_
      obtain ⟨earlier, member, same⟩ := List.any_eq_true.mp found
      have apart := (List.pairwise_append.mp once).2.2 earlier member key (List.mem_cons_self ..)
      exact absurd (apart.symm.trans same) Bool.false_ne_true
    rw [List.foldl_cons, new, ih (by simpa using once), List.append_assoc, List.singleton_append]

theorem pairwise_foldl_addKey (once : known.Pairwise fun a b => a.same b = false) :
    (listed.foldl addKey known).Pairwise fun a b => a.same b = false := by
  induction listed generalizing known with
  | nil => exact once
  | cons key listed ih =>
    refine ih ?_
    rw [addKey]
    split
    · exact once
    · next new =>
      refine List.pairwise_append.mpr ⟨once, List.pairwise_singleton _ _, fun earlier member last single => ?_⟩
      rw [List.mem_singleton.mp single]
      exact Bool.eq_false_iff.mpr fun same => new (List.any_eq_true.mpr ⟨earlier, member, same⟩)

theorem any_same_iff (text : key.asString? = some name) : known.any (·.same key) = true ↔ key ∈ known := by
  rw [List.any_eq_true]
  constructor
  · rintro ⟨earlier, member, same⟩
    exact (same_iff_of_asString? text earlier).2.mp same ▸ member
  · exact fun member => ⟨key, member, same_self text⟩

/-- A text is among the keys that were new if it is among all keys. -/
theorem mem_foldl_addKey_iff (text : key.asString? = some name) :
    key ∈ listed.foldl addKey known ↔ key ∈ known ∨ key ∈ listed := by
  induction listed generalizing known with
  | nil => simp
  | cons next listed ih =>
    have one : key ∈ addKey known next ↔ key ∈ known ∨ key = next := by
      rw [addKey]
      split
      · next found =>
        refine (or_iff_left_of_imp fun same => ?_).symm
        exact (any_same_iff text).mp (same ▸ found)
      · rw [List.mem_append, List.mem_singleton]
    rw [List.foldl_cons, ih, one, List.mem_cons, or_assoc]

/-- The last of the keys with this text. -/
def LastOf (name : String) (listed : List Value) (key : Value) : Prop :=
  ∃ front behind, listed = front ++ key :: behind ∧ key.asString? = some name ∧
    ∀ later ∈ behind, later.asString? ≠ some name

/-- Of the keys with this text, the one that occurs for the first time last. -/
def LastNew (name : String) (listed : List Value) (key : Value) : Prop :=
  ∃ front behind, listed = front ++ key :: behind ∧ key.asString? = some name ∧ key ∉ front ∧
    ∀ later ∈ behind, later.asString? = some name → later ∈ front ++ [key]

theorem lastOf_concat (last : Value) : LastOf name (listed ++ [last]) key ↔
    if last.asString? = some name then key = last else LastOf name listed key := by
  constructor
  · rintro ⟨front, behind, parts, text, others⟩
    rcases List.eq_nil_or_concat' behind with rfl | ⟨behind, final, rfl⟩
    · obtain ⟨rfl, rfl⟩ := List.append_singleton_inj.mp parts
      rw [if_pos text]
    · rw [← List.cons_append, ← List.append_assoc] at parts
      obtain ⟨rfl, rfl⟩ := List.append_singleton_inj.mp parts
      rw [if_neg (others last (by simp))]
      exact ⟨front, behind, rfl, text, fun later member => others later (List.mem_append_left _ member)⟩
  · intro found
    split at found
    · next text => exact ⟨listed, [], by rw [found], found ▸ text, fun _ member => nomatch member⟩
    · next apart =>
      obtain ⟨front, behind, rfl, text, others⟩ := found
      refine ⟨front, behind ++ [last], by simp, text, fun later member => ?_⟩
      rcases List.mem_append.mp member with inside | new
      · exact others later inside
      · exact List.mem_singleton.mp new ▸ apart

theorem lastNew_concat_of_new {last : Value} (text : last.asString? = some name) (new : last ∉ listed) :
    LastNew name (listed ++ [last]) key ↔ key = last := by
  constructor
  · rintro ⟨front, behind, parts, -, -, others⟩
    rcases List.eq_nil_or_concat' behind with rfl | ⟨behind, final, rfl⟩
    · exact (List.append_singleton_inj.mp parts).2.symm
    · rw [← List.cons_append, ← List.append_assoc] at parts
      obtain ⟨rfl, rfl⟩ := List.append_singleton_inj.mp parts
      have known := others last (by simp) text
      exact absurd (List.append_cons front key behind ▸ List.mem_append_left behind known) new
  · rintro rfl
    exact ⟨listed, [], rfl, text, new, fun _ member => nomatch member⟩

theorem lastNew_concat_of_old {last : Value} (old : last.asString? = some name → last ∈ listed) :
    LastNew name (listed ++ [last]) key ↔ LastNew name listed key := by
  constructor
  · rintro ⟨front, behind, parts, text, new, others⟩
    rcases List.eq_nil_or_concat' behind with rfl | ⟨behind, final, rfl⟩
    · obtain ⟨rfl, rfl⟩ := List.append_singleton_inj.mp parts
      exact absurd (old text) new
    · rw [← List.cons_append, ← List.append_assoc] at parts
      obtain ⟨rfl, rfl⟩ := List.append_singleton_inj.mp parts
      exact ⟨front, behind, rfl, text, new, fun later member => others later (List.mem_append_left _ member)⟩
  · rintro ⟨front, behind, rfl, text, new, others⟩
    refine ⟨front, behind ++ [last], by simp, text, new, fun later member later_text => ?_⟩
    rcases List.mem_append.mp member with inside | final
    · exact others later inside later_text
    · obtain rfl := List.mem_singleton.mp final
      have known := old later_text
      rw [List.append_cons] at known
      exact (List.mem_append.mp known).elim id fun inside => others later inside later_text

/-- Of the keys that were new the last with a text is the one that was new last. -/
theorem lastOf_foldl_addKey_iff :
    LastOf name (listed.foldl addKey []) key ↔ LastNew name listed key := by
  induction listed using List.reverseRecOn with
  | nil => simp [LastOf, LastNew]
  | append_singleton listed last ih =>
    rw [List.foldl_concat, addKey]
    by_cases text : last.asString? = some name
    · have seen : (listed.foldl addKey []).any (·.same last) = true ↔ last ∈ listed := by
        rw [any_same_iff text, mem_foldl_addKey_iff text, or_iff_right List.not_mem_nil]
      by_cases known : last ∈ listed
      · rw [if_pos (seen.mpr known), ih, lastNew_concat_of_old fun _ => known]
      · rw [if_neg (mt seen.mp known), lastOf_concat, if_pos text, lastNew_concat_of_new text known]
    · rw [lastNew_concat_of_old fun same => absurd same text, ← ih]
      split
      · rfl
      · rw [lastOf_concat, if_neg text]

end Keys

end Yaml.Value

namespace Text

/-- The part before a double colon ends at the first one. -/
theorem isSome_splitFirst?_iff {mark : List Char} (written : mark ≠ []) (text : List Char) :
    (splitFirst? mark text).isSome = true ↔ ∃ front behind, text = front ++ mark ++ behind := by
  induction text with
  | nil => simp [splitFirst?, written]
  | cons c text ih =>
    rw [splitFirst?]
    constructor
    · intro found
      split at found
      · next rest opens => exact ⟨[], rest, afterOpening?_eq_some opens⟩
      · rw [Option.isSome_map, ih] at found
        obtain ⟨front, behind, parts⟩ := found
        exact ⟨c :: front, behind, by rw [parts, List.cons_append, List.cons_append]⟩
    · rintro ⟨front, behind, parts⟩
      split
      · rfl
      · next absent =>
        rw [Option.isSome_map, ih]
        cases front with
        | nil =>
          rw [parts, List.nil_append, afterOpening?_append] at absent
          cases absent
        | cons d front =>
          rw [List.cons_append, List.cons_append] at parts
          exact ⟨front, behind, (List.cons.inj parts).2⟩

end Text

namespace HelperBinding

variable {value : Value} {binding : HelperBinding}

/-- What a value binds an identifier to: a text with a double colon in it stands for a static call, any other
text for the class that is named between the blanks around it and behind leading backslashes. -/
inductive Binds (value : Value) : HelperBinding → Prop
  | staticCall {text : String} {front behind : List Char} : value.asString? = some text →
      text.toList = front ++ [':', ':'] ++ behind → Binds value (.staticCall text)
  | className {text : String} {before slashes name after : List Char} : value.asString? = some text →
      (∀ front behind, text.toList ≠ front ++ [':', ':'] ++ behind) →
      text.toList = before ++ (slashes ++ name) ++ after →
      (∀ c ∈ before, Text.isBlank c = true) → (∀ c ∈ after, Text.isBlank c = true) →
      (∀ c ∈ (slashes ++ name).head?, Text.isBlank c = false) →
      (∀ c ∈ (slashes ++ name).getLast?, Text.isBlank c = false) →
      (∀ c ∈ slashes, c = '\\') → name.head? ≠ some '\\' → Binds value (.className (String.ofList name))
  | other : value.asString? = none → Binds value .other

theorem binds_ofText {text : String} (found : value.asString? = some text) : Binds value (ofText text) := by
  rw [ofText]
  split
  · next called =>
    obtain ⟨front, behind, parts⟩ := (Text.isSome_splitFirst?_iff (by simp) _).mp called
    exact .staticCall found parts
  · next plain =>
    obtain ⟨before, after, parts, blankBefore, blankAfter, first, last⟩ :=
      Text.trim_eq_iff.mp (rfl : Text.trim text.toList = Text.trim text.toList)
    have slashes : (Text.trim text.toList).takeWhile (· == '\\') ++
        ClassName.dropLeading (Text.trim text.toList) = Text.trim text.toList :=
      List.takeWhile_append_dropWhile
    rw [← slashes] at parts first last
    refine .className found (fun front behind parts => plain ?_) parts blankBefore blankAfter first last
      (fun c inside => by simpa using List.mem_takeWhile_imp inside) fun start => ?_
    · exact (Text.isSome_splitFirst?_iff (by simp) _).mpr ⟨front, behind, parts⟩
    · have none := List.head?_dropWhile_not (· == '\\') (Text.trim text.toList)
      rw [← ClassName.dropLeading, start] at none
      simp at none

/-- A value decides what it binds an identifier to. -/
theorem binds_iff : Binds value binding ↔ ofValue value = binding := by
  constructor
  · rintro (⟨found, parts⟩ | ⟨found, plain, parts, blankBefore, blankAfter, first, last, slashes, name⟩ | none)
    · rw [ofValue, found]
      exact if_pos ((Text.isSome_splitFirst?_iff (by simp) _).mpr ⟨_, _, parts⟩)
    · have noCall : ¬(Text.splitFirst? [':', ':'] _).isSome = true := fun called =>
        let ⟨front, behind, parts⟩ := (Text.isSome_splitFirst?_iff (by simp) _).mp called
        plain front behind parts
      rw [ofValue, found]
      refine (if_neg noCall).trans ?_
      rw [Text.trim_eq_iff.mpr ⟨_, _, parts, blankBefore, blankAfter, first, last⟩, ClassName.dropLeading,
        Text.dropWhile_append_of_head (by simpa using slashes)]
      rintro c start
      exact beq_false_of_ne fun same => name (same ▸ start)
    · rw [ofValue, none]
  · rintro rfl
    cases found : value.asString? with
    | none =>
      rw [ofValue, found]
      exact .other found
    | some text =>
      rw [ofValue, found]
      exact binds_ofText found

/-- What a value makes of another one below it changes nothing: a mapping binds no class. -/
theorem ofValue_overlay (base upper : Value) : ofValue (overlay base upper) = ofValue upper := by
  unfold overlay
  split <;> rfl

end HelperBinding

namespace BoundHelpers

open Yaml.Value (keys keys_cons mem_keys_iff addKey LastOf LastNew lastOf_concat lastOf_foldl_addKey_iff
  valueOf?_eq_some_iff)

variable {entries : Mapping} {contexts : List Mapping} {key value : Value} {name : String}
  {binding : HelperBinding}

section OneMapping

theorem get?_ofMapping_concat (entries : Mapping) (last : Value × Value) (name : String) :
    (ofMapping (entries ++ [last])).get? name =
      if last.1.asString? = some name then some (.ofValue last.2) else (ofMapping entries).get? name := by
  rw [ofMapping, List.foldl_concat, ← ofMapping]
  split
  · next identifier found =>
    rw [get?_insert, found]
    simp only [Option.some_inj, eq_comm]
  · next none => rw [if_neg (by rw [none]; exact Option.some_ne_none _ ∘ Eq.symm)]

/-- A name is bound by the last of the keys with that text. -/
theorem get?_ofMapping_eq_some_iff (once : entries.Pairwise fun a b => a.1.same b.1 = false) :
    (ofMapping entries).get? name = some binding ↔
      ∃ key value, LastOf name (keys entries) key ∧ (key, value) ∈ entries ∧ .ofValue value = binding := by
  induction entries using List.reverseRecOn with
  | nil => simp [ofMapping, get?, empty, LastOf, keys]
  | append_singleton entries last ih =>
    obtain ⟨others, -, apart⟩ := List.pairwise_append.mp once
    have listed : keys (entries ++ [last]) = keys entries ++ [last.1] := List.map_append
    rw [get?_ofMapping_concat, listed]
    split
    · next text =>
      have new : ∀ value, (last.1, value) ∉ entries := fun value member => by
        have different := apart _ member last (List.mem_singleton_self last)
        rw [Yaml.Value.same_self text] at different
        cases different
      constructor
      · intro bound
        refine ⟨last.1, last.2, (lastOf_concat _).mpr (by rw [if_pos text]), ?_, Option.some.inj bound⟩
        exact List.mem_append_right _ (List.mem_singleton_self last)
      · rintro ⟨key, value, isLast, member, rfl⟩
        obtain rfl : key = last.1 := by rwa [lastOf_concat, if_pos text] at isLast
        have same := (List.mem_append.mp member).resolve_left (new value)
        rw [← List.mem_singleton.mp same]
    · next other =>
      rw [ih others]
      refine exists_congr fun key => exists_congr fun value => ?_
      rw [lastOf_concat, if_neg other]
      refine and_congr_right fun isLast => and_congr_left' ?_
      obtain ⟨-, -, -, text, -⟩ := isLast
      have different : (key, value) ≠ last := fun same => other (same ▸ text)
      rw [List.mem_append, List.mem_singleton, or_iff_left different]

end OneMapping

section Layers

/-- This is the value of the key in the last of the mappings that have it. -/
def LastValue (contexts : List Mapping) (key value : Value) : Prop :=
  ∃ earlier entries later, contexts = earlier ++ entries :: later ∧ (key, value) ∈ entries ∧
    ∀ other ∈ later, key ∉ keys other

theorem lastValue_concat (last : Mapping) : LastValue (contexts ++ [last]) key value ↔
    (key, value) ∈ last ∨ key ∉ keys last ∧ LastValue contexts key value := by
  constructor
  · rintro ⟨earlier, entries, later, parts, member, others⟩
    rcases List.eq_nil_or_concat' later with rfl | ⟨later, final, rfl⟩
    · exact Or.inl ((List.append_singleton_inj.mp parts).2 ▸ member)
    · rw [← List.cons_append, ← List.append_assoc] at parts
      obtain ⟨rfl, rfl⟩ := List.append_singleton_inj.mp parts
      exact Or.inr ⟨others last (by simp), earlier, entries, later, rfl, member,
        fun other inside => others other (List.mem_append_left _ inside)⟩
  · rintro (member | ⟨absent, earlier, entries, later, rfl, member, others⟩)
    · exact ⟨contexts, last, [], rfl, member, fun _ inside => nomatch inside⟩
    · refine ⟨earlier, entries, later ++ [last], by simp, member, fun other inside => ?_⟩
      rcases List.mem_append.mp inside with before | final
      · exact others other before
      · exact List.mem_singleton.mp final ▸ absent

/-- What the mappings make of a key, laid over each other. -/
def Makes (contexts : List Mapping) (entries : Mapping) : Prop :=
  keys entries = (contexts.flatMap keys).foldl addKey [] ∧
    ∀ key name binding, key.asString? = some name →
      ((valueOf? entries key).map HelperBinding.ofValue = some binding ↔
        ∃ value, LastValue contexts key value ∧ .ofValue value = binding)

theorem makes_singleton (keyed : OnceKeyed (.mapping entries)) : Makes [entries] entries := by
  refine ⟨?_, fun key name binding text => ?_⟩
  · rw [List.flatMap_singleton, Yaml.Value.foldl_addKey_of_pairwise, List.nil_append]
    exact List.pairwise_map.mpr keyed.pairwise
  · rw [Option.map_eq_some_iff]
    refine exists_congr fun value => and_congr_left' ?_
    rw [valueOf?_eq_some_iff text keyed.pairwise, ← List.nil_append [entries], lastValue_concat]
    refine (or_iff_left ?_).symm
    rintro ⟨-, earlier, entries, later, parts, -⟩
    simp at parts

theorem Makes.overlayEntries (made : Makes contexts entries) {last : Mapping}
    (keyed : OnceKeyed (.mapping last)) : Makes (contexts ++ [last]) (overlayEntries entries last) := by
  refine ⟨?_, fun key name binding text => ?_⟩
  · rw [Yaml.Value.keys_overlayEntries, made.1, List.flatMap_append, List.foldl_append,
      List.flatMap_singleton]
  · have value_iff {value : Value} : valueOf? last key = some value ↔ (key, value) ∈ last :=
      valueOf?_eq_some_iff text keyed.pairwise
    rw [Yaml.Value.valueOf?_overlayEntries text entries keyed.pairwise]
    cases found : valueOf? last key with
    | none =>
      have absent : ∀ value, (key, value) ∉ last := fun value member => by
        rw [value_iff.mpr member] at found
        cases found
      have keep : Option.merge overlay (valueOf? entries key) none = valueOf? entries key := by
        cases valueOf? entries key <;> rfl
      rw [keep, made.2 key name binding text]
      refine exists_congr fun value => and_congr_left' ?_
      rw [lastValue_concat, or_iff_right (absent value), and_iff_right]
      exact fun listed => absent _ (mem_keys_iff.mp listed).choose_spec
    | some upper =>
      have member := value_iff.mp found
      have laid : (Option.merge overlay (valueOf? entries key) (some upper)).map HelperBinding.ofValue =
          some (.ofValue upper) := by
        cases valueOf? entries key with
        | none => rfl
        | some base => exact congrArg some (HelperBinding.ofValue_overlay base upper)
      rw [laid, Option.some_inj]
      constructor
      · exact fun bound => ⟨upper, (lastValue_concat last).mpr (Or.inl member), bound⟩
      · rintro ⟨value, isLast, bound⟩
        rcases (lastValue_concat last).mp isLast with same | ⟨absent, -⟩
        · rw [value_iff.mpr same] at found
          exact Option.some.inj found ▸ bound
        · exact absurd (mem_keys_iff.mpr ⟨upper, member⟩) absent

/-- Mappings laid over each other make a mapping. -/
theorem exists_overlayAll (keyed : ∀ entries ∈ contexts, OnceKeyed (.mapping entries))
    (written : contexts ≠ []) :
    ∃ entries, Configuration.overlayAll (contexts.map .mapping) = some (.mapping entries) ∧
      Makes contexts entries := by
  induction contexts using List.reverseRecOn with
  | nil => exact absurd rfl written
  | append_singleton contexts last ih =>
    have own := keyed last (by simp)
    by_cases alone : contexts = []
    · subst alone
      exact ⟨last, rfl, makes_singleton own⟩
    · obtain ⟨entries, laid, made⟩ := ih (fun entries member => keyed entries (List.mem_append_left _ member)) alone
      refine ⟨overlayEntries entries last, ?_, made.overlayEntries own⟩
      rw [List.map_append, List.map_singleton, ← Option.toList_some, Configuration.overlayAll_append, laid]
      rfl

/-- Each key of the mappings laid over each other stands there once. -/
theorem Makes.pairwise (made : Makes contexts entries) :
    entries.Pairwise fun a b => a.1.same b.1 = false := by
  have once : (keys entries).Pairwise fun a b => a.same b = false :=
    made.1 ▸ Yaml.Value.pairwise_foldl_addKey .nil
  exact List.pairwise_map.mp once

/-- A name is bound by the last new key with that text, to what its last value stands for. -/
theorem Makes.get?_eq_some_iff (made : Makes contexts entries) :
    (ofMapping entries).get? name = some binding ↔
      ∃ key value, LastNew name (contexts.flatMap keys) key ∧ LastValue contexts key value ∧
        HelperBinding.Binds value binding := by
  rw [get?_ofMapping_eq_some_iff made.pairwise, made.1]
  refine exists_congr fun key => ?_
  simp only [lastOf_foldl_addKey_iff, exists_and_left, HelperBinding.binds_iff]
  refine and_congr_right fun isNew => ?_
  obtain ⟨-, -, -, text, -⟩ := isNew
  rw [← made.2 key name binding text, Option.map_eq_some_iff]
  exact exists_congr fun value => and_congr_left' (valueOf?_eq_some_iff text made.pairwise).symm

theorem exists_lastNew {listed : List Value} (member : key ∈ listed) (text : key.asString? = some name) :
    ∃ last, LastNew name listed last := by
  induction listed using List.reverseRecOn with
  | nil => cases member
  | append_singleton listed last ih =>
    by_cases new : last.asString? = some name ∧ last ∉ listed
    · exact ⟨last, (Yaml.Value.lastNew_concat_of_new new.1 new.2).mpr rfl⟩
    · have old : last.asString? = some name → last ∈ listed := fun same =>
        by_contra fun absent => new ⟨same, absent⟩
      have inside : key ∈ listed := by
        rcases List.mem_append.mp member with inside | final
        · exact inside
        · obtain rfl := List.mem_singleton.mp final
          exact old text
      obtain ⟨found, isNew⟩ := ih inside
      exact ⟨found, (Yaml.Value.lastNew_concat_of_old old).mpr isNew⟩

theorem exists_lastValue (member : key ∈ contexts.flatMap keys) : ∃ value, LastValue contexts key value := by
  induction contexts using List.reverseRecOn with
  | nil => cases member
  | append_singleton contexts last ih =>
    by_cases own : key ∈ keys last
    · obtain ⟨value, listed⟩ := mem_keys_iff.mp own
      exact ⟨value, (lastValue_concat last).mpr (Or.inl listed)⟩
    · rw [List.flatMap_append, List.flatMap_singleton, List.mem_append, or_iff_left own] at member
      obtain ⟨value, isLast⟩ := ih member
      exact ⟨value, (lastValue_concat last).mpr (Or.inr ⟨own, isLast⟩)⟩

end Layers

section Settings

open FusionAtlas.Configuration (keysOf)

/-- The mappings that the layers hold where the bindings are kept. -/
def contextsOf (config : Configuration) : List Mapping :=
  config.layers.filterMap fun layer =>
    match layer.valueAt? (keysOf settingsPath) with
    | some (.mapping entries) => some entries
    | _ => none

variable {config : Configuration}

/-- No layer holds anything but a mapping where the bindings are kept. -/
def HoldsMappings (config : Configuration) : Prop :=
  ∀ layer ∈ config.layers, ∀ value, layer.valueAt? (keysOf settingsPath) = some value →
    ∃ entries, value = .mapping entries

theorem HoldsMappings.filterMap_valueAt? (mappings : HoldsMappings config) :
    config.layers.filterMap (·.valueAt? (keysOf settingsPath)) = (contextsOf config).map .mapping := by
  rw [contextsOf, List.map_filterMap]
  refine List.filterMap_congr fun layer member => ?_
  cases found : layer.valueAt? (keysOf settingsPath) with
  | none => rfl
  | some value =>
    obtain ⟨entries, rfl⟩ := mappings layer member value found
    rfl

theorem onceKeyed_contextsOf (keyed : ∀ layer ∈ config.layers, OnceKeyed (.mapping layer.settings)) :
    ∀ entries ∈ contextsOf config, OnceKeyed (.mapping entries) := by
  intro entries member
  obtain ⟨layer, listed, found⟩ := List.mem_filterMap.mp member
  split at found
  · next inner held =>
    cases found
    exact (keyed layer listed).of_memberAt? held
  · cases found

theorem get?_ofConfiguration_eq_some_iff
    (keyed : ∀ layer ∈ config.layers, OnceKeyed (.mapping layer.settings)) (mappings : HoldsMappings config) :
    (ofConfiguration config).get? name = some binding ↔
      ∃ key value, LastNew name ((contextsOf config).flatMap keys) key ∧
        LastValue (contextsOf config) key value ∧ HelperBinding.Binds value binding := by
  rw [ofConfiguration, Configuration.get?_eq_overlayAll, mappings.filterMap_valueAt?]
  by_cases written : contextsOf config = []
  · rw [written]
    simp [Configuration.overlayAll, empty, get?, LastNew]
  · obtain ⟨entries, laid, made⟩ := exists_overlayAll (onceKeyed_contextsOf keyed) written
    rw [laid]
    exact made.get?_eq_some_iff

/-- Exactly the texts of the keys are bound, each to what its key has in the last layer with that key. If a
text is a key in differently tagged forms, the form that is new last counts. -/
theorem get?_ofConfiguration_decided
    (keyed : ∀ layer ∈ config.layers, OnceKeyed (.mapping layer.settings)) (mappings : HoldsMappings config) :
    (∀ name, (ofConfiguration config).get? name ≠ none ↔
      ∃ entries ∈ contextsOf config, ∃ entry ∈ entries, entry.1.asString? = some name) ∧
    ∀ name binding, (ofConfiguration config).get? name = some binding ↔
      ∃ key value, LastNew name ((contextsOf config).flatMap keys) key ∧
        LastValue (contextsOf config) key value ∧ HelperBinding.Binds value binding := by
  refine ⟨fun name => ?_, fun name binding => get?_ofConfiguration_eq_some_iff keyed mappings⟩
  rw [Option.ne_none_iff_exists']
  constructor
  · rintro ⟨binding, bound⟩
    obtain ⟨key, value, ⟨-, -, -, text, -⟩, ⟨earlier, entries, later, parts, member, -⟩, -⟩ :=
      (get?_ofConfiguration_eq_some_iff keyed mappings).mp bound
    exact ⟨entries, by simp [parts], (key, value), member, text⟩
  · rintro ⟨entries, listed, entry, member, text⟩
    have among : entry.1 ∈ (contextsOf config).flatMap keys :=
      List.mem_flatMap.mpr ⟨entries, listed, List.mem_map_of_mem member⟩
    obtain ⟨key, isNew⟩ := exists_lastNew among text
    have inside : key ∈ (contextsOf config).flatMap keys := by
      obtain ⟨front, behind, parts, -⟩ := isNew
      simp [parts]
    obtain ⟨value, isLast⟩ := exists_lastValue inside
    exact ⟨.ofValue value, (get?_ofConfiguration_eq_some_iff keyed mappings).mpr
      ⟨key, value, isNew, isLast, HelperBinding.binds_iff.mpr rfl⟩⟩

/-- A layer with nothing but bindings in it. -/
def layerOf (entries : Mapping) : ConfigLayer where
  source := ⟨"file:///Settings.yaml"⟩
  settings := [(.string "Neos", .mapping [(.string "Fusion", .mapping [(.string "defaultContext",
    .mapping entries)])])]

theorem valueAt?_layerOf (entries : Mapping) :
    (layerOf entries).valueAt? (keysOf settingsPath) = some (.mapping entries) := by
  have path : keysOf settingsPath = ["Neos", "Fusion", "defaultContext"] := by decide
  simp [path, ConfigLayer.valueAt?, layerOf, Yaml.Value.memberAt?, Yaml.Value.member?]

theorem contextsOf_map_layerOf (contexts : List Mapping) : contextsOf ⟨contexts.map layerOf⟩ = contexts := by
  simp [contextsOf, List.filterMap_map, valueAt?_layerOf]

theorem holdsMappings_map_layerOf (contexts : List Mapping) : HoldsMappings ⟨contexts.map layerOf⟩ := by
  intro layer member value found
  obtain ⟨entries, -, rfl⟩ := List.mem_map.mp member
  exact ⟨entries, Option.some.inj (found.symm.trans (valueAt?_layerOf entries))⟩

theorem onceKeyed_layerOf {entries : Mapping} (keyed : OnceKeyed (.mapping entries)) :
    OnceKeyed (.mapping (layerOf entries).settings) := by
  have single {key value : Value} (inner : OnceKeyed value) : OnceKeyed (.mapping [(key, value)]) :=
    .mapping (List.pairwise_singleton _ _) fun entry member => List.mem_singleton.mp member ▸ inner
  exact single (single (single keyed))

theorem onceKeyed_string (text : String) : OnceKeyed (.string text) := .other fun _ => Value.noConfusion

/-- Two layers: the later one binds `A` anew, and `B` is a key with a tag and without. -/
def rebinding : List Mapping :=
  [[(.string "A", .mapping [(.string "x", .int 1)]), (.string "B", .string "Q::m"),
      (.tagged "!t" (.string "B"), .string "\\Y")],
    [(.string "A", .string " \\X ")]]

/-- The later value and the form that is new last decide, and no key below a binding is bound. -/
theorem get?_ofConfiguration_rebinding :
    ((∀ layer ∈ rebinding.map layerOf, OnceKeyed (.mapping layer.settings)) ∧
      HoldsMappings ⟨rebinding.map layerOf⟩) ∧
    (ofConfiguration ⟨rebinding.map layerOf⟩).get? "A" = some (.className "X") ∧
    (ofConfiguration ⟨rebinding.map layerOf⟩).get? "B" = some (.className "Y") ∧
    (ofConfiguration ⟨rebinding.map layerOf⟩).get? "x" = none := by
  have below : OnceKeyed (.mapping [(.string "x", .int 1)]) :=
    .mapping (List.pairwise_singleton _ _) (by simp; exact .other fun _ => Value.noConfusion)
  have first : OnceKeyed (.mapping (rebinding.headD [])) :=
    .mapping (by simp [rebinding, Yaml.Value.same])
      (by simp [rebinding]; exact ⟨below, onceKeyed_string _, onceKeyed_string _⟩)
  have second : OnceKeyed (.mapping (rebinding.getLastD [])) :=
    .mapping (by simp [rebinding]) (by simp [rebinding]; exact onceKeyed_string _)
  have keyed : ∀ layer ∈ rebinding.map layerOf, OnceKeyed (.mapping layer.settings) :=
    List.forall_mem_cons.mpr ⟨onceKeyed_layerOf first, List.forall_mem_singleton.mpr (onceKeyed_layerOf second)⟩
  have mappings := holdsMappings_map_layerOf rebinding
  have decided := @get?_ofConfiguration_decided ⟨rebinding.map layerOf⟩ keyed mappings
  rw [contextsOf_map_layerOf] at decided
  refine ⟨⟨keyed, mappings⟩, ?_, ?_, ?_⟩
  · refine (decided.2 "A" _).mpr ⟨.string "A", .string " \\X ", ?_, ?_, HelperBinding.binds_iff.mpr (by decide)⟩
    · exact ⟨[], _, rfl, rfl, List.not_mem_nil, by simp [keys, Yaml.Value.asString?, Yaml.Value.untagged]⟩
    · exact ⟨rebinding.take 1, _, [], rfl, List.mem_singleton_self _, by simp⟩
  · refine (decided.2 "B" _).mpr
      ⟨.tagged "!t" (.string "B"), .string "\\Y", ?_, ?_, HelperBinding.binds_iff.mpr (by decide)⟩
    · exact ⟨[.string "A", .string "B"], _, rfl, rfl, by simp,
        by simp [keys, Yaml.Value.asString?, Yaml.Value.untagged]⟩
    · exact ⟨[], _, _, rfl, by simp, by simp [keys]⟩
  · exact not_not.mp fun bound => absurd ((decided.1 "x").mp bound) (by decide)

/-- A key that is tagged is another key than the untagged one, and still binds the same text. -/
theorem get?_ofConfiguration_tagged_key :
    ∃ config : Configuration,
      ((∀ layer ∈ config.layers, OnceKeyed (.mapping layer.settings)) ∧ HoldsMappings config) ∧
      contextsOf config =
        [[(.string "A", .string "X\\Y"), (.tagged "!t" (.string "A"), .string "Z")]] ∧
      HelperBinding.ofValue (.string "X\\Y") = .className "X\\Y" ∧
      (ofConfiguration config).get? "A" = some (.className "Z") := by
  refine ⟨⟨[[(.string "A", .string "X\\Y"), (.tagged "!t" (.string "A"), .string "Z")]].map layerOf⟩, ⟨?_,
    holdsMappings_map_layerOf _⟩, contextsOf_map_layerOf _, by decide, by decide +kernel⟩
  refine List.forall_mem_singleton.mpr (onceKeyed_layerOf ?_)
  exact .mapping (by simp [Yaml.Value.same]) (by simp; exact ⟨onceKeyed_string _, onceKeyed_string _⟩)

end Settings

end BoundHelpers

end FusionAtlas
