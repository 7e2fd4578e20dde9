import FusionAtlas.Proofs.NameSpelling
import FusionAtlas.Proofs.ScannedMethods
import FusionAtlas.Resolution.Literals

/-!
Filters with names in other spellings. Two strings in which the same names stand behind blanks, led by
backslashes in both or in neither, are scanned in step: wherever a filter is found in one of them, one is found
in the other, and both ask for the same class. Main statement: `Attachment.askedClasses_eq`.
-/

set_option autoImplicit false
set_option relaxedAutoImplicit false

namespace FusionAtlas

open ClassName (IsPart Spelling separator separator_eq_replicate mergeDoubled collapse)
open Text (isBlank)

namespace Attachment

variable {a b : List Char} {before c : Char}

/-- Two strings that are the same but for how names behind blanks are spelled. A name is led by backslashes in
both of them or in neither. -/
inductive SameFilters : List Char → List Char → Prop
  | nil : SameFilters [] []
  | char {a b : List Char} (c : Char) (rest : SameFilters a b) : SameFilters (c :: a) (c :: b)
  | name {a b : List Char} {s t : Spelling} {c : Char} (blank : isBlank c = true) (parts : s.parts = t.parts)
    (led : s.leading = 0 ↔ t.leading = 0) (rest : SameFilters a b) :
    SameFilters (c :: (s.text ++ a)) (c :: (t.text ++ b))

namespace SameFilters

theorem append (front : List Char) (same : SameFilters a b) : SameFilters (front ++ a) (front ++ b) := by
  induction front with
  | nil => exact same
  | cons c front ih => exact .char c ih

theorem refl (text : List Char) : SameFilters text text := by
  have same := append text .nil
  rwa [List.append_nil] at same

/-- One name behind a blank is spelled in another way. -/
theorem spelled {s t : Spelling} (parts : s.parts = t.parts) (led : s.leading = 0 ↔ t.leading = 0)
    (blank : isBlank c = true) (front behind : List Char) :
    SameFilters (front ++ c :: (s.text ++ behind)) (front ++ c :: (t.text ++ behind)) :=
  append front (.name blank parts led (refl behind))

end SameFilters

/-- Two texts behind a character that differ at most in their backslashes: where one stands alone two may
stand together, and behind a blank any number may. -/
inductive Respelled : Char → List Char → List Char → Prop
  | nil {before : Char} : Respelled before [] []
  | same {before : Char} {a b : List Char} (c : Char) (rest : Respelled c a b) :
    Respelled before (c :: a) (c :: b)
  | run {before : Char} {a b : List Char} {m n : Nat}
    (loose : isBlank before = true ∨ before ≠ '\\' ∧ m ≤ 1 ∧ n ≤ 1) (next : a.head? ≠ some '\\')
    (rest : Respelled '\\' a b) :
    Respelled before (List.replicate (m + 1) '\\' ++ a) (List.replicate (n + 1) '\\' ++ b)

/-- The same, whatever stands in front. -/
def Alike (a b : List Char) : Prop := ∃ before, Respelled before a b

/-- Behind whatever is no backslash the texts are respelled. -/
def Follows (a b : List Char) : Prop := ∀ before, before ≠ '\\' → Respelled before a b

namespace Follows

theorem part {part : List Char} (isPart : IsPart part) (follows : Follows a b) :
    ∀ before, Respelled before (part ++ a) (part ++ b) := by
  obtain ⟨written, plain⟩ := isPart
  obtain ⟨c, part, rfl⟩ := List.exists_cons_of_ne_nil written
  clear written
  induction part generalizing c with
  | nil =>
    intro before
    exact .same c (follows c fun backslash => plain (by simp [backslash]))
  | cons d part ih =>
    intro before
    rw [List.mem_cons, not_or] at plain
    exact .same c (ih d plain.2 c)

theorem separated : ∀ {others more : List (Bool × List Char)},
    others.map Prod.snd = more.map Prod.snd → (∀ part ∈ others.map Prod.snd, IsPart part) →
    Follows a b → Follows (ClassName.separated others ++ a) (ClassName.separated more ++ b)
  | [], [], _, _, follows => follows
  | (x, part) :: others, (y, part') :: more, same, isPart, follows => by
    obtain ⟨rfl, rest⟩ := List.cons.inj same
    obtain ⟨first, isPart⟩ := List.forall_mem_cons.mp isPart
    have step (x : Bool) (others : List (Bool × List Char)) (a : List Char) :
        ClassName.separated ((x, part) :: others) ++ a =
          separator x ++ (part ++ (ClassName.separated others ++ a)) := by
      rw [ClassName.separated, List.flatMap_cons, List.append_assoc, List.append_assoc]
      rfl
    intro before other
    have few (x : Bool) : x.toNat ≤ 1 := Bool.toNat_le x
    rw [step, step, separator_eq_replicate, separator_eq_replicate]
    exact .run (.inr ⟨other, few x, few y⟩) (first.head _) ((separated rest isPart follows).part first '\\')

/-- Behind a blank a name is respelled by any other spelling that leads with backslashes if it does. -/
theorem name {s t : Spelling} (follows : Follows a b) (blank : isBlank c = true) (parts : s.parts = t.parts)
    (led : s.leading = 0 ↔ t.leading = 0) : Respelled c (s.text ++ a) (t.text ++ b) := by
  obtain ⟨first, others⟩ := List.cons.inj parts
  obtain ⟨isPart, isParts⟩ := List.forall_mem_cons.mp s.isPart
  have rest := (follows.separated others isParts).part isPart
  rw [Spelling.text, Spelling.text, List.append_assoc, List.append_assoc, List.append_assoc, List.append_assoc,
    ← first]
  cases leads : s.leading with
  | zero =>
    rw [led.mp leads]
    exact rest c
  | succ m =>
    cases leads' : t.leading with
    | zero => exact absurd (led.mpr leads') (by omega)
    | succ n => exact .run (.inl blank) (isPart.head _) (rest '\\')

end Follows

theorem SameFilters.respelled (same : SameFilters a b) : ∀ before, Respelled before a b := by
  induction same with
  | nil => exact fun _ => .nil
  | char c _ ih => exact fun _ => .same c (ih c)
  | name blank parts led _ ih =>
    have follows : Follows _ _ := fun before _ => ih before
    exact fun _ => .same _ (follows.name blank parts led)

namespace Respelled

theorem head?_eq (respelled : Respelled before a b) : a.head? = b.head? := by
  cases respelled <;> rfl

theorem takeWhile {p : Char → Bool} (inside : p '\\' = true) (respelled : Respelled before a b) :
    Respelled before (a.takeWhile p) (b.takeWhile p) := by
  have run (n : Nat) (text : List Char) : (List.replicate n '\\' ++ text).takeWhile p =
      List.replicate n '\\' ++ text.takeWhile p :=
    List.takeWhile_append_of_pos fun c member => List.eq_of_mem_replicate member ▸ inside
  induction respelled with
  | nil => exact .nil
  | same c _ ih =>
    by_cases goes : p c = true
    · rw [List.takeWhile_cons_of_pos goes, List.takeWhile_cons_of_pos goes]
      exact .same c ih
    · rw [List.takeWhile_cons_of_neg goes, List.takeWhile_cons_of_neg goes]
      exact .nil
  | run loose next _ ih =>
    rw [run, run]
    refine .run loose ?_ ih
    rw [List.head?_takeWhile]
    exact fun start => next (Option.eq_some_of_filter_eq_some start)

theorem dropWhile (p : Char → Bool) (respelled : Respelled before a b) :
    Alike (a.dropWhile p) (b.dropWhile p) := by
  induction respelled with
  | nil => exact ⟨before, .nil⟩
  | @same before a b c rest ih =>
    by_cases goes : p c = true
    · rwa [List.dropWhile_cons_of_pos goes, List.dropWhile_cons_of_pos goes]
    · rw [List.dropWhile_cons_of_neg goes, List.dropWhile_cons_of_neg goes]
      exact ⟨before, .same c rest⟩
  | @run before a b m n loose next rest ih =>
    by_cases goes : p '\\' = true
    · have run (n : Nat) (text : List Char) :
          (List.replicate n '\\' ++ text).dropWhile p = text.dropWhile p :=
        List.dropWhile_append_of_pos fun c member => List.eq_of_mem_replicate member ▸ goes
      rwa [run, run]
    · rw [List.replicate_succ, List.replicate_succ, List.cons_append, List.cons_append,
        List.dropWhile_cons_of_neg goes, List.dropWhile_cons_of_neg goes]
      exact ⟨before, .run loose next rest⟩

/-- Behind an opening without backslashes respelled texts go on so. -/
theorem afterOpening? {opening : List Char} (plain : '\\' ∉ opening) (alike : Alike a b) :
    Option.Rel Alike (Text.afterOpening? opening a) (Text.afterOpening? opening b) := by
  induction opening generalizing a b with
  | nil =>
    rw [Text.afterOpening?, Text.afterOpening?]
    exact .some alike
  | cons o opening ih =>
    rw [List.mem_cons, not_or] at plain
    obtain ⟨before, respelled⟩ := alike
    cases respelled with
    | nil => exact .none
    | same c rest =>
      rw [Text.afterOpening?, Text.afterOpening?]
      split
      · exact ih plain.2 ⟨c, rest⟩
      · exact .none
    | run =>
      rw [List.replicate_succ, List.replicate_succ, List.cons_append, List.cons_append, Text.afterOpening?,
        Text.afterOpening?, if_neg (Ne.symm plain.1), if_neg (Ne.symm plain.1)]
      exact .none

theorem afterBlanks? (alike : Alike a b) :
    Option.Rel Alike (Text.afterBlanks? a) (Text.afterBlanks? b) := by
  obtain ⟨before, respelled⟩ := alike
  cases respelled with
  | nil => exact .none
  | same c rest =>
    rw [Text.afterBlanks?, Text.afterBlanks?]
    split
    · exact .some (rest.dropWhile isBlank)
    · exact .none
  | run => exact .none

theorem mergeDoubled_cons_congr (bare : mergeDoubled a = mergeDoubled b)
    (behind : c = '\\' → mergeDoubled ('\\' :: a) = mergeDoubled ('\\' :: b)) :
    mergeDoubled (c :: a) = mergeDoubled (c :: b) := by
  by_cases backslash : c = '\\'
  · rw [backslash, behind backslash]
  · rw [ClassName.mergeDoubled_cons backslash, ClassName.mergeDoubled_cons backslash, bare]

/-- Behind what is no blank, respelled texts without blanks are the same once doubled backslashes are merged.
So they are together with a backslash before them. -/
theorem mergeDoubled_eq (respelled : Respelled before a b) (solid : isBlank before = false)
    (all : ∀ c ∈ a, isBlank c = false) :
    mergeDoubled a = mergeDoubled b ∧
      (before = '\\' → mergeDoubled ('\\' :: a) = mergeDoubled ('\\' :: b)) := by
  -- A backslash may pair with the one before the text, so the induction carries both readings.
  induction respelled with
  | nil => exact ⟨rfl, fun _ => rfl⟩
  | @same before a b c rest ih =>
    obtain ⟨first, all⟩ := List.forall_mem_cons.mp all
    obtain ⟨bare, behind⟩ := ih first all
    have whole : mergeDoubled (c :: a) = mergeDoubled (c :: b) := mergeDoubled_cons_congr bare behind
    refine ⟨whole, fun _ => ?_⟩
    by_cases backslash : c = '\\'
    · subst backslash
      exact congrArg ('\\' :: ·) bare
    · have single (text : List Char) : (c :: text).head? ≠ some '\\' := by simpa using backslash
      rw [ClassName.mergeDoubled_single (single a), ClassName.mergeDoubled_single (single b), whole]
  | run loose next rest ih =>
    rcases loose with blank | ⟨other, few, few'⟩
    · rw [solid] at blank
      cases blank
    · obtain ⟨bare, -⟩ := ih rfl fun c member => all c (List.mem_append_right _ member)
      rw [ClassName.mergeDoubled_replicate few next,
        ClassName.mergeDoubled_replicate few' (rest.head?_eq ▸ next), bare]
      exact ⟨rfl, fun backslash => absurd backslash other⟩

theorem collapse_eq (respelled : Respelled before a b) (all : ∀ c ∈ a, isBlank c = false) :
    collapse a = collapse b := by
  cases respelled with
  | nil => rfl
  | same c rest =>
    obtain ⟨first, all⟩ := List.forall_mem_cons.mp all
    obtain ⟨bare, behind⟩ := rest.mergeDoubled_eq first all
    exact congrArg ClassName.dropLeading (mergeDoubled_cons_congr bare behind)
  | run loose next rest =>
    have solid : ∀ c ∈ _, isBlank c = false := fun c member => all c (List.mem_append_right _ member)
    rw [ClassName.collapse_replicate, ClassName.collapse_replicate, collapse, collapse,
      (rest.mergeDoubled_eq rfl solid).1]

end Respelled

/-- The name in a filter at the start of a text, and what stands behind the filter. -/
def filterAhead? (text : List Char) : Option (List Char × List Char) := do
  let rest ← Text.afterBlanks? (← Text.afterOpening? filterOpening text)
  let (name, behind) ← Text.takeRun? (fun c => c != ']' && !isBlank c) rest
  match Text.trimStart behind with
  | ']' :: after => some (name, after)
  | _ => none

theorem filterPattern_eq (before : Option Char) (text : List Char) :
    (filterPattern before text).map (fun hit => (hit.value.name, hit.length)) =
      (filterAhead? text).map fun found => (found.1, text.length - found.2.length) := by
  unfold filterPattern filterAhead?
  simp only [Option.bind_eq_bind, Option.map_bind, Function.comp_def]
  refine Option.bind_congr fun opened _ => Option.bind_congr fun rest _ => Option.bind_congr fun run _ => ?_
  rcases Text.trimStart run.2 with _ | ⟨c, after⟩
  · rfl
  · by_cases closes : c = ']'
    · rw [closes]
      rfl
    · simp [closes]

variable {text name after : List Char}

theorem suffix_of_filterAhead? (found : filterAhead? text = some (name, after)) : ']' :: after <:+ text := by
  simp only [filterAhead?, Option.bind_eq_bind, Option.bind_eq_some_iff] at found
  obtain ⟨opened, opens, rest, blanks, ⟨run, behind⟩, taken, found⟩ := found
  obtain ⟨c, more, rfl, -⟩ := Text.afterBlanks?_eq_some blanks
  obtain ⟨rfl, -⟩ := Text.takeRun?_eq_some taken
  have closes : ']' :: after <:+ behind := by
    have inside : Text.trimStart behind <:+ behind := List.dropWhile_suffix isBlank
    split at found
    · next stop =>
      cases found
      exact stop ▸ inside
    · cases found
  rw [Text.afterOpening?_eq_some opens]
  exact closes.trans (((List.suffix_append run behind).trans (List.suffix_append (c :: more) _)).trans
    (List.suffix_append filterOpening _))

/-- Where a filter is found, the scan reports its name and goes on behind it. -/
theorem scanFrom_of_filterAhead? (found : filterAhead? text = some (name, after)) (before : Option Char)
    (offset : Nat) : ∃ hit last place,
      Text.scanFrom filterPattern before offset 0 text = hit :: Text.scanFrom filterPattern last place 0 after ∧
        hit.value.name = name := by
  obtain ⟨front, rfl⟩ := suffix_of_filterAhead? found
  have view := filterPattern_eq before (front ++ ']' :: after)
  rw [found] at view
  obtain ⟨⟨value, length⟩, matched, same⟩ := Option.map_eq_some_iff.mp view
  obtain ⟨rfl, covered⟩ := Prod.mk.inj same
  have whole : front ++ ']' :: after = (front ++ [']']) ++ after := by simp
  have size : length = (front ++ [']']).length := by
    change length = (front ++ ']' :: after).length - after.length at covered
    rw [covered, whole, List.length_append, Nat.add_sub_cancel]
  rw [whole, size] at matched
  rw [whole, Text.scanFrom_hit (by simp) matched]
  exact ⟨_, _, _, rfl, rfl⟩

theorem scanFrom_of_none {c : Char} (nothing : filterAhead? (c :: text) = none) (before : Option Char)
    (offset : Nat) : Text.scanFrom filterPattern before offset 0 (c :: text) =
      Text.scanFrom filterPattern (some c) (offset + c.utf8Size) 0 text := by
  have view := filterPattern_eq before (c :: text)
  rw [nothing, Option.map_none, Option.map_eq_none_iff] at view
  rw [Text.scanFrom, view]

/-- Backslashes are passed over by the scan, however many. -/
theorem scanFrom_replicate (n : Nat) (text : List Char) (before : Option Char) (offset : Nat) :
    ∃ last place, Text.scanFrom filterPattern before offset 0 (List.replicate n '\\' ++ text) =
      Text.scanFrom filterPattern last place 0 text := by
  induction n generalizing before offset with
  | zero => exact ⟨before, offset, rfl⟩
  | succ n ih =>
    rw [List.replicate_succ, List.cons_append, scanFrom_of_none rfl]
    exact ih ..

theorem rel_bind {α β γ δ : Type} {r : α → β → Prop} {s : γ → δ → Prop} {x : Option α} {y : Option β}
    {f : α → Option γ} {g : β → Option δ} (first : Option.Rel r x y)
    (next : ∀ a b, r a b → Option.Rel s (f a) (g b)) : Option.Rel s (x.bind f) (y.bind g) := by
  cases first with
  | none => exact .none
  | some related => exact next _ _ related

theorem rel_cases {α β : Type} {r : α → β → Prop} {x : Option α} {y : Option β} (related : Option.Rel r x y) :
    (x = none ∧ y = none) ∨ ∃ a b, x = some a ∧ y = some b ∧ r a b := by
  cases related with
  | none => exact .inl ⟨rfl, rfl⟩
  | some related => exact .inr ⟨_, _, rfl, rfl, related⟩

/-- Two names that ask for the same class, if for any. -/
def AsksAlike (a b : List Char) : Prop := a.head? = b.head? ∧ collapse a = collapse b

/-- The name that is looked up for a name in a filter, if it leads with a backslash. -/
def asked? (name : List Char) : Option (List Char) :=
  if name.head? = some '\\' then some (collapse name) else none

theorem asked?_eq (alike : AsksAlike a b) : asked? a = asked? b := by
  rw [asked?, asked?, alike.1, alike.2]

namespace Alike

theorem takeRun? {p : Char → Bool} (inside : p '\\' = true) (solid : ∀ c, p c = true → isBlank c = false)
    (alike : Alike a b) : Option.Rel (fun x y => AsksAlike x.1 y.1 ∧ Alike x.2 y.2)
      (Text.takeRun? p a) (Text.takeRun? p b) := by
  obtain ⟨before, respelled⟩ := alike
  have run := respelled.takeWhile inside
  have all : ∀ c ∈ a.takeWhile p, isBlank c = false := fun c member => solid c (List.mem_takeWhile_imp member)
  have alike : AsksAlike (a.takeWhile p) (b.takeWhile p) := ⟨run.head?_eq, run.collapse_eq all⟩
  unfold Text.takeRun?
  generalize a.takeWhile p = taken at alike
  generalize b.takeWhile p = taken' at alike
  match taken, taken', alike with
  | [], [], _ => exact .none
  | c :: taken, d :: taken', alike => exact .some ⟨alike, respelled.dropWhile p⟩

theorem filterAhead? (alike : Alike a b) :
    Option.Rel (fun x y => AsksAlike x.1 y.1 ∧ Alike x.2 y.2) (filterAhead? a) (filterAhead? b) := by
  refine rel_bind (Respelled.afterOpening? (by decide) alike) fun _ _ opened => ?_
  refine rel_bind (Respelled.afterBlanks? opened) fun _ _ rest => ?_
  refine rel_bind (takeRun? rfl (by simp) rest) fun
    ⟨name, behind⟩ ⟨name', behind'⟩ ⟨alike, before, respelled⟩ => ?_
  obtain ⟨before, stop⟩ := respelled.dropWhile isBlank
  change Option.Rel _ (match behind.dropWhile isBlank with
    | ']' :: after => some (name, after)
    | _ => none) (match behind'.dropWhile isBlank with
    | ']' :: after => some (name', after)
    | _ => none)
  generalize behind.dropWhile isBlank = ahead at stop
  generalize behind'.dropWhile isBlank = ahead' at stop
  cases stop with
  | nil => exact .none
  | same c rest =>
    by_cases closes : c = ']'
    · subst closes
      exact .some ⟨alike, ']', rest⟩
    · split
      · next same => exact absurd (List.cons.inj same).1 closes
      · split
        · next same => exact absurd (List.cons.inj same).1 closes
        · exact .none
  | run => exact .none

/-- Scans of respelled texts ask for the same classes one after the other. -/
theorem filterMap_scanFrom (alike : Alike a b) (before before' : Option Char) (offset offset' : Nat) :
    (Text.scanFrom filterPattern before offset 0 a).filterMap (fun hit => asked? hit.value.name) =
      (Text.scanFrom filterPattern before' offset' 0 b).filterMap fun hit => asked? hit.value.name := by
  -- By induction on the length, since the scan goes on behind a whole filter or a whole run of backslashes.
  induction size : a.length using Nat.strong_induction_on generalizing a b before before' offset offset' with
  | _ n ih =>
    subst size
    rcases rel_cases alike.filterAhead? with ⟨found, found'⟩ |
      ⟨⟨name, after⟩, ⟨name', after'⟩, found, found', asks, behind⟩
    · obtain ⟨last, respelled⟩ := alike
      cases respelled with
      | nil => rfl
      | same c rest =>
        rw [scanFrom_of_none found, scanFrom_of_none found']
        exact ih _ (by simp) ⟨c, rest⟩ _ _ _ _ rfl
      | @run _ a b m n _ _ rest =>
        obtain ⟨last, place, passed⟩ := scanFrom_replicate (m + 1) a before offset
        obtain ⟨last', place', passed'⟩ := scanFrom_replicate (n + 1) b before' offset'
        rw [passed, passed']
        exact ih _ (by simp) ⟨'\\', rest⟩ last last' place place' rfl
    · obtain ⟨hit, last, place, scanned, rfl⟩ := scanFrom_of_filterAhead? found before offset
      obtain ⟨hit', last', place', scanned', rfl⟩ := scanFrom_of_filterAhead? found' before' offset'
      have shorter : after.length < a.length := (suffix_of_filterAhead? found).length_le
      rw [scanned, scanned', List.filterMap_cons, List.filterMap_cons, asked?_eq asks,
        ih _ shorter behind last last' place place' rfl]

end Alike

/-- The string starts like one with filters. -/
def OpensFilter (text : List Char) : Prop :=
  (Text.afterOpening? filterOpening (Text.trimStart text)).isSome = true

instance : DecidablePred OpensFilter := fun _ => inferInstanceAs (Decidable (_ = true))

theorem filterNames_of_not_opensFilter (other : ¬OpensFilter text) : filterNames text = [] := by
  rw [filterNames, if_pos]
  simpa [OpensFilter] using other

/-- Only names that lead with a backslash are taken from filters. -/
theorem head?_of_mem_filterNames (text : List Char) :
    ∀ entry ∈ filterNames text, entry.2.head? = some '\\' := by
  unfold filterNames
  split
  · exact List.forall_mem_nil _
  · intro entry member
    obtain ⟨hit, -, found⟩ := List.mem_filterMap.mp member
    split at found
    · next leads =>
      cases found
      exact leads
    · cases found

/-- The classes that the filters of a string ask for. -/
def askedClasses (text : List Char) : List (List Char) := (filterNames text).map fun entry => collapse entry.2

theorem askedClasses_of_opensFilter (opens : OpensFilter text) :
    askedClasses text =
      (Text.scan filterPattern text).filterMap fun hit => asked? hit.value.name := by
  have filters : (Text.afterOpening? filterOpening (Text.trimStart text)).isNone = false := by
    rw [← Option.not_isSome, opens]
    rfl
  rw [askedClasses, filterNames, filters, if_neg Bool.false_ne_true, List.map_filterMap]
  refine List.filterMap_congr fun hit _ => ?_
  rw [asked?]
  split <;> rfl

theorem Alike.opensFilter_iff (alike : Alike a b) : OpensFilter a ↔ OpensFilter b := by
  have plain : '\\' ∉ filterOpening := by decide
  obtain ⟨_, respelled⟩ := alike
  have starts : Alike (Text.trimStart a) (Text.trimStart b) := respelled.dropWhile isBlank
  unfold OpensFilter
  rcases rel_cases (Respelled.afterOpening? plain starts) with
    ⟨first, second⟩ | ⟨_, _, first, second, -⟩ <;> rw [first, second]
  simp only [Option.isSome_some]

theorem askedClasses_eq (same : SameFilters a b) : askedClasses a = askedClasses b := by
  have alike : Alike a b := ⟨'.', same.respelled '.'⟩
  by_cases opens : OpensFilter a
  · rw [askedClasses_of_opensFilter opens, askedClasses_of_opensFilter (alike.opensFilter_iff.mp opens)]
    exact alike.filterMap_scanFrom none none 0 0
  · rw [askedClasses, askedClasses, filterNames_of_not_opensFilter opens,
      filterNames_of_not_opensFilter (opens ∘ alike.opensFilter_iff.mpr)]

/-- Strings that do not start like one with filters ask for no class. -/
theorem askedClasses_eq_of_opensFilter (same : OpensFilter a ∨ OpensFilter b → SameFilters a b) :
    askedClasses a = askedClasses b := by
  by_cases opens : OpensFilter a ∨ OpensFilter b
  · exact askedClasses_eq (same opens)
  · rw [not_or] at opens
    rw [askedClasses, askedClasses, filterNames_of_not_opensFilter opens.1,
      filterNames_of_not_opensFilter opens.2]

end Attachment

end FusionAtlas
