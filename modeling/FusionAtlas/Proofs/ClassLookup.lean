import FusionAtlas.HostCode.ClassLibrary
import Mathlib.Data.List.DropRight
import Mathlib.Logic.Relation

/-!
What looking a class up answers, and what it leaves behind. A name that is loaded in the directory it
belongs to is answered by the class loaded there, any other by the class its file declares. Main
statements: `ClassLibrary.fst_lookup` for the answer, `ClassLibrary.loaded?_lookup` for what is loaded
behind it, and `ClassLibrary.lookup_of_grows`: as long as the disk stays the same, further lookups
change no answer that was given.
-/

set_option autoImplicit false
set_option relaxedAutoImplicit false

namespace FusionAtlas

namespace ClassDirectory

/-- The directory with no class loaded. -/
def cleared (directory : ClassDirectory) : ClassDirectory := { directory with classes := [] }

theorem read_cleared (directory : ClassDirectory) (disk : Disk) (fqcn : String) :
    directory.cleared.read disk fqcn = directory.read disk fqcn := rfl

@[simp] theorem keyOf_keyOf (fqcn : String) : keyOf (keyOf fqcn) = keyOf fqcn := by
  simp only [keyOf, ClassName.dropLeading, String.toList_ofList, List.dropWhile_idempotent]

theorem loaded?_congr (directory : ClassDirectory) {a b : String} (same : keyOf a = keyOf b) :
    directory.loaded? a = directory.loaded? b := by
  simp only [loaded?, same]

theorem owns_congr (directory : ClassDirectory) {a b : String} (same : keyOf a = keyOf b) :
    directory.owns a = directory.owns b := by
  simp only [owns, same]

theorem candidate_congr (directory : ClassDirectory) {a b : String} (same : keyOf a = keyOf b) :
    directory.candidate a = directory.candidate b := by
  simp only [candidate, same]

theorem read_congr (directory : ClassDirectory) (disk : Disk) {a b : String}
    (same : keyOf a = keyOf b) : directory.read disk a = directory.read disk b := by
  simp only [read, directory.candidate_congr same, same]

end ClassDirectory

theorem ClassSource.fqcn_of_declaration {source : ClassSource} {fqcn expected rootName : String}
    {uri : FileUri} {declared : ClassDeclaration}
    (found : source.declaration fqcn expected rootName uri = .ok declared) :
    declared.fqcn = fqcn ∧ declared.uri = uri := by
  unfold ClassSource.declaration at found
  simp only at found
  split at found
  · cases found
  · split at found
    · cases found
    · cases found
      exact ⟨rfl, rfl⟩

theorem ClassSource.namespaceName_of_declaration {source : ClassSource} {fqcn expected rootName : String}
    {uri : FileUri} {declared : ClassDeclaration}
    (found : source.declaration fqcn expected rootName uri = .ok declared) :
    declared.namespaceName = rootName := by
  unfold ClassSource.declaration at found
  simp only at found
  split at found
  · cases found
  · split at found
    · cases found
    · cases found
      rfl

namespace ClassDirectory

variable {directory after : ClassDirectory} {disk : Disk} {fqcn : String}

/-- A class that is read is declared by the candidate of its name, which is a readable file. -/
theorem declaration_of_read {declared : ClassDeclaration} (found : directory.read disk fqcn = .ok declared) :
    ∃ candidate text, directory.candidate fqcn = .ok candidate ∧
      disk.isFile candidate.path = true ∧ disk.readText candidate.path = .ok text ∧
      (ClassSource.mk text.toList).declaration (keyOf fqcn) candidate.namespaceName directory.name
        (.ofPath candidate.path) = .ok declared := by
  unfold read at found
  cases place : directory.candidate fqcn with
  | error miss => simp [place, bind, Except.bind] at found
  | ok candidate =>
    simp only [place, bind, Except.bind] at found
    cases file : disk.isFile candidate.path with
    | false => simp [file, throw, throwThe, MonadExceptOf.throw] at found
    | true =>
      cases content : disk.readText candidate.path with
      | error fault =>
        simp [file, content, throw, throwThe, MonadExceptOf.throw] at found
      | ok text =>
        simp only [file, content, Bool.not_true, Bool.false_eq_true, if_false] at found
        exact ⟨candidate, text, rfl, file, content, found⟩

/-- A class that is read has the name it was asked for, and comes from the candidate of that name. -/
theorem read_eq_ok {declared : ClassDeclaration} (found : directory.read disk fqcn = .ok declared) :
    ∃ candidate text, directory.candidate fqcn = .ok candidate ∧
      disk.isFile candidate.path = true ∧ disk.readText candidate.path = .ok text ∧
      declared.fqcn = keyOf fqcn ∧ declared.uri = .ofPath candidate.path := by
  obtain ⟨candidate, text, place, file, content, found⟩ := declaration_of_read found
  have declared := ClassSource.fqcn_of_declaration found
  exact ⟨candidate, text, place, file, content, declared.1, declared.2⟩

theorem lookup_of_loaded {found : LoadedClass} (identity : Nat)
    (loaded : directory.loaded? fqcn = some found) :
    directory.lookup disk identity fqcn = .ok (found, directory) := by
  simp only [lookup, loaded]

/-- The same directory with one more class, behind those that are loaded. -/
def keep (directory : ClassDirectory) (fqcn : String) (found : LoadedClass) : ClassDirectory :=
  { directory with classes := directory.classes ++ [(keyOf fqcn, found)] }

@[simp] theorem cleared_keep (directory : ClassDirectory) (fqcn : String) (found : LoadedClass) :
    (directory.keep fqcn found).cleared = directory.cleared := rfl

theorem loaded?_keep (fresh : directory.loaded? fqcn = none) (found : LoadedClass) (name : String) :
    (directory.keep fqcn found).loaded? name =
      if keyOf name = keyOf fqcn then some found else directory.loaded? name := by
  simp only [loaded?, keep, List.find?_append, Option.map_eq_none_iff] at fresh ⊢
  by_cases same : keyOf name = keyOf fqcn
  · simp [same, fresh]
  · simp [Ne.symm same, same]

theorem lookup_of_not_loaded (identity : Nat) (fresh : directory.loaded? fqcn = none) :
    directory.lookup disk identity fqcn =
      (directory.read disk fqcn).map fun declaration =>
        (⟨identity, declaration⟩, directory.keep fqcn ⟨identity, declaration⟩) := by
  simp only [lookup, fresh, keep]

/-- Forgetting the classes of a file forgets no class of another one. -/
theorem loaded?_purge_of_ne {found : LoadedClass} {uri : FileUri}
    (loaded : directory.loaded? fqcn = some found) (other : found.declaration.uri ≠ uri) :
    (directory.purge uri).loaded? fqcn = some found := by
  obtain ⟨entry, search, rfl⟩ := Option.map_eq_some_iff.mp loaded
  obtain ⟨key, first, rest, classes, others⟩ := List.find?_eq_some_iff_append.mp search
  have kept : (directory.purge uri).classes.find? (fun entry => entry.1 == keyOf fqcn) =
      some entry := by
    rw [purge, List.find?_filter, List.find?_eq_some_iff_append]
    refine ⟨by simpa [other] using key, first, rest, classes, ?_⟩
    intro earlier member
    simp [show (earlier.1 == keyOf fqcn) = false by simpa using others earlier member]
  rw [loaded?, kept, Option.map_some]

end ClassDirectory

namespace ClassLibrary

/-- The same directories, whatever is loaded in them. -/
def SameRoots (a b : ClassLibrary) : Prop :=
  a.directories.map ClassDirectory.cleared = b.directories.map ClassDirectory.cleared

/-- The class loaded by a name in the directory the name belongs to. -/
def loaded? (library : ClassLibrary) (fqcn : String) : Option LoadedClass :=
  (library.owner? fqcn).bind fun owner => owner.2.loaded? fqcn

/-- The class of a name as its file declares it on the disk, whatever is loaded. -/
def read? (library : ClassLibrary) (disk : Disk) (fqcn : String) : Option ClassDeclaration :=
  (library.owner? fqcn).bind fun owner => (owner.2.read disk fqcn).toOption

namespace SameRoots

theorem refl (library : ClassLibrary) : SameRoots library library := rfl

theorem trans {a b c : ClassLibrary} (first : SameRoots a b) (second : SameRoots b c) :
    SameRoots a c :=
  Eq.trans first second

end SameRoots

private theorem mem_of_foldl_better {entries : List (Nat × ClassDirectory)}
    {start : Option (Nat × ClassDirectory)} {found : Nat × ClassDirectory}
    (best : entries.foldl better start = some found) : found ∈ entries ∨ start = some found := by
  induction entries generalizing start with
  | nil => exact Or.inr best
  | cons entry entries ih =>
    rcases ih best with member | chosen
    · exact Or.inl (List.mem_cons_of_mem entry member)
    · cases start with
      | none => exact Or.inl (by simp_all [better])
      | some old =>
        simp only [better] at chosen
        split at chosen
        · exact Or.inl (by simp_all)
        · exact Or.inr chosen

/-- The owner of a name stands in the library under its number, and owns the name. -/
theorem getElem?_of_owner? {library : ClassLibrary} {fqcn : String} {n : Nat}
    {directory : ClassDirectory} (owner : library.owner? fqcn = some (n, directory)) :
    library.directories[n]? = some directory ∧ directory.owns fqcn = true := by
  rcases mem_of_foldl_better owner with member | impossible
  · obtain ⟨numbered, owns⟩ := List.mem_filter.mp member
    obtain ⟨entry, place, swapped⟩ := List.mem_map.mp numbered
    obtain ⟨rfl, rfl⟩ := Prod.mk.injEq .. ▸ swapped
    exact ⟨List.mem_zipIdx_iff_getElem?.mp place, owns⟩
  · cases impossible

private def clearedEntry (entry : Nat × ClassDirectory) : Nat × ClassDirectory :=
  (entry.1, entry.2.cleared)

private theorem map_better (best : Option (Nat × ClassDirectory)) (next : Nat × ClassDirectory) :
    (better best next).map clearedEntry = better (best.map clearedEntry) (clearedEntry next) := by
  cases best with
  | none => rfl
  | some old =>
    simp only [better, Option.map_some]
    change (if nameLength old.2 ≤ nameLength next.2 then some next else some old).map clearedEntry =
      if nameLength old.2 ≤ nameLength next.2 then _ else _
    split <;> rfl

private theorem map_foldl_better (entries : List (Nat × ClassDirectory))
    (start : Option (Nat × ClassDirectory)) :
    (entries.foldl better start).map clearedEntry =
      (entries.map clearedEntry).foldl better (start.map clearedEntry) := by
  induction entries generalizing start with
  | nil => rfl
  | cons entry entries ih => rw [List.foldl_cons, ih, map_better, List.map_cons, List.foldl_cons]

private theorem map_owner? (library : ClassLibrary) (fqcn : String) :
    (library.owner? fqcn).map clearedEntry =
      (ClassLibrary.make (library.directories.map ClassDirectory.cleared)).owner? fqcn := by
  simp only [owner?, make, map_foldl_better, Option.map_none, List.zipIdx_map, List.map_map,
    List.filter_map]
  rfl

variable {a b library : ClassLibrary} {disk : Disk} {fqcn : String}

/-- Which directory owns a name does not depend on what is loaded. -/
theorem owner?_of_sameRoots (same : SameRoots a b) (fqcn : String) :
    (a.owner? fqcn = none ∧ b.owner? fqcn = none) ∨
      ∃ n da db, a.owner? fqcn = some (n, da) ∧ b.owner? fqcn = some (n, db) ∧
        da.cleared = db.cleared := by
  have owners : (a.owner? fqcn).map clearedEntry = (b.owner? fqcn).map clearedEntry := by
    rw [map_owner?, map_owner?, same]
  cases ha : a.owner? fqcn with
  | none =>
    rw [ha, Option.map_none, eq_comm, Option.map_eq_none_iff] at owners
    exact Or.inl ⟨rfl, owners⟩
  | some first =>
    rw [ha, Option.map_some, eq_comm] at owners
    obtain ⟨second, hb, equal⟩ := Option.map_eq_some_iff.mp owners
    obtain ⟨number, place⟩ := Prod.mk.injEq .. ▸ equal
    exact Or.inr ⟨first.1, first.2, second.2, rfl, by rw [hb, ← number], place.symm⟩

theorem owner?_congr (library : ClassLibrary) {a b : String}
    (same : ClassDirectory.keyOf a = ClassDirectory.keyOf b) :
    library.owner? a = library.owner? b := by
  simp only [owner?, ClassDirectory.owns_congr _ same]

theorem loaded?_congr (library : ClassLibrary) {a b : String}
    (same : ClassDirectory.keyOf a = ClassDirectory.keyOf b) :
    library.loaded? a = library.loaded? b := by
  simp only [loaded?, library.owner?_congr same, ClassDirectory.loaded?_congr _ same]

theorem read?_congr (library : ClassLibrary) (disk : Disk) {a b : String}
    (same : ClassDirectory.keyOf a = ClassDirectory.keyOf b) :
    library.read? disk a = library.read? disk b := by
  simp only [read?, library.owner?_congr same, ClassDirectory.read_congr _ disk same]

theorem read?_of_sameRoots (same : SameRoots a b) (disk : Disk) (fqcn : String) :
    a.read? disk fqcn = b.read? disk fqcn := by
  rcases owner?_of_sameRoots same fqcn with ⟨ha, hb⟩ | ⟨n, da, db, ha, hb, place⟩
  · simp only [read?, ha, hb]
  · simp only [read?, ha, hb, Option.bind_some, ← ClassDirectory.read_cleared da,
      ← ClassDirectory.read_cleared db, place]

theorem sameRoots_set {n : Nat} {directory other : ClassDirectory} (identity : Nat)
    (numbered : library.directories[n]? = some directory)
    (place : other.cleared = directory.cleared) :
    SameRoots library ⟨library.directories.set n other, identity⟩ := by
  have old : (library.directories.map ClassDirectory.cleared)[n]? = some directory.cleared := by
    simp [numbered]
  obtain ⟨bound, equal⟩ := List.getElem?_eq_some_iff.mp old
  simp only [SameRoots, List.map_set, place, ← equal, List.set_getElem_self]

/-- Which directory owns a name stays the same when one is replaced that differs in what is loaded. -/
theorem owner?_set {n : Nat} {directory other : ClassDirectory} (identity : Nat)
    (numbered : library.directories[n]? = some directory)
    (place : other.cleared = directory.cleared) (name : String) :
    (⟨library.directories.set n other, identity⟩ : ClassLibrary).owner? name =
      (library.owner? name).map fun entry => (entry.1, if entry.1 = n then other else entry.2) := by
  rcases owner?_of_sameRoots (sameRoots_set identity numbered place) name with
    ⟨before, behind⟩ | ⟨m, da, db, before, behind, -⟩
  · rw [before, behind, Option.map_none]
  · have held := (getElem?_of_owner? behind).1
    have bound := (List.getElem?_eq_some_iff.mp numbered).1
    rw [before, behind, Option.map_some]
    by_cases here : m = n
    · subst here
      rw [List.getElem?_set_self bound] at held
      rw [if_pos rfl, Option.some.inj held]
    · rw [List.getElem?_set_ne (Ne.symm here), (getElem?_of_owner? before).1] at held
      rw [if_neg here, Option.some.inj held]

/-- What a lookup does: it answers with what is loaded; else it loads what the file of the name
declares, behind everything loaded in the directory that owns the name; else it does nothing. -/
theorem lookup_cases (library : ClassLibrary) (disk : Disk) (fqcn : String) :
    (∃ found, library.loaded? fqcn = some found ∧
      library.lookup disk fqcn =
        (some found,
          { library with nextIdentity := max library.nextIdentity (found.identity + 1) })) ∨
    (library.loaded? fqcn = none ∧ library.read? disk fqcn = none ∧
      library.lookup disk fqcn = (none, library)) ∨
    ∃ n directory declared,
      let found : LoadedClass := ⟨library.nextIdentity, declared⟩
      library.loaded? fqcn = none ∧ library.read? disk fqcn = some declared ∧
      library.owner? fqcn = some (n, directory) ∧ directory.read disk fqcn = .ok declared ∧
      library.lookup disk fqcn =
        (some found,
          { directories := library.directories.set n (directory.keep fqcn found)
            nextIdentity := max library.nextIdentity (library.nextIdentity + 1) }) := by
  cases owner : library.owner? fqcn with
  | none => exact Or.inr (Or.inl (by simp [loaded?, read?, lookup, owner]))
  | some entry =>
    obtain ⟨n, directory⟩ := entry
    have numbered := (getElem?_of_owner? owner).1
    cases loaded : directory.loaded? fqcn with
    | some found =>
      refine Or.inl ⟨found, by simp [loaded?, owner, loaded], ?_⟩
      have kept : library.directories.set n directory = library.directories := by
        obtain ⟨bound, rfl⟩ := List.getElem?_eq_some_iff.mp numbered
        exact List.set_getElem_self bound
      simp only [lookup, owner, lookupIn, numbered, directory.lookup_of_loaded _ loaded, kept]
    | none =>
      cases content : directory.read disk fqcn with
      | error miss =>
        refine Or.inr (Or.inl ⟨by simp [loaded?, owner, loaded],
          by simp [read?, owner, content, Except.toOption], ?_⟩)
        simp [lookup, owner, lookupIn, numbered, ClassDirectory.lookup_of_not_loaded _ loaded,
          content, Except.map]
      | ok declared =>
        refine Or.inr (Or.inr ⟨n, directory, declared, by simp [loaded?, owner, loaded],
          by simp [read?, owner, content, Except.toOption], rfl, content, ?_⟩)
        simp [lookup, owner, lookupIn, numbered, ClassDirectory.lookup_of_not_loaded _ loaded,
          content, Except.map]

theorem sameRoots_lookup (library : ClassLibrary) (disk : Disk) (fqcn : String) :
    SameRoots library (library.lookup disk fqcn).2 := by
  rcases library.lookup_cases disk fqcn with
    ⟨found, -, result⟩ | ⟨-, -, result⟩ | ⟨n, directory, declared, -, -, owner, -, result⟩
  · rw [result]
    rfl
  · rw [result]
    rfl
  · rw [result]
    exact sameRoots_set _ (getElem?_of_owner? owner).1 (directory.cleared_keep fqcn _)

theorem fst_lookup (library : ClassLibrary) (disk : Disk) (fqcn : String) :
    (library.lookup disk fqcn).1 =
      (library.loaded? fqcn).or
        ((library.read? disk fqcn).map (LoadedClass.mk library.nextIdentity)) := by
  rcases library.lookup_cases disk fqcn with
    ⟨found, loaded, result⟩ | ⟨loaded, content, result⟩ |
      ⟨n, directory, declared, loaded, content, -, -, result⟩
  · simp [result, loaded]
  · simp [result, loaded, content]
  · simp [result, loaded, content]

/-- What is loaded behind a lookup: what was loaded before, and the answer under its name. -/
theorem loaded?_lookup (library : ClassLibrary) (disk : Disk) (fqcn name : String) :
    (library.lookup disk fqcn).2.loaded? name =
      if ClassDirectory.keyOf name = ClassDirectory.keyOf fqcn then (library.lookup disk fqcn).1
      else library.loaded? name := by
  rcases library.lookup_cases disk fqcn with
    ⟨found, loaded, result⟩ | ⟨loaded, -, result⟩ | ⟨n, directory, declared, loaded, -, owner, -, result⟩
  · have unchanged : (library.lookup disk fqcn).2.loaded? name = library.loaded? name := by
      rw [result]
      rfl
    split
    · rename_i same
      rw [unchanged, result, library.loaded?_congr same, loaded]
    · exact unchanged
  · rw [result]
    split
    · rename_i same
      rw [library.loaded?_congr same, loaded]
    · rfl
  · have fresh : directory.loaded? fqcn = none := by simpa [loaded?, owner] using loaded
    rw [result]
    simp only [loaded?, owner?_set _ (getElem?_of_owner? owner).1 (directory.cleared_keep fqcn _)]
    cases before : library.owner? name with
    | none =>
      have other : ClassDirectory.keyOf name ≠ ClassDirectory.keyOf fqcn := by
        intro same
        rw [library.owner?_congr same, owner] at before
        cases before
      rw [if_neg other, Option.map_none, Option.bind_none]
    | some entry =>
      simp only [Option.map_some, Option.bind_some]
      by_cases here : entry.1 = n
      · have own : entry.2 = directory := by
          have numbered := (getElem?_of_owner? before).1
          rw [here, (getElem?_of_owner? owner).1] at numbered
          exact (Option.some.inj numbered).symm
        rw [if_pos here, ClassDirectory.loaded?_keep fresh, own]
      · have other : ClassDirectory.keyOf name ≠ ClassDirectory.keyOf fqcn := by
          intro same
          rw [library.owner?_congr same, owner] at before
          exact here (congrArg Prod.fst (Option.some.inj before)).symm
        rw [if_neg here, if_neg other]

theorem loaded?_lookup_self (library : ClassLibrary) (disk : Disk) (fqcn : String) :
    (library.lookup disk fqcn).2.loaded? fqcn = (library.lookup disk fqcn).1 := by
  rw [loaded?_lookup, if_pos rfl]

/-- The library has come from the other by lookups on one disk. -/
def Grows (disk : Disk) : ClassLibrary → ClassLibrary → Prop :=
  Relation.ReflTransGen fun a b => ∃ fqcn, b = (a.lookup disk fqcn).2

namespace Grows

theorem lookup (library : ClassLibrary) (disk : Disk) (fqcn : String) :
    Grows disk library (library.lookup disk fqcn).2 :=
  .single ⟨fqcn, rfl⟩

/-- What every lookup keeps is kept as the library grows. -/
theorem preserves {P : ClassLibrary → Prop} (grows : Grows disk a b)
    (step : ∀ library fqcn, P library → P (library.lookup disk fqcn).2) (start : P a) : P b := by
  induction grows with
  | refl => exact start
  | tail _ lookup ih =>
    obtain ⟨fqcn, rfl⟩ := lookup
    exact step _ fqcn ih

theorem sameRoots (grows : Grows disk a b) : SameRoots a b :=
  grows.preserves (fun library fqcn same => same.trans (library.sameRoots_lookup disk fqcn))
    (.refl a)

/-- What is loaded stays loaded. -/
theorem loaded? {found : LoadedClass} (grows : Grows disk a b) (loaded : a.loaded? fqcn = some found) :
    b.loaded? fqcn = some found := by
  refine grows.preserves (P := fun library => library.loaded? fqcn = some found) ?_ loaded
  intro library name loaded
  rw [loaded?_lookup]
  split
  · rename_i same
    rw [fst_lookup, ← library.loaded?_congr same, loaded, Option.some_or]
  · exact loaded

/-- A name whose file declares no class is not loaded later on. -/
theorem loaded?_of_missing (grows : Grows disk a b) (missing : a.read? disk fqcn = none) :
    b.loaded? fqcn = a.loaded? fqcn := by
  have kept := grows.preserves
    (P := fun library => library.read? disk fqcn = none ∧ library.loaded? fqcn = a.loaded? fqcn)
    ?_ ⟨missing, rfl⟩
  · exact kept.2
  · rintro library name ⟨missing, loaded⟩
    refine ⟨?_, ?_⟩
    · rw [← read?_of_sameRoots (library.sameRoots_lookup disk name), missing]
    · rw [loaded?_lookup]
      split
      · rename_i same
        rw [fst_lookup, ← library.loaded?_congr same, ← library.read?_congr disk same, missing,
          Option.map_none, Option.or_none, loaded]
      · exact loaded

end Grows

/-- A class once found is found again, and a name once missed is missed again, whatever is looked up
on the same disk in between. -/
theorem lookup_of_grows (grows : Grows disk (library.lookup disk fqcn).2 b) :
    (b.lookup disk fqcn).1 = (library.lookup disk fqcn).1 := by
  cases answer : (library.lookup disk fqcn).1 with
  | some found =>
    have loaded := grows.loaded? ((library.loaded?_lookup_self disk fqcn).trans answer)
    rw [fst_lookup, loaded, Option.some_or]
  | none =>
    rw [fst_lookup, Option.or_eq_none_iff, Option.map_eq_none_iff] at answer
    have same : Grows disk library b := (Grows.lookup library disk fqcn).trans grows
    rw [fst_lookup, same.loaded?_of_missing answer.2, ← read?_of_sameRoots same.sameRoots, answer.1,
      answer.2, Option.map_none, Option.or_none]

/-- Lookups on one disk do not change which class declaration a name stands for there. -/
theorem declaration_of_grows (grows : Grows disk a b) (fqcn : String) :
    (b.lookup disk fqcn).1.map (·.declaration) = (a.lookup disk fqcn).1.map (·.declaration) := by
  refine grows.preserves (P := fun library => (library.lookup disk fqcn).1.map (·.declaration) =
    (a.lookup disk fqcn).1.map (·.declaration)) ?_ rfl
  intro library name equal
  rw [← equal, fst_lookup, fst_lookup library, loaded?_lookup,
    ← read?_of_sameRoots (library.sameRoots_lookup disk name)]
  split
  · rename_i same
    rw [fst_lookup, ← library.loaded?_congr same, ← library.read?_congr disk same]
    cases library.loaded? fqcn <;> cases library.read? disk fqcn <;> rfl
  · cases library.loaded? fqcn <;> cases library.read? disk fqcn <;> rfl

/-- Every class is loaded under its own name. -/
def WellKeyed (library : ClassLibrary) : Prop :=
  ∀ directory ∈ library.directories, ∀ entry ∈ directory.classes,
    entry.2.declaration.fqcn = entry.1

theorem WellKeyed.lookup (keyed : WellKeyed library) (disk : Disk) (fqcn : String) :
    WellKeyed (library.lookup disk fqcn).2 := by
  rcases library.lookup_cases disk fqcn with
    ⟨found, -, result⟩ | ⟨-, -, result⟩ | ⟨n, directory, declared, -, -, owner, content, result⟩
  · rw [result]
    exact keyed
  · rw [result]
    exact keyed
  · rw [result]
    intro other member entry held
    rcases List.mem_or_eq_of_mem_set member with old | rfl
    · exact keyed other old entry held
    · rcases List.mem_append.mp held with old | new
      · exact keyed directory (List.mem_of_getElem? (getElem?_of_owner? owner).1) entry old
      · obtain ⟨_, _, -, -, -, name, -⟩ := ClassDirectory.read_eq_ok content
        rw [List.mem_singleton.mp new, name]

theorem WellKeyed.of_grows (keyed : WellKeyed a) (grows : Grows disk a b) : WellKeyed b :=
  grows.preserves (fun _ fqcn keyed => keyed.lookup disk fqcn) keyed

theorem WellKeyed.purge (keyed : WellKeyed library) (uri : FileUri) :
    WellKeyed (library.purge uri) := by
  intro directory member entry held
  obtain ⟨old, place, rfl⟩ := List.mem_map.mp member
  exact keyed old place entry (List.mem_of_mem_filter held)

/-- A class that a library answers with has the name it was asked for. -/
theorem WellKeyed.fqcn_of_loaded {found : LoadedClass} (keyed : WellKeyed library)
    (loaded : library.loaded? fqcn = some found) :
    found.declaration.fqcn = ClassDirectory.keyOf fqcn := by
  obtain ⟨⟨n, directory⟩, owner, held⟩ := Option.bind_eq_some_iff.mp loaded
  obtain ⟨entry, search, rfl⟩ := Option.map_eq_some_iff.mp held
  have member := List.mem_of_getElem? (getElem?_of_owner? owner).1
  have key : entry.1 = ClassDirectory.keyOf fqcn := by simpa using List.find?_some search
  rw [keyed directory member entry (List.mem_of_find?_eq_some search), key]

theorem sameRoots_purge (library : ClassLibrary) (uri : FileUri) :
    SameRoots library (library.purge uri) := by
  simp only [SameRoots, purge, List.map_map]
  rfl

theorem owner?_purge (library : ClassLibrary) (uri : FileUri) (name : String) :
    (library.purge uri).owner? name =
      (library.owner? name).map fun entry => (entry.1, entry.2.purge uri) := by
  rcases owner?_of_sameRoots (library.sameRoots_purge uri) name with
    ⟨before, behind⟩ | ⟨n, da, db, before, behind, -⟩
  · rw [before, behind, Option.map_none]
  · have held := (getElem?_of_owner? behind).1
    rw [purge, List.getElem?_map, (getElem?_of_owner? before).1, Option.map_some] at held
    rw [before, behind, Option.map_some, Option.some.inj held]

/-- Forgetting the classes of a file forgets no class of another one. -/
theorem loaded?_purge_of_ne {found : LoadedClass} {uri : FileUri}
    (loaded : library.loaded? fqcn = some found) (other : found.declaration.uri ≠ uri) :
    (library.purge uri).loaded? fqcn = some found := by
  obtain ⟨⟨n, directory⟩, owner, held⟩ := Option.bind_eq_some_iff.mp loaded
  rw [loaded?, owner?_purge, owner, Option.map_some, Option.bind_some]
  exact ClassDirectory.loaded?_purge_of_ne held other

end ClassLibrary

namespace ClassDirectory

variable (directory : ClassDirectory) (uri : FileUri)

/-- A directory is left smaller exactly when some class was loaded from the file. -/
theorem forgets_eq : directory.forgets uri = !(directory.loadedFrom uri).isEmpty := by
  have counted := List.length_eq_length_filter_add
    (l := directory.classes) fun entry => decide (entry.2.declaration.uri = uri)
  have kept : (directory.purge uri).classes =
      directory.classes.filter fun entry => !decide (entry.2.declaration.uri = uri) := by
    rw [purge]
    exact List.filter_congr fun entry _ => by simp
  have found : (directory.loadedFrom uri).length =
      (directory.classes.filter fun entry => decide (entry.2.declaration.uri = uri)).length := by
    rw [loadedFrom, List.length_map]
  rw [Bool.eq_iff_iff, forgets, kept, Bool.not_eq_true', List.isEmpty_eq_false_iff_exists_mem,
    ← List.length_pos_iff_exists_mem, found, decide_eq_true_eq]
  omega

theorem purge_eq_self (none : directory.loadedFrom uri = []) : directory.purge uri = directory := by
  have kept : directory.classes.filter (fun entry => entry.2.declaration.uri ≠ uri) =
      directory.classes := by
    rw [List.filter_eq_self]
    intro entry member
    rw [loadedFrom, List.map_eq_nil_iff, List.filter_eq_nil_iff] at none
    simpa using none entry member
  rw [purge, kept]

end ClassDirectory

namespace ClassLibrary

variable (library : ClassLibrary) (uri : FileUri)

/-- No directory is left out, whether or not one before it has forgotten a class. -/
theorem foldl_purgeNext (directories : List ClassDirectory) (forgot : Bool)
    (done : List ClassDirectory) :
    directories.foldl (purgeNext uri) (forgot, done) =
      (directories.any (fun directory => directory.forgets uri) || forgot,
        done ++ directories.map fun directory => directory.purge uri) := by
  induction directories generalizing forgot done with
  | nil => simp
  | cons directory directories ih =>
    rw [List.foldl_cons, purgeNext, ih, List.any_cons, List.map_cons, List.append_assoc,
      List.singleton_append, ← Bool.or_assoc, Bool.or_comm (directory.forgets uri)]

/-- The classes of the file are forgotten in all directories, and there was one if some was loaded. -/
theorem purgeFile_eq :
    library.purgeFile uri = (!(library.loadedFrom uri).isEmpty, library.purge uri) := by
  have forgot : library.directories.any (fun directory => directory.forgets uri) =
      !(library.loadedFrom uri).isEmpty := by
    rw [loadedFrom, Bool.eq_iff_iff, List.any_eq_true, Bool.not_eq_true',
      List.isEmpty_eq_false_iff_exists_mem]
    simp only [ClassDirectory.forgets_eq, Bool.not_eq_true', List.isEmpty_eq_false_iff_exists_mem,
      List.mem_flatMap]
    constructor
    · rintro ⟨directory, member, name, listed⟩
      exact ⟨name, directory, member, listed⟩
    · rintro ⟨name, directory, member, listed⟩
      exact ⟨directory, member, name, listed⟩
  rw [purgeFile, foldl_purgeNext, Bool.or_false, forgot, List.nil_append]
  rfl

theorem purge_eq_self (none : library.loadedFrom uri = []) : library.purge uri = library := by
  rw [loadedFrom, List.flatMap_eq_nil_iff] at none
  have kept : library.directories.map (fun directory => directory.purge uri) =
      library.directories := by
    rw [List.map_congr_left fun directory member => directory.purge_eq_self uri (none _ member)]
    exact List.map_id' _
  rw [purge, kept]

end ClassLibrary

end FusionAtlas
