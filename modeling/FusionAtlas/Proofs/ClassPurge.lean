import FusionAtlas.Proofs.LookupSession

/-!
Forgetting the classes of a file. However they were loaded, and in however many directories, the classes
declared in the file are gone from all of them behind a purge, every other class is kept where it was, and
the purge tells whether there was any. Main statements: `ClassLibrary.Placed.keptAt?_purge_eq` for what is
kept, and `ClassLibrary.purgeFile_exact`.
-/

set_option autoImplicit false
set_option relaxedAutoImplicit false

namespace FusionAtlas

namespace ClassLibrary

variable {library : ClassLibrary} {uri : FileUri}

/-- The directory with the number has loaded the class by the name. -/
def Lists (library : ClassLibrary) (number : Nat) (entry : String × LoadedClass) : Prop :=
  ∃ directory, library.directories[number]? = some directory ∧ entry ∈ directory.classes

theorem lists_purge_iff {number : Nat} {entry : String × LoadedClass} :
    (library.purge uri).Lists number entry ↔
      library.Lists number entry ∧ entry.2.declaration.uri ≠ uri := by
  constructor
  · rintro ⟨directory, numbered, listed⟩
    rw [getElem?_purge] at numbered
    obtain ⟨old, before, rfl⟩ := Option.map_eq_some_iff.mp numbered
    obtain ⟨held, other⟩ := List.mem_filter.mp listed
    exact ⟨⟨old, before, held⟩, of_decide_eq_true other⟩
  · rintro ⟨⟨directory, numbered, listed⟩, other⟩
    refine ⟨directory.purge uri, ?_, List.mem_filter.mpr ⟨listed, decide_eq_true other⟩⟩
    rw [getElem?_purge, numbered, Option.map_some]

theorem loadedFrom_eq_nil_iff : library.loadedFrom uri = [] ↔
    ∀ number entry, library.Lists number entry → entry.2.declaration.uri ≠ uri := by
  rw [loadedFrom, List.flatMap_eq_nil_iff]
  simp only [ClassDirectory.loadedFrom, List.map_eq_nil_iff, List.filter_eq_nil_iff,
    decide_eq_true_eq]
  constructor
  · rintro none number entry ⟨directory, numbered, listed⟩
    exact none directory (List.mem_of_getElem? numbered) entry listed
  · intro none directory member entry listed
    obtain ⟨number, numbered⟩ := List.mem_iff_getElem?.mp member
    exact none number entry ⟨directory, numbered, listed⟩

@[simp] theorem loadedFrom_purge (library : ClassLibrary) (uri : FileUri) :
    (library.purge uri).loadedFrom uri = [] :=
  loadedFrom_eq_nil_iff.mpr fun _ _ listed => (lists_purge_iff.mp listed).2

/-- Leading backslashes of the name do not count. -/
theorem keptAt?_keyOf (library : ClassLibrary) (place : Place) :
    library.keptAt? (place.1, ClassDirectory.keyOf place.2) = library.keptAt? place := by
  simp only [keptAt?, ClassDirectory.loaded?_congr _ (ClassDirectory.keyOf_keyOf place.2)]

/-- Behind a purge a place keeps the class it kept before, unless that was declared in the file. Nothing
else turns up there: all classes loaded by one name in one directory come from one file. -/
theorem Placed.keptAt?_purge_eq (placed : Placed library) (uri : FileUri) (place : Place) :
    (library.purge uri).keptAt? place =
      (library.keptAt? place).filter fun cls => cls.declaration.uri ≠ uri := by
  rw [← keptAt?_keyOf, ← library.keptAt?_keyOf]
  obtain ⟨plain, spelled, key⟩ : ∃ plain : Place, (place.1, ClassDirectory.keyOf place.2) = plain ∧
      ClassDirectory.keyOf plain.2 = plain.2 := ⟨_, rfl, ClassDirectory.keyOf_keyOf place.2⟩
  rw [spelled]
  have purged := getElem?_purge library uri plain.1
  cases kept : library.keptAt? plain with
  | none => rw [Session.missing_purge purged kept, Option.filter_none]
  | some found =>
    by_cases declared : found.declaration.uri = uri
    · have file := placed.uriAt? key kept
      rw [declared] at file
      rw [placed.keptAt?_purge key file purged, Option.filter_some, if_neg (by simp [declared])]
    · obtain ⟨directory, numbered, loaded⟩ := Option.bind_eq_some_iff.mp kept
      rw [keptAt?, purged, numbered, Option.map_some, Option.bind_some,
        ClassDirectory.loaded?_purge_of_ne loaded declared, Option.filter_some,
        if_pos (by simp [declared])]

theorem placed_start {directories : List ClassDirectory}
    (fresh : ∀ directory ∈ directories, directory.classes = []) (disk : Disk) :
    Placed (Session.start directories disk).library := by
  intro number directory numbered entry listed
  rw [fresh directory (List.mem_of_getElem? numbered)] at listed
  cases listed

open Session (start)

/-- Take any session that starts with nothing loaded, and behind it a purge of any file. The purge tells
whether a class of the file was loaded. Behind it none is, in any directory, and every other class is kept
under its name in its directory as the same object; the directories are the same, and no number is used up.
A second purge of the file tells that there is nothing, and changes nothing. -/
theorem purgeFile_exact {directories : List ClassDirectory}
    (fresh : ∀ directory ∈ directories, directory.classes = []) (disk : Disk) (actions : List Action)
    (uri : FileUri) :
    let library := ((start directories disk).run actions).library
    let after := (library.purgeFile uri).2
    ((library.purgeFile uri).1 = true ↔ library.loadedFrom uri ≠ []) ∧
    after.loadedFrom uri = [] ∧
    (∀ number entry, after.Lists number entry ↔
      library.Lists number entry ∧ entry.2.declaration.uri ≠ uri) ∧
    (∀ place, after.keptAt? place =
      (library.keptAt? place).filter fun cls => cls.declaration.uri ≠ uri) ∧
    SameRoots library after ∧ after.nextIdentity = library.nextIdentity ∧
    after.purgeFile uri = (false, after) := by
  intro library after
  have placed : Placed library := Session.placed_run (placed_start fresh disk) actions
  have purged : after = library.purge uri := congrArg Prod.snd (library.purgeFile_eq uri)
  rw [purged, purgeFile_eq]
  refine ⟨?_, library.loadedFrom_purge uri, fun number entry => lists_purge_iff,
    placed.keptAt?_purge_eq uri, library.sameRoots_purge uri, rfl, ?_⟩
  · rw [Bool.not_eq_true', List.isEmpty_eq_false_iff]
  · rw [purgeFile_eq, loadedFrom_purge, purge_eq_self _ _ (library.loadedFrom_purge uri)]
    rfl

private def valveFile : FilePath := .ofString "/src/Sub/Valve.php"

/-- Each class of `Acme\Sub` is also a class of `Acme`. -/
private def valveRoots : List ClassDirectory :=
  [.make "Acme" (.ofString "/src"), .make "Acme\\Sub" (.ofString "/src/Sub")]

private def valveDisk : Disk :=
  let gear := Disk.write .empty (.ofString "/src/Gear.php")
    (Text.Utf8.encode "<?php\nnamespace Acme;\nclass Gear \x7b \x7d\n".toList)
  gear.write valveFile (Text.Utf8.encode "<?php\nnamespace Acme\\Sub;\nclass Valve \x7b \x7d\n".toList)

/-- One class is loaded in both directories, and another one beside it. -/
private def valveActions : List Action :=
  [.ask (.within 0 "Acme\\Sub\\Valve"), .ask (.within 1 "\\Acme\\Sub\\Valve"), .ask (.anywhere "Acme\\Gear")]

private def valveLibrary : ClassLibrary := ((start valveRoots valveDisk).run valveActions).library

/-- The class that was loaded twice is gone from both directories, the other one is kept. -/
theorem purgeFile_exact_valve :
    let after := (valveLibrary.purgeFile (.ofPath valveFile)).2
    (∀ directory ∈ valveRoots, directory.classes = []) ∧
    valveLibrary.loadedFrom (.ofPath valveFile) = ["Acme\\Sub\\Valve", "Acme\\Sub\\Valve"] ∧
    (valveLibrary.purgeFile (.ofPath valveFile)).1 = true ∧
    after.keptAt? (0, "Acme\\Sub\\Valve") = none ∧ after.keptAt? (1, "Acme\\Sub\\Valve") = none ∧
    (after.keptAt? (0, "Acme\\Gear")).map (·.identity) = some 2 ∧
    after.purgeFile (.ofPath valveFile) = (false, after) := by
  intro after
  let elsewhere (cls : LoadedClass) : Bool := decide (cls.declaration.uri ≠ .ofPath valveFile)
  have fresh : ∀ directory ∈ valveRoots, directory.classes = [] := by decide +kernel
  obtain ⟨loaded, first, second, third⟩ :
      valveLibrary.loadedFrom (.ofPath valveFile) = ["Acme\\Sub\\Valve", "Acme\\Sub\\Valve"] ∧
      (valveLibrary.keptAt? (0, "Acme\\Sub\\Valve")).filter elsewhere = none ∧
      (valveLibrary.keptAt? (1, "Acme\\Sub\\Valve")).filter elsewhere = none ∧
      ((valveLibrary.keptAt? (0, "Acme\\Gear")).filter elsewhere).map (·.identity) = some 2 := by
    decide +kernel
  obtain ⟨told, -, -, kept, -, -, again⟩ := purgeFile_exact fresh valveDisk valveActions (.ofPath valveFile)
  rw [← valveLibrary] at told kept again
  refine ⟨fresh, loaded, told.mpr (by simp [loaded]), (kept _).trans first, (kept _).trans second, ?_, again⟩
  exact (congrArg _ (kept _)).trans third

end ClassLibrary

end FusionAtlas
