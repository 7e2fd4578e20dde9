import FusionAtlas.Proofs.ClassLookup

/-!
Sessions with a class library: lookups in the whole library or in one of its directories, purges of
both kinds, and changes of the disk, in any order. A class once answered is the answer until its file
is purged; the first answer behind that is a new class, read from the disk as it is then. Main
statement: `ClassLibrary.lookup_identity`.
-/

set_option autoImplicit false
set_option relaxedAutoImplicit false

namespace FusionAtlas

namespace ClassLibrary

/-- Who is asked for a class: the library, or the directory with a number. -/
inductive Query where
  | anywhere (fqcn : String)
  | within (number : Nat) (fqcn : String)

/-- Where the answer to a query is kept: the number of a directory and a name without leading
backslashes. -/
abbrev Place := Nat × String

/-- The class kept at a place. -/
def keptAt? (library : ClassLibrary) (place : Place) : Option LoadedClass :=
  library.directories[place.1]?.bind fun directory => directory.loaded? place.2

/-- The class that the file of a place declares on the disk. -/
def readAt? (library : ClassLibrary) (disk : Disk) (place : Place) : Option ClassDeclaration :=
  library.directories[place.1]?.bind fun directory => (directory.read disk place.2).toOption

namespace Query

/-- No directory may own the name. -/
def place? (library : ClassLibrary) : Query → Option Place
  | anywhere fqcn => (library.owner? fqcn).map fun owner => (owner.1, ClassDirectory.keyOf fqcn)
  | within number fqcn => some (number, ClassDirectory.keyOf fqcn)

/-- The answer, and the library behind the lookup. -/
def ask (library : ClassLibrary) (disk : Disk) : Query → Option LoadedClass × ClassLibrary
  | anywhere fqcn => library.lookup disk fqcn
  | within number fqcn =>
    ((library.lookupIn disk number fqcn).1.toOption, (library.lookupIn disk number fqcn).2)

end Query

/-- What is done in a session. -/
inductive Action where
  | ask (query : Query)
  | purge (uri : FileUri)
  | purgeIn (number : Nat) (uri : FileUri)
  | change (disk : Disk)

/-- The action forgets the classes of a file in the directory with the number. -/
def Action.Purges (number : Nat) (uri : FileUri) : Action → Prop
  | .purge other => other = uri
  | .purgeIn n other => n = number ∧ other = uri
  | _ => False

/-- A library, and the disk as it is at the moment. -/
structure Session where
  library : ClassLibrary
  disk : Disk

namespace Session

/-- Nothing is loaded yet. -/
def start (directories : List ClassDirectory) (disk : Disk) : Session := ⟨.make directories, disk⟩

/-- The class that a query finds in the session. -/
def answer? (session : Session) (query : Query) : Option LoadedClass :=
  (query.ask session.library session.disk).1

/-- The session behind an action. -/
def perform (session : Session) : Action → Session
  | .ask query => { session with library := (query.ask session.library session.disk).2 }
  | .purge uri => { session with library := session.library.purge uri }
  | .purgeIn number uri => { session with library := session.library.purgeIn number uri }
  | .change disk => { session with disk := disk }

/-- The session behind actions, one after the other. -/
def run (session : Session) (actions : List Action) : Session := actions.foldl perform session

/-- All answers of a run, each with its query. -/
def answers (session : Session) : List Action → List (Query × LoadedClass)
  | [] => []
  | .ask query :: more =>
    (session.answer? query).toList.map (query, ·) ++ (session.perform (.ask query)).answers more
  | action :: more => (session.perform action).answers more

@[simp] theorem run_nil (session : Session) : session.run [] = session := rfl

@[simp] theorem run_cons (session : Session) (action : Action) (more : List Action) :
    session.run (action :: more) = (session.perform action).run more := rfl

@[simp] theorem run_append (session : Session) (front behind : List Action) :
    session.run (front ++ behind) = (session.run front).run behind :=
  List.foldl_append

end Session

section Lookup

variable {library : ClassLibrary} {disk : Disk} {place other : Place} {query : Query}

theorem Query.keyOf_place (placed : query.place? library = some place) :
    ClassDirectory.keyOf place.2 = place.2 := by
  cases query with
  | within number fqcn =>
    obtain rfl := Option.some.inj placed
    exact ClassDirectory.keyOf_keyOf fqcn
  | anywhere fqcn =>
    obtain ⟨owner, -, rfl⟩ := Option.map_eq_some_iff.mp placed
    exact ClassDirectory.keyOf_keyOf fqcn

/-- Names that differ in leading backslashes only have the same place. -/
theorem Query.place?_congr (library : ClassLibrary) {a b : String}
    (same : ClassDirectory.keyOf a = ClassDirectory.keyOf b) :
    (anywhere a).place? library = (anywhere b).place? library ∧
      ∀ number, (within number a).place? library = (within number b).place? library := by
  refine ⟨?_, fun number => ?_⟩
  · simp only [place?, library.owner?_congr same, same]
  · simp only [place?, same]

/-- A query is answered in the directory of its place, by the name of its place. -/
theorem Query.ask_eq (disk : Disk) (placed : query.place? library = some place) :
    query.ask library disk = (within place.1 place.2).ask library disk := by
  have within_eq (number : Nat) (fqcn : String) : (within number fqcn).ask library disk =
      (within number (ClassDirectory.keyOf fqcn)).ask library disk := by
    have key := ClassDirectory.keyOf_keyOf fqcn
    simp only [ask, lookupIn]
    cases library.directories[number]? with
    | none => rfl
    | some directory =>
      simp only [ClassDirectory.lookup, directory.loaded?_congr key, directory.read_congr disk key,
        key]
  cases query with
  | within number fqcn =>
    obtain rfl := Option.some.inj placed
    exact within_eq number fqcn
  | anywhere fqcn =>
    obtain ⟨⟨n, directory⟩, owner, rfl⟩ := Option.map_eq_some_iff.mp placed
    rw [← within_eq]
    simp only [ask, lookup, owner]
    split <;> next same => rw [same]; rfl

theorem Query.ask_of_no_place (disk : Disk) (nowhere : query.place? library = none) :
    query.ask library disk = (none, library) := by
  cases query with
  | within number fqcn => cases nowhere
  | anywhere fqcn =>
    have owner := Option.map_eq_none_iff.mp nowhere
    simp only [ask, lookup, owner]

/-- What a query does: it answers with what is kept at its place; else it keeps there, under the next
number, what the file declares; else it does nothing. -/
theorem Query.ask_cases (disk : Disk) (placed : query.place? library = some place) :
    (∃ found, library.keptAt? place = some found ∧
      query.ask library disk =
        (some found,
          { library with nextIdentity := max library.nextIdentity (found.identity + 1) })) ∨
    (library.keptAt? place = none ∧ library.readAt? disk place = none ∧
      query.ask library disk = (none, library)) ∨
    ∃ directory declared,
      let found : LoadedClass := ⟨library.nextIdentity, declared⟩
      library.directories[place.1]? = some directory ∧ directory.loaded? place.2 = none ∧
      directory.read disk place.2 = .ok declared ∧
      query.ask library disk =
        (some found,
          { directories := library.directories.set place.1 (directory.keep place.2 found)
            nextIdentity := max library.nextIdentity (library.nextIdentity + 1) }) := by
  obtain ⟨number, key⟩ := place
  rw [query.ask_eq disk placed]
  simp only [ask, lookupIn, keptAt?, readAt?]
  cases numbered : library.directories[number]? with
  | none => exact Or.inr (Or.inl ⟨rfl, rfl, rfl⟩)
  | some directory =>
    simp only [Option.bind_some]
    cases loaded : directory.loaded? key with
    | some found =>
      refine Or.inl ⟨found, rfl, ?_⟩
      have kept : library.directories.set number directory = library.directories := by
        obtain ⟨bound, rfl⟩ := List.getElem?_eq_some_iff.mp numbered
        exact List.set_getElem_self bound
      simp only [directory.lookup_of_loaded _ loaded, kept, Except.toOption]
    | none =>
      cases content : directory.read disk key with
      | error miss =>
        refine Or.inr (Or.inl ⟨rfl, rfl, ?_⟩)
        simp [directory.lookup_of_not_loaded _ loaded, content, Except.map, Except.toOption]
      | ok declared =>
        refine Or.inr (Or.inr ⟨directory, declared, rfl, loaded, content, ?_⟩)
        simp [directory.lookup_of_not_loaded _ loaded, content, Except.map, Except.toOption]

/-- The answer to a query: what is kept at its place, else a new class, read from the disk. -/
theorem Query.fst_ask (disk : Disk) (placed : query.place? library = some place) :
    (query.ask library disk).1 = (library.keptAt? place).or
      ((library.readAt? disk place).map (LoadedClass.mk library.nextIdentity)) := by
  rcases query.ask_cases disk placed with
    ⟨found, kept, result⟩ | ⟨kept, content, result⟩ | ⟨directory, declared, numbered, fresh, content, result⟩
  · simp [result, kept]
  · simp [result, kept, content]
  · simp [result, keptAt?, readAt?, numbered, fresh, content, Except.toOption]

/-- Behind a query its answer is kept at its place, and all else is kept as before. -/
theorem keptAt?_ask (disk : Disk) (placed : query.place? library = some place)
    (key : ClassDirectory.keyOf other.2 = other.2) :
    (query.ask library disk).2.keptAt? other =
      if other = place then (query.ask library disk).1 else library.keptAt? other := by
  rcases query.ask_cases disk placed with
    ⟨found, kept, result⟩ | ⟨kept, -, result⟩ | ⟨directory, declared, numbered, fresh, -, result⟩
  · rw [result]
    split
    · rename_i same
      exact same ▸ kept
    · rfl
  · rw [result]
    split
    · rename_i same
      exact same ▸ kept
    · rfl
  · have bound := (List.getElem?_eq_some_iff.mp numbered).1
    rw [result]
    simp only [keptAt?]
    by_cases here : other.1 = place.1
    · rw [here, List.getElem?_set_self bound, numbered, Option.bind_some, Option.bind_some,
        ClassDirectory.loaded?_keep fresh, key, query.keyOf_place placed]
      simp only [Prod.ext_iff, here, true_and]
    · have apart : other ≠ place := fun same => here (congrArg Prod.fst same)
      rw [List.getElem?_set_ne (Ne.symm here), if_neg apart]

theorem sameRoots_ask (query : Query) (library : ClassLibrary) (disk : Disk) :
    SameRoots library (query.ask library disk).2 := by
  cases placed : query.place? library with
  | none => rw [query.ask_of_no_place disk placed]; rfl
  | some place =>
    rcases query.ask_cases disk placed with
      ⟨found, -, result⟩ | ⟨-, -, result⟩ | ⟨directory, declared, numbered, -, -, result⟩
    · rw [result]
      rfl
    · rw [result]
      rfl
    · rw [result]
      exact sameRoots_set _ numbered (directory.cleared_keep place.2 _)

/-- The answer to a query has a number below the next one. -/
theorem identity_lt_of_ask (disk : Disk) {found : LoadedClass}
    (answered : (query.ask library disk).1 = some found) :
    found.identity < (query.ask library disk).2.nextIdentity := by
  cases placed : query.place? library with
  | none =>
    rw [query.ask_of_no_place disk placed] at answered
    cases answered
  | some place =>
    rcases query.ask_cases disk placed with
      ⟨found', -, result⟩ | ⟨-, -, result⟩ | ⟨directory, declared, -, -, -, result⟩
    · rw [result] at answered ⊢
      obtain rfl := Option.some.inj answered
      exact Nat.lt_of_lt_of_le (Nat.lt_succ_self _) (Nat.le_max_right _ _)
    · rw [result] at answered
      cases answered
    · rw [result] at answered ⊢
      obtain rfl := Option.some.inj answered
      exact Nat.lt_of_lt_of_le (Nat.lt_succ_self _) (Nat.le_max_right _ _)

theorem nextIdentity_le_ask (query : Query) (library : ClassLibrary) (disk : Disk) :
    library.nextIdentity ≤ (query.ask library disk).2.nextIdentity := by
  cases placed : query.place? library with
  | none => rw [query.ask_of_no_place disk placed]
  | some place =>
    rcases query.ask_cases disk placed with
      ⟨found, -, result⟩ | ⟨-, -, result⟩ | ⟨directory, declared, -, -, -, result⟩
    · rw [result]
      exact Nat.le_max_left _ _
    · rw [result]
    · rw [result]
      exact Nat.le_max_left _ _

/-- Which place a query has does not depend on what is loaded. -/
theorem Query.place?_of_sameRoots {a b : ClassLibrary} (same : SameRoots a b) (query : Query) :
    query.place? a = query.place? b := by
  cases query with
  | within number fqcn => rfl
  | anywhere fqcn =>
    rcases owner?_of_sameRoots same fqcn with ⟨ha, hb⟩ | ⟨n, da, db, ha, hb, -⟩ <;>
      simp only [place?, ha, hb, Option.map_none, Option.map_some]

end Lookup

section Purge

variable {library : ClassLibrary} {number : Nat} {uri : FileUri} {directory : ClassDirectory}

/-- A directory behind a purge of the whole library. -/
theorem getElem?_purge (library : ClassLibrary) (uri : FileUri) (n : Nat) :
    (library.purge uri).directories[n]? = library.directories[n]?.map (·.purge uri) :=
  List.getElem?_map

/-- A directory behind a purge of one of them. -/
theorem getElem?_purgeIn (library : ClassLibrary) (number : Nat) (uri : FileUri) (n : Nat) :
    (library.purgeIn number uri).directories[n]? =
      if number = n then library.directories[n]?.map (·.purge uri) else library.directories[n]? := by
  rw [purgeIn, List.getElem?_modify]
  split <;> simp

theorem sameRoots_purgeIn (library : ClassLibrary) (number : Nat) (uri : FileUri) :
    SameRoots library (library.purgeIn number uri) := by
  refine List.ext_getElem? fun n => ?_
  rw [List.getElem?_map, List.getElem?_map, getElem?_purgeIn]
  split
  · rw [Option.map_map]
    rfl
  · rfl

end Purge

/-- Every class that is kept is good for its directory and the name it is kept by. -/
def AllKept (good : ClassDirectory → String → LoadedClass → Prop) (library : ClassLibrary) : Prop :=
  ∀ (n : Nat) (directory : ClassDirectory), library.directories[n]? = some directory →
    ∀ entry ∈ directory.classes, good directory entry.1 entry.2

/-- Every class comes from the file that its name stands for in its directory. -/
def Placed (library : ClassLibrary) : Prop :=
  ∀ (n : Nat) (directory : ClassDirectory), library.directories[n]? = some directory →
    ∀ entry ∈ directory.classes, ∃ candidate, directory.candidate entry.1 = .ok candidate ∧
      entry.2.declaration.uri = .ofPath candidate.path

/-- The file that the name of a place stands for. -/
def uriAt? (library : ClassLibrary) (place : Place) : Option FileUri :=
  library.directories[place.1]?.bind fun directory =>
    (directory.candidate place.2).toOption.map fun candidate => .ofPath candidate.path

theorem uriAt?_of_sameRoots {a b : ClassLibrary} (same : SameRoots a b) (place : Place) :
    a.uriAt? place = b.uriAt? place := by
  have at_place := congrArg (·[place.1]?) same
  simp only [List.getElem?_map] at at_place
  have cleared (library : ClassLibrary) : library.uriAt? place =
      (library.directories[place.1]?.map ClassDirectory.cleared).bind fun directory =>
        (directory.candidate place.2).toOption.map fun candidate => .ofPath candidate.path := by
    rw [Option.bind_map]
    rfl
  rw [cleared, cleared, at_place]

namespace Placed

variable {library : ClassLibrary} {place : Place} {found : LoadedClass}

theorem uriAt? (placed : Placed library) (key : ClassDirectory.keyOf place.2 = place.2)
    (kept : library.keptAt? place = some found) :
    library.uriAt? place = some found.declaration.uri := by
  obtain ⟨directory, numbered, loaded⟩ := Option.bind_eq_some_iff.mp kept
  obtain ⟨entry, search, rfl⟩ := Option.map_eq_some_iff.mp loaded
  obtain ⟨candidate, spelled, uri⟩ :=
    placed _ directory numbered entry (List.mem_of_find?_eq_some search)
  have name : entry.1 = place.2 := by simpa [key] using List.find?_some search
  rw [name] at spelled
  rw [ClassLibrary.uriAt?, numbered, Option.bind_some, spelled, uri]
  rfl

/-- Nothing is kept at a place behind a purge of its file. -/
theorem keptAt?_purge {uri : FileUri} {after : ClassLibrary} (placed : Placed library)
    (key : ClassDirectory.keyOf place.2 = place.2) (file : library.uriAt? place = some uri)
    (purged : after.directories[place.1]? = library.directories[place.1]?.map (·.purge uri)) :
    after.keptAt? place = none := by
  rw [Option.eq_none_iff_forall_not_mem]
  intro found kept
  obtain ⟨directory, numbered, loaded⟩ := Option.bind_eq_some_iff.mp kept
  obtain ⟨entry, search, rfl⟩ := Option.map_eq_some_iff.mp loaded
  rw [purged] at numbered
  obtain ⟨old, before, rfl⟩ := Option.map_eq_some_iff.mp numbered
  obtain ⟨listed, other⟩ := List.mem_filter.mp (List.mem_of_find?_eq_some search)
  obtain ⟨candidate, spelled, from'⟩ := placed _ old before entry listed
  have name : entry.1 = place.2 := by simpa [key] using List.find?_some search
  rw [name] at spelled
  rw [ClassLibrary.uriAt?, before, Option.bind_some, spelled] at file
  have same : entry.2.declaration.uri = uri := from'.trans (Option.some.inj file)
  exact absurd same (of_decide_eq_true other)

end Placed

namespace Session

variable {session : Session} {action : Action} {place : Place} {found : LoadedClass}

theorem sameRoots_perform (session : Session) (action : Action) :
    SameRoots session.library (session.perform action).library := by
  cases action with
  | ask query => exact sameRoots_ask query session.library session.disk
  | purge uri => exact session.library.sameRoots_purge uri
  | purgeIn number uri => exact session.library.sameRoots_purgeIn number uri
  | change disk => exact .refl _

theorem sameRoots_run (session : Session) (actions : List Action) :
    SameRoots session.library (session.run actions).library := by
  induction actions generalizing session with
  | nil => exact .refl _
  | cons action more ih => exact (session.sameRoots_perform action).trans (ih _)

/-- What holds of each class when it is read holds of all classes that are kept behind an action. -/
theorem allKept_perform {good : ClassDirectory → String → LoadedClass → Prop}
    (free : ∀ a b name cls, ClassDirectory.cleared a = b.cleared → good a name cls → good b name cls)
    (read : ∀ directory disk name declared identity, ClassDirectory.keyOf name = name →
      directory.read disk name = .ok declared → good directory name ⟨identity, declared⟩)
    (kept : AllKept good session.library) (action : Action) :
    AllKept good (session.perform action).library := by
  cases action with
  | change disk => exact kept
  | purge uri =>
    intro n directory numbered entry listed
    rw [perform, getElem?_purge] at numbered
    obtain ⟨old, before, rfl⟩ := Option.map_eq_some_iff.mp numbered
    exact free old _ _ _ rfl (kept n old before entry (List.mem_of_mem_filter listed))
  | purgeIn number uri =>
    intro n directory numbered entry listed
    rw [perform, getElem?_purgeIn] at numbered
    split at numbered
    · obtain ⟨old, before, rfl⟩ := Option.map_eq_some_iff.mp numbered
      exact free old _ _ _ rfl (kept n old before entry (List.mem_of_mem_filter listed))
    · exact kept n directory numbered entry listed
  | ask query =>
    rw [perform]
    cases stands : query.place? session.library with
    | none => rwa [query.ask_of_no_place session.disk stands]
    | some place =>
      have key := query.keyOf_place stands
      rcases query.ask_cases session.disk stands with
        ⟨found, -, result⟩ | ⟨-, -, result⟩ | ⟨directory, declared, numbered, -, content, result⟩
      · rwa [result]
      · rwa [result]
      · rw [result]
        intro n other behind entry listed
        rw [List.getElem?_set] at behind
        split at behind
        · split at behind
          · obtain rfl := Option.some.inj behind
            refine free directory _ _ _ rfl ?_
            rcases List.mem_append.mp listed with old | new
            · exact kept _ directory numbered entry old
            · rw [List.mem_singleton.mp new, key]
              exact read directory session.disk place.2 declared _ key content
          · cases behind
        · exact kept n other behind entry listed

theorem allKept_run {good : ClassDirectory → String → LoadedClass → Prop}
    (free : ∀ a b name cls, ClassDirectory.cleared a = b.cleared → good a name cls → good b name cls)
    (read : ∀ directory disk name declared identity, ClassDirectory.keyOf name = name →
      directory.read disk name = .ok declared → good directory name ⟨identity, declared⟩)
    (kept : AllKept good session.library) (actions : List Action) :
    AllKept good (session.run actions).library := by
  induction actions generalizing session with
  | nil => exact kept
  | cons action more ih => exact ih (allKept_perform free read kept action)

theorem placed_run (placed : Placed session.library) (actions : List Action) :
    Placed (session.run actions).library := by
  have kept : AllKept (fun directory name cls => ∃ candidate, directory.candidate name = .ok candidate ∧
      cls.declaration.uri = .ofPath candidate.path) session.library := placed
  refine allKept_run ?_ ?_ kept actions
  · rintro a b name cls same ⟨candidate, spelled, uri⟩
    have alike : a.candidate name = b.candidate name := congrArg (·.candidate name) same
    exact ⟨candidate, alike.symm.trans spelled, uri⟩
  · intro directory disk name declared identity _ content
    obtain ⟨candidate, _, spelled, -, -, -, uri⟩ := ClassDirectory.read_eq_ok content
    exact ⟨candidate, spelled, uri⟩

/-- Every class is loaded under its own name, whatever is done from a start with nothing loaded. -/
theorem wellKeyed_run {directories : List ClassDirectory}
    (fresh : ∀ directory ∈ directories, directory.classes = []) (disk : Disk) (actions : List Action) :
    WellKeyed ((start directories disk).run actions).library := by
  have nothing : AllKept (fun _ name cls => cls.declaration.fqcn = name)
      (start directories disk).library := by
    intro n directory numbered entry listed
    rw [fresh directory (List.mem_of_getElem? numbered)] at listed
    cases listed
  have kept := allKept_run (fun _ _ _ _ _ named => named) ?_ nothing actions
  · intro directory member entry listed
    obtain ⟨n, numbered⟩ := List.getElem?_of_mem member
    exact kept n directory numbered entry listed
  · intro directory disk name declared identity key content
    obtain ⟨_, _, -, -, -, named, -⟩ := ClassDirectory.read_eq_ok content
    exact named.trans key

theorem missing_purge {library after : ClassLibrary} {uri : FileUri}
    (purged : after.directories[place.1]? = library.directories[place.1]?.map (·.purge uri))
    (missing : library.keptAt? place = none) : after.keptAt? place = none := by
  rw [keptAt?, Option.bind_eq_none_iff] at missing ⊢
  intro directory numbered
  rw [purged] at numbered
  obtain ⟨old, before, rfl⟩ := Option.map_eq_some_iff.mp numbered
  have none' := missing old before
  rw [ClassDirectory.loaded?, Option.map_eq_none_iff, List.find?_eq_none] at none' ⊢
  exact fun entry listed => none' entry (List.mem_of_mem_filter listed)

/-- A class stays kept under any action that does not purge its file where it is kept. -/
theorem keptAt?_perform (key : ClassDirectory.keyOf place.2 = place.2)
    (kept : session.library.keptAt? place = some found)
    (spared : ¬action.Purges place.1 found.declaration.uri) :
    (session.perform action).library.keptAt? place = some found := by
  cases action with
  | change disk => exact kept
  | ask query =>
    rw [perform]
    cases stands : query.place? session.library with
    | none => rwa [query.ask_of_no_place session.disk stands]
    | some asked =>
      rw [keptAt?_ask session.disk stands key]
      split
      · rename_i same
        rw [query.fst_ask session.disk stands, ← same, kept, Option.some_or]
      · exact kept
  | purge uri =>
    obtain ⟨directory, numbered, loaded⟩ := Option.bind_eq_some_iff.mp kept
    rw [perform, keptAt?, getElem?_purge, numbered, Option.map_some, Option.bind_some]
    exact ClassDirectory.loaded?_purge_of_ne loaded (Ne.symm spared)
  | purgeIn number uri =>
    obtain ⟨directory, numbered, loaded⟩ := Option.bind_eq_some_iff.mp kept
    rw [perform, keptAt?, getElem?_purgeIn]
    split
    · rename_i here
      rw [numbered, Option.map_some, Option.bind_some]
      exact ClassDirectory.loaded?_purge_of_ne loaded fun same => spared ⟨here, same.symm⟩
    · exact kept

theorem keptAt?_run {actions : List Action} (key : ClassDirectory.keyOf place.2 = place.2)
    (kept : session.library.keptAt? place = some found)
    (spared : ∀ action ∈ actions, ¬action.Purges place.1 found.declaration.uri) :
    (session.run actions).library.keptAt? place = some found := by
  induction actions generalizing session with
  | nil => exact kept
  | cons action more ih =>
    obtain ⟨first, others⟩ := List.forall_mem_cons.mp spared
    exact ih (keptAt?_perform key kept first) others

/-- Nothing comes to be kept at a place unless a query of the place is answered. -/
theorem keptAt?_of_unanswered {actions : List Action} (key : ClassDirectory.keyOf place.2 = place.2)
    (missing : session.library.keptAt? place = none)
    (unanswered : ∀ entry ∈ session.answers actions, entry.1.place? session.library ≠ some place) :
    (session.run actions).library.keptAt? place = none := by
  induction actions generalizing session with
  | nil => exact missing
  | cons action more ih =>
    have roots := session.sameRoots_perform action
    refine ih ?_ ?_
    · cases action with
      | change disk => exact missing
      | purge uri => exact missing_purge (getElem?_purge session.library uri place.1) missing
      | purgeIn number uri =>
        by_cases here : number = place.1
        · exact missing_purge ((getElem?_purgeIn _ _ uri _).trans (if_pos here)) missing
        · rwa [perform, keptAt?, getElem?_purgeIn, if_neg here]
      | ask query =>
        rw [perform]
        cases stands : query.place? session.library with
        | none => rwa [query.ask_of_no_place session.disk stands]
        | some asked =>
          rw [keptAt?_ask session.disk stands key]
          split
          · rename_i same
            rw [Option.eq_none_iff_forall_ne_some]
            intro found answer
            refine unanswered (query, found) ?_ (stands.trans (congrArg some same.symm))
            have answered : session.answer? query = some found := answer
            simp [answers, answered]
          · exact missing
    · intro entry member
      rw [← entry.1.place?_of_sameRoots roots]
      refine unanswered entry ?_
      cases action with
      | ask query => exact List.mem_append_right _ member
      | purge uri => exact member
      | purgeIn number uri => exact member
      | change disk => exact member

theorem nextIdentity_le_perform (session : Session) (action : Action) :
    session.library.nextIdentity ≤ (session.perform action).library.nextIdentity := by
  cases action with
  | ask query => exact nextIdentity_le_ask query session.library session.disk
  | purge uri => exact Nat.le_refl _
  | purgeIn number uri => exact Nat.le_refl _
  | change disk => exact Nat.le_refl _

theorem nextIdentity_le_run (session : Session) (actions : List Action) :
    session.library.nextIdentity ≤ (session.run actions).library.nextIdentity := by
  induction actions generalizing session with
  | nil => exact Nat.le_refl _
  | cons action more ih => exact Nat.le_trans (session.nextIdentity_le_perform action) (ih _)

/-- The numbers of all classes answered so far are used up. -/
theorem identity_lt_of_mem_answers {actions : List Action} {entry : Query × LoadedClass}
    (member : entry ∈ session.answers actions) :
    entry.2.identity < (session.run actions).library.nextIdentity := by
  induction actions generalizing session with
  | nil => cases member
  | cons action more ih =>
    cases action with
    | ask query =>
      rcases List.mem_append.mp member with first | later
      · obtain ⟨found, answered, rfl⟩ := List.mem_map.mp first
        have below := identity_lt_of_ask session.disk (Option.mem_toList.mp answered)
        exact Nat.lt_of_lt_of_le below (nextIdentity_le_run (session.perform (.ask query)) more)
      · exact ih later
    | purge uri => exact ih member
    | purgeIn number uri => exact ih member
    | change disk => exact ih member

end Session

open Session (start)

/-- Take a session that starts with nothing loaded, in which a query is answered with a class, and a
query of the same place. As long as the file of the class is not purged there, the second query is
answered with the very same class, whatever else is done, on whatever disk. Behind a purge of that file,
and before any query of the place is answered, it is answered with what the disk holds at the moment, as
a class that was never answered before. -/
theorem lookup_identity {directories : List ClassDirectory} {disk : Disk} {before : List Action}
    {query again : Query} {place : Place} {found : LoadedClass}
    (fresh : ∀ directory ∈ directories, directory.classes = [])
    (answered : ((start directories disk).run before).answer? query = some found)
    (placed : query.place? (.make directories) = some place)
    (same : again.place? (.make directories) = some place) :
    (∀ between, (∀ action ∈ between, ¬action.Purges place.1 found.declaration.uri) →
      ((start directories disk).run (before ++ .ask query :: between)).answer? again = some found) ∧
    ∀ between purge behind, purge.Purges place.1 found.declaration.uri →
      let purged := before ++ .ask query :: between ++ [purge]
      (∀ entry ∈ ((start directories disk).run purged).answers behind,
        entry.1.place? (.make directories) ≠ some place) →
      let now := (start directories disk).run (purged ++ behind)
      now.answer? again =
          (now.library.readAt? now.disk place).map (LoadedClass.mk now.library.nextIdentity) ∧
        ∀ entry ∈ (start directories disk).answers (purged ++ behind),
          entry.2.identity ≠ now.library.nextIdentity := by
  have roots (actions : List Action) := (start directories disk).sameRoots_run actions
  have place_eq (query : Query) (actions : List Action) :
      query.place? ((start directories disk).run actions).library = query.place? (.make directories) :=
    (query.place?_of_sameRoots (roots actions)).symm
  have key := query.keyOf_place placed
  have nothing : Placed (start directories disk).library := by
    intro n directory numbered entry listed
    rw [fresh directory (List.mem_of_getElem? numbered)] at listed
    cases listed
  have sourced (actions : List Action) := Session.placed_run nothing actions
  -- Behind the first query its answer is kept at the place.
  have kept : ((start directories disk).run (before ++ [.ask query])).library.keptAt? place =
      some found := by
    rw [Session.run_append, Session.run_cons, Session.run_nil, Session.perform,
      keptAt?_ask _ ((place_eq query before).trans placed) key, if_pos rfl]
    exact answered
  constructor
  · intro between spared
    have still := Session.keptAt?_run key kept spared
    rw [← Session.run_append, List.append_assoc, List.singleton_append] at still
    rw [Session.answer?, again.fst_ask _ ((place_eq again _).trans same), still, Option.some_or]
  · intro between purge behind purges purged unanswered now
    have file : ((start directories disk).run
        (before ++ .ask query :: between)).library.uriAt? place = some found.declaration.uri := by
      rw [← uriAt?_of_sameRoots (roots _), uriAt?_of_sameRoots (roots (before ++ [.ask query]))]
      exact (sourced _).uriAt? key kept
    have gone : ((start directories disk).run purged).library.keptAt? place = none := by
      rw [Session.run_append]
      refine (sourced (before ++ .ask query :: between)).keptAt?_purge key file ?_
      cases purge with
      | purge uri =>
        obtain rfl : uri = _ := purges
        exact getElem?_purge _ _ _
      | purgeIn number uri =>
        obtain ⟨rfl, rfl⟩ := purges
        exact (getElem?_purgeIn _ _ _ _).trans (if_pos rfl)
      | ask query => exact purges.elim
      | change disk => exact purges.elim
    have missing : now.library.keptAt? place = none := by
      change ((start directories disk).run (purged ++ behind)).library.keptAt? place = none
      rw [Session.run_append]
      refine Session.keptAt?_of_unanswered key gone fun entry member => ?_
      rw [place_eq]
      exact unanswered entry member
    refine ⟨?_, fun entry member => Nat.ne_of_lt (Session.identity_lt_of_mem_answers member)⟩
    rw [Session.answer?, again.fst_ask _ ((place_eq again _).trans same), missing, Option.none_or]

private def pumpFile : FilePath := .ofString "/src/Pump.php"

private def pumpRoots : List ClassDirectory := [.make "Acme" (.ofString "/src")]

private def pumpDisk (body : String) : Disk :=
  Disk.write .empty pumpFile
    (Text.Utf8.encode ("<?php\nnamespace Acme;\nclass Pump \x7b " ++ body ++ " \x7d\n").toList)

private def pumpQuery : Query := .anywhere "Acme\\Pump"

private def pumpAgain : Query := .within 0 "\\Acme\\Pump"

/-- The file of the class gets a method, and other files are asked for and purged. -/
private def pumpChanged : List Action :=
  [.change (pumpDisk "public function stop() {}"), .ask (.anywhere "Acme\\Valve"),
    .purge (.ofPath (.ofString "/src/Valve.php"))]

private def pumpRun (actions : List Action) : Session := (start pumpRoots (pumpDisk "")).run actions

/-- A class whose file was changed is answered as it was read at first, and behind a purge as another
class, which has the new method. -/
theorem lookup_identity_pump :
    ∃ found,
      (∀ directory ∈ pumpRoots, directory.classes = []) ∧
      (pumpRun []).answer? pumpQuery = some found ∧
      pumpQuery.place? (.make pumpRoots) = some (0, "Acme\\Pump") ∧
      pumpAgain.place? (.make pumpRoots) = some (0, "Acme\\Pump") ∧
      (∀ action ∈ pumpChanged, ¬action.Purges 0 found.declaration.uri) ∧
      (pumpRun (.ask pumpQuery :: pumpChanged)).answer? pumpAgain = some found ∧
      (Action.purge (.ofPath pumpFile)).Purges 0 found.declaration.uri ∧
      ∃ other,
        (pumpRun (.ask pumpQuery :: pumpChanged ++ [.purge (.ofPath pumpFile)])).answer? pumpAgain =
          some other ∧
        other.identity ≠ found.identity ∧ found.declaration.methods.length = 0 ∧
        other.declaration.methods.length = 1 := by
  have read : ((pumpRun []).answer? pumpQuery).map (fun cls =>
      (cls.declaration.uri, cls.declaration.methods.length)) = some (.ofPath pumpFile, 0) := by
    decide +kernel
  obtain ⟨found, answered, values⟩ := Option.map_eq_some_iff.mp read
  obtain ⟨uri, methods⟩ := Prod.mk.inj values
  have fresh : ∀ directory ∈ pumpRoots, directory.classes = [] := by decide +kernel
  have place : pumpQuery.place? (.make pumpRoots) = some (0, "Acme\\Pump") := by decide +kernel
  have place' : pumpAgain.place? (.make pumpRoots) = some (0, "Acme\\Pump") := by decide +kernel
  have apart : (.ofPath (.ofString "/src/Valve.php") : FileUri) ≠ .ofPath pumpFile := by
    decide +kernel
  have spared : ∀ action ∈ pumpChanged, ¬action.Purges 0 found.declaration.uri := by
    rw [uri]
    simpa [pumpChanged, Action.Purges] using apart
  have purges : (Action.purge (.ofPath pumpFile)).Purges 0 found.declaration.uri := uri.symm
  have first : ((start pumpRoots (pumpDisk "")).run []).answer? pumpQuery = some found := answered
  obtain ⟨stays, renewed⟩ := lookup_identity fresh first place place'
  have still := stays pumpChanged spared
  rw [List.nil_append, ← pumpRun] at still
  obtain ⟨answer, new⟩ := renewed pumpChanged (.purge (.ofPath pumpFile)) [] purges
    fun entry member => nomatch (List.mem_nil_iff entry).mp member
  rw [List.append_nil, List.nil_append, ← pumpRun] at answer new
  have content :
      ((pumpRun (.ask pumpQuery :: pumpChanged ++ [.purge (.ofPath pumpFile)])).library.readAt?
        (pumpRun (.ask pumpQuery :: pumpChanged ++ [.purge (.ofPath pumpFile)])).disk
        (0, "Acme\\Pump")).map (·.methods.length) = some 1 := by decide +kernel
  obtain ⟨declared, onDisk, method⟩ := Option.map_eq_some_iff.mp content
  have older : (pumpQuery, found) ∈ (start pumpRoots (pumpDisk "")).answers
      (.ask pumpQuery :: pumpChanged ++ [.purge (.ofPath pumpFile)]) := by
    rw [List.cons_append, Session.answers]
    refine List.mem_append_left _ ?_
    rw [show (start pumpRoots (pumpDisk "")).answer? pumpQuery = some found from answered]
    exact List.mem_singleton_self _
  have other := (new (pumpQuery, found) older).symm
  generalize pumpRun (.ask pumpQuery :: pumpChanged ++ [.purge (.ofPath pumpFile)]) = now at *
  rw [onDisk] at answer
  exact ⟨found, fresh, answered, place, place', spared, still, purges, _, answer, other, methods,
    method⟩

end ClassLibrary

end FusionAtlas
