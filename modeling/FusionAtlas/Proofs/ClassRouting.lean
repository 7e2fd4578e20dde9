import FusionAtlas.Proofs.LookupSession
import FusionAtlas.Proofs.Text
import FusionAtlas.Proofs.TextCut
import Mathlib.Data.List.Nodup
import Mathlib.Data.List.Perm.Basic

/-!
Where classes are kept. A name is looked up in the directory with the longest namespace that owns it, and
kept only there, together with what its directory makes of the name: the file, and the namespace the file
has to declare. Directories of different namespaces may be registered in any order. Main statements:
`ClassLibrary.owner?_eq_some_iff`, `ClassLibrary.Routed.perform` for a single action, and
`ClassLibrary.routed_run`.
-/

set_option autoImplicit false
set_option relaxedAutoImplicit false

namespace FusionAtlas

namespace ClassDirectory

variable {directory : ClassDirectory} {candidate : Candidate} {fqcn : String}

private theorem intercalate_concat {mark : List Char} (first : List Char) (parts : List (List Char))
    (last : List Char) :
    mark.intercalate (first :: parts ++ [last]) = mark.intercalate (first :: parts) ++ mark ++ last := by
  induction parts generalizing first with
  | nil => simp
  | cons part parts ih =>
    have behind := ih part
    simp only [List.cons_append] at behind ⊢
    rw [List.intercalate_cons_cons, behind, List.intercalate_cons_cons]
    simp only [List.append_assoc]

/-- A name is the namespace that its file has to declare, and its last part behind that. -/
theorem keyOf_eq_of_candidate (found : directory.candidate fqcn = .ok candidate) :
    (keyOf fqcn).toList =
      candidate.namespaceName.toList ++ '\\' :: ClassName.shortName (keyOf fqcn).toList := by
  unfold ClassDirectory.candidate at found
  simp only at found
  split at found
  · cases found
  · rename_i rest inner
    obtain rfl := Except.ok.inj found
    obtain ⟨opens, -⟩ := Option.filter_eq_some_iff.mp inner
    have key := Text.afterOpening?_eq_some opens
    obtain ⟨front, last, parts⟩ : ∃ front last, rest.splitOn '\\' = front ++ [last] := by
      rcases List.eq_nil_or_concat' (rest.splitOn '\\') with none | found
      · exact absurd none (List.splitOn_ne_nil _ _)
      · exact found
    have single : '\\' ∉ last := by
      have listed : last ∈ rest.splitOnP (· == '\\') := by
        rw [← List.splitOn_eq_splitOnP, parts]
        simp
      intro member
      simpa using Text.not_of_mem_splitOnP listed _ member
    have whole : ['\\'].intercalate (front ++ [last]) = rest := parts ▸ List.intercalate_splitOn '\\'
    have joined : (keyOf fqcn).toList =
        ['\\'].intercalate (directory.name.toList :: front) ++ '\\' :: last := by
      have cut : ['\\'].intercalate (directory.name.toList :: front ++ [last]) =
          ['\\'].intercalate (directory.name.toList :: front) ++ ['\\'] ++ last :=
        intercalate_concat directory.name.toList front last
      rw [List.cons_append, List.intercalate_cons_of_ne_nil (by simp), whole] at cut
      rw [key, cut]
      simp
    have short : ClassName.shortName (keyOf fqcn).toList = last := by
      rw [joined, ClassName.shortName, Text.afterLast_append_cons _ single]
    rw [short, joined, parts]
    simp [String.toList_intercalate, Function.comp_def]

/-- The namespaces of two owners of a name are the same text if they have the same length. -/
theorem name_eq_of_owns {other : ClassDirectory} (owns : directory.owns fqcn = true)
    (also : other.owns fqcn = true)
    (length : ClassLibrary.nameLength directory = ClassLibrary.nameLength other) :
    directory.name = other.name := by
  have starts {directory : ClassDirectory} (owns : directory.owns fqcn = true) :
      directory.name.toList <+: (keyOf fqcn).toList := by
    obtain ⟨rest, inner⟩ := Option.isSome_iff_exists.mp owns
    have key := Text.afterOpening?_eq_some (Option.filter_eq_some_iff.mp inner).1
    exact ⟨'\\' :: rest, by simp [key]⟩
  -- Of two texts that start the same text, one starts the other, and nothing is left of it.
  have same {a b : String} (inside : a.toList <+: b.toList)
      (size : Text.byteSize a.toList = Text.byteSize b.toList) : a = b := by
    obtain ⟨rest, whole⟩ := inside
    cases rest with
    | nil => exact String.toList_inj.mp (by simpa using whole)
    | cons c rest =>
      have positive : 0 < Text.byteSize (c :: rest) := Text.byteSize_pos
      rw [← whole, Text.byteSize_append] at size
      omega
  rcases List.prefix_or_prefix_of_prefix (starts owns) (starts also) with inside | inside
  · exact same inside length
  · exact (same inside length.symm).symm

end ClassDirectory

namespace ClassLibrary

section Owner

variable {library : ClassLibrary} {fqcn : String} {n : Nat} {directory : ClassDirectory}

/-- The directory with the number owns the name, no owner of the name has a longer namespace, and none
with one as long was registered later. -/
structure IsOwner (library : ClassLibrary) (fqcn : String) (n : Nat) (directory : ClassDirectory) :
    Prop where
  listed : library.directories[n]? = some directory
  owns : directory.owns fqcn = true
  first : ∀ (m : Nat) (other : ClassDirectory), library.directories[m]? = some other →
    other.owns fqcn = true → nameLength other < nameLength directory ∨
      nameLength other = nameLength directory ∧ m ≤ n

/-- The best of some entries, of which those with greater numbers stand later. -/
private def IsBest (entries : List (Nat × ClassDirectory)) (best : Nat × ClassDirectory) : Prop :=
  best ∈ entries ∧ ∀ entry ∈ entries, nameLength entry.2 < nameLength best.2 ∨
    nameLength entry.2 = nameLength best.2 ∧ entry.1 ≤ best.1

/-- The better of the best of some entries and one that stands behind them is the best of them all. -/
private theorem IsBest.concat {entries : List (Nat × ClassDirectory)} {old next chosen : Nat × ClassDirectory}
    (best : IsBest entries old) (later : ∀ entry ∈ entries, entry.1 < next.1)
    (chose : better (some old) next = some chosen) : IsBest (entries ++ [next]) chosen := by
  obtain ⟨member, greatest⟩ := best
  rw [better] at chose
  split at chose
  · obtain rfl := Option.some.inj chose
    refine ⟨by simp, List.forall_mem_append.mpr ⟨fun entry listed => ?_, by simp⟩⟩
    have least := greatest entry listed
    have behind := later entry listed
    omega
  · obtain rfl := Option.some.inj chose
    refine ⟨List.mem_append_left _ member, List.forall_mem_append.mpr ⟨greatest, ?_⟩⟩
    rw [List.forall_mem_singleton]
    omega

private theorem isBest_foldl_better {entries : List (Nat × ClassDirectory)}
    (ordered : entries.Pairwise fun a b => a.1 < b.1) :
    (entries.foldl better none = none → entries = []) ∧
      ∀ best ∈ entries.foldl better none, IsBest entries best := by
  induction entries using List.reverseRecOn with
  | nil => simp
  | append_singleton entries next ih =>
    obtain ⟨before, -, later⟩ := List.pairwise_append.mp ordered
    obtain ⟨empty, best⟩ := ih before
    rw [List.foldl_append, List.foldl_cons, List.foldl_nil]
    cases found : entries.foldl better none with
    | none =>
      obtain rfl := empty found
      simp [better, IsBest]
    | some old =>
      have greatest := best old (by simp [found])
      refine ⟨fun none => ?_, fun chosen chose => ?_⟩
      · rw [better] at none
        split at none <;> cases none
      · exact greatest.concat (fun entry listed => later entry listed next (by simp)) chose

/-- The directories that own a name, with their numbers. -/
private def owners (library : ClassLibrary) (fqcn : String) : List (Nat × ClassDirectory) :=
  (library.directories.zipIdx.map fun entry => (entry.2, entry.1)).filter fun entry =>
    entry.2.owns fqcn

private theorem mem_owners : (n, directory) ∈ library.owners fqcn ↔
    library.directories[n]? = some directory ∧ directory.owns fqcn = true := by
  simp only [owners, List.mem_filter, List.mem_map, Prod.mk.injEq, Prod.exists,
    List.mem_zipIdx_iff_getElem?]
  constructor
  · rintro ⟨⟨other, m, listed, rfl, rfl⟩, owns⟩
    exact ⟨listed, owns⟩
  · rintro ⟨listed, owns⟩
    exact ⟨⟨directory, n, listed, rfl, rfl⟩, owns⟩

private theorem ordered_owners (library : ClassLibrary) (fqcn : String) :
    (library.owners fqcn).Pairwise fun a b => a.1 < b.1 := by
  refine List.Pairwise.filter _ (List.pairwise_map.mpr ?_)
  have numbers : (library.directories.zipIdx.map Prod.snd).Pairwise (· < ·) := by
    rw [List.zipIdx_map_snd]
    exact List.pairwise_lt_range'
  exact List.pairwise_map.mp numbers

theorem IsOwner.unique {m : Nat} {other : ClassDirectory} (owner : library.IsOwner fqcn n directory)
    (also : library.IsOwner fqcn m other) : n = m ∧ directory = other := by
  have below := owner.first m other also.listed also.owns
  have above := also.first n directory owner.listed owner.owns
  obtain rfl : n = m := by omega
  exact ⟨rfl, Option.some.inj (owner.listed.symm.trans also.listed)⟩

theorem owner?_eq_some_iff :
    library.owner? fqcn = some (n, directory) ↔ library.IsOwner fqcn n directory := by
  obtain ⟨empty, best⟩ := isBest_foldl_better (library.ordered_owners fqcn)
  have isOwner {n : Nat} {directory : ClassDirectory} (found : library.owner? fqcn = some (n, directory)) :
      library.IsOwner fqcn n directory := by
    obtain ⟨member, greatest⟩ := best (n, directory) found
    obtain ⟨listed, owns⟩ := mem_owners.mp member
    exact ⟨listed, owns, fun m other also owned => greatest (m, other) (mem_owners.mpr ⟨also, owned⟩)⟩
  refine ⟨isOwner, fun owner => ?_⟩
  cases found : library.owner? fqcn with
  | none =>
    have member := mem_owners.mpr ⟨owner.listed, owner.owns⟩
    rw [empty found] at member
    cases member
  | some entry =>
    obtain ⟨rfl, rfl⟩ := (isOwner found).unique owner
    rfl

theorem owner?_eq_none_iff :
    library.owner? fqcn = none ↔ ∀ directory ∈ library.directories, directory.owns fqcn = false := by
  constructor
  · intro missing directory member
    obtain ⟨n, listed⟩ := List.mem_iff_getElem?.mp member
    by_contra owns
    have held := mem_owners.mpr ⟨listed, eq_true_of_ne_false owns⟩
    rw [(isBest_foldl_better (library.ordered_owners fqcn)).1 missing] at held
    cases held
  · intro none
    rw [Option.eq_none_iff_forall_not_mem]
    rintro ⟨n, directory⟩ found
    obtain ⟨listed, owns⟩ := getElem?_of_owner? found
    rw [none directory (List.mem_of_getElem? listed)] at owns
    cases owns

end Owner

section Routing

variable {a b library : ClassLibrary} {n : Nat} {directory : ClassDirectory} {entry : String × LoadedClass}

/-- An entry as lookups in the whole library leave it: under the name of its class and with what its
directory makes of the name, in the directory that the name belongs to. -/
structure Filed (library : ClassLibrary) (n : Nat) (directory : ClassDirectory)
    (entry : String × LoadedClass) : Prop where
  key : ClassDirectory.keyOf entry.1 = entry.1
  named : entry.2.declaration.fqcn = entry.1
  namespaced : entry.2.declaration.namespaceName = directory.name
  placed : ∃ candidate, directory.candidate entry.1 = .ok candidate ∧
    entry.2.declaration.uri = .ofPath candidate.path ∧
    entry.1 = candidate.namespaceName ++ "\\" ++ entry.2.declaration.shortName
  routed : library.owner? entry.1 = some (n, directory)

/-- No name stands twice in a directory, and every entry is filed there. -/
def Routed (library : ClassLibrary) : Prop :=
  ∀ (n : Nat) (directory : ClassDirectory), library.directories[n]? = some directory →
    (directory.classes.map Prod.fst).Nodup ∧ ∀ entry ∈ directory.classes, Filed library n directory entry

theorem owner?_of_listed {fqcn : String} {other : ClassDirectory} (same : SameRoots a b)
    (owner : a.owner? fqcn = some (n, directory)) (listed : b.directories[n]? = some other) :
    b.owner? fqcn = some (n, other) := by
  rcases owner?_of_sameRoots same fqcn with ⟨none, -⟩ | ⟨m, da, db, ha, hb, -⟩
  · rw [owner] at none
    cases none
  · rw [owner] at ha
    obtain ⟨rfl, rfl⟩ := Prod.mk.inj (Option.some.inj ha)
    rw [hb, Option.some.inj ((getElem?_of_owner? hb).1.symm.trans listed)]

/-- An entry stays filed whatever else is loaded or forgotten. -/
theorem Filed.of_sameRoots {other : ClassDirectory} (same : SameRoots a b)
    (filed : Filed a n directory entry) (listed : b.directories[n]? = some other) :
    Filed b n other entry := by
  have place : directory.cleared = other.cleared := by
    have at_n := congrArg (·[n]?) same
    simpa [(getElem?_of_owner? filed.routed).1, listed] using at_n
  have name : directory.cleared.name = other.cleared.name := by rw [place]
  have spelled : directory.cleared.candidate entry.1 = other.cleared.candidate entry.1 := by rw [place]
  obtain ⟨candidate, placed, rest⟩ := filed.placed
  exact ⟨filed.key, filed.named, filed.namespaced.trans name, ⟨candidate, spelled.symm.trans placed, rest⟩,
    owner?_of_listed same filed.routed listed⟩

/-- A class that is read for the owner of its name is filed there. -/
theorem filed_of_read {disk : Disk} {fqcn : String} {found : LoadedClass}
    (owner : library.owner? fqcn = some (n, directory))
    (content : directory.read disk fqcn = .ok found.declaration) :
    Filed library n directory (ClassDirectory.keyOf fqcn, found) := by
  obtain ⟨candidate, text, placed, -, -, declared⟩ := ClassDirectory.declaration_of_read content
  obtain ⟨named, uri⟩ := ClassSource.fqcn_of_declaration declared
  have key := ClassDirectory.keyOf_keyOf fqcn
  refine ⟨key, named, ClassSource.namespaceName_of_declaration declared, ⟨candidate, ?_, uri, ?_⟩, ?_⟩
  · rw [← placed]
    exact directory.candidate_congr key
  · rw [← String.toList_inj, ClassDirectory.keyOf_eq_of_candidate placed, ClassDeclaration.shortName, named]
    simp
  · rw [← owner]
    exact library.owner?_congr key

namespace Routed

theorem of_sublist (routed : Routed a) (same : SameRoots a b)
    (fewer : ∀ (n : Nat) (db : ClassDirectory), b.directories[n]? = some db →
      ∃ da, a.directories[n]? = some da ∧ db.classes.Sublist da.classes) : Routed b := by
  intro n db listed
  obtain ⟨da, before, fewer⟩ := fewer n db listed
  obtain ⟨once, filed⟩ := routed n da before
  exact ⟨once.sublist (fewer.map Prod.fst),
    fun entry member => (filed entry (fewer.subset member)).of_sameRoots same listed⟩

/-- What a lookup loads was not loaded under that name before. -/
theorem lookup (routed : Routed library) (disk : Disk) (fqcn : String) :
    Routed (library.lookup disk fqcn).2 := by
  have same := library.sameRoots_lookup disk fqcn
  rcases library.lookup_cases disk fqcn with
    ⟨found, -, result⟩ | ⟨-, -, result⟩ | ⟨n, directory, declared, loaded, -, owner, content, result⟩
  · rw [result] at same ⊢
    exact routed.of_sublist same fun n db listed => ⟨db, listed, List.Sublist.refl _⟩
  · rwa [result]
  · have numbered := (getElem?_of_owner? owner).1
    have fresh : directory.loaded? fqcn = none := by simpa [loaded?, owner] using loaded
    rw [result] at same ⊢
    intro m other listed
    have at_m := listed
    simp only [List.getElem?_set] at at_m
    split at at_m
    · rename_i here
      subst here
      obtain ⟨-, rfl⟩ : _ ∧ directory.keep fqcn _ = other := by simpa using at_m
      obtain ⟨once, filed⟩ := routed n directory numbered
      constructor
      · have absent : ClassDirectory.keyOf fqcn ∉ directory.classes.map Prod.fst := by
          intro member
          obtain ⟨entry, held, key⟩ := List.mem_map.mp member
          rw [ClassDirectory.loaded?, Option.map_eq_none_iff, List.find?_eq_none] at fresh
          exact fresh entry held (by simp [key])
        simp only [ClassDirectory.keep, List.map_append, List.map_cons, List.map_nil]
        rw [← List.concat_eq_append]
        exact once.concat absent
      · intro entry member
        rcases List.mem_append.mp member with old | new
        · exact (filed entry old).of_sameRoots same listed
        · rw [List.mem_singleton.mp new]
          exact (filed_of_read owner content).of_sameRoots same listed
    · obtain ⟨once, filed⟩ := routed m other at_m
      exact ⟨once, fun entry member => (filed entry member).of_sameRoots same listed⟩

theorem purge (routed : Routed library) (uri : FileUri) : Routed (library.purge uri) := by
  refine routed.of_sublist (library.sameRoots_purge uri) fun n db listed => ?_
  rw [getElem?_purge] at listed
  obtain ⟨da, before, rfl⟩ := Option.map_eq_some_iff.mp listed
  exact ⟨da, before, List.filter_sublist⟩

end Routed

/-- The action concerns the library as a whole, or the disk. -/
def Action.OfLibrary : Action → Prop
  | .ask (.anywhere _) | .purge _ | .change _ => True
  | .ask (.within ..) | .purgeIn .. => False

theorem Routed.perform {session : Session} {action : Action} (routed : Routed session.library)
    (whole : action.OfLibrary) : Routed (session.perform action).library := by
  match action, whole with
  | .ask (.anywhere fqcn), _ => exact routed.lookup session.disk fqcn
  | .purge uri, _ => exact routed.purge uri
  | .change disk, _ => exact routed

theorem routed_of_run {session : Session} {actions : List Action} (routed : Routed session.library)
    (whole : ∀ action ∈ actions, action.OfLibrary) : Routed (session.run actions).library := by
  induction actions generalizing session with
  | nil => exact routed
  | cons action more ih =>
    obtain ⟨here, later⟩ := List.forall_mem_cons.mp whole
    exact ih (routed.perform here) later

end Routing

section Order

variable {a b : ClassLibrary} {disk : Disk} {fqcn : String}

/-- The same directories in another order, and the same next number. -/
structure Reordered (a b : ClassLibrary) : Prop where
  distinct : (a.directories.map (·.name)).Nodup
  perm : a.directories.Perm b.directories
  next : a.nextIdentity = b.nextIdentity

namespace Reordered

/-- Owners with namespaces of one length have the same namespace, and so are the same directory. -/
theorem owner? (reordered : Reordered a b) (fqcn : String) :
    (a.owner? fqcn).map Prod.snd = (b.owner? fqcn).map Prod.snd := by
  cases first : a.owner? fqcn with
  | none =>
    have none' : b.owner? fqcn = none := by
      rw [owner?_eq_none_iff] at first ⊢
      exact fun directory member => first directory (reordered.perm.mem_iff.mpr member)
    rw [none']
  | some best =>
    obtain ⟨n, da⟩ := best
    have ownerA := owner?_eq_some_iff.mp first
    have memberA := List.mem_of_getElem? ownerA.listed
    obtain ⟨m, listedB⟩ := List.mem_iff_getElem?.mp (reordered.perm.mem_iff.mp memberA)
    cases second : b.owner? fqcn with
    | none =>
      have owns := owner?_eq_none_iff.mp second da (List.mem_of_getElem? listedB)
      rw [ownerA.owns] at owns
      cases owns
    | some best =>
      obtain ⟨k, db⟩ := best
      have ownerB := owner?_eq_some_iff.mp second
      have memberB := reordered.perm.mem_iff.mpr (List.mem_of_getElem? ownerB.listed)
      obtain ⟨l, listedA⟩ := List.mem_iff_getElem?.mp memberB
      have below := ownerA.first l db listedA ownerB.owns
      have above := ownerB.first m da listedB ownerA.owns
      have name : da.name = db.name :=
        ClassDirectory.name_eq_of_owns ownerA.owns ownerB.owns (by omega)
      rw [Option.map_some, Option.map_some,
        List.inj_on_of_nodup_map reordered.distinct memberA memberB name]

theorem names_of_sameRoots (same : SameRoots a b) :
    a.directories.map (·.name) = b.directories.map (·.name) := by
  have names := congrArg (List.map fun directory : ClassDirectory => directory.name) same
  rw [List.map_map, List.map_map] at names
  exact names

theorem perm_lookup (reordered : Reordered a b) (disk : Disk) (fqcn : String) :
    (a.lookup disk fqcn).1 = (b.lookup disk fqcn).1 ∧
      (a.lookup disk fqcn).2.directories.Perm (b.lookup disk fqcn).2.directories ∧
      (a.lookup disk fqcn).2.nextIdentity = (b.lookup disk fqcn).2.nextIdentity := by
  have same := reordered.owner? fqcn
  cases first : a.owner? fqcn with
  | none =>
    rw [first, Option.map_none, eq_comm, Option.map_eq_none_iff] at same
    simp only [ClassLibrary.lookup, first, same]
    exact ⟨trivial, reordered.perm, reordered.next⟩
  | some best =>
    obtain ⟨n, directory⟩ := best
    rw [first, Option.map_some, eq_comm, Option.map_eq_some_iff] at same
    obtain ⟨⟨m, _⟩, second, rfl⟩ := same
    have listedA := (getElem?_of_owner? first).1
    have listedB := (getElem?_of_owner? second).1
    simp only [ClassLibrary.lookup, first, second, lookupIn, listedA, listedB, ← reordered.next]
    cases answer : ClassDirectory.lookup _ disk a.nextIdentity fqcn with
    | error miss => exact ⟨rfl, reordered.perm, reordered.next⟩
    | ok result =>
      -- Both put the same directory in the place of the same one, and leave the others.
      have others : (a.directories.eraseIdx n).Perm (b.directories.eraseIdx m) :=
        (List.perm_eraseIdx_of_getElem?_eq (listedA.trans listedB.symm)).mpr reordered.perm
      have boundA := (List.getElem?_eq_some_iff.mp listedA).1
      have boundB := (List.getElem?_eq_some_iff.mp listedB).1
      refine ⟨rfl, ?_, rfl⟩
      exact (List.set_perm_cons_eraseIdx boundA _).trans
        ((others.cons _).trans (List.set_perm_cons_eraseIdx boundB _).symm)

theorem lookup (reordered : Reordered a b) (disk : Disk) (fqcn : String) :
    Reordered (a.lookup disk fqcn).2 (b.lookup disk fqcn).2 := by
  obtain ⟨-, perm, next⟩ := reordered.perm_lookup disk fqcn
  exact ⟨names_of_sameRoots (a.sameRoots_lookup disk fqcn) ▸ reordered.distinct, perm, next⟩

theorem purge (reordered : Reordered a b) (uri : FileUri) : Reordered (a.purge uri) (b.purge uri) :=
  ⟨names_of_sameRoots (a.sameRoots_purge uri) ▸ reordered.distinct, reordered.perm.map _, reordered.next⟩

end Reordered

/-- Sessions with the same directories in another order take the same course. -/
theorem reordered_run {session other : Session} {actions : List Action} (disks : session.disk = other.disk)
    (reordered : Reordered session.library other.library) (whole : ∀ action ∈ actions, action.OfLibrary) :
    (session.run actions).disk = (other.run actions).disk ∧
      Reordered (session.run actions).library (other.run actions).library := by
  induction actions generalizing session other with
  | nil => exact ⟨disks, reordered⟩
  | cons action more ih =>
    obtain ⟨here, later⟩ := List.forall_mem_cons.mp whole
    match action, here with
    | .ask (.anywhere fqcn), _ =>
      refine ih disks ?_ later
      change Reordered _ (other.library.lookup other.disk fqcn).2
      rw [← disks]
      exact reordered.lookup session.disk fqcn
    | .purge uri, _ => exact ih disks (reordered.purge uri) later
    | .change disk, _ => exact ih rfl reordered later

end Order

open Session (start)

/-- Take any run of lookups, purges and changes of the disk that starts with nothing loaded. Each entry is
filed in the directory that its name belongs to, which is the owner with the longest namespace. A lookup
that finds nothing loads nothing, and one that finds a class loads at most that class, for its own name.
If the namespaces are different, the order of the directories does not matter. -/
theorem routed_run {directories : List ClassDirectory} (disk : Disk) {actions : List Action}
    (fresh : ∀ directory ∈ directories, directory.classes = [])
    (whole : ∀ action ∈ actions, action.OfLibrary) :
    let session := (start directories disk).run actions
    session.library.Routed ∧
    (∀ fqcn n directory, session.library.owner? fqcn = some (n, directory) ↔
      session.library.IsOwner fqcn n directory) ∧
    (∀ fqcn, let asked := session.perform (.ask (.anywhere fqcn))
      (session.answer? (.anywhere fqcn) = none → asked.library = session.library) ∧
      ∀ found, session.answer? (.anywhere fqcn) = some found →
        asked.library.directories = session.library.directories ∨
        ∃ n directory, session.library.owner? fqcn = some (n, directory) ∧
          directory.loaded? fqcn = none ∧
          asked.library.directories =
            session.library.directories.set n (directory.keep fqcn found)) ∧
    ((directories.map (·.name)).Nodup → ∀ others, directories.Perm others →
      let other := (start others disk).run actions
      ∀ fqcn, (session.library.owner? fqcn).map Prod.snd = (other.library.owner? fqcn).map Prod.snd ∧
        session.answer? (.anywhere fqcn) = other.answer? (.anywhere fqcn)) := by
  intro session
  refine ⟨?_, fun fqcn n directory => owner?_eq_some_iff, fun fqcn => ?_, ?_⟩
  · have nothing : Routed (start directories disk).library := by
      intro n directory listed
      rw [fresh directory (List.mem_of_getElem? listed)]
      simp
    exact routed_of_run nothing whole
  · intro asked
    have answer : session.answer? (.anywhere fqcn) = (session.library.lookup session.disk fqcn).1 := rfl
    have after : asked.library = (session.library.lookup session.disk fqcn).2 := rfl
    rw [answer, after]
    rcases session.library.lookup_cases session.disk fqcn with
      ⟨found, -, result⟩ | ⟨-, -, result⟩ | ⟨n, directory, declared, loaded, -, owner, -, result⟩
    · simp [result]
    · simp [result]
    · have unloaded : directory.loaded? fqcn = none := by simpa [loaded?, owner] using loaded
      simp only [result, reduceCtorEq, false_implies, Option.some.injEq, forall_eq', true_and]
      exact Or.inr ⟨n, directory, owner, unloaded, rfl⟩
  · intro distinct others perm other fqcn
    have disks : (start directories disk).disk = (start others disk).disk := rfl
    have same : Reordered (start directories disk).library (start others disk).library :=
      ⟨distinct, perm, rfl⟩
    obtain ⟨disks, reordered⟩ := reordered_run disks same whole
    refine ⟨reordered.owner? fqcn, ?_⟩
    change (session.library.lookup session.disk fqcn).1 = (other.library.lookup other.disk fqcn).1
    rw [← disks]
    exact (reordered.perm_lookup session.disk fqcn).1

private def nestedRoots : List ClassDirectory :=
  [.make "Acme" (.ofString "/src"), .make "Acme\\Pumps" (.ofString "/pumps")]

private def nestedDisk : Disk :=
  Disk.write
    (Disk.write .empty (.ofString "/src/Pumps/Gear.php") (Text.Utf8.encode
      "<?php\nnamespace Acme\\Pumps;\nclass Gear {}\n".toList))
    (.ofString "/pumps/Gear.php") (Text.Utf8.encode
      "<?php\nnamespace Acme\\Pumps;\nclass Gear \x7b public function turn() {} \x7d\n".toList)

/-- A class that both directories have a file for is looked up, and so is one that has none. -/
private def nestedRun : List Action :=
  [.ask (.anywhere "\\Acme\\Pumps\\Gear"), .ask (.anywhere "Acme\\Pump"),
    .purge (.ofPath (.ofString "/src/Pumps/Gear.php"))]

/-- The class is kept by the directory of the inner namespace, which answers in either order, and the file
of the outer one is not its own. -/
theorem routed_run_nested :
    (∀ directory ∈ nestedRoots, directory.classes = []) ∧ (∀ action ∈ nestedRun, action.OfLibrary) ∧
      let session := (start nestedRoots nestedDisk).run nestedRun
      let other := (start nestedRoots.reverse nestedDisk).run nestedRun
      session.library.Routed ∧ session.library.directories.map (·.classes.length) = [0, 1] ∧
        session.answer? (.anywhere "Acme\\Pumps\\Gear") =
          other.answer? (.anywhere "Acme\\Pumps\\Gear") := by
  have fresh : ∀ directory ∈ nestedRoots, directory.classes = [] := by decide
  have whole : ∀ action ∈ nestedRun, action.OfLibrary := by simp [nestedRun, Action.OfLibrary]
  have distinct : (nestedRoots.map (·.name)).Nodup := by decide
  obtain ⟨routed, -, -, reorder⟩ := routed_run nestedDisk fresh whole
  have kept : ((start nestedRoots nestedDisk).run nestedRun).library.directories.map
      (·.classes.length) = [0, 1] := by decide +kernel
  exact ⟨fresh, whole, routed, kept,
    (reorder distinct _ (List.reverse_perm nestedRoots).symm "Acme\\Pumps\\Gear").2⟩

end ClassLibrary

end FusionAtlas
