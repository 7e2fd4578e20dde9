import FusionAtlas.Proofs.LookupProgram

/-!
Libraries that answer alike: each name stands for the same declaration in both, though the classes may
have been loaded at other times. A computation that only looks classes up asks both for the same names, and
what is loaded behind some lookups does not depend on their order. Main statements:
`ClassLibrary.keeps_lookupAll`, and `InStep.bind` with the rules beside it.
-/

set_option autoImplicit false
set_option relaxedAutoImplicit false

namespace FusionAtlas

/-- The class without its identity. -/
def LoadedClass.anonymous (cls : LoadedClass) : LoadedClass := { cls with identity := 0 }

namespace ClassLibrary

variable {a b c library : ClassLibrary} {disk : Disk}

/-- On a disk both answer every lookup with the same class, identities apart. -/
def Alike (disk : Disk) (a b : ClassLibrary) : Prop :=
  ∀ fqcn, (a.lookup disk fqcn).1.map (·.declaration) = (b.lookup disk fqcn).1.map (·.declaration)

namespace Alike

theorem refl (library : ClassLibrary) : Alike disk library library := fun _ => rfl

theorem symm (alike : Alike disk a b) : Alike disk b a := fun fqcn => (alike fqcn).symm

theorem trans (first : Alike disk a b) (second : Alike disk b c) : Alike disk a c :=
  fun fqcn => (first fqcn).trans (second fqcn)

theorem of_grows (grows : Grows disk a b) : Alike disk a b :=
  fun fqcn => (declaration_of_grows grows fqcn).symm

end Alike

/-- The library behind lookups of some names, one after the other. -/
def lookupAll (disk : Disk) (library : ClassLibrary) (names : List String) : ClassLibrary :=
  names.foldl (fun library fqcn => (library.lookup disk fqcn).2) library

theorem lookupAll_append (disk : Disk) (library : ClassLibrary) (names more : List String) :
    library.lookupAll disk (names ++ more) = (library.lookupAll disk names).lookupAll disk more :=
  List.foldl_append

theorem grows_lookupAll (disk : Disk) (library : ClassLibrary) (names : List String) :
    Grows disk library (library.lookupAll disk names) := by
  induction names generalizing library with
  | nil => exact .refl
  | cons fqcn names ih => exact (Grows.lookup library disk fqcn).trans (ih _)

/-- In a directory a class is kept under a name. -/
def Keeps (library : ClassLibrary) (number : Nat) (name : String) (declared : ClassDeclaration) :
    Prop :=
  ∃ directory, library.directories[number]? = some directory ∧
    ∃ cls, (name, cls) ∈ directory.classes ∧ cls.declaration = declared

/-- Looking a name up would load a class, and it would be kept in this place. -/
def Adds (disk : Disk) (library : ClassLibrary) (fqcn : String) (number : Nat) (name : String)
    (declared : ClassDeclaration) : Prop :=
  (library.owner? fqcn).map (·.1) = some number ∧ ClassDirectory.keyOf fqcn = name ∧
    library.loaded? fqcn = none ∧ library.read? disk fqcn = some declared

theorem Adds.congr {fqcn other name : String} {number : Nat} {declared : ClassDeclaration}
    (adds : Adds disk library fqcn number name declared)
    (same : ClassDirectory.keyOf fqcn = ClassDirectory.keyOf other) :
    Adds disk library other number name declared := by
  obtain ⟨owner, key, fresh, content⟩ := adds
  refine ⟨?_, same ▸ key, ?_, ?_⟩
  · rwa [← library.owner?_congr same]
  · rwa [← library.loaded?_congr same]
  · rwa [← library.read?_congr disk same]

theorem number_of_sameRoots (same : SameRoots a b) (fqcn : String) :
    (a.owner? fqcn).map (·.1) = (b.owner? fqcn).map (·.1) := by
  rcases owner?_of_sameRoots same fqcn with ⟨first, second⟩ | ⟨n, da, db, first, second, -⟩
  · rw [first, second]
  · rw [first, second, Option.map_some, Option.map_some]

theorem keeps_lookup (disk : Disk) (library : ClassLibrary) (fqcn : String) (number : Nat)
    (name : String) (declared : ClassDeclaration) :
    (library.lookup disk fqcn).2.Keeps number name declared ↔
      library.Keeps number name declared ∨ Adds disk library fqcn number name declared := by
  rcases library.lookup_cases disk fqcn with
    ⟨found, loaded, result⟩ | ⟨-, missing, result⟩ |
      ⟨n, directory, content, fresh, read, owner, -, result⟩
  · have nothing : ¬Adds disk library fqcn number name declared := by
      rintro ⟨-, -, fresh, -⟩
      rw [loaded] at fresh
      cases fresh
    rw [result, or_iff_left nothing]
    rfl
  · have nothing : ¬Adds disk library fqcn number name declared := by
      rintro ⟨-, -, -, read⟩
      rw [missing] at read
      cases read
    rw [result, or_iff_left nothing]
  · have place := (getElem?_of_owner? owner).1
    have bound := (List.getElem?_eq_some_iff.mp place).1
    have adds : Adds disk library fqcn number name declared ↔
        n = number ∧ ClassDirectory.keyOf fqcn = name ∧ content = declared := by
      simp only [Adds, owner, fresh, read, Option.map_some, Option.some_inj, true_and]
    rw [result, adds]
    by_cases here : n = number
    · subst here
      simp only [Keeps, List.getElem?_set_self bound, place, Option.some_inj, exists_eq_left',
        ClassDirectory.keep, List.mem_append, List.mem_singleton, Prod.mk.injEq, true_and]
      constructor
      · rintro ⟨cls, old | ⟨key, new⟩, same⟩
        · exact Or.inl ⟨cls, old, same⟩
        · exact Or.inr ⟨key.symm, by rw [← same, new]⟩
      · rintro (⟨cls, old, same⟩ | ⟨key, same⟩)
        · exact ⟨cls, Or.inl old, same⟩
        · exact ⟨_, Or.inr ⟨key.symm, rfl⟩, same⟩
    · simp only [Keeps, List.getElem?_set_ne here, here, false_and, or_false]

/-- What looking another name up adds is what it added before, unless both are one name. -/
theorem adds_lookup {disk : Disk} {library : ClassLibrary} {fqcn other name : String} {number : Nat}
    {declared : ClassDeclaration} (apart : ClassDirectory.keyOf other ≠ ClassDirectory.keyOf fqcn) :
    Adds disk (library.lookup disk fqcn).2 other number name declared ↔
      Adds disk library other number name declared := by
  have roots := library.sameRoots_lookup disk fqcn
  rw [Adds, Adds, loaded?_lookup, if_neg apart, ← number_of_sameRoots roots,
    ← read?_of_sameRoots roots]

/-- A name that was just looked up adds nothing more. -/
theorem not_adds_lookup {disk : Disk} {library : ClassLibrary} {fqcn other name : String} {number : Nat}
    {declared : ClassDeclaration} (same : ClassDirectory.keyOf other = ClassDirectory.keyOf fqcn) :
    ¬Adds disk (library.lookup disk fqcn).2 other number name declared := by
  rintro ⟨-, -, fresh, read⟩
  rw [loaded?_lookup, if_pos same, fst_lookup, Option.or_eq_none_iff, Option.map_eq_none_iff] at fresh
  rw [← read?_of_sameRoots (library.sameRoots_lookup disk fqcn), library.read?_congr disk same,
    fresh.2] at read
  cases read

/-- Behind some lookups those classes are kept that were kept before, and those that any of them would
have loaded at once. -/
theorem keeps_lookupAll (disk : Disk) (library : ClassLibrary) (names : List String) (number : Nat)
    (name : String) (declared : ClassDeclaration) :
    (library.lookupAll disk names).Keeps number name declared ↔
      library.Keeps number name declared ∨
        ∃ fqcn ∈ names, Adds disk library fqcn number name declared := by
  induction names generalizing library with
  | nil =>
    have none : ¬∃ fqcn ∈ ([] : List String), Adds disk library fqcn number name declared := by simp
    rw [or_iff_left none]
    rfl
  | cons first names ih =>
    have step : library.lookupAll disk (first :: names) =
        (library.lookup disk first).2.lookupAll disk names := rfl
    rw [step, ih, keeps_lookup, or_assoc]
    refine or_congr_right ?_
    -- A name that means the same class as the first one adds nothing behind it, any other the same as before.
    constructor
    · rintro (adds | ⟨fqcn, member, adds⟩)
      · exact ⟨first, List.mem_cons_self .., adds⟩
      · by_cases same : ClassDirectory.keyOf fqcn = ClassDirectory.keyOf first
        · exact absurd adds (not_adds_lookup same)
        · exact ⟨fqcn, List.mem_cons_of_mem _ member, (adds_lookup same).mp adds⟩
    · rintro ⟨fqcn, member, adds⟩
      by_cases same : ClassDirectory.keyOf fqcn = ClassDirectory.keyOf first
      · exact Or.inl (adds.congr same)
      · rcases List.mem_cons.mp member with rfl | member
        · exact absurd rfl same
        · exact Or.inr ⟨fqcn, member, (adds_lookup same).mpr adds⟩

theorem Keeps.of_grows {number : Nat} {name : String} {declared : ClassDeclaration}
    (keeps : a.Keeps number name declared) (grows : Grows disk a b) : b.Keeps number name declared :=
  grows.preserves (fun library fqcn kept => (keeps_lookup disk library fqcn _ _ _).mpr (Or.inl kept))
    keeps

theorem keeps_of_loaded? {fqcn : String} {cls : LoadedClass} {number : Nat}
    (loaded : library.loaded? fqcn = some cls) (owner : (library.owner? fqcn).map (·.1) = some number) :
    library.Keeps number (ClassDirectory.keyOf fqcn) cls.declaration := by
  obtain ⟨⟨n, directory⟩, owned, found⟩ := Option.bind_eq_some_iff.mp loaded
  rw [owned] at owner
  obtain rfl : n = number := Option.some.inj owner
  obtain ⟨⟨name, kept⟩, listed, rfl⟩ := Option.map_eq_some_iff.mp found
  have key : (name == ClassDirectory.keyOf fqcn) = true := (List.find?_some listed :)
  obtain rfl := eq_of_beq key
  exact ⟨directory, (getElem?_of_owner? owned).1, kept, List.mem_of_find?_eq_some listed, rfl⟩

/-- What a lookup adds to a grown library it would have added before. -/
theorem Adds.of_grows {fqcn name : String} {number : Nat} {declared : ClassDeclaration}
    (adds : Adds disk b fqcn number name declared) (grows : Grows disk a b) :
    Adds disk a fqcn number name declared := by
  obtain ⟨owner, key, fresh, read⟩ := adds
  refine ⟨(number_of_sameRoots grows.sameRoots fqcn).trans owner, key, ?_,
    (read?_of_sameRoots grows.sameRoots disk fqcn).trans read⟩
  cases before : a.loaded? fqcn with
  | none => rfl
  | some cls =>
    rw [grows.loaded? before] at fresh
    cases fresh

/-- What a lookup would have added before, the grown library keeps or the lookup adds to it. -/
theorem Adds.grown {fqcn name : String} {number : Nat} {declared : ClassDeclaration}
    (adds : Adds disk a fqcn number name declared) (grows : Grows disk a b) :
    b.Keeps number name declared ∨ Adds disk b fqcn number name declared := by
  obtain ⟨owner, rfl, fresh, read⟩ := adds
  have owner' := (number_of_sameRoots grows.sameRoots fqcn).symm.trans owner
  have read' := (read?_of_sameRoots grows.sameRoots disk fqcn).symm.trans read
  cases now : b.loaded? fqcn with
  | none => exact Or.inr ⟨owner', rfl, now, read'⟩
  | some cls =>
    have same := declaration_of_grows grows fqcn
    rw [fst_lookup, fst_lookup, now, fresh, read, Option.some_or, Option.none_or] at same
    obtain rfl : cls.declaration = declared := Option.some.inj same
    exact Or.inl (keeps_of_loaded? now owner')

/-- Lookups leave a grown library with what it kept, and what they would have left before. -/
theorem keeps_lookupAll_of_grows (grows : Grows disk a b) (names : List String) (number : Nat)
    (name : String) (declared : ClassDeclaration) :
    (b.lookupAll disk names).Keeps number name declared ↔
      b.Keeps number name declared ∨ (a.lookupAll disk names).Keeps number name declared := by
  rw [keeps_lookupAll, keeps_lookupAll]
  constructor
  · rintro (kept | ⟨fqcn, member, adds⟩)
    · exact Or.inl kept
    · exact Or.inr (Or.inr ⟨fqcn, member, adds.of_grows grows⟩)
  · rintro (kept | kept | ⟨fqcn, member, adds⟩)
    · exact Or.inl kept
    · exact Or.inl (kept.of_grows grows)
    · exact (adds.grown grows).imp_right fun adds => ⟨fqcn, member, adds⟩

end ClassLibrary

namespace LookupProgram

open ClassLibrary (Alike Grows lookupAll)

variable {α β γ δ : Type} {disk : Disk}

/-- Two computations that look classes up. In libraries that answer alike they ask for the same names, and
come to the same once their results are erased; and the first, asked again later, comes to exactly what it
came to before. -/
structure InStep (disk : Disk) (erase : α → γ) (m n : StateM ClassLibrary α) : Prop where
  alike : ∀ a b, Alike disk a b → ∃ names,
    (m.run a).2 = a.lookupAll disk names ∧ (n.run b).2 = b.lookupAll disk names ∧
      erase (m.run a).1 = erase (n.run b).1
  again : ∀ library later, Grows disk (m.run library).2 later → (m.run later).1 = (m.run library).1

namespace InStep

variable {erase : α → γ} {m n : StateM ClassLibrary α}

theorem grows (steps : InStep disk erase m n) (library : ClassLibrary) :
    Grows disk library (m.run library).2 := by
  obtain ⟨names, asked, -, -⟩ := steps.alike library library (.refl library)
  rw [asked]
  exact library.grows_lookupAll disk names

theorem pure {x y : α} (same : erase x = erase y) :
    InStep disk erase (Pure.pure x : StateM ClassLibrary α) (Pure.pure y) :=
  ⟨fun _ _ _ => ⟨[], rfl, rfl, same⟩, fun _ _ _ => rfl⟩

theorem bind {erase' : β → δ} {f g : α → StateM ClassLibrary β} (first : InStep disk erase m n)
    (next : ∀ x y, erase x = erase y → InStep disk erase' (f x) (g y)) :
    InStep disk erase' (m >>= f) (n >>= g) := by
  constructor
  case alike =>
    intro a b alike
    obtain ⟨names, asked, asked', same⟩ := first.alike a b alike
    have behind : Alike disk (m.run a).2 (n.run b).2 := by
      rw [asked, asked']
      exact (Alike.of_grows (a.grows_lookupAll disk names)).symm.trans
        (alike.trans (.of_grows (b.grows_lookupAll disk names)))
    obtain ⟨more, further, further', results⟩ := (next _ _ same).alike _ _ behind
    refine ⟨names ++ more, ?_, ?_, results⟩
    · rw [run_bind, further, asked, ClassLibrary.lookupAll_append]
    · rw [run_bind, further', asked', ClassLibrary.lookupAll_append]
  case again =>
    intro library later grown
    -- The second part starts from one result in both runs, as the first part comes to the same again.
    have second := next (m.run library).1 (m.run library).1 rfl
    rw [run_bind] at grown
    have known : (m.run later).1 = (m.run library).1 :=
      first.again library later ((second.grows _).trans grown)
    rw [run_bind, run_bind, known]
    exact second.again _ _ (grown.trans (first.grows later))

theorem mapM {f g : β → StateM ClassLibrary α} (step : ∀ x, InStep disk erase (f x) (g x))
    (items : List β) : InStep disk (List.map erase) (items.mapM f) (items.mapM g) := by
  induction items with
  | nil => exact pure rfl
  | cons x items ih =>
    rw [List.mapM_cons, List.mapM_cons]
    refine (step x).bind fun found found' same => ih.bind fun others others' alike => pure ?_
    rw [List.map_cons, List.map_cons, same, alike]

theorem foldlM {f g : α → β → StateM ClassLibrary α} {shape : β → δ}
    (step : ∀ x y item other, erase x = erase y → shape item = shape other →
      InStep disk erase (f x item) (g y other)) :
    ∀ {items others : List β}, items.map shape = others.map shape →
      ∀ {x y : α}, erase x = erase y → InStep disk erase (items.foldlM f x) (others.foldlM g y) := by
  intro items
  induction items with
  | nil =>
    intro others shapes x y same
    cases others with
    | nil => exact pure same
    | cons other others => cases shapes
  | cons item items ih =>
    intro others shapes x y same
    cases others with
    | nil => cases shapes
    | cons other others =>
      obtain ⟨first, rest⟩ := List.cons.inj shapes
      rw [List.foldlM_cons, List.foldlM_cons]
      exact (step x y item other same first).bind fun _ _ behind => ih rest behind

end InStep

theorem findClass_inStep (disk : Disk) (fqcn : String) :
    InStep disk (Option.map LoadedClass.anonymous) (findClass disk fqcn) (findClass disk fqcn) := by
  constructor
  case alike =>
    intro a b alike
    refine ⟨[fqcn], rfl, rfl, ?_⟩
    have erased (answer : Option LoadedClass) : answer.map LoadedClass.anonymous =
        (answer.map (·.declaration)).map fun declared => ⟨0, declared⟩ := by
      rw [Option.map_map]
      rfl
    rw [run_findClass, run_findClass, erased, erased, alike fqcn]
  case again =>
    intro library later grown
    exact ClassLibrary.lookup_of_grows grown

end LookupProgram

end FusionAtlas
