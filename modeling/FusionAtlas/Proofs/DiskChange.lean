import FusionAtlas.Disk

/-!
What is on a disk after a file was written or removed. A path that leads straight to its names, without
steps up and links, is changed there and nowhere else. Main statements: `Disk.Direct.get?_write` and
`Disk.Direct.get?_remove` for other files, `Disk.get?_write_link` and `Disk.get?_remove_link` for links.
-/

set_option autoImplicit false
set_option relaxedAutoImplicit false

namespace FusionAtlas

namespace DiskEntry

variable {entry new : DiskEntry} {names other : List FileName} {content : List UInt8}

theorem get?_append (entry : DiskEntry) (front behind : List FileName) :
    entry.get? (front ++ behind) = (entry.get? front).bind (·.get? behind) := by
  induction front generalizing entry with
  | nil => rfl
  | cons name front ih =>
    cases entry with
    | file content => rfl
    | link target => rfl
    | directory entries =>
      rw [List.cons_append, get?, get?, Option.bind_assoc]
      exact congrArg _ (funext fun below => ih below)

/-- Nothing lies below a file. -/
theorem eq_of_prefix_of_file {last : DiskEntry} (reached : entry.get? names = some (.file content))
    (held : entry.get? other = some last) (below : names <+: other) : other = names := by
  obtain ⟨behind, rfl⟩ := below
  rw [get?_append, reached, Option.bind_some] at held
  cases behind with
  | nil => exact List.append_nil names
  | cons name behind => cases held

/-- No link lies on the way to an entry, or at it, unless it is one. -/
theorem get?_ne_link {last : DiskEntry} {target : FilePath} (reached : entry.get? names = some last)
    (noLink : ∀ target, last ≠ link target) (before : other <+: names) :
    entry.get? other ≠ some (link target) := by
  intro held
  obtain ⟨behind, rfl⟩ := before
  rw [get?_append, held, Option.bind_some] at reached
  cases behind with
  | nil => exact noLink target (Option.some.inj reached).symm
  | cons name behind => cases reached

theorem find?_cons (first : FileName × DiskEntry) (entries : List (FileName × DiskEntry))
    (name : FileName) :
    find? (first :: entries) name = if first.1 = name then some first.2 else find? entries name := by
  by_cases here : first.1 = name
  · simp [find?, here]
  · rw [find?, List.find?_cons_of_neg (by simpa using here), if_neg here, find?]

theorem find?_alter (name other : FileName) (change : Option DiskEntry → DiskEntry)
    (entries : List (FileName × DiskEntry)) :
    find? (alter name change entries) other =
      if other = name then some (change (find? entries name)) else find? entries other := by
  induction entries with
  | nil =>
    rw [alter, find?_cons]
    by_cases same : other = name
    · rw [if_pos same.symm, if_pos same]
      rfl
    · rw [if_neg (Ne.symm same), if_neg same]
  | cons first entries ih =>
    rw [alter, find?_cons, find?_cons]
    by_cases here : first.1 = name
    · rw [if_pos (beq_iff_eq.mpr here), find?_cons, here]
      by_cases same : other = name
      · simp [same]
      · rw [if_neg (Ne.symm same), if_neg same, if_neg (Ne.symm same)]
    · rw [if_neg (mt beq_iff_eq.mp here), find?_cons, ih, if_neg here]
      by_cases there : first.1 = other
      · have different : other ≠ name := fun same => here (there.trans same)
        rw [if_pos there, if_neg different, if_pos there]
      · rw [if_neg there, if_neg there]

theorem find?_filter (name other : FileName) (entries : List (FileName × DiskEntry)) :
    find? (entries.filter fun entry => entry.1 != name) other =
      if other = name then none else find? entries other := by
  simp only [find?, List.find?_filter]
  split
  · rename_i same
    rw [List.find?_eq_none.mpr, Option.map_none]
    intro entry _
    simp [same]
  · rename_i different
    congr 2
    funext entry
    by_cases same : entry.1 = other
    · simp [same, different]
    · simp [same]

theorem find?_map (name other : FileName) (change : DiskEntry → DiskEntry)
    (entries : List (FileName × DiskEntry)) :
    find? (entries.map fun entry =>
        if entry.1 == name then (entry.1, change entry.2) else entry) other =
      (find? entries other).map fun below => if other = name then change below else below := by
  induction entries with
  | nil => rfl
  | cons first entries ih =>
    rw [List.map_cons, find?_cons, find?_cons, ih]
    by_cases here : first.1 = name
    · rw [if_pos (beq_iff_eq.mpr here)]
      by_cases same : other = name
      · rw [if_pos (here.trans same.symm), if_pos (here.trans same.symm), Option.map_some,
          if_pos same]
      · have different : first.1 ≠ other := fun there => same (there.symm.trans here)
        rw [if_neg different, if_neg different]
    · rw [if_neg (mt beq_iff_eq.mp here)]
      by_cases there : first.1 = other
      · have different : other ≠ name := fun same => here (there.trans same)
        rw [if_pos there, if_pos there, Option.map_some, if_neg different]
      · rw [if_neg there, if_neg there]

/-- A file stays as it is when something is put where it does not lie. -/
theorem get?_put (apart : ¬names <+: other) (held : entry.get? other = some (.file content)) :
    (entry.put names new).get? other = some (.file content) := by
  induction names generalizing entry other with
  | nil => exact absurd other.nil_prefix apart
  | cons name names ih =>
    cases entry with
    | file content => exact held
    | link target => exact held
    | directory entries =>
      cases other with
      | nil => cases held
      | cons first other =>
        rw [put, get?, find?_alter]
        split
        · rename_i same
          subst same
          obtain ⟨below, found, reached⟩ := Option.bind_eq_some_iff.mp held
          have inner : ¬names <+: other := fun below =>
            apart ((List.prefix_cons_inj first).mpr below)
          rw [found, Option.getD_some, Option.bind_some]
          exact ih inner reached
        · exact held

/-- Putting a file somewhere makes no link. -/
theorem get?_put_link {target : FilePath}
    (held : (entry.put names (.file content)).get? other = some (.link target)) :
    entry.get? other = some (.link target) := by
  induction names generalizing entry other with
  | nil =>
    cases other with
    | nil => cases held
    | cons name other => cases held
  | cons name names ih =>
    cases entry with
    | file content => exact held
    | link target => exact held
    | directory entries =>
      cases other with
      | nil => cases held
      | cons first other =>
        rw [put, get?, find?_alter] at held
        split at held
        · rename_i same
          subst same
          rw [Option.bind_some] at held
          have below := ih held
          cases found : find? entries first with
          | none =>
            rw [found, Option.getD_none] at below
            cases other with
            | nil => cases below
            | cons name other => cases below
          | some old =>
            rw [found, Option.getD_some] at below
            rw [get?, found, Option.bind_some, below]
        · exact held

/-- A file stays as it is when something is removed where it does not lie. -/
theorem get?_remove (apart : ¬names <+: other) (held : entry.get? other = some (.file content)) :
    (entry.remove names).get? other = some (.file content) := by
  induction names generalizing entry other with
  | nil => exact absurd other.nil_prefix apart
  | cons name names ih =>
    cases entry with
    | file content => cases names <;> exact held
    | link target => cases names <;> exact held
    | directory entries =>
      cases other with
      | nil => cases held
      | cons first other =>
        have inner (same : first = name) : ¬names <+: other := fun below =>
          apart (same ▸ (List.prefix_cons_inj first).mpr below)
        cases names with
        | nil =>
          have different : first ≠ name := fun same => inner same other.nil_prefix
          rw [remove, get?, find?_filter, if_neg different]
          exact held
        | cons second names =>
          obtain ⟨below, found, reached⟩ := Option.bind_eq_some_iff.mp held
          rw [remove, get?, find?_map, found, Option.map_some, Option.bind_some]
          split
          · rename_i same
            exact ih (inner same) reached
          · exact reached
          · simp

theorem get?_remove_link {target : FilePath}
    (held : (entry.remove names).get? other = some (.link target)) :
    entry.get? other = some (.link target) := by
  induction names generalizing entry other with
  | nil => exact held
  | cons name names ih =>
    cases entry with
    | file content => cases names <;> exact held
    | link target => cases names <;> exact held
    | directory entries =>
      cases other with
      | nil => cases names <;> cases held
      | cons first other =>
        cases names with
        | nil =>
          rw [remove, get?, find?_filter] at held
          split at held
          · cases held
          · exact held
        | cons second names =>
          rw [remove, get?, find?_map] at held
          · obtain ⟨below, found, reached⟩ := Option.bind_eq_some_iff.mp held
            obtain ⟨old, listed, rfl⟩ := Option.map_eq_some_iff.mp found
            rw [get?, listed, Option.bind_some]
            split at reached
            · exact ih reached
            · exact reached
          · simp

end DiskEntry

namespace Disk

variable {disk : Disk} {path : FilePath} {names other : List FileName} {content : List UInt8}

theorem namesOf_map_name (names : List FileName) : namesOf (names.map .name) = names := by
  induction names with
  | nil => rfl
  | cons name names ih => exact congrArg (name :: ·) ih

/-- Where names without a link on the way lead: to them, or to nothing, if a name is missing or a file
is in the way. -/
theorem follow_names
    (onLink : FilePath → List FileName → List FilePath.Component → Except DiskFault Place)
    (asDirectory : Bool) (here ahead : List FileName)
    (free : ∀ front, front <+: ahead → ∀ target, disk.root.get? (here ++ front) ≠ some (.link target)) :
    disk.follow onLink asDirectory here (ahead.map .name) = .ok (.reached (here ++ ahead)) ∨
      (∃ front behind,
        disk.follow onLink asDirectory here (ahead.map .name) = .ok (.missing front behind) ∧
        front ++ namesOf behind = here ++ ahead ∧ disk.root.get? (here ++ ahead) = none) ∨
      (disk.follow onLink asDirectory here (ahead.map .name) = .error .notADirectory ∧
        (disk.root.get? (here ++ ahead) = none ∨ asDirectory = true)) := by
  induction ahead generalizing here with
  | nil => exact Or.inl (by rw [List.append_nil]; rfl)
  | cons name ahead ih =>
    have onward : here ++ name :: ahead = (here ++ [name]) ++ ahead := by simp
    rw [List.map_cons, follow]
    cases found : disk.root.get? (here ++ [name]) with
    | none =>
      refine Or.inr (Or.inl ⟨here ++ [name], ahead.map .name, rfl, ?_, ?_⟩)
      · rw [namesOf_map_name, onward]
      · rw [onward, DiskEntry.get?_append, found, Option.bind_none]
    | some entry =>
      cases entry with
      | file content =>
        simp only [List.isEmpty_map]
        cases ahead with
        | nil =>
          cases asDirectory with
          | false => exact Or.inl rfl
          | true => exact Or.inr (Or.inr ⟨rfl, Or.inr rfl⟩)
        | cons second ahead =>
          refine Or.inr (Or.inr ⟨rfl, Or.inl ?_⟩)
          rw [onward, DiskEntry.get?_append, found]
          rfl
      | directory entries =>
        have below : ∀ front, front <+: ahead → ∀ target,
            disk.root.get? ((here ++ [name]) ++ front) ≠ some (.link target) := by
          intro front before target
          rw [List.append_assoc, List.singleton_append]
          exact free (name :: front) ((List.prefix_cons_inj name).mpr before) target
        rw [onward]
        exact ih (here ++ [name]) below
      | link target =>
        exact absurd found (free [name] (by simp) target)

/-- A path that leads to an entry is absolute, and walking along it reaches the names of the entry. -/
theorem resolve_eq_ok {entry : DiskEntry} (resolved : disk.resolve path = .ok (names, entry)) :
    path.isAbsolute = true ∧
      disk.walk maxLinks (namesDirectory path) [] path.components = .ok (.reached names) ∧
      disk.root.get? names = some entry := by
  unfold resolve at resolved
  cases absolute : path.isAbsolute with
  | false =>
    rw [absolute] at resolved
    cases resolved
  | true =>
    rw [absolute] at resolved
    simp only [Bool.not_true, Bool.false_eq_true, if_false, bind, Except.bind, pure,
      Except.pure] at resolved
    cases walked : disk.walk maxLinks (namesDirectory path) [] path.components with
    | error fault =>
      rw [walked] at resolved
      cases resolved
    | ok place =>
      rw [walked] at resolved
      cases place with
      | missing front behind => cases resolved
      | reached found =>
        cases held : disk.root.get? found with
        | none =>
          simp only [held] at resolved
          cases resolved
        | some last =>
          simp only [held] at resolved
          cases resolved
          exact ⟨rfl, rfl, held⟩

theorem walk_of_isFile (found : disk.isFile path = true) :
    ∃ names content, names ≠ [] ∧
      disk.walk maxLinks (namesDirectory path) [] path.components = .ok (.reached names) ∧
      disk.root.get? names = some (.file content) := by
  unfold isFile at found
  split at found
  · rename_i first more content resolved
    obtain ⟨-, walked, held⟩ := resolve_eq_ok resolved
    exact ⟨first :: more, content, List.cons_ne_nil _ _, walked, held⟩
  · cases found

/-- The names are those of a directory; the root counts as one. -/
def Opens (disk : Disk) (names : List FileName) : Prop :=
  names = [] ∨ ∃ entries, disk.root.get? names = some (.directory entries)

theorem Opens.dropLast (opens : disk.Opens names) : disk.Opens names.dropLast := by
  rcases opens with rfl | ⟨entries, held⟩
  · exact Or.inl rfl
  · rcases List.eq_nil_or_concat names with rfl | ⟨front, name, rfl⟩
    · exact Or.inl rfl
    · rw [List.concat_eq_append] at held ⊢
      rw [DiskEntry.get?_append] at held
      obtain ⟨above, reached, inside⟩ := Option.bind_eq_some_iff.mp held
      rw [List.dropLast_concat]
      cases above with
      | file content => cases inside
      | link target => cases inside
      | directory entries => exact Or.inr ⟨entries, reached⟩

/-- Components that lead to a file end in a name, and nothing asks for a directory. -/
theorem getLast?_of_follow
    {onLink : FilePath → List FileName → List FilePath.Component → Except DiskFault Place}
    {asDirectory : Bool} {here : List FileName} {ahead : List FilePath.Component}
    (opens : disk.Opens here) (below : names ≠ [])
    (held : disk.root.get? names = some (.file content))
    (linked : ∀ target here ahead, disk.Opens here →
      onLink target here ahead = .ok (.reached names) →
        asDirectory = false ∧ (ahead = [] ∨ ∃ name, ahead.getLast? = some (.name name)))
    (reached : disk.follow onLink asDirectory here ahead = .ok (.reached names)) :
    asDirectory = false ∧ ∃ name, ahead.getLast? = some (.name name) := by
  induction ahead generalizing here with
  | nil =>
    obtain rfl : here = names := by simpa [follow] using reached
    rcases opens with empty | ⟨entries, directory⟩
    · exact absurd empty below
    · rw [held] at directory
      cases directory
  | cons component ahead ih =>
    have further (found : asDirectory = false ∧ (ahead = [] ∨ ∃ name, ahead.getLast? = some (.name name)))
        (named : ahead = [] → ∃ name, component = .name name) :
        asDirectory = false ∧ ∃ name, (component :: ahead).getLast? = some (.name name) := by
      obtain ⟨plain, rfl | ⟨name, last⟩⟩ := found
      · obtain ⟨name, rfl⟩ := named rfl
        exact ⟨plain, name, rfl⟩
      · exact ⟨plain, name, by rw [List.getLast?_cons, last]; rfl⟩
    cases component with
    | parent =>
      rw [follow] at reached
      obtain ⟨plain, name, last⟩ := ih opens.dropLast reached
      exact ⟨plain, name, by rw [List.getLast?_cons, last]; rfl⟩
    | name name =>
      rw [follow] at reached
      split at reached
      · cases reached
      · split at reached
        · next ends =>
          rw [Bool.and_eq_true, List.isEmpty_iff, Bool.not_eq_true'] at ends
          exact further ⟨ends.2, Or.inl ends.1⟩ fun _ => ⟨name, rfl⟩
        · cases reached
      · next entries directory =>
        have found := ih (Or.inr ⟨entries, directory⟩) reached
        exact further ⟨found.1, Or.inr found.2⟩ fun _ => ⟨name, rfl⟩
      · exact further (linked _ _ _ opens reached) fun _ => ⟨name, rfl⟩

theorem getLast?_of_walk {links : Nat} {asDirectory : Bool} {here : List FileName}
    {ahead : List FilePath.Component} (opens : disk.Opens here) (below : names ≠ [])
    (held : disk.root.get? names = some (.file content))
    (reached : disk.walk links asDirectory here ahead = .ok (.reached names)) :
    asDirectory = false ∧ ∃ name, ahead.getLast? = some (.name name) := by
  induction links generalizing asDirectory here ahead with
  | zero =>
    rw [walk] at reached
    refine getLast?_of_follow opens below held ?_ reached
    intro target here ahead _ failed
    cases failed
  | succ links ih =>
    rw [walk] at reached
    refine getLast?_of_follow opens below held ?_ reached
    intro target here ahead opens onward
    have start : disk.Opens (if target.isAbsolute then [] else here) := by
      split
      · exact Or.inl rfl
      · exact opens
    obtain ⟨plain, name, last⟩ := ih start onward
    refine ⟨(Bool.or_eq_false_iff.mp plain).1, ?_⟩
    rw [List.getLast?_append] at last
    cases behind : ahead.getLast? with
    | none => exact Or.inl (List.getLast?_eq_none_iff.mp behind)
    | some component =>
      rw [behind, Option.some_or] at last
      exact Or.inr ⟨name, last⟩

/-- A path that leads to a file ends in its name. -/
theorem fileName_of_isFile (found : disk.isFile path = true) :
    namesDirectory path = false ∧ ∃ name, path.components.getLast? = some (.name name) := by
  obtain ⟨names, content, below, walked, held⟩ := walk_of_isFile found
  exact getLast?_of_walk (Or.inl rfl) below held walked

/-- The path has no step up, and no link lies on its way or at its end. -/
structure Direct (disk : Disk) (path : FilePath) (names : List FileName) : Prop where
  components : path.components = names.map .name
  free : ∀ front, front <+: names → ∀ target, disk.root.get? front ≠ some (.link target)

/-- Walking along names without a link on the way is following them, whatever becomes of links. -/
theorem walk_eq (disk : Disk) (links : Nat) (asDirectory : Bool) :
    ∃ onLink, disk.walk links asDirectory = disk.follow onLink asDirectory := by
  cases links with
  | zero => exact ⟨_, rfl⟩
  | succ links => exact ⟨_, rfl⟩

namespace Direct

variable (direct : disk.Direct path names)

include direct

theorem walk_cases (asDirectory : Bool) :
    disk.walk maxLinks asDirectory [] path.components = .ok (.reached names) ∨
      (∃ front behind,
        disk.walk maxLinks asDirectory [] path.components = .ok (.missing front behind) ∧
        front ++ namesOf behind = names ∧ disk.root.get? names = none) ∨
      (disk.walk maxLinks asDirectory [] path.components = .error .notADirectory ∧
        (disk.root.get? names = none ∨ asDirectory = true)) := by
  obtain ⟨onLink, walked⟩ := disk.walk_eq maxLinks asDirectory
  rw [walked, direct.components]
  exact follow_names onLink asDirectory [] names direct.free

theorem resolve_of_file (absolute : path.isAbsolute = true) (plain : namesDirectory path = false)
    (held : disk.root.get? names = some (.file content)) :
    disk.resolve path = .ok (names, .file content) := by
  rcases direct.walk_cases false with walked | ⟨_, _, -, -, none⟩ | ⟨-, none | impossible⟩
  · rw [resolve, absolute, plain, walked]
    simp [bind, Except.bind, pure, Except.pure, held]
  · rw [held] at none
    cases none
  · rw [held] at none
    cases none
  · cases impossible

theorem get?_of_isFile (found : disk.isFile path = true) :
    ∃ content, disk.root.get? names = some (.file content) := by
  obtain ⟨reached, content, -, walked, held⟩ := walk_of_isFile found
  rcases direct.walk_cases (namesDirectory path) with here | ⟨_, _, lost, -⟩ | ⟨lost, -⟩
  · rw [walked] at here
    cases here
    exact ⟨content, held⟩
  · rw [walked] at lost
    cases lost
  · rw [walked] at lost
    cases lost

theorem isFile_of_file (below : names ≠ []) (absolute : path.isAbsolute = true)
    (plain : namesDirectory path = false) (held : disk.root.get? names = some (.file content)) :
    disk.isFile path = true := by
  obtain ⟨first, more, rfl⟩ := List.exists_cons_of_ne_nil below
  rw [isFile, direct.resolve_of_file absolute plain held]

theorem read_of_file (absolute : path.isAbsolute = true) (plain : namesDirectory path = false)
    (held : disk.root.get? names = some (.file content)) : disk.read path = .ok content := by
  rw [read, direct.resolve_of_file absolute plain held]
  rfl

theorem destination?_cases : disk.destination? path = none ∨ disk.destination? path = some names := by
  unfold destination?
  rcases direct.walk_cases false with walked | ⟨front, behind, walked, same, -⟩ | ⟨walked, -⟩
  · exact Or.inr (by rw [walked])
  · exact Or.inr (by rw [walked]; exact congrArg some same)
  · exact Or.inl (by rw [walked])

/-- Writing changes the entry at the names, unless that is a directory or cannot be reached. -/
theorem write_cases (content : List UInt8) :
    disk.write path content = disk ∨
      (disk.write path content = ⟨disk.root.put names (.file content)⟩ ∧
        ∀ entries, disk.root.get? names ≠ some (.directory entries)) := by
  rcases direct.destination?_cases with nowhere | there
  · exact Or.inl (by rw [write, nowhere])
  · rw [write, there]
    simp only
    split
    · exact Or.inl rfl
    · rename_i other
      exact Or.inr ⟨rfl, other⟩

theorem ownNames?_cases : disk.ownNames? path = none ∨ disk.ownNames? path = some names := by
  rcases List.eq_nil_or_concat names with rfl | ⟨front, name, rfl⟩
  · have none : path.fileName? = none := by rw [FilePath.fileName?, direct.components]; rfl
    exact Or.inl (by rw [ownNames?, none]; rfl)
  · rw [List.concat_eq_append] at direct ⊢
    have file : path.fileName? = some name := by
      rw [FilePath.fileName?, direct.components, List.map_append, List.map_singleton,
        List.getLast?_concat]
    have folder : path.components.dropLast = front.map .name := by
      rw [direct.components, List.map_append, List.map_singleton, List.dropLast_concat]
    have free : ∀ before, before <+: front → ∀ target,
        disk.root.get? ([] ++ before) ≠ some (.link target) :=
      fun before inside => direct.free before (inside.trans (List.prefix_append front [name]))
    obtain ⟨onLink, walked⟩ := disk.walk_eq maxLinks false
    rw [ownNames?, file, folder, walked]
    rcases follow_names onLink false [] front free with
      reached | ⟨before, behind, missing, same, -⟩ | ⟨lost, -⟩
    · exact Or.inr (by rw [reached]; rfl)
    · refine Or.inr ?_
      rw [missing]
      exact congrArg (fun names => some (names ++ [name])) same
    · exact Or.inl (by rw [lost]; rfl)

/-- Removing takes the entry at the names away, or does nothing. -/
theorem remove_cases :
    disk.remove path = disk ∨ disk.remove path = ⟨disk.root.remove names⟩ := by
  rcases direct.ownNames?_cases with nowhere | there
  · exact Or.inl (by rw [remove, nowhere])
  · exact Or.inr (by rw [remove, there])

/-- Another file is not changed by writing one. -/
theorem get?_write {old new : List UInt8} (held : disk.root.get? other = some (.file old))
    (different : other ≠ names) : (disk.write path new).root.get? other = some (.file old) := by
  rcases direct.write_cases new with unchanged | ⟨changed, noDirectory⟩
  · rw [unchanged, held]
  · rw [changed]
    refine DiskEntry.get?_put (fun below => ?_) held
    obtain ⟨behind, rfl⟩ := below
    rw [DiskEntry.get?_append] at held
    obtain ⟨entry, found, reached⟩ := Option.bind_eq_some_iff.mp held
    cases behind with
    | nil => exact different (List.append_nil names)
    | cons name behind =>
      cases entry with
      | file content => cases reached
      | link target => cases reached
      | directory entries => exact noDirectory entries found

/-- Another file is not changed by removing one. -/
theorem get?_remove {old gone : List UInt8} (held : disk.root.get? other = some (.file old))
    (removed : disk.root.get? names = some (.file gone)) (different : other ≠ names) :
    (disk.remove path).root.get? other = some (.file old) := by
  rcases direct.remove_cases with unchanged | changed
  · rw [unchanged, held]
  · rw [changed]
    exact DiskEntry.get?_remove
      (fun below => different (DiskEntry.eq_of_prefix_of_file removed held below)) held

end Direct

theorem get?_write_link {target : FilePath}
    (held : (disk.write path content).root.get? other = some (.link target)) :
    disk.root.get? other = some (.link target) := by
  unfold write at held
  split at held
  · split at held
    · exact held
    · exact DiskEntry.get?_put_link held
  · exact held

theorem get?_remove_link {target : FilePath}
    (held : (disk.remove path).root.get? other = some (.link target)) :
    disk.root.get? other = some (.link target) := by
  unfold remove at held
  split at held
  · exact DiskEntry.get?_remove_link held
  · exact held

end Disk

end FusionAtlas
