import FusionAtlas.HostCode.ClassDirectory
import FusionAtlas.Proofs.FilePath
import Mathlib.Data.List.Infix

/-!
Where the path of a class leads. The parts of a name are appended to the directory of the namespace as they are
written, so that one may step up from it, and one that starts with a slash starts over at the root. Such a name
leads below the directory only where it comes back by the names of the directory itself. Main statement:
`ClassDirectory.isBelow_candidate_iff`.
-/

set_option autoImplicit false
set_option relaxedAutoImplicit false

namespace FusionAtlas

namespace FilePath

/-- One component further down from the root. A step up leaves the last name, and stays at the root. -/
def enter (names : List (List UInt8)) : Component → List (List UInt8)
  | .parent => names.dropLast
  | .name bytes => names ++ [bytes]

/-- The names from the root to what the path means if no link is on the way. -/
def resolved (path : FilePath) : List (List UInt8) := path.components.foldl enter []

/-- The path means something in the directory, at any depth. -/
def IsBelow (path directory : FilePath) : Prop :=
  directory.resolved <+: path.resolved ∧ path.resolved ≠ directory.resolved

instance (path directory : FilePath) : Decidable (IsBelow path directory) :=
  inferInstanceAs (Decidable (_ ∧ _))

end FilePath

/-- A way from one directory: some steps up, or all the way to the root, and then down by names. -/
structure Route where
  up : Option Nat
  down : List (List UInt8)
  deriving DecidableEq, Repr

namespace Route

variable {route : Route} {names : List (List UInt8)} {path part : FilePath}

def here : Route := ⟨some 0, []⟩

def fromRoot : Route := ⟨none, []⟩

/-- One component further. A step up takes back the last name, if the way has gone down by one. -/
def step (route : Route) : FilePath.Component → Route
  | .parent =>
    if route.down = [] then { route with up := route.up.map (· + 1) }
    else { route with down := route.down.dropLast }
  | .name bytes => { route with down := route.down ++ [bytes] }

/-- One part of a path further. An absolute one starts over. -/
def follow (route : Route) (part : FilePath) : Route :=
  part.components.foldl step (if part.isAbsolute then fromRoot else route)

/-- What the way keeps of the names of the directory where it starts. -/
def kept (route : Route) (names : List (List UInt8)) : List (List UInt8) :=
  match route.up with
  | none => []
  | some n => names.take (names.length - n)

/-- What the way leaves of these names. -/
def left (route : Route) (names : List (List UInt8)) : List (List UInt8) :=
  match route.up with
  | none => names
  | some n => names.drop (names.length - n)

/-- Where the way ends. -/
def reach (route : Route) (names : List (List UInt8)) : List (List UInt8) := route.kept names ++ route.down

theorem kept_append_left (route : Route) (names : List (List UInt8)) :
    route.kept names ++ route.left names = names := by
  unfold kept left
  split
  · rfl
  · exact List.take_append_drop ..

theorem kept_up (route : Route) (names : List (List UInt8)) :
    kept { route with up := route.up.map (· + 1) } names = (route.kept names).dropLast := by
  obtain ⟨up, down⟩ := route
  cases up with
  | none => rfl
  | some n =>
    simp only [kept, Option.map_some, List.dropLast_eq_take, List.length_take, List.take_take]
    congr 1
    omega

theorem reach_step (route : Route) (component : FilePath.Component) (names : List (List UInt8)) :
    (route.step component).reach names = FilePath.enter (route.reach names) component := by
  cases component with
  | name bytes => exact (List.append_assoc ..).symm
  | parent =>
    by_cases empty : route.down = []
    · have above := route.kept_up names
      rw [empty] at above
      simp only [step, empty, if_true, reach, above, List.append_nil, FilePath.enter]
    · rw [step, if_neg empty]
      exact (List.dropLast_append_of_ne_nil empty).symm

theorem reach_foldl_step (route : Route) (components : List FilePath.Component) (names : List (List UInt8)) :
    (components.foldl step route).reach names = components.foldl FilePath.enter (route.reach names) := by
  induction components generalizing route with
  | nil => rfl
  | cons component components ih => rw [List.foldl_cons, ih, reach_step, List.foldl_cons]

/-- What is appended to a path goes on from where the path ends. -/
theorem reach_follow (absolute : path.isAbsolute = true) (ends : path.resolved = route.reach names)
    (part : FilePath) :
    (path.push part).isAbsolute = true ∧ (path.push part).resolved = (route.follow part).reach names := by
  unfold follow
  rw [reach_foldl_step]
  cases rooted : part.isAbsolute with
  | true =>
    have replaced : path.push part = part := by rw [FilePath.push, if_pos rooted]
    rw [replaced]
    exact ⟨rooted, rfl⟩
  | false =>
    refine ⟨FilePath.isAbsolute_push absolute rooted, ?_⟩
    rw [FilePath.resolved, FilePath.components_push absolute rooted, List.foldl_append, ← FilePath.resolved, ends]
    rfl

theorem reach_foldl_follow (absolute : path.isAbsolute = true) (ends : path.resolved = route.reach names)
    (parts : List FilePath) :
    (parts.foldl FilePath.push path).resolved = (parts.foldl follow route).reach names := by
  induction parts generalizing path route with
  | nil => exact ends
  | cons part parts ih =>
    obtain ⟨still, further⟩ := reach_follow absolute ends part
    exact ih still further

/-- The way ends below its start exactly if it goes down again by all names that it has left, and further. -/
theorem prefix_reach_iff :
    (names <+: route.reach names ∧ route.reach names ≠ names) ↔
      route.left names <+: route.down ∧ route.down ≠ route.left names := by
  have inside : route.kept names ++ route.left names <+: route.reach names ↔ route.left names <+: route.down :=
    List.prefix_append_right_inj _
  have same : route.reach names = route.kept names ++ route.left names ↔ route.down = route.left names :=
    List.append_right_inj _
  rw [kept_append_left] at inside same
  exact and_congr inside (not_congr same)

theorem left_of_up (level : route.up = some 0) (names : List (List UInt8)) : route.left names = [] := by
  simp [left, level]

/-- A way that has left its start cannot come back to two directories of different names. -/
theorem up_of_left_prefix (back : ∀ name ∈ [[0x61], [0x62]], route.left [name] <+: route.down) :
    route.up = some 0 := by
  obtain ⟨up, down⟩ := route
  by_contra leaves
  have whole (name : List UInt8) : left ⟨up, down⟩ [name] = [name] := by
    unfold left
    split
    · rfl
    · next n steps =>
      cases n with
      | zero => exact absurd steps leaves
      | succ n => simp
  have starts (name : List UInt8) (listed : name ∈ [[0x61], [0x62]]) : down.head? = some name := by
    obtain ⟨more, rfl⟩ := whole name ▸ back name listed
    rfl
  have same := (starts [0x61] (by simp)).symm.trans (starts [0x62] (by simp))
  exact absurd same (by decide)

end Route

namespace ClassDirectory

variable {directory : ClassDirectory} {fqcn : String} {candidate : Candidate}

/-- The parts that the path of a class has behind the directory: a folder for each part of the name but the
last, which names the file. -/
def fileParts (directory : ClassDirectory) (fqcn : String) : List FilePath :=
  match directory.inner? (keyOf fqcn) with
  | none => []
  | some rest =>
    let parts := rest.splitOn '\\'
    let file := String.ofList (parts.getLast?.getD rest) ++ "." ++ directory.extension
    (parts.dropLast.map String.ofList ++ [file]).map .ofString

/-- The way from the directory to the file of a class. It depends on the name alone, and on the extension. -/
def route (directory : ClassDirectory) (fqcn : String) : Route :=
  (directory.fileParts fqcn).foldl Route.follow .here

theorem exists_inner_of_candidate (found : directory.candidate fqcn = .ok candidate) :
    ∃ rest, directory.inner? (keyOf fqcn) = some rest := by
  unfold ClassDirectory.candidate at found
  cases inner : directory.inner? (keyOf fqcn) with
  | none =>
    simp only [inner] at found
    cases found
  | some rest => exact ⟨rest, rfl⟩

theorem path_of_candidate (found : directory.candidate fqcn = .ok candidate) :
    candidate.path = (directory.fileParts fqcn).foldl FilePath.push directory.path := by
  obtain ⟨rest, inner⟩ := exists_inner_of_candidate found
  simp only [ClassDirectory.candidate, inner] at found
  rw [← Except.ok.inj found]
  simp only [fileParts, inner, List.foldl_map]

theorem fileParts_ne_nil (found : directory.candidate fqcn = .ok candidate) : directory.fileParts fqcn ≠ [] := by
  obtain ⟨rest, inner⟩ := exists_inner_of_candidate found
  simp [fileParts, inner]

/-- Wherever the directory lies, it has a candidate for the same names. -/
theorem exists_candidate (found : directory.candidate fqcn = .ok candidate) (path : FilePath) :
    ∃ other, { directory with path }.candidate fqcn = .ok other := by
  obtain ⟨rest, inner⟩ := exists_inner_of_candidate found
  have same : { directory with path }.inner? (keyOf fqcn) = some rest := inner
  simp only [ClassDirectory.candidate, same]
  exact ⟨_, rfl⟩

/-- The path of a class leads below the directory if its way goes down again by the names that it has left. -/
theorem isBelow_of_candidate_iff (absolute : directory.path.isAbsolute = true)
    (found : directory.candidate fqcn = .ok candidate) :
    candidate.path.IsBelow directory.path ↔
      (directory.route fqcn).left directory.path.resolved <+: (directory.route fqcn).down ∧
        (directory.route fqcn).down ≠ (directory.route fqcn).left directory.path.resolved := by
  have start : directory.path.resolved = Route.here.reach directory.path.resolved := by
    simp [Route.reach, Route.kept, Route.here]
  have ends := Route.reach_foldl_follow absolute start (directory.fileParts fqcn)
  rw [FilePath.IsBelow, path_of_candidate found, ends]
  exact Route.prefix_reach_iff

/-- A name all of whose parts are plain goes down by them and never up. -/
theorem route_of_names (plain : ∀ part ∈ directory.fileParts fqcn, part.IsName) :
    directory.route fqcn = ⟨some 0, (directory.fileParts fqcn).map (·.bytes)⟩ := by
  have down (parts : List FilePath) (names : ∀ part ∈ parts, part.IsName) (start : Route) :
      parts.foldl Route.follow start = { start with down := start.down ++ parts.map (·.bytes) } := by
    induction parts generalizing start with
    | nil => rw [List.foldl_nil, List.map_nil, List.append_nil]
    | cons part parts ih =>
      obtain ⟨name, names⟩ := List.forall_mem_cons.mp names
      have one : start.follow part = { start with down := start.down ++ [part.bytes] } := by
        rw [Route.follow, FilePath.isAbsolute_of_isName name, FilePath.components_of_isName name]
        rfl
      rw [List.foldl_cons, one, ih names, List.map_cons, List.append_assoc, List.singleton_append]
  exact down _ plain .here

/-- Of the disk, reading a class sees one file. -/
theorem read_of_same_file (found : directory.candidate fqcn = .ok candidate) {disk other : Disk}
    (there : other.isFile candidate.path = disk.isFile candidate.path)
    (content : other.readText candidate.path = disk.readText candidate.path) :
    directory.read other fqcn = directory.read disk fqcn := by
  simp only [read, found, bind, Except.bind, there, content]

/-- The path of a class leads below the directory of its namespace exactly if its way, with all steps up and
what starts over at the root, goes down again by all names of the directory that it has left, and further. It
does so wherever the directory lies exactly if it leaves none of them and goes down, as it does where each part
of the name is one plain name. No other file than the one at this path is read for the class. -/
theorem isBelow_candidate_iff (absolute : directory.path.isAbsolute = true)
    (found : directory.candidate fqcn = .ok candidate) :
    let route := directory.route fqcn
    (candidate.path.IsBelow directory.path ↔ route.left directory.path.resolved <+: route.down ∧
        route.down ≠ route.left directory.path.resolved) ∧
      ((∀ (path : FilePath) (other : Candidate), path.isAbsolute = true →
          { directory with path }.candidate fqcn = .ok other → other.path.IsBelow path) ↔
        route.up = some 0 ∧ route.down ≠ []) ∧
      ((∀ part ∈ directory.fileParts fqcn, part.IsName) → route.up = some 0 ∧ route.down ≠ []) ∧
      ∀ disk other : Disk, other.isFile candidate.path = disk.isFile candidate.path →
        other.readText candidate.path = disk.readText candidate.path →
        directory.read other fqcn = directory.read disk fqcn := by
  refine ⟨isBelow_of_candidate_iff absolute found, ⟨fun everywhere => ?_, fun ⟨level, further⟩ => ?_⟩,
    fun plain => ?_, fun disk other there content => read_of_same_file found there content⟩
  · -- Two directories below the root are enough, since their names differ.
    have below (name : List UInt8) (resolved : FilePath.resolved ⟨FilePath.separator :: name⟩ = [name]) :
        (directory.route fqcn).left [name] <+: (directory.route fqcn).down ∧
          (directory.route fqcn).down ≠ (directory.route fqcn).left [name] := by
      obtain ⟨other, placed⟩ := exists_candidate found ⟨FilePath.separator :: name⟩
      have inside := everywhere _ other rfl placed
      rw [isBelow_of_candidate_iff rfl placed, resolved] at inside
      exact inside
    have first := below [0x61] (by decide)
    have level : (directory.route fqcn).up = some 0 := by
      refine Route.up_of_left_prefix fun name listed => (below name ?_).1
      revert name
      decide
    exact ⟨level, Route.left_of_up level [[0x61]] ▸ first.2⟩
  · intro path other there placed
    refine (isBelow_of_candidate_iff (by exact there) placed).mpr ?_
    have left : (directory.route fqcn).left path.resolved = [] := Route.left_of_up level _
    exact ⟨left ▸ List.nil_prefix, left ▸ further⟩
  · rw [route_of_names plain]
    exact ⟨rfl, fun none => fileParts_ne_nil found (List.map_eq_nil_iff.mp none)⟩

/-- A directory whose classes lie in the folder `src` of a site. -/
def siteDirectory : ClassDirectory := .make "Acme" (.ofString "/site/src")

/-- The path of this name goes up once and comes back, since the directory happens to have the name `src`. -/
theorem isBelow_candidate_iff_return :
    let returning := "Acme\\..\\src\\Pump"
    siteDirectory.path.isAbsolute = true ∧
      siteDirectory.candidate returning = .ok ⟨.ofString "/site/src/../src/Pump.php", "Acme\\..\\src"⟩ ∧
      siteDirectory.route returning =
        ⟨some 1, [Text.Utf8.encode "src".toList, Text.Utf8.encode "Pump.php".toList]⟩ ∧
      (FilePath.ofString "/site/src/../src/Pump.php").IsBelow siteDirectory.path := by
  have absolute : siteDirectory.path.isAbsolute = true := by decide +kernel
  have found : siteDirectory.candidate "Acme\\..\\src\\Pump" =
      .ok ⟨.ofString "/site/src/../src/Pump.php", "Acme\\..\\src"⟩ := by decide +kernel
  exact ⟨absolute, found, by decide +kernel, (isBelow_candidate_iff absolute found).1.mpr (by decide +kernel)⟩

/-- A file beside the folder of the classes, and nothing in the folder. -/
def besideDisk : Disk :=
  ⟨.directory [(Text.Utf8.encode "site".toList, .directory
    [(Text.Utf8.encode "src".toList, .directory []),
      (Text.Utf8.encode "Secret.php".toList,
        .file (Text.Utf8.encode "<?php\nnamespace Acme\\..;\nclass Secret \x7b\x7d\n".toList))])]⟩

/-- A name that steps up from the directory loads a class from the file beside it. -/
theorem candidate_steps_up :
    siteDirectory.candidate "Acme\\..\\Secret" = .ok ⟨.ofString "/site/src/../Secret.php", "Acme\\.."⟩ ∧
      ¬(FilePath.ofString "/site/src/../Secret.php").IsBelow siteDirectory.path ∧
      (siteDirectory.read besideDisk "Acme\\..\\Secret").toOption.map (·.uri) =
        some (.ofPath (.ofString "/site/src/../Secret.php")) := by
  decide +kernel

end ClassDirectory

end FusionAtlas
