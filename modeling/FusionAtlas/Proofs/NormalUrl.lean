import FusionAtlas.Proofs.UrlParts

/-!
Urls in normal form. Every url that is read is in normal form, and a url in normal form is read back from
how it is written, if its host is one at all. What stands in the way are dots behind a drive of a `file`
url and a drive behind its host. Main statements: `Url.isNormal_parse?` and `Url.parse?_text`.
-/

set_option autoImplicit false
set_option relaxedAutoImplicit false

namespace FusionAtlas.Url

open Text.Percent (Kept codeCharacters)

variable {url found : Url} {scheme text rest path : List Char} {cls : SchemeClass}
  {segments : List (List Char)} {query fragment : Option (List Char)} {host : Option Host} {c : Char}

/-- A url as urls are read, one constructor for each form. -/
inductive IsNormal : Url → Prop
  | file {host : Option Host} {segments : List (List Char)} {query fragment : Option (List Char)}
      (hosted : ∀ h ∈ host, h.IsNormal .file ∧ h ≠ .domain "localhost".toList)
      (written : Written .file segments) (divided : segments ≠ [])
      (start : dropEmptyStart segments = segments) (tail : IsTail .file query fragment) :
      IsNormal ⟨"file".toList, some ⟨[], host, none⟩, .segments segments, query, fragment⟩
  | server {scheme : List Char} {authority : Authority} {segments : List (List Char)}
      {query fragment : Option (List Char)} (named : IsScheme scheme)
      (known : schemeClass scheme ≠ .file) (serves : authority.IsNormal scheme)
      (written : Written (schemeClass scheme) segments)
      (divided : schemeClass scheme ≠ .other → segments ≠ [])
      (tail : IsTail (schemeClass scheme) query fragment) :
      IsNormal ⟨scheme, some authority, .segments segments, query, fragment⟩
  | bare {scheme : List Char} {segments : List (List Char)} {query fragment : Option (List Char)}
      (named : IsScheme scheme) (other : schemeClass scheme = .other)
      (written : Written .other segments) (divided : segments ≠ []) (tail : IsTail .other query fragment) :
      IsNormal ⟨scheme, none, .segments segments, query, fragment⟩
  | opaqueText {scheme text : List Char} {query fragment : Option (List Char)} (named : IsScheme scheme)
      (other : schemeClass scheme = .other) (kept : ∀ c ∈ text, Kept isControl c)
      (before : IsBeforeTail text) (noSlash : text.head? ≠ some '/')
      (ends : query = none → fragment = none → EndsInside text) (tail : IsTail .other query fragment) :
      IsNormal ⟨scheme, none, .opaqueText text, query, fragment⟩

/-- A `file` url without dots in its path, and without a drive behind a host. -/
def Settled (url : Url) : Prop :=
  url.scheme = "file".toList →
    (∀ s ∈ url.segments?.getD [], IsUndotted s) ∧
      (url.host?.isSome → ∀ s ∈ (url.segments?.getD []).head?, isDrive s = false)

instance (url : Url) : Decidable url.Settled := inferInstanceAs (Decidable (_ → _))

section Reading

theorem isNormal_fileAt (hosted : ∀ h ∈ host, h.IsNormal .file ∧ h ≠ .domain "localhost".toList)
    (text : List Char) : (fileAt host text).IsNormal := by
  rcases split : splitTail .file text with ⟨path, query, fragment⟩
  obtain ⟨-, tail, -, -⟩ := splitTail_spec split
  obtain ⟨written, divided⟩ : Written .file _ ∧ _ := written_splitOnP path
  simp only [fileAt, split]
  refine .file ?_ ?_ ?_ (dropEmptyStart_dropEmptyStart _) tail
  · split
    · exact fun h none => nomatch none
    · exact hosted
  · exact fun s member => written s (List.mem_reverse.mp (dropEmptyStart_subset _ s member))
  · exact dropEmptyStart_ne_nil (by simpa using divided)

theorem isNormal_file? (read : file? text = some url) : url.IsNormal := by
  have alone : ∀ h ∈ (none : Option Host), h.IsNormal .file ∧ h ≠ .domain "localhost".toList :=
    fun h none => nomatch none
  unfold file? at read
  split at read
  · obtain rfl := Option.some.inj read
    exact isNormal_fileAt alone _
  · split at read
    · obtain rfl := Option.some.inj read
      exact isNormal_fileAt alone _
    · unfold fileBehindSlashes? at read
      simp only at read
      split at read
      · obtain rfl := Option.some.inj read
        exact isNormal_fileAt alone _
      · split at read
        · obtain rfl := Option.some.inj read
          exact isNormal_fileAt alone _
        · obtain ⟨host, hosted, rfl⟩ := Option.map_eq_some_iff.mp read
          split
          · exact isNormal_fileAt alone _
          · rename_i other
            refine isNormal_fileAt (fun h member => ?_) _
            obtain rfl := Option.some.inj member
            exact ⟨isNormal_domainHost? (by decide) hosted, other⟩

theorem segmentsOf_spec (cls : SchemeClass) (path : List Char) :
    Written cls (segmentsOf cls path) ∧ segmentsOf cls path ≠ [] := by
  obtain ⟨written, divided⟩ : Written cls _ ∧ _ := written_splitOnP path
  exact ⟨fun s member => written s (List.mem_reverse.mp member), by simpa [segmentsOf] using divided⟩

/-- Escaping a text that ends inside leaves a text that does. -/
theorem endsInside_encode {escapes : Char → Bool} (ends : EndsInside text) :
    EndsInside (Text.Percent.encode escapes text) := by
  intro c last
  cases final : text.getLast? with
  | none =>
    rw [List.getLast?_eq_none_iff.mp final] at last
    cases last
  | some d =>
    have inner := ends d final
    obtain ⟨front, rfl⟩ := List.getLast?_eq_some_iff.mp final
    have single : Text.Percent.encode escapes (front ++ [d]) =
        Text.Percent.encode escapes front ++ Text.Percent.encode escapes [d] := by
      rw [Text.Percent.encode, Text.Utf8.encode_append, Text.Percent.encodeBytes, List.flatMap_append]
      rfl
    have nonempty : Text.Percent.encode escapes [d] ≠ [] := by
      intro empty
      exact absurd (Text.Percent.encode_eq_nil empty) (List.cons_ne_nil _ _)
    rw [single, List.getLast?_append_of_ne_nil _ nonempty] at last
    rcases Text.Percent.mem_encode (List.mem_of_getLast? last) with ⟨same, -⟩ | code
    · rwa [List.mem_singleton.mp same]
    · have all : ∀ c ∈ codeCharacters, 0x20 < c.toNat := by decide
      exact all c code

theorem endsInside_withoutIgnored (ends : EndsInside text) : EndsInside (withoutIgnored text) := by
  intro c last
  cases final : text.getLast? with
  | none =>
    rw [List.getLast?_eq_none_iff.mp final] at last
    cases last
  | some d =>
    have inner := ends d final
    obtain ⟨front, rfl⟩ := List.getLast?_eq_some_iff.mp final
    have kept : withoutIgnored (front ++ [d]) = withoutIgnored front ++ [d] := by
      rw [withoutIgnored, List.filter_append, List.filter_cons_of_pos (by simp [isIgnored_of_inner inner])]
      rfl
    rw [kept, List.getLast?_concat] at last
    rwa [← Option.some.inj last]

theorem isNormal_opaque (named : IsScheme scheme) (other : schemeClass scheme = .other)
    (ends : EndsInside text) (split : splitTail .other text = (path, query, fragment))
    (noSlash : ∀ more, path ≠ '/' :: more) :
    IsNormal ⟨scheme, none, .opaqueText (Text.Percent.encode isControl path), query, fragment⟩ := by
  obtain ⟨before, tail, whole, -⟩ := splitTail_spec split
  have codes : ∀ c ∈ codeCharacters, (c != '?' && c != '#') = true := by decide
  refine .opaqueText named other ?_ ?_ ?_ ?_ tail
  · exact fun c member => Text.Percent.kept_of_mem_encode (by decide +kernel) member
  · intro c member
    rcases Text.Percent.mem_encode member with ⟨listed, -⟩ | code
    · exact before c listed
    · exact codes c code
  · cases path with
    | nil => exact fun none => nomatch none
    | cons d path =>
      intro first
      rcases Text.Percent.head?_encode_cons isControl d path with same | percent
      · rw [same] at first
        exact noSlash path (by rw [Option.some.inj first])
      · rw [percent] at first
        exact absurd (Option.some.inj first) (by decide)
  · intro noQuery noFragment
    rw [whole noQuery noFragment]
    exact endsInside_encode ends

theorem other_of_ne (known : cls ≠ .file) (unknown : cls ≠ .wellKnown) : cls = .other := by
  cases cls with
  | file => exact absurd rfl known
  | wellKnown => exact absurd rfl unknown
  | other => rfl

/-- What is read behind a scheme other than `file` is in normal form. -/
theorem isNormal_other? (named : IsScheme scheme) (known : schemeClass scheme ≠ .file)
    (ends : EndsInside text) (read : other? scheme (schemeClass scheme) text = some url) :
    url.IsNormal := by
  unfold other? at read
  simp only at read
  split at read
  · rename_i rest _
    simp only [Option.bind_eq_bind, Option.bind_eq_some_iff] at read
    obtain ⟨⟨authority, more⟩, served, read⟩ := read
    have serves := authority?_spec known served
    rcases split : splitTail (schemeClass scheme) (more ++ rest.drop
      (rest.takeWhile fun c => !endsAuthority (schemeClass scheme) c).length) with ⟨path, query, fragment⟩
    obtain ⟨-, tail, -, -⟩ := splitTail_spec split
    simp only [split] at read
    obtain rfl := Option.some.inj read
    obtain ⟨written, divided⟩ := segmentsOf_spec (schemeClass scheme) (dropSlash (schemeClass scheme) path)
    refine .server named known serves ?_ ?_ tail
    · split
      · exact List.forall_mem_nil _
      · exact written
    · intro unlike
      rw [if_neg (fun none => unlike none.1)]
      exact divided
  · rename_i unlike
    have other : schemeClass scheme = .other := by
      refine other_of_ne known fun wellKnown => ?_
      rw [if_pos wellKnown] at unlike
      cases unlike
    rcases split : splitTail (schemeClass scheme) text with ⟨path, query, fragment⟩
    simp only [split] at read
    rw [other] at split
    split at read
    · rename_i more
      obtain rfl := Option.some.inj read
      obtain ⟨-, tail, -, -⟩ := splitTail_spec split
      rw [other]
      obtain ⟨written, divided⟩ := segmentsOf_spec .other more
      exact .bare named other written divided tail
    · rename_i noSlash
      obtain rfl := Option.some.inj read
      exact isNormal_opaque named other ends split noSlash

/-- Every url that is read is in normal form. -/
theorem isNormal_parse? (read : parse? text = some url) : url.IsNormal := by
  unfold parse? at read
  split at read
  · cases read
  · rename_i scheme rest found
    obtain ⟨named, written, whole⟩ := scheme?_spec found
    have ends : EndsInside rest := by
      intro c last
      refine endsInside_trimmed text c ?_
      have nonempty : rest ≠ [] := by
        rintro rfl
        cases last
      rw [whole, List.getLast?_append_of_ne_nil _ (List.cons_ne_nil _ _), List.getLast?_cons_of_ne_nil nonempty]
      exact last
    split at read
    · exact isNormal_file? read
    · rename_i known
      exact isNormal_other? named known (endsInside_withoutIgnored ends) read

end Reading

section Writing

variable {first : List Char} {authority : Authority} {more : List Char}

/-- A url is its scheme, a colon, and its other parts as they are written. -/
theorem text_eq (url : Url) :
    url.text = url.scheme ++ ':' :: ((url.authority.map Authority.text).getD [] ++
      (pathText url.authority url.path ++ tailText url.query url.fragment)) := by
  simp only [text, tailText, List.append_assoc, List.cons_append]

theorem mem_text_of_isSegment (written : ∀ s ∈ segments, IsSegment cls s) (member : c ∈ segmentsText segments) :
    c = '/' ∨ Kept escapedInPath c := by
  obtain ⟨s, listed, inside⟩ := List.mem_flatMap.mp member
  rcases List.mem_cons.mp inside with rfl | held
  · exact Or.inl rfl
  · exact Or.inr (written s listed c held).1

theorem isBeforeTail_segmentsText (written : ∀ s ∈ segments, IsSegment cls s) :
    IsBeforeTail (segmentsText segments) := by
  intro c member
  rcases mem_text_of_isSegment written member with rfl | ⟨ascii, kept⟩
  · decide
  · exact Text.forall_ascii (p := fun c => escapedInPath c = false → (c != '?' && c != '#') = true)
      (by decide +kernel) ascii kept

theorem isBeforeTail_of_isSegment (written : IsSegment cls first) : IsBeforeTail first :=
  fun c member => isBeforeTail_segmentsText (List.forall_mem_singleton.mpr written) c (by
    simp [segmentsText, member])

theorem inner_segmentsText (written : ∀ s ∈ segments, IsSegment cls s) :
    ∀ c ∈ segmentsText segments, 0x20 < c.toNat := by
  intro c member
  rcases mem_text_of_isSegment written member with rfl | kept
  · decide
  · exact inner_of_escapedInPath kept.2

theorem behindSlash?_slash (cls : SchemeClass) (text : List Char) :
    behindSlash? cls ('/' :: text) = some text := by
  have slash : isSlash cls '/' = true := by cases cls <;> decide
  have kept : ('/' :: text).dropWhile isIgnored = '/' :: text := List.dropWhile_cons_of_neg (by decide)
  simp only [behindSlash?, kept, slash, if_true]

/-- A `file` url from what is passed in its path; on a drive it has no host. -/
def ofPassed (host : Option Host) (passed : Passed) (query fragment : Option (List Char)) : Url :=
  ⟨"file".toList, some ⟨[], if passed.onDrive then none else host, none⟩,
    .segments (dropEmptyStart passed.above.reverse), query, fragment⟩

theorem fileAt_written (host : Option Host) (written : ∀ s ∈ first :: segments, IsSegment .file s)
    (tail : IsTail .file query fragment) :
    fileAt host (first ++ segmentsText segments ++ tailText query fragment) =
      ofPassed host (resolve .file .nothing (first :: segments)) query fragment := by
  obtain ⟨here, others⟩ := List.forall_mem_cons.mp written
  have before : IsBeforeTail (first ++ segmentsText segments) :=
    List.forall_mem_append.mpr ⟨isBeforeTail_of_isSegment here, isBeforeTail_segmentsText others⟩
  simp only [fileAt, ofPassed, splitTail_append before tail, splitOnP_append_segmentsText here others]

/-- No host is written as a drive. -/
theorem isDrive_text {host : Host} (normal : host.IsNormal .file) : isDrive host.text = false := by
  have marks (text : List Char) (colon : ':' ∉ text) (bar : '|' ∉ text) : isDrive text = false := by
    unfold isDrive
    split
    · rename_i letter mark
      have noColon : mark ≠ ':' := by
        rintro rfl
        exact colon (by simp)
      have noBar : mark ≠ '|' := by
        rintro rfl
        exact bar (by simp)
      simp [noColon, noBar]
    · rfl
  cases host with
  | domain name =>
    have allowed : ∀ c ∈ name, forbiddenInDomain c = false := normal.2.2.1
    exact marks name (not_mem_of_forbidden allowed (by decide)) (not_mem_of_forbidden allowed (by decide))
  | ipv4 address =>
    exact marks _ (not_mem_ipv4 (by decide) (by decide) address)
      (not_mem_ipv4 (by decide) (by decide) address)
  | ipv6 groups =>
    have opens := text_ipv6 groups
    rw [opens]
    unfold isDrive
    split
    · rename_i letter mark spelled
      rw [← (List.cons.inj spelled).1]
      rfl
    · rfl

/-- An authority ends where the path, the query or the fragment is written. -/
theorem takeWhile_authority {front : List Char} (inside : ∀ c ∈ front, standsInAuthority c = true) :
    (front ++ (segmentsText segments ++ tailText query fragment)).takeWhile
      (fun c => !endsAuthority cls c) = front := by
  have kept : ∀ c ∈ front, (!endsAuthority cls c) = true := by
    intro c member
    obtain ⟨-, slash, backslash, question, hash⟩ := standsInAuthority_spec (inside c member)
    simp [endsAuthority, slash, backslash, question, hash]
  have marks : ∀ c ∈ "/?#".toList, endsAuthority cls c = true := by cases cls <;> decide
  have ends (c : Char) (behind : List Char) (mark : c ∈ "/?#".toList) :
      (front ++ c :: behind).takeWhile (fun c => !endsAuthority cls c) = front := by
    rw [List.takeWhile_append_of_pos kept, List.takeWhile_cons_of_neg (by simp [marks c mark]),
      List.append_nil]
  cases segments with
  | cons segment segments => exact ends '/' _ (by decide)
  | nil =>
    cases query with
    | some q => exact ends '?' _ (by decide)
    | none =>
      cases fragment with
      | some f => exact ends '#' _ (by decide)
      | none =>
        have alone : front ++ (segmentsText [] ++ tailText none none) = front := List.append_nil front
        rw [alone, List.takeWhile_eq_self_iff.mpr kept]

theorem standsInAuthority_hostText (hosted : ∀ h ∈ host, h.IsNormal cls) :
    ∀ c ∈ hostText host, standsInAuthority c = true :=
  fun _ member => standsInAuthority_of_standsInHost (standsInHost_of_mem_hostText hosted member)

theorem eq_none_of_hostText (hosted : ∀ h ∈ host, h.IsNormal cls) (empty : hostText host = []) :
    host = none := by
  cases host with
  | none => rfl
  | some host => exact absurd empty (text_ne_nil (hosted host rfl))

/-- The segments that are passed where a written path is read: the slash behind a host does not count. -/
def passedSegments (host : Option Host) (segments : List (List Char)) : List (List Char) :=
  if host.isSome then segments else [] :: segments

theorem isSegment_passedSegments (host : Option Host) (written : ∀ s ∈ segments, IsSegment .file s) :
    ∀ s ∈ passedSegments host segments, IsSegment .file s := by
  unfold passedSegments
  split
  · exact written
  · exact List.forall_mem_cons.mpr ⟨isSegment_nil .file, written⟩

/-- What a written `file` url is read as behind its scheme, if its host is one at all. -/
theorem file?_text (hosted : ∀ h ∈ host, h.IsNormal .file ∧ h ≠ .domain "localhost".toList)
    (written : ∀ s ∈ segments, IsSegment .file s) (divided : segments ≠ [])
    (tail : IsTail .file query fragment)
    (read : file? ("//".toList ++ (hostText host ++ (segmentsText segments ++ tailText query fragment))) =
      some found) :
    found = ofPassed host (resolve .file .nothing (passedSegments host segments)) query fragment := by
  have slashes (rest : List Char) : file? ("//".toList ++ rest) = fileBehindSlashes? rest := by
    have first : behindSlash? .file ("//".toList ++ rest) = some ('/' :: rest) := behindSlash?_slash _ _
    rw [file?, first]
    simp only [behindSlash?_slash]
  rw [slashes] at read
  cases host with
  | none =>
    have whole : hostText none ++ (segmentsText segments ++ tailText query fragment) =
        segmentsText segments ++ tailText query fragment := rfl
    have front : ([] ++ (segmentsText segments ++ tailText query fragment)).takeWhile
        (fun c => !endsAuthority .file c) = [] := takeWhile_authority (List.forall_mem_nil _)
    have started : ∀ s ∈ [] :: segments, IsSegment .file s :=
      List.forall_mem_cons.mpr ⟨isSegment_nil .file, written⟩
    have place := fileAt_written none started tail
    rw [List.nil_append] at front
    rw [whole, fileBehindSlashes?, front] at read
    rw [List.nil_append] at place
    exact (Option.some.inj read).symm.trans place
  | some host =>
    obtain ⟨normal, named⟩ := hosted host rfl
    obtain ⟨first, others, rfl⟩ := List.exists_cons_of_ne_nil divided
    have text : hostText (some host) = host.text := rfl
    have inside := standsInAuthority_hostText fun h member => (hosted h member).1
    rw [text] at inside
    have inner : withoutIgnored host.text = host.text :=
      withoutIgnored_of_inner fun c member => (standsInAuthority_spec (inside c member)).1
    have nonempty : host.text.isEmpty = false := List.isEmpty_eq_false_iff.mpr (text_ne_nil normal)
    have behind : dropSlash .file (segmentsText (first :: others) ++ tailText query fragment) =
        first ++ segmentsText others ++ tailText query fragment :=
      congrArg (Option.getD · _) (behindSlash?_slash .file _)
    rw [text, fileBehindSlashes?, takeWhile_authority inside] at read
    simp only [inner, isDrive_text normal, nonempty, Bool.false_eq_true, if_false, List.drop_left] at read
    obtain ⟨again, same, placed⟩ := Option.map_eq_some_iff.mp read
    obtain rfl := domainHost?_text (by decide) normal same
    rw [if_neg named, behind, fileAt_written (some again) written tail] at placed
    exact placed.symm

/-- Passing written segments that are neither dots nor, behind a host, a drive, gives the same path. -/
theorem ofPassed_passedSegments (written : ∀ s ∈ segments, IsSegment .file s)
    (undotted : ∀ s ∈ segments, IsUndotted s) (divided : segments ≠ [])
    (start : dropEmptyStart segments = segments)
    (undriven : host.isSome → ∀ s ∈ segments.head?, isDrive s = false) :
    ofPassed host (resolve .file .nothing (passedSegments host segments)) query fragment =
      ⟨"file".toList, some ⟨[], host, none⟩, .segments segments, query, fragment⟩ := by
  cases host with
  | none =>
    have passed : resolve .file .nothing ([] :: segments) = ⟨([] :: segments).reverse ++ [], false⟩ := by
      refine resolve_of_isSegment ?_ ?_ fun _ s member => ?_
      · exact List.forall_mem_cons.mpr ⟨isSegment_nil .file, written⟩
      · exact List.forall_mem_cons.mpr ⟨isUndotted_nil, undotted⟩
      · obtain rfl := Option.some.inj member
        rfl
    have dropped : dropEmptyStart ([] :: segments) = segments := by
      obtain ⟨segment, others, rfl⟩ := List.exists_cons_of_ne_nil divided
      exact start
    simp only [ofPassed, passedSegments, Option.isSome_none, Bool.false_eq_true, if_false, passed,
      List.append_nil, List.reverse_reverse, dropped]
  | some host =>
    have passed : resolve .file .nothing segments = ⟨segments.reverse ++ [], false⟩ :=
      resolve_of_isSegment written undotted fun _ => undriven rfl
    simp only [ofPassed, passedSegments, Option.isSome_some, Bool.false_eq_true, if_false, if_true, passed,
      List.append_nil, List.reverse_reverse, start]

/-- The path of a url of another scheme is read back. -/
theorem segmentsOf_written (known : cls ≠ .file) (written : Written cls (first :: segments)) :
    segmentsOf cls (first ++ segmentsText segments) = first :: segments := by
  obtain ⟨here, others⟩ := List.forall_mem_cons.mp fun s member => (written s member).1
  have passed : resolve cls .nothing (first :: segments) = ⟨(first :: segments).reverse ++ [], false⟩ :=
    resolve_of_isSegment (fun s member => (written s member).1) (fun s member => (written s member).2 known)
      fun atFile => absurd atFile (by simp [known])
  rw [segmentsOf, splitOnP_append_segmentsText here others, passed, List.append_nil, List.reverse_reverse]

/-- What stands behind the two slashes of an authority; where a server is implied, any number of slashes
may stand there. -/
theorem behindSlashes_authority (serves : authority.IsNormal scheme) (rest : List Char) :
    (if schemeClass scheme = .wellKnown then
        some ((authority.text ++ rest).dropWhile (isSlash (schemeClass scheme)))
      else Text.afterOpening? "//".toList (authority.text ++ rest)) =
      some (authority.userInfo ++ (hostText authority.host ++ serviceText authority.service) ++ rest) := by
  have place : authority.text ++ rest = '/' :: '/' ::
      (authority.userInfo ++ (hostText authority.host ++ serviceText authority.service) ++ rest) := by
    rw [Authority.text_eq]
    rfl
  rw [place]
  split
  · rename_i wellKnown
    have slash : isSlash (schemeClass scheme) '/' = true := by rw [wellKnown]; decide
    rw [List.dropWhile_cons_of_pos slash, List.dropWhile_cons_of_pos slash]
    have named : authority.userInfo ++ (hostText authority.host ++ serviceText authority.service) ≠ [] := by
      intro empty
      cases hosted : authority.host with
      | none => exact absurd ((serves.alone hosted).1.symm.trans wellKnown) (by decide)
      | some host =>
        rw [hosted] at empty
        exact text_ne_nil (serves.host host hosted)
          (List.append_eq_nil_iff.mp (List.append_eq_nil_iff.mp empty).2).1
    obtain ⟨c, more, spelled⟩ := List.exists_cons_of_ne_nil named
    obtain ⟨-, noSlash, noBackslash, -⟩ := standsInAuthority_spec
      (serves.standsInAuthority c (by rw [spelled]; exact List.mem_cons_self ..))
    rw [spelled, List.cons_append, List.dropWhile_cons_of_neg (by simp [isSlash, noSlash, noBackslash])]
  · rfl

/-- A url with an authority is read back behind its scheme, if its host is one at all. -/
theorem other?_server (known : schemeClass scheme ≠ .file) (serves : authority.IsNormal scheme)
    (written : Written (schemeClass scheme) segments)
    (divided : schemeClass scheme ≠ .other → segments ≠ [])
    (tail : IsTail (schemeClass scheme) query fragment)
    (read : other? scheme (schemeClass scheme)
      (authority.text ++ (segmentsText segments ++ tailText query fragment)) = some found) :
    found = ⟨scheme, some authority, .segments segments, query, fragment⟩ := by
  have segment : ∀ s ∈ segments, IsSegment (schemeClass scheme) s := fun s member => (written s member).1
  have behind : (if schemeClass scheme = .other ∧ segmentsText segments = [] then []
      else segmentsOf (schemeClass scheme) (dropSlash (schemeClass scheme) (segmentsText segments))) =
        segments := by
    cases segments with
    | nil =>
      have other : schemeClass scheme = .other := by
        by_contra unlike
        exact divided unlike rfl
      exact if_pos ⟨other, rfl⟩
    | cons first others =>
      have dropped : dropSlash (schemeClass scheme) (segmentsText (first :: others)) =
          first ++ segmentsText others := congrArg (Option.getD · _) (behindSlash?_slash _ _)
      rw [if_neg (fun none => absurd none.2 (List.cons_ne_nil _ _)), dropped,
        segmentsOf_written known written]
  unfold other? at read
  rw [behindSlashes_authority serves] at read
  simp only [takeWhile_authority serves.standsInAuthority, List.drop_left, Option.bind_eq_bind,
    Option.bind_eq_some_iff] at read
  obtain ⟨⟨again, more⟩, served, read⟩ := read
  obtain ⟨rfl, rfl⟩ := authority?_text known serves served
  simp only [List.nil_append, splitTail_append (isBeforeTail_segmentsText segment) tail, behind] at read
  exact (Option.some.inj read).symm

/-- A path without an authority is written so that it does not seem to have one. -/
theorem pathText_spec (written : Written .other segments) (divided : segments ≠ []) :
    ∃ path, pathText none (.segments segments) = '/' :: path ∧ path.head? ≠ some '/' ∧
      IsBeforeTail path ∧ (∀ c ∈ path, 0x20 < c.toNat) ∧ segmentsOf .other path = segments := by
  obtain ⟨first, others, rfl⟩ := List.exists_cons_of_ne_nil divided
  have segment : ∀ s ∈ first :: others, IsSegment .other s := fun s member => (written s member).1
  obtain ⟨here, behind⟩ := List.forall_mem_cons.mp segment
  by_cases seems : first = [] ∧ others ≠ []
  · obtain ⟨rfl, more⟩ := seems
    obtain ⟨next, rest, rfl⟩ := List.exists_cons_of_ne_nil more
    have dot : IsSegment .other ['.'] := by decide
    -- The dot in front means the directory itself, so nothing is passed with it.
    have passed : resolve .other .nothing (['.'] :: [] :: next :: rest) =
        resolve .other .nothing ([] :: next :: rest) := rfl
    have whole := segmentsOf_written (by decide) written
    rw [segmentsOf, splitOnP_append_segmentsText here behind] at whole
    refine ⟨'.' :: segmentsText ([] :: next :: rest), rfl, by simp, ?_, ?_, ?_⟩
    · exact List.forall_mem_cons.mpr ⟨by decide, isBeforeTail_segmentsText segment⟩
    · exact List.forall_mem_cons.mpr ⟨by decide, inner_segmentsText segment⟩
    · have parts := splitOnP_append_segmentsText dot segment
      rw [segmentsOf, ← List.singleton_append, parts, passed, whole]
  · refine ⟨first ++ segmentsText others, ?_, ?_, ?_, ?_, segmentsOf_written (by decide) written⟩
    · simp only [pathText]
      split
      · rename_i listed
        obtain ⟨rfl, rfl⟩ := List.cons.inj listed
        exact absurd ⟨rfl, List.cons_ne_nil _ _⟩ seems
      · rfl
    · cases first with
      | nil =>
        have alone : others = [] := by
          by_contra more
          exact seems ⟨rfl, more⟩
        rw [alone]
        exact fun none => nomatch none
      | cons c first =>
        intro slash
        obtain rfl := Option.some.inj slash
        exact absurd (here '/' (List.mem_cons_self ..)).2 (by decide)
    · exact List.forall_mem_append.mpr ⟨isBeforeTail_of_isSegment here, isBeforeTail_segmentsText behind⟩
    · exact List.forall_mem_append.mpr ⟨here.inner, inner_segmentsText behind⟩

theorem afterOpening?_slashes (noSlash : text.head? ≠ some '/') :
    Text.afterOpening? "//".toList ('/' :: text) = none := by
  cases text with
  | nil => rfl
  | cons c text =>
    have other : '/' ≠ c := by
      rintro rfl
      exact noSlash rfl
    exact if_neg other

theorem head?_tailText (query fragment : Option (List Char)) :
    (tailText query fragment).head? ≠ some '/' := by
  cases query <;> cases fragment <;> simp [tailText]

/-- A divided path without an authority is read back behind its scheme. -/
theorem other?_bare (other : schemeClass scheme = .other) (written : Written .other segments)
    (divided : segments ≠ []) (tail : IsTail .other query fragment) :
    other? scheme (schemeClass scheme) (pathText none (.segments segments) ++ tailText query fragment) =
      some ⟨scheme, none, .segments segments, query, fragment⟩ := by
  obtain ⟨path, spelled, noSlash, before, -, passed⟩ := pathText_spec written divided
  have front : (path ++ tailText query fragment).head? ≠ some '/' := by
    cases path with
    | nil => exact head?_tailText query fragment
    | cons c path => exact noSlash
  have whole : IsBeforeTail ('/' :: path) := List.forall_mem_cons.mpr ⟨by decide, before⟩
  have split := splitTail_append whole tail
  rw [List.cons_append] at split
  simp only [other?, other, spelled, List.cons_append, reduceCtorEq, if_false, afterOpening?_slashes front,
    split, passed]

/-- An undivided text is read back behind its scheme. -/
theorem other?_opaque (other : schemeClass scheme = .other) (kept : ∀ c ∈ text, Kept isControl c)
    (before : IsBeforeTail text) (noSlash : text.head? ≠ some '/') (tail : IsTail .other query fragment) :
    other? scheme (schemeClass scheme) (text ++ tailText query fragment) =
      some ⟨scheme, none, .opaqueText text, query, fragment⟩ := by
  have front : (text ++ tailText query fragment).head? ≠ some '/' := by
    cases text with
    | nil => exact head?_tailText query fragment
    | cons c text => exact noSlash
  have unopened : Text.afterOpening? "//".toList (text ++ tailText query fragment) = none := by
    cases shown : text ++ tailText query fragment with
    | nil => rfl
    | cons c rest =>
      have unlike : '/' ≠ c := by
        rintro rfl
        rw [shown] at front
        exact front rfl
      exact if_neg unlike
  have escaped : Text.Percent.encode isControl text = text := Text.Percent.encode_of_kept kept
  simp only [other?, other, reduceCtorEq, if_false, unopened, splitTail_append before tail, escaped]
  split
  · exact absurd rfl noSlash
  · rfl

theorem endsInside_append (ends : query = none → fragment = none → EndsInside text)
    (tail : IsTail cls query fragment) : EndsInside (text ++ tailText query fragment) := by
  have behind := endsInside_of_inner (inner_of_isTail tail)
  cases shown : tailText query fragment with
  | nil =>
    rw [List.append_nil]
    refine ends ?_ ?_
    · cases query with
      | none => rfl
      | some q => exact absurd shown (List.cons_ne_nil _ _)
    · cases fragment with
      | none => rfl
      | some f =>
        cases query <;> exact absurd (congrArg List.length shown) (by simp [tailText])
  | cons c rest =>
    intro d last
    rw [List.getLast?_append_of_ne_nil _ (List.cons_ne_nil _ _), ← shown] at last
    exact behind d last

theorem text_file (host : Option Host) (segments : List (List Char)) (query fragment : Option (List Char)) :
    Url.text ⟨"file".toList, some ⟨[], host, none⟩, .segments segments, query, fragment⟩ =
      "file".toList ++ ':' ::
        ("//".toList ++ (hostText host ++ (segmentsText segments ++ tailText query fragment))) := by
  have alone := Authority.text_eq ⟨[], host, none⟩
  simp only [serviceText, Option.map_none, Option.getD_none, List.append_nil, List.nil_append] at alone
  rw [text_eq, Option.map_some, Option.getD_some, alone, List.append_assoc]
  rfl

/-- What a written `file` url is read as, if its host is one at all. -/
theorem parse?_file (hosted : ∀ h ∈ host, h.IsNormal .file ∧ h ≠ .domain "localhost".toList)
    (written : ∀ s ∈ segments, IsSegment .file s) (divided : segments ≠ [])
    (tail : IsTail .file query fragment)
    (read : parse? (Url.text ⟨"file".toList, some ⟨[], host, none⟩, .segments segments, query, fragment⟩) =
      some found) :
    found = ofPassed host (resolve .file .nothing (passedSegments host segments)) query fragment := by
  have inner : ∀ c ∈ "//".toList ++ (hostText host ++ (segmentsText segments ++ tailText query fragment)),
      0x20 < c.toNat := by
    refine List.forall_mem_append.mpr ⟨by decide, List.forall_mem_append.mpr ⟨fun c member => ?_,
      List.forall_mem_append.mpr ⟨inner_segmentsText written, inner_of_isTail tail⟩⟩⟩
    exact (standsInAuthority_spec
      (standsInAuthority_hostText (fun h member => (hosted h member).1) c member)).1
  have cls : schemeClass "file".toList = .file := by decide
  rw [text_file, parse?_append isScheme_file (endsInside_of_inner inner), if_pos cls] at read
  exact file?_text hosted written divided tail read

theorem settled_file_iff (divided : segments ≠ []) :
    Settled ⟨"file".toList, some ⟨[], host, none⟩, .segments segments, query, fragment⟩ ↔
      (∀ s ∈ segments, IsUndotted s) ∧ (host.isSome → ∀ s ∈ segments.head?, isDrive s = false) := by
  have shown : Url.segments? ⟨"file".toList, some ⟨[], host, none⟩, .segments segments, query, fragment⟩ =
      some segments := segments?_of_path rfl divided
  rw [Settled, shown]
  exact ⟨fun settled => settled rfl, fun held _ => held⟩

theorem settled_of_ne (known : schemeClass url.scheme ≠ .file) : url.Settled :=
  fun file => absurd (by rw [file]; decide) known

/-- A url in normal form is read back from how it is written, if its host is one at all. -/
theorem parse?_text (normal : url.IsNormal) (settled : url.Settled) (read : parse? url.text = some found) :
    found = url := by
  cases normal with
  | @file host segments query fragment hosted written divided start tail =>
    have segment : ∀ s ∈ segments, IsSegment .file s := fun s member => (written s member).1
    obtain ⟨undotted, undriven⟩ := (settled_file_iff divided).mp settled
    rw [parse?_file hosted segment divided tail read,
      ofPassed_passedSegments segment undotted divided start undriven]
  | @server scheme authority segments query fragment named known serves written divided tail =>
    have segment : ∀ s ∈ segments, IsSegment (schemeClass scheme) s := fun s member => (written s member).1
    have inner : ∀ c ∈ authority.text ++ (segmentsText segments ++ tailText query fragment),
        0x20 < c.toNat := by
      rw [Authority.text_eq]
      refine List.forall_mem_append.mpr ⟨List.forall_mem_append.mpr ⟨by decide, fun c member => ?_⟩,
        List.forall_mem_append.mpr ⟨inner_segmentsText segment, inner_of_isTail tail⟩⟩
      exact (standsInAuthority_spec (serves.standsInAuthority c member)).1
    have place : ((some authority).map Authority.text).getD [] ++
        (pathText (some authority) (.segments segments) ++ tailText query fragment) =
          authority.text ++ (segmentsText segments ++ tailText query fragment) := rfl
    rw [text_eq, place, parse?_append named (endsInside_of_inner inner), if_neg known,
      withoutIgnored_of_inner inner] at read
    exact other?_server known serves written divided tail read
  | @bare scheme segments query fragment named other written divided tail =>
    obtain ⟨path, spelled, -, -, innerPath, -⟩ := pathText_spec written divided
    have inner : ∀ c ∈ pathText none (.segments segments) ++ tailText query fragment, 0x20 < c.toNat := by
      rw [spelled]
      exact List.forall_mem_append.mpr
        ⟨List.forall_mem_cons.mpr ⟨by decide, innerPath⟩, inner_of_isTail tail⟩
    have place : ((none : Option Authority).map Authority.text).getD [] ++
        (pathText none (.segments segments) ++ tailText query fragment) =
          pathText none (.segments segments) ++ tailText query fragment := rfl
    rw [text_eq, place, parse?_append named (endsInside_of_inner inner), if_neg (by simp [other]),
      withoutIgnored_of_inner inner, other?_bare other written divided tail] at read
    exact (Option.some.inj read).symm
  | @opaqueText scheme text query fragment named other kept before noSlash ends tail =>
    have whole : withoutIgnored (text ++ tailText query fragment) = text ++ tailText query fragment := by
      refine List.filter_eq_self.mpr (List.forall_mem_append.mpr ⟨fun c member => ?_, fun c member => ?_⟩)
      · exact Text.forall_ascii (p := fun c => isControl c = false → (!isIgnored c) = true)
          (by decide +kernel) (kept c member).1 (kept c member).2
      · rw [isIgnored_of_inner (inner_of_isTail tail c member), Bool.not_false]
    have place : ((none : Option Authority).map Authority.text).getD [] ++
        (pathText none (.opaqueText text) ++ tailText query fragment) = text ++ tailText query fragment := rfl
    rw [text_eq, place, parse?_append named (endsInside_append ends tail), if_neg (by simp [other]), whole,
      other?_opaque other kept before noSlash tail] at read
    exact (Option.some.inj read).symm

/-- What is left of segments that are gone through is segments without dots. -/
theorem forall_mem_resolve {passed : List (List Char)} (segment : ∀ s ∈ passed, IsSegment .file s) :
    ∀ s ∈ dropEmptyStart (resolve .file .nothing passed).above.reverse, IsSegment .file s ∧ IsUndotted s := by
  intro s member
  have listed := List.mem_reverse.mp (dropEmptyStart_subset _ s member)
  have before : Written .file Passed.nothing.above := List.forall_mem_nil _
  exact ⟨(written_resolve (fun s member c inside => (segment s member c inside).2) before s listed).1,
    isUndotted_resolve segment (List.forall_mem_nil _) s listed⟩

/-- A url that is written the same when it is read back is settled. -/
theorem settled_of_text_eq (normal : url.IsNormal) (read : parse? url.text = some found)
    (same : found.text = url.text) : url.Settled := by
  cases normal with
  | @file host segments query fragment hosted written divided start tail =>
    have segment : ∀ s ∈ segments, IsSegment .file s := fun s member => (written s member).1
    obtain rfl := parse?_file hosted segment divided tail read
    have passed := isSegment_passedSegments host segment
    have again := forall_mem_resolve passed
    obtain ⟨stack, resolved⟩ : ∃ stack, resolve .file .nothing (passedSegments host segments) = stack :=
      ⟨_, rfl⟩
    rw [resolved] at again
    let left := if stack.onDrive then none else host
    have normal : (∀ h ∈ host, h.IsNormal .file) ∧ ∀ h ∈ left, h.IsNormal .file := by
      refine ⟨fun h member => (hosted h member).1, fun h member => ?_⟩
      unfold left at member
      split at member
      · cases member
      · exact (hosted h member).1
    have behind : hostText left ++ (segmentsText (dropEmptyStart stack.above.reverse) ++
        tailText query fragment) = hostText host ++ (segmentsText segments ++ tailText query fragment) := by
      rw [resolved, ofPassed, text_file, text_file] at same
      exact List.append_cancel_left (List.tail_eq_of_cons_eq (List.append_cancel_left same))
    have hosts : hostText left = hostText host := by
      have front := congrArg (List.takeWhile fun c => !endsAuthority .file c) behind
      rwa [takeWhile_authority (standsInAuthority_hostText normal.2),
        takeWhile_authority (standsInAuthority_hostText normal.1)] at front
    rw [hosts] at behind
    have path : dropEmptyStart stack.above.reverse = segments :=
      segmentsText_injective segment (fun s member => (again s member).1)
        (List.append_cancel_right (List.append_cancel_left behind))
    rw [path] at again
    refine (settled_file_iff divided).mpr ⟨fun s member => (again s member).2, fun named s member => ?_⟩
    by_contra drive
    obtain ⟨first, others, rfl⟩ := List.exists_cons_of_ne_nil divided
    obtain rfl := Option.some.inj member
    -- A drive would take the host away, which is still written.
    have start : passedSegments host (first :: others) = first :: others := if_pos named
    have onDrive : stack.onDrive = true := by
      rw [← resolved, start]
      exact onDrive_of_isDrive (segment first (List.mem_cons_self ..)) (by simpa using drive) others
    have none : host = none := by
      refine eq_none_of_hostText normal.1 (hosts.symm.trans ?_)
      exact congrArg hostText (if_pos onDrive)
    rw [none] at named
    cases named
  | server named known => exact settled_of_ne known
  | bare named other => exact settled_of_ne (by simp [other])
  | opaqueText named other => exact settled_of_ne (by simp [other])

end Writing

end FusionAtlas.Url
