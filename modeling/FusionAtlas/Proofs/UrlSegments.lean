import FusionAtlas.Proofs.UrlScheme

/-!
Segments as they are written in a url. They hold nothing that is escaped and nothing that divides a path,
so a path that is written from segments is divided into them again; and unless they are dots, passing
them resolves nothing.
-/

set_option autoImplicit false
set_option relaxedAutoImplicit false

namespace FusionAtlas.Url

open Text.Percent (Kept codeCharacters)

variable {cls : SchemeClass} {c : Char} {segment : List Char} {segments : List (List Char)}

theorem inner_of_escapedInFragment (kept : escapedInFragment c = false) : 0x20 < c.toNat := by
  by_contra outer
  exact outer (Text.forall_ascii (p := fun c => escapedInFragment c = false → 0x20 < c.toNat)
    (by decide +kernel) (by omega) kept)

theorem inner_of_escapedInPath (kept : escapedInPath c = false) : 0x20 < c.toNat := by
  rw [escapedInPath, Bool.or_eq_false_iff] at kept
  exact inner_of_escapedInFragment kept.1

/-- A text is split at its last mark. -/
theorem splitLast?_append {mark : Char} (front : List Char) {behind : List Char} (absent : mark ∉ behind) :
    splitLast? mark (front ++ mark :: behind) = some (front, behind) := by
  have shorter : ¬behind.length = (front ++ mark :: behind).length := by
    rw [List.length_append, List.length_cons]
    omega
  have before : (front ++ mark :: behind).take
      ((front ++ mark :: behind).length - behind.length - 1) = front := by
    rw [List.length_append, List.length_cons]
    exact List.take_left' (by omega)
  rw [splitLast?, Text.afterLast_append_cons front absent, if_neg shorter, before]

theorem splitLast?_of_not_mem {mark : Char} {text : List Char} (absent : mark ∉ text) :
    splitLast? mark text = none := by
  rw [splitLast?, Text.afterLast_of_not_mem absent, if_pos rfl]

/-- A segment in the characters that stand for themselves in a path of a scheme of the given kind. -/
def IsSegment (cls : SchemeClass) (segment : List Char) : Prop :=
  ∀ c ∈ segment, Kept escapedInPath c ∧ isSlash cls c = false

/-- A segment that does not mean a directory or its parent. -/
def IsUndotted (segment : List Char) : Prop := isDots 1 segment = false ∧ isDots 2 segment = false

instance (cls : SchemeClass) (segment : List Char) : Decidable (IsSegment cls segment) :=
  inferInstanceAs (Decidable (∀ c ∈ segment, _))

instance (segment : List Char) : Decidable (IsUndotted segment) :=
  inferInstanceAs (Decidable (_ ∧ _))

theorem isSegment_nil (cls : SchemeClass) : IsSegment cls [] := List.forall_mem_nil _

theorem isUndotted_nil : IsUndotted [] := ⟨rfl, rfl⟩

theorem IsSegment.inner (held : IsSegment cls segment) : ∀ c ∈ segment, 0x20 < c.toNat :=
  fun c member => inner_of_escapedInPath (held c member).1.2

theorem IsSegment.encode (held : IsSegment cls segment) :
    Text.Percent.encode escapedInPath segment = segment :=
  Text.Percent.encode_of_kept fun c member => (held c member).1

/-- No tab and no line end parts a drive in a written segment. -/
theorem IsSegment.partedDrive? (held : IsSegment cls segment) : partedDrive? segment = none := by
  have inner := held.inner
  rw [Url.partedDrive?, dropWhile_isIgnored_of_inner inner]
  cases segment with
  | nil => rfl
  | cons letter more =>
    have behind : ∀ c ∈ more, 0x20 < c.toNat :=
      fun c member => inner c (List.mem_cons_of_mem letter member)
    simp only
    rw [dropWhile_isIgnored_of_inner behind]
    split
    · rename_i rest
      have next : rest.head?.any isIgnored = false := by
        cases rest with
        | nil => rfl
        | cons c rest => exact isIgnored_of_inner (behind c (by simp))
      simp [next]
    · rfl

/-- Splitting the text of segments behind a first one gives all of them. -/
theorem splitOnP_append_segmentsText (first : IsSegment cls segment)
    (held : ∀ s ∈ segments, IsSegment cls s) :
    (segment ++ segmentsText segments).splitOnP (isSlash cls) = segment :: segments := by
  have slash : isSlash cls '/' = true := by cases cls <;> decide
  induction segments generalizing segment with
  | nil =>
    rw [segmentsText, List.flatMap_nil, List.append_nil]
    exact List.splitOnP_eq_singleton fun c member => (first c member).2
  | cons next segments ih =>
    have others : ∀ s ∈ segments, IsSegment cls s :=
      fun s member => held s (List.mem_cons_of_mem next member)
    have behind := ih (held next (List.mem_cons_self ..)) others
    rw [segmentsText, List.flatMap_cons, List.cons_append, ← segmentsText]
    rw [List.splitOnP_append_cons_of_forall_mem (fun c member => (first c member).2) '/' slash, behind]

/-- The segments of a path are read off how they are written. -/
theorem segmentsText_injective {others : List (List Char)} (held : ∀ s ∈ segments, IsSegment cls s)
    (heldOthers : ∀ s ∈ others, IsSegment cls s) (same : segmentsText others = segmentsText segments) :
    others = segments := by
  have read := splitOnP_append_segmentsText (isSegment_nil cls) held
  rw [← same, splitOnP_append_segmentsText (isSegment_nil cls) heldOthers] at read
  exact List.tail_eq_of_cons_eq read

/-- Passing a written segment puts it on top, unless it is dots, or a drive at the start. -/
theorem enter_of_isSegment {passed : Passed} (atEnd : Bool) (held : IsSegment cls segment)
    (undotted : IsUndotted segment)
    (start : (cls == .file && passed.above.isEmpty) = true → isDrive segment = false) :
    passed.enter cls segment atEnd = passed.push segment := by
  have drive : (cls == .file && passed.above.isEmpty && isDrive segment) = false := by
    cases atStart : cls == .file && passed.above.isEmpty with
    | false => rfl
    | true => exact start atStart
  simp only [Passed.enter, withoutIgnored_of_inner held.inner, held.encode, held.partedDrive?, ite_self,
    undotted.1, undotted.2, drive, Bool.false_eq_true, if_false]

/-- Passing written segments puts all of them on top. -/
theorem resolve_of_isSegment {passed : Passed} (held : ∀ s ∈ segments, IsSegment cls s)
    (undotted : ∀ s ∈ segments, IsUndotted s)
    (start : (cls == .file && passed.above.isEmpty) = true → ∀ s ∈ segments.head?, isDrive s = false) :
    resolve cls passed segments = ⟨segments.reverse ++ passed.above, passed.onDrive⟩ := by
  induction segments generalizing passed with
  | nil => rfl
  | cons segment segments ih =>
    have first := enter_of_isSegment segments.isEmpty (held segment (List.mem_cons_self ..))
      (undotted segment (List.mem_cons_self ..)) fun atStart => start atStart segment rfl
    have others : resolve cls (passed.push segment) segments =
        ⟨segments.reverse ++ (passed.push segment).above, (passed.push segment).onDrive⟩ :=
      ih (fun s member => held s (List.mem_cons_of_mem segment member))
        (fun s member => undotted s (List.mem_cons_of_mem segment member))
        (fun atStart => by simp [Passed.push] at atStart)
    rw [resolve, first, others, List.reverse_cons, List.append_assoc]
    rfl

theorem kept_of_mem_codes (code : c ∈ codeCharacters) : Kept escapedInPath c := by
  have all : ∀ c ∈ codeCharacters, Kept escapedInPath c := by decide +kernel
  exact all c code

theorem isSlash_of_mem_codes (code : c ∈ codeCharacters) : isSlash cls c = false := by
  have all : ∀ c ∈ codeCharacters, c ≠ '/' ∧ c ≠ '\\' := by decide
  obtain ⟨slash, backslash⟩ := all c code
  simp [isSlash, slash, backslash]

/-- What lies between the slashes of a path is escaped to a segment. -/
theorem isSegment_encode (inside : ∀ c ∈ segment, isSlash cls c = false) :
    IsSegment cls (Text.Percent.encode escapedInPath segment) := by
  intro c member
  refine ⟨Text.Percent.kept_of_mem_encode (fun _ => kept_of_mem_codes) member, ?_⟩
  rcases Text.Percent.mem_encode member with ⟨listed, -⟩ | code
  · exact inside c listed
  · exact isSlash_of_mem_codes code

theorem eq_of_isDrive (drive : isDrive segment = true) :
    ∃ letter mark : Char, letter.isAlpha = true ∧ segment = [letter, mark] := by
  unfold isDrive at drive
  split at drive
  · rename_i letter mark
    rw [Bool.and_eq_true] at drive
    exact ⟨letter, mark, drive.1, rfl⟩
  · cases drive

theorem isSegment_drive {letter : Char} (alpha : letter.isAlpha = true) : IsSegment cls [letter, ':'] := by
  obtain ⟨kept, slash, backslash⟩ : Kept escapedInPath letter ∧ letter ≠ '/' ∧ letter ≠ '\\' :=
    Text.forall_ascii (p := fun c => c.isAlpha = true → Kept escapedInPath c ∧ c ≠ '/' ∧ c ≠ '\\')
      (by decide +kernel) (Text.toNat_of_isAlpha alpha) alpha
  intro c member
  simp only [List.mem_cons, List.not_mem_nil, or_false] at member
  rcases member with rfl | rfl
  · exact ⟨kept, by simp [isSlash, slash, backslash]⟩
  · cases cls <;> decide

theorem partedDrive?_spec {drive behind : List Char} (parted : partedDrive? segment = some (drive, behind)) :
    (∃ letter : Char, letter.isAlpha = true ∧ drive = [letter, ':']) ∧ ∀ c ∈ behind, c ∈ segment := by
  unfold partedDrive? at parted
  split at parted
  · rename_i letter more first
    split at parted
    · rename_i rest second
      simp only at parted
      split at parted
      · rename_i held
        simp only [Bool.and_eq_true] at held
        obtain ⟨rfl, rfl⟩ := Prod.mk.inj (Option.some.inj parted)
        refine ⟨⟨letter, held.1.1, rfl⟩, fun c member => ?_⟩
        have inRest : c ∈ rest := (List.mem_filter.mp member).1
        have inMore : c ∈ more :=
          (List.dropWhile_sublist isIgnored).mem (second ▸ List.mem_cons_of_mem ':' inRest)
        exact (List.dropWhile_sublist isIgnored).mem (first ▸ List.mem_cons_of_mem letter inMore)
      · cases parted
    · cases parted
  · cases parted

/-- What passing a segment leaves, one constructor for each way. -/
inductive Entered (cls : SchemeClass) (passed : Passed) (segment : List Char) : Bool → Passed → Prop
  /-- A drive is parted from what follows it, which is not looked at for dots. -/
  | parted {atEnd : Bool} {letter : Char} {behind : List Char} (file : cls = .file)
      (alpha : letter.isAlpha = true) (parts : partedDrive? segment = some ([letter, ':'], behind)) :
      Entered cls passed segment atEnd
        ((passed.push [letter, ':']).push (Text.Percent.encode escapedInPath behind))
  | up : Entered cls passed segment false passed.stepUp
  | upAtEnd : Entered cls passed segment true (passed.stepUp.push [])
  | here : Entered cls passed segment false passed
  | hereAtEnd : Entered cls passed segment true (passed.push [])
  | drive {atEnd : Bool} {letter mark : Char} (file : cls = .file) (alpha : letter.isAlpha = true)
      (spelled : Text.Percent.encode escapedInPath (withoutIgnored segment) = [letter, mark]) :
      Entered cls passed segment atEnd ⟨[[letter, ':']], true⟩
  | onTop {atEnd : Bool}
      (undotted : IsUndotted (Text.Percent.encode escapedInPath (withoutIgnored segment))) :
      Entered cls passed segment atEnd
        (passed.push (Text.Percent.encode escapedInPath (withoutIgnored segment)))

theorem entered_enter (cls : SchemeClass) (passed : Passed) (segment : List Char) (atEnd : Bool) :
    Entered cls passed segment atEnd (passed.enter cls segment atEnd) := by
  unfold Passed.enter
  simp only
  split
  · rename_i drive behind parted
    have atFile : cls = .file := by
      by_contra other
      rw [if_neg (by simp [other])] at parted
      cases parted
    have parts : partedDrive? segment = some (drive, behind) := by
      split at parted
      · exact parted
      · cases parted
    obtain ⟨⟨letter, alpha, rfl⟩, -⟩ := partedDrive?_spec parts
    exact .parted atFile alpha parts
  · split
    · cases atEnd with
      | false => exact .up
      | true => exact .upAtEnd
    · rename_i two
      split
      · cases atEnd with
        | false => exact .here
        | true => exact .hereAtEnd
      · rename_i one
        split
        · rename_i drive
          simp only [Bool.and_eq_true, beq_iff_eq] at drive
          obtain ⟨letter, mark, alpha, spelled⟩ := eq_of_isDrive drive.2
          rw [spelled]
          exact .drive drive.1.1 alpha spelled
        · exact .onTop ⟨Bool.eq_false_iff.mpr one, Bool.eq_false_iff.mpr two⟩

theorem above_stepUp_subset (passed : Passed) : ∀ s ∈ passed.stepUp.above, s ∈ passed.above := by
  intro s member
  unfold Passed.stepUp at member
  split at member
  · exact member
  · rename_i top rest stack
    split at member
    · exact member
    · rw [stack]
      exact List.mem_cons_of_mem top member

theorem onDrive_stepUp (passed : Passed) : passed.stepUp.onDrive = passed.onDrive := by
  unfold Passed.stepUp
  split
  · rfl
  · split <;> rfl

section Invariants

variable {passed : Passed} {held : List Char → Prop} {given : List Char → Prop}

/-- What holds of each segment that passing one may put on top keeps holding of all of them. -/
theorem forall_above_enter (atEnd : Bool) (before : ∀ s ∈ passed.above, held s) (empty : held [])
    (parted : ∀ (letter : Char) (behind : List Char), cls = .file → letter.isAlpha = true →
      partedDrive? segment = some ([letter, ':'], behind) →
        held [letter, ':'] ∧ held (Text.Percent.encode escapedInPath behind))
    (drive : ∀ letter mark : Char, cls = .file → letter.isAlpha = true →
      Text.Percent.encode escapedInPath (withoutIgnored segment) = [letter, mark] → held [letter, ':'])
    (onTop : IsUndotted (Text.Percent.encode escapedInPath (withoutIgnored segment)) →
      held (Text.Percent.encode escapedInPath (withoutIgnored segment))) :
    ∀ s ∈ (passed.enter cls segment atEnd).above, held s := by
  have up : ∀ s ∈ passed.stepUp.above, held s := fun s member => before s (above_stepUp_subset passed s member)
  have entered := entered_enter cls passed segment atEnd
  generalize passed.enter cls segment atEnd = after at entered ⊢
  cases entered with
  | parted file alpha parts =>
    obtain ⟨first, second⟩ := parted _ _ file alpha parts
    exact List.forall_mem_cons.mpr ⟨second, List.forall_mem_cons.mpr ⟨first, before⟩⟩
  | up => exact up
  | upAtEnd => exact List.forall_mem_cons.mpr ⟨empty, up⟩
  | here => exact before
  | hereAtEnd => exact List.forall_mem_cons.mpr ⟨empty, before⟩
  | drive file alpha spelled => exact List.forall_mem_singleton.mpr (drive _ _ file alpha spelled)
  | onTop undotted => exact List.forall_mem_cons.mpr ⟨onTop undotted, before⟩

/-- What passing any of the given segments keeps is kept by passing all of them. -/
theorem forall_above_resolve
    (step : ∀ (passed : Passed) (segment : List Char) (atEnd : Bool), given segment →
      (∀ s ∈ passed.above, held s) → ∀ s ∈ (passed.enter cls segment atEnd).above, held s)
    (inside : ∀ s ∈ segments, given s) (before : ∀ s ∈ passed.above, held s) :
    ∀ s ∈ (resolve cls passed segments).above, held s := by
  induction segments generalizing passed with
  | nil => exact before
  | cons segment segments ih =>
    obtain ⟨first, others⟩ := List.forall_mem_cons.mp inside
    exact ih others (step passed segment segments.isEmpty first before)

end Invariants

/-- Segments that have been passed are as they are written; only in a path of a `file` url may they be
dots, behind a drive that was parted from them. -/
def Written (cls : SchemeClass) (segments : List (List Char)) : Prop :=
  ∀ s ∈ segments, IsSegment cls s ∧ (cls ≠ .file → IsUndotted s)

theorem written_enter {passed : Passed} (atEnd : Bool) (inside : ∀ c ∈ segment, isSlash cls c = false)
    (before : Written cls passed.above) : Written cls (passed.enter cls segment atEnd).above := by
  have kept : ∀ c ∈ withoutIgnored segment, isSlash cls c = false :=
    fun c member => inside c (List.mem_filter.mp member).1
  refine forall_above_enter atEnd before ⟨isSegment_nil cls, fun _ => isUndotted_nil⟩ ?_ ?_ ?_
  · intro letter behind file alpha parts
    obtain ⟨-, part⟩ := partedDrive?_spec parts
    exact ⟨⟨isSegment_drive alpha, fun other => absurd file other⟩,
      isSegment_encode fun c member => inside c (part c member), fun other => absurd file other⟩
  · exact fun letter mark file alpha _ => ⟨isSegment_drive alpha, fun other => absurd file other⟩
  · exact fun undotted => ⟨isSegment_encode kept, fun _ => undotted⟩

theorem written_resolve {passed : Passed} (inside : ∀ s ∈ segments, ∀ c ∈ s, isSlash cls c = false)
    (before : Written cls passed.above) : Written cls (resolve cls passed segments).above :=
  forall_above_resolve (fun _ _ atEnd inside before => written_enter atEnd inside before) inside before

theorem isUndotted_drive {letter : Char} (alpha : letter.isAlpha = true) (mark : Char) :
    IsUndotted [letter, mark] := by
  have other : letter ≠ '.' ∧ letter ≠ '%' := by
    refine ⟨?_, ?_⟩ <;> rintro rfl <;> exact absurd alpha (by decide)
  constructor <;> unfold isDots <;> split <;> simp_all

/-- Passing written segments resolves their dots. -/
theorem isUndotted_resolve {passed : Passed} (inside : ∀ s ∈ segments, IsSegment cls s)
    (before : ∀ s ∈ passed.above, IsUndotted s) : ∀ s ∈ (resolve cls passed segments).above, IsUndotted s := by
  refine forall_above_resolve (fun passed segment atEnd here before => ?_) inside before
  refine forall_above_enter atEnd before isUndotted_nil ?_ ?_ id
  · intro letter behind _ _ parts
    rw [here.partedDrive?] at parts
    cases parts
  · exact fun letter _ _ alpha _ => isUndotted_drive alpha ':'

theorem onDrive_enter {passed : Passed} (segment : List Char) (atEnd : Bool) (held : passed.onDrive = true) :
    (passed.enter cls segment atEnd).onDrive = true := by
  have up : passed.stepUp.onDrive = true := (onDrive_stepUp passed).trans held
  have entered := entered_enter cls passed segment atEnd
  generalize passed.enter cls segment atEnd = after at entered ⊢
  cases entered with
  | parted => exact held
  | up => exact up
  | upAtEnd => exact up
  | here => exact held
  | hereAtEnd => exact held
  | drive => rfl
  | onTop => exact held

theorem onDrive_resolve {passed : Passed} (segments : List (List Char)) (held : passed.onDrive = true) :
    (resolve cls passed segments).onDrive = true := by
  induction segments generalizing passed with
  | nil => exact held
  | cons segment segments ih => exact ih (onDrive_enter segment segments.isEmpty held)

/-- The path of a `file` url that starts with a drive is on it. -/
theorem onDrive_of_isDrive (held : IsSegment .file segment) (drive : isDrive segment = true)
    (segments : List (List Char)) : (resolve .file .nothing (segment :: segments)).onDrive = true := by
  obtain ⟨letter, mark, alpha, spelled⟩ := eq_of_isDrive drive
  have undotted : IsUndotted segment := spelled ▸ isUndotted_drive alpha mark
  have start : (SchemeClass.file == .file && Passed.nothing.above.isEmpty) = true := rfl
  refine onDrive_resolve segments ?_
  simp only [Passed.enter, withoutIgnored_of_inner held.inner, held.encode, held.partedDrive?, ite_self,
    undotted.1, undotted.2, start, drive, Bool.true_and, Bool.false_eq_true, if_false, if_true]

/-- Passing segments up to the end of a path leaves at least one. -/
theorem above_ne_nil (passed : Passed) (segment : List Char) :
    (passed.enter cls segment true).above ≠ [] := by
  have entered := entered_enter cls passed segment true
  generalize passed.enter cls segment true = after at entered ⊢
  cases entered with
  | parted => exact List.cons_ne_nil _ _
  | upAtEnd => exact List.cons_ne_nil _ _
  | hereAtEnd => exact List.cons_ne_nil _ _
  | drive => exact List.cons_ne_nil _ _
  | onTop => exact List.cons_ne_nil _ _

theorem resolve_ne_nil (passed : Passed) (nonempty : segments ≠ []) :
    (resolve cls passed segments).above ≠ [] := by
  induction segments generalizing passed with
  | nil => exact absurd rfl nonempty
  | cons segment segments ih =>
    cases segments with
    | nil => exact above_ne_nil passed segment
    | cons next segments => exact ih _ (List.cons_ne_nil next segments)

/-- The segments of any path are as they are written, and there is at least one. -/
theorem written_splitOnP (path : List Char) :
    Written cls (resolve cls .nothing (path.splitOnP (isSlash cls))).above ∧
      (resolve cls .nothing (path.splitOnP (isSlash cls))).above ≠ [] := by
  have before : Written cls Passed.nothing.above := List.forall_mem_nil _
  refine ⟨written_resolve (fun s listed c member => ?_) before, ?_⟩
  · exact Text.not_of_mem_splitOnP listed c member
  · exact resolve_ne_nil _ (List.splitOnP_ne_nil _ _)

theorem segments?_of_path {url : Url} (path : url.path = .segments segments)
    (nonempty : segments ≠ []) : url.segments? = some segments := by
  obtain ⟨first, rest, rfl⟩ := List.exists_cons_of_ne_nil nonempty
  rw [segments?, path]

theorem dropEmptyStart_subset (segments : List (List Char)) : ∀ s ∈ dropEmptyStart segments, s ∈ segments := by
  induction segments with
  | nil => exact fun s member => member
  | cons segment segments ih =>
    intro s member
    unfold dropEmptyStart at member
    split at member
    · rename_i next rest listed
      obtain ⟨rfl, rfl⟩ := List.cons.inj listed
      exact List.mem_cons_of_mem [] (ih s member)
    · exact member

theorem dropEmptyStart_ne_nil (nonempty : segments ≠ []) : dropEmptyStart segments ≠ [] := by
  induction segments with
  | nil => exact absurd rfl nonempty
  | cons segment segments ih =>
    unfold dropEmptyStart
    split
    · rename_i next rest listed
      obtain ⟨rfl, rfl⟩ := List.cons.inj listed
      exact ih (List.cons_ne_nil next rest)
    · exact nonempty

theorem dropEmptyStart_cons (nonempty : segment ≠ []) (segments : List (List Char)) :
    dropEmptyStart (segment :: segments) = segment :: segments := by
  obtain ⟨c, text, rfl⟩ := List.exists_cons_of_ne_nil nonempty
  rfl

theorem dropEmptyStart_dropEmptyStart (segments : List (List Char)) :
    dropEmptyStart (dropEmptyStart segments) = dropEmptyStart segments := by
  induction segments with
  | nil => rfl
  | cons segment segments ih =>
    by_cases start : segment = [] ∧ segments ≠ []
    · obtain ⟨rfl, nonempty⟩ := start
      obtain ⟨next, rest, rfl⟩ := List.exists_cons_of_ne_nil nonempty
      exact ih
    · have kept : dropEmptyStart (segment :: segments) = segment :: segments := by
        unfold dropEmptyStart
        split
        · rename_i next rest listed
          obtain ⟨rfl, rfl⟩ := List.cons.inj listed
          exact absurd ⟨rfl, List.cons_ne_nil next rest⟩ start
        · rfl
      rw [kept, kept]

end FusionAtlas.Url
