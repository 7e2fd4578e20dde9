import FusionAtlas.Proofs.HostText
import FusionAtlas.Proofs.UrlSegments

/-!
The parts of a url beside its scheme and path: user, host and service, query and fragment. What is read as
such a part is in normal form, and a part in normal form is read back from how it is written.
-/

set_option autoImplicit false
set_option relaxedAutoImplicit false

namespace FusionAtlas.Url

open Text.Percent (Kept codeCharacters)

variable {scheme text : List Char} {cls : SchemeClass} {c : Char}

section Tail

variable {query fragment : Option (List Char)} {path : List Char}

/-- Query and fragment as they are written behind a path. -/
def tailText (query fragment : Option (List Char)) : List Char :=
  (query.map ('?' :: ·)).getD [] ++ (fragment.map ('#' :: ·)).getD []

/-- Query and fragment hold nothing that is escaped. -/
def IsTail (cls : SchemeClass) (query fragment : Option (List Char)) : Prop :=
  (∀ q ∈ query, ∀ c ∈ q, Kept (escapedInQuery cls) c) ∧ ∀ f ∈ fragment, ∀ c ∈ f, Kept escapedInFragment c

/-- Neither a question mark nor a hash stands in a path. -/
def IsBeforeTail (path : List Char) : Prop := ∀ c ∈ path, (c != '?' && c != '#') = true

theorem ne_hash_of_kept {q : List Char} (kept : ∀ c ∈ q, Kept (escapedInQuery cls) c) :
    ∀ c ∈ q, (c != '#') = true := by
  intro c member
  rw [bne_iff_ne]
  rintro rfl
  exact absurd (kept '#' member).2 (by cases cls <;> decide)

theorem encode_query_of_kept {q : List Char} (kept : ∀ c ∈ q, Kept (escapedInQuery cls) c) :
    Text.Percent.encode (escapedInQuery cls) (withoutIgnored q) = q := by
  have inner : withoutIgnored q = q := by
    refine List.filter_eq_self.mpr fun c member => ?_
    have other : escapedInQuery cls c = false := (kept c member).2
    simp only [isIgnored, Bool.not_eq_true', Bool.or_eq_false_iff, beq_eq_false_iff_ne]
    refine ⟨⟨?_, ?_⟩, ?_⟩ <;> rintro rfl <;> revert other <;> cases cls <;> decide
  rw [inner, Text.Percent.encode_of_kept kept]

theorem encode_fragment_of_kept {f : List Char} (kept : ∀ c ∈ f, Kept escapedInFragment c) :
    Text.Percent.encode escapedInFragment (withoutIgnored f) = f := by
  rw [withoutIgnored_of_inner fun c member => inner_of_escapedInFragment (kept c member).2,
    Text.Percent.encode_of_kept kept]

theorem takeWhile_isBeforeTail (before : IsBeforeTail path) (rest : List Char)
    (ends : ∀ c ∈ rest.head?, (c != '?' && c != '#') = false) :
    (path ++ rest).takeWhile (fun c => c != '?' && c != '#') = path := by
  cases rest with
  | nil => rw [List.append_nil, List.takeWhile_eq_self_iff.mpr before]
  | cons c rest =>
    have stop := ends c rfl
    rw [List.takeWhile_append_of_pos before, List.takeWhile_cons_of_neg (by simp [stop]), List.append_nil]

/-- Query and fragment are read back behind a path. -/
theorem splitTail_append (before : IsBeforeTail path) (tail : IsTail cls query fragment) :
    splitTail cls (path ++ tailText query fragment) = (path, query, fragment) := by
  obtain ⟨keptQuery, keptFragment⟩ := tail
  have front := takeWhile_isBeforeTail before
  cases query with
  | none =>
    cases fragment with
    | none =>
      have whole := front [] (by simp)
      simp only [splitTail, tailText, Option.map_none, Option.getD_none, List.append_nil] at whole ⊢
      rw [whole, List.drop_length]
    | some f =>
      have whole := front ('#' :: f) (by simp)
      have written := congrArg (fun text => (path, (none : Option (List Char)), some text))
        (encode_fragment_of_kept (keptFragment f rfl))
      simp only [splitTail, tailText, Option.map_none, Option.getD_none, Option.map_some,
        Option.getD_some, List.nil_append, whole, List.drop_left]
      exact written
  | some q =>
    have kept := keptQuery q rfl
    cases fragment with
    | none =>
      have whole := front ('?' :: q) (by simp)
      have rest : q.takeWhile (· != '#') = q := List.takeWhile_eq_self_iff.mpr (ne_hash_of_kept kept)
      simp only [splitTail, tailText, Option.map_none, Option.getD_none, Option.map_some,
        Option.getD_some, List.append_nil, whole, List.drop_left, rest, List.drop_length, encode_query_of_kept kept]
    | some f =>
      have whole := front ('?' :: (q ++ '#' :: f)) (by simp)
      have rest : (q ++ '#' :: f).takeWhile (· != '#') = q := by
        rw [List.takeWhile_append_of_pos (ne_hash_of_kept kept), List.takeWhile_cons_of_neg (by decide),
          List.append_nil]
      simp only [splitTail, tailText, Option.map_some, Option.getD_some, List.cons_append, whole,
        List.drop_left, rest, encode_query_of_kept kept, encode_fragment_of_kept (keptFragment f rfl)]

theorem kept_encode_fragment (text : List Char) :
    ∀ c ∈ Text.Percent.encode escapedInFragment text, Kept escapedInFragment c :=
  fun _ member => Text.Percent.kept_of_mem_encode (by decide +kernel) member

theorem kept_encode_query (text : List Char) :
    ∀ c ∈ Text.Percent.encode (escapedInQuery cls) text, Kept (escapedInQuery cls) c :=
  fun _ member => Text.Percent.kept_of_mem_encode (by cases cls <;> decide +kernel) member

/-- What is read as path, query and fragment. -/
theorem splitTail_spec (read : splitTail cls text = (path, query, fragment)) :
    IsBeforeTail path ∧ IsTail cls query fragment ∧ (query = none → fragment = none → path = text) ∧
      ∃ rest, text = path ++ rest := by
  have before : IsBeforeTail (text.takeWhile fun c => c != '?' && c != '#') := by
    intro c member
    have held := List.mem_takeWhile_imp member
    exact held
  have front : ∃ rest, text = (text.takeWhile fun c => c != '?' && c != '#') ++ rest :=
    ⟨_, List.takeWhile_append_dropWhile.symm⟩
  unfold splitTail at read
  simp only at read
  split at read
  · split at read
    · obtain ⟨rfl, rfl, rfl⟩ := read
      refine ⟨before, ⟨?_, ?_⟩, (fun none => nomatch none), front⟩
      · rintro q ⟨⟩
        exact kept_encode_query _
      · rintro f ⟨⟩
        exact kept_encode_fragment _
    · obtain ⟨rfl, rfl, rfl⟩ := read
      refine ⟨before, ⟨?_, (fun f none => nomatch none)⟩, (fun none => nomatch none), front⟩
      rintro q ⟨⟩
      exact kept_encode_query _
  · obtain ⟨rfl, rfl, rfl⟩ := read
    refine ⟨before, ⟨(fun q none => nomatch none), ?_⟩, (fun _ none => nomatch none), front⟩
    rintro f ⟨⟩
    exact kept_encode_fragment _
  · rename_i whole
    obtain ⟨rfl, rfl, rfl⟩ := read
    refine ⟨before, ⟨(fun q none => nomatch none), (fun f none => nomatch none)⟩, fun _ _ => ?_, front⟩
    rw [Text.drop_length_takeWhile] at whole
    conv => rhs; rw [← List.takeWhile_append_dropWhile (p := fun c => c != '?' && c != '#') (l := text)]
    rw [whole, List.append_nil]

theorem inner_of_isTail (tail : IsTail cls query fragment) :
    ∀ c ∈ tailText query fragment, 0x20 < c.toNat := by
  intro c member
  rcases List.mem_append.mp member with inQuery | inFragment
  · cases query with
    | none => cases inQuery
    | some q =>
      rcases List.mem_cons.mp inQuery with rfl | inside
      · decide
      · by_contra outer
        exact outer (Text.forall_ascii (p := fun c => escapedInQuery cls c = false → 0x20 < c.toNat)
          (by cases cls <;> decide +kernel) (tail.1 q rfl c inside).1 (tail.1 q rfl c inside).2)
  · cases fragment with
    | none => cases inFragment
    | some f =>
      rcases List.mem_cons.mp inFragment with rfl | inside
      · decide
      · exact inner_of_escapedInFragment (tail.2 f rfl c inside).2

end Tail

section User

variable {userInfo : List Char}

/-- A text that holds nothing that is escaped in the name of a user. -/
def IsUserText (text : List Char) : Prop := ∀ c ∈ text, Kept escapedInUserInfo c

/-- User name and password in normal form: a name that is not empty, or any name with a password. -/
inductive IsUserInfo : List Char → Prop
  | none : IsUserInfo []
  | name {name : List Char} (named : name ≠ []) (kept : IsUserText name) : IsUserInfo (name ++ ['@'])
  | password {name password : List Char} (secret : password ≠ []) (kept : IsUserText name)
      (keptSecret : IsUserText password) : IsUserInfo (name ++ ':' :: password ++ ['@'])

theorem isUserText_encode (text : List Char) :
    IsUserText (Text.Percent.encode escapedInUserInfo text) :=
  fun _ member => Text.Percent.kept_of_mem_encode (by decide +kernel) member

theorem isUserInfo_userInfoText (text : List Char) : IsUserInfo (userInfoText text) := by
  have written {part : List Char} (nonempty : ¬part.isEmpty = true) :
      Text.Percent.encode escapedInUserInfo part ≠ [] := by
    intro empty
    exact nonempty (List.isEmpty_iff.mpr (Text.Percent.encode_eq_nil empty))
  unfold userInfoText
  simp only
  split
  · exact .none
  · rename_i some
    split
    · rename_i noPassword
      rw [noPassword, Bool.and_true] at some
      exact .name (written some) (isUserText_encode _)
    · rename_i password
      exact .password (written password) (isUserText_encode _) (isUserText_encode _)

/-- What ends no authority, and is not trimmed from one. -/
def standsInAuthority (c : Char) : Bool := decide (0x20 < c.toNat) && !"/\\?#".toList.contains c

theorem standsInAuthority_spec (stands : standsInAuthority c = true) :
    0x20 < c.toNat ∧ c ≠ '/' ∧ c ≠ '\\' ∧ c ≠ '?' ∧ c ≠ '#' := by
  simp only [standsInAuthority, Bool.and_eq_true, decide_eq_true_eq, Bool.not_eq_true',
    List.contains_eq_mem, decide_eq_false_iff_not] at stands
  refine ⟨stands.1, ?_, ?_, ?_, ?_⟩ <;> rintro rfl <;> exact stands.2 (by decide)

theorem standsInAuthority_of_standsInHost (stands : standsInHost c = true) : standsInAuthority c = true := by
  simp only [standsInHost, standsInAuthority, Bool.and_eq_true, decide_eq_true_eq, Bool.not_eq_true',
    List.contains_eq_mem, decide_eq_false_iff_not] at stands ⊢
  have marks : ∀ c ∈ "/\\?#".toList, c ∈ "/\\?#@".toList := by decide
  exact ⟨stands.1, fun member => stands.2 (marks c member)⟩

theorem standsInAuthority_of_kept (kept : Kept escapedInUserInfo c) :
    standsInAuthority c = true ∧ c ≠ ':' ∧ c ≠ '@' :=
  Text.forall_ascii (p := fun c => escapedInUserInfo c = false →
    standsInAuthority c = true ∧ c ≠ ':' ∧ c ≠ '@') (by decide +kernel) kept.1 kept.2

theorem standsInAuthority_of_mem_userInfo (normal : IsUserInfo userInfo) (member : c ∈ userInfo) :
    standsInAuthority c = true := by
  cases normal with
  | none => cases member
  | name named kept =>
    rcases List.mem_append.mp member with inside | close
    · exact (standsInAuthority_of_kept (kept c inside)).1
    · rw [List.mem_singleton.mp close]
      decide
  | password secret kept keptSecret =>
    rcases List.mem_append.mp member with front | close
    · rcases List.mem_append.mp front with inside | behind
      · exact (standsInAuthority_of_kept (kept c inside)).1
      · rcases List.mem_cons.mp behind with rfl | inside
        · decide
        · exact (standsInAuthority_of_kept (keptSecret c inside)).1
    · rw [List.mem_singleton.mp close]
      decide

/-- User name and password are read back from what stands before their mark. -/
theorem userInfo_spec (normal : IsUserInfo userInfo) :
    userInfo = [] ∨ ∃ user, user ≠ [] ∧ userInfo = user ++ ['@'] ∧ userInfoText user = userInfo := by
  have noColon {text : List Char} (kept : IsUserText text) : ∀ c ∈ text, (c != ':') = true :=
    fun c member => bne_iff_ne.mpr (standsInAuthority_of_kept (kept c member)).2.1
  cases normal with
  | none => exact Or.inl rfl
  | @name name named kept =>
    refine Or.inr ⟨name, named, rfl, ?_⟩
    have whole : name.takeWhile (· != ':') = name := List.takeWhile_eq_self_iff.mpr (noColon kept)
    have nonempty : name.isEmpty = false := List.isEmpty_eq_false_iff.mpr named
    simp only [userInfoText, whole, List.drop_length, List.drop_nil, nonempty, List.isEmpty_nil,
      Bool.false_and, Bool.false_eq_true, if_false, if_true, Text.Percent.encode_of_kept kept]
  | @password name password secret kept keptSecret =>
    refine Or.inr ⟨name ++ ':' :: password, by simp, rfl, ?_⟩
    have front : (name ++ ':' :: password).takeWhile (· != ':') = name := by
      rw [List.takeWhile_append_of_pos (noColon kept), List.takeWhile_cons_of_neg (by decide),
        List.append_nil]
    have nonempty : password.isEmpty = false := List.isEmpty_eq_false_iff.mpr secret
    simp only [userInfoText, front, List.drop_left, List.drop_succ_cons, List.drop_zero, nonempty,
      Bool.and_false, Bool.false_eq_true, if_false, Text.Percent.encode_of_kept kept,
      Text.Percent.encode_of_kept keptSecret]

end User

section Service

variable {service : Option Nat} {behind : List Char}

/-- A service number as it is written, with its colon. -/
def serviceText (service : Option Nat) : List Char :=
  (service.map fun n => ':' :: Nat.toDigits 10 n).getD []

/-- A number of sixteen bits that the scheme does not imply. -/
def IsService (scheme : List Char) (service : Option Nat) : Prop :=
  ∀ n ∈ service, n ≤ 65535 ∧ impliedService? scheme ≠ some n

theorem isService_of_service? (read : service? scheme text = some (service, behind)) :
    IsService scheme service := by
  unfold service? at read
  simp only at read
  split at read
  · cases read
  · split at read
    · obtain ⟨rfl, rfl⟩ := Prod.mk.inj (Option.some.inj read)
      exact fun n none => nomatch none
    · obtain ⟨n, -, found⟩ := Option.bind_eq_some_iff.mp read
      split at found
      · cases found
      · obtain ⟨rfl, rfl⟩ := Prod.mk.inj (Option.some.inj found)
        intro m member
        split at member
        · cases member
        · rename_i other
          obtain rfl := Option.some.inj member
          exact ⟨by omega, other⟩

/-- A service number is read back behind its colon. -/
theorem service?_text (normal : IsService scheme service) :
    service? scheme ((serviceText service).drop 1) = some (service, []) := by
  cases service with
  | none => rfl
  | some n =>
    obtain ⟨bound, other⟩ := normal n rfl
    have digits : (Nat.toDigits 10 n).takeWhile Char.isDigit = Nat.toDigits 10 n :=
      List.takeWhile_eq_self_iff.mpr fun c member =>
        Nat.isDigit_of_mem_toDigits (by decide) (by decide) member
    have nonempty : (Nat.toDigits 10 n).isEmpty = false :=
      List.isEmpty_eq_false_iff.mpr Nat.toDigits_ne_nil
    have small : ¬n > 65535 := by omega
    simp only [serviceText, Option.map_some, Option.getD_some, List.drop_succ_cons, List.drop_zero,
      service?, digits, List.drop_length, List.isEmpty_nil, Bool.true_or, Bool.not_true,
      Bool.false_eq_true, if_false, nonempty, number?_toDigits (by decide : 1 < 10) (by decide) n,
      Option.bind_some, small, other]

theorem mem_serviceText (member : c ∈ serviceText service) :
    c = ':' ∨ c ∈ "0123456789abcdef".toList := by
  cases service with
  | none => cases member
  | some n =>
    rcases List.mem_cons.mp member with colon | digit
    · exact Or.inl colon
    · exact Or.inr (mem_toDigits (by decide) (by decide) digit)

theorem standsInHost_of_mem_serviceText (member : c ∈ serviceText service) : standsInHost c = true := by
  rcases mem_serviceText member with rfl | digit
  · decide
  · exact standsInHost_of_digit digit

end Service

section Authority

variable {authority found : Authority} {more : List Char} {atEnd : Bool}

/-- A host as it is written, if there is one. -/
def hostText (host : Option Host) : List Char := (host.map Host.text).getD []

/-- An authority as authorities are read behind the given scheme. -/
structure Authority.IsNormal (scheme : List Char) (a : Authority) : Prop where
  userInfo : IsUserInfo a.userInfo
  host : ∀ host ∈ a.host, host.IsNormal (schemeClass scheme)
  service : IsService scheme a.service
  /-- Only schemes without well-known servers do without a host, and then there is nothing else. -/
  alone : a.host = none → schemeClass scheme = .other ∧ a.userInfo = [] ∧ a.service = none

theorem Authority.text_eq (a : Authority) :
    a.text = "//".toList ++ (a.userInfo ++ (hostText a.host ++ serviceText a.service)) := by
  rw [Authority.text, List.append_assoc, List.append_assoc]
  rfl

theorem standsInHost_of_mem_hostText {host : Option Host} (hosted : ∀ h ∈ host, h.IsNormal cls)
    (member : c ∈ hostText host) : standsInHost c = true := by
  cases host with
  | none => cases member
  | some host => exact standsInHost_of_mem_text (hosted host rfl) member

theorem Authority.IsNormal.standsInHost (normal : authority.IsNormal scheme) :
    ∀ c ∈ hostText authority.host ++ serviceText authority.service, standsInHost c = true := by
  intro c member
  rcases List.mem_append.mp member with inHost | inService
  · exact standsInHost_of_mem_hostText normal.host inHost
  · exact standsInHost_of_mem_serviceText inService

theorem Authority.IsNormal.standsInAuthority (normal : authority.IsNormal scheme) :
    ∀ c ∈ authority.userInfo ++ (hostText authority.host ++ serviceText authority.service),
      standsInAuthority c = true := by
  intro c member
  rcases List.mem_append.mp member with inUser | behind
  · exact standsInAuthority_of_mem_userInfo normal.userInfo inUser
  · exact standsInAuthority_of_standsInHost (normal.standsInHost c behind)

/-- Read the host of a server. -/
def serverHost? (cls : SchemeClass) (text : List Char) : Option Host :=
  if cls = .wellKnown then domainHost? text else opaqueHost? text

theorem server?_eq (scheme : List Char) (cls : SchemeClass) (text : List Char) :
    server? scheme cls text =
      (serverHost? cls (text.take (hostLength false text))).bind fun host =>
        if host = .domain [] then
          if (text.drop (hostLength false text)).isEmpty then some ⟨none, none, []⟩ else none
        else
          (service? scheme ((text.drop (hostLength false text)).drop 1)).bind fun numbered =>
            some ⟨some host, numbered.1, numbered.2⟩ := by
  rw [server?, serverHost?]
  split <;> rfl

theorem isNormal_serverHost? {host : Host} (known : cls ≠ .file) (read : serverHost? cls text = some host) :
    (cls = .other ∧ host = .domain []) ∨ host.IsNormal cls := by
  unfold serverHost? at read
  cases cls with
  | file => exact absurd rfl known
  | wellKnown => exact Or.inr (isNormal_domainHost? (by decide) read)
  | other =>
    rcases isNormal_opaqueHost? read with empty | normal
    · exact Or.inl ⟨rfl, empty⟩
    · exact Or.inr normal

theorem serverHost?_text {host again : Host} (known : cls ≠ .file) (normal : host.IsNormal cls)
    (read : serverHost? cls host.text = some again) : again = host := by
  unfold serverHost? at read
  cases cls with
  | file => exact absurd rfl known
  | wellKnown => exact domainHost?_text (by decide) normal read
  | other =>
    rw [if_neg (by decide), opaqueHost?_text normal] at read
    exact (Option.some.inj read).symm

/-- What is read as host and service is in normal form. -/
theorem server?_spec {server : Server} (known : schemeClass scheme ≠ .file)
    (read : server? scheme (schemeClass scheme) text = some server) :
    (∀ host ∈ server.host, host.IsNormal (schemeClass scheme)) ∧ IsService scheme server.service ∧
      (server.host = none → schemeClass scheme = .other ∧ server.service = none) := by
  rw [server?_eq] at read
  obtain ⟨host, hosted, read⟩ := Option.bind_eq_some_iff.mp read
  have normal := isNormal_serverHost? known hosted
  split at read
  · rename_i empty
    have other : schemeClass scheme = .other := by
      rcases normal with ⟨other, -⟩ | normal
      · exact other
      · rw [empty] at normal
        exact absurd rfl normal.1
    split at read
    · obtain rfl := Option.some.inj read
      exact ⟨(fun host none => nomatch none), (fun n none => nomatch none), fun _ => ⟨other, rfl⟩⟩
    · cases read
  · rename_i named
    obtain ⟨numbered, here, read⟩ := Option.bind_eq_some_iff.mp read
    obtain rfl := Option.some.inj read
    refine ⟨fun found member => ?_, isService_of_service? here, fun none => nomatch none⟩
    obtain rfl := Option.some.inj member
    rcases normal with ⟨-, empty⟩ | normal
    · exact absurd empty named
    · exact normal

/-- Host and service are read back, if the host is one at all. -/
theorem server?_text {server : Server} (known : schemeClass scheme ≠ .file)
    (normal : authority.IsNormal scheme)
    (read : server? scheme (schemeClass scheme)
      (hostText authority.host ++ serviceText authority.service) = some server) :
    server = ⟨authority.host, authority.service, []⟩ := by
  cases shown : authority.host with
  | none =>
    obtain ⟨other, -, service⟩ := normal.alone shown
    rw [shown, service, other] at read
    rw [service]
    exact (Option.some.inj read).symm
  | some host =>
    have hosted := normal.host host shown
    have ends : serviceText authority.service = [] ∨
        (serviceText authority.service).head? = some ':' := by
      cases authority.service with
      | none => exact Or.inl rfl
      | some n => exact Or.inr rfl
    have text : hostText (some host) = host.text := rfl
    rw [shown, text, server?_eq, hostLength_text hosted ends, List.take_left, List.drop_left] at read
    obtain ⟨again, same, served⟩ := Option.bind_eq_some_iff.mp read
    obtain rfl := serverHost?_text known hosted same
    have named : again ≠ .domain [] := by
      rintro rfl
      exact hosted.1 rfl
    rw [if_neg named, service?_text normal.service] at served
    exact (Option.some.inj served).symm

/-- What is read as an authority is in normal form. -/
theorem authority?_spec (known : schemeClass scheme ≠ .file)
    (read : authority? scheme (schemeClass scheme) text atEnd = some (authority, more)) :
    authority.IsNormal scheme := by
  unfold authority? at read
  split at read
  · obtain ⟨server, served, same⟩ := Option.map_eq_some_iff.mp read
    obtain ⟨rfl, -⟩ := Prod.mk.inj same
    obtain ⟨host, service, alone⟩ := server?_spec known served
    exact ⟨.none, host, service, fun none => ⟨(alone none).1, rfl, (alone none).2⟩⟩
  · rename_i user behind _
    split at read
    · cases read
    · obtain ⟨server, served, read⟩ := Option.bind_eq_some_iff.mp read
      simp only at read
      split at read
      · cases read
      · rename_i owned
        obtain ⟨rfl, -⟩ := Prod.mk.inj (Option.some.inj read)
        obtain ⟨host, service, alone⟩ := server?_spec known served
        refine ⟨isUserInfo_userInfoText user, host, service, fun none => ?_⟩
        refine ⟨(alone none).1, ?_, (alone none).2⟩
        by_contra named
        exact owned (by simp only [show server.host = Option.none from none]; simpa using named)

/-- An authority is read back, if its host is one at all. -/
theorem authority?_text (known : schemeClass scheme ≠ .file) (normal : authority.IsNormal scheme)
    (read : authority? scheme (schemeClass scheme)
      (authority.userInfo ++ (hostText authority.host ++ serviceText authority.service)) atEnd =
        some (found, more)) : found = authority ∧ more = [] := by
  have absent : '@' ∉ hostText authority.host ++ serviceText authority.service := by
    intro member
    exact absurd (normal.standsInHost '@' member) (by decide)
  obtain ⟨userInfo, host, service⟩ := authority
  rcases userInfo_spec normal.userInfo with empty | ⟨user, named, written, again⟩
  · dsimp only at empty read absent ⊢
    subst empty
    rw [List.nil_append, authority?, splitLast?_of_not_mem absent] at read
    obtain ⟨server, served, same⟩ := Option.map_eq_some_iff.mp read
    obtain rfl := server?_text known normal served
    obtain ⟨rfl, rfl⟩ := Prod.mk.inj same
    exact ⟨rfl, rfl⟩
  · dsimp only at written again read absent ⊢
    have nonempty : user.isEmpty = false := List.isEmpty_eq_false_iff.mpr named
    have place : userInfo ++ (hostText host ++ serviceText service) =
        user ++ '@' :: (hostText host ++ serviceText service) := by
      rw [written, List.append_assoc, List.singleton_append]
    rw [place, authority?, splitLast?_append user absent] at read
    simp only [nonempty, Bool.false_and, Bool.false_eq_true, if_false] at read
    obtain ⟨server, served, read⟩ := Option.bind_eq_some_iff.mp read
    obtain rfl := server?_text known normal served
    dsimp only at read
    split at read
    · cases read
    · obtain ⟨rfl, rfl⟩ := Prod.mk.inj (Option.some.inj read)
      exact ⟨by rw [again], rfl⟩

end Authority

end FusionAtlas.Url
