import FusionAtlas.Proofs.HostAddress
import FusionAtlas.Url

/-!
Hosts read back from how they are written. Main statements: `Url.domainHost?_text` and
`Url.opaqueHost?_text`.
-/

set_option autoImplicit false
set_option relaxedAutoImplicit false

namespace FusionAtlas

namespace Text.Utf8

/-- The characters of ASCII are read back from their bytes. -/
theorem decode?_encode_of_ascii {text : List Char} (ascii : ∀ c ∈ text, c.toNat < 0x80) :
    decode? (encode text) = some text := by
  have pieces : decodePieces (encode text) = text.map some := by
    induction text with
    | nil => rw [encode, List.flatMap_nil, decodePieces, List.map_nil]
    | cons c text ih =>
      obtain ⟨first, others⟩ := List.forall_mem_cons.mp ascii
      have byte : (UInt8.ofNat c.toNat).toNat = c.toNat := by
        rw [UInt8.toNat_ofNat', Nat.mod_eq_of_lt (by omega)]
      have read : decodeFrom (UInt8.ofNat c.toNat) (encode text) = (some c, 0) := by
        unfold decodeFrom
        simp only [byte, first, if_true, Char.ofNat_toNat]
      have behind := ih others
      rw [encode] at behind read ⊢
      rw [List.flatMap_cons, encodeChar_of_ascii first, List.singleton_append, decodePieces, read,
        List.drop_zero, behind, List.map_cons]
  have whole : (text.map some).all Option.isSome = true :=
    List.all_eq_true.mpr fun piece member => by
      obtain ⟨c, -, rfl⟩ := List.mem_map.mp member
      rfl
  rw [decode?, pieces]
  simp only [whole, if_true, List.filterMap_map, Function.comp_def, id, List.filterMap_some]

end Text.Utf8

namespace Url

open Text.Percent (Kept codeCharacters)
open DomainName (IsLowered isLowered_ascii? ascii?_of_isLowered)

variable {cls : SchemeClass} {host found : Host} {text name : List Char} {c : Char}

/-- A host as hosts are read behind a scheme of the given kind. -/
def Host.IsNormal (cls : SchemeClass) : Host → Prop
  | domain name =>
    name ≠ [] ∧
      if cls = .other then ∀ c ∈ name, Kept isControl c ∧ forbiddenInOpaque c = false
      else IsLowered name ∧ (∀ c ∈ name, forbiddenInDomain c = false) ∧ endsInNumber name = false
  | ipv4 address => cls ≠ .other ∧ address < 4294967296
  | ipv6 groups => groups.length = 8 ∧ Fit groups

/-- What stands between brackets is an address in normal form. -/
theorem isNormal_bracketed? (read : bracketed? text = some (some host)) : host.IsNormal cls := by
  unfold bracketed? at read
  split at read
  · split at read
    · obtain ⟨groups, inner, rfl⟩ := Option.map_eq_some_iff.mp (Option.some.inj read)
      exact fit_of_ipv6? inner
    · cases read
  · cases read

/-- What is read as a host of a scheme with well-known servers is in normal form. -/
theorem isNormal_domainHost? (known : cls ≠ .other) (read : domainHost? text = some host) :
    host.IsNormal cls := by
  unfold domainHost? at read
  split at read
  · rename_i address bracketed
    rw [read] at bracketed
    exact isNormal_bracketed? bracketed
  · simp only [Option.bind_eq_bind, Option.bind_eq_some_iff] at read
    obtain ⟨decoded, -, name, written, read⟩ := read
    split at read
    · cases read
    · rename_i allowed
      rw [not_or, List.isEmpty_iff, List.any_eq_true] at allowed
      split at read
      · obtain ⟨address, number, rfl⟩ := Option.map_eq_some_iff.mp read
        exact ⟨known, lt_of_ipv4? number⟩
      · rename_i number
        obtain rfl := Option.some.inj read
        refine ⟨allowed.1, ?_⟩
        rw [if_neg known]
        refine ⟨isLowered_ascii? written, fun c member => ?_, by simpa using number⟩
        exact Bool.eq_false_iff.mpr fun forbidden => allowed.2 ⟨c, member, forbidden⟩

theorem forbiddenInOpaque_of_mem_codes (code : c ∈ codeCharacters) : forbiddenInOpaque c = false := by
  have all : ∀ c ∈ codeCharacters, forbiddenInOpaque c = false := by decide +kernel
  exact all c code

/-- So is what is read as a host of any other scheme, unless it is empty. -/
theorem isNormal_opaqueHost? (read : opaqueHost? text = some host) :
    host = .domain [] ∨ host.IsNormal .other := by
  unfold opaqueHost? at read
  split at read
  · rename_i address bracketed
    rw [read] at bracketed
    exact Or.inr (isNormal_bracketed? bracketed)
  · split at read
    · cases read
    · rename_i allowed
      rw [List.any_eq_true] at allowed
      obtain rfl := Option.some.inj read
      by_cases empty : Text.Percent.encode isControl text = []
      · exact Or.inl (congrArg Host.domain empty)
      · refine Or.inr ⟨empty, ?_⟩
        rw [if_pos rfl]
        intro c member
        refine ⟨Text.Percent.kept_of_mem_encode (by decide +kernel) member, ?_⟩
        rcases Text.Percent.mem_encode member with ⟨listed, -⟩ | code
        · exact Bool.eq_false_iff.mpr fun forbidden => allowed ⟨c, listed, forbidden⟩
        · exact forbiddenInOpaque_of_mem_codes code

/-- Neither a space or a control character, nor a mark of a part of a url. -/
def standsInHost (c : Char) : Bool := decide (0x20 < c.toNat) && !"/\\?#@".toList.contains c

theorem standsInHost_of_digit (digit : c ∈ "0123456789abcdef".toList) : standsInHost c = true := by
  have all : ∀ c ∈ "0123456789abcdef".toList, standsInHost c = true := by decide
  exact all c digit

theorem inner_of_isControl (control : isControl c = false) (space : c ≠ ' ') : 0x20 < c.toNat := by
  simp only [isControl, Bool.or_eq_false_iff, decide_eq_false_iff_not] at control
  have other : c.toNat ≠ 0x20 := by
    intro same
    exact space (by rw [← Char.ofNat_toNat c, same])
  omega

theorem standsInHost_of_forbiddenInDomain (allowed : forbiddenInDomain c = false) :
    standsInHost c = true := by
  simp only [forbiddenInDomain, Bool.or_eq_false_iff] at allowed
  obtain ⟨control, marks⟩ := allowed
  have other (mark : Char) (listed : " #/:<>?@[\\]^|%".toList.contains mark = true) : c ≠ mark := by
    rintro rfl
    rw [listed] at marks
    cases marks
  have inner := inner_of_isControl control (other ' ' (by decide))
  simp only [standsInHost, decide_eq_true inner, Bool.true_and, Bool.not_eq_true',
    List.contains_eq_mem, decide_eq_false_iff_not]
  intro member
  have listed : ∀ mark ∈ "/\\?#@".toList, " #/:<>?@[\\]^|%".toList.contains mark = true := by decide
  exact other c (listed c member) rfl

theorem standsInHost_of_forbiddenInOpaque (kept : isControl c = false)
    (allowed : forbiddenInOpaque c = false) : standsInHost c = true := by
  have other (mark : Char) (listed : forbiddenInOpaque mark = true) : c ≠ mark := by
    rintro rfl
    rw [listed] at allowed
    cases allowed
  have inner := inner_of_isControl kept (other ' ' (by decide))
  simp only [standsInHost, decide_eq_true inner, Bool.true_and, Bool.not_eq_true',
    List.contains_eq_mem, decide_eq_false_iff_not]
  intro member
  have listed : ∀ mark ∈ "/\\?#@".toList, forbiddenInOpaque mark = true := by decide
  exact other c (listed c member) rfl

/-- What a host is written with stands in hosts only. -/
theorem standsInHost_of_mem_text (normal : host.IsNormal cls) (member : c ∈ host.text) :
    standsInHost c = true := by
  cases host with
  | domain name =>
    obtain ⟨-, characters⟩ := normal
    split at characters
    · exact standsInHost_of_forbiddenInOpaque (characters c member).1.2 (characters c member).2
    · exact standsInHost_of_forbiddenInDomain (characters.2.1 c member)
  | ipv4 address =>
    rcases Text.mem_intercalate member with rfl | ⟨digits, listed, inside⟩
    · decide
    · obtain ⟨n, -, rfl⟩ := List.mem_map.mp listed
      exact standsInHost_of_digit (mem_toDigits (by decide) (by decide) inside)
  | ipv6 groups =>
    rw [text_ipv6] at member
    rcases List.mem_cons.mp member with rfl | member
    · decide
    · rcases List.mem_append.mp member with inside | close
      · rcases mem_innerText inside with rfl | digit
        · decide
        · exact standsInHost_of_digit digit
      · rw [List.mem_singleton.mp close]
        decide

/-- A host is not written as an empty text. -/
theorem text_ne_nil (normal : host.IsNormal cls) : host.text ≠ [] := by
  cases host with
  | domain name => exact normal.1
  | ipv4 address =>
    intro empty
    have labels := labels_ipv4 address
    rw [empty] at labels
    cases labels
  | ipv6 groups =>
    rw [text_ipv6]
    exact List.cons_ne_nil _ _

theorem bracketed?_of_not_mem (absent : '[' ∉ text) : bracketed? text = none := by
  unfold bracketed?
  split
  · exact absurd (List.mem_cons_self ..) absent
  · rfl

theorem bracketed?_ipv6 {groups : List Nat} (count : groups.length = 8) (fit : Fit groups) :
    bracketed? (Host.ipv6 groups).text = some (some (.ipv6 groups)) := by
  rw [text_ipv6, bracketed?, List.getLast?_concat, if_pos rfl, List.dropLast_concat,
    ipv6?_innerText count fit]
  rfl

theorem not_mem_of_forbidden {forbidden : Char → Bool} {mark : Char}
    (allowed : ∀ c ∈ name, forbidden c = false) (marked : forbidden mark = true) : mark ∉ name := by
  intro member
  rw [allowed mark member] at marked
  cases marked

/-- A text of ASCII in lower case is read as a name, if at all, as it is. -/
theorem domainHost?_of_isLowered (lowered : IsLowered text) (bracket : '[' ∉ text) (percent : '%' ∉ text)
    (read : domainHost? text = some host) :
    (endsInNumber text = true ∧ (ipv4? text).map .ipv4 = some host) ∨
      (endsInNumber text = false ∧ host = .domain text) := by
  have decoded : Text.Utf8.decode? (Text.Percent.decode text) = some text := by
    rw [Text.Percent.decode_of_not_mem percent]
    exact Text.Utf8.decode?_encode_of_ascii fun c member => (lowered c member).1
  rw [domainHost?, bracketed?_of_not_mem bracket] at read
  simp only [decoded, Option.bind_eq_bind, Option.bind_some, Option.bind_eq_some_iff] at read
  obtain ⟨name, written, read⟩ := read
  obtain rfl := ascii?_of_isLowered lowered written
  split at read
  · cases read
  · split at read
    · rename_i number
      exact Or.inl ⟨number, read⟩
    · rename_i number
      exact Or.inr ⟨by simpa using number, (Option.some.inj read).symm⟩

theorem isLowered_ipv4 (address : Nat) : IsLowered (Host.ipv4 address).text := by
  have digit : ∀ c ∈ "0123456789abcdef".toList, c.toNat < 0x80 ∧ c.isUpper = false := by decide
  intro c member
  rcases Text.mem_intercalate member with rfl | ⟨digits, listed, inside⟩
  · decide
  · obtain ⟨n, -, rfl⟩ := List.mem_map.mp listed
    exact digit c (mem_toDigits (by decide) (by decide) inside)

theorem not_mem_ipv4 {mark : Char} (dot : mark ≠ '.') (other : mark ∉ "0123456789abcdef".toList)
    (address : Nat) : mark ∉ (Host.ipv4 address).text := by
  intro member
  rcases Text.mem_intercalate member with same | ⟨digits, listed, inside⟩
  · exact dot same
  · exact not_mem_toDigits other (by decide) (by decide) _ digits listed inside

/-- A host of a scheme with well-known servers is read back, if its text is a host at all. -/
theorem domainHost?_text (known : cls ≠ .other) (normal : host.IsNormal cls)
    (read : domainHost? host.text = some found) : found = host := by
  cases host with
  | domain name =>
    obtain ⟨-, characters⟩ := normal
    rw [if_neg known] at characters
    obtain ⟨lowered, allowed, number⟩ := characters
    have bracket : '[' ∉ name := not_mem_of_forbidden allowed (by decide)
    have percent : '%' ∉ name := not_mem_of_forbidden allowed (by decide)
    rcases domainHost?_of_isLowered lowered bracket percent read with ⟨other, -⟩ | ⟨-, same⟩
    · exact absurd (number.symm.trans other) (by decide)
    · exact same
  | ipv4 address =>
    have bracket := not_mem_ipv4 (by decide) (by decide : '[' ∉ _) address
    have percent := not_mem_ipv4 (by decide) (by decide : '%' ∉ _) address
    rcases domainHost?_of_isLowered (isLowered_ipv4 address) bracket percent read with
      ⟨-, same⟩ | ⟨other, -⟩
    · rw [ipv4?_text normal.2] at same
      exact (Option.some.inj same).symm
    · rw [endsInNumber_ipv4] at other
      cases other
  | ipv6 groups =>
    rw [domainHost?, bracketed?_ipv6 normal.1 normal.2] at read
    exact (Option.some.inj read).symm

/-- A host of any other scheme is read back. -/
theorem opaqueHost?_text (normal : host.IsNormal .other) : opaqueHost? host.text = some host := by
  cases host with
  | domain name =>
    obtain ⟨-, characters⟩ := normal
    rw [if_pos rfl] at characters
    have bracket : '[' ∉ name :=
      not_mem_of_forbidden (fun c member => (characters c member).2) (by decide)
    have allowed : name.any forbiddenInOpaque = false :=
      List.any_eq_false.mpr fun c member => by simp [(characters c member).2]
    have kept : Text.Percent.encode isControl name = name :=
      Text.Percent.encode_of_kept fun c member => (characters c member).1
    have read : opaqueHost? name = some (.domain name) := by
      rw [opaqueHost?, bracketed?_of_not_mem bracket]
      simp only [allowed, Bool.false_eq_true, if_false, kept]
    exact read
  | ipv4 address => exact absurd rfl normal.1
  | ipv6 groups => rw [opaqueHost?, bracketed?_ipv6 normal.1 normal.2]

/-- A text without colons and brackets is passed on the way to the end of a host. -/
theorem hostLength_append (bracketed : Bool) {front : List Char} (opening : '[' ∉ front)
    (close : ']' ∉ front) (colon : bracketed = false → ':' ∉ front) (tail : List Char) :
    hostLength bracketed (front ++ tail) = front.length + hostLength bracketed tail := by
  induction front with
  | nil => rw [List.nil_append, List.length_nil, Nat.zero_add]
  | cons c front ih =>
    have outside : ¬(c = ':' ∧ ¬bracketed = true) := by
      rintro ⟨rfl, free⟩
      exact colon (Bool.eq_false_iff.mpr free) (List.mem_cons_self ..)
    have notOpening : c ≠ '[' := fun same => opening (by rw [same]; exact List.mem_cons_self ..)
    have notClose : c ≠ ']' := fun same => close (by rw [same]; exact List.mem_cons_self ..)
    have behind := ih (fun member => opening (List.mem_cons_of_mem c member))
      (fun member => close (List.mem_cons_of_mem c member))
      (fun free member => colon free (List.mem_cons_of_mem c member))
    rw [List.cons_append, hostLength, if_neg outside, if_neg notOpening, if_neg notClose, behind,
      List.length_cons]
    omega

/-- The host ends where a service number begins. -/
theorem hostLength_text (normal : host.IsNormal cls) {tail : List Char}
    (ends : tail = [] ∨ tail.head? = some ':') : hostLength false (host.text ++ tail) = host.text.length := by
  have stop : hostLength false tail = 0 := by
    rcases ends with rfl | first
    · rfl
    · cases tail with
      | nil => cases first
      | cons c tail =>
        obtain rfl := Option.some.inj first
        exact if_pos (by decide)
  cases host with
  | domain name =>
    have marks : '[' ∉ name ∧ ']' ∉ name ∧ ':' ∉ name := by
      obtain ⟨-, characters⟩ := normal
      split at characters
      · have allowed : ∀ c ∈ name, forbiddenInOpaque c = false := fun c member => (characters c member).2
        exact ⟨not_mem_of_forbidden allowed (by decide), not_mem_of_forbidden allowed (by decide),
          not_mem_of_forbidden allowed (by decide)⟩
      · have allowed := characters.2.1
        exact ⟨not_mem_of_forbidden allowed (by decide), not_mem_of_forbidden allowed (by decide),
          not_mem_of_forbidden allowed (by decide)⟩
    have passed := hostLength_append false marks.1 marks.2.1 (fun _ => marks.2.2) tail
    rw [stop, Nat.add_zero] at passed
    exact passed
  | ipv4 address =>
    rw [hostLength_append false (not_mem_ipv4 (by decide) (by decide) address)
      (not_mem_ipv4 (by decide) (by decide) address)
      (fun _ => not_mem_ipv4 (by decide) (by decide) address), stop, Nat.add_zero]
  | ipv6 groups =>
    have other (mark : Char) (colon : mark ≠ ':') (digit : mark ∉ "0123456789abcdef".toList) :
        mark ∉ innerText groups := by
      intro member
      rcases mem_innerText member with same | inside
      · exact colon same
      · exact digit inside
    have inner := hostLength_append true (other '[' (by decide) (by decide))
      (other ']' (by decide) (by decide)) (fun free => nomatch free) (']' :: tail)
    have first : hostLength false ('[' :: (innerText groups ++ ']' :: tail)) =
        hostLength true (innerText groups ++ ']' :: tail) + 1 := rfl
    have last : hostLength true (']' :: tail) = hostLength false tail + 1 := rfl
    rw [text_ipv6, List.cons_append, List.append_assoc, List.singleton_append, first, inner, last, stop,
      List.length_cons, List.length_append, List.length_singleton]

end Url

end FusionAtlas
