import FusionAtlas.Proofs.DomainName
import FusionAtlas.Url.Host

/-!
Addresses read back from how they are written. Numbers are written in the digits of their base, an
address of four bytes with dots between them, one of eight groups with colons and without its longest run
of zeros. Main statements: `Url.ipv4?_intercalate` and `Url.ipv6?_text`.
-/

set_option autoImplicit false
set_option relaxedAutoImplicit false

namespace FusionAtlas.Url

open Text (forall₂_of_mapM exists_of_mem_mapM mem_of_mem_splitOn mem_intercalate)

section Numbers

variable {base n : Nat} {digits : List Char} {c : Char}

/-- One more digit of a number. -/
def nextDigit? (base n : Nat) (c : Char) : Option Nat :=
  match Text.Percent.hexValue? c with
  | some d => if d < base then some (n * base + d) else none
  | none => none

theorem number?_eq (base : Nat) (digits : List Char) :
    number? base digits = digits.foldlM (nextDigit? base) 0 := rfl

theorem number?_concat (base : Nat) (digits : List Char) (c : Char) :
    number? base (digits ++ [c]) = (number? base digits).bind fun n => nextDigit? base n c := by
  rw [number?_eq, number?_eq, List.foldlM_append]
  simp only [List.foldlM_cons, List.foldlM_nil, Option.bind_eq_bind, Option.pure_def, Option.bind_fun_some]

/-- A number is bounded by the count of its digits. -/
theorem lt_of_number? (read : number? base digits = some n) :
    n < Nat.pow base digits.length := by
  have bound (k : Nat) (read : digits.foldlM (nextDigit? base) k = some n) :
      n < (k + 1) * base ^ digits.length := by
    clear * - read
    induction digits generalizing k with
    | nil =>
      obtain rfl := Option.some.inj read
      simp
    | cons c digits ih =>
      simp only [List.foldlM_cons, Option.bind_eq_bind, Option.bind_eq_some_iff] at read
      obtain ⟨m, first, rest⟩ := read
      have small : m + 1 ≤ (k + 1) * base := by
        unfold nextDigit? at first
        split at first
        · split at first
          · rw [← Option.some.inj first, Nat.add_mul]
            omega
          · cases first
        · cases first
      calc n < (m + 1) * base ^ digits.length := ih m rest
        _ ≤ (k + 1) * base * base ^ digits.length := Nat.mul_le_mul_right _ small
        _ = (k + 1) * base ^ (c :: digits).length := by
          rw [List.length_cons, Nat.pow_succ', Nat.mul_assoc]
  have least := bound 0 read
  rwa [Nat.zero_add, Nat.one_mul] at least

theorem hexValue?_digitChar {d : Nat} (bound : d < 16) :
    Text.Percent.hexValue? d.digitChar = some d := by
  have all : ∀ d : Fin 16, Text.Percent.hexValue? d.val.digitChar = some d.val := by decide
  exact all ⟨d, bound⟩

/-- A number is read back from its digits. -/
theorem number?_toDigits (least : 1 < base) (most : base ≤ 16) (n : Nat) :
    number? base (Nat.toDigits base n) = some n := by
  have digit (m d : Nat) (bound : d < base) : nextDigit? base m d.digitChar = some (m * base + d) := by
    rw [nextDigit?, hexValue?_digitChar (by omega)]
    exact if_pos bound
  induction n using Nat.strongRecOn with
  | ind n ih =>
    rw [Nat.toDigits_eq_if least]
    split
    · rename_i small
      rw [← List.nil_append [n.digitChar], number?_concat]
      exact (digit 0 n small).trans (by rw [Nat.zero_mul, Nat.zero_add])
    · rename_i large
      have smaller : n / base < n := Nat.div_lt_self (by omega) least
      rw [number?_concat, ih _ smaller, Option.bind_some, digit _ _ (Nat.mod_lt _ (by omega)),
        Nat.div_add_mod']

theorem mem_toDigits (least : 1 < base) (most : base ≤ 16) (member : c ∈ Nat.toDigits base n) :
    c ∈ "0123456789abcdef".toList := by
  have digit {d : Nat} (bound : d < base) : d.digitChar ∈ "0123456789abcdef".toList := by
    have all : ∀ d : Fin 16, d.val.digitChar ∈ "0123456789abcdef".toList := by decide
    exact all ⟨d, by omega⟩
  induction n using Nat.strongRecOn with
  | ind n ih =>
    rw [Nat.toDigits_eq_if least] at member
    split at member
    · rename_i small
      rw [List.mem_singleton.mp member]
      exact digit small
    · rcases List.mem_append.mp member with before | last
      · exact ih _ (Nat.div_lt_self (by omega) least) before
      · rw [List.mem_singleton.mp last]
        exact digit (Nat.mod_lt _ (by omega))

end Numbers

section FourBytes

variable {address : Nat} {name : List Char}

/-- The four bytes of an address. -/
def octets (address : Nat) : List Nat :=
  [address / 16777216 % 256, address / 65536 % 256, address / 256 % 256, address % 256]

theorem text_ipv4 (address : Nat) :
    (Host.ipv4 address).text = ['.'].intercalate ((octets address).map (Nat.toDigits 10)) := rfl

theorem not_mem_toDigits {mark : Char} (other : mark ∉ "0123456789abcdef".toList) {base : Nat}
    (least : 1 < base) (most : base ≤ 16) (numbers : List Nat) :
    ∀ digits ∈ numbers.map (Nat.toDigits base), mark ∉ digits := by
  intro digits listed member
  obtain ⟨n, -, rfl⟩ := List.mem_map.mp listed
  exact other (mem_toDigits least most member)

/-- The labels of an address are its numbers. -/
theorem labels_ipv4 (address : Nat) :
    labels (Host.ipv4 address).text = (octets address).map (Nat.toDigits 10) := by
  have parts : (Host.ipv4 address).text.splitOn '.' = (octets address).map (Nat.toDigits 10) := by
    rw [text_ipv4]
    exact List.splitOn_intercalate '.' (not_mem_toDigits (by decide) (by decide) (by decide) _)
      (List.cons_ne_nil _ _)
  have last : ((octets address).map (Nat.toDigits 10)).getLast? =
      some (Nat.toDigits 10 (address % 256)) := rfl
  rw [labels, parts, if_neg]
  rw [last]
  exact fun empty => Nat.toDigits_ne_nil (Option.some.inj empty)

theorem endsInNumber_ipv4 (address : Nat) : endsInNumber (Host.ipv4 address).text = true := by
  have nonempty : (Nat.toDigits 10 (address % 256)).isEmpty = false :=
    List.isEmpty_eq_false_iff.mpr Nat.toDigits_ne_nil
  have digits : (Nat.toDigits 10 (address % 256)).all Char.isDigit = true :=
    List.all_eq_true.mpr fun c member => Nat.isDigit_of_mem_toDigits (by decide) (by decide) member
  have last : ((octets address).map (Nat.toDigits 10)).getLast? =
      some (Nat.toDigits 10 (address % 256)) := rfl
  rw [endsInNumber, labels_ipv4, last]
  simp only [nonempty, digits, Bool.not_false, Bool.and_true, Bool.true_or]

theorem ipv4Number?_toDigits {n : Nat} (bound : n < 256) :
    ipv4Number? (Nat.toDigits 10 n) = some n := by
  have all : ∀ n : Fin 256, ipv4Number? (Nat.toDigits 10 n.val) = some n.val := by decide +kernel
  exact all ⟨n, bound⟩

/-- Four numbers of a byte each make an address. -/
theorem ipv4?_of_numbers {a b c d : Nat} (read : (labels name).mapM ipv4Number? = some [a, b, c, d])
    (first : a < 256) (second : b < 256) (third : c < 256) (last : d < 256) :
    ipv4? name = some (d + a * 16777216 + b * 65536 + c * 256) := by
  have weights : Nat.pow 256 3 = 16777216 ∧ Nat.pow 256 2 = 65536 ∧ Nat.pow 256 1 = 256 := by decide
  have small : ([a, b, c].any fun n => decide (n > 255)) = false := by
    simp only [List.any_cons, List.any_nil, Bool.or_false, Bool.or_eq_false_iff, decide_eq_false_iff_not]
    omega
  have allowed : ¬(3 ≥ 4 ∨ false = true ∨ d ≥ 256) := by
    rintro (count | absurd | large)
    · omega
    · cases absurd
    · omega
  simp only [ipv4?, read, Option.bind_eq_bind, Option.bind_some, List.getLast?_cons_cons,
    List.getLast?_singleton, List.dropLast_cons_cons, List.dropLast_singleton, List.length_cons,
    List.length_nil, Nat.zero_add, Nat.reduceAdd, Nat.reduceSub, small, weights, if_neg allowed,
    List.zipIdx_cons, List.zipIdx_nil, List.foldl_cons, List.foldl_nil, Nat.sub_zero]

/-- An address is read back from its four numbers. -/
theorem ipv4?_text (bound : address < 4294967296) : ipv4? (Host.ipv4 address).text = some address := by
  have byte (n : Nat) : n % 256 < 256 := Nat.mod_lt _ (by decide)
  have numbers : (labels (Host.ipv4 address).text).mapM ipv4Number? = some (octets address) := by
    have small (n : Nat) : ipv4Number? (Nat.toDigits 10 (n % 256)) = some (n % 256) :=
      ipv4Number?_toDigits (byte n)
    rw [labels_ipv4]
    simp only [octets, List.map_cons, List.map_nil, List.mapM_cons, List.mapM_nil, small,
      Option.bind_eq_bind, Option.bind_some, Option.pure_def]
  rw [ipv4?_of_numbers numbers (byte _) (byte _) (byte _) (byte _)]
  congr 1
  omega

/-- Numbers of a byte each add less than one in the place before them. -/
theorem foldl_lt {numbers : List Nat} {start last : Nat} (count : start + numbers.length ≤ 4)
    (small : ∀ n ∈ numbers, n < 256) (rest : last < Nat.pow 256 (4 - (start + numbers.length)))
    (before : Nat) :
    (numbers.zipIdx start).foldl (fun sum p => sum + p.1 * Nat.pow 256 (3 - p.2)) (last + before) <
      before + Nat.pow 256 (4 - start) := by
  induction numbers generalizing start before with
  | nil =>
    rw [List.length_nil, Nat.add_zero] at rest
    rw [List.zipIdx_nil, List.foldl_nil]
    omega
  | cons n numbers ih =>
    rw [List.length_cons, Nat.add_comm numbers.length, ← Nat.add_assoc] at count rest
    obtain ⟨first, others⟩ := List.forall_mem_cons.mp small
    have behind := ih count others rest (before + n * Nat.pow 256 (3 - start))
    have place : Nat.pow 256 (4 - start) = Nat.pow 256 (3 - start) * 256 := by
      rw [show 4 - start = (3 - start) + 1 by omega]
      rfl
    have carried : n * Nat.pow 256 (3 - start) + Nat.pow 256 (3 - start) ≤ Nat.pow 256 (4 - start) := by
      rw [place, ← Nat.succ_mul, Nat.mul_comm]
      exact Nat.mul_le_mul_left _ first
    rw [show 4 - (start + 1) = 3 - start by omega] at behind
    rw [List.zipIdx_cons, List.foldl_cons, Nat.add_assoc]
    exact Nat.lt_of_lt_of_le behind (by omega)

/-- An address has four bytes. -/
theorem lt_of_ipv4? (read : ipv4? name = some address) : address < 4294967296 := by
  simp only [ipv4?, Option.bind_eq_bind, Option.bind_eq_some_iff] at read
  obtain ⟨numbers, -, last, -, sum⟩ := read
  split at sum
  · cases sum
  · rename_i bounds
    rw [not_or, not_or] at bounds
    obtain ⟨count, small, rest⟩ := bounds
    rw [← Option.some.inj sum]
    have each : ∀ n ∈ numbers.dropLast, n < 256 := by
      intro n member
      by_contra large
      exact small (List.any_eq_true.mpr ⟨n, member, decide_eq_true (by omega)⟩)
    have count : 0 + numbers.dropLast.length ≤ 4 := by omega
    have bound := foldl_lt count each (by rw [Nat.zero_add]; exact Nat.lt_of_not_le rest) 0
    rw [Nat.zero_add] at bound
    exact bound

end FourBytes

section EightGroups

variable {groups : List Nat} {text : List Char} {start n : Nat}

/-- The groups of an address fit in sixteen bits. -/
def Fit (groups : List Nat) : Prop := ∀ g ∈ groups, g < 65536

theorem exists_zeros (groups : List Nat) :
    ∃ rest, groups = List.replicate ((zeroRuns groups).headD 0) 0 ++ rest := by
  induction groups with
  | nil => exact ⟨[], rfl⟩
  | cons g groups ih =>
    obtain ⟨rest, split⟩ := ih
    rw [zeroRuns, List.headD_cons]
    split
    · rename_i zero
      refine ⟨rest, ?_⟩
      rw [List.replicate_succ, List.cons_append, ← split, zero]
    · exact ⟨g :: groups, rfl⟩

/-- A run of zeros stands where it is counted. -/
theorem zeros_of_zeroRuns (counted : (zeroRuns groups)[start]? = some n) :
    ∃ before behind, groups = before ++ List.replicate n 0 ++ behind ∧ before.length = start := by
  induction groups generalizing start with
  | nil => cases counted
  | cons g groups ih =>
    cases start with
    | zero =>
      obtain ⟨rest, split⟩ := exists_zeros (g :: groups)
      have first : (zeroRuns (g :: groups)).headD 0 = n := Option.some.inj counted
      rw [first] at split
      exact ⟨[], rest, split, rfl⟩
    | succ start =>
      obtain ⟨before, behind, split, place⟩ := ih counted
      exact ⟨g :: before, behind, by rw [List.cons_append, List.cons_append, ← split], congrArg _ place⟩

/-- The longest run of zeros is one of them, and at least two zeros long. -/
theorem zeroRuns_of_longestZeros (longest : longestZeros groups = some (start, n)) :
    2 ≤ n ∧ (zeroRuns groups)[start]? = some n := by
  let found (best : Option (Nat × Nat)) : Prop :=
    ∀ start n, best = some (start, n) → 2 ≤ n ∧ (n, start) ∈ (zeroRuns groups).zipIdx
  have kept : found (longestZeros groups) := by
    refine List.foldlRecOn (motive := found) _ _ (fun _ _ none => nomatch none) ?_
    intro best held p member start n same
    have here (long : 2 ≤ p.1) (same : some (p.2, p.1) = some (start, n)) :
        2 ≤ n ∧ (n, start) ∈ (zeroRuns groups).zipIdx := by
      obtain ⟨rfl, rfl⟩ := Prod.mk.inj (Option.some.inj same)
      exact ⟨long, member⟩
    cases best with
    | none =>
      simp only at same
      split at same
      · exact here ‹_› same
      · cases same
    | some old =>
      have least := (held old.1 old.2 rfl).1
      simp only at same
      split at same
      · exact here (by omega) same
      · exact held start n same
  obtain ⟨long, member⟩ := kept start n longest
  exact ⟨long, List.mk_mem_zipIdx_iff_getElem?.mp member⟩

theorem mem_hexText {c : Char} {g : Nat} (member : c ∈ hexText g) : c ∈ "0123456789abcdef".toList :=
  mem_toDigits (by decide) (by decide) member

theorem ne_colon_of_hexText {c : Char} {g : Nat} (member : c ∈ hexText g) : c ≠ ':' := by
  rintro rfl
  exact absurd (mem_hexText member) (by decide)

theorem joinGroups_singleton (g : Nat) : joinGroups [g] = hexText g := List.intercalate_singleton

theorem joinGroups_cons_cons (g next : Nat) (groups : List Nat) :
    joinGroups (g :: next :: groups) = hexText g ++ ':' :: joinGroups (next :: groups) := by
  rw [joinGroups, List.map_cons, List.map_cons, List.intercalate_cons_cons, List.append_assoc]
  rfl

/-- The text of groups starts with a digit. -/
theorem exists_digit (g : Nat) (groups : List Nat) :
    ∃ d rest, joinGroups (g :: groups) = d :: rest ∧ d ∈ "0123456789abcdef".toList := by
  obtain ⟨d, more, spelled⟩ := List.exists_cons_of_ne_nil (Nat.toDigits_ne_nil (n := g) (b := 16))
  have shown : hexText g = d :: more := spelled
  have digit : d ∈ "0123456789abcdef".toList :=
    mem_hexText (g := g) (by rw [shown]; exact List.mem_cons_self ..)
  cases groups with
  | nil => exact ⟨d, more, by rw [joinGroups_singleton, shown], digit⟩
  | cons next groups =>
    exact ⟨d, more ++ ':' :: joinGroups (next :: groups), by
      rw [joinGroups_cons_cons, shown, List.cons_append], digit⟩

theorem mem_joinGroups {c : Char} (member : c ∈ joinGroups groups) :
    c = ':' ∨ c ∈ "0123456789abcdef".toList := by
  rcases mem_intercalate member with colon | ⟨digits, listed, inside⟩
  · exact Or.inl colon
  · obtain ⟨g, -, rfl⟩ := List.mem_map.mp listed
    exact Or.inr (mem_hexText inside)

/-- Before two colons next to each other stands what has none of them. -/
theorem splitFirst?_append {before : List Char} (colons : ':' ∉ before) (tail : List Char) :
    Text.splitFirst? "::".toList (before ++ tail) =
      (Text.splitFirst? "::".toList tail).map fun parts => (before ++ parts.1, parts.2) := by
  induction before with
  | nil =>
    simp only [List.nil_append, Prod.eta, Option.map_id_fun', id]
  | cons c before ih =>
    rw [List.mem_cons, not_or] at colons
    have other : Text.afterOpening? "::".toList (c :: (before ++ tail)) = none := if_neg colons.1
    rw [List.cons_append, Text.splitFirst?, other]
    simp only
    rw [ih colons.2, Option.map_map]
    rfl

theorem splitFirst?_joinGroups (groups : List Nat) (tail : List Char) :
    Text.splitFirst? "::".toList (joinGroups groups ++ tail) =
      (Text.splitFirst? "::".toList tail).map fun parts => (joinGroups groups ++ parts.1, parts.2) := by
  have digits (g : Nat) : ':' ∉ hexText g := fun member => ne_colon_of_hexText member rfl
  induction groups with
  | nil => exact splitFirst?_append (List.not_mem_nil) tail
  | cons g groups ih =>
    cases groups with
    | nil =>
      rw [joinGroups_singleton]
      exact splitFirst?_append (digits g) tail
    | cons next groups =>
      -- A digit follows the colon, so the colon is the first of no two.
      obtain ⟨d, rest, shown, digit⟩ := exists_digit next groups
      have other : ':' ≠ d := by
        rintro rfl
        exact absurd digit (by decide)
      have single : Text.afterOpening? "::".toList (':' :: (joinGroups (next :: groups) ++ tail)) =
          none := by
        rw [shown]
        exact if_neg other
      rw [joinGroups_cons_cons, List.append_assoc, splitFirst?_append (digits g), List.cons_append,
        Text.splitFirst?, single]
      simp only [ih, Option.map_map, Function.comp_def, List.append_assoc, List.cons_append]

theorem group?_hexText {g : Nat} (bound : g < 65536) : group? (hexText g) = some g := by
  have length : (hexText g).length ≤ 4 := (Nat.length_toDigits_le_iff (by decide) (by decide)).mpr bound
  have nonempty : hexText g ≠ [] := Nat.toDigits_ne_nil
  rw [group?, if_neg]
  · exact number?_toDigits (by decide) (by decide) g
  · rw [not_or, List.isEmpty_iff]
    exact ⟨nonempty, by omega⟩

/-- Groups are read back from how they are joined. -/
theorem groups?_joinGroups (fit : Fit groups) : groups? (joinGroups groups) = some groups := by
  cases groups with
  | nil => rfl
  | cons g groups =>
    obtain ⟨d, rest, shown, -⟩ := exists_digit g groups
    have nonempty : (joinGroups (g :: groups)).isEmpty = false := by rw [shown]; rfl
    have parts : (joinGroups (g :: groups)).splitOn ':' = (g :: groups).map hexText := by
      refine List.splitOn_intercalate ':' (fun digits listed => ?_) (List.cons_ne_nil _ _)
      obtain ⟨h, -, rfl⟩ := List.mem_map.mp listed
      exact fun member => ne_colon_of_hexText member rfl
    have dots : ((((g :: groups).map hexText).getLast?.getD []).contains '.') = false := by
      rw [List.contains_eq_mem, decide_eq_false_iff_not]
      cases last : ((g :: groups).map hexText).getLast? with
      | none => exact List.not_mem_nil
      | some digits =>
        obtain ⟨h, -, rfl⟩ := List.mem_map.mp (List.mem_of_getLast? last)
        exact fun member => absurd (mem_hexText member) (by decide)
    have read : ((g :: groups).map hexText).mapM group? = some (g :: groups) := by
      clear dots parts nonempty shown
      generalize g :: groups = all at fit
      induction all with
      | nil => rfl
      | cons h all ih =>
        obtain ⟨first, others⟩ := List.forall_mem_cons.mp fit
        simp only [List.map_cons, List.mapM_cons, group?_hexText first, ih others, Option.bind_eq_bind,
          Option.bind_some, Option.pure_def]
    simp only [groups?, nonempty, parts, dots, Bool.false_eq_true, if_false, read]

/-- The text of an address between its brackets. -/
def innerText (groups : List Nat) : List Char :=
  match longestZeros groups with
  | none => joinGroups groups
  | some (start, n) => joinGroups (groups.take start) ++ "::".toList ++ joinGroups (groups.drop (start + n))

theorem text_ipv6 (groups : List Nat) : (Host.ipv6 groups).text = '[' :: (innerText groups ++ [']']) := by
  cases longest : longestZeros groups with
  | none => simp only [Host.text, innerText, longest, List.cons_append]
  | some run => simp only [Host.text, innerText, longest, List.cons_append]

theorem mem_innerText {c : Char} (member : c ∈ innerText groups) :
    c = ':' ∨ c ∈ "0123456789abcdef".toList := by
  unfold innerText at member
  split at member
  · exact mem_joinGroups member
  · rcases List.mem_append.mp member with front | behind
    · rcases List.mem_append.mp front with before | colons
      · exact mem_joinGroups before
      · have same : ∀ c ∈ "::".toList, c = ':' := by decide
        exact Or.inl (same c colons)
    · exact mem_joinGroups behind

/-- An address is read back from its groups, and the zeros that are left out are put in again. -/
theorem ipv6?_innerText (count : groups.length = 8) (fit : Fit groups) :
    ipv6? (innerText groups) = some groups := by
  cases longest : longestZeros groups with
  | none =>
    have whole := splitFirst?_joinGroups groups []
    rw [List.append_nil] at whole
    have inner : innerText groups = joinGroups groups := by rw [innerText, longest]
    have none : Text.splitFirst? "::".toList (joinGroups groups) = none := whole
    rw [inner, ipv6?, none]
    simp only [groups?_joinGroups fit, Option.bind_some, count, if_true]
  | some run =>
    obtain ⟨start, n⟩ := run
    obtain ⟨long, counted⟩ := zeroRuns_of_longestZeros longest
    obtain ⟨before, behind, split, rfl⟩ := zeros_of_zeroRuns counted
    have length : before.length + n + behind.length = 8 := by
      rw [← count, split, List.length_append, List.length_append, List.length_replicate]
    have front : groups.take before.length = before := by rw [split, List.append_assoc, List.take_left]
    have back : groups.drop (before.length + n) = behind := by
      rw [split]
      exact List.drop_left' (by rw [List.length_append, List.length_replicate])
    have inner : innerText groups = joinGroups before ++ ("::".toList ++ joinGroups behind) := by
      simp only [innerText, longest, front, back, List.append_assoc]
    have colons : Text.splitFirst? "::".toList ("::".toList ++ joinGroups behind) =
        some ([], joinGroups behind) := rfl
    have dots : (joinGroups before).contains '.' = false := by
      rw [List.contains_eq_mem, decide_eq_false_iff_not]
      intro member
      rcases mem_joinGroups member with colon | digit
      · exact absurd colon (by decide)
      · exact absurd digit (by decide)
    have fitBefore : Fit before := fun g member => fit g (by rw [split]; simp [member])
    have fitBehind : Fit behind := fun g member => fit g (by rw [split]; simp [member])
    have zeros : 8 - before.length - behind.length = n := by omega
    have shorter : before.length + behind.length ≤ 7 := by omega
    rw [inner, ipv6?, splitFirst?_joinGroups, colons]
    simp only [Option.map_some, List.append_nil, dots, Bool.false_eq_true, if_false,
      groups?_joinGroups fitBefore, groups?_joinGroups fitBehind, Option.bind_eq_bind, Option.bind_some,
      shorter, if_true, zeros, ← split]

theorem lt_of_group? {digits : List Char} {g : Nat} (read : group? digits = some g) : g < 65536 := by
  unfold group? at read
  split at read
  · cases read
  · rename_i bounds
    rw [not_or] at bounds
    calc g < 16 ^ digits.length := lt_of_number? read
      _ ≤ 16 ^ 4 := Nat.pow_le_pow_right (by decide) (by omega)

theorem le_of_octet? {digits : List Char} {n : Nat} (read : octet? digits = some n) : n ≤ 255 := by
  unfold octet? at read
  split at read
  · cases read
  · obtain ⟨m, -, small⟩ := Option.bind_eq_some_iff.mp read
    split at small
    · rename_i bound
      rwa [← Option.some.inj small]
    · cases small

theorem fit_of_mapM {parts : List (List Char)} (read : parts.mapM group? = some groups) : Fit groups := by
  intro g member
  obtain ⟨digits, -, here⟩ := exists_of_mem_mapM read member
  exact lt_of_group? here

theorem fit_of_groups? (read : groups? text = some groups) : Fit groups := by
  unfold groups? at read
  split at read
  · rw [← Option.some.inj read]
    exact List.forall_mem_nil _
  · simp only at read
    split at read
    · simp only [Option.bind_eq_bind, Option.bind_eq_some_iff] at read
      obtain ⟨first, before, numbers, octets, joined⟩ := read
      split at joined
      · rename_i a b c d
        have byte (n : Nat) (member : n ∈ [a, b, c, d]) : n ≤ 255 := by
          obtain ⟨digits, -, here⟩ := exists_of_mem_mapM octets member
          exact le_of_octet? here
        have bytes := And.intro (byte a (by simp)) (And.intro (byte b (by simp))
          (And.intro (byte c (by simp)) (byte d (by simp))))
        rw [← Option.some.inj joined]
        intro g member
        rcases List.mem_append.mp member with old | new
        · exact fit_of_mapM before g old
        · simp only [List.mem_cons, List.not_mem_nil, or_false] at new
          rcases new with rfl | rfl <;> omega
      · cases joined
    · exact fit_of_mapM read

/-- What is read as an address has eight groups of sixteen bits. -/
theorem fit_of_ipv6? (read : ipv6? text = some groups) : groups.length = 8 ∧ Fit groups := by
  unfold ipv6? at read
  split at read
  · obtain ⟨all, each, whole⟩ := Option.bind_eq_some_iff.mp read
    split at whole
    · rename_i count
      rw [← Option.some.inj whole]
      exact ⟨count, fit_of_groups? each⟩
    · cases whole
  · split at read
    · cases read
    · simp only [Option.bind_eq_bind, Option.bind_eq_some_iff] at read
      obtain ⟨first, before, second, behind, joined⟩ := read
      split at joined
      · rw [← Option.some.inj joined]
        refine ⟨by simp only [List.length_append, List.length_replicate]; omega, fun g member => ?_⟩
        rcases List.mem_append.mp member with front | back
        · rcases List.mem_append.mp front with old | zero
          · exact fit_of_groups? before g old
          · rw [List.eq_of_mem_replicate zero]
            decide
        · exact fit_of_groups? behind g back
      · cases joined

end EightGroups

end FusionAtlas.Url
