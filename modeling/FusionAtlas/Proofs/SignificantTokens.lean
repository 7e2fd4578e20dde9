import FusionAtlas.Proofs.Derivations

/-!
The tokens that mean something, and what stands between them. Two of them that follow one another have only
blanks and comments between; those that lie in a range are the ones from where it starts. Main statements:
`exists_gap` and `tokensWithin_of_suffix`.
-/

set_option autoImplicit false
set_option relaxedAutoImplicit false

namespace FusionAtlas

open Text (StandsAt byteSize)

variable {text : String} {t u : Token} {ts more : List Token} {range : ByteRange}

theorem mem_tokenize_of_significant (member : t ∈ significantTokens text) : t ∈ tokenize text :=
  List.mem_of_mem_filter member

theorem pairwise_significant (text : String) :
    (significantTokens text).Pairwise fun a b => a.stop ≤ b.start :=
  (pairwise_tokenize text).filter _

theorem inPlace_of_significant (member : t ∈ significantTokens text) : t.InPlace text.toList :=
  inPlace_of_mem_tokenize (mem_tokenize_of_significant member)

/-- Some tokens that follow one another are the piece of the text that they cover. -/
theorem standsAt_written {front mid behind : List Token} (whole : tokenize text = front ++ mid ++ behind) :
    StandsAt text.toList (Token.written mid) (byteSize (Token.written front)) := by
  refine ⟨Token.written front, Token.written behind, ?_, rfl⟩
  have all := Token.Lexer.flatMap_tokensFrom true 0 text.toList
  change Token.written (tokenize text) = text.toList at all
  rw [← all, whole, Token.written_append, Token.written_append]

/-- Between two tokens of which one is next to the other stand only blanks and comments. -/
theorem exists_gap (next : [t, u] <:+: significantTokens text) :
    ∃ gap : List Token, (∀ g ∈ gap, g ∈ tokenize text ∧ g.kind.isTrivia = true) ∧
      u.start = t.start + byteSize (t.text.toList ++ Token.written gap) ∧
      StandsAt text.toList (t.text.toList ++ Token.written gap) t.start := by
  obtain ⟨early, late, whole⟩ := next
  have filtered : (tokenize text).filter (fun t => !t.kind.isTrivia) = early ++ (t :: u :: late) := by
    rw [List.append_assoc] at whole
    exact whole.symm
  obtain ⟨front, rest, tokens, -, found⟩ := List.filter_eq_append_iff.mp filtered
  obtain ⟨lead, rest, rfl, -, -, found⟩ := List.filter_eq_cons_iff.mp found
  obtain ⟨gap, behind, rfl, trivia, -, -⟩ := List.filter_eq_cons_iff.mp found
  have contiguous := Token.Lexer.contiguous_tokensFrom true 0 text.toList
  change Token.Contiguous 0 (tokenize text) at contiguous
  have first : tokenize text = (front ++ lead) ++ t :: (gap ++ u :: behind) := by
    rw [tokens]
    simp
  have second : tokenize text = (front ++ lead ++ t :: gap) ++ u :: behind := by
    rw [tokens]
    simp
  have start : t.start = byteSize (Token.written (front ++ lead)) := by
    rw [first] at contiguous
    rw [Token.start_of_contiguous contiguous, Nat.zero_add]
  have stop : u.start = byteSize (Token.written (front ++ lead ++ t :: gap)) := by
    rw [second] at contiguous
    rw [Token.start_of_contiguous contiguous, Nat.zero_add]
  refine ⟨gap, ?_, ?_, ?_⟩
  · intro g member
    refine ⟨?_, by simpa using trivia g member⟩
    rw [first]
    exact List.mem_append_right _ (List.mem_cons_of_mem t (List.mem_append_left _ member))
  · rw [stop, start, Token.written_append, Text.byteSize_append, Token.written_cons]
  · have stands := standsAt_written (show tokenize text = (front ++ lead) ++ (t :: gap) ++ u :: behind by
      rw [tokens]
      simp)
    rwa [← start, Token.written_cons] at stands

/-- Tokens that follow one another with nothing between are one piece of the text. -/
theorem standsAt_contiguous (inPlace : ∀ t ∈ ts, t.InPlace text.toList) {start : Nat}
    (boundary : Text.IsBoundary text.toList start) (contiguous : Token.Contiguous start ts) :
    StandsAt text.toList (Token.written ts) start := by
  induction ts generalizing start with
  | nil =>
    obtain ⟨front, behind, whole, rfl⟩ := boundary
    exact ⟨front, behind, by simpa [Token.written] using whole, rfl⟩
  | cons t ts ih =>
    obtain ⟨here, others⟩ := contiguous
    obtain ⟨first, rest⟩ := List.forall_mem_cons.mp inPlace
    rw [Token.written_cons]
    subst here
    exact first.standsAt.append (ih rest first.stop others)

/-- The tokens in a range that mean something. -/
def tokensWithin (text : String) (range : ByteRange) : List Token :=
  (significantTokens text).filter fun t => range.start ≤ t.start ∧ t.stop ≤ range.stop

/-- Tokens in a range come from where it starts on. -/
theorem tokensWithin_of_suffix (suffix : t :: ts <:+ significantTokens text)
    (start : range.start = t.start) :
    tokensWithin text range =
      (t :: ts).filter fun t => range.start ≤ t.start ∧ t.stop ≤ range.stop := by
  obtain ⟨front, whole⟩ := suffix
  have apart := pairwise_significant text
  rw [← whole] at apart
  have none : (front.filter fun t => range.start ≤ t.start ∧ t.stop ≤ range.stop) = [] := by
    refine List.filter_eq_nil_iff.mpr fun early member inside => ?_
    have order : early.stop ≤ t.start :=
      (List.pairwise_append.mp apart).2.2 early member t List.mem_cons_self
    have lt := (inPlace_of_significant (whole ▸ List.mem_append_left _ member : early ∈ _)).lt
    rw [decide_eq_true_eq] at inside
    omega
  rw [tokensWithin, ← whole, List.filter_append, none, List.nil_append]

/-- No token starts before the first of those from some place on. -/
theorem start_le_of_suffix (suffix : t :: ts <:+ significantTokens text) :
    ∀ u ∈ t :: ts, t.start ≤ u.start := by
  intro u member
  rcases List.mem_cons.mp member with rfl | later
  · exact Nat.le_refl _
  · have apart := (pairwise_significant text).sublist suffix.sublist
    have lt := (inPlace_of_significant (suffix.subset List.mem_cons_self : t ∈ _)).lt
    exact Nat.le_of_lt (Nat.lt_of_lt_of_le lt (List.rel_of_pairwise_cons apart later))

/-- The tokens from the start of one to the end of another are those and the ones between. -/
theorem tokensWithin_of_split {front behind : List Token} {last : Token}
    (suffix : t :: ts <:+ significantTokens text) (split : t :: ts = front ++ last :: behind) :
    tokensWithin text ⟨t.start, last.stop⟩ = front ++ [last] := by
  have order : ∀ u ∈ t :: ts, t.start ≤ u.start ∧ u.start < u.stop := fun u member =>
    ⟨start_le_of_suffix suffix u member, (inPlace_of_significant (suffix.subset member)).lt⟩
  have whole : t :: ts = front ++ [last] ++ behind := by rw [split]; simp
  have apart := (pairwise_significant text).sublist suffix.sublist
  rw [tokensWithin_of_suffix suffix rfl, whole, List.filter_append]
  rw [whole] at apart order
  obtain ⟨first, -, between⟩ := List.pairwise_append.mp apart
  obtain ⟨-, -, before⟩ := List.pairwise_append.mp first
  have inside : ∀ u ∈ front ++ [last], u.stop ≤ last.stop := by
    refine List.forall_mem_append.mpr ⟨fun u member => ?_, List.forall_mem_singleton.mpr (Nat.le_refl _)⟩
    have lt := (order last (by simp)).2
    exact Nat.le_of_lt (Nat.lt_of_le_of_lt (before u member last (List.mem_singleton_self _)) lt)
  have kept : (front ++ [last]).filter
      (fun u => t.start ≤ u.start ∧ u.stop ≤ last.stop) = front ++ [last] :=
    List.filter_eq_self.mpr fun u member => decide_eq_true
      ⟨(order u (List.mem_append_left _ member)).1, inside u member⟩
  have dropped : behind.filter (fun u => t.start ≤ u.start ∧ u.stop ≤ last.stop) = [] := by
    refine List.filter_eq_nil_iff.mpr fun u member within => ?_
    have le := between last (List.mem_append_right _ (List.mem_singleton_self _)) u member
    have lt := (order u (List.mem_append_right _ member)).2
    rw [decide_eq_true_eq] at within
    omega
  exact (congrArg₂ (· ++ ·) kept dropped).trans (List.append_nil _)

end FusionAtlas
