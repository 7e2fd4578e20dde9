import FusionAtlas.Proofs.MovedStatements
import FusionAtlas.Proofs.SignificantTokens
import FusionAtlas.Proofs.TokenSpelling

/-!
Include lines keep to themselves. What such a line holds, however much it looks like a comment, a string or a
block, is cut and read as one piece, and what follows the line is cut and read as if it were a text of its own;
no other word is ever taken for such a line. Main statement: `include_line_isolated`.
-/

set_option autoImplicit false
set_option relaxedAutoImplicit false

namespace FusionAtlas

open FusionAtlas.Text (byteSize isBlank afterLast)

namespace Token.Lexer

variable {blank : Bool} {rest : List Char}

/-- A line is blank so far if all that stands behind the last line feed is. -/
theorem blankAfter_eq_true_iff (front : List Char) :
    blankAfter true front = true ↔ ∀ c ∈ afterLast '\n' front, isBlank c = true := by
  induction front using List.reverseRecOn with
  | nil => exact ⟨fun _ => nofun, fun _ => rfl⟩
  | append_singleton front c ih =>
    have step : blankAfter true (front ++ [c]) = (c == '\n' || (blankAfter true front && isBlank c)) :=
      List.foldl_append
    by_cases feed : c = '\n'
    · rw [step, feed, Text.afterLast_append_cons front (List.not_mem_nil)]
      exact ⟨fun _ => nofun, fun _ => rfl⟩
    · have apart : '\n' ∉ [c] := fun member => feed (List.mem_singleton.mp member).symm
      rw [step, beq_eq_false_iff_ne.mpr feed, Bool.false_or, Bool.and_eq_true, ih, Text.afterLast_append front apart,
        List.forall_mem_append, List.forall_mem_singleton]

theorem isBlank_of_isSpace {c : Char} (space : isSpace c = true) : isBlank c = true := by
  simp only [isSpace, Bool.or_eq_true, beq_iff_eq] at space
  rcases space with (((rfl | rfl) | rfl) | rfl) | rfl <;> decide

theorem blankAfter_of_isSpace {text : List Char} (spaces : ∀ c ∈ text, isSpace c = true) :
    blankAfter true text = true :=
  (blankAfter_eq_true_iff text).mpr fun c member => isBlank_of_isSpace (spaces c (by
    rw [afterLast, List.mem_reverse] at member
    exact List.mem_reverse.mp ((List.takeWhile_prefix _).subset member)))

/-- What was read of the line before a line feed does not matter behind it. -/
theorem tokensFrom_feed (blank : Bool) (start : Nat) (rest : List Char) :
    tokensFrom blank start ('\n' :: rest) = tokensFrom true start ('\n' :: rest) := by
  have found (blank : Bool) : next blank '\n' rest = (.whitespace, (rest.takeWhile isSpace).length) := rfl
  have line (piece : List Char) : blankAfter blank ('\n' :: piece) = blankAfter true ('\n' :: piece) := rfl
  rw [tokensFrom, tokensFrom, found, found, line]

/-- Blanks are one token where something else follows, and the line behind them is as blank as before. -/
theorem cut_spaces {spaces ahead : List Char} (written : spaces ≠ []) (all : ∀ c ∈ spaces, isSpace c = true)
    (ends : Ends .whitespace ahead) : Cut true true [⟨.whitespace, spaces⟩] ahead := by
  obtain ⟨c, more, rfl⟩ := List.exists_cons_of_ne_nil written
  have blank := blankAfter_of_isSpace all
  obtain ⟨first, others⟩ := List.forall_mem_cons.mp all
  have cut : Cut true _ [⟨.whitespace, c :: more⟩] ahead := Cut.single (next_whitespace first others ends)
  rwa [blank] at cut

/-- The tokens that mean something from an offset on, at the start of a line. -/
def significantFrom (start : Nat) (text : List Char) : List Token :=
  (tokensFrom true start text).filter fun t => !t.kind.isTrivia

/-- Blanks in front of a text do no more than move its tokens. -/
theorem significantFrom_spaces (start : Nat) {spaces : List Char} (all : ∀ c ∈ spaces, isSpace c = true)
    (rest : List Char) :
    significantFrom start (spaces ++ rest) = significantFrom (start + byteSize spaces) rest := by
  -- The blanks go on into the text, up to the first character that is none.
  have upTo (start : Nat) {run behind : List Char} (all : ∀ c ∈ run, isSpace c = true)
      (ends : Ends .whitespace behind) :
      significantFrom start (run ++ behind) = significantFrom (start + byteSize run) behind := by
    by_cases none : run = []
    · rw [none, List.nil_append, byteSize, Nat.add_zero]
    · have cut := cut_spaces none all ends start
      rw [spell_cons, show spell [] = [] from rfl, List.append_nil] at cut
      rw [significantFrom, cut, List.filter_append]
      rfl
  have split : rest.takeWhile isSpace ++ rest.dropWhile isSpace = rest := List.takeWhile_append_dropWhile
  have inside : ∀ c ∈ rest.takeWhile isSpace, isSpace c = true := fun c member => List.mem_takeWhile_imp member
  have ends : Ends .whitespace (rest.dropWhile isSpace) := fun d here => by
    rw [admits, head?_dropWhile isSpace rest d here]
    rfl
  rw [← split, ← List.append_assoc, upTo start (List.forall_mem_append.mpr ⟨all, inside⟩) ends,
    upTo _ inside ends, Text.byteSize_append, Nat.add_assoc]

/-- What an include line among the tokens of a text is, and where it stands. -/
theorem includeLine_of_mem {text : String} {t : Token} (member : t ∈ tokenize text) (line : t.kind = .includeLine) :
    ∃ front behind, text.toList = front ++ t.text.toList ++ behind ∧ t.start = byteSize front ∧
      (∀ c ∈ afterLast '\n' front, isBlank c = true) ∧ IsIncludeLine t.text.toList ∧
      ∀ c ∈ behind.head?, c = '\n' := by
  obtain ⟨front, c, rest, whole, start, kind, chars, -⟩ := cutFrom_of_mem true 0 text.toList [] rfl rfl member
  rw [List.nil_append] at whole
  obtain ⟨first, spelled, ends⟩ := includeLine_next (kind.symm.trans line)
  refine ⟨front, _, ?_, start, (blankAfter_eq_true_iff front).mp first, chars ▸ spelled, ends⟩
  rw [whole, chars, List.append_assoc, List.cons_append, List.take_append_drop]

end Token.Lexer

/-- An include line is one statement of a list, which goes on behind it. -/
theorem Template.statementList_includeLine (source : Source) (inBlock : Bool) {c : Cursor} {t : Token}
    {ts : List Token} (here : c.rest = t :: ts) (kind : t.kind = .includeLine) :
    (statementList source inBlock c).value = includeLine t :: (statementList source inBlock (c.past t ts)).value ∧
      (statementList source inBlock c).cursor = (statementList source inBlock (c.past t ts)).cursor := by
  obtain ⟨_, lastEnd, errors, intact⟩ := c
  cases here
  have read : statement source ⟨t :: ts, lastEnd, errors, intact⟩ =
      ⟨some (includeLine t), Cursor.past ⟨t :: ts, lastEnd, errors, intact⟩ t ts, Cursor.remaining_past_le rfl⟩ := by
    have line : lineStatement? source ⟨t :: ts, lastEnd, errors, intact⟩ = some ⟨some (includeLine t), _, _⟩ :=
      if_pos kind
    rw [statement]
    simp only [line]
  have apart : ¬(inBlock = true ∧ t.kind = .rightBrace) := fun both => by
    rw [kind] at both
    cases both.2
  have value := congrArg Step.value read
  have behind := congrArg Step.cursor read
  have progress : (statement source ⟨t :: ts, lastEnd, errors, intact⟩).cursor.remaining <
      Cursor.remaining ⟨t :: ts, lastEnd, errors, intact⟩ := by
    rw [behind]
    exact Nat.lt_succ_self _
  rw [statementList]
  simp only [if_neg apart, dif_pos progress]
  rw [value, behind]
  exact ⟨rfl, rfl⟩

open Token (tokensFrom_moved)
open Token.Lexer

section Line

variable {blanks path : String}

theorem tokenize_includeLine (spaces : ∀ c ∈ blanks.toList, isSpace c = true) (single : '\n' ∉ path.toList)
    (rest : String) :
    tokenize (blanks ++ "include:" ++ path ++ "\n" ++ rest) =
      (if blanks = "" then [] else [⟨.whitespace, blanks, 0⟩]) ++
        ⟨.includeLine, "include:" ++ path, byteSize blanks.toList⟩ ::
          (tokenize ("\n" ++ rest)).map (Token.moved (byteSize (blanks ++ "include:" ++ path).toList)) := by
  have plain : ∀ d ∈ path.toList, d ≠ '\n' := fun d member same => single (same ▸ member)
  have ends : Ends .includeLine ('\n' :: rest.toList) := fun d here => by
    obtain rfl := Option.some.inj here
    rfl
  obtain ⟨after, line⟩ := Cut.includeLine plain ends
  have behind : tokensFrom after (byteSize (blanks ++ "include:" ++ path).toList) ('\n' :: rest.toList) =
      (tokenize ("\n" ++ rest)).map (Token.moved (byteSize (blanks ++ "include:" ++ path).toList)) := by
    rw [tokensFrom_feed, tokenize, ← tokensFrom_moved, Nat.zero_add]
    simp
  have sign : includeSign ++ path.toList = ("include:" ++ path).toList := by simp [includeSign]
  have written : (blanks ++ "include:" ++ path ++ "\n" ++ rest).toList =
      blanks.toList ++ (("include:" ++ path).toList ++ '\n' :: rest.toList) := by simp
  have size : byteSize (blanks ++ "include:" ++ path).toList =
      byteSize blanks.toList + byteSize ("include:" ++ path).toList := by
    rw [← Text.byteSize_append, String.append_assoc, String.toList_append]
  have only : spell [⟨.includeLine, ("include:" ++ path).toList⟩] = ("include:" ++ path).toList :=
    List.flatMap_singleton ..
  rw [sign] at line
  rw [tokenize, written, ← behind, size]
  by_cases none : blanks = ""
  · have cut := line 0
    rw [only] at cut
    subst none
    rw [if_pos rfl, String.toList_empty, List.nil_append, cut, byteSize]
    simp only [placeAt, String.ofList_toList, List.cons_append, List.nil_append]
  · have spelled : spell [⟨.whitespace, blanks.toList⟩] = blanks.toList := List.flatMap_singleton ..
    have lead : Cut true true [⟨.whitespace, blanks.toList⟩]
        (("include:" ++ path).toList ++ '\n' :: rest.toList) := by
      refine cut_spaces (by simpa using none) spaces fun d here => ?_
      rw [← sign] at here
      obtain rfl := Option.some.inj here
      rfl
    have start := lead 0
    have cut := line (0 + byteSize blanks.toList)
    rw [spelled] at start
    rw [only] at cut
    rw [if_neg none, start, cut]
    simp only [placeAt, String.ofList_toList, List.cons_append, List.nil_append, Nat.zero_add]

/-- What means something behind the line is what does in the text behind it. -/
theorem significantTokens_includeLine (spaces : ∀ c ∈ blanks.toList, isSpace c = true)
    (single : '\n' ∉ path.toList) (rest : String) :
    significantTokens (blanks ++ "include:" ++ path ++ "\n" ++ rest) =
      ⟨.includeLine, "include:" ++ path, byteSize blanks.toList⟩ ::
        (significantTokens rest).map (Token.moved (byteSize (blanks ++ "include:" ++ path).toList + 1)) := by
  have significant (k : Nat) (ts : List Token) :
      (ts.map (Token.moved k)).filter (fun t => !t.kind.isTrivia) =
        (ts.filter fun t => !t.kind.isTrivia).map (Token.moved k) := by
    rw [List.filter_map]
    rfl
  have feed : (tokenize ("\n" ++ rest)).filter (fun t => !t.kind.isTrivia) =
      (significantTokens rest).map (Token.moved 1) := by
    have moved : tokensFrom true 1 rest.toList = (tokenize rest).map (Token.moved 1) :=
      tokensFrom_moved true 0 1 rest.toList
    have space : ∀ c ∈ ['\n'], isSpace c = true := by decide
    have skipped := significantFrom_spaces 0 space rest.toList
    rw [significantFrom, significantFrom] at skipped
    rw [tokenize, String.toList_append, show "\n".toList = ['\n'] from rfl, skipped, significantTokens, ← significant,
      ← moved]
    rfl
  have leading : (if blanks = "" then [] else [(⟨.whitespace, blanks, 0⟩ : Token)]).filter
      (fun t => !t.kind.isTrivia) = [] := by
    split <;> rfl
  rw [significantTokens, tokenize_includeLine spaces single, List.filter_append, leading, List.nil_append,
    List.filter_cons_of_pos rfl, significant, feed, List.map_map]
  congr 2
  funext t
  rw [Function.comp_apply, Token.moved, Token.moved, Token.moved, Nat.add_assoc, Nat.add_comm 1]

theorem parseTemplate_includeLine (spaces : ∀ c ∈ blanks.toList, isSpace c = true) (single : '\n' ∉ path.toList)
    (rest : String) :
    let line : ByteRange := ⟨byteSize blanks.toList, byteSize (blanks ++ "include:" ++ path).toList⟩
    let parsed := parseTemplate (blanks ++ "include:" ++ path ++ "\n" ++ rest)
    let alone := parseTemplate rest
    parsed.template.statements =
        .includeFile line (String.ofList (Text.trim path.toList)) ::
          Template.statementsMoved (line.stop + 1) alone.template.statements ∧
      parsed.template.size = alone.template.size + (line.stop + 1) ∧
      parsed.errors = alone.errors.map (Template.SyntaxError.moved (line.stop + 1)) ∧
      parsed.intact = alone.intact := by
  intro line parsed alone
  let source := Template.Source.ofText (blanks ++ "include:" ++ path ++ "\n" ++ rest)
  let small := Template.Source.ofText rest
  have ends : source.EndsIn (line.stop + 1) small := by
    refine ⟨(blanks ++ "include:" ++ path ++ "\n").toList, String.toList_append, ?_⟩
    rw [String.toList_append, Text.byteSize_append]
    rfl
  have tokens := significantTokens_includeLine spaces single rest
  let first : Token := ⟨.includeLine, "include:" ++ path, byteSize blanks.toList⟩
  let behind : Template.Cursor :=
    { rest := (significantTokens rest).map (Token.moved (line.stop + 1)), lastEnd := first.stop }
  have ahead : Template.Cursor.Ahead (line.stop + 1) { rest := significantTokens rest } behind :=
    ⟨rfl, Array.map_empty.symm, rfl⟩
  have others := Template.statementList_moved ends false ahead
  have read := Template.statementList_includeLine source false (c := { rest := first :: behind.rest }) rfl rfl
  have spelled : Template.includeLine first = .includeFile line (String.ofList (Text.trim path.toList)) := by
    have range : first.range = line := by
      rw [Token.range, Token.stop, ← Text.byteSize_append, ← String.toList_append, ← String.append_assoc]
    have sign : first.text.toList = "include".toList ++ ':' :: path.toList := by simp [first]
    have colon : (first.text.toList.dropWhile (· != ':')).drop 1 = path.toList := by
      rw [sign]
      rfl
    rw [Template.includeLine, range, colon]
  change (Template.statementList source false { rest := significantTokens _ }).value = _ ∧ _ ∧
    (Template.statementList source false { rest := significantTokens _ }).cursor.errors = _ ∧
    (Template.statementList source false { rest := significantTokens _ }).cursor.intact = _
  rw [tokens]
  refine ⟨?_, ends.size_eq, ?_, ?_⟩
  · refine read.1.trans ?_
    rw [spelled]
    exact congrArg (_ :: ·) others.value
  · exact (congrArg Template.Cursor.errors read.2).trans others.ahead.errors
  · exact (congrArg Template.Cursor.intact read.2).trans others.ahead.intact

/-- An include line is cut as one token and read as one statement, and what follows it as a text of its own; and
nothing else is ever taken for an include line. -/
theorem include_line_isolated (spaces : ∀ c ∈ blanks.toList, isSpace c = true) (single : '\n' ∉ path.toList)
    (rest : String) :
    let line : ByteRange := ⟨byteSize blanks.toList, byteSize (blanks ++ "include:" ++ path).toList⟩
    let text := blanks ++ "include:" ++ path ++ "\n" ++ rest
    tokenize text =
        (if blanks = "" then [] else [⟨.whitespace, blanks, 0⟩]) ++
          ⟨.includeLine, "include:" ++ path, line.start⟩ ::
            (tokenize ("\n" ++ rest)).map (Token.moved line.stop) ∧
      (parseTemplate text).template.statements =
        .includeFile line (String.ofList (Text.trim path.toList)) ::
          Template.statementsMoved (line.stop + 1) (parseTemplate rest).template.statements ∧
      (parseTemplate text).template.size = (parseTemplate rest).template.size + (line.stop + 1) ∧
      (parseTemplate text).errors = (parseTemplate rest).errors.map (Template.SyntaxError.moved (line.stop + 1)) ∧
      (parseTemplate text).intact = (parseTemplate rest).intact ∧
      ∀ (elsewhere : String), ∀ t ∈ tokenize elsewhere, t.kind = .includeLine →
        ∃ front behind, elsewhere.toList = front ++ t.text.toList ++ behind ∧ t.start = byteSize front ∧
          (∀ c ∈ afterLast '\n' front, isBlank c = true) ∧ IsIncludeLine t.text.toList ∧
          ∀ c ∈ behind.head?, c = '\n' := by
  obtain ⟨statements, size, errors, intact⟩ := parseTemplate_includeLine spaces single rest
  exact ⟨tokenize_includeLine spaces single rest, statements, size, errors, intact, fun _ _ member line =>
    Token.Lexer.includeLine_of_mem member line⟩

/-- A glob would open a comment anywhere else. -/
theorem include_line_isolated_glob :
    (∀ c ∈ "\t".toList, isSpace c = true) ∧ '\n' ∉ " A/**/*.fusion".toList ∧
      (parseTemplate ("\t" ++ "include:" ++ " A/**/*.fusion" ++ "\n" ++ "b >")).template.statements =
        .includeFile ⟨1, 23⟩ "A/**/*.fusion" ::
          Template.statementsMoved 24 (parseTemplate "b >").template.statements := by
  have spaces : ∀ c ∈ "\t".toList, isSpace c = true := by decide
  have single : '\n' ∉ " A/**/*.fusion".toList := by decide
  have line : (⟨byteSize "\t".toList, byteSize ("\t" ++ "include:" ++ " A/**/*.fusion").toList⟩ : ByteRange) =
      ⟨1, 23⟩ := by decide
  have path : String.ofList (Text.trim " A/**/*.fusion".toList) = "A/**/*.fusion" := by decide
  have read := (include_line_isolated spaces single "b >").2.1
  rw [line, path] at read
  exact ⟨spaces, single, read⟩

end Line

end FusionAtlas
