import FusionAtlas.Proofs.ReadingForward
import FusionAtlas.Proofs.StatementLayout

/-!
Reading, one activation at a time. A task is a rule of the grammar or a loop, `Task.read` is what the reader of it
gives, and `activate` is what a single activation of the reader does: it asks for other tasks instead of calling
their readers, so nothing in it recurses. Main statement: `Template.activate_agrees`: an activation asks only for
tasks that are below its own, and given their answers it gives what the reader gives.
-/

set_option autoImplicit false
set_option relaxedAutoImplicit false

namespace FusionAtlas.Template

/-- What a reader may be asked for. -/
inductive Task where
  /-- The statements of a file, or of a block up to its closing brace. -/
  | statements (inBlock : Bool)
  | statement
  | path
  /-- The segments of a path that follow dots. -/
  | segments
  | operation
  | value
  /-- What stands in the braces of an expression, the closing one included. -/
  | braces
  /-- Skipping up to the brace that closes the current expression. -/
  | recovery (depth : Nat)
  | arguments (close : TokenKind)
  | expression
  | binary (level : Nat)
  /-- The operators and operands behind an operand. -/
  | operators (level : Nat) (left : Expr)
  | unary
  | primary
  | chain (word : Token)
  | link (word : Token)

namespace Task

/-- What reading gives, apart from the cursor. -/
abbrev Answer : Task → Type
  | statements _ => List Statement
  | statement => Option Statement
  | path => Option Path
  | segments => List PathSegment
  | operation => Option Operation
  | value => Value
  | braces => Option Argument
  | recovery _ => Unit
  | arguments _ => List Argument
  | expression | binary _ | operators .. | unary | primary => Attempt
  | chain _ => List Segment
  | link _ => Segment

/-- The level of the grammar; a later one is the greater. -/
def level : Task → Nat
  | statements _ => 0
  | statement => 1
  | path | operation => 2
  | segments | value => 3
  | braces => 4
  | arguments _ => 5
  | expression => 6
  | binary _ => 7
  | unary => 8
  | operators .. | primary => 9
  | chain _ => 10
  | link _ => 11
  | recovery _ => 12

theorem level_le (task : Task) : task.level ≤ 12 := by
  cases task <;> simp only [level] <;> decide

/-- What the reader gives. -/
def read (source : Source) (task : Task) (c : Cursor) : Step c task.Answer :=
  match task with
  | statements inBlock => Template.statementList source inBlock c
  | statement => Template.statement source c
  | path =>
    match path? source c with
    | some found => found.map some
    | none => .pure none
  | segments => pathTail source c
  | operation => Template.operation source c
  | value => Template.value source c
  | braces =>
    let body := expressionBody source c
    ⟨body.value, closeExpression source body.cursor,
      Nat.le_trans (remaining_closeExpression_le source body.cursor) body.le⟩
  | recovery depth => ⟨(), c.skip (recoveryLength depth c.rest), by simp⟩
  | arguments close => Template.arguments source close c
  | expression => Template.expression source c
  | binary level => Template.binary source level c
  | operators level left => binaryTail source level left c
  | unary => Template.unary source c
  | primary => Template.primary source c
  | chain word => Template.chain source word c
  | link word => Template.link source word c

/-- The task is asked for at tokens of the other one, with fewer of them left or a later level of the grammar. -/
structure Below (task' : Task) (c' : Cursor) (task : Task) (c : Cursor) : Prop where
  suffix : c'.rest <:+ c.rest
  earlier : c'.remaining < c.remaining ∨ task.level < task'.level

end Task

/-- Answers to tasks, as far as there are any. -/
abbrev Answers := (task : Task) → Cursor → Option (task.Answer × Cursor)

section Activations

variable (source : Source) (ask : Answers)

/-- One round of the loop over the statements of a file or a block. -/
def activateStatements (inBlock : Bool) (c : Cursor) : Option (List Statement × Cursor) :=
  match c.rest with
  | [] => some ([], c)
  | t :: ts =>
    if inBlock ∧ t.kind = .rightBrace then some ([], c)
    else do
      let (found, c₁) ← ask .statement c
      let c₂ := if c₁.remaining < c.remaining then c₁ else (c.fail source.size (.unexpected t.text)).past t ts
      let (more, c₃) ← ask (.statements inBlock) c₂
      some (found.toList ++ more, c₃)

def activateStatement (c : Cursor) : Option (Option Statement × Cursor) :=
  match lineStatement? source c with
  | some line => some (line.value, line.cursor)
  | none => do
    let (path, c₁) ← ask .path c
    match path with
    | none => some (none, c)
    | some path => do
      let (operation, c₂) ← ask .operation c₁
      let head : ObjectHead := ⟨path, operation⟩
      match insideBlock? c₂ with
      | none =>
        some (some (head.statement c₂.lastEnd none),
          if operation.isNone then c₂.fail source.size .operationExpected else c₂)
      | some inside => do
        let (block, c₃) ← ask (.statements true) inside.1
        let closed := c₃.expect source.size .rightBrace (.closingExpected '\x7d')
        some (some (head.statement closed.lastEnd (some block)), closed)

def activatePath (c : Cursor) : Option (Option Path × Cursor) :=
  match c.rest with
  | [] => some (none, c)
  | t :: ts =>
    match segmentFrom source c t ts with
    | none => some (none, c)
    | some first => do
      let (others, c₁) ← ask .segments first.cursor
      some (some ⟨first.value, others⟩, c₁)

/-- One round of the loop over the segments of a path. -/
def activateSegments (c : Cursor) : Option (List PathSegment × Cursor) :=
  match dottedSegment? source c with
  | none => some ([], c)
  | some segment => do
    let (more, c₁) ← ask .segments segment.1.cursor
    some (segment.1.value :: more, c₁)

def activateOperation (c : Cursor) : Option (Option Operation × Cursor) :=
  match c.rest with
  | [] => some (none, c)
  | t :: ts =>
    match t.kind with
    | .eq => do
      let (value, c₁) ← ask .value (c.past t ts)
      some (some (.assign ⟨t.start, max c₁.lastEnd t.start⟩ value), c₁)
    | .lt => do
      let (path, c₁) ← ask .path (c.past t ts)
      match path with
      | some path => some (some (.copy ⟨t.start, c₁.lastEnd⟩ (.path path)), c₁)
      | none =>
        let c₂ := c₁.fail source.size .copySourceExpected
        some (some (.copy ⟨t.start, c₂.lastEnd⟩ (.missing (c₁.offset source.size))), c₂)
    | .gt => some (some (.unset t.range), c.past t ts)
    | _ => some (none, c)

/-- Only the opening of an expression leads to another task here. -/
def activateValue (c : Cursor) : Option (Value × Cursor) :=
  match number? source c with
  | some digits => some (.number digits.value.2 digits.value.1, digits.cursor)
  | none =>
    match c.rest with
    | [] => some (.missing source.size, c.fail source.size .valueExpected)
    | t :: ts =>
      if t.kind = .eelOpen then do
        let (body, closed) ← ask .braces (c.past t ts)
        some (.expression ⟨t.start, closed.lastEnd⟩ body, closed)
      else
        match valueFrom source c t ts with
        | some found => some (found.value, found.cursor)
        | none => some (.missing t.start, c.fail source.size .valueExpected)

/-- Closing an expression in braces, which may skip what does not belong to it. -/
def activateClosing (c : Cursor) : Option Cursor :=
  match c.rest with
  | [] => some (c.fail source.size .expressionUnclosed)
  | t :: ts =>
    if t.kind = .rightBrace then some (c.past t ts)
    else (ask (.recovery 0) (c.fail source.size .expressionUnclosed)).map fun found => found.2.advance

def activateBraces (c : Cursor) : Option (Option Argument × Cursor) :=
  if c.kind? = some .rightBrace then do
    let closed ← activateClosing source ask c
    some (none, closed)
  else do
    let (attempt, c₁) ← ask .expression c
    let closed ← activateClosing source ask c₁
    some (some (.ofAttempt attempt), closed)

/-- One round of the loop that skips to a closing brace. -/
def activateRecovery (depth : Nat) (c : Cursor) : Option (Unit × Cursor) :=
  match c.rest with
  | [] => some ((), c)
  | t :: ts =>
    match t.kind with
    | .leftBrace | .eelOpen => ask (.recovery (depth + 1)) (c.past t ts)
    | .rightBrace =>
      match depth with
      | 0 => some ((), c)
      | depth + 1 => ask (.recovery depth) (c.past t ts)
    | _ => ask (.recovery depth) (c.past t ts)

/-- One round of the loop over arguments. -/
def activateArguments (close : TokenKind) (c : Cursor) : Option (List Argument × Cursor) :=
  match c.rest with
  | [] => some ([], c)
  | t :: _ =>
    if t.kind = close then some ([], c)
    else do
      let (attempt, c₁) ← ask .expression c
      match c₁.rest with
      | [] => some ([.ofAttempt attempt], c₁)
      | u :: us =>
        if u.kind = .comma then do
          let (more, c₂) ← ask (.arguments close) (c₁.past u us)
          some (.ofAttempt attempt :: more, c₂)
        else some ([.ofAttempt attempt], c₁)

def activateExpression (c : Cursor) : Option (Attempt × Cursor) := do
  let (attempt, c₁) ← ask (.binary 1) c
  match attempt with
  | .error pieces => some (.error pieces, c₁)
  | .ok condition =>
    match c₁.rest with
    | [] => some (.ok condition, c₁)
    | t :: ts =>
      if t.kind = .question then do
        let (attempt, c₂) ← ask .expression (c₁.past t ts)
        match attempt with
        | .error pieces => some (.error (condition :: pieces), c₂)
        | .ok thenBranch =>
          match c₂.rest with
          | [] => some (.ok (.trailed condition [thenBranch]), c₂.fail source.size .colonExpected)
          | u :: us =>
            if u.kind = .colon then do
              let (attempt, c₃) ← ask .expression (c₂.past u us)
              match attempt with
              | .error pieces => some (.error (condition :: thenBranch :: pieces), c₃)
              | .ok elseBranch =>
                some (.ok (.ternary ⟨condition.range.start, elseBranch.range.stop⟩ condition thenBranch
                  elseBranch), c₃)
            else some (.ok (.trailed condition [thenBranch]), c₂.fail source.size .colonExpected)
      else some (.ok condition, c₁)

def activateBinary (level : Nat) (c : Cursor) : Option (Attempt × Cursor) := do
  let (attempt, c₁) ← ask .unary c
  match attempt with
  | .error pieces => some (.error pieces, c₁)
  | .ok left => ask (.operators level left) c₁

/-- One round of the loop over operators. -/
def activateOperators (level : Nat) (left : Expr) (c : Cursor) : Option (Attempt × Cursor) :=
  match c.rest with
  | [] => some (.ok left, c)
  | t :: ts =>
    match precedence? t.kind with
    | none => some (.ok left, c)
    | some p =>
      if p < level then some (.ok left, c)
      else do
        let (attempt, c₁) ← ask (.binary (p + 1)) (c.past t ts)
        match attempt with
        | .error pieces => some (.error (left :: pieces), c₁)
        | .ok right =>
          ask (.operators level (.operation ⟨left.range.start, right.range.stop⟩ left t.text right)) c₁

def activateUnary (c : Cursor) : Option (Attempt × Cursor) :=
  match c.rest with
  | [] => ask .primary c
  | t :: ts =>
    if t.kind = .bang then do
      let (attempt, c₁) ← ask .unary (c.past t ts)
      match attempt with
      | .error pieces => some (.error pieces, c₁)
      | .ok operand => some (.ok (.negation ⟨t.start, operand.range.stop⟩ operand), c₁)
    else ask .primary c

def activatePrimary (c : Cursor) : Option (Attempt × Cursor) :=
  match number? source c with
  | some digits => some (.ok (.number digits.value.2 digits.value.1), digits.cursor)
  | none =>
    match c.rest with
    | [] => some (.error [], c.fail source.size .expressionExpected)
    | t :: ts =>
      match t.kind with
      | .string => some (.ok (.text t.range (unquote t.text)), c.past t ts)
      | .leftBracket => do
        let (items, c₁) ← ask (.arguments .rightBracket) (c.past t ts)
        let c₂ := c₁.expect source.size .rightBracket (.closingExpected ']')
        some (.ok (.array ⟨t.start, c₂.lastEnd⟩ items), c₂)
      | .leftParen => do
        let (inner, c₁) ← ask .expression (c.past t ts)
        some (inner, c₁.expect source.size .rightParen (.closingExpected ')'))
      | .ident =>
        match boolean? t.text with
        | some value => some (.ok (.boolean t.range value), c.past t ts)
        | none =>
          if isNull t.text then some (.ok (.null t.range), c.past t ts)
          else do
            let (segments, c₁) ← ask (.chain t) (c.past t ts)
            some (.ok (.chain ⟨t.start, ((segments.getLast?.map Segment.range).getD t.range).stop⟩ segments), c₁)
      | _ => some (.error [], c.fail source.size .expressionExpected)

/-- One round of the loop over the links of a chain. -/
def activateChain (word : Token) (c : Cursor) : Option (List Segment × Cursor) := do
  let (segment, c₁) ← ask (.link word) c
  match c₁.rest with
  | dot :: next :: more =>
    if dot.kind = .dot ∧ next.kind = .ident then do
      let (segments, c₂) ← ask (.chain next) ((c₁.past dot (next :: more)).past next more)
      some (segment :: segments, c₂)
    else some ([segment], c₁)
  | _ => some ([segment], c₁)

def activateLink (word : Token) (c : Cursor) : Option (Segment × Cursor) :=
  match c.rest with
  | [] => some (.name word.range word.text, c)
  | t :: ts =>
    if t.kind = .leftParen then do
      let (given, c₁) ← ask (.arguments .rightParen) (c.past t ts)
      let c₂ := c₁.expect source.size .rightParen (.closingExpected ')')
      some (.call ⟨word.start, c₂.lastEnd⟩ word.text given, c₂)
    else some (.name word.range word.text, c)

/-- One activation of the reader of a task, which asks for other tasks. -/
def activate (task : Task) (c : Cursor) : Option (task.Answer × Cursor) :=
  match task with
  | .statements inBlock => activateStatements source ask inBlock c
  | .statement => activateStatement source ask c
  | .path => activatePath source ask c
  | .segments => activateSegments source ask c
  | .operation => activateOperation source ask c
  | .value => activateValue source ask c
  | .braces => activateBraces source ask c
  | .recovery depth => activateRecovery ask depth c
  | .arguments close => activateArguments ask close c
  | .expression => activateExpression source ask c
  | .binary level => activateBinary ask level c
  | .operators level left => activateOperators ask level left c
  | .unary => activateUnary ask c
  | .primary => activatePrimary source ask c
  | .chain word => activateChain ask word c
  | .link word => activateLink source ask word c

end Activations

/-- An answer is what the reader gives, and the reader has not gone back. -/
structure Agrees {c : Cursor} {α : Type} (found : Option (α × Cursor)) (s : Step c α) : Prop where
  given : found = some (s.value, s.cursor)
  suffix : s.cursor.rest <:+ c.rest

namespace Agrees

variable {c d : Cursor} {α : Type} {found : Option (α × Cursor)} {s : Step c α}

theorem exists_eq (agrees : Agrees found s) :
    ∃ v after h, s = ⟨v, after, h⟩ ∧ found = some (v, after) ∧ after.rest <:+ c.rest := by
  obtain ⟨v, after, h⟩ := s
  exact ⟨v, after, h, rfl, agrees.given, agrees.suffix⟩

theorem weaken (agrees : Agrees found s) (suffix : c.rest <:+ d.rest) (h : c.remaining ≤ d.remaining) :
    Agrees found (s.weaken h) :=
  ⟨agrees.given, agrees.suffix.trans suffix⟩

end Agrees

/-- All tasks below one are answered as their readers would. -/
def Known (source : Source) (ask : Answers) (task : Task) (c : Cursor) : Prop :=
  ∀ (task' : Task) (c' : Cursor), task'.Below c' task c → Agrees (ask task' c') (task'.read source c')

namespace Task.Below

variable {task task' : Task} {c c' : Cursor} {t : Token} {ts : List Token}

/-- Behind a token further on. -/
theorem past (suffix : c'.rest <:+ c.rest) (here : c'.rest = t :: ts) : task'.Below (c'.past t ts) task c where
  suffix := (Cursor.suffix_past here).trans suffix
  earlier := by
    have fewer : (c'.past t ts).remaining < c'.remaining := by
      rw [Cursor.remaining_of_rest here, Cursor.remaining_past]
      exact Nat.lt_succ_self _
    exact .inl (Nat.lt_of_lt_of_le fewer suffix.length_le)

end Task.Below

section Agreement

variable {source : Source} {ask : Answers} {c : Cursor}

theorem activateExpression_agrees (known : Known source ask .expression c) :
    Agrees (activateExpression source ask c) (expression source c) := by
  have first : Agrees (ask (.binary 1) c) (binary source 1 c) :=
    known (.binary 1) c ⟨List.suffix_refl _, .inr (by decide)⟩
  obtain ⟨attempt, c₁, h₁, read, asked, suffix₁⟩ := first.exists_eq
  rw [activateExpression, asked, expression, read]
  dsimp only [Option.bind_eq_bind, Option.bind_some]
  rcases attempt with pieces | condition
  · exact ⟨rfl, suffix₁⟩
  rcases c₁ with ⟨_ | ⟨t, ts⟩, lastEnd₁, errors₁, intact₁⟩
  · exact ⟨rfl, suffix₁⟩
  dsimp only
  by_cases question : t.kind = .question
  · rw [if_pos question, if_pos question]
    have second : Agrees (ask .expression (Cursor.past ⟨t :: ts, lastEnd₁, errors₁, intact₁⟩ t ts))
      (expression source _) := known .expression _ (.past suffix₁ rfl)
    obtain ⟨attempt, c₂, h₂, read, asked, suffix₂⟩ := second.exists_eq
    rw [asked, read]
    dsimp only [Option.bind_some]
    have suffix₂ : c₂.rest <:+ c.rest := (suffix₂.trans (List.suffix_cons t ts)).trans suffix₁
    rcases attempt with pieces | thenBranch
    · exact ⟨rfl, suffix₂⟩
    rcases c₂ with ⟨_ | ⟨u, us⟩, lastEnd₂, errors₂, intact₂⟩
    · exact ⟨rfl, suffix₂⟩
    dsimp only
    by_cases colon : u.kind = .colon
    · rw [if_pos colon, if_pos colon]
      have third : Agrees (ask .expression (Cursor.past ⟨u :: us, lastEnd₂, errors₂, intact₂⟩ u us))
        (expression source _) := known .expression _ (.past suffix₂ rfl)
      obtain ⟨attempt, c₃, h₃, read, asked, suffix₃⟩ := third.exists_eq
      rw [asked, read]
      have suffix₃ : c₃.rest <:+ c.rest := (suffix₃.trans (List.suffix_cons u us)).trans suffix₂
      cases attempt with
      | error pieces => exact ⟨rfl, suffix₃⟩
      | ok elseBranch => exact ⟨rfl, suffix₃⟩
    · rw [if_neg colon, if_neg colon]
      exact ⟨rfl, suffix₂⟩
  · rw [if_neg question, if_neg question]
    exact ⟨rfl, suffix₁⟩

theorem activateBinary_agrees {level : Nat} (known : Known source ask (.binary level) c) :
    Agrees (activateBinary ask level c) (binary source level c) := by
  have first : Agrees (ask .unary c) (unary source c) :=
    known .unary c ⟨List.suffix_refl _, .inr (by simp only [Task.level]; decide)⟩
  obtain ⟨attempt, c₁, h₁, read, asked, suffix₁⟩ := first.exists_eq
  rw [activateBinary, asked, binary, read]
  dsimp only [Option.bind_eq_bind, Option.bind_some]
  cases attempt with
  | error pieces => exact ⟨rfl, suffix₁⟩
  | ok left =>
    have others : Agrees (ask (.operators level left) c₁) (binaryTail source level left c₁) :=
      known (.operators level left) c₁ ⟨suffix₁, .inr (by simp only [Task.level]; decide)⟩
    exact others.weaken suffix₁ h₁

theorem activateOperators_agrees {level : Nat} {left : Expr} (known : Known source ask (.operators level left) c) :
    Agrees (activateOperators ask level left c) (binaryTail source level left c) := by
  rw [activateOperators, binaryTail]
  rcases c with ⟨_ | ⟨t, ts⟩, lastEnd, errors, intact⟩
  · exact ⟨rfl, List.suffix_refl _⟩
  dsimp only
  cases binds : precedence? t.kind with
  | none => exact ⟨rfl, List.suffix_refl _⟩
  | some p =>
    dsimp only
    by_cases loose : p < level
    · rw [if_pos loose, if_pos loose]
      exact ⟨rfl, List.suffix_refl _⟩
    rw [if_neg loose, if_neg loose]
    have first : Agrees (ask (.binary (p + 1)) (Cursor.past ⟨t :: ts, lastEnd, errors, intact⟩ t ts))
      (binary source (p + 1) _) := known (.binary (p + 1)) _ (.past (List.suffix_refl _) rfl)
    obtain ⟨attempt, c₁, h₁, read, asked, suffix₁⟩ := first.exists_eq
    have suffix₁ : c₁.rest <:+ t :: ts := suffix₁.trans (List.suffix_cons t ts)
    rw [asked, read]
    dsimp only [Option.bind_eq_bind, Option.bind_some]
    cases attempt with
    | error pieces => exact ⟨rfl, suffix₁⟩
    | ok right =>
      let joined : Expr := .operation ⟨left.range.start, right.range.stop⟩ left t.text right
      have others : Agrees (ask (.operators level joined) c₁) (binaryTail source level joined c₁) :=
        known (.operators level joined) c₁ ⟨suffix₁, .inl (Nat.lt_succ_of_le h₁)⟩
      exact others.weaken suffix₁ _

theorem activateUnary_agrees (known : Known source ask .unary c) :
    Agrees (activateUnary ask c) (unary source c) := by
  have operand : Agrees (ask .primary c) (primary source c) :=
    known .primary c ⟨List.suffix_refl _, .inr (by decide)⟩
  rw [activateUnary, unary]
  rcases c with ⟨_ | ⟨t, ts⟩, lastEnd, errors, intact⟩
  · exact operand
  dsimp only
  by_cases bang : t.kind = .bang
  · rw [if_pos bang, if_pos bang]
    have first : Agrees (ask .unary (Cursor.past ⟨t :: ts, lastEnd, errors, intact⟩ t ts)) (unary source _) :=
      known .unary _ (.past (List.suffix_refl _) rfl)
    obtain ⟨attempt, c₁, h₁, read, asked, suffix₁⟩ := first.exists_eq
    have suffix₁ : c₁.rest <:+ t :: ts := suffix₁.trans (List.suffix_cons t ts)
    rw [asked, read]
    cases attempt with
    | error pieces => exact ⟨rfl, suffix₁⟩
    | ok operand => exact ⟨rfl, suffix₁⟩
  · rw [if_neg bang, if_neg bang]
    exact operand

theorem activatePrimary_agrees (known : Known source ask .primary c) :
    Agrees (activatePrimary source ask c) (primary source c) := by
  rw [activatePrimary, primary]
  cases digits : number? source c with
  | some found => exact ⟨rfl, number?_suffix digits⟩
  | none =>
    rcases c with ⟨_ | ⟨t, ts⟩, lastEnd, errors, intact⟩
    · exact ⟨rfl, List.suffix_refl _⟩
    have behind {after : Cursor} (suffix : after.rest <:+ ts) : after.rest <:+ t :: ts :=
      suffix.trans (List.suffix_cons t ts)
    dsimp only
    cases kind : t.kind with
    | string => exact ⟨rfl, List.suffix_cons t ts⟩
    | leftBracket =>
      have items : Agrees (ask (.arguments .rightBracket) (Cursor.past ⟨t :: ts, lastEnd, errors, intact⟩ t ts))
        (arguments source .rightBracket _) := known (.arguments .rightBracket) _ (.past (List.suffix_refl _) rfl)
      obtain ⟨v, c₁, h₁, read, asked, suffix₁⟩ := items.exists_eq
      dsimp only
      rw [asked, read]
      exact ⟨rfl, (Cursor.suffix_expect ..).trans (behind suffix₁)⟩
    | leftParen =>
      have inner : Agrees (ask .expression (Cursor.past ⟨t :: ts, lastEnd, errors, intact⟩ t ts))
        (expression source _) := known .expression _ (.past (List.suffix_refl _) rfl)
      obtain ⟨v, c₁, h₁, read, asked, suffix₁⟩ := inner.exists_eq
      dsimp only
      rw [asked, read]
      exact ⟨rfl, (Cursor.suffix_expect ..).trans (behind suffix₁)⟩
    | ident =>
      dsimp only
      cases constant : boolean? t.text with
      | some value => exact ⟨rfl, List.suffix_cons t ts⟩
      | none =>
        dsimp only
        by_cases null : isNull t.text = true
        · rw [if_pos null, if_pos null]
          exact ⟨rfl, List.suffix_cons t ts⟩
        · rw [if_neg null, if_neg null]
          have links : Agrees (ask (.chain t) (Cursor.past ⟨t :: ts, lastEnd, errors, intact⟩ t ts))
            (chain source t _) := known (.chain t) _ (.past (List.suffix_refl _) rfl)
          obtain ⟨v, c₁, h₁, read, asked, suffix₁⟩ := links.exists_eq
          rw [asked, read]
          exact ⟨rfl, behind suffix₁⟩
    | _ => exact ⟨rfl, List.suffix_refl _⟩

theorem activateChain_agrees {word : Token} (known : Known source ask (.chain word) c) :
    Agrees (activateChain ask word c) (chain source word c) := by
  have first : Agrees (ask (.link word) c) (link source word c) :=
    known (.link word) c ⟨List.suffix_refl _, .inr (by simp only [Task.level]; decide)⟩
  obtain ⟨segment, c₁, h₁, read, asked, suffix₁⟩ := first.exists_eq
  rw [activateChain, asked, chain, read]
  dsimp only [Option.bind_eq_bind, Option.bind_some]
  rcases c₁ with ⟨_ | ⟨dot, _ | ⟨next, more⟩⟩, lastEnd₁, errors₁, intact₁⟩
  · exact ⟨rfl, suffix₁⟩
  · exact ⟨rfl, suffix₁⟩
  dsimp only
  by_cases dotted : dot.kind = .dot ∧ next.kind = .ident
  · rw [if_pos dotted, if_pos dotted]
    have behind : more <:+ c.rest :=
      ((List.suffix_cons next more).trans (List.suffix_cons dot (next :: more))).trans suffix₁
    have others : Agrees (ask (.chain next) (Cursor.past (Cursor.past
        ⟨dot :: next :: more, lastEnd₁, errors₁, intact₁⟩ dot (next :: more)) next more)) (chain source next _) :=
      known (.chain next) _ (.past ((List.suffix_cons dot (next :: more)).trans suffix₁) rfl)
    obtain ⟨segments, c₂, h₂, read, asked, suffix₂⟩ := others.exists_eq
    rw [asked, read]
    exact ⟨rfl, suffix₂.trans behind⟩
  · rw [if_neg dotted, if_neg dotted]
    exact ⟨rfl, suffix₁⟩

theorem activateLink_agrees {word : Token} (known : Known source ask (.link word) c) :
    Agrees (activateLink source ask word c) (link source word c) := by
  rw [activateLink, link]
  rcases c with ⟨_ | ⟨t, ts⟩, lastEnd, errors, intact⟩
  · exact ⟨rfl, List.suffix_refl _⟩
  dsimp only
  by_cases opens : t.kind = .leftParen
  · rw [if_pos opens, if_pos opens]
    have items : Agrees (ask (.arguments .rightParen) (Cursor.past ⟨t :: ts, lastEnd, errors, intact⟩ t ts))
      (arguments source .rightParen _) := known (.arguments .rightParen) _ (.past (List.suffix_refl _) rfl)
    obtain ⟨v, c₁, h₁, read, asked, suffix₁⟩ := items.exists_eq
    rw [asked, read]
    exact ⟨rfl, (Cursor.suffix_expect ..).trans (suffix₁.trans (List.suffix_cons t ts))⟩
  · rw [if_neg opens, if_neg opens]
    exact ⟨rfl, List.suffix_refl _⟩

theorem activateArguments_agrees {close : TokenKind} (known : Known source ask (.arguments close) c) :
    Agrees (activateArguments ask close c) (arguments source close c) := by
  have first : Agrees (ask .expression c) (expression source c) :=
    known .expression c ⟨List.suffix_refl _, .inr (by simp only [Task.level]; decide)⟩
  rw [activateArguments, arguments]
  rcases c with ⟨_ | ⟨t, ts⟩, lastEnd, errors, intact⟩
  · exact ⟨rfl, List.suffix_refl _⟩
  dsimp only
  by_cases closes : t.kind = close
  · rw [if_pos closes, if_pos closes]
    exact ⟨rfl, List.suffix_refl _⟩
  rw [if_neg closes, if_neg closes]
  obtain ⟨attempt, c₁, h₁, read, asked, suffix₁⟩ := first.exists_eq
  rw [asked, read]
  dsimp only [Option.bind_eq_bind, Option.bind_some]
  rcases c₁ with ⟨_ | ⟨u, us⟩, lastEnd₁, errors₁, intact₁⟩
  · exact ⟨rfl, suffix₁⟩
  dsimp only
  by_cases comma : u.kind = .comma
  · rw [if_pos comma, if_pos comma]
    have others : Agrees (ask (.arguments close) (Cursor.past ⟨u :: us, lastEnd₁, errors₁, intact₁⟩ u us))
      (arguments source close _) := known (.arguments close) _ (.past suffix₁ rfl)
    obtain ⟨more, c₂, h₂, read, asked, suffix₂⟩ := others.exists_eq
    rw [asked, read]
    exact ⟨rfl, (suffix₂.trans (List.suffix_cons u us)).trans suffix₁⟩
  · rw [if_neg comma, if_neg comma]
    exact ⟨rfl, suffix₁⟩

theorem Cursor.skip_zero (c : Cursor) : c.skip 0 = c := rfl

theorem activateRecovery_agrees {depth : Nat} (known : Known source ask (.recovery depth) c) :
    Agrees (activateRecovery ask depth c) ((Task.recovery depth).read source c) := by
  refine ⟨?_, Cursor.suffix_skip _ _⟩
  change _ = some ((), c.skip (recoveryLength depth c.rest))
  cases here : c.rest with
  | nil => rw [activateRecovery, here, recoveryLength, Cursor.skip_zero]
  | cons t ts =>
    have next (depth' : Nat) : ask (.recovery depth') (c.past t ts) =
        some ((), (c.past t ts).skip (recoveryLength depth' ts)) :=
      (known (.recovery depth') _ (.past (List.suffix_refl _) here)).given
    unfold activateRecovery recoveryLength
    rw [here]
    dsimp only
    cases kind : t.kind with
    | leftBrace | eelOpen => exact (next (depth + 1)).trans (by rw [← Cursor.skip_succ here])
    | rightBrace =>
      cases depth with
      | zero => rfl
      | succ depth => exact (next depth).trans (by rw [← Cursor.skip_succ here])
    | _ => exact (next depth).trans (by rw [← Cursor.skip_succ here])

theorem activateClosing_eq (known : Known source ask .braces c) {c₁ : Cursor} (suffix : c₁.rest <:+ c.rest) :
    activateClosing source ask c₁ = some (closeExpression source c₁) := by
  rw [activateClosing, closeExpression]
  cases here : c₁.rest with
  | nil => rfl
  | cons t ts =>
    dsimp only
    by_cases closes : t.kind = .rightBrace
    · rw [if_pos closes, if_pos closes]
    · have skipped : ask (.recovery 0) (c₁.fail source.size .expressionUnclosed) =
          some ((), (c₁.fail source.size .expressionUnclosed).skip (recoveryLength 0 c₁.rest)) :=
        (known (.recovery 0) (c₁.fail source.size .expressionUnclosed) ⟨suffix, .inr (by decide)⟩).given
      rw [if_neg closes, if_neg closes, skipped, here]
      rfl

theorem activateBraces_agrees (known : Known source ask .braces c) :
    Agrees (activateBraces source ask c) (Task.braces.read source c) := by
  have first : Agrees (ask .expression c) (expression source c) :=
    known .expression c ⟨List.suffix_refl _, .inr (by decide)⟩
  unfold activateBraces Task.read expressionBody
  by_cases empty : c.kind? = some .rightBrace
  · rw [if_pos empty, activateClosing_eq known (List.suffix_refl _)]
    refine ⟨?_, ?_⟩
    · dsimp only
      rw [if_pos empty]
      rfl
    · dsimp only
      rw [if_pos empty]
      exact closeExpression_suffix source c
  · obtain ⟨attempt, c₁, h₁, read, asked, suffix₁⟩ := first.exists_eq
    rw [if_neg empty, asked]
    refine ⟨?_, ?_⟩
    · dsimp only [Option.bind_eq_bind, Option.bind_some]
      rw [if_neg empty, read, activateClosing_eq known suffix₁]
      rfl
    · dsimp only
      rw [if_neg empty, read]
      exact (closeExpression_suffix source c₁).trans suffix₁

theorem valueFrom_suffix {t : Token} {ts : List Token} {s : Step (c.past t ts) Value} (apart : t.kind ≠ .eelOpen)
    (found : valueFrom source c t ts = some s) : s.cursor.rest <:+ ts := by
  unfold valueFrom at found
  split at found
  · obtain rfl := Option.some.inj found
    exact List.suffix_refl _
  · split at found
    · obtain rfl := Option.some.inj found
      exact List.suffix_refl _
    · split at found
      · obtain rfl := Option.some.inj found
        exact List.suffix_refl _
      · obtain rfl := Option.some.inj found
        exact component_suffix source t (c.past t ts)
  · obtain rfl := Option.some.inj found
    exact List.suffix_refl _
  · next opens => exact absurd opens apart
  · cases found

theorem activateValue_agrees (known : Known source ask .value c) :
    Agrees (activateValue source ask c) (value source c) := by
  rw [activateValue, value]
  cases digits : number? source c with
  | some found => exact ⟨rfl, number?_suffix digits⟩
  | none =>
    rcases c with ⟨_ | ⟨t, ts⟩, lastEnd, errors, intact⟩
    · exact ⟨rfl, List.suffix_refl _⟩
    dsimp only
    by_cases opens : t.kind = .eelOpen
    · have inside : Agrees (ask .braces (Cursor.past ⟨t :: ts, lastEnd, errors, intact⟩ t ts))
        (Task.braces.read source _) := known .braces _ (.past (List.suffix_refl _) rfl)
      rw [if_pos opens, inside.given]
      unfold valueFrom
      rw [opens]
      exact ⟨rfl, inside.suffix.trans (List.suffix_cons t ts)⟩
    · rw [if_neg opens]
      cases found : valueFrom source ⟨t :: ts, lastEnd, errors, intact⟩ t ts with
      | none => exact ⟨rfl, List.suffix_refl _⟩
      | some read => exact ⟨rfl, (valueFrom_suffix opens found).trans (List.suffix_cons t ts)⟩

theorem copySource_of_path {path : Step c Path} (found : path? source c = some path) :
    copySource source c = path.map .path := by
  rw [copySource, found]

theorem copySource_of_none (absent : path? source c = none) :
    copySource source c = ⟨.missing (c.offset source.size), c.fail source.size .copySourceExpected,
      c.remaining_fail_le _ _⟩ := by
  rw [copySource, absent]

theorem activateOperation_agrees (known : Known source ask .operation c) :
    Agrees (activateOperation source ask c) (operation source c) := by
  rw [activateOperation, operation]
  rcases c with ⟨_ | ⟨t, ts⟩, lastEnd, errors, intact⟩
  · exact ⟨rfl, List.suffix_refl _⟩
  dsimp only
  cases kind : t.kind with
  | eq =>
    have first : Agrees (ask .value (Cursor.past ⟨t :: ts, lastEnd, errors, intact⟩ t ts)) (value source _) :=
      known .value _ (.past (List.suffix_refl _) rfl)
    dsimp only
    rw [first.given]
    exact ⟨rfl, first.suffix.trans (List.suffix_cons t ts)⟩
  | lt =>
    have first : Agrees (ask .path (Cursor.past ⟨t :: ts, lastEnd, errors, intact⟩ t ts))
      (Task.path.read source _) := known .path _ (.past (List.suffix_refl _) rfl)
    unfold Task.read at first
    dsimp only at first ⊢
    cases found : path? source (Cursor.past ⟨t :: ts, lastEnd, errors, intact⟩ t ts) with
    | none =>
      rw [found] at first
      refine ⟨?_, ?_⟩
      · dsimp only
        rw [first.given, copySource_of_none found]
        rfl
      · dsimp only
        rw [copySource_of_none found]
        exact List.suffix_cons t ts
    | some path =>
      rw [found] at first
      refine ⟨?_, ?_⟩
      · dsimp only
        rw [first.given, copySource_of_path found]
        rfl
      · dsimp only
        rw [copySource_of_path found]
        exact first.suffix.trans (List.suffix_cons t ts)
  | gt => exact ⟨rfl, List.suffix_cons t ts⟩
  | _ => exact ⟨rfl, List.suffix_refl _⟩

theorem activateSegments_agrees (known : Known source ask .segments c) :
    Agrees (activateSegments source ask c) (pathTail source c) := by
  rw [activateSegments, pathTail]
  cases found : dottedSegment? source c with
  | none => exact ⟨rfl, List.suffix_refl _⟩
  | some segment =>
    have suffix := dottedSegment?_suffix found
    have others : Agrees (ask .segments segment.1.cursor) (pathTail source segment.1.cursor) :=
      known .segments _ ⟨suffix, .inl segment.2⟩
    dsimp only
    rw [others.given]
    exact ⟨rfl, others.suffix.trans suffix⟩

theorem activatePath_agrees (known : Known source ask .path c) :
    Agrees (activatePath source ask c) (Task.path.read source c) := by
  unfold activatePath Task.read path?
  rcases c with ⟨_ | ⟨t, ts⟩, lastEnd, errors, intact⟩
  · exact ⟨rfl, List.suffix_refl _⟩
  dsimp only
  cases found : segmentFrom source ⟨t :: ts, lastEnd, errors, intact⟩ t ts with
  | none => exact ⟨rfl, List.suffix_refl _⟩
  | some first =>
    have suffix := (segmentFrom_suffix found).trans (List.suffix_cons t ts)
    have others : Agrees (ask .segments first.cursor) (pathTail source first.cursor) :=
      known .segments _ ⟨suffix, .inr (by decide)⟩
    dsimp only
    rw [others.given]
    exact ⟨rfl, others.suffix.trans suffix⟩

theorem objectHead?_of_path {path : Step c Path} (found : path? source c = some path) :
    ∃ le lt, objectHead? source c =
      some ⟨⟨⟨path.value, (operation source path.cursor).value⟩, (operation source path.cursor).cursor, le⟩, lt⟩ := by
  have lt : (operation source path.cursor).cursor.remaining < c.remaining :=
    Nat.lt_of_le_of_lt (operation source path.cursor).le (path?_lt found)
  refine ⟨Nat.le_of_lt lt, lt, ?_⟩
  unfold objectHead?
  split
  · next none =>
    rw [none] at found
    cases found
  · next path' some =>
    rw [some] at found
    obtain rfl := Option.some.inj found
    rfl

theorem insideBlock?_suffix {inside : { inside : Cursor // inside.remaining < c.remaining }}
    (found : insideBlock? c = some inside) : inside.1.rest <:+ c.rest := by
  unfold insideBlock? at found
  split at found
  · cases found
  · next t ts here =>
    split at found
    · obtain rfl := Option.some.inj found
      exact Cursor.suffix_past here
    · cases found

theorem activateStatement_agrees (known : Known source ask .statement c) :
    Agrees (activateStatement source ask c) (statement source c) := by
  have first : Agrees (ask .path c) (Task.path.read source c) :=
    known .path c ⟨List.suffix_refl _, .inr (by decide)⟩
  unfold Task.read at first
  rw [activateStatement, statement]
  cases line : lineStatement? source c with
  | some found => exact ⟨rfl, lineStatement?_suffix line⟩
  | none =>
    dsimp only at first ⊢
    cases found : path? source c with
    | none =>
      have absent : objectHead? source c = none := by
        unfold objectHead?
        split
        · rfl
        · next some =>
          rw [some] at found
          cases found
      rw [found] at first
      rw [first.given, absent]
      exact ⟨rfl, List.suffix_refl _⟩
    | some path =>
      obtain ⟨le, lt, head⟩ := objectHead?_of_path found
      rw [found] at first
      have second : Agrees (ask .operation path.cursor) (operation source path.cursor) :=
        known .operation _ ⟨first.suffix, .inl (path?_lt found)⟩
      have given : ask .path c = some (some path.value, path.cursor) := first.given
      have suffix := second.suffix.trans first.suffix
      rw [given, head]
      dsimp only [Option.bind_eq_bind, Option.bind_some]
      rw [second.given]
      dsimp only [Option.bind_some]
      cases inside : insideBlock? (operation source path.cursor).cursor with
      | none =>
        refine ⟨rfl, ?_⟩
        dsimp only [bareObject]
        split
        · exact suffix
        · exact suffix
      | some inner =>
        have entered := insideBlock?_suffix inside
        have block : Agrees (ask (.statements true) inner.1) (statementList source true inner.1) :=
          known (.statements true) inner.1 ⟨entered.trans suffix, .inl (Nat.lt_trans inner.2 lt)⟩
        dsimp only
        rw [block.given]
        exact ⟨rfl, (Cursor.suffix_expect ..).trans (block.suffix.trans (entered.trans suffix))⟩

theorem activateStatements_agrees {inBlock : Bool} (known : Known source ask (.statements inBlock) c) :
    Agrees (activateStatements source ask inBlock c) (statementList source inBlock c) := by
  have first : Agrees (ask .statement c) (statement source c) :=
    known .statement c ⟨List.suffix_refl _, .inr (by simp only [Task.level]; decide)⟩
  rw [activateStatements, statementList]
  rcases c with ⟨_ | ⟨t, ts⟩, lastEnd, errors, intact⟩
  · exact ⟨rfl, List.suffix_refl _⟩
  dsimp only
  by_cases closes : inBlock = true ∧ t.kind = .rightBrace
  · rw [if_pos closes, if_pos closes]
    exact ⟨rfl, List.suffix_refl _⟩
  rw [if_neg closes, if_neg closes]
  obtain ⟨found, c₁, h₁, read, asked, suffix₁⟩ := first.exists_eq
  rw [asked, read]
  dsimp only [Option.bind_eq_bind, Option.bind_some]
  by_cases consumed : c₁.remaining < Cursor.remaining ⟨t :: ts, lastEnd, errors, intact⟩
  · have others : Agrees (ask (.statements inBlock) c₁) (statementList source inBlock c₁) :=
      known (.statements inBlock) c₁ ⟨suffix₁, .inl consumed⟩
    rw [if_pos consumed, dif_pos consumed, others.given]
    exact ⟨rfl, others.suffix.trans suffix₁⟩
  · let reported := (Cursor.fail ⟨t :: ts, lastEnd, errors, intact⟩ source.size (.unexpected t.text)).past t ts
    have others : Agrees (ask (.statements inBlock) reported) (statementList source inBlock reported) :=
      known (.statements inBlock) reported ⟨List.suffix_cons t ts, .inl (Nat.lt_succ_self _)⟩
    rw [if_neg consumed, dif_neg consumed, others.given]
    exact ⟨rfl, others.suffix.trans (List.suffix_cons t ts)⟩

/-- An activation asks for nothing but tasks below its own: answered there as the readers would, it gives what
the reader gives. -/
theorem activate_agrees {task : Task} (known : Known source ask task c) :
    Agrees (activate source ask task c) (task.read source c) := by
  cases task with
  | statements inBlock => exact activateStatements_agrees known
  | statement => exact activateStatement_agrees known
  | path => exact activatePath_agrees known
  | segments => exact activateSegments_agrees known
  | operation => exact activateOperation_agrees known
  | value => exact activateValue_agrees known
  | braces => exact activateBraces_agrees known
  | recovery depth => exact activateRecovery_agrees known
  | arguments close => exact activateArguments_agrees known
  | expression => exact activateExpression_agrees known
  | binary level => exact activateBinary_agrees known
  | operators level left => exact activateOperators_agrees known
  | unary => exact activateUnary_agrees known
  | primary => exact activatePrimary_agrees known
  | chain word => exact activateChain_agrees known
  | link word => exact activateLink_agrees known

end Agreement

end FusionAtlas.Template
