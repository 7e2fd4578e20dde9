import FusionAtlas.Proofs.ReadingTasks
import FusionAtlas.Proofs.SignificantTokens

/-!
Reading ends, with no token left. Whatever the tokens are, each round of a loop and each reader called takes a
token or goes on to a later level of the grammar, so no more activations than some multiple of the tokens are ever
open at once; the readers never go back. Main statement: `reading_ends`.
-/

set_option autoImplicit false
set_option relaxedAutoImplicit false

namespace FusionAtlas.Template

namespace Task

/-- How many activations may be open at once below one of the task, at most. -/
def depth (task : Task) (c : Cursor) : Nat := 13 * c.remaining + (12 - task.level)

theorem Below.depth_lt {task task' : Task} {c c' : Cursor} (below : task'.Below c' task c) :
    task'.depth c' < task.depth c := by
  have fewer : c'.remaining ≤ c.remaining := below.suffix.length_le
  have level := task.level_le
  have level' := task'.level_le
  have earlier := below.earlier
  unfold depth
  omega

end Task

/-- What the reader gives and where it leaves off. -/
def Task.outcome (source : Source) (task : Task) (c : Cursor) : task.Answer × Cursor :=
  ((task.read source c).value, (task.read source c).cursor)

variable {source : Source}

/-- Readers never go back. -/
theorem read_suffix (source : Source) (task : Task) (c : Cursor) : (task.read source c).cursor.rest <:+ c.rest := by
  have known : Known source (fun task c => some (task.outcome source c)) task c :=
    fun task' c' below => ⟨rfl, read_suffix source task' c'⟩
  exact (activate_agrees known).suffix
termination_by task.depth c
decreasing_by exact below.depth_lt

/-- What an activation gives if at most `n` of them may be open at once, itself included. -/
def within (source : Source) : Nat → Answers
  | 0 => fun _ _ => none
  | n + 1 => activate source (within source n)

theorem within_eq {n : Nat} {task : Task} {c : Cursor} (enough : task.depth c < n) :
    within source n task c = some (task.outcome source c) := by
  induction n generalizing task c with
  | zero => cases enough
  | succ n ih =>
    have known : Known source (within source n) task c := fun task' c' below =>
      ⟨ih (Nat.lt_of_lt_of_le below.depth_lt (Nat.le_of_lt_succ enough)), read_suffix source task' c'⟩
    exact (activate_agrees known).given

/-- The statements of a file go on to the end of the tokens. -/
theorem rest_statementList (source : Source) (c : Cursor) : (statementList source false c).cursor.rest = [] := by
  rw [statementList]
  split
  · next none => exact none
  · next t ts here =>
    rw [if_neg (fun both => Bool.false_ne_true both.1)]
    have fewer := Cursor.remaining_past_lt here
    split
    next found c₁ h₁ read =>
    split
    · exact rest_statementList source c₁
    · exact rest_statementList source ((c.fail source.size (.unexpected t.text)).past t ts)
termination_by c.remaining

/-- An activation needs the answers to tasks below its own only, which have fewer tokens or a later level of the
grammar; so a loop takes a token in each round, and a number of open activations in proportion to the tokens is
enough. No reader goes back, and that of a file leaves no token. -/
theorem reading_ends :
    (∀ (source : Source) (ask : Answers) (task : Task) (c : Cursor),
      (∀ (task' : Task) (c' : Cursor), task'.Below c' task c → ask task' c' = some (task'.outcome source c')) →
        activate source ask task c = some (task.outcome source c)) ∧
      (∀ (source : Source) (task : Task) (c : Cursor), (task.outcome source c).2.rest <:+ c.rest) ∧
      (∀ (source : Source) (c : Cursor), ((Task.statements false).outcome source c).2.rest = []) ∧
      (∀ (source : Source) (n : Nat) (task : Task) (c : Cursor), task.depth c < n →
        within source n task c = some (task.outcome source c)) ∧
      ∀ text : String, ∃ after : Cursor,
        within (.ofText text) (13 * (significantTokens text).length + 13) (.statements false)
            { rest := significantTokens text } = some ((parseTemplate text).template.statements, after) ∧
          after.rest = [] ∧ after.errors = (parseTemplate text).errors ∧ after.intact = true := by
  refine ⟨fun source ask task c known => ?_, read_suffix, rest_statementList, fun source n task c => within_eq,
    fun text => ?_⟩
  · exact (activate_agrees fun task' c' below => ⟨known task' c' below, read_suffix source task' c'⟩).given
  · have read := statementList_reads false (sound_tokens text)
    have enough : (Task.statements false).depth { rest := significantTokens text } <
        13 * (significantTokens text).length + 13 := Nat.lt_succ_self _
    exact ⟨_, within_eq enough, rest_statementList _ _, rfl, read.sound.intact⟩

/-- A call that is never closed, in an expression that is not either. -/
example : (parseTemplate "a = $\x7bFoo.bar(").errors.toList.map SyntaxError.fault =
    [.closingExpected ')', .expressionUnclosed] := by
  decide +kernel

end FusionAtlas.Template
