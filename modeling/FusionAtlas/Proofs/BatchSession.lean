import FusionAtlas.Proofs.ScheduledBatch

/-!
Sessions in which clients take the tokens of scheduled batches and cancel them, while the workspace goes
on. A batch that gives way to another one is cancelled, and what was pending stays pending until a batch is
run or all open templates are scheduled anew. Main statements: `Session.accounted_run` for the tokens,
`Session.pending_run` for the templates, and `Session.batches_supersede`.
-/

set_option autoImplicit false
set_option relaxedAutoImplicit false

namespace FusionAtlas

/-- A workspace with what its clients did about batches. -/
structure Session where
  workspace : Workspace
  /-- Tokens that clients took. -/
  taken : List Nat
  /-- Tokens that clients cancelled. -/
  withdrawn : List Nat
  /-- Tokens of the batches that were run. -/
  ran : List Nat

namespace Session

open Workspace (SameBatch BatchStep BatchSteps)

/-- What a client does. -/
inductive Act where
  /-- Take the token of the scheduled batch. -/
  | take
  | ask (disk : Disk) (operation : Operation)

/-- The act runs the scheduled batch. -/
def Act.isRun : Act → Bool
  | .ask _ (.runBatch _) => true
  | _ => false

/-- The session behind an act. A client can only cancel tokens that it took. -/
def act (session : Session) : Act → Session
  | .take =>
    { session with taken := (session.workspace.batch.map Batch.token).toList ++ session.taken }
  | .ask _ (.cancel token) =>
    if token ∈ session.taken then
      { session with workspace := session.workspace.cancel token, withdrawn := token :: session.withdrawn }
    else session
  | .ask _ (.runBatch interrupt) =>
    { session with
      workspace := (session.workspace.runBatch interrupt).2
      ran := (session.workspace.batch.map Batch.token).toList ++ session.ran }
  | .ask disk operation => { session with workspace := session.workspace.perform disk operation }

/-- The session behind acts, one after the other. -/
def run (session : Session) (acts : List Act) : Session := acts.foldl act session

/-- The start of a session. -/
def start (settings : WorkspaceSettings) (config : Configuration) : Session :=
  ⟨.make settings config, [], [], []⟩

/-- The template is open. -/
def Tracks (session : Session) (uri : FileUri) : Prop := (session.workspace.snapshot? uri).isSome = true

instance (session : Session) (uri : FileUri) : Decidable (session.Tracks uri) :=
  inferInstanceAs (Decidable (_ = true))

/-- The act schedules all open templates. -/
def Schedules (session : Session) : Act → Prop
  | .take => False
  | .ask disk operation => session.workspace.Schedules disk operation

/-- A batch was scheduled under the token and not run, and is no longer scheduled: another one took its
place. -/
def Replaced (session : Session) (token : Nat) : Prop :=
  token < session.workspace.nextToken ∧ token ∉ session.ran ∧
    session.workspace.batch.map Batch.token ≠ some token

/-- The batch gave way to one with the same templates, under a token that no batch had before. -/
structure GivesWay (session : Session) (batch : Batch) (after : Workspace) : Prop where
  cancelled : after.isCancelled batch.token = true
  scheduled : ∃ token, after.batch = some ⟨batch.pending, token⟩ ∧ after.isCancelled token = false ∧
    token ≠ batch.token ∧ token ∉ session.taken ∧ token ∉ session.withdrawn ∧ token ∉ session.ran ∧
    ¬session.Replaced token

variable {session : Session} {acts : List Act}

theorem run_append (session : Session) (acts more : List Act) :
    session.run (acts ++ more) = (session.run acts).run more :=
  List.foldl_append

theorem run_concat (session : Session) (acts : List Act) (last : Act) :
    session.run (acts ++ [last]) = (session.run acts).act last :=
  List.foldl_concat ..

/-- The ways an act can go. -/
inductive Acted (session : Session) : Act → Session → Prop where
  | took : Acted session .take
      { session with taken := (session.workspace.batch.map Batch.token).toList ++ session.taken }
  | cancelled (disk : Disk) {token : Nat} (held : token ∈ session.taken) :
      Acted session (.ask disk (.cancel token))
        { session with
          workspace := session.workspace.cancel token, withdrawn := token :: session.withdrawn }
  | refused (disk : Disk) {token : Nat} (absent : token ∉ session.taken) :
      Acted session (.ask disk (.cancel token)) session
  | ran (disk : Disk) (interrupt : Option Nat) :
      Acted session (.ask disk (.runBatch interrupt))
        { session with
          workspace := (session.workspace.runBatch interrupt).2
          ran := (session.workspace.batch.map Batch.token).toList ++ session.ran }
  | performed (disk : Disk) {operation : Operation} (goesOn : operation.endsBatch = false) :
      Acted session (.ask disk operation)
        { session with workspace := session.workspace.perform disk operation }

theorem acted (session : Session) (act : Act) : Acted session act (session.act act) := by
  cases act with
  | take => exact .took
  | ask disk operation =>
    cases operation with
    | cancel token =>
      rw [Session.act]
      split
      · rename_i held
        exact .cancelled disk held
      · rename_i absent
        exact .refused disk absent
    | runBatch interrupt => exact .ran disk interrupt
    | _ => exact .performed disk rfl

/-- The workspace of a session is one that operations lead to. -/
theorem reachable_run (settings : WorkspaceSettings) (config : Configuration) (acts : List Act) :
    Workspace.Reachable settings config ((start settings config).run acts).workspace := by
  induction acts using List.reverseRecOn with
  | nil => exact .fresh
  | append_singleton acts last ih =>
    rw [run_concat]
    have way := acted ((start settings config).run acts) last
    generalize ((start settings config).run acts).act last = after at way ⊢
    cases way with
    | took | refused => exact ih
    | @cancelled disk token held => exact ih.perform disk (.cancel token)
    | ran disk interrupt => exact ih.perform disk (.runBatch interrupt)
    | @performed disk operation goesOn => exact ih.perform disk operation

/-- What is known of tokens: those of batches that were neither run nor are scheduled are cancelled, and
the scheduled one only if a client cancelled it. -/
structure Accounted (session : Session) : Prop where
  sorted : ∀ batch, session.workspace.batch = some batch → batch.pending.Pairwise fun a b => a.text < b.text
  current : ∀ batch, session.workspace.batch = some batch →
    batch.token < session.workspace.nextToken ∧ batch.token ∉ session.ran ∧
      (batch.token ∈ session.workspace.cancelled ↔ batch.token ∈ session.withdrawn)
  given : ∀ token, token ∈ session.workspace.cancelled ∨ token ∈ session.taken ∨
    token ∈ session.withdrawn ∨ token ∈ session.ran → token < session.workspace.nextToken
  replaced : ∀ token, session.Replaced token → token ∈ session.workspace.cancelled

namespace Accounted

variable {after : Workspace}

theorem same (accounted : session.Accounted) (same : SameBatch session.workspace after) :
    Accounted { session with workspace := after } := by
  constructor
  · rw [same.batch]
    exact accounted.sorted
  · rw [same.batch, same.cancelled, same.nextToken]
    exact accounted.current
  · rw [same.cancelled, same.nextToken]
    exact accounted.given
  · intro token
    simp only [Replaced, same.batch, same.cancelled, same.nextToken]
    exact accounted.replaced token

theorem replaceBatch (accounted : session.Accounted) {pending : List FileUri}
    (sorted : pending.Pairwise fun a b => a.text < b.text) :
    Accounted { session with workspace := session.workspace.replaceBatch pending } := by
  obtain ⟨batch, next, -, cancelled⟩ := session.workspace.replaceBatch_spec pending
  have unused (token : Nat) : token ∈ session.workspace.cancelled ∨ token ∈ session.taken ∨
      token ∈ session.withdrawn ∨ token ∈ session.ran → token ≠ session.workspace.nextToken :=
    fun held => Nat.ne_of_lt (accounted.given token held)
  have old (token : Nat) (scheduled : session.workspace.batch.map Batch.token = some token) :
      token < session.workspace.nextToken := by
    obtain ⟨batch, held, rfl⟩ := Option.map_eq_some_iff.mp scheduled
    exact (accounted.current batch held).1
  constructor
  · intro held same
    simp only [batch, Option.some.injEq] at same
    rw [← same]
    exact sorted
  · intro held same
    simp only [batch, Option.some.injEq] at same
    rw [← same]
    refine ⟨?_, fun ran => unused _ (by simp [ran]) rfl, ?_⟩
    · simp only [next]
      omega
    · simp only [cancelled]
      constructor
      · rintro (scheduled | member)
        · exact absurd (old _ scheduled) (Nat.lt_irrefl _)
        · exact absurd rfl (unused _ (Or.inl member))
      · intro member
        exact absurd rfl (unused _ (by simp [member]))
  · intro token held
    simp only [cancelled] at held
    simp only [next]
    refine Nat.lt_succ_of_lt ?_
    rcases held with (scheduled | member) | others
    · exact old token scheduled
    · exact accounted.given token (Or.inl member)
    · exact accounted.given token (Or.inr others)
  · rintro token ⟨below, ran, apart⟩
    simp only [next, batch, Option.map_some, ne_eq, Option.some.injEq] at below ran apart
    simp only [cancelled]
    by_cases scheduled : session.workspace.batch.map Batch.token = some token
    · exact Or.inl scheduled
    · exact Or.inr (accounted.replaced token ⟨by omega, ran, scheduled⟩)

theorem batchSteps (accounted : session.Accounted) (steps : BatchSteps session.workspace after) :
    Accounted { session with workspace := after } := by
  induction steps with
  | refl => exact accounted
  | @tail before after _ step ih =>
    cases step with
    | same same => exact ih.same same
    | restart =>
      cases scheduled : before.batch with
      | none =>
        rw [Workspace.restartBatch, scheduled]
        exact ih
      | some batch =>
        rw [Workspace.restartBatch_of_some scheduled]
        exact ih.replaceBatch (ih.sorted batch scheduled)

end Accounted

/-- The templates of a workspace stand in order, each of them once. -/
theorem sorted_uris {files : FileMap Snapshot} (unique : files.Unique) :
    files.uris.Pairwise fun a b => a.text < b.text := by
  have both := files.pairwise_uris.and unique.nodup_uris
  refine both.imp fun {a b} ordered => ?_
  have least : ¬b.text < a.text := by simpa [FileUri.le] using ordered.1
  have apart : a.text ≠ b.text := fun same => ordered.2 (congrArg FileUri.mk same)
  by_contra above
  exact apart (String.le_antisymm (String.not_lt.mp least) (String.not_lt.mp above))

/-- Tokens are accounted for after every act. -/
theorem Accounted.act (accounted : session.Accounted) {settings : WorkspaceSettings} {config : Configuration}
    (reachable : Workspace.Reachable settings config session.workspace) (act : Act) :
    (session.act act).Accounted := by
  have way := acted session act
  generalize session.act act = after at way ⊢
  have scheduledBelow (token : Nat) (held : session.workspace.batch.map Batch.token = some token) :
      token < session.workspace.nextToken := by
    obtain ⟨batch, scheduled, rfl⟩ := Option.map_eq_some_iff.mp held
    exact (accounted.current batch scheduled).1
  cases way with
  | took =>
    refine ⟨accounted.sorted, accounted.current, fun token held => ?_, accounted.replaced⟩
    simp only [List.mem_append, Option.mem_toList] at held
    rcases held with cancelled | (scheduled | taken) | others
    · exact accounted.given token (Or.inl cancelled)
    · exact scheduledBelow token scheduled
    · exact accounted.given token (Or.inr (Or.inl taken))
    · exact accounted.given token (Or.inr (Or.inr others))
  | @cancelled disk token held =>
    refine ⟨accounted.sorted, fun batch scheduled => ?_, fun other given => ?_, fun other replaced => ?_⟩
    · obtain ⟨below, unrun, same⟩ := accounted.current batch scheduled
      refine ⟨below, unrun, ?_⟩
      simp only [Workspace.cancel, List.mem_cons, same]
    · simp only [Workspace.cancel, List.mem_cons] at given
      have known : other = token ∨ (other ∈ session.workspace.cancelled ∨ other ∈ session.taken ∨
          other ∈ session.withdrawn ∨ other ∈ session.ran) := by tauto
      rcases known with rfl | known
      · exact accounted.given other (Or.inr (Or.inl held))
      · exact accounted.given other known
    · exact List.mem_cons_of_mem token (accounted.replaced other replaced)
  | refused => exact accounted
  | ran disk interrupt =>
    obtain ⟨-, -, none, next, kept, cancelled⟩ := session.workspace.runBatch_spec interrupt
    refine ⟨fun batch held => ?_, fun batch held => ?_, fun token given => ?_, fun token replaced => ?_⟩
    · rw [none] at held
      cases held
    · rw [none] at held
      cases held
    · rw [next]
      simp only [List.mem_append, Option.mem_toList] at given
      have known : session.workspace.batch.map Batch.token = some token ∨
          (token ∈ session.workspace.cancelled ∨ token ∈ session.taken ∨ token ∈ session.withdrawn ∨
            token ∈ session.ran) := by
        have before := cancelled token
        tauto
      rcases known with scheduled | known
      · exact scheduledBelow token scheduled
      · exact accounted.given token known
    · obtain ⟨below, unrun, -⟩ := replaced
      simp only [List.mem_append, Option.mem_toList, not_or] at unrun
      rw [next] at below
      exact kept (accounted.replaced token ⟨below, unrun.2, unrun.1⟩)
  | @performed disk operation goesOn =>
    by_cases schedules : session.workspace.Schedules disk operation
    · obtain ⟨before, same, unique, scheduled⟩ :=
        Workspace.perform_of_schedules reachable.snapshotsNumbered reachable.diagnosed schedules
      rw [scheduled]
      exact (accounted.same same).replaceBatch (sorted_uris unique)
    · exact accounted.batchSteps (Workspace.batchSteps_perform reachable.diagnosed goesOn schedules)

theorem accounted_run (settings : WorkspaceSettings) (config : Configuration) (acts : List Act) :
    ((start settings config).run acts).Accounted := by
  induction acts using List.reverseRecOn with
  | nil =>
    refine ⟨fun batch held => (nomatch held), fun batch held => (nomatch held), fun token given => ?_,
      fun token replaced => ?_⟩
    · simp [start, run, Workspace.make] at given
    · exact absurd replaced.1 (Nat.not_lt_zero token)
  | append_singleton acts last ih =>
    rw [run_concat]
    exact ih.act (reachable_run settings config acts) last

/-- While no batch is run or scheduled anew, the same templates are pending. -/
theorem pending_of_batchSteps {ws after : Workspace} {batch : Batch} (scheduled : ws.batch = some batch)
    (steps : BatchSteps ws after) : ∃ token, after.batch = some ⟨batch.pending, token⟩ := by
  induction steps with
  | refl => exact ⟨batch.token, scheduled⟩
  | @tail before after _ step ih =>
    obtain ⟨token, held⟩ := ih
    cases step with
    | same same => exact ⟨token, same.batch.trans held⟩
    | restart =>
      obtain ⟨replaced, -⟩ := before.replaceBatch_spec batch.pending
      rw [Workspace.restartBatch_of_some held]
      exact ⟨before.nextToken, replaced⟩

/-- An act that schedules leaves all templates pending that are open then. -/
theorem batch_of_schedules {settings : WorkspaceSettings} {config : Configuration}
    (reachable : Workspace.Reachable settings config session.workspace) {act : Act}
    (schedules : session.Schedules act) :
    ∃ token, (session.act act).workspace.batch = some ⟨(session.act act).workspace.files.uris, token⟩ := by
  have way := acted session act
  generalize session.act act = after at way ⊢
  cases way with
  | took | cancelled | refused | ran => cases schedules
  | @performed disk operation goesOn =>
    obtain ⟨before, -, -, scheduled⟩ :=
      Workspace.perform_of_schedules reachable.snapshotsNumbered reachable.diagnosed schedules
    obtain ⟨batch, -, files, -⟩ := before.replaceBatch_spec before.files.uris
    rw [scheduled]
    refine ⟨before.nextToken, ?_⟩
    change (before.replaceBatch before.files.uris).batch = _
    rw [batch, show before.scheduleAll.files = before.files from files]

/-- An act other than a run leaves the same templates pending, unless it schedules. -/
theorem pending_act {settings : WorkspaceSettings} {config : Configuration}
    (reachable : Workspace.Reachable settings config session.workspace) {act : Act}
    (noRun : act.isRun = false) (unscheduled : ¬session.Schedules act) {batch : Batch}
    (scheduled : session.workspace.batch = some batch) :
    ∃ token, (session.act act).workspace.batch = some ⟨batch.pending, token⟩ := by
  have way := acted session act
  generalize session.act act = after at way ⊢
  cases way with
  | took | cancelled | refused => exact ⟨batch.token, scheduled⟩
  | ran => cases noRun
  | performed disk goesOn =>
    exact pending_of_batchSteps scheduled
      (Workspace.batchSteps_perform reachable.diagnosed goesOn unscheduled)

/-- Before the first act and behind each of the acts. -/
def Throughout (session : Session) (acts : List Act) (P : Session → Prop) : Prop :=
  ∀ front, front <+: acts → P (session.run front)

theorem Throughout.dropLast {P : Session → Prop} {last : Act}
    (throughout : session.Throughout (acts ++ [last]) P) : session.Throughout acts P :=
  fun front before => throughout front (before.trans (List.prefix_append acts [last]))

theorem Throughout.last {P : Session → Prop} (throughout : session.Throughout acts P) : P (session.run acts) :=
  throughout acts List.prefix_rfl

/-- Until a batch is run, some batch is scheduled. A pending template stays pending while it is open, and
all of them stay pending, and no others come, while nothing is scheduled anew. -/
theorem pending_run {settings : WorkspaceSettings} {config : Configuration}
    (reachable : ∀ acts, Workspace.Reachable settings config (session.run acts).workspace) {first : Batch}
    (scheduled : session.workspace.batch = some first) (noRun : ∀ act ∈ acts, act.isRun = false) :
    ∃ batch, (session.run acts).workspace.batch = some batch ∧
      (∀ uri, session.Throughout acts (·.Tracks uri) → uri ∈ first.pending → uri ∈ batch.pending) ∧
      ((∀ front act, front ++ [act] <+: acts → ¬(session.run front).Schedules act) →
        batch.pending = first.pending) := by
  induction acts using List.reverseRecOn with
  | nil => exact ⟨first, scheduled, fun _ _ pending => pending, fun _ => rfl⟩
  | append_singleton acts last ih =>
    obtain ⟨batch, held, kept, same⟩ := ih fun act member => noRun act (List.mem_append_left _ member)
    by_cases schedules : (session.run acts).Schedules last
    · obtain ⟨token, anew⟩ := batch_of_schedules (reachable acts) schedules
      refine ⟨_, by rw [run_concat]; exact anew, fun uri tracked _ => ?_, fun never => ?_⟩
      · have now := tracked.last
        rw [run_concat] at now
        exact (FileMap.mem_uris _ _).mpr now
      · exact absurd schedules (never acts last List.prefix_rfl)
    · have other := noRun last (by simp)
      obtain ⟨token, left⟩ := pending_act (reachable acts) other schedules held
      refine ⟨_, by rw [run_concat]; exact left, fun uri tracked pending => ?_, fun never => ?_⟩
      · exact kept uri tracked.dropLast pending
      · exact same fun front act before => never front act (before.trans (List.prefix_append acts [last]))

/-- Opening a file makes a scheduled batch give way. -/
theorem Accounted.givesWay (accounted : session.Accounted) {batch : Batch}
    (scheduled : session.workspace.batch = some batch) (disk : Disk) (file : TemplateFile) :
    session.GivesWay batch (session.workspace.openFile disk file).2 := by
  obtain ⟨replaced, cancelled⟩ := Workspace.openFile_batch scheduled disk file
  have unused (token : Nat) (held : token ∈ session.workspace.cancelled ∨ token ∈ session.taken ∨
      token ∈ session.withdrawn ∨ token ∈ session.ran) : token ≠ session.workspace.nextToken :=
    Nat.ne_of_lt (accounted.given token held)
  have apart : session.workspace.nextToken ≠ batch.token := (accounted.current batch scheduled).1.ne'
  refine ⟨?_, session.workspace.nextToken, replaced, ?_, apart, ?_, ?_, ?_, ?_⟩
  · exact Workspace.isCancelled_iff.mpr ((cancelled _).mpr (Or.inl rfl))
  · rw [← Bool.not_eq_true, Workspace.isCancelled_iff, cancelled]
    rintro (same | member)
    · exact apart same
    · exact unused _ (Or.inl member) rfl
  · exact fun member => unused _ (Or.inr (Or.inl member)) rfl
  · exact fun member => unused _ (Or.inr (Or.inr (Or.inl member))) rfl
  · exact fun member => unused _ (Or.inr (Or.inr (Or.inr member))) rfl
  · exact fun replaced => absurd replaced.1 (Nat.lt_irrefl _)

/-- In every session, the templates of the scheduled batch stand in order, each once, and its token is
cancelled only if a client did so; a batch that gave way to another one is cancelled. A file that is opened
or replaced makes the scheduled batch give way to one with the same templates. From any scheduling to the
next run some batch is scheduled, in which every template is pending that was open at that time and was not
closed since, and as long as nothing is scheduled anew exactly those are that were open at that time. A run
has nothing to do just if no batch is scheduled, leaves none, and tells all templates of the batch as
diagnosed or remaining. -/
theorem batches_supersede (settings : WorkspaceSettings) (config : Configuration) (acts : List Act) :
    let session := (start settings config).run acts
    let ws := session.workspace
    (∀ batch, ws.batch = some batch → batch.pending.Pairwise (fun a b => a.text < b.text) ∧
      (ws.isCancelled batch.token = true ↔ batch.token ∈ session.withdrawn)) ∧
    (∀ token, session.Replaced token → ws.isCancelled token = true) ∧
    (∀ batch, ws.batch = some batch → ∀ disk uri text,
      session.GivesWay batch (ws.openText disk uri text).2 ∧
      (∀ tree errors, session.GivesWay batch (ws.openParsed disk uri text tree errors).2) ∧
      (session.Tracks uri → session.GivesWay batch (ws.update disk uri text).2)) ∧
    (∀ act, session.Schedules act → ∀ more, (∀ later ∈ more, later.isRun = false) →
      let scheduled := session.act act
      ∃ batch, (scheduled.run more).workspace.batch = some batch ∧
        (∀ uri, scheduled.Throughout more (·.Tracks uri) → uri ∈ batch.pending) ∧
        ((∀ front later, front ++ [later] <+: more → ¬(scheduled.run front).Schedules later) →
          ∀ uri, uri ∈ batch.pending ↔ scheduled.Tracks uri)) ∧
    ∀ interrupt, ((ws.runBatch interrupt).1 = .idle ↔ ws.batch = none) ∧
      (ws.runBatch interrupt).2.batch = none ∧
      ∀ batch, ws.batch = some batch →
        (ws.runBatch interrupt).1.diagnosed + (ws.runBatch interrupt).1.remaining = batch.pending.length := by
  intro session ws
  have accounted : session.Accounted := accounted_run settings config acts
  refine ⟨fun batch scheduled => ⟨accounted.sorted batch scheduled, ?_⟩, fun token replaced => ?_,
    fun batch scheduled disk uri text => ⟨?_, fun tree errors => ?_, fun tracked => ?_⟩,
    fun act schedules more noRun => ?_, fun interrupt => ?_⟩
  · rw [Workspace.isCancelled_iff]
    exact (accounted.current batch scheduled).2.2
  · exact Workspace.isCancelled_iff.mpr (accounted.replaced token replaced)
  · exact accounted.givesWay scheduled disk _
  · exact accounted.givesWay scheduled disk _
  · rw [Workspace.update_of_tracked tracked]
    exact accounted.givesWay scheduled disk _
  · intro scheduled
    have reachable (later : List Act) :
        Workspace.Reachable settings config (scheduled.run later).workspace := by
      have whole : scheduled.run later = (start settings config).run (acts ++ [act] ++ later) := by
        rw [run_append, run_concat]
      rw [whole]
      exact reachable_run settings config _
    obtain ⟨token, batch⟩ := batch_of_schedules (reachable_run settings config acts) schedules
    obtain ⟨last, held, kept, same⟩ := pending_run reachable batch noRun
    refine ⟨last, held, fun uri tracked => kept uri tracked ?_, fun never uri => ?_⟩
    · exact (FileMap.mem_uris _ _).mpr (tracked [] List.nil_prefix)
    · rw [same never]
      exact FileMap.mem_uris _ _
  · obtain ⟨idle, counts, none, -⟩ := ws.runBatch_spec interrupt
    exact ⟨idle, none, counts⟩

private def leafTemplate : FileUri := ⟨"file:///Leaf.fusion"⟩

private def stemTemplate : FileUri := ⟨"file:///Stem.fusion"⟩

/-- A template is opened and scheduled, and a client takes the token. -/
private def leafActs : List Act :=
  [.ask .empty (.openText leafTemplate "a = 1"), .ask .empty .schedule, .take]

private def leafSession : Session := (start .standard .empty).run leafActs

private def openStem : Act := .ask .empty (.openText stemTemplate "b = 2")

/-- The batch that a client has the token of gives way when another template is opened; the template that
was scheduled is pending behind a second scheduling and that. -/
theorem batches_supersede_leaf :
    leafSession.workspace.batch = some ⟨[leafTemplate], 0⟩ ∧ leafSession.taken = [0] ∧
      leafSession.GivesWay ⟨[leafTemplate], 0⟩ (leafSession.workspace.openText .empty stemTemplate "b = 2").2 ∧
      leafSession.Schedules (.ask .empty .schedule) ∧
      ∃ batch, ((leafSession.act (.ask .empty .schedule)).run [openStem]).workspace.batch = some batch ∧
        leafTemplate ∈ batch.pending := by
  have scheduled : leafSession.workspace.batch = some ⟨[leafTemplate], 0⟩ := by decide +kernel
  have taken : leafSession.taken = [0] := by decide +kernel
  have schedules : leafSession.Schedules (.ask .empty .schedule) := trivial
  obtain ⟨-, -, ways, pending, -⟩ := batches_supersede .standard .empty leafActs
  have noRun : ∀ later ∈ [openStem], later.isRun = false := by
    intro later member
    rw [List.mem_singleton.mp member]
    rfl
  obtain ⟨batch, held, kept, -⟩ := pending (.ask .empty .schedule) schedules [openStem] noRun
  have tracked : (leafSession.act (.ask .empty .schedule)).Throughout [openStem] (·.Tracks leafTemplate) := by
    intro front before
    rcases List.prefix_cons_iff.mp before with rfl | ⟨rest, rfl, none⟩
    · decide +kernel
    · rw [List.prefix_nil.mp none]
      decide +kernel
  exact ⟨scheduled, taken, (ways _ scheduled .empty stemTemplate "b = 2").1, schedules, batch, held,
    kept leafTemplate tracked⟩

/-- A template that is closed behind a scheduling is no longer pending when all templates are scheduled
again, although no batch was run. -/
theorem closed_template_left_out :
    let opened := (start .standard .empty).run [.ask .empty (.openText leafTemplate "a = 1")]
    let scheduled := opened.act (.ask .empty .schedule)
    let more : List Act := [.ask .empty (.close leafTemplate), .ask .empty .schedule]
    opened.Schedules (.ask .empty .schedule) ∧ scheduled.Tracks leafTemplate ∧
      (∀ later ∈ more, later.isRun = false) ∧
      ∃ batch, (scheduled.run more).workspace.batch = some batch ∧ leafTemplate ∉ batch.pending := by
  intro opened scheduled more
  have tracked : scheduled.Tracks leafTemplate := by decide +kernel
  have noRun : more.all (fun later => later.isRun = false) = true := by decide
  have batch : (scheduled.run more).workspace.batch = some ⟨[], 1⟩ := by decide +kernel
  refine ⟨trivial, tracked, fun later member => ?_, ⟨[], 1⟩, batch, List.not_mem_nil⟩
  exact of_decide_eq_true (List.all_eq_true.mp noRun later member)

end Session

end FusionAtlas
