import FusionAtlas.Proofs.ChainReference
import FusionAtlas.Resolution.Literals

/-!
Trees that differ in the texts of their strings and in the places of their nodes. Chains are followed alike in
them: computations on two such trees do the same to every library, and come to the same but for places. Main
statements: the rules of `LookupProgram.Agree`, and `Chain.follow_agree`.
-/

set_option autoImplicit false
set_option relaxedAutoImplicit false

namespace FusionAtlas

namespace LookupProgram

variable {α β γ δ : Type} {m : StateM ClassLibrary α} {n : StateM ClassLibrary β} {r : α → β → Prop}

/-- The two computations do the same to every library, and their results are related. -/
def Agree (related : α → β → Prop) (m : StateM ClassLibrary α) (n : StateM ClassLibrary β) : Prop :=
  ∀ library, (m.run library).2 = (n.run library).2 ∧ related (m.run library).1 (n.run library).1

namespace Agree

theorem pure {x : α} {y : β} (related : r x y) : Agree r (Pure.pure x) (Pure.pure y) := fun _ => ⟨rfl, related⟩

theorem refl (m : StateM ClassLibrary α) : Agree Eq m m := fun _ => ⟨rfl, rfl⟩

theorem bind {s : γ → δ → Prop} {f : α → StateM ClassLibrary γ} {g : β → StateM ClassLibrary δ}
    (first : Agree r m n) (next : ∀ x y, r x y → Agree s (f x) (g y)) : Agree s (m >>= f) (n >>= g) := by
  intro library
  obtain ⟨same, related⟩ := first library
  rw [run_bind, run_bind, ← same]
  exact next _ _ related _

variable {s : γ → δ → Prop}

theorem mapM {f : γ → StateM ClassLibrary α} {g : δ → StateM ClassLibrary β}
    (step : ∀ x y, s x y → Agree r (f x) (g y)) {items : List γ} {others : List δ}
    (related : List.Forall₂ s items others) : Agree (List.Forall₂ r) (items.mapM f) (others.mapM g) := by
  induction related with
  | nil => exact pure .nil
  | cons first _ ih =>
    rw [List.mapM_cons, List.mapM_cons]
    exact (step _ _ first).bind fun _ _ here => ih.bind fun _ _ rest => pure (.cons here rest)

theorem foldlM {f : α → γ → StateM ClassLibrary α} {g : β → δ → StateM ClassLibrary β}
    (step : ∀ x y item other, r x y → s item other → Agree r (f x item) (g y other)) {items : List γ}
    {others : List δ} (related : List.Forall₂ s items others) :
    ∀ {x : α} {y : β}, r x y → Agree r (items.foldlM f x) (others.foldlM g y) := by
  induction related with
  | nil => exact fun start => pure start
  | cons first _ ih =>
    intro x y start
    rw [List.foldlM_cons, List.foldlM_cons]
    exact (step x y _ _ start first).bind fun _ _ behind => ih behind

end Agree

end LookupProgram

open LookupProgram (Agree)

/-- What a node is, without the text if it is a string. -/
def NodeKind.textless : NodeKind → NodeKind
  | .stringValue _ => .stringValue ""
  | .literalString _ => .literalString ""
  | kind => kind

namespace NodeKind

theorem textless_eq_self (kind : NodeKind) :
    kind.textless = kind ∨ (∃ text, kind = .stringValue text) ∨ ∃ text, kind = .literalString text := by
  cases kind with
  | stringValue text => exact .inr (.inl ⟨text, rfl⟩)
  | literalString text => exact .inr (.inr ⟨text, rfl⟩)
  | _ => exact .inl rfl

/-- Without their texts two nodes are the same only if they are, or both are strings of one sort. -/
theorem textless_cases {kind other : NodeKind} (same : kind.textless = other.textless) :
    kind = other ∨ (∃ a b, kind = .stringValue a ∧ other = .stringValue b) ∨
      ∃ a b, kind = .literalString a ∧ other = .literalString b := by
  rcases kind.textless_eq_self with self | ⟨a, rfl⟩ | ⟨a, rfl⟩
  · rcases other.textless_eq_self with self' | ⟨b, rfl⟩ | ⟨b, rfl⟩
    · exact .inl (by rw [← self, same, self'])
    · exact .inr (.inl ⟨"", b, by rw [← self, same, textless], rfl⟩)
    · exact .inr (.inr ⟨"", b, by rw [← self, same, textless], rfl⟩)
  · rcases other.textless_eq_self with self' | ⟨b, rfl⟩ | ⟨b, rfl⟩
    · exact .inr (.inl ⟨a, "", rfl, by rw [← self', ← same, textless]⟩)
    · exact .inr (.inl ⟨a, b, rfl, rfl⟩)
    · cases same
  · rcases other.textless_eq_self with self' | ⟨b, rfl⟩ | ⟨b, rfl⟩
    · exact .inr (.inr ⟨a, "", rfl, by rw [← self', ← same, textless]⟩)
    · cases same
    · exact .inr (.inr ⟨a, b, rfl, rfl⟩)

end NodeKind

/-- The same nodes in the same order, but for the texts of strings and for places. -/
def SyntaxTree.SameShape (tree other : SyntaxTree) : Prop :=
  tree.nodes.toList.map (·.kind.textless) = other.nodes.toList.map (·.kind.textless)

/-- The start of a chain without its place. -/
def ChainStart.unplaced (helper : ChainStart) : ChainStart := { helper with range := .emptyAt 0 }

/-- A step without its place. -/
def ChainStep.unplaced (step : ChainStep) : ChainStep :=
  { step with helper := step.helper.unplaced, range := .emptyAt 0 }

variable {tree other : SyntaxTree} {helpers : BoundHelpers} {disk : Disk}

namespace SyntaxTree.SameShape

theorem kind?_textless (same : SameShape tree other) (id : NodeId) :
    (tree.kind? id).map NodeKind.textless = (other.kind? id).map NodeKind.textless := by
  have here := congrArg (·[id]?) same
  simp only [List.getElem?_map, Array.getElem?_toList] at here
  rw [kind?, kind?, Option.map_map, Option.map_map]
  exact here

/-- A node is the same in both, or a string in both. -/
theorem kind?_cases (same : SameShape tree other) (id : NodeId) :
    tree.kind? id = other.kind? id ∨
      (∃ a b, tree.kind? id = some (.stringValue a) ∧ other.kind? id = some (.stringValue b)) ∨
      ∃ a b, tree.kind? id = some (.literalString a) ∧ other.kind? id = some (.literalString b) := by
  have here := same.kind?_textless id
  cases first : tree.kind? id with
  | none =>
    rw [first, Option.map_none, eq_comm, Option.map_eq_none_iff] at here
    exact .inl here.symm
  | some kind =>
    rw [first, Option.map_some, eq_comm, Option.map_eq_some_iff] at here
    obtain ⟨kind', second, textless⟩ := here
    rw [second]
    rcases NodeKind.textless_cases textless.symm with rfl | ⟨a, b, rfl, rfl⟩ | ⟨a, b, rfl, rfl⟩
    · exact .inl rfl
    · exact .inr (.inl ⟨a, b, rfl, rfl⟩)
    · exact .inr (.inr ⟨a, b, rfl, rfl⟩)

theorem chainValue?_eq (same : SameShape tree other) (id : NodeId) :
    (tree.kind? id).bind NodeKind.chainValue? = (other.kind? id).bind NodeKind.chainValue? := by
  rcases same.kind?_cases id with equal | ⟨a, b, first, second⟩ | ⟨a, b, first, second⟩
  · rw [equal]
  all_goals
    rw [first, second]
    rfl

theorem parts_eq (same : SameShape tree other) (path : List NodeId) :
    Chain.parts tree path = Chain.parts other path := by
  simp only [Chain.parts, same.chainValue?_eq]

theorem callOf?_eq (same : SameShape tree other) (cls : LoadedClass) (segment : NodeId) :
    Chain.callOf? tree cls segment = Chain.callOf? other cls segment := by
  unfold Chain.callOf?
  rcases same.kind?_cases segment with equal | ⟨a, b, first, second⟩ | ⟨a, b, first, second⟩
  · rw [equal]
  all_goals rw [first, second]

end SyntaxTree.SameShape

open SyntaxTree (SameShape)

namespace Chain

theorem start_agree (same : SameShape tree other) (helpers : BoundHelpers) (disk : Disk) (objectNode : NodeId) :
    Agree (fun x y => x.map ChainStart.unplaced = y.map ChainStart.unplaced)
      (start tree helpers disk objectNode) (start other helpers disk objectNode) := by
  unfold start
  rcases same.kind?_cases objectNode with equal | ⟨a, b, first, second⟩ | ⟨a, b, first, second⟩
  · rw [equal]
    split
    · split
      · exact .pure rfl
      · rw [same.parts_eq]
        split
        · exact .pure rfl
        · refine (Agree.refl _).bind fun found found' equal => ?_
          subst equal
          cases found with
          | none => exact .pure rfl
          | some cls => exact .pure rfl
    · exact .pure rfl
  all_goals
    rw [first, second]
    exact .pure rfl

end Chain

theorem ChainWalk.collect_agree (same : SameShape tree other) {helper helper' : ChainStart}
    (begun : helper.unplaced = helper'.unplaced) (ahead : List NodeId) :
    ∀ cursor : Option LoadedClass, Agree (List.Forall₂ fun x y => x.unplaced = y.unplaced)
      (collect tree disk helper ⟨cursor, ahead⟩) (collect other disk helper' ⟨cursor, ahead⟩) := by
  induction ahead with
  | nil =>
    intro cursor library
    cases cursor with
    | none =>
      rw [collect_ended, collect_ended]
      exact ⟨rfl, .nil⟩
    | some cls =>
      rw [collect_nil, collect_nil]
      exact ⟨rfl, .nil⟩
  | cons segment ahead ih =>
    intro cursor library
    cases cursor with
    | none =>
      rw [collect_ended, collect_ended]
      exact ⟨rfl, .nil⟩
    | some cls =>
      have agree := same.callOf?_eq cls segment
      cases call : Chain.callOf? tree cls segment with
      | none =>
        rw [collect_of_skip call, collect_of_skip (agree ▸ call)]
        exact ih (some cls) library
      | some found =>
        obtain ⟨name, method⟩ := found
        rw [collect_of_call call, collect_of_call (agree ▸ call)]
        obtain ⟨behind, rest⟩ := ih ((Chain.nextClass disk method).run library).1
          ((Chain.nextClass disk method).run library).2
        refine ⟨behind, .cons ?_ rest⟩
        simp only [ChainStep.unplaced, Chain.stepAt, begun]

namespace Chain

/-- Two chains that were followed to the same but for places. -/
def SameSteps : Except ChainAbort (ChainStart × List ChainStep) →
    Except ChainAbort (ChainStart × List ChainStep) → Prop
  | .ok (_, steps), .ok (_, steps') => List.Forall₂ (fun x y => x.unplaced = y.unplaced) steps steps'
  | .error abort, .error abort' => abort = abort'
  | _, _ => False

theorem follow_agree (same : SameShape tree other) (helpers : BoundHelpers) (disk : Disk)
    (objectNode : NodeId) : Agree SameSteps (follow tree helpers disk objectNode)
      (follow other helpers disk objectNode) := by
  unfold follow
  refine (start_agree same helpers disk objectNode).bind fun begun begun' equal => ?_
  match begun, begun', equal with
  | .error abort, .error abort', equal => exact .pure (Except.error.inj equal)
  | .ok helper, .ok helper', equal =>
    have unplaced : helper.unplaced = helper'.unplaced := Except.ok.inj equal
    have cls : helper.cls = helper'.cls := (congrArg ChainStart.cls unplaced :)
    have ahead : helper.remaining = helper'.remaining := (congrArg ChainStart.remaining unplaced :)
    simp only [steps, ChainWalk.ofStart, ← cls, ← ahead]
    exact (ChainWalk.collect_agree same unplaced helper.remaining (some helper.cls)).bind
      fun _ _ rest => .pure rest

end Chain

end FusionAtlas
