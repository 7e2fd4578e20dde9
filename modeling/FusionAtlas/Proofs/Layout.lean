import FusionAtlas.Proofs.Arena
import FusionAtlas.Proofs.TextCut

/-!
Ranges of a syntax tree. In an outline that is laid out, the parts of a node come one after the
other, start inside the node, and either end inside it or begin behind it. Main statement:
`SyntaxTree.Follows.nested`.
-/

set_option autoImplicit false
set_option relaxedAutoImplicit false

namespace FusionAtlas

namespace ByteRange

/-- A range with its ends in order and both at places where the text can be cut. -/
structure LiesIn (text : List Char) (r : ByteRange) : Prop where
  le : r.start ≤ r.stop
  start : Text.IsBoundary text r.start
  stop : Text.IsBoundary text r.stop

/-- The second range lies in the first. -/
def Encloses (outer inner : ByteRange) : Prop :=
  outer.start ≤ inner.start ∧ inner.stop ≤ outer.stop

/-- The first range ends before the second begins. -/
def Before (a b : ByteRange) : Prop := a.stop ≤ b.start

/-- One range lies in the other, or they share no byte. -/
def Laminar (a b : ByteRange) : Prop := a.Encloses b ∨ b.Encloses a ∨ a.Before b ∨ b.Before a

theorem Encloses.refl (r : ByteRange) : r.Encloses r := ⟨Nat.le_refl _, Nat.le_refl _⟩

theorem Laminar.symm {a b : ByteRange} (laminar : a.Laminar b) : b.Laminar a := by
  rcases laminar with around | within | before | behind
  · exact Or.inr (Or.inl around)
  · exact Or.inl within
  · exact Or.inr (Or.inr (Or.inr before))
  · exact Or.inr (Or.inr (Or.inl behind))

end ByteRange

namespace SyntaxTree

/-- Ranges of the nodes lie in the text and nest like the nodes. -/
structure Nested (text : List Char) (tree : SyntaxTree) : Prop where
  lies : ∀ id < tree.size, (tree.range id).LiesIn text
  laminar : ∀ a < tree.size, ∀ b < tree.size, (tree.range a).Laminar (tree.range b)
  child : ∀ parent, ∀ child ∈ tree.children parent, ¬tree.HasTag child .error →
    (tree.range parent).Encloses (tree.range child)
  ordered : ∀ parent, (tree.children parent).Pairwise fun a b =>
    (tree.range a).Before (tree.range b)

namespace Outline

mutual

/-- The outline of each node, the outermost last. -/
def nodes : Outline → List Outline
  | node tag range parts => nodesOf parts ++ [node tag range parts]

def nodesOf : List (Bool × Outline) → List Outline
  | [] => []
  | (_, outline) :: more => outline.nodes ++ nodesOf more

end

/-- A range may hold a node's part: the part starts in it, and ends in it or begins behind it. -/
def Admits (r : ByteRange) (outline : Outline) : Prop :=
  r.start ≤ outline.range.start ∧ (outline.range.stop ≤ r.stop ∨ r.stop ≤ outline.range.start)

mutual

/-- The node's range admits everything below it and encloses its children, but for places where
something was missing. -/
def Laid : Outline → Prop
  | node _ r parts =>
    LaidOf parts ∧ (∀ outline ∈ nodesOf parts, Admits r outline) ∧
      ∀ outline ∈ listedOf parts, outline.tag ≠ .error → outline.range.stop ≤ r.stop

/-- Each part is laid out and ends before the next one begins. -/
def LaidOf : List (Bool × Outline) → Prop
  | [] => True
  | (_, outline) :: more =>
    outline.Laid ∧ (∀ a ∈ outline.nodes, ∀ b ∈ nodesOf more, a.range.Before b.range) ∧ LaidOf more

end

variable {outline : Outline} {front behind parts : Parts}

theorem nodesOf_append (front behind : Parts) :
    nodesOf (front ++ behind) = nodesOf front ++ nodesOf behind := by
  induction front with
  | nil => rfl
  | cons part front ih =>
    rw [List.cons_append, nodesOf, nodesOf, ih, List.append_assoc]

theorem listedOf_append (front behind : Parts) :
    listedOf (front ++ behind) = listedOf front ++ listedOf behind := by
  induction front with
  | nil => rfl
  | cons part front ih =>
    rw [List.cons_append, listedOf, listedOf, ih, List.append_assoc]

theorem nodesOf_singleton (listed : Bool) (outline : Outline) :
    nodesOf [(listed, outline)] = outline.nodes := by
  rw [nodesOf, nodesOf, List.append_nil]

theorem laidOf_singleton {listed : Bool} : LaidOf [(listed, outline)] ↔ outline.Laid := by
  simp [LaidOf, nodesOf]

theorem self_mem_nodes (outline : Outline) : outline ∈ outline.nodes := by
  cases outline
  exact List.mem_append_right _ (List.mem_singleton.mpr rfl)

theorem mem_nodesOf_of_mem_listedOf (member : outline ∈ listedOf parts) :
    outline ∈ nodesOf parts := by
  induction parts with
  | nil => cases member
  | cons part parts ih =>
    obtain ⟨listed, first⟩ := part
    rw [nodesOf]
    rcases List.mem_append.mp member with here | later
    · cases listed with
      | false => cases here
      | true =>
        obtain rfl := List.mem_singleton.mp here
        exact List.mem_append_left _ (self_mem_nodes _)
    · exact List.mem_append_right _ (ih later)

theorem nodesOf_loosen (parts : Parts) : nodesOf (loosen parts) = nodesOf parts := by
  induction parts with
  | nil => rfl
  | cons part parts ih =>
    obtain ⟨listed, outline⟩ := part
    change outline.nodes ++ nodesOf (loosen parts) = _
    rw [ih, nodesOf]

theorem listedOf_loosen (parts : Parts) : listedOf (loosen parts) = [] := by
  induction parts with
  | nil => rfl
  | cons part parts ih => exact ih

theorem laidOf_loosen : LaidOf (loosen parts) ↔ LaidOf parts := by
  induction parts with
  | nil => exact Iff.rfl
  | cons part parts ih =>
    obtain ⟨listed, outline⟩ := part
    change outline.Laid ∧ (∀ a ∈ outline.nodes, ∀ b ∈ nodesOf (loosen parts), _) ∧
      LaidOf (loosen parts) ↔ _
    rw [ih, nodesOf_loosen, LaidOf]

theorem laidOf_append : LaidOf (front ++ behind) ↔
    LaidOf front ∧ LaidOf behind ∧
      ∀ a ∈ nodesOf front, ∀ b ∈ nodesOf behind, a.range.Before b.range := by
  induction front with
  | nil => simp [LaidOf, nodesOf]
  | cons part front ih =>
    obtain ⟨listed, outline⟩ := part
    simp only [List.cons_append, LaidOf, nodesOf, nodesOf_append, ih, List.mem_append]
    constructor
    · rintro ⟨first, apart, laid, others, between⟩
      refine ⟨⟨first, fun a here b there => apart a here b (Or.inl there), laid⟩, others, ?_⟩
      rintro a (here | later) b there
      · exact apart a here b (Or.inr there)
      · exact between a later b there
    · rintro ⟨⟨first, apart, laid⟩, others, between⟩
      refine ⟨first, ?_, laid, others, fun a here => between a (Or.inr here)⟩
      rintro a here b (there | there)
      · exact apart a here b there
      · exact between a (Or.inl here) b there

mutual

theorem laid_of_mem_nodes : ∀ outline : Outline, outline.Laid → ∀ a ∈ outline.nodes, a.Laid
  | node _ _ parts, laid, a, member => by
    rw [nodes] at member
    rcases List.mem_append.mp member with below | last
    · exact laid_of_mem_nodesOf parts laid.1 a below
    · obtain rfl := List.mem_singleton.mp last
      exact laid

theorem laid_of_mem_nodesOf : ∀ parts : List (Bool × Outline), LaidOf parts →
    ∀ a ∈ nodesOf parts, a.Laid
  | [], _, _, member => nomatch member
  | (_, outline) :: more, laid, a, member => by
    rw [nodesOf] at member
    rcases List.mem_append.mp member with front | behind
    · exact laid_of_mem_nodes outline laid.1 a front
    · exact laid_of_mem_nodesOf more laid.2.2 a behind

end

mutual

/-- Any two nodes are nested or apart. -/
theorem laminar_of_laid : ∀ outline : Outline, outline.Laid →
    ∀ a ∈ outline.nodes, ∀ b ∈ outline.nodes, a.range.Laminar b.range
  | node tag r parts, ⟨laid, admits, _⟩, a, here, b, there => by
    have under (o : Outline) (below : o ∈ nodesOf parts) : r.Laminar o.range := by
      obtain ⟨start, stop | behind⟩ := admits o below
      · exact Or.inl ⟨start, stop⟩
      · exact Or.inr (Or.inr (Or.inl behind))
    rw [nodes] at here there
    rcases List.mem_append.mp here with below | last
    · rcases List.mem_append.mp there with below' | last'
      · exact laminar_of_laidOf parts laid a below b below'
      · obtain rfl := List.mem_singleton.mp last'
        exact (under a below).symm
    · obtain rfl := List.mem_singleton.mp last
      rcases List.mem_append.mp there with below' | last'
      · exact under b below'
      · obtain rfl := List.mem_singleton.mp last'
        exact Or.inl (ByteRange.Encloses.refl r)

theorem laminar_of_laidOf : ∀ parts : List (Bool × Outline), LaidOf parts →
    ∀ a ∈ nodesOf parts, ∀ b ∈ nodesOf parts, a.range.Laminar b.range
  | [], _, _, member, _, _ => nomatch member
  | (_, outline) :: more, ⟨first, apart, others⟩, a, here, b, there => by
    rw [nodesOf] at here there
    rcases List.mem_append.mp here with front | behind
    · rcases List.mem_append.mp there with front' | behind'
      · exact laminar_of_laid outline first a front b front'
      · exact Or.inr (Or.inr (Or.inl (apart a front b behind')))
    · rcases List.mem_append.mp there with front' | behind'
      · exact Or.inr (Or.inr (Or.inr (apart b front' a behind)))
      · exact laminar_of_laidOf more others a behind b behind'

end

theorem pairwise_listedOf (laid : LaidOf parts) :
    (listedOf parts).Pairwise fun a b => a.range.Before b.range := by
  induction parts with
  | nil => exact List.Pairwise.nil
  | cons part parts ih =>
    obtain ⟨listed, outline⟩ := part
    obtain ⟨-, apart, others⟩ := laid
    cases listed with
    | false => exact ih others
    | true =>
      refine List.Pairwise.cons ?_ (ih others)
      intro later member
      exact apart outline (self_mem_nodes outline) later (mem_nodesOf_of_mem_listedOf member)

theorem laidOf_parts (laid : outline.Laid) : LaidOf outline.parts := by
  cases outline
  exact laid.1

/-- What is below a node ends in its range or begins behind it. -/
theorem admits_of_laid {below : Outline} (laid : outline.Laid) (member : below ∈ outline.nodes) :
    Admits outline.range below := by
  obtain ⟨tag, r, parts⟩ := outline
  rw [nodes] at member
  rcases List.mem_append.mp member with inside | last
  · exact laid.2.1 below inside
  · obtain rfl := List.mem_singleton.mp last
    exact ⟨Nat.le_refl _, Or.inl (Nat.le_refl _)⟩

theorem encloses_of_laid {child : Outline} (laid : outline.Laid)
    (member : child ∈ listedOf outline.parts) (present : child.tag ≠ .error) :
    outline.range.Encloses child.range := by
  cases outline
  exact ⟨(laid.2.1 child (mem_nodesOf_of_mem_listedOf member)).1, laid.2.2 child member present⟩

end Outline

open Outline (idsOf listedOf nodesOf Laid LaidOf)

mutual

theorem map_outline_spots (base : Nat) : ∀ outline : Outline,
    (spots base outline).map Spot.outline = outline.nodes
  | .node tag range parts => by
    rw [spots, List.map_append, map_outline_spotsOf base parts, Outline.nodes, List.map_singleton]

theorem map_outline_spotsOf (base : Nat) : ∀ parts : List (Bool × Outline),
    (spotsOf base parts).map Spot.outline = nodesOf parts
  | [] => rfl
  | (_, outline) :: more => by
    rw [spotsOf, List.map_append, map_outline_spots base outline, map_outline_spotsOf _ more,
      nodesOf]

end

theorem self_mem_spots (base : Nat) (outline : Outline) : ⟨outline, base⟩ ∈ spots base outline := by
  cases outline
  exact List.mem_append_right _ (List.mem_singleton.mpr rfl)

mutual

theorem spotsOf_subset (base : Nat) : ∀ outline : Outline, ∀ spot ∈ spots base outline,
    spotsOf spot.base spot.outline.parts ⊆ spots base outline
  | .node tag range parts, spot, member => by
    rw [spots] at member ⊢
    rcases List.mem_append.mp member with below | last
    · exact fun _ there => List.mem_append_left _ (spotsOf_subset_of_mem base parts spot below there)
    · obtain rfl := List.mem_singleton.mp last
      exact fun _ there => List.mem_append_left _ there

theorem spotsOf_subset_of_mem (base : Nat) : ∀ parts : List (Bool × Outline),
    ∀ spot ∈ spotsOf base parts, spotsOf spot.base spot.outline.parts ⊆ spotsOf base parts
  | [], _, member => nomatch member
  | (_, outline) :: more, spot, member => by
    rw [spotsOf] at member ⊢
    rcases List.mem_append.mp member with front | behind
    · exact fun _ there => List.mem_append_left _ (spotsOf_subset base outline spot front there)
    · exact fun _ there => List.mem_append_right _ (spotsOf_subset_of_mem _ more spot behind there)

end

/-- The numbers of the children belong to the listed parts. -/
theorem forall₂_idsOf (base : Nat) (parts : Parts) :
    List.Forall₂ (fun id outline => ∃ spot ∈ spotsOf base parts,
      spot.id = id ∧ spot.outline = outline) (idsOf base parts) (listedOf parts) := by
  induction parts generalizing base with
  | nil => exact List.Forall₂.nil
  | cons part parts ih =>
    obtain ⟨listed, outline⟩ := part
    have later : List.Forall₂ (fun id o => ∃ spot ∈ spotsOf base ((listed, outline) :: parts),
        spot.id = id ∧ spot.outline = o) (idsOf (base + outline.inner + 1) parts)
        (listedOf parts) := by
      refine (ih _).imp fun id o found => ?_
      obtain ⟨spot, member, same⟩ := found
      exact ⟨spot, List.mem_append_right (spots base outline) member, same⟩
    cases listed with
    | false => exact later
    | true =>
      refine List.Forall₂.cons ?_ later
      exact ⟨⟨outline, base⟩, List.mem_append_left _ (self_mem_spots base outline), rfl, rfl⟩

namespace Follows

variable {tree : SyntaxTree} {outline : Outline}

theorem exists_spot (follows : tree.Follows outline) {id : Nat} (inside : id < tree.size) :
    ∃ spot, (spots 0 outline)[id]? = some spot := by
  rw [follows.size, ← length_spots 0 outline] at inside
  exact ⟨_, List.getElem?_eq_getElem inside⟩

theorem range_eq (follows : tree.Follows outline) {id : Nat} {spot : Spot}
    (here : (spots 0 outline)[id]? = some spot) : tree.range id = spot.outline.range := by
  obtain ⟨n, node, -, range, -⟩ := follows.node id spot here
  rw [SyntaxTree.range, node]
  exact range

theorem hasTag_iff (follows : tree.Follows outline) {id : Nat} {spot : Spot}
    (here : (spots 0 outline)[id]? = some spot) (tag : NodeTag) :
    tree.HasTag id tag ↔ spot.outline.tag = tag := by
  obtain ⟨n, node, same, -⟩ := follows.node id spot here
  rw [HasTag, kind?, node, Option.map_some, Option.map_some, same, Option.some.injEq]

/-- The children of a node are its listed parts in their order. -/
theorem forall₂_children (follows : tree.Follows outline) {id : Nat} {spot : Spot}
    (here : (spots 0 outline)[id]? = some spot) :
    List.Forall₂ (fun child part => ∃ place, (spots 0 outline)[child]? = some place ∧
      place.outline = part) (tree.children id) (listedOf spot.outline.parts) := by
  rw [follows.children_eq, here]
  refine (forall₂_idsOf spot.base spot.outline.parts).imp fun child part found => ?_
  obtain ⟨place, member, rfl, same⟩ := found
  have inside := spotsOf_subset 0 outline spot (List.mem_of_getElem? here) member
  obtain ⟨i, there⟩ := List.mem_iff_getElem?.mp inside
  rw [← id_of_getElem?_spots there] at there
  exact ⟨place, there, same⟩

theorem nested {text : List Char} (follows : tree.Follows outline) (laid : outline.Laid)
    (lies : ∀ o ∈ outline.nodes, o.range.LiesIn text) : tree.Nested text := by
  have mem {id : Nat} {spot : Spot} (here : (spots 0 outline)[id]? = some spot) :
      spot.outline ∈ outline.nodes := by
    rw [← map_outline_spots 0 outline]
    exact List.mem_map_of_mem (List.mem_of_getElem? here)
  constructor
  case lies =>
    intro id inside
    obtain ⟨spot, here⟩ := follows.exists_spot inside
    rw [follows.range_eq here]
    exact lies _ (mem here)
  case laminar =>
    intro a inside b inside'
    obtain ⟨spot, here⟩ := follows.exists_spot inside
    obtain ⟨other, there⟩ := follows.exists_spot inside'
    rw [follows.range_eq here, follows.range_eq there]
    exact Outline.laminar_of_laid outline laid _ (mem here) _ (mem there)
  case child =>
    intro parent child member present
    obtain ⟨spot, here, -⟩ := (follows.mem_children_iff parent child).mp member
    obtain ⟨i, lt, rfl⟩ := List.mem_iff_getElem.mp member
    have alike := follows.forall₂_children here
    obtain ⟨place, there, same⟩ := alike.get lt (alike.length_eq ▸ lt)
    rw [List.get_eq_getElem] at there same
    rw [follows.hasTag_iff there] at present
    rw [follows.range_eq here, follows.range_eq there]
    have inside := Outline.laid_of_mem_nodes outline laid _ (mem here)
    exact Outline.encloses_of_laid inside (same ▸ List.getElem_mem _) present
  case ordered =>
    intro parent
    by_cases inside : parent < tree.size
    · obtain ⟨spot, here⟩ := follows.exists_spot inside
      have alike := follows.forall₂_children here
      have inside := Outline.laid_of_mem_nodes outline laid _ (mem here)
      have apart := Outline.pairwise_listedOf (Outline.laidOf_parts inside)
      rw [List.pairwise_iff_getElem] at apart ⊢
      intro i j lt lt' less
      have length := alike.length_eq
      obtain ⟨first, found, same⟩ := alike.get lt (length ▸ lt)
      obtain ⟨second, found', same'⟩ := alike.get lt' (length ▸ lt')
      rw [List.get_eq_getElem] at found found' same same'
      rw [follows.range_eq found, follows.range_eq found', same, same']
      exact apart i j (length ▸ lt) (length ▸ lt') less
    · have missing : tree.nodes[parent]? = none := Array.getElem?_eq_none (Nat.le_of_not_lt inside)
      rw [SyntaxTree.children, kind?, missing]
      exact List.Pairwise.nil

end Follows

end SyntaxTree

end FusionAtlas
