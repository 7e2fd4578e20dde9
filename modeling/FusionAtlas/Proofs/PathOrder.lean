import FusionAtlas.Proofs.FilePath

/-!
The order of paths. Paths are compared component by component, and names byte by byte, so a directory and all
below it come before what has a greater name beside it. Main statements: `FilePath.componentsLe_iff` and
`FilePath.pairwise_mergeSort`.
-/

set_option autoImplicit false
set_option relaxedAutoImplicit false

namespace FusionAtlas.FilePath

section Bytes

variable {a b c : UInt8} {as bs cs : List UInt8}

theorem bytesLe_cons : bytesLe (a :: as) (b :: bs) = true ↔ a < b ∨ a = b ∧ bytesLe as bs = true := by
  rw [bytesLe, Bool.or_eq_true, Bool.and_eq_true, decide_eq_true_eq, beq_iff_eq]

theorem bytesLe_total (as bs : List UInt8) : bytesLe as bs = true ∨ bytesLe bs as = true := by
  induction as generalizing bs with
  | nil => exact .inl rfl
  | cons a as ih =>
    cases bs with
    | nil => exact .inr rfl
    | cons b bs =>
      rw [bytesLe_cons, bytesLe_cons]
      by_cases same : a = b
      · exact (ih bs).imp (fun le => .inr ⟨same, le⟩) fun le => .inr ⟨same.symm, le⟩
      · exact (UInt8.lt_or_lt_of_ne same).imp .inl .inl

theorem bytesLe_antisymm (le : bytesLe as bs = true) (ge : bytesLe bs as = true) : as = bs := by
  induction as generalizing bs with
  | nil =>
    cases bs with
    | nil => rfl
    | cons b bs => cases ge
  | cons a as ih =>
    cases bs with
    | nil => cases le
    | cons b bs =>
      rw [bytesLe_cons] at le ge
      rcases le with less | ⟨rfl, le⟩
      · rcases ge with more | ⟨same, -⟩
        · exact absurd more (UInt8.lt_asymm less)
        · exact absurd same.symm (UInt8.ne_of_lt less)
      · rcases ge with more | ⟨-, ge⟩
        · exact absurd more (UInt8.lt_irrefl _)
        · rw [ih le ge]

theorem bytesLe_trans (first : bytesLe as bs = true) (second : bytesLe bs cs = true) : bytesLe as cs = true := by
  induction as generalizing bs cs with
  | nil => rfl
  | cons a as ih =>
    cases bs with
    | nil => cases first
    | cons b bs =>
      cases cs with
      | nil => cases second
      | cons c cs =>
        rw [bytesLe_cons] at first second ⊢
        rcases first with less | ⟨rfl, first⟩
        · exact .inl (second.elim (UInt8.lt_trans less) fun both => both.1 ▸ less)
        · exact second.imp_right fun both => ⟨both.1, ih first both.2⟩

end Bytes

namespace Component

variable {x y z : Component}

theorem le_total (x y : Component) : x.le y = true ∨ y.le x = true := by
  cases x with
  | parent => exact .inl rfl
  | name a =>
    cases y with
    | parent => exact .inr rfl
    | name b => exact bytesLe_total a b

theorem le_antisymm (le : x.le y = true) (ge : y.le x = true) : x = y := by
  cases x with
  | parent =>
    cases y with
    | parent => rfl
    | name b => cases ge
  | name a =>
    cases y with
    | parent => cases le
    | name b => exact congrArg name (bytesLe_antisymm le ge)

theorem le_trans (first : x.le y = true) (second : y.le z = true) : x.le z = true := by
  cases x with
  | parent => rfl
  | name a =>
    cases y with
    | parent => cases first
    | name b =>
      cases z with
      | parent => cases second
      | name c => exact bytesLe_trans first second

end Component

/-- Where components first differ, the one is smaller than the other, or there is none. -/
inductive ComesBefore : List Component → List Component → Prop
  | ends {next : Component} {more : List Component} : ComesBefore [] (next :: more)
  | differs {x y : Component} {as bs : List Component} (different : x ≠ y) (smaller : x.le y = true) :
      ComesBefore (x :: as) (y :: bs)
  | same {x : Component} {as bs : List Component} (further : ComesBefore as bs) : ComesBefore (x :: as) (x :: bs)

/-- The path comes before another one, component by component. -/
def Before (a b : FilePath) : Prop := ComesBefore a.components b.components

section Components

variable {as bs cs : List Component}

theorem componentsLe_iff : componentsLe as bs = true ↔ as = bs ∨ ComesBefore as bs := by
  induction as generalizing bs with
  | nil =>
    cases bs with
    | nil => exact iff_of_true rfl (.inl rfl)
    | cons b bs => exact iff_of_true rfl (.inr .ends)
  | cons a as ih =>
    cases bs with
    | nil => exact iff_of_false Bool.false_ne_true fun le => le.elim nofun nofun
    | cons b bs =>
      rw [componentsLe]
      split
      · next same =>
        subst same
        rw [ih]
        constructor
        · exact fun le => le.imp (congrArg (a :: ·)) .same
        · rintro (same | before)
          · exact .inl (List.cons.inj same).2
          · cases before with
            | differs different smaller => exact absurd rfl different
            | same further => exact .inr further
      · next different =>
        constructor
        · exact fun smaller => .inr (.differs different smaller)
        · rintro (same | before)
          · exact absurd (List.cons.inj same).1 different
          · cases before with
            | differs _ smaller => exact smaller
            | same further => exact absurd rfl different

theorem ComesBefore.trans (first : ComesBefore as bs) (second : ComesBefore bs cs) : ComesBefore as cs := by
  induction first generalizing cs with
  | ends =>
    cases second with
    | differs _ _ => exact .ends
    | same _ => exact .ends
  | @differs x y as bs different smaller =>
    cases second with
    | @differs _ z _ cs different' smaller' =>
      refine .differs (fun same => ?_) (Component.le_trans smaller smaller')
      subst same
      exact different (Component.le_antisymm smaller smaller')
    | same _ => exact .differs different smaller
  | same further ih =>
    cases second with
    | differs different smaller => exact .differs different smaller
    | same further' => exact .same (ih further')

theorem ComesBefore.irrefl (as : List Component) : ¬ComesBefore as as := by
  induction as with
  | nil => nofun
  | cons a as ih =>
    intro before
    cases before with
    | differs different _ => exact different rfl
    | same further => exact ih further

theorem componentsLe_total (as bs : List Component) : componentsLe as bs = true ∨ componentsLe bs as = true := by
  induction as generalizing bs with
  | nil => exact .inl rfl
  | cons a as ih =>
    cases bs with
    | nil => exact .inr rfl
    | cons b bs =>
      rw [componentsLe, componentsLe]
      by_cases same : a = b
      · rw [if_pos same, if_pos same.symm]
        exact ih bs
      · rw [if_neg same, if_neg (Ne.symm same)]
        exact Component.le_total a b

theorem componentsLe_trans (first : componentsLe as bs = true) (second : componentsLe bs cs = true) :
    componentsLe as cs = true := by
  rw [componentsLe_iff] at first second ⊢
  rcases first with rfl | first
  · exact second
  · exact .inr (second.elim (fun same => same ▸ first) first.trans)

end Components

/-- Paths with different components are strictly in order once they are sorted. -/
theorem pairwise_mergeSort {paths : List FilePath}
    (apart : paths.Pairwise fun a b => a.components ≠ b.components) :
    (paths.mergeSort FilePath.le).Pairwise Before := by
  have total (a b : FilePath) : (a.le b || b.le a) = true := by
    rw [Bool.or_eq_true]
    exact componentsLe_total a.components b.components
  have trans (a b c : FilePath) : a.le b = true → b.le c = true → a.le c = true := componentsLe_trans
  have sorted := List.pairwise_mergeSort trans total paths
  have apart := ((List.mergeSort_perm paths FilePath.le).pairwise_iff fun different => Ne.symm different).mpr apart
  exact (sorted.and apart).imp fun both => (componentsLe_iff.mp both.1).resolve_left both.2

end FusionAtlas.FilePath
