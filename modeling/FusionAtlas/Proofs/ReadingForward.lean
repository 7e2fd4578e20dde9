import FusionAtlas.Template.StatementReader

/-!
Readers that ask no other for expressions or statements never go back: the tokens they leave are the last of
those they were given. Main statements: `Template.segmentFrom_suffix` and `Template.lineStatement?_suffix`.
-/

set_option autoImplicit false
set_option relaxedAutoImplicit false

namespace FusionAtlas.Template

variable {source : Source} {c : Cursor} {t : Token} {ts : List Token}

namespace Cursor

theorem suffix_past (here : c.rest = t :: ts) : (c.past t ts).rest <:+ c.rest := by
  rw [here]
  exact List.suffix_cons t ts

theorem suffix_advance (c : Cursor) : c.advance.rest <:+ c.rest := by
  unfold advance
  split
  · next here => exact suffix_past here
  · exact List.suffix_refl _

theorem suffix_expect (c : Cursor) (size : Nat) (kind : TokenKind) (fault : SyntaxFault) :
    (c.expect size kind fault).rest <:+ c.rest := by
  unfold expect
  split
  · next here =>
    split
    · exact suffix_past here
    · exact List.suffix_refl _
  · exact List.suffix_refl _

theorem suffix_skip (c : Cursor) (n : Nat) : (c.skip n).rest <:+ c.rest := List.drop_suffix n c.rest

end Cursor

theorem fraction?_suffix {lastEnd : Nat} {digits : Token} {more : List Token}
    (found : fraction? lastEnd ts = some (digits, more)) : more <:+ ts := by
  unfold fraction? at found
  split at found
  · split at found
    · obtain ⟨rfl, rfl⟩ := Prod.mk.inj (Option.some.inj found)
      exact (List.suffix_cons _ _).trans (List.suffix_cons _ _)
    · cases found
  · cases found

theorem numberFrom_suffix (source : Source) (c : Cursor) (start : Nat) (t : Token) (ts : List Token) :
    (numberFrom source c start t ts).cursor.rest <:+ ts := by
  unfold numberFrom
  split
  · next found => exact fraction?_suffix found
  · exact List.suffix_refl ts

theorem number?_suffix {s : Step c (String × ByteRange)} (found : number? source c = some s) :
    s.cursor.rest <:+ c.rest := by
  obtain ⟨_ | ⟨t, ts⟩, lastEnd, errors, intact⟩ := c
  · cases found
  unfold number? at found
  dsimp only at found
  split at found
  · obtain rfl := Option.some.inj found
    exact (numberFrom_suffix source _ t.start t ts).trans (List.suffix_cons t ts)
  · split at found
    · split at found
      · next d ds _ _ =>
        split at found
        · obtain rfl := Option.some.inj found
          exact (numberFrom_suffix source _ t.start d ds).trans
            ((List.suffix_cons d ds).trans (List.suffix_cons t (d :: ds)))
        · cases found
      · cases found
    · cases found

theorem component_suffix (source : Source) (first : Token) (c : Cursor) :
    (component source first c).cursor.rest <:+ c.rest := by
  unfold component
  dsimp only
  split
  · exact c.suffix_skip _
  · exact c.suffix_skip _

theorem component?_suffix {s : Step c (String × ByteRange)} (found : component? source c = some s) :
    s.cursor.rest <:+ c.rest := by
  unfold component? at found
  split at found
  · next t ts here =>
    split at found
    · obtain rfl := Option.some.inj found
      exact (component_suffix source t (c.past t ts)).trans (Cursor.suffix_past here)
    · cases found
  · cases found

theorem prototypeName_suffix (source : Source) (c : Cursor) :
    (prototypeName source c).cursor.rest <:+ c.rest := by
  unfold prototypeName
  split
  · next found => exact (Cursor.suffix_expect ..).trans (component?_suffix found)
  · exact Cursor.suffix_expect ..

theorem metaName_suffix (source : Source) (c : Cursor) : (metaName source c).cursor.rest <:+ c.rest := by
  unfold metaName
  split
  · next here =>
    split
    · exact Cursor.suffix_past here
    · exact List.suffix_refl _
  · exact List.suffix_refl _

theorem segmentFrom_suffix {s : Step (c.past t ts) PathSegment} (found : segmentFrom source c t ts = some s) :
    s.cursor.rest <:+ ts := by
  unfold segmentFrom at found
  split at found
  · split at found
    · next u us =>
      split at found
      · obtain rfl := Option.some.inj found
        exact (prototypeName_suffix source _).trans (List.suffix_cons u us)
      · obtain rfl := Option.some.inj found
        exact List.suffix_refl _
    · obtain rfl := Option.some.inj found
      exact List.suffix_refl _
  · obtain rfl := Option.some.inj found
    exact List.suffix_refl _
  · obtain rfl := Option.some.inj found
    exact List.suffix_refl _
  · obtain rfl := Option.some.inj found
    exact metaName_suffix source _
  · cases found

theorem dottedSegment?_suffix {s : { s : Step c PathSegment // s.cursor.remaining < c.remaining }}
    (found : dottedSegment? source c = some s) : s.1.cursor.rest <:+ c.rest := by
  unfold dottedSegment? at found
  split at found
  · next dot t ts here =>
    split at found
    · split at found
      · next read =>
        obtain rfl := Option.some.inj found
        have behind : ts <:+ c.rest := here ▸ (List.suffix_cons t ts).trans (List.suffix_cons dot _)
        exact (segmentFrom_suffix read).trans behind
      · cases found
    · cases found
  · cases found

theorem closeExpression_suffix (source : Source) (c : Cursor) :
    (closeExpression source c).rest <:+ c.rest := by
  unfold closeExpression
  split
  · next t ts here =>
    split
    · exact Cursor.suffix_past here
    · exact (Cursor.suffix_advance _).trans (Cursor.suffix_skip _ _)
  · exact List.suffix_refl _

theorem skipLine_suffix (source : Source) (c : Cursor) : (skipLine source c).rest <:+ c.rest :=
  Cursor.suffix_skip _ _

theorem lineStatement?_suffix {s : Step c (Option Statement)} (found : lineStatement? source c = some s) :
    s.cursor.rest <:+ c.rest := by
  unfold lineStatement? at found
  split at found
  · cases found
  · next t ts here =>
    split at found
    · obtain rfl := Option.some.inj found
      exact Cursor.suffix_past here
    · split at found
      · obtain rfl := Option.some.inj found
        exact (skipLine_suffix source _).trans (Cursor.suffix_past here)
      · cases found

end FusionAtlas.Template
