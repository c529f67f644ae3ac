import SlideDeck.Layout.Outline
import SlideDeck.Proofs.Text.Numeral

/-!
# Places of slides

A slide's id names its place: the title, a horizontal position, a position in a stack, or the number
of a divider. `SlidePlace.id_injective` says that the id tells the place, so that ids can only be
equal where places are.

`Cursor.Reaches` holds of the places that a cursor has not passed yet. A group's places are reached
by the cursor in front of it and by no cursor behind it (`reaches_of_mem_places`,
`not_reaches_next`); since the cursor never goes back, the places of a layout are distinct, and with
them its ids (`nodup_ids_outline`).
-/

namespace SlideDeck

/-- A slide's place in a deck. -/
inductive SlidePlace where
  | title
  | slide (position : Nat)
  | stacked (position vertical : Nat)
  | divider (number : Nat)
  deriving DecidableEq, Repr

namespace SlidePlace

/-- The id of the slide at a place. -/
def id : SlidePlace → Text
  | .title => "title".toList
  | .slide position => "slide-".toList ++ Text.ofNat position
  | .stacked position vertical =>
      "slide-".toList ++ Text.ofNat position ++ '-' :: Text.ofNat vertical
  | .divider number => "divider-".toList ++ Text.ofNat number

theorem id_slide (position : Nat) : (slide position).id = "slide-".toList ++ Text.ofNat position :=
  rfl

theorem id_stacked (position vertical : Nat) : (stacked position vertical).id
    = "slide-".toList ++ Text.ofNat position ++ '-' :: Text.ofNat vertical := rfl

theorem id_divider (number : Nat) : (divider number).id = "divider-".toList ++ Text.ofNat number :=
  rfl

/-- The first letter of a place's id. -/
def letter : SlidePlace → Char
  | .title => 't'
  | .slide _ => 's'
  | .stacked _ _ => 's'
  | .divider _ => 'd'

theorem head?_id (p : SlidePlace) : p.id.head? = some p.letter := by cases p <;> rfl

theorem letter_eq_of_id_eq {p q : SlidePlace} (h : p.id = q.id) : p.letter = q.letter := by
  have := congrArg List.head? h
  rwa [head?_id, head?_id, Option.some.injEq] at this

/-- The id of a slide in a stack has a hyphen behind its horizontal position, and no other id has
one there. -/
theorem slide_id_ne_stacked (position position' vertical : Nat) :
    (slide position).id ≠ (stacked position' vertical).id := by
  intro h
  rw [id_slide, id_stacked, List.append_assoc, List.append_cancel_left_eq] at h
  have hm : '-' ∈ Text.ofNat position := by simp [h]
  exact Text.not_mem_ofNat (by decide) position hm

/-- An id tells its place. -/
theorem id_injective {p q : SlidePlace} (h : p.id = q.id) : p = q := by
  have hl := letter_eq_of_id_eq h
  cases p <;> cases q
  case title.title => rfl
  case slide.slide =>
    rw [id_slide, id_slide, List.append_cancel_left_eq] at h
    rw [Text.ofNat_injective h]
  case slide.stacked => exact absurd h (slide_id_ne_stacked _ _ _)
  case stacked.slide => exact absurd h.symm (slide_id_ne_stacked _ _ _)
  case stacked.stacked =>
    rw [id_stacked, id_stacked, List.append_assoc, List.append_assoc, List.append_cancel_left_eq]
      at h
    obtain ⟨rfl, hv⟩ := Text.ofNat_append_cons_inj (by decide) h
    rw [Text.ofNat_injective hv]
  case divider.divider =>
    rw [id_divider, id_divider, List.append_cancel_left_eq] at h
    rw [Text.ofNat_injective h]
  all_goals simp [letter] at hl

end SlidePlace

/-- The places of a group's slides. -/
def Group.places (c : Cursor) : Group → List SlidePlace
  | .divider => [.divider c.divider]
  | .single => [if c.position = 1 then .title else .slide c.position]
  | .stack size _ => (List.range size).map fun i => .stacked c.position (i + 1)

theorem Group.map_id_sections (c : Cursor) (g : Group) :
    (g.sections c).map (·.id) = (g.places c).map SlidePlace.id := by
  cases g with
  | single =>
    simp only [sections, places, singleSection, List.map_cons, List.map_nil]
    split <;> rfl
  | divider => rfl
  | stack size pos =>
    simp only [sections, places, List.map_map]
    rfl

namespace Cursor

/-- The places that a cursor may still come to. -/
def Reaches (c : Cursor) : SlidePlace → Prop
  | .title => c.position ≤ 1
  | .slide position => c.position ≤ position
  | .stacked position _ => c.position ≤ position
  | .divider number => c.divider ≤ number

theorem reaches_of_next {c : Cursor} {g : Group} {p : SlidePlace} (h : (c.next g).Reaches p) :
    c.Reaches p := by
  cases g <;> cases p <;> simp only [next, Reaches] at h ⊢ <;> omega

theorem reaches_of_mem_places {c : Cursor} {g : Group} {p : SlidePlace} (h : p ∈ g.places c) :
    c.Reaches p := by
  cases g with
  | single =>
    simp only [Group.places, List.mem_singleton] at h
    subst h
    split <;> simp only [Reaches] <;> omega
  | divider =>
    simp only [Group.places, List.mem_singleton] at h
    subst h
    exact Nat.le_refl _
  | stack size pos =>
    obtain ⟨i, -, rfl⟩ := List.mem_map.1 h
    exact Nat.le_refl _

/-- A group's places lie before the cursor behind it. -/
theorem not_reaches_next {c : Cursor} {g : Group} {p : SlidePlace} (h : p ∈ g.places c) :
    ¬(c.next g).Reaches p := by
  cases g with
  | single =>
    simp only [Group.places, List.mem_singleton] at h
    subst h
    split <;> simp only [next, Reaches] <;> omega
  | divider =>
    simp only [Group.places, List.mem_singleton] at h
    subst h
    simp only [next, Reaches]; omega
  | stack size pos =>
    obtain ⟨i, -, rfl⟩ := List.mem_map.1 h
    simp only [next, Reaches]; omega

end Cursor

theorem Group.nodup_places (c : Cursor) (g : Group) : (g.places c).Nodup := by
  cases g with
  | single => exact List.pairwise_singleton _ _
  | divider => exact List.pairwise_singleton _ _
  | stack size pos =>
    refine List.Pairwise.map _ (fun i j hij => ?_) List.nodup_range
    simpa using hij

namespace Layout

/-- The places of the slides of a layout from a cursor on. -/
def placesFrom : Cursor → Layout → List SlidePlace
  | _, [] => []
  | c, g :: gs => g.places c ++ placesFrom (c.next g) gs

theorem renderFrom_ids (c : Cursor) (layout : Layout) :
    (renderFrom c layout).2 = (placesFrom c layout).map SlidePlace.id := by
  induction layout generalizing c with
  | nil => rfl
  | cons g gs ih => simp only [renderFrom, placesFrom, List.map_append, Group.map_id_sections, ih]

theorem reaches_of_mem_placesFrom {c : Cursor} {layout : Layout} {p : SlidePlace}
    (h : p ∈ placesFrom c layout) :
    c.Reaches p := by
  induction layout generalizing c with
  | nil => simp [placesFrom] at h
  | cons g gs ih =>
    rcases List.mem_append.1 h with h | h
    · exact Cursor.reaches_of_mem_places h
    · exact Cursor.reaches_of_next (ih h)

/-- A layout's slides stand at different places. -/
theorem nodup_placesFrom (c : Cursor) (layout : Layout) : (placesFrom c layout).Nodup := by
  induction layout generalizing c with
  | nil => exact List.nodup_nil
  | cons g gs ih =>
    refine List.nodup_append.2 ⟨g.nodup_places c, ih _, fun p hp q hq => ?_⟩
    rintro rfl
    exact Cursor.not_reaches_next hp (reaches_of_mem_placesFrom hq)

/-- No two slides of a layout share an id. -/
theorem nodup_ids_outline (layout : Layout) : layout.outline.ids.Nodup := by
  show (renderFrom .start layout).2.Nodup
  rw [renderFrom_ids]
  refine List.Pairwise.map _ (fun p q hpq h => ?_) (nodup_placesFrom .start layout)
  exact hpq (SlidePlace.id_injective h)

/-- Positions and stacks of more than one digit: `slide-2-11`, `slide-21` and `slide-2-1` are all
different. -/
example : (placesFrom ⟨2, 1⟩ [.stack 11 (by decide)]).map SlidePlace.id
    = ((List.range 11).map fun i => "slide-2-".toList ++ Text.ofNat (i + 1)) := by decide

end Layout

end SlideDeck
