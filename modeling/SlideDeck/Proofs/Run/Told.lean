import SlideDeck.Proofs.Layout.Structure
import SlideDeck.Proofs.Run.Making

/-!
# What a run tells of its layout

A run that has made a deck tells the structure text of its layout (`creation_of_making`). This text
is written with the default marker of dividers, while structure texts are read with the marker of
the settings. So it is a structure text of the layout only if the two markers stand at the same
groups (`making_tells_iff`); with another marker a layout with dividers is refused or read as
another one (`making_tells_other`).
-/

namespace SlideDeck.Run

open SlideDeck.Action (ending)

variable {c : Context} {s s' : State} {t u : Tree}

theorem ending_of_reporting {α : Type} {isReported : Failure → Bool} {m : TreeAction α} {a : α}
    (h : ending (reporting isReported m) t = (.ok a, u)) : ending m t = (.ok a, u) := by
  cases hm : ending m t with
  | mk result v =>
    cases result with
    | error f =>
      rw [ending_reporting_error hm] at h
      cases h
    | ok b =>
      rw [ending_reporting_of_ok hm] at h
      cases h
      rfl

theorem makeDeck_eq_ok (h : ending (s.makeDeck c) t = (.ok s', u)) :
    ∃ deck, s' = { s with deck := deck } := by
  obtain ⟨deck, v, -, hdone⟩ := Action.ending_bind_eq_ok.1 h
  cases hdone
  exact ⟨deck, rfl⟩

/-- The stage that revises the page writes down the structure text of the layout. -/
theorem revisePage_eq_ok [Record.Nesting] {layout : Layout} (hgroups : s.groups = some layout)
    (h : ending (s.revisePage c) t = (.ok s', u)) :
    ∃ made, s'.creation = some made ∧ made.tokens = layout.describe Layout.defaultMarker := by
  rw [State.revisePage, hgroups] at h
  obtain ⟨page, v, -, h⟩ := Action.ending_bind_eq_ok.1 (ending_of_reporting h)
  obtain ⟨outline, w, -, hdone⟩ := Action.ending_bind_eq_ok.1 h
  cases hdone
  exact ⟨_, rfl, rfl⟩

theorem announceDeck_eq_ok (hmade : s.creation.isSome) (h : ending s.announceDeck t = (.ok s', u)) :
    s' = s := by
  rw [ending_announceDeck hmade] at h
  cases h
  rfl

/-- A run that makes a deck has read a layout, and what it tells is the structure text of this
layout with the default marker. -/
theorem creation_of_making [Record.Nesting] (hmake : s.finalize = false)
    (hrun : ending (Stage.runAll c Stage.making s) t = (.ok s', u)) :
    ∃ layout made, Layout.read c.settings.dividerToken c.settings.defaultSlideCount s.layout =
      .ok layout ∧
      s'.creation = some made ∧ made.tokens = layout.describe Layout.defaultMarker := by
  obtain ⟨checked, t₁, hchecked, hrun⟩ := Action.ending_bind_eq_ok.1 hrun
  obtain ⟨laidOut, t₂, hlaidOut, hrun⟩ := Action.ending_bind_eq_ok.1 hrun
  obtain ⟨withDeck, t₃, hdeck, hrun⟩ := Action.ending_bind_eq_ok.1 hrun
  obtain ⟨revised, t₄, hrevised, hrun⟩ := Action.ending_bind_eq_ok.1 hrun
  obtain ⟨announced, t₅, hannounced, hdone⟩ := Action.ending_bind_eq_ok.1 hrun
  have hsame : checked.layout = s.layout := by
    rcases checkSurroundings_cases (c := c) hmake t with
      ⟨f, -, hend⟩ | ⟨-, hend⟩ | ⟨-, ⟨f, -, hend⟩ | ⟨slug, -, hend⟩⟩
    · cases hend.symm.trans hchecked
    · cases hend.symm.trans hchecked
    · cases hend.symm.trans hchecked
    · cases hend.symm.trans hchecked
      rfl
  rcases readLayout_cases checked c t₁ with ⟨f, -, hend⟩ | ⟨layout, hread, hend⟩
  · cases hend.symm.trans hlaidOut
  cases hend.symm.trans hlaidOut
  obtain ⟨deck, rfl⟩ := makeDeck_eq_ok hdeck
  obtain ⟨made, hcreation, htokens⟩ := revisePage_eq_ok rfl hrevised
  obtain rfl := announceDeck_eq_ok (by rw [hcreation]; rfl) hannounced
  cases hdone
  exact ⟨layout, made, hsame ▸ hread, hcreation, htokens⟩

/-- What a run that has made a deck tells of its layout is read as this layout again, under the same
settings, exactly if the layout has a group and if the marker of dividers is the token that the run
writes for dividers and for no other group. -/
theorem making_tells_iff [Record.Nesting] (hmake : s.finalize = false)
    (hrun : ending (Stage.runAll c Stage.making s) t = (.ok s', u)) :
    ∃ layout made, Layout.read c.settings.dividerToken c.settings.defaultSlideCount s.layout =
      .ok layout ∧
      s'.creation = some made ∧
      (Layout.read c.settings.dividerToken c.settings.defaultSlideCount
        { tokens := some made.tokens } = .ok layout
        ↔ layout ≠ [] ∧
          ∀ g ∈ layout,
            (g.token Layout.defaultMarker = c.settings.dividerToken ↔ g = .divider)) := by
  obtain ⟨layout, made, hread, hcreation, htokens⟩ := creation_of_making hmake hrun
  refine ⟨layout, made, hread, hcreation, ?_⟩
  rw [htokens]
  exact Layout.ofStructure_describe_default (Layout.isTold_of_read hread)

/-- The default settings with another marker of dividers. -/
def contextWith (marker : Text) : Context := { sampleContext with settings.dividerToken := marker }

/-- The run that is to make `out/deck-x`, with a structure text. -/
def structuredRun (tokens : Text) : State := { sampleRun with layout := { tokens := some tokens } }

/-- With the default marker, blanks and zeros of a structure text are not told, but its layout
is. -/
theorem making_tells_default :
    let c := contextWith Layout.defaultMarker
    let layout : Layout := [.stack 2 (by decide), .divider, .single]
    ∃ s' u made, ending (Stage.runAll c Stage.making (structuredRun " 02,d ,1".toList))
        (packedWith "<p class=slides></p>".toList) = (.ok s', u) ∧
      s'.creation = some made ∧
      Layout.read c.settings.dividerToken c.settings.defaultSlideCount
        { tokens := some made.tokens } = .ok layout := by
  intro c layout
  have hsome : (Stage.runAll c Stage.making (structuredRun " 02,d ,1".toList)
      (packedWith "<p class=slides></p>".toList)).1.result.toOption.isSome = true := by
    decide +kernel
  obtain ⟨s', hrun⟩ := Action.exists_ending hsome
  obtain ⟨read, made, hread, hcreation, hiff⟩ := making_tells_iff rfl hrun
  have hlayout : Layout.read c.settings.dividerToken c.settings.defaultSlideCount
      (structuredRun " 02,d ,1".toList).layout = .ok layout := by rfl
  cases hlayout.symm.trans hread
  exact ⟨s', _, made, hrun, hcreation, hiff.2 ⟨by decide, by decide⟩⟩

/-- With another marker, what a run tells is refused. -/
theorem making_tells_other :
    let c := contextWith ['s']
    (Stage.runAll c Stage.making (structuredRun "1,s".toList)
      (packedWith "<p class=slides></p>".toList)).1.result.toOption.any
        (fun s' => s'.creation.map Creation.tokens = some "1,d".toList) ∧
      Layout.read c.settings.dividerToken c.settings.defaultSlideCount
        (structuredRun "1,s".toList).layout =
        .ok [.single, .divider] ∧
      Layout.read c.settings.dividerToken c.settings.defaultSlideCount
        { tokens := some "1,d".toList } =
        .error (.badToken ['s'] ['d']) :=
  ⟨by decide +kernel, by rfl, by rfl⟩

end SlideDeck.Run
