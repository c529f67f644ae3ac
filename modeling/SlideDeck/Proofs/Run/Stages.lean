import SlideDeck.Proofs.Deck.Failing
import SlideDeck.Proofs.Deck.Install
import SlideDeck.Run.Stage

/-!
# What the stages come to

The stages before and after the making of a deck. To look at the surroundings and to read the layout
changes no tree; the page is revised completely or stays as it is (`revisePage_cases`); and the last
stage fails only if nothing has been made. A failure ends a run, so a run can be cut between any two
of its stages (`ending_runAll_append`).
-/

namespace SlideDeck

open SlideDeck.Action (ending)

/-! ## Revising a page -/

theorem Deck.ending_openPage_of_isFile {path : Path} {entry : Text} {u : Tree}
    (h : u.isFile (path.child entry) = true) (shown : Text) :
    ending (Deck.openPage path shown entry) u = (.ok (path.child entry), u) := by
  obtain ⟨l, f, hl⟩ := Tree.isFile_iff.1 h
  have hask : ending (TreeAction.ask Tree.isFile (path.child entry)) u = (.ok true, u) := by
    rw [TreeAction.ask, Action.ending_find, hl.ask_eq, h]
  rw [openPage, Action.ending_bind_of_ok hask]
  rfl

/-- A page that is no file is not opened, and it is told why. -/
theorem Deck.ending_openPage_of_not_isFile {path : Path} {entry : Text} {u : Tree}
    (h : u.isFile (path.child entry) = false) (shown : Text) :
    ∃ f, Told f ∧ ending (Deck.openPage path shown entry) u = (.error f, u) := by
  rw [openPage]
  rcases Tree.ask_cases Tree.isFile true (path.child entry) u with hask | hask
  · have hask' : ending (TreeAction.ask Tree.isFile (path.child entry)) u = (.ok false, u) := by
      rw [TreeAction.ask, Action.ending_find, hask, h]
    refine ⟨.pageMissing entry shown, rfl, ?_⟩
    rw [Action.ending_bind_of_ok hask']
    exact Action.ending_bind_of_error rfl _
  · exact ⟨_, (Refuses.refused _ _).told,
      Action.ending_bind_of_error (by rw [TreeAction.ask, Action.ending_find, hask]) _⟩

section Page

variable [Record.Nesting]

/-- A page is revised completely, or it stays as it is. -/
theorem Deck.revisePage_cases {u : Tree} {page : Path} {l : Location} {f : File}
    (hpage : u.Leads page l (.file f)) (s : Settings) (marker : Text) (cover : Cover)
    (layout : Layout) :
    (∃ g, ending (Deck.revisePage s marker cover page layout) u = (.error g, u)) ∨
    ∃ html new, Utf8.readLines f.bytes = .ok html ∧
      (Page.revise marker ⟨s.deckDirname cover.slug, cover.title, layout.outline⟩ html).result =
        .ok new ∧
      ending (Deck.revisePage s marker cover page layout) u =
        (.ok layout.outline, u.put l (.file ⟨Utf8.encode new, none⟩)) := by
  cases hnew : newText s marker cover page layout u with
  | error g => exact .inl ⟨g, ending_revisePage_of_error hnew⟩
  | ok new =>
    obtain ⟨html, hread, hrevise⟩ := Outcome.bind_eq_ok.1 hnew
    have hwrite :
        u.write page (Utf8.encode new) = .ok (u.put l (.file ⟨Utf8.encode new, none⟩)) :=
      hpage.modifyFile_eq _
    refine .inr ⟨html, new, hpage.readLines_of_readText hread, hrevise, ?_⟩
    rw [ending_revisePage_of_ok hnew,
      Action.ending_bind_of_ok (Action.ending_change_of_ok hwrite)]
    rfl

end Page

namespace Run

variable {c : Context} {s : State} {t u : Tree} {k : Location} {layout : Layout} {archive : Path}

section Reporting

variable {α : Type} {isReported : Failure → Bool} {m : TreeAction α} {a : α} {f : Failure}

theorem ending_reporting_of_ok (h : ending m t = (.ok a, u)) :
    ending (reporting isReported m) t = (.ok a, u) := by
  rw [reporting, Action.ending_explain, h]
  rfl

theorem ending_reporting_error (h : ending m t = (.error f, u)) :
    ending (reporting isReported m) t =
      (.error (if isReported f then .message f.message else .failure f), u) := by
  rw [reporting, Action.ending_explain, h]
  rfl

theorem ending_reporting_of_error (h : ending m t = (.error f, u)) :
    ∃ halt, ending (reporting isReported m) t = (.error halt, u) := ⟨_, ending_reporting_error h⟩

end Reporting

/-! ## The stages -/

/-- The slug of the deck that a run makes: the one that is asked for, or one of random bytes. -/
def State.slugOr (s : State) (c : Context) : Except Failure Text :=
  match nonempty? s.slug with
  | some slug => .ok slug
  | none => Slug.generate c.random c.settings.slugBytes

/-- The surroundings are only looked at: the archive's path is too long, the archive is missing, no
slug can be made, or both are found. -/
theorem checkSurroundings_cases (hmake : s.finalize = false) (t : Tree) :
    (∃ f, t.ask Tree.isFile true (s.archiveOr c.settings) = .error f ∧
      ending (s.checkSurroundings c) t = (.error (.failure f), t)) ∨
    t.ask Tree.isFile true (s.archiveOr c.settings) = .ok false ∧
      ending (s.checkSurroundings c) t =
        (.error (.message (Failure.archiveMissing (s.archiveOr c.settings)).message), t) ∨
    t.isFile (s.archiveOr c.settings) = true ∧
      ((∃ f, s.slugOr c = .error f ∧ ending (s.checkSurroundings c) t = (.error (.failure f), t)) ∨
        ∃ slug, s.slugOr c = .ok slug ∧ ending (s.checkSurroundings c) t =
          (.ok { s with
            archive := s.archiveOr c.settings, slug := some slug, deck :=
          c.settings.deckPath slug s.output,
            ready := true }, t)) := by
  rw [State.checkSurroundings, Action.ending_bind_of_ok (Action.ending_note _ _ t),
    Action.ending_bind_of_ok (Action.ending_note _ _ t)]
  rw [if_neg (by rw [hmake]; exact nofun)]
  dsimp only
  have hasked :
      ending (reporting (fun _ => false) (TreeAction.ask Tree.isFile (s.archiveOr c.settings))) t =
      ((t.ask Tree.isFile true (s.archiveOr c.settings)).mapError Halt.failure, t) := rfl
  cases hask : t.ask Tree.isFile true (s.archiveOr c.settings) with
  | error f => exact .inl ⟨f, rfl, Action.ending_bind_of_error (by rw [hasked, hask]; rfl) _⟩
  | ok there =>
  refine .inr ?_
  rw [Action.ending_bind_of_ok (a := there) (by rw [hasked, hask]; rfl)]
  cases there with
  | false => exact .inl ⟨rfl, Action.ending_bind_of_error (Action.ending_throw _ t) _⟩
  | true =>
    refine .inr ⟨(Tree.ask_eq_ok hask).1, ?_⟩
    rw [if_neg (by simp), Action.ending_bind_of_ok (Action.ending_note _ _ t), State.slugOr]
    cases nonempty? s.slug with
    | some slug => exact .inr ⟨slug, rfl, rfl⟩
    | none =>
      cases hslug : Slug.generate c.random c.settings.slugBytes with
      | error f => exact .inl ⟨f, rfl, Action.ending_bind_of_error rfl _⟩
      | ok slug => exact .inr ⟨slug, rfl, rfl⟩

theorem readLayout_cases (s : State) (c : Context) (t : Tree) :
    (∃ f, Layout.read c.settings.dividerToken c.settings.defaultSlideCount s.layout = .error f ∧
      ending (s.readLayout c) t =
        (.error (if f.isReported then .message f.message else .failure f), t)) ∨
    ∃ layout, Layout.read c.settings.dividerToken c.settings.defaultSlideCount s.layout =
      .ok layout ∧
      ending (s.readLayout c) t = (.ok { s with groups := some layout }, t) := by
  rw [State.readLayout]
  cases Layout.read c.settings.dividerToken c.settings.defaultSlideCount s.layout with
  | error f => exact .inl ⟨f, rfl, rfl⟩
  | ok layout => exact .inr ⟨layout, rfl, rfl⟩

/-- The page is revised, or the stage fails and changes nothing. -/
theorem revisePage_cases [Record.Nesting] (hs : c.settings = .defaults archive) (hu : u.Plain)
    (hleads : u.Leads s.deck k .directory) (hgroups : s.groups = some layout) :
    (∃ halt, ending (s.revisePage c) u = (.error halt, u)) ∨
    ∃ f html new, u.get? (k ++ ["index.html".toList]) = some (.file f) ∧
      Utf8.readLines f.bytes = .ok html ∧
      (Page.revise c.settings.configMarker
        ⟨c.settings.deckDirname (s.slug.getD []), s.title, layout.outline⟩ html).result =
        .ok new ∧
      ending (s.revisePage c) u =
        (.ok { s with creation := some ⟨s.deck, s.deck.child c.settings.markupEntry,
          layout.outline.slideCount, layout.describe Layout.defaultMarker⟩ },
          u.put (k ++ ["index.html".toList]) (.file ⟨Utf8.encode new, none⟩)) := by
  have hname : Deck.IsName "index.html".toList := ⟨by decide, by decide⟩
  have hpage : s.deck.child c.settings.markupEntry = s.deck.append ⟨[], ["index.html".toList]⟩ := by
    rw [hs]
    exact hname.child_eq _
  rw [State.revisePage, hgroups]
  dsimp only
  cases hopen : u.isFile (s.deck.child c.settings.markupEntry) with
  | false =>
    obtain ⟨f, -, hf⟩ := Deck.ending_openPage_of_not_isFile hopen s.deck.toText
    exact .inl (ending_reporting_of_error (Action.ending_bind_of_error hf _))
  | true =>
    have hopened := Deck.ending_openPage_of_isFile hopen s.deck.toText
    obtain ⟨l, f, hfile⟩ := Tree.isFile_iff.1 hopen
    obtain ⟨-, rfl, hf⟩ : _ ∧ l = k ++ ["index.html".toList] ∧ _ := by
      rw [hpage] at hfile
      exact (hleads.append_iff hu hname.not_mem).1 hfile
    rcases Deck.revisePage_cases hfile c.settings c.settings.configMarker ⟨s.title, s.slug.getD []⟩
      layout with
      ⟨g, hg⟩ | ⟨html, new, hhtml, hnew, hrevised⟩
    · refine .inl (ending_reporting_of_error (f := g) ?_)
      rw [Action.ending_bind_of_ok hopened]
      exact Action.ending_bind_of_error hg _
    · refine .inr ⟨f, html, new, hf, hhtml, hnew, ending_reporting_of_ok ?_⟩
      rw [Action.ending_bind_of_ok hopened, Action.ending_bind_of_ok hrevised]
      rfl

theorem ending_announceDeck (hmade : s.creation.isSome) (t : Tree) :
    ending s.announceDeck t = (.ok s, t) := by
  obtain ⟨made, hcreation⟩ := Option.isSome_iff_exists.1 hmade
  rw [State.announceDeck, hcreation]
  rfl

/-! ## The stages one after another -/

/-- The stages up to the one in which the deck is made. -/
def Stage.untilDeck : List Stage := [.checkSurroundings, .readLayout, .makeDeck]

/-- The stages after that. -/
def Stage.afterDeck : List Stage := [.revisePage, .announceDeck]

theorem ending_runAll_append [Record.Nesting] (c : Context) (as bs : List Stage) (s : State)
    (t : Tree) :
    ending (Stage.runAll c (as ++ bs) s) t =
      ending (Stage.runAll c as s >>= Stage.runAll c bs) t := by
  induction as generalizing s t with
  | nil => rfl
  | cons a as ih =>
    show ending (a.run c s >>= Stage.runAll c (as ++ bs)) t =
      ending ((a.run c s >>= Stage.runAll c as) >>= Stage.runAll c bs) t
    rw [Action.ending_bind_assoc]
    rcases Action.ending_bind_cases (a.run c s) (Stage.runAll c (as ++ bs)) t
      with ⟨halt, u, ha, hrun⟩ | ⟨s', u, ha, hrun⟩
    · rw [hrun, Action.ending_bind_of_error ha]
    · rw [hrun, ih, Action.ending_bind_of_ok ha]

end Run

end SlideDeck
