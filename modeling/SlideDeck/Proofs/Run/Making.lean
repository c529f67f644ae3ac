import SlideDeck.Proofs.Deck.Making
import SlideDeck.Proofs.Deck.Slug
import SlideDeck.Proofs.Run.Stages

/-!
# Runs that make a deck

Up to its third stage, a run either fails without a trace but for directories on the way to the
decks, or it adds a whole deck as the template has it and nothing else, or it fails and adds an
empty deck, since the path of the page in it is too long (`untilDeck_cases`). After that, the page
of the deck is all that may change.

So a run that does not fail adds exactly the deck, with the revised page and the template's library
(`making_adds_deck`). A run that fails leaves no deck behind, unless the path of the page is too
long, or it is the revision of the page that fails: then the deck stays as the template has it, and
another run with the same slug finds it there (`failing_leaves_deck`, `failing_leaves_new_deck`).

All this is about requests without steps up in their paths (`Request.Straight`). With them, a deck
may be made anywhere.
-/

namespace SlideDeck.Run

open SlideDeck.Action (ending)
open SlideDeck.Tree (Opens)
open Template (Installs)

variable {c : Context} {s s' : State} {t u : Tree} {halt : Halt} {k : Location} {layout : Layout}
  {bundled : Path}

/-! ## The deck -/

/-- There is no step up in the paths of a request, neither in the directory of the decks nor in a
slug that is asked for. -/
def Request.Straight (r : Request) : Prop :=
  Path.up ∉ r.output.parts ∧ ∀ slug, r.slug = some slug → Path.up ∉ Text.split '/' slug

theorem Request.Straight.up_not_mem_slug (h : s.Straight) {slug : Text}
    (hslug : s.slugOr c = .ok slug) :
    Path.up ∉ Text.split '/' slug := by
  rw [State.slugOr] at hslug
  split at hslug
  · next given hgiven =>
    cases hslug
    refine h.2 slug ?_
    unfold nonempty? at hgiven
    split at hgiven
    · next first rest hs => rw [hs, hgiven]
    · cases hgiven
  · exact Slug.up_not_mem_generate hslug

/-- The entries that are kept of a template: the page and the library. -/
def keptEntries : List Text := ["index.html".toList, "lib".toList]

theorem isName_of_mem_keptEntries : ∀ e ∈ keptEntries, Deck.IsName e := by
  intro e he
  rcases List.mem_pair.1 he with rfl | rfl
  · exact ⟨by decide, by decide⟩
  · exact ⟨by decide, by decide⟩

/-- What is in a deck into which entries have been moved: what the archive unpacks to as these. -/
def freshContents (entries : List Text) (archive : Archive) : Location → Option Entry
  | [] => some .directory
  | name :: rest => if entries.contains name then archive.unpacked.get? (name :: rest) else none

/-- What is in a deck whose page has been revised: the bytes of the page, and the library as
before. -/
def deckContents (archive : Archive) (page : List UInt8) : Location → Option Entry
  | [] => some .directory
  | name :: rest =>
    if name = "index.html".toList then if rest = [] then some (.file ⟨page, none⟩) else none
    else if name = "lib".toList then archive.unpacked.get? (name :: rest)
    else none

/-- In the tree `u` there are all directories that the path `out` leads through, and a new one at
`k` with some contents; otherwise it is the tree `t`. -/
structure Adds (out : Path) (k : Location) (contents : Location → Option Entry)
    (t u : Tree) : Prop where
  home : u.Home
  base : u.base = t.base
  free : t.get? k = none
  deck : ∀ x, u.get? (k ++ x) = contents x
  above : ∀ m, m <+: t.location out → u.get? m = some .directory
  kept : ∀ m e, t.get? m = some e → u.get? m = some e
  other : ∀ m, ¬k <+: m → ¬m <+: t.location out → u.get? m = t.get? m

section Deck

variable {out : Path} {entries names : List Text} {name : Text} {archive : Archive} {v : Tree}
  {l : Location}

/-- A deck that has been made downwards from a directory that was opened up is all that is new. -/
theorem adds_of_installs (hout : Path.up ∉ out.parts) (hup : Path.up ∉ name :: names)
    (hopens : t.Opens out v) (hv : v.Home) (hl : v.Leads out l .directory)
    (h : Installs entries archive.unpacked (t.location (out.append ⟨[], name :: names⟩)) v u) :
    Adds out (t.location (out.append ⟨[], name :: names⟩)) (freshContents entries archive) t u ∧
      ((out.append ⟨[], name :: names⟩).fits = true →
        u.Leads (out.append ⟨[], name :: names⟩) (t.location (out.append ⟨[], name :: names⟩))
          .directory) := by
  have hlocation :
      t.location out = l := by rw [← Tree.location_congr hopens.base, hl.location_eq hv.toPlain]
  rw [Tree.location_append hup, hlocation] at h ⊢
  have hopened (m : Location) := hopens.get?_eq hv hout hl m
  have haway (m : Location) (hm : m <+: l) : ¬l ++ name :: names <+: m := fun hk => by
    have := (hk.trans hm).length_le
    rw [List.length_append, List.length_cons] at this
    omega
  have hbelow (m : Location) (hm : l ++ name :: names <+: m) :
      v.get? m = none := hv.toPlain.get?_of_prefix_none h.free hm
  refine ⟨⟨h.home, h.base.trans hopens.base, hopens.none_of_none h.free, fun x => ?_,
    fun m hm => ?_, fun m e hm => ?_,
    fun m hk hm => ?_⟩, fun hfits => ?_⟩
  · cases x with
    | nil =>
      rw [List.append_nil]
      exact h.deck
    | cons first rest =>
      rw [freshContents, if_congr List.contains_iff_mem rfl rfl]
      exact h.holds first rest
  · rw [hlocation] at hm
    rw [h.outside m (haway m hm), hopened, if_pos hm]
  · rw [h.outside m fun hk => ?_, hopens.kept hm]
    have := hopens.kept hm
    rw [hbelow m hk] at this
    cases this
  · rw [hlocation] at hm
    rw [h.outside m hk, hopened, if_neg hm]
  · have hleads : u.Leads out l .directory :=
      hl.mono_directory hv.toPlain h.home.toPlain h.base fun m hm => by
      rw [h.outside m fun hk => ?_, hm]
      rw [hbelow m hk] at hm
      cases hm
    exact hleads.append h.home.toPlain hup hfits h.deck

/-- A page that is revised is all that changes in a deck. -/
theorem freshContents_revise {f : File} (h : u.Plain)
    (hdeck : ∀ x, u.get? (k ++ x) = freshContents keptEntries archive x)
    (hpage : u.get? (k ++ ["index.html".toList]) = some (.file f)) (page : List UInt8)
    (x : Location) :
    (u.put (k ++ ["index.html".toList]) (.file ⟨page, none⟩)).get? (k ++ x) =
      deckContents archive page x := by
  rw [Tree.get?_put_file hpage]
  cases x with
  | nil => rw [if_neg (by simp), hdeck]; rfl
  | cons first rest =>
    by_cases hfirst : first = "index.html".toList
    · subst hfirst
      cases rest with
      | nil => rw [if_pos rfl, deckContents, if_pos rfl, if_pos rfl]
      | cons second rest =>
        rw [if_neg (by simp), deckContents, if_pos rfl, if_neg (List.cons_ne_nil _ _)]
        by_contra hsome
        have hbelow :
            k ++ ["index.html".toList] <+: k ++ "index.html".toList :: second :: rest := by
          rw [List.prefix_append_right_inj]
          exact List.prefix_append ["index.html".toList] _
        have := h.eq_of_file_prefix hpage (Option.isSome_iff_ne_none.2 hsome) hbelow
        simp at this
    · rw [if_neg fun heq => hfirst (List.cons.inj (List.append_cancel_left heq)).1, hdeck,
        freshContents, deckContents, if_neg hfirst]
      simp only [keptEntries, List.contains_iff_mem, List.mem_cons, List.not_mem_nil, or_false,
        hfirst, false_or]

theorem Adds.revise {f : File} (h : Adds out k (freshContents keptEntries archive) t u)
    (ht : t.Plain) (hpage : u.get? (k ++ ["index.html".toList]) = some (.file f))
    (page : List UInt8) :
    Adds out k (deckContents archive page) t
      (u.put (k ++ ["index.html".toList]) (.file ⟨page, none⟩)) := by
  have hget := Tree.get?_put_file hpage (.file ⟨page, none⟩)
  have hne : u.get? (k ++ ["index.html".toList]) ≠ some .directory :=
    Tree.ne_directory_of_file hpage
  have hnew : t.get? (k ++ ["index.html".toList]) = none :=
    ht.get?_of_prefix_none h.free (List.prefix_append ..)
  refine ⟨?_, h.base, h.free, freshContents_revise h.home.toPlain h.deck hpage page, fun m hm => ?_,
    fun m e hm => ?_,
    fun m hk hm => ?_⟩
  · exact h.home.put hne (by rw [List.dropLast_concat, h.home.toPlain.above (by rw [hpage]; rfl)])
      (Tree.file_ne_link _)
  · rw [hget, if_neg, h.above m hm]
    rintro rfl
    exact absurd (h.above _ hm) hne
  · rw [hget, if_neg, h.kept m e hm]
    rintro rfl
    rw [hnew] at hm
    cases hm
  · rw [hget, if_neg, h.other m hk hm]
    rintro rfl
    exact hk (List.prefix_append ..)

end Deck

/-! ## Runs -/

/-- How the third stage ends: it fails without leaving a deck; or the path of the page is too long,
and it leaves an empty deck; or it makes the deck and nothing else. -/
theorem makeDeck_cases {slug : Text} (ht : t.Home) (hs : c.settings = .defaults bundled)
    (hout : Path.up ∉ s.output.parts) (hslug : s.slug = some slug)
    (hup : Path.up ∉ Text.split '/' slug) :
    (∃ halt u, ending (s.makeDeck c) t = (.error halt, u) ∧ t.Opens s.output u) ∨
    ∃ archive u, (Template.choose c.settings (some s.archive) []).contents t = .ok archive ∧
      (TreeAction.unpack archive .here .blank).1.result = .ok () ∧
      t.contains (c.settings.deckPath slug s.output) = false ∧
      (((c.settings.deckPath slug s.output).child "index.html".toList).fits = false ∧
          (∃ halt, ending (s.makeDeck c) t = (.error halt, u)) ∧
          Adds s.output (t.location (c.settings.deckPath slug s.output))
            (freshContents [] archive) t u ∨
        ((c.settings.deckPath slug s.output).child "index.html".toList).fits = true ∧
          (archive.unpacked.get? ["lib".toList]).isSome ∧
          ending (s.makeDeck c) t = (.ok { s with deck := c.settings.deckPath slug s.output }, u) ∧
          Adds s.output (t.location (c.settings.deckPath slug s.output))
            (freshContents keptEntries archive) t u ∧
          u.Leads (c.settings.deckPath slug s.output)
            (t.location (c.settings.deckPath slug s.output)) .directory) := by
  obtain ⟨first, rest, hpath, hdown⟩ := Settings.exists_deckPath hs hup s.output
  have hentries : (Template.choose c.settings (some s.archive) []).entries = keptEntries := by
    rw [hs]
    rfl
  have hnames : ∀ e ∈ (Template.choose c.settings (some s.archive) []).entries, Deck.IsName e := by
    rw [hentries]
    exact isName_of_mem_keptEntries
  have hstays : Template.StaysIn t s.output (c.settings.deckPath slug s.output) := by
    refine Template.staysIn_of_not_mem ?_
    rw [hpath]
    show Path.up ∉ s.output.parts ++ _
    simp only [List.mem_append, not_or]
    exact ⟨hout, hdown⟩
  obtain ⟨result, u, hending, hcases⟩ :=
    Template.makeDeck_cases ht hnames (by rw [hentries]; decide) hstays c.suffixes
  rw [State.makeDeck, hslug]
  dsimp only [Option.getD_some]
  rcases hcases with ⟨hopens, -, hinside⟩ | ⟨moved, hmoving, hfree, archive, v, l, hcontents,
    hunpacks, hv, hopens, hl, hinstalls⟩
  · cases result with
    | error f =>
      obtain ⟨halt, hhalt⟩ := ending_reporting_of_error hending
      exact .inl ⟨halt, u, Action.ending_bind_of_error hhalt _, hopens⟩
    | ok path =>
      obtain ⟨suffix, hin⟩ := hinside path rfl
      rw [hpath] at hin
      exact absurd hin (Template.not_inside_scratch hdown suffix)
  · refine .inr ⟨archive, u, hcontents, hunpacks, hfree, ?_⟩
    rw [hentries] at hmoving
    rw [hpath] at hinstalls
    obtain ⟨hadds, hleads⟩ := adds_of_installs hout hdown hopens hv hl hinstalls
    rw [← hpath] at hadds hleads
    cases hmoving with
    | all hfits =>
      have hlibrary := hinstalls.there "lib".toList (by decide)
      have hdeck :=
        (isName_of_mem_keptEntries _ (by decide)).fits_parent (hfits "lib".toList (by decide))
      exact .inr ⟨hfits _ (by decide), hlibrary,
        Action.ending_bind_of_ok (ending_reporting_of_ok hending) _, hadds, hleads hdeck⟩
    | @stopped _ _ e hkept hbefore hlong =>
      have hhalts :=
        @ending_reporting_of_error _ _ _ (fun e => e.isReported || e.isSystem) _ _ hending
      obtain ⟨halt, hhalt⟩ := hhalts
      rcases List.cons_eq_append_iff.1 hkept with ⟨rfl, hfirst⟩ | ⟨rest, rfl, hrest⟩
      · obtain ⟨rfl, -⟩ := List.cons.inj hfirst
        exact .inl ⟨hlong, ⟨halt, Action.ending_bind_of_error hhalt _⟩, hadds⟩
      · -- The library's path is not longer than that of the page.
        rcases List.singleton_eq_append_iff.1 hrest with ⟨rfl, hlast⟩ | ⟨-, hlast⟩
        · obtain ⟨rfl, -⟩ := List.cons.inj hlast
          have hpage := hbefore "index.html".toList (by simp)
          have hlib := (isName_of_mem_keptEntries _ (by decide)).fits_child hpage
            (isName_of_mem_keptEntries "lib".toList (by decide)) (by decide)
          cases hlong.symm.trans hlib
        · cases hlast

/-- What a run makes its deck of: a slug, a layout, and an archive that unpacks to a library at
least. -/
structure MakesOf (c : Context) (s : State) (t : Tree) (slug : Text) (layout : Layout)
    (archive : Archive) : Prop where
  named : s.slugOr c = .ok slug
  laidOut : Layout.read c.settings.dividerToken c.settings.defaultSlideCount s.layout = .ok layout
  packed : (Template.choose c.settings (some (s.archiveOr c.settings)) []).contents t = .ok archive
  unpacks : (TreeAction.unpack archive .here .blank).1.result = .ok ()
  library : (archive.unpacked.get? ["lib".toList]).isSome
  free : t.contains (c.settings.deckPath slug s.output) = false

/-- The state of a run that has just made its deck. -/
def State.withDeck (s : State) (c : Context) (slug : Text) (layout : Layout) : State :=
  { s with
    archive := s.archiveOr c.settings, slug := some slug, deck :=
  c.settings.deckPath slug s.output, ready := true,
    groups := some layout }

section Runs

variable [Record.Nesting] (ht : t.Home) (hs : c.settings = .defaults bundled)
  (hmake : s.finalize = false) (hstraight : s.Straight)

include ht hs hmake hstraight

/-- The stages up to the third fail without leaving a deck, or they fail and leave an empty one, or
they make a deck and nothing else. -/
theorem untilDeck_cases :
    (∃ halt u, ending (Stage.runAll c Stage.untilDeck s) t = (.error halt, u) ∧
      (t.Opens s.output u ∨
        ∃ slug archive, s.slugOr c = .ok slug ∧ t.contains (c.settings.deckPath slug s.output) =
          false ∧
          ((c.settings.deckPath slug s.output).child "index.html".toList).fits = false ∧
          Adds s.output (t.location (c.settings.deckPath slug s.output)) (freshContents [] archive)
            t u)) ∨
    ∃ slug layout archive u, MakesOf c s t slug layout archive ∧
      ((c.settings.deckPath slug s.output).child "index.html".toList).fits = true ∧
      ending (Stage.runAll c Stage.untilDeck s) t = (.ok (s.withDeck c slug layout), u) ∧
      Adds s.output (t.location (c.settings.deckPath slug s.output))
        (freshContents keptEntries archive) t u ∧
      u.Leads (c.settings.deckPath slug s.output) (t.location (c.settings.deckPath slug s.output))
        .directory := by
  have hrun : Stage.runAll c Stage.untilDeck s = s.checkSurroundings c >>= fun s =>
    s.readLayout c >>= fun s =>
      s.makeDeck c >>= fun s => pure s := rfl
  rw [hrun]
  rcases checkSurroundings_cases (c := c) hmake t with
    ⟨f, -, hchecked⟩ | ⟨-, hchecked⟩ | ⟨-, ⟨f, -, hchecked⟩ | ⟨slug, hslug, hchecked⟩⟩
  · exact .inl ⟨_, t, Action.ending_bind_of_error hchecked _, .inl (.refl s.output t)⟩
  · exact .inl ⟨_, t, Action.ending_bind_of_error hchecked _, .inl (.refl s.output t)⟩
  · exact .inl ⟨_, t, Action.ending_bind_of_error hchecked _, .inl (.refl s.output t)⟩
  rw [Action.ending_bind_of_ok hchecked]
  rcases readLayout_cases _ c t with ⟨f, -, hread⟩ | ⟨layout, hlayout, hread⟩
  · exact .inl ⟨_, t, Action.ending_bind_of_error hread _, .inl (.refl s.output t)⟩
  rw [Action.ending_bind_of_ok hread]
  rcases makeDeck_cases (s := s.withDeck c slug layout) ht hs hstraight.1 rfl
    (hstraight.up_not_mem_slug hslug) with
    ⟨halt, u, hmade, hopens⟩ | ⟨archive, u, hcontents, hunpacks, hfree, hcases⟩
  · exact .inl ⟨halt, u, Action.ending_bind_of_error hmade _, .inl hopens⟩
  rcases hcases with ⟨hlong, ⟨halt, hmade⟩, hadds⟩ | ⟨hfits, hlibrary, hmade, hadds, hleads⟩
  · exact .inl ⟨halt, u, Action.ending_bind_of_error hmade _,
      .inr ⟨slug, archive, hslug, hfree, hlong, hadds⟩⟩
  · exact .inr ⟨slug, layout, archive, u, ⟨hslug, hlayout, hcontents, hunpacks, hlibrary, hfree⟩,
      hfits, Action.ending_bind_of_ok hmade _, hadds, hleads⟩

omit ht hs hmake hstraight in
/-- The last two stages fail and leave the deck as it is, or they revise its page and nothing
else. -/
theorem afterDeck_cases (s' : State) (hs : c.settings = .defaults bundled) (hu : u.Plain)
    (hleads : u.Leads s'.deck k .directory) (hgroups : s'.groups = some layout) :
    (∃ halt, ending (Stage.runAll c Stage.afterDeck s') u = (.error halt, u)) ∨
    ∃ f html new, u.get? (k ++ ["index.html".toList]) = some (.file f) ∧
      Utf8.readLines f.bytes = .ok html ∧
      (Page.revise c.settings.configMarker
        ⟨c.settings.deckDirname (s'.slug.getD []), s'.title, layout.outline⟩ html).result =
        .ok new ∧
      ending (Stage.runAll c Stage.afterDeck s') u =
        (.ok { s' with creation := some ⟨s'.deck, s'.deck.child c.settings.markupEntry,
          layout.outline.slideCount, layout.describe Layout.defaultMarker⟩ },
          u.put (k ++ ["index.html".toList]) (.file ⟨Utf8.encode new, none⟩)) := by
  have hrun : Stage.runAll c Stage.afterDeck s' = s'.revisePage c >>= fun s =>
    s.announceDeck >>= fun s => pure s := rfl
  rw [hrun]
  rcases revisePage_cases hs hu hleads hgroups
    with ⟨halt, hhalt⟩ | ⟨f, html, new, hf, hhtml, hnew, hrevised⟩
  · exact .inl ⟨halt, Action.ending_bind_of_error hhalt _⟩
  · refine .inr ⟨f, html, new, hf, hhtml, hnew, ?_⟩
    rw [Action.ending_bind_of_ok hrevised, Action.ending_bind_of_ok (ending_announceDeck rfl _)]
    rfl

/-- A run fails before it has made the deck, or it makes a deck; then it fails and leaves the deck
as it is, or it revises the page. -/
theorem making_cases :
    (∃ halt u, ending (Stage.runAll c Stage.untilDeck s) t = (.error halt, u) ∧
      ending (Stage.runAll c Stage.making s) t = (.error halt, u) ∧
      (t.Opens s.output u ∨
        ∃ slug archive, s.slugOr c = .ok slug ∧ t.contains (c.settings.deckPath slug s.output) =
          false ∧
          ((c.settings.deckPath slug s.output).child "index.html".toList).fits = false ∧
          Adds s.output (t.location (c.settings.deckPath slug s.output)) (freshContents [] archive)
            t u)) ∨
    ∃ slug layout archive u, MakesOf c s t slug layout archive ∧
      ending (Stage.runAll c Stage.untilDeck s) t = (.ok (s.withDeck c slug layout), u) ∧
      Adds s.output (t.location (c.settings.deckPath slug s.output))
        (freshContents keptEntries archive) t u ∧
      ((∃ halt, ending (Stage.runAll c Stage.making s) t = (.error halt, u)) ∨
        ∃ f html new, archive.unpacked.get? ["index.html".toList] = some (.file f) ∧
          Utf8.readLines f.bytes = .ok html ∧
          (Page.revise "SLConfig".toList ⟨"deck-".toList ++ slug, s.title, layout.outline⟩
            html).result = .ok new ∧
          ∃ s' v, ending (Stage.runAll c Stage.making s) t = (.ok s', v) ∧
            s'.creation.map Creation.slideCount = some layout.outline.slideCount ∧
            s'.deck = c.settings.deckPath slug s.output ∧ (s'.deck.child "index.html".toList).fits =
              true ∧
            Adds s.output (t.location (c.settings.deckPath slug s.output))
              (deckContents archive (Utf8.encode new)) t v) := by
  have hsplit : ending (Stage.runAll c Stage.making s) t =
      ending (Stage.runAll c Stage.untilDeck s >>= Stage.runAll c Stage.afterDeck) t :=
    ending_runAll_append c Stage.untilDeck Stage.afterDeck s t
  rcases untilDeck_cases ht hs hmake hstraight with
    ⟨halt, u, hhalt, hleft⟩ | ⟨slug, layout, archive, u, hof, hfits, hmade, hadds, hleads⟩
  · exact .inl ⟨halt, u, hhalt, by rw [hsplit, Action.ending_bind_of_error hhalt], hleft⟩
  refine .inr ⟨slug, layout, archive, u, hof, hmade, hadds, ?_⟩
  rw [hsplit, Action.ending_bind_of_ok hmade]
  rcases afterDeck_cases (s.withDeck c slug layout) hs hadds.home.toPlain hleads rfl with
    ⟨halt, hhalt⟩ | ⟨f, html, new, hf, hhtml, hnew, hrevised⟩
  · exact .inl ⟨halt, hhalt⟩
  · have hunpacked : archive.unpacked.get? ["index.html".toList] = some (.file f) := by
      rw [← hf, hadds.deck, freshContents, if_pos (by decide)]
    rw [hs] at hnew
    exact .inr ⟨f, html, new, hunpacked, hhtml, hnew, _, _, hrevised, rfl, rfl, hfits,
      hadds.revise ht.toPlain hf _⟩

end Runs

/-- A run that makes a deck and does not fail does nothing else: the deck was not there before, and
all that is new are the deck and the directories on the way to it. -/
theorem making_adds_deck [Record.Nesting] (ht : t.Home) (hs : c.settings = .defaults bundled)
    (hmake : s.finalize = false) (hstraight : s.Straight)
    (hrun : ending (Stage.runAll c Stage.making s) t = (.ok s', u)) :
    ∃ slug layout archive f html new, MakesOf c s t slug layout archive ∧
      archive.unpacked.get? ["index.html".toList] = some (.file f) ∧
        Utf8.readLines f.bytes = .ok html ∧
      (Page.revise "SLConfig".toList ⟨"deck-".toList ++ slug, s.title, layout.outline⟩
        html).result = .ok new ∧
      s'.creation.map Creation.slideCount = some layout.outline.slideCount ∧
      s'.deck = c.settings.deckPath slug s.output ∧
      Adds s.output (t.location s'.deck) (deckContents archive (Utf8.encode new)) t u := by
  rcases making_cases ht hs hmake hstraight with
    ⟨halt, v, -, hhalt, -⟩ | ⟨slug, layout, archive, v, hof, -, -, hcases⟩
  · rw [hhalt] at hrun
    cases hrun
  rcases hcases with ⟨halt, hhalt⟩ | ⟨f, html, new, hf, hhtml, hnew, s'', w, hending, hcount, hdeck,
    -, hadds⟩
  · rw [hhalt] at hrun
    cases hrun
  · rw [hending] at hrun
    cases hrun
    exact ⟨slug, layout, archive, f, html, new, hof, hf, hhtml, hnew, hcount, hdeck, by rwa [hdeck]⟩

/-- A context with the default settings, no random bytes, and one suffix for scratch directories. -/
def sampleContext : Context := ⟨.defaults .here, fun _ => [], [Template.sampleSuffix]⟩

/-- An archive of a page and a stylesheet. -/
def archiveOf (page : Text) : Archive :=
  .readable [{ name := "index.html".toList, bytes := Utf8.encode page },
    Template.emptyMember "lib/offline-v2.css".toList]

/-- A tree with an archive of a page and a stylesheet. -/
def packedWith (page : Text) : Tree where
  base := []
  entries := [(["template.zip".toList],
    .file ⟨[], some (archiveOf page)⟩)]

theorem home_packedWith (page : Text) : (packedWith page).Home :=
  ⟨Tree.plain_of_isPlain (by rfl), rfl⟩

/-- A run that is to make `out/deck-x` from the archive. -/
def sampleRun : State where
  input := .here
  output := ⟨[], ["out".toList]⟩
  slug := some ['x']
  templateFile := some "template.zip".toList

theorem sampleRun_straight : sampleRun.Straight := by
  refine ⟨by decide, fun slug hslug => ?_⟩
  obtain rfl := Option.some.inj hslug
  decide

/-- A page with nothing but a container is revised. -/
theorem making_adds_deck_small :
    let t := packedWith "<p class=slides></p>".toList
    ∃ s' u archive page, ending (Stage.runAll sampleContext Stage.making sampleRun) t =
      (.ok s', u) ∧
      s'.creation.map Creation.slideCount = some 5 ∧
      Adds ⟨[], ["out".toList]⟩ (t.location s'.deck) (deckContents archive page) t u := by
  intro t
  have hhome : t.Home := ⟨Tree.plain_of_isPlain (by decide +kernel), by decide⟩
  have hfive : (Stage.runAll sampleContext Stage.making sampleRun t).1.result.toOption.any
      (fun s => s.creation.map Creation.slideCount = some 5) = true := by decide +kernel
  obtain ⟨s', hresult, hcount⟩ := Outcome.exists_of_any hfive
  have hrun : ending (Stage.runAll sampleContext Stage.making sampleRun) t =
      (.ok s', (Stage.runAll sampleContext Stage.making sampleRun t).2) := by rw [ending, hresult]
  obtain ⟨slug, layout, archive, f, html, new, -, -, -, -, -, -, hadds⟩ :=
    making_adds_deck hhome rfl rfl sampleRun_straight hrun
  exact ⟨s', _, archive, _, hrun, of_decide_eq_true hcount, hadds⟩

/-- A run that fails leaves no deck behind unless the path of the page in it is too long, or it is
the revision of the page that fails. In the first case it leaves an empty deck, and in the second
the whole deck as the template has it. -/
theorem failing_leaves_deck [Record.Nesting] (ht : t.Home) (hs : c.settings = .defaults bundled)
    (hmake : s.finalize = false) (hstraight : s.Straight)
    (hrun : ending (Stage.runAll c Stage.making s) t = (.error halt, u)) :
    (∃ halt, ending (Stage.runAll c Stage.untilDeck s) t = (.error halt, u)) ∧
      (t.Opens s.output u ∧
        (∀ slug, s.slugOr c = .ok slug → ∀ m, t.location (c.settings.deckPath slug s.output) <+: m →
          u.get? m = t.get? m) ∨
      ∃ slug archive, s.slugOr c = .ok slug ∧ t.contains (c.settings.deckPath slug s.output) =
        false ∧
        ((c.settings.deckPath slug s.output).child "index.html".toList).fits = false ∧
        Adds s.output (t.location (c.settings.deckPath slug s.output)) (freshContents [] archive)
          t u) ∨
    (∃ s', ending (Stage.runAll c Stage.untilDeck s) t = (.ok s', u)) ∧
      ∃ slug layout archive, MakesOf c s t slug layout archive ∧
        Adds s.output (t.location (c.settings.deckPath slug s.output))
          (freshContents keptEntries archive) t u := by
  rcases making_cases ht hs hmake hstraight with
    ⟨halt', v, huntil, hhalt, hleft⟩ | ⟨slug, layout, archive, v, hof, huntil, hadds, hcases⟩
  · rw [hhalt] at hrun
    cases hrun
    refine .inl ⟨⟨halt, huntil⟩, hleft.imp_left fun hopens => ⟨hopens, fun slug hslug m hm => ?_⟩⟩
    obtain ⟨first, rest, hpath, hdown⟩ :=
      Settings.exists_deckPath hs (hstraight.up_not_mem_slug hslug) s.output
    rw [hpath, Tree.location_append hdown] at hm
    exact hopens.get?_below hstraight.1 (List.prefix_append ..) (by simp) hm
  rcases hcases with ⟨halt', hhalt⟩ | ⟨f, html, new, -, -, -, s', w, hending, -⟩
  · rw [hhalt] at hrun
    cases hrun
    exact .inr ⟨⟨_, huntil⟩, slug, layout, archive, hof, hadds⟩
  · rw [hending] at hrun
    cases hrun

/-- A page without a container is left as the template has it. -/
theorem failing_leaves_deck_without_container :
    let t := packedWith "<body></body>".toList
    ∃ halt u archive, ending (Stage.runAll sampleContext Stage.making sampleRun) t =
      (.error halt, u) ∧
      Adds ⟨[], ["out".toList]⟩ ["out".toList, "deck-x".toList] (freshContents keptEntries archive)
        t u := by
  intro t
  have hhome : t.Home := ⟨Tree.plain_of_isPlain (by decide +kernel), by decide⟩
  have hfails : (Stage.runAll sampleContext Stage.making sampleRun t).1.result.toOption = none := by
    decide +kernel
  have hmade : (Stage.runAll sampleContext Stage.untilDeck sampleRun t).1.result.toOption.isSome =
      true := by decide +kernel
  obtain ⟨halt, hresult⟩ := Outcome.exists_error_of_toOption hfails
  have hrun : ending (Stage.runAll sampleContext Stage.making sampleRun) t =
      (.error halt, (Stage.runAll sampleContext Stage.making sampleRun t).2) := by
    rw [ending, hresult]
  rcases failing_leaves_deck hhome rfl rfl sampleRun_straight hrun with
    ⟨⟨halt', huntil⟩, -⟩ | ⟨-, slug, layout, archive, hof, hadds⟩
  · rw [(Prod.mk.inj huntil).1] at hmade
    cases hmade
  · obtain rfl : ['x'] = slug := Except.ok.inj hof.named
    exact ⟨halt, _, archive, hrun, hadds⟩

/-- A run may fail and leave a deck where there was nothing. -/
theorem failing_leaves_new_deck :
    let t := packedWith "<body></body>".toList
    let ended := Stage.runAll sampleContext Stage.making sampleRun t
    t.Home ∧ ended.1.result.toOption.isNone ∧ t.get? ["out".toList, "deck-x".toList] = none ∧
      ended.2.get? ["out".toList, "deck-x".toList] = some .directory :=
  ⟨⟨Tree.plain_of_isPlain (by decide +kernel), by decide⟩, by decide +kernel, by decide +kernel, by
    decide +kernel⟩

end SlideDeck.Run
