import SlideDeck.Proofs.Deck.Finalized
import SlideDeck.Proofs.Page.LineEnds
import SlideDeck.Proofs.Page.Stripped
import SlideDeck.Proofs.Run.Making

/-!
# Finalizing a deck that a run has made

A fresh deck holds a page and a library, and nothing else (`Deck.IsFresh`). To finalize it does
nothing to its page but strip it, and it succeeds unless the path of the canonical stylesheet is too
long (`Deck.finalize_of_isFresh`). A run leaves such a deck (`isFresh_of_adds`), and so its content
is still there when it has been finalized (`finalizing_keeps_content`): its slides, its title and
its configuration, if no link tag starts in the keys and strings of its record.

Such a tag may come from the title, which is written as it is into the record. Then the record is
stripped of it (`finalizing_strips_record`).
-/

namespace SlideDeck

/-! ## Fresh decks -/

namespace Deck

variable {d : Deck} {t u : Tree} {l : Location} {html : Text} {bundled : Path}

/-- The deck at `l` holds a page that reads `html` and perhaps a library, and nothing else. -/
structure IsFresh (d : Deck) (t : Tree) (l : Location) (html : Text) : Prop where
  plain : t.Plain
  leads : t.Leads d.path l .directory
  short : d.page.fits = true
  page : ∃ f, t.get? (l ++ ["index.html".toList]) = some (.file f) ∧
    Utf8.readLines f.bytes = .ok html
  only : ∀ name, name ≠ "index.html".toList → name ≠ "lib".toList → t.get? (l ++ [name]) = none

namespace IsFresh

variable (h : d.IsFresh t l html) (hs : d.settings = .defaults bundled)

include h hs

theorem readText_eq : t.readText d.page = .ok html ∧ d.check t = .ok () := by
  obtain ⟨f, hf, hread⟩ := h.page
  have hpath := leads_page hs h.plain h.leads h.short hf
  exact ⟨by rw [hpath.readText_eq, hread]; rfl,
    check_eq_ok_iff.2 ⟨Tree.isDirectory_iff.2 ⟨l, h.leads⟩, Tree.isFile_iff.2 ⟨_, f, hpath⟩⟩⟩

/-- An entry whose name is not longer than that of the page has a path that is not too long. -/
theorem fits_inRoot {name : Text} (hname : IsName name) (hsize : Text.size name ≤ 10) :
    (d.inRoot name).fits = true := by
  have hshort := h.short
  rw [page_eq hs] at hshort
  rw [← child_eq ⟨by decide, by decide⟩] at hshort
  rw [← child_eq hname]
  exact IsName.fits_child ⟨by decide, by decide⟩ hshort hname hsize

/-- No stylesheet is loose in a fresh deck, whatever `assets` is, and the path of none is too
long. -/
theorem settled (hu : u.Plain) (hkept : ∀ m ≠ l ++ ["assets".toList], u.get? m = t.get? m)
    (hfits : d.stylesheet.fits = true) : d.Settled u l := by
  have hask : u.ask Tree.isFile true d.stylesheet = .ok (u.isFile d.stylesheet) :=
    hu.ask_of_fits hfits _
  cases hfile : u.isFile d.stylesheet with
  | false => exact .inl (hfile ▸ hask)
  | true =>
    refine .inr ⟨hfile ▸ hask, overlong_eq_nil_iff.2 fun name hthere => ?_, fun name hloose => ?_⟩
    · by_cases hassets : name = "assets".toList
      · exact hassets ▸ h.fits_inRoot hs ⟨by decide, by decide⟩ (by decide)
      · rw [hkept _ (ne_of_name hassets)] at hthere
        by_cases hpage : name = "index.html".toList
        · exact hpage ▸ h.fits_inRoot hs ⟨by decide, by decide⟩ (by decide)
        · by_cases hlib : name = "lib".toList
          · exact hlib ▸ h.fits_inRoot hs ⟨by decide, by decide⟩ (by decide)
          · rw [h.only name hpage hlib] at hthere
            cases hthere
    · obtain ⟨hsuffix, -, g, hg⟩ := hloose
      have hnot : ¬stylesheetSuffix <:+ "assets".toList ∧
          ¬stylesheetSuffix <:+ "index.html".toList ∧
          ¬stylesheetSuffix <:+ "lib".toList := by decide
      rw [hkept _ (ne_of_name (by rintro rfl; exact hnot.1 hsuffix)),
        h.only name (by rintro rfl; exact hnot.2.1 hsuffix) (by rintro rfl; exact hnot.2.2 hsuffix)]
          at hg
      cases hg

omit h in
/-- If the path of the canonical stylesheet is not too long, neither are those of the build
outputs. -/
theorem fits_artifacts (hpath : d.path.fits = true) (hfits : d.stylesheet.fits = true) :
    ∀ a ∈ d.settings.ephemeralArtifacts, (d.path.child a).fits = true := by
  rcases artifacts_fit_cases hs hpath with hall | ⟨a, rest, hfirst, hlong⟩
  · exact hall
  · have hscreenshots : a = "screenshots".toList := by
      rw [hs] at hfirst
      exact (List.cons.inj hfirst).1.symm
    have htext := Path.fitsText_of_fits hfits
    rw [stylesheet_eq hs, Path.fitsText_append_pair] at htext
    rw [hscreenshots, child_eq ⟨by decide, by decide⟩] at hlong
    cases hlong.symm.trans (Path.fitsText_append_of_size_le (by decide) htext)

/-- The merge of the stylesheets does nothing in a fresh deck; it fails if the canonical one's path
is too long. -/
theorem merges_nothing {v : Tree} {o : Outcome} (hu : u.Plain)
    (hkept : ∀ m ≠ l ++ ["assets".toList], u.get? m = t.get? m) (he : d.Ends l u .stylesheets o v) :
    v = u ∧ (o.ok = true ↔ d.stylesheet.fits = true) := by
  cases hfits : d.stylesheet.fits with
  | true =>
    obtain ⟨hok, -, rfl⟩ := he.of_rests hu (h.settled hs hu hkept hfits)
    exact ⟨rfl, iff_of_true hok rfl⟩
  | false =>
    have hunsettled : ¬d.Settled u l := fun hsettled => by
      have htext := hsettled.fitsText
      rw [stylesheet_eq hs] at htext hfits
      cases hfits.symm.trans ((Path.fits_append_iff (h.leads.fits h.plain)).2 ⟨htext, by decide⟩)
    cases he with
    | rests hrests => exact absurd hrests hunsettled
    | changes hchanges =>
      obtain ⟨k, old, canonical, sheets, hk, -⟩ := hchanges
      cases hfits.symm.trans (hk.fits hu)
    | fails _ hno => exact ⟨rfl, iff_of_false (by simp [hno]) nofun⟩

end IsFresh

/-- A fresh deck that is finalized is not in the way of any step, and its page is stripped. -/
theorem finalize_of_isFresh (hs : d.settings = .defaults bundled) (h : d.IsFresh t l html) :
    ∃ r, (d.finalize t).1.result = .ok r ∧ (r.ok = true ↔ d.stylesheet.fits = true) ∧
      (d.finalize t).2.readText d.page = .ok (d.stripped html) := by
  obtain ⟨hhtml, hcheck⟩ := h.readText_eq hs
  obtain ⟨o₁, o₂, o₃, o₄, t₁, t₂, t₃, hresult, -, e₁, e₂, e₃, e₄, -, k₁, k₂, k₃⟩ :=
    exists_steps hs h.plain h.leads hcheck
  have hok₁ : o₁.ok = true := e₁.ok fun hfails => by
    rcases hfails with ⟨f, hf⟩ | hlong
    · rw [h.only _ (by decide) (by decide)] at hf
      cases hf
    · rw [assets_eq hs] at hlong
      cases hlong.symm.trans (h.fits_inRoot hs ⟨by decide, by decide⟩ (by decide))
  obtain ⟨-, -, hkept₁⟩ := assets_of_ends h.plain e₁ hok₁
  obtain ⟨rfl, hok₂⟩ := h.merges_nothing hs k₁.plain hkept₁ e₂
  obtain ⟨f, hf, hread⟩ := h.page
  have hpage₁ := hkept₁ (l ++ ["index.html".toList]) (ne_of_name (by decide))
  have l₁ := k₁.leads h.plain h.leads
  have hok₃ : o₃.ok = true := e₃.ok fun hunread => by
    refine hunread html ?_
    rw [(leads_page hs k₁.plain l₁ h.short (hpage₁.trans hf)).readText_eq, hread]
    rfl
  obtain ⟨f', g, html', hf', hread', hg, hstripped, -, hkept₃⟩ :=
    page_of_ends hs k₁.plain l₁ e₃ hok₃
  cases (hpage₁.trans hf).symm.trans hf'
  cases hread.symm.trans hread'
  have l₃ := k₃.leads k₁.plain l₁
  have hgone (a : Text) (ha : a ∈ d.settings.ephemeralArtifacts)
      (hfits : (d.path.child a).fits = true) :
      t₃.entry? (d.path.child a) = none := by
    have hname := isName_of_mem hs ha
    obtain ⟨hassets, hindex, hlib⟩ : a ≠ "assets".toList ∧ a ≠ "index.html".toList ∧
        a ≠ "lib".toList := by
      rw [hs] at ha
      rcases List.mem_pair.1 ha with rfl | rfl
      · decide
      · decide
    rw [child_eq hname] at hfits ⊢
    rw [inRoot, l₃.entry?_append k₃.plain (by simpa [eq_comm] using hname.2) hfits,
      hkept₃ _ (ne_of_name hindex), hkept₁ _ (ne_of_name hassets), h.only a hindex hlib]
  have hend : (d.finalize t).2 = t₃ := by
    generalize (d.finalize t).2 = w at e₄
    cases e₄ with
    | rests => rfl
    | changes hchanges =>
      obtain ⟨hfits, ⟨a, ha, hthere⟩, -⟩ := hchanges
      exact absurd (hgone a ha (hfits a ha)) hthere
    | fails => rfl
  refine ⟨_, hresult, ?_, ?_⟩
  · have hok₄ (hfits : d.stylesheet.fits = true) : o₄.ok = true := e₄.ok fun hfails => by
      obtain ⟨a, ha, hlong⟩ := hfails
      cases hlong.symm.trans (IsFresh.fits_artifacts hs (h.leads.fits h.plain) hfits a ha)
    rw [← hok₂]
    simp only [Report.ok, List.all_cons, List.all_nil, hok₁, hok₃, Bool.true_and, Bool.and_true,
      Bool.and_eq_true]
    exact ⟨And.left, fun hok => ⟨hok, hok₄ (hok₂.1 hok)⟩⟩
  · rw [hend, (leads_page hs k₃.plain l₃ h.short hg).readText_eq, hstripped]
    rfl

end Deck

namespace Run

open SlideDeck.Action (ending)
open Markup (Edit Site Written skipEndTag)
open Markup.Stylesheet (IsLinkless)
open Record (Members Value)

/-! ## Runs -/

section Runs

variable {c : Context} {s s' : State} {t u : Tree} {layout : Layout} {bundled : Path} {slug : Text}
  {archive : Archive}

/-- What a run has made is a fresh deck. -/
theorem isFresh_of_adds (hs : c.settings = .defaults bundled) (hstraight : s.Straight)
    (hof : MakesOf c s t slug layout archive)
    (hfits : ((c.settings.deckPath slug s.output).child "index.html".toList).fits = true)
    {page : Text} (hpage : '\r' ∉ page)
    (hadds : Adds s.output (t.location (c.settings.deckPath slug s.output))
      (deckContents archive (Utf8.encode page)) t u) :
    (⟨c.settings.deckPath slug s.output, c.settings⟩ : Deck).IsFresh u
      (t.location (c.settings.deckPath slug s.output)) page := by
  obtain ⟨first, rest, hpath, hdown⟩ :=
    Settings.exists_deckPath hs (hstraight.up_not_mem_slug hof.named) s.output
  have hup : Path.up ∉ (c.settings.deckPath slug s.output).parts := by
    rw [hpath]
    exact List.not_mem_append hstraight.1 hdown
  have hdeck := hadds.deck
  rw [← Tree.location_congr hadds.base] at hdeck ⊢
  have hdeckFits := Deck.IsName.fits_parent ⟨by decide, by decide⟩ hfits
  have hshort : (⟨c.settings.deckPath slug s.output, c.settings⟩ : Deck).page.fits = true := by
    rw [Deck.page, show c.settings.markupEntry = "index.html".toList by rw [hs]; rfl]
    exact hfits
  refine ⟨hadds.home.toPlain, hadds.home.leads_location hup hdeckFits ?_, hshort,
    ⟨⟨Utf8.encode page, none⟩, ?_, ?_⟩, fun name hne hlib => ?_⟩
  · rw [← List.append_nil (u.location _), hdeck]
    rfl
  · rw [hdeck]
    rfl
  · rw [Utf8.readLines_encode, Utf8.lineFeeds_of_not_mem hpage]
  · rw [hdeck, deckContents, if_neg hne, if_neg hlib]

variable [Record.Nesting]

/-- The page of the deck that a run makes of a slug, a layout and the members of an archive. -/
theorem exists_page_of_making (ht : t.Home) (hs : c.settings = .defaults bundled)
    (hmake : s.finalize = false) (hstraight : s.Straight)
    (hrun : ending (Stage.runAll c Stage.making s) t = (.ok s', u))
    (hof : MakesOf c s t slug layout archive) :
    ∃ f html new, archive.unpacked.get? ["index.html".toList] = some (.file f) ∧
      Utf8.readLines f.bytes = .ok html ∧
      (Page.revise "SLConfig".toList ⟨"deck-".toList ++ slug, s.title, layout.outline⟩
        html).result = .ok new ∧
      s'.deck = c.settings.deckPath slug s.output ∧ (s'.deck.child "index.html".toList).fits =
        true ∧
      Adds s.output (t.location (c.settings.deckPath slug s.output))
        (deckContents archive (Utf8.encode new)) t u := by
  rcases making_cases ht hs hmake hstraight with
    ⟨halt, v, -, hhalt, -⟩ | ⟨slug', layout', archive', v, hof', -, -, hcases⟩
  · rw [hhalt] at hrun
    cases hrun
  obtain rfl : slug = slug' := Except.ok.inj (hof.named.symm.trans hof'.named)
  obtain rfl : layout = layout' := Except.ok.inj (hof.laidOut.symm.trans hof'.laidOut)
  obtain rfl : archive = archive' := Except.ok.inj (hof.packed.symm.trans hof'.packed)
  rcases hcases with ⟨halt, hhalt⟩ | ⟨f, html, new, hf, hhtml, hnew, s'', w, hending, -, hdeck,
    hfits, hadds⟩
  · rw [hhalt] at hrun
    cases hrun
  · rw [hending] at hrun
    cases hrun
    exact ⟨f, html, new, hf, hhtml, hnew, hdeck, hfits, hadds⟩

theorem deck_of_making (ht : t.Home) (hs : c.settings = .defaults bundled)
    (hmake : s.finalize = false) (hstraight : s.Straight)
    (hrun : ending (Stage.runAll c Stage.making s) t = (.ok s', u))
    (hof : MakesOf c s t slug layout archive) : s'.deck = c.settings.deckPath slug s.output := by
  obtain ⟨-, -, -, -, -, -, hdeck, -⟩ := exists_page_of_making ht hs hmake hstraight hrun hof
  exact hdeck

/-- The page of a deck that a run has made is stripped when the deck is finalized, if no carriage
return stands in it. -/
theorem finalize_of_making (ht : t.Home) (hs : c.settings = .defaults bundled)
    (hmake : s.finalize = false) (hstraight : s.Straight)
    (hrun : ending (Stage.runAll c Stage.making s) t = (.ok s', u))
    (hof : MakesOf c s t slug layout archive) {f : File} {html new : Text}
    (hfile : archive.unpacked.get? ["index.html".toList] = some (.file f))
    (hread : Utf8.readLines f.bytes = .ok html)
    (hnew : (Page.revise "SLConfig".toList
      ⟨"deck-".toList ++ slug, s.title, layout.outline⟩ html).result = .ok new)
    (hreturn : '\r' ∉ new) :
    let deck : Deck := ⟨s'.deck, c.settings⟩
    ∃ r, (deck.finalize u).1.result = .ok r ∧ (r.ok = true ↔ deck.stylesheet.fits = true) ∧
      u.readText deck.page = .ok new ∧
      (deck.finalize u).2.readText deck.page = .ok (deck.stripped new) := by
  obtain ⟨f', html', new', hfile', hread', hnew', hdeck, hfits, hadds⟩ :=
    exists_page_of_making ht hs hmake hstraight hrun hof
  cases hfile.symm.trans hfile'
  cases hread.symm.trans hread'
  cases hnew.symm.trans hnew'
  rw [hdeck] at hfits ⊢
  have hfresh := isFresh_of_adds hs hstraight hof hfits hreturn hadds
  obtain ⟨r, hresult, hok, hafter⟩ := Deck.finalize_of_isFresh hs hfresh
  exact ⟨r, hresult, hok, (hfresh.readText_eq hs).1, hafter⟩

/-- A deck that a run has made has its content when it has been finalized, if no link tag starts in
the keys and strings of its record. No such text may end the script, and a carriage return in the
title would be read as a line feed. -/
theorem finalizing_keeps_content (ht : t.Home) (hs : c.settings = .defaults bundled)
    (hmake : s.finalize = false) (hstraight : s.Straight)
    (hrun : ending (Stage.runAll c Stage.making s) t = (.ok s', u))
    (hof : MakesOf c s t slug layout archive) {f : File} {w : Written} {site : Site}
    {record : Members} (hfile : archive.unpacked.get? ["index.html".toList] = some (.file f))
    (hread : Utf8.readLines f.bytes = .ok w.render)
    (hclean : Page.IsCleanSheet "SLConfig".toList c.settings.canonicalStylesheet w site record)
    (hapart : ∀ es, (Page.edits "SLConfig".toList
      ⟨"deck-".toList ++ slug, s.title, layout.outline⟩ w.render).result = .ok es → Edit.Apart es)
    (htitle : '\r' ∉ s.title)
    (hplain : ∀ text ∈ (Value.object (Embedded.updateRecord
        ⟨"deck-".toList ++ slug, s.title, layout.outline.slideCount⟩ record)).texts,
      Text.search (skipEndTag "script".toList) (Record.string text) = none ∧
        IsLinkless (Record.string text)) :
    let deck : Deck := ⟨s'.deck, c.settings⟩
    ∃ r before after, (deck.finalize u).1.result = .ok r ∧
      (r.ok = true ↔ deck.stylesheet.fits = true) ∧
      u.readText deck.page = .ok before ∧ (deck.finalize u).2.readText deck.page = .ok after ∧
      Page.SameContent "SLConfig".toList after before := by
  obtain ⟨f', html, new, hfile', hread', hnew, -⟩ :=
    exists_page_of_making ht hs hmake hstraight hrun hof
  cases hfile.symm.trans hfile'
  cases hread.symm.trans hread'
  obtain ⟨es, he, -⟩ := Attempt.result_bind_eq_ok.1 hnew
  obtain ⟨out, hout, hsame⟩ := Page.strip_revise hclean hplain he (hapart es he)
  cases hnew.symm.trans hout
  have hreturn :
      '\r' ∉ new := Page.return_not_mem_revise hclean.toIsSheet hclean.configured hclean.integral
    (Utf8.not_mem_of_readLines hread) htitle hnew
  obtain ⟨r, hresult, hok, hbefore, hafter⟩ :=
    finalize_of_making ht hs hmake hstraight hrun hof hfile hread hnew hreturn
  exact ⟨r, new, _, hresult, hok, hbefore, hafter, hsame⟩

end Runs

/-- A page with a title, a link, a container and a script. -/
def linkedPage : Written :=
  .element ⟨"head".toList, []⟩ (.element ⟨"title".toList, []⟩ (.letter (.char 't') .nil)
      (.void ⟨"link".toList, [("href".toList, "a.css".toList)]⟩ .nil))
    (.element ⟨"body".toList, []⟩
      (.element ⟨"div".toList, [("class".toList, "slides".toList)]⟩ .nil
        (.raw ⟨"script".toList, []⟩ "var SLConfig = \x7b\"deck\":\x7b\x7d\x7d;".toList .nil)) .nil)

theorem isCleanSheet_linkedPage :
    ∃ c, Page.IsCleanSheet "SLConfig".toList "lib/offline-v2.css".toList linkedPage c
    [(Embedded.deckKey, .object [])] := by
  have hname : ((linkedPage.sites false [] [] []).find? Page.isContainer).map (·.label.name) =
      some "div".toList := by
    decide +kernel
  have hscript :
      ((linkedPage.sites false [] [] []).find? (Page.mentions "SLConfig".toList)).map
        Page.scriptText =
      some "var SLConfig = \x7b\"deck\":\x7b\x7d\x7d;".toList := by decide +kernel
  obtain ⟨c, hsheet, hread⟩ :=
    Page.exists_isSheet (by decide +kernel) (by decide +kernel) hname (by decide)
    (by decide +kernel) hscript
  exact ⟨c, hsheet, by decide +kernel, by decide +kernel, hread rfl, by decide⟩

/-- The link is taken out of the page, and all else stays. -/
theorem finalizing_keeps_content_linked :
    let t := packedWith linkedPage.render
    ∃ s' u, ending (Stage.runAll sampleContext Stage.making sampleRun) t = (.ok s', u) ∧
      let deck : Deck := ⟨s'.deck, sampleContext.settings⟩
      ∃ r before after, (deck.finalize u).1.result = .ok r ∧ r.ok = true ∧
        u.readText deck.page = .ok before ∧
        (deck.finalize u).2.readText deck.page = .ok after ∧
          Page.SameContent "SLConfig".toList after before := by
  intro t
  have hhome : t.Home := home_packedWith _
  obtain ⟨s', hrun⟩ :=
    Action.exists_ending (m := Stage.runAll sampleContext Stage.making sampleRun) (s := t)
      (by decide +kernel)
  obtain ⟨c, hclean⟩ := isCleanSheet_linkedPage
  have hof : MakesOf sampleContext sampleRun t ['x'] (List.replicate 5 .single)
      (archiveOf linkedPage.render) :=
    ⟨rfl, rfl, rfl, by decide +kernel, by decide +kernel, by decide +kernel⟩
  have hread : Utf8.readLines (Utf8.encode linkedPage.render) = .ok linkedPage.render := by
    rw [Utf8.readLines_encode, Utf8.lineFeeds_of_not_mem (by decide +kernel)]
  have hfits : (⟨s'.deck, sampleContext.settings⟩ : Deck).stylesheet.fits = true := by
    rw [deck_of_making hhome rfl rfl sampleRun_straight hrun hof]
    decide +kernel
  obtain ⟨r, before, after, hresult, hok, hkept⟩ :=
    finalizing_keeps_content hhome rfl rfl sampleRun_straight hrun hof
    (f := ⟨_, none⟩) (by decide +kernel) hread hclean
    (fun es he =>
      of_decide_eq_true
        (Outcome.of_all (p := fun es => decide (Edit.Apart es)) (by decide +kernel) he))
    (by decide) (by decide +kernel)
  exact ⟨s', _, hrun, r, before, after, hresult, hok.2 hfits, hkept⟩

/-- The title in the record of a page. -/
def recordedTitle? (html : Text) : Option Text :=
  match (Page.configured? "SLConfig".toList html).result with
  | .ok (some (.structured record)) =>
    match (Embedded.deck? record).bind (Members.get? "title".toList) with
    | some (.string title) => some title
    | _ => none
  | _ => none

/-- A page with a container and a script. -/
def scriptedPage : Text :=
  "<p class=slides></p><script>var SLConfig = \x7b\"deck\":\x7b\x7d\x7d;</script>".toList

/-- A title that is a link. -/
def linkTitle : Text := "<link href='x.css'>".toList

/-- The assignment of a record with the title. -/
def linkAssignment : Text :=
  "var SLConfig = ".toList ++
    Record.render (.object (Embedded.updateRecord ⟨"deck-x".toList, linkTitle, 1⟩
    [(Embedded.deckKey, .object [])])) ++ [';']

/-- The page with one slide and with the title in its record. -/
def titledPage : Text :=
  "<p class=slides>".toList ++ Page.slides (Layout.outline [.single]) [] ++ "</p><script>".toList ++
    linkAssignment
    ++ "</script>".toList

theorem revise_scriptedPage :
    (Page.revise "SLConfig".toList ⟨"deck-".toList ++ ['x'], linkTitle, Layout.outline [.single]⟩
      scriptedPage).result =
      .ok titledPage := by
  have he : (Page.edits "SLConfig".toList
      ⟨"deck-".toList ++ ['x'], linkTitle, Layout.outline [.single]⟩
      scriptedPage).result =
        .ok [⟨⟨16, 16⟩, Page.slides (Layout.outline [.single]) []⟩, ⟨⟨28, 55⟩, linkAssignment⟩] :=
    Outcome.eq_ok_of_toOption (by decide +kernel)
  refine Attempt.result_bind_eq_ok.2 ⟨_, he, congrArg Except.ok ?_⟩
  rw [← Edit.spliceAll_id, Edit.spliceAll_eq_foldr, Edit.leftToRight_pair (by simp [Edit.precedes])]
  decide +kernel

/-- A title that is a link is taken out of the record. -/
theorem finalizing_strips_record :
    let t := packedWith scriptedPage
    let s : State := { sampleRun with title := linkTitle, layout := ⟨some (.number 1), none⟩ }
    ∃ s' u, ending (Stage.runAll sampleContext Stage.making s) t = (.ok s', u) ∧
      let deck : Deck := ⟨s'.deck, sampleContext.settings⟩
      ∃ r before after, (deck.finalize u).1.result = .ok r ∧ r.ok = true ∧
        u.readText deck.page = .ok before ∧
        (deck.finalize u).2.readText deck.page = .ok after ∧
          recordedTitle? before = some linkTitle ∧
        recordedTitle? after = some [] := by
  intro t s
  have hhome : t.Home := home_packedWith _
  obtain ⟨s', hrun⟩ :=
    Action.exists_ending (m := Stage.runAll sampleContext Stage.making s) (s := t)
      (by decide +kernel)
  have hof : MakesOf sampleContext s t ['x'] [.single] (archiveOf scriptedPage) :=
    ⟨rfl, rfl, rfl, by decide +kernel, by decide +kernel, by decide +kernel⟩
  have hread : Utf8.readLines (Utf8.encode scriptedPage) = .ok scriptedPage := by
    rw [Utf8.readLines_encode, Utf8.lineFeeds_of_not_mem (by decide +kernel)]
  obtain ⟨r, hfinalize, hok, hbefore, hafter⟩ :=
    finalize_of_making (s := s) hhome rfl rfl sampleRun_straight hrun hof
    (f := ⟨Utf8.encode scriptedPage, none⟩) (by decide +kernel) hread revise_scriptedPage
      (by decide +kernel)
  have hstripped :
      recordedTitle?
        (Markup.Stylesheet.strip sampleContext.settings.canonicalStylesheet titledPage) =
      some [] := by decide +kernel
  have hfits : (⟨s'.deck, sampleContext.settings⟩ : Deck).stylesheet.fits = true := by
    rw [deck_of_making (s := s) hhome rfl rfl sampleRun_straight hrun hof]
    decide +kernel
  exact ⟨s', _, hrun, r, _, _, hfinalize, hok.2 hfits, hbefore, hafter, by decide +kernel,
    hstripped⟩

end Run

end SlideDeck
