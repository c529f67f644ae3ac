import SlideDeck.Proofs.Markup.Rewrite
import SlideDeck.Proofs.Page.Frame
import SlideDeck.Proofs.Run.Stages

/-!
# The bytes of a page

Two operations write a deck's page anew: to revise it and to strip it of its links. Both read it
with line feeds for all line ends and write what they have read. So outside of the content that is
replaced, and outside of the links that are left out, the page keeps its bytes if and only if no
carriage return stands there (`rewrites_page`). With the line ends of another system, all of the
page is written anew (`rewrites_page_with_returns`).
-/

namespace SlideDeck.Deck

open Markup (Edit)
open Markup.Stylesheet (removals)
open SlideDeck.Action (ending)

variable {t u : Tree} {d : Deck} {l : Location} {page : Path} {raw html : Text}
  {archive : Option Archive}

theorem readLines_of_leads {f : File} (hp : t.Leads page l (.file ⟨Utf8.encode raw, archive⟩))
    {k : Location} (hk : t.Leads page k (.file f)) (hread : Utf8.readLines f.bytes = .ok html) :
    k = l ∧ html = Utf8.lineFeeds raw := by
  obtain ⟨rfl, he⟩ := hp.unique hk
  cases he
  rw [Utf8.readLines_encode] at hread
  exact ⟨rfl, (Except.ok.inj hread).symm⟩

/-- A revision of a page makes the edits of what is read from it; if no two of them overlap, they
are made in the file. -/
theorem rewrites_revisePage [Record.Nesting]
    (hp : t.Leads page l (.file ⟨Utf8.encode raw, archive⟩)) {s : Settings} {marker : Text}
    {cover : Cover} {layout : Layout} {outline : Outline}
    (h : ending (Deck.revisePage s marker cover page layout) t = (.ok outline, u)) :
    ∃ es, (Page.edits marker ⟨s.deckDirname cover.slug, cover.title, layout.outline⟩
      (Utf8.lineFeeds raw)).result = .ok es ∧
      (Edit.Apart es → ∃ bytes, u = t.put l (.file ⟨bytes, none⟩) ∧
        Edit.Rewrites raw (Edit.leftToRight es) bytes) := by
  rcases Deck.revisePage_cases hp s marker cover layout
    with ⟨g, hg⟩ | ⟨html, new, hread, hrevise, hend⟩
  · cases h.symm.trans hg
  obtain ⟨-, rfl⟩ := readLines_of_leads hp hp hread
  obtain rfl : u = t.put l (.file ⟨Utf8.encode new, none⟩) := congrArg Prod.snd (h.symm.trans hend)
  obtain ⟨es, he, hnew⟩ := Attempt.result_bind_eq_ok.1 hrevise
  obtain rfl : Edit.applyAll (Utf8.lineFeeds raw) es = new := Except.ok.inj hnew
  refine ⟨es, he, fun ha => ⟨_, rfl, ?_⟩⟩
  have hw : ∀ e ∈ es, Edit.Within (Utf8.lineFeeds raw).length e := fun e hm =>
    Page.within_of_replaces (Page.replaces_of_edits he) (List.mem_map_of_mem hm)
  rw [(Edit.keepsOutside_of_apart ha hw).2]
  exact Edit.rewrites_of_pairwise (fun e hm => (hw e (Edit.mem_leftToRight.1 hm)).1)
    (Edit.pairwise_of_apart ha hw)

/-- To strip a page of its links is to leave the links out of the file, if there are any to leave
out. -/
theorem rewrites_stripLinks (hp : t.Leads d.page l (.file ⟨Utf8.encode raw, archive⟩))
    (o : Outcome) :
    (d.stripLinks ⟨t, o⟩).1.result = .ok () ∧
      let cuts := removals d.settings.canonicalStylesheet (Utf8.lineFeeds raw)
      if cuts = [] then (d.stripLinks ⟨t, o⟩).2.tree = t
      else ∃ bytes, (d.stripLinks ⟨t, o⟩).2.tree = t.put l (.file ⟨bytes, none⟩) ∧
        Edit.Rewrites raw cuts bytes := by
  have hend := stripLinks_end (d := d) t o
  generalize d.stripLinks ⟨t, o⟩ = r at hend ⊢
  cases hend with
  | rests h =>
    obtain ⟨k, f, html, hk, hread, hclean⟩ := h
    obtain ⟨rfl, rfl⟩ := readLines_of_leads hp hk hread
    exact ⟨rfl, by rw [if_pos (Markup.Stylesheet.removals_eq_nil_iff.2 hclean)]⟩
  | changes h =>
    obtain ⟨k, f, html, hk, hread, hclean, rfl⟩ := h
    obtain ⟨rfl, rfl⟩ := readLines_of_leads hp hk hread
    refine ⟨rfl, ?_⟩
    rw [if_neg fun hnil => hclean (Markup.Stylesheet.removals_eq_nil_iff.1 hnil)]
    exact ⟨_, rfl, Markup.Stylesheet.rewrites_strip _ raw⟩
  | fails h =>
    refine absurd ?_ (h (Utf8.lineFeeds raw))
    rw [hp.readText_eq, Utf8.readLines_encode]
    rfl

/-- Outside of the spans that are replaced, a page keeps its bytes if and only if no carriage return
stands there: when it is revised, outside of the container's content, the title and the
configuration, if no two of these overlap, and when it is stripped, outside of the links that are
left out. A page without such links is not written at all. -/
theorem rewrites_page [Record.Nesting] (hp : t.Leads page l (.file ⟨Utf8.encode raw, archive⟩)) :
    (∀ s marker cover layout outline u, ending (Deck.revisePage s marker cover page layout) t =
      (.ok outline, u) →
      ∃ es, (Page.edits marker ⟨s.deckDirname cover.slug, cover.title, layout.outline⟩
        (Utf8.lineFeeds raw)).result = .ok es ∧
        Page.Replaces marker (Utf8.lineFeeds raw) (es.map Edit.span) ∧
        (Edit.Apart es → ∃ bytes, u = t.put l (.file ⟨bytes, none⟩) ∧
          Edit.Rewrites raw (Edit.leftToRight es) bytes)) ∧
    ∀ d : Deck, d.page = page → ∀ o, (d.stripLinks ⟨t, o⟩).1.result = .ok () ∧
      let cuts := removals d.settings.canonicalStylesheet (Utf8.lineFeeds raw)
      if cuts = [] then (d.stripLinks ⟨t, o⟩).2.tree = t
      else ∃ bytes, (d.stripLinks ⟨t, o⟩).2.tree = t.put l (.file ⟨bytes, none⟩) ∧
        Edit.Rewrites raw cuts bytes := by
  constructor
  · intro s marker cover layout outline u h
    obtain ⟨es, he, hbytes⟩ := rewrites_revisePage hp h
    exact ⟨es, he, Page.replaces_of_edits he, hbytes⟩
  · rintro d rfl o
    exact rewrites_stripLinks hp o

/-- A page with a container and a link, the lines of which end with a carriage return and a line
feed. -/
def pageWithReturns : Text := "<p class=slides></p>\r\n<link href='a.css'>\r\n".toList

/-- A deck with such a page. -/
def deckWithReturns : Tree where
  base := []
  entries := [(["deck".toList], .directory), sampleFile ["index.html".toList] pageWithReturns]

/-- Neither when it is revised nor when it is stripped is such a page kept. -/
theorem rewrites_page_with_returns :
    let page := ["deck".toList, "index.html".toList]
    deckWithReturns.Leads sampleDeck.page page (.file ⟨Utf8.encode pageWithReturns, none⟩) ∧
    (∃ outline es bytes,
      ending (Deck.revisePage sampleDeck.settings "SLConfig".toList ⟨['T'], ['x']⟩ sampleDeck.page
        []) deckWithReturns =
        (.ok outline, deckWithReturns.put page (.file ⟨bytes, none⟩)) ∧
      Edit.Rewrites pageWithReturns es bytes ∧
      bytes ≠ Utf8.encode (Edit.fill pageWithReturns (es.map (Edit.inFile pageWithReturns)) 0)) ∧
    ∃ es bytes, (sampleDeck.stripLinks ⟨deckWithReturns, { step := [] }⟩).1.result = .ok () ∧
      (sampleDeck.stripLinks ⟨deckWithReturns, { step := [] }⟩).2.tree =
        deckWithReturns.put page (.file ⟨bytes, none⟩) ∧
      Edit.Rewrites pageWithReturns es bytes ∧
      bytes ≠ Utf8.encode (Edit.fill pageWithReturns (es.map (Edit.inFile pageWithReturns)) 0) := by
  intro page
  have hp : deckWithReturns.Leads sampleDeck.page page
      (.file ⟨Utf8.encode pageWithReturns, none⟩) := rfl
  obtain ⟨hrevise, hstrip⟩ := rewrites_page hp
  refine ⟨hp, ?_, ?_⟩
  · obtain ⟨outline, hend⟩ := Action.exists_ending
      (m := Deck.revisePage sampleDeck.settings "SLConfig".toList ⟨['T'], ['x']⟩ sampleDeck.page [])
        (s := deckWithReturns)
      (by decide +kernel)
    obtain ⟨es, he, -, hbytes⟩ := hrevise _ _ _ _ _ _ hend
    have hes : (Page.edits "SLConfig".toList
        ⟨sampleDeck.settings.deckDirname ['x'], ['T'], Layout.outline []⟩
        (Utf8.lineFeeds pageWithReturns)).result = .ok [⟨⟨16, 16⟩, ['\n']⟩] :=
      Outcome.eq_ok_of_toOption (by decide +kernel)
    obtain rfl := Except.ok.inj (he.symm.trans hes)
    obtain ⟨bytes, hu, hr⟩ := hbytes (List.pairwise_singleton _ _)
    rw [Edit.leftToRight, List.mergeSort_singleton, List.reverse_singleton] at hr
    rw [hu] at hend
    have hm : "</p>\r\n<link href='a.css'>\r\n".toList ∈
        Edit.stretches pageWithReturns ([⟨⟨16, 16⟩, ['\n']⟩].map (Edit.inFile pageWithReturns))
          0 := by decide +kernel
    have hreturn : '\r' ∈ "</p>\r\n<link href='a.css'>\r\n".toList := by decide +kernel
    exact ⟨outline, _, bytes, hend, hr, fun hkept => hr.keeps_iff.1 hkept _ hm hreturn⟩
  · obtain ⟨hok, hcuts⟩ := hstrip sampleDeck rfl { step := [] }
    dsimp only at hcuts
    rw [if_neg (by decide +kernel)] at hcuts
    obtain ⟨bytes, hu, hr⟩ := hcuts
    exact ⟨_, bytes, hok, hu, hr,
      fun hkept => hr.keeps_iff.1 hkept "\r\n".toList (by decide +kernel) (by decide +kernel)⟩

end SlideDeck.Deck
