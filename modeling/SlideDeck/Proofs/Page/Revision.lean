import SlideDeck.Proofs.Config.Assignment
import SlideDeck.Proofs.Page.Frame
import SlideDeck.Proofs.Page.Sheet

/-!
# The revision of a written page

In a page whose container can be told (`IsSheet`), edits that lie apart are changes of up to three
elements: of the container, of the title's element or the head, and of a script (`exists_plan`).
-/

namespace SlideDeck.Page

open Markup

/-! ## Pages whose container can be told -/

/-- A page with a container that can be told from the rest of it. -/
structure IsSheet (marker : Text) (w : Written) (c : Site) : Prop where
  wellFormed : w.WellFormed
  first : (w.sites false [] [] []).find? isContainer = some c
  /-- The container has an end tag, is searched for its balanced tags, and is not the head. -/
  notVoid : c.label.name ∉ voidElements
  notRaw : isRawSpan c.label.name = false
  notHead : c.label.name ≠ "head".toList
  /-- No remark and no raw text in the container or in a head holds a tag of it. -/
  quiet : ∀ s ∈ w.sites false [] [] [], s = c ∨ s.label.name = "head".toList →
    s.filling.Quiet s.label.name
  /-- A script that mentions the variable stands in the container, if it stands in an element like
  the container. -/
  alone : ∀ s ∈ w.sites false [] [] [], mentions marker s = true → isInside c s = true →
    c.Encloses s.before.length

variable {marker slug title : Text} {fields : DeckFields} {layout : Layout} {w : Written}
  {c s : Site}

/-! ## The title -/

/-- A title in an element of its own. -/
def titlePage (title : Text) : Written := .element ⟨"title".toList, []⟩ (.ofTitle title) .nil

theorem render_titlePage (title : Text) :
    (titlePage title).render = "<title>".toList ++ escape title ++ "</title>".toList := by
  rw [titlePage, Written.render, Written.render_ofTitle]
  have h₁ : Label.start ⟨"title".toList, []⟩ = "<title>".toList := by decide
  have h₂ : Label.stop ⟨"title".toList, []⟩ = "</title>".toList := by decide
  rw [h₁, h₂, Written.render, List.append_nil, List.append_assoc]

theorem wellFormed_titlePage (title : Text) : (titlePage title).WellFormed :=
  ⟨⟨by decide, by decide, by decide, fun _ => Written.isLetters_ofTitle title⟩,
    Written.wellFormed_ofTitle title, trivial⟩

/-- What becomes of the title. -/
inductive TitleChange (w : Written) (title : Text) : List (Site × Change) → Prop where
  | title {t : Site} (ht : (w.sites false [] [] []).find? (isNamed "title".toList) = some t) :
    TitleChange w title [(t, .content (.ofTitle title))]
  | head {h : Site} (ht : (w.sites false [] [] []).find? (isNamed "title".toList) = none)
    (hh : (w.sites false [] [] []).find? (isNamed "head".toList) = some h) :
    TitleChange w title [(h, .more (titlePage title))]
  | missing (ht : (w.sites false [] [] []).find? (isNamed "title".toList) = none)
    (hh : (w.sites false [] [] []).find? (isNamed "head".toList) = none) : TitleChange w title []

/-- An element with content is filled with a page, if it is no raw element. -/
theorem exists_page (h : s.IsReadable) (hv : s.label.name ∉ voidElements)
    (hr : isRawElement s.label.name = false) :
    ∃ v, s.filling = .page v ∧ (isRawSpan s.label.name = true → v.IsLetters) := by
  obtain ⟨label, filling, before, behind, around, keeps⟩ := s
  obtain ⟨-, hf⟩ := h
  cases filling with
  | none => exact absurd hf hv
  | text t =>
    rw [hr] at hf
    exact absurd hf.1 Bool.false_ne_true
  | page v => exact ⟨v, rfl, hf.2.2.1⟩

/-- A title or a head is filled with a page, and a title with letters only. -/
theorem exists_page_of_titled (hw : w.WellFormed) (hs : s ∈ w.sites false [] [] [])
    (hn : s.label.name = "title".toList ∨ s.label.name = "head".toList) :
    ∃ v, s.filling = .page v ∧ (isRawSpan s.label.name = true → v.IsLetters) := by
  refine exists_page (Written.isReadable_of_mem_sites hw hs) ?_ ?_
  · rcases hn with hn | hn <;> rw [hn] <;> decide
  · rcases hn with hn | hn <;> rw [hn] <;> decide

/-- The container is filled with a page. -/
theorem IsSheet.exists_page (h : IsSheet marker w c) : ∃ v, c.filling = .page v := by
  have hraw : isRawElement c.label.name = false := by
    rw [← Bool.not_eq_true]
    intro hr
    have := isRawSpan_of_isRawElement hr
    rw [h.notRaw] at this
    cases this
  have hread := Written.isReadable_of_mem_sites h.wellFormed (List.mem_of_find?_eq_some h.first)
  obtain ⟨v, hv, -⟩ := Page.exists_page hread h.notVoid hraw
  exact ⟨v, hv⟩

/-- The span of the container is its content. -/
theorem IsSheet.span_container (h : IsSheet marker w c) :
    c.element.span w.render = .ok c.inner := by
  obtain ⟨v, hv⟩ := h.exists_page
  have hm := List.mem_of_find?_eq_some h.first
  exact (Written.span_of_mem_sites (t := v.render) h.wellFormed hm (by rw [hv]; rfl) fun _ =>
    h.quiet c hm (.inl rfl)).1

theorem name_of_find? {name : Text} (h : (w.sites false [] [] []).find? (isNamed name) = some s) :
    s.label.name = name := by
  have := List.find?_some h
  rwa [isNamed, decide_eq_true_eq] at this

/-- The edit of the title changes the title's element or the head. -/
theorem exists_titleChange (hw : w.WellFormed)
    (hq : ∀ s ∈ w.sites false [] [] [], s.label.name = "head".toList → s.filling.Quiet s.label.name)
    {e : Option Edit}
    (h : titleEdit? w.render title (elementsOf (w.nodes false .start none)) = .ok e) :
    ∃ l, TitleChange w title l ∧ e.toList = l.map fun x => x.2.edit x.1 := by
  rw [titleEdit?, named?_nodes, named?_nodes] at h
  have hspan {s : Site} (hs : s ∈ w.sites false [] [] []) {v : Written} (hv : s.filling = .page v)
      (hq : isRawSpan s.label.name = false → s.filling.Quiet s.label.name) :
      s.element.span w.render = .ok s.inner :=
    (Written.span_of_mem_sites (t := v.render) hw hs (by rw [hv]; rfl) hq).1
  cases ht : (w.sites false [] [] []).find? (isNamed "title".toList) with
  | some t =>
    have hm := List.mem_of_find?_eq_some ht
    have hn := name_of_find? ht
    obtain ⟨v, hv, -⟩ := exists_page_of_titled hw hm (.inl hn)
    have hs := hspan hm hv fun hf => by rw [hn] at hf; cases hf
    simp only [ht, Option.map_some, hs] at h
    cases h
    refine ⟨_, .title ht, ?_⟩
    rw [List.map_singleton, Change.edit, Written.render_ofTitle]
    rfl
  | none =>
    cases hh : (w.sites false [] [] []).find? (isNamed "head".toList) with
    | none =>
      simp only [ht, hh, Option.map_none] at h
      cases h
      exact ⟨_, .missing ht hh, rfl⟩
    | some d =>
      have hm := List.mem_of_find?_eq_some hh
      have hn := name_of_find? hh
      obtain ⟨v, hv, -⟩ := exists_page_of_titled hw hm (.inr hn)
      have hs := hspan hm hv fun _ => hq d hm hn
      simp only [ht, hh, Option.map_none, Option.map_some, hs] at h
      cases h
      refine ⟨_, .head ht hh, ?_⟩
      rw [List.map_singleton, Change.edit, render_titlePage]
      rfl

/-! ## The configuration -/

/-- What becomes of the configuration. -/
inductive ConfigChange [Record.Nesting] (marker : Text) (fields : DeckFields) (w : Written)
    (c : Site) : List (Site × Change) → Prop where
  | script {s : Site} {t new : Text} {config : Embedded}
    (hf : ((w.sites false [] [] []).find? fun s => mentions marker s && !isInside c s) = some s)
    (hs : s.filling = .text t) (hr : (Embedded.read marker t).result = .ok (some config))
    (hu : (config.update marker fields t).result = .ok new) :
    ConfigChange marker fields w c [(s, .text new)]
  | unread {s : Site} (hf : ((w.sites false [] [] []).find? fun s =>
      mentions marker s && !isInside c s) = some s)
    (hr : (Embedded.read marker (scriptText s)).result = .ok none) :
    ConfigChange marker fields w c []
  | missing (hf : ((w.sites false [] [] []).find? fun s => mentions marker s && !isInside c s) =
      none) :
    ConfigChange marker fields w c []

theorem scriptText_eq {t : Text} (h : s.filling = .text t) :
    scriptText s = if t = [] then [] else settled s.keeps t := by
  have hc : s.content = rawNodes s.keeps t := by rw [Site.content, h]
  rw [scriptText, hc, rawNodes]
  split <;> rfl

/-- A text that is not of blanks only is looked at as it is. -/
theorem scriptText_of_mem {t : Text} (h : s.filling = .text t) {d : Char} (hd : d ∈ t)
    (hb : Builder.isAsciiBlank d = false) :
    scriptText s = t := by
  have hall : t.all Builder.isAsciiBlank = false := List.all_eq_false.2 ⟨d, hd, by simp [hb]⟩
  rw [scriptText_eq h, if_neg (List.ne_nil_of_mem hd), settled, hall]
  cases s.keeps <;> rfl

/-- What is read as a configuration holds the letters of an assignment. -/
theorem mem_of_read [Record.Nesting] {script : Text} {config : Embedded}
    (h : (Embedded.read marker script).result = .ok (some config)) :
    'v' ∈ script := by
  rw [Embedded.read] at h
  cases ha : Assignment.find? marker script with
  | none =>
    rw [ha] at h
    cases h
  | some a => exact (Assignment.holds_of_find? ha).2

/-- A script whose text is read as a configuration is looked at as it is. -/
theorem scriptText_of_read [Record.Nesting] {t : Text} (h : s.filling = .text t) {config : Embedded}
    (hr : (Embedded.read marker (scriptText s)).result = .ok (some config)) : scriptText s = t := by
  have hv := mem_of_read hr
  rw [scriptText_eq h] at hv
  split at hv
  · cases hv
  · rw [settled] at hv
    split at hv
    · exact scriptText_of_mem h hv (by decide)
    · split at hv
      · split at hv
        · exact absurd hv (by decide)
        · exact absurd hv (by decide)
      · exact scriptText_of_mem h hv (by decide)

/-- A script of a page is filled with a text. -/
theorem exists_text (h : s.IsReadable) (hn : s.label.name = "script".toList) :
    ∃ t, s.filling = .text t := by
  obtain ⟨label, filling, before, behind, around, keeps⟩ := s
  obtain ⟨-, hf⟩ := h
  have hn : label.name = "script".toList := hn
  cases filling with
  | none =>
    have hf : label.name ∈ voidElements := hf
    rw [hn] at hf
    exact absurd hf (by decide)
  | text t => exact ⟨t, rfl⟩
  | page v =>
    have hf : isRawElement label.name = false := hf.2.1
    rw [hn] at hf
    cases hf

theorem name_of_mentions (h : mentions marker s = true) : s.label.name = "script".toList := by
  rw [mentions, isNamed, Bool.and_eq_true, decide_eq_true_eq] at h
  exact h.1

/-- The edit of the configuration changes a script. -/
theorem exists_configChange [Record.Nesting] (hw : w.WellFormed) {e : Option Edit}
    (h : (configEdit? w.render marker fields
      (scriptsOutside c.element (w.nodes false .start none))).result = .ok e) :
    ∃ l, ConfigChange marker fields w c l ∧ e.toList = l.map fun x => x.2.edit x.1 := by
  rw [configEdit?_eq_ok_iff, find?_scriptsOutside] at h
  cases hf : (w.sites false [] [] []).find? fun s => mentions marker s && !isInside c s with
  | none =>
    rw [hf] at h
    rcases h with ⟨-, rfl⟩ | ⟨_, _, _, h, -⟩
    · exact ⟨_, .missing hf, rfl⟩
    · cases h
  | some s =>
    rw [hf] at h
    rcases h with ⟨h, -⟩ | ⟨_, _, config, h, hr, hc⟩
    · cases h
    · cases h
      rcases hc with ⟨rfl, rfl⟩ | ⟨config, span, new, rfl, hs, hu, rfl⟩
      · exact ⟨_, .unread hf hr, rfl⟩
      · have hm := List.mem_of_find?_eq_some hf
        have hp := List.find?_some hf
        rw [Bool.and_eq_true] at hp
        have hn := name_of_mentions hp.1
        have hread := Written.isReadable_of_mem_sites hw hm
        obtain ⟨t, ht⟩ := exists_text hread hn
        rw [scriptText_of_read ht hr] at hr
        obtain ⟨hspan, hslice⟩ :=
          Written.span_of_mem_sites (t := t) hw hm (by rw [ht]; rfl) fun hf => by
          rw [hn] at hf
          cases hf
        cases hspan.symm.trans hs
        rw [hslice] at hu
        exact ⟨_, .script hf ht hr hu, rfl⟩

/-! ## All edits -/

theorem isOutlineText_slides (layout : Layout) (content : Text) :
    IsOutlineText (slides layout.outline content) := by
  have hb : ∀ d ∈ closingIndent content, Text.isBlank d = true :=
    fun d hd => (blank_of_mem_closingIndent hd).1
  have h₁ : IsOutlineText ['\n'] := .of_not_mem (by decide) (by decide)
  have h₂ : IsOutlineText (closingIndent content) :=
    .of_not_mem (fun h => absurd (hb _ h) (by decide)) (fun h => absurd (hb _ h) (by decide))
  exact (h₁.append layout.isOutlineText_outline).append h₂

/-- The changes of the container, of the title and of the configuration. -/
def planned (c : Site) (v : Written) (lt ls : List (Site × Change)) : List (Site × Change) :=
  (c, .content v) :: (lt ++ ls)

/-- The changes of a revision: the slides, the title and the configuration that it puts in. -/
structure Plan [Record.Nesting] (marker : Text) (content : Content) (w : Written) (c : Site)
    (v : Written) (lt ls : List (Site × Change)) : Prop where
  outline : v.IsOutline
  render : v.render = slides content.outline (c.inner.slice w.render)
  title : TitleChange w content.title lt
  config : ConfigChange marker content.fields w c ls
  changed : w.Changed (planned c v lt ls)

theorem TitleChange.spec {l : List (Site × Change)} (h : TitleChange w title l)
    (hw : w.WellFormed) :
    (∀ x ∈ l, x.1 ∈ w.sites false [] [] [] ∧ x.2.Suits x.1 ∧
      (x.1.label.name = "title".toList ∨ x.1.label.name = "head".toList)) ∧ l.length ≤ 1 := by
  cases h with
  | title ht =>
    have hm := List.mem_of_find?_eq_some ht
    have hn := name_of_find? ht
    obtain ⟨v, hv, -⟩ := exists_page_of_titled hw hm (.inl hn)
    refine ⟨fun x hx => ?_, Nat.le_refl _⟩
    rw [List.mem_singleton.1 hx]
    exact ⟨hm, ⟨⟨v, hv⟩, Written.wellFormed_ofTitle title,
      fun _ => Written.isLetters_ofTitle title⟩, .inl hn⟩
  | head ht hh =>
    have hm := List.mem_of_find?_eq_some hh
    have hn := name_of_find? hh
    obtain ⟨v, hv, -⟩ := exists_page_of_titled hw hm (.inr hn)
    refine ⟨fun x hx => ?_, Nat.le_refl _⟩
    rw [List.mem_singleton.1 hx]
    exact ⟨hm, ⟨⟨v, hv⟩, wellFormed_titlePage title, by rw [hn]; decide⟩, .inr hn⟩
  | missing ht hh => exact ⟨nofun, Nat.zero_le _⟩

theorem ConfigChange.spec [Record.Nesting] {l : List (Site × Change)}
    (h : ConfigChange marker fields w c l)
    (hend : ∀ x ∈ l, Text.search (skipEndTag "script".toList) (x.2.edit x.1).text = none) :
    (∀ x ∈ l, x.1 ∈ w.sites false [] [] [] ∧ x.2.Suits x.1 ∧ x.1.label.name = "script".toList) ∧
      l.length ≤ 1 := by
  cases h with
  | script hf hs hr hu =>
    have hm := List.mem_of_find?_eq_some hf
    have hp := List.find?_some hf
    rw [Bool.and_eq_true] at hp
    have hn := name_of_mentions hp.1
    refine ⟨fun x hx => ?_, Nat.le_refl _⟩
    have he := hend x hx
    rw [List.mem_singleton.1 hx] at he ⊢
    exact ⟨hm, ⟨⟨_, hs⟩, by rw [hn]; exact he⟩, hn⟩
  | unread => exact ⟨nofun, Nat.zero_le _⟩
  | missing => exact ⟨nofun, Nat.zero_le _⟩

theorem pairwise_of_length_le_one {α : Type} {r : α → α → Prop} {l : List α} (h : l.length ≤ 1) :
    l.Pairwise r := by
  match l, h with
  | [], _ => exact .nil
  | [a], _ => exact List.pairwise_singleton r a

/-- Elements of different names stand in different places. -/
theorem before_ne_of_name_ne {t : Site} (hs : s ∈ w.sites false [] [] [])
    (ht : t ∈ w.sites false [] [] []) (hn : s.label.name ≠ t.label.name) :
    s.before ≠ t.before := fun hb =>
  hn (congrArg (·.label.name) (Written.eq_of_before hs ht hb))

/-- The container, a title or a head, and a script have different names. -/
theorem IsSheet.distinct_planned (h : IsSheet marker w c) (v : Written)
    {lt ls : List (Site × Change)}
    (htitle : ∀ x ∈ lt, x.1 ∈ w.sites false [] [] [] ∧
      (x.1.label.name = "title".toList ∨ x.1.label.name = "head".toList))
    (hscript : ∀ x ∈ ls, x.1 ∈ w.sites false [] [] [] ∧ x.1.label.name = "script".toList)
    (hlt : lt.length ≤ 1) (hls : ls.length ≤ 1) :
    (planned c v lt ls).Pairwise fun x y => x.1.before ≠ y.1.before := by
  have hm := List.mem_of_find?_eq_some h.first
  refine List.pairwise_cons.2 ⟨fun x hx => ?_, List.pairwise_append.2
    ⟨pairwise_of_length_le_one hlt, pairwise_of_length_le_one hls, fun x hx y hy => ?_⟩⟩
  · rcases List.mem_append.1 hx with hx | hx
    · refine before_ne_of_name_ne hm (htitle x hx).1 fun hn => ?_
      rcases (htitle x hx).2 with hx | hx
      · exact absurd h.notRaw (by rw [hn, hx]; decide)
      · exact h.notHead (hn.trans hx)
    · exact before_ne_of_name_ne hm (hscript x hx).1 fun hn =>
        absurd h.notRaw (by rw [hn, (hscript x hx).2]; decide)
  · refine before_ne_of_name_ne (htitle x hx).1 (hscript y hy).1 fun hn => ?_
    rw [(hscript y hy).2] at hn
    rcases (htitle x hx).2 with hx | hx <;> exact absurd (hx.symm.trans hn) (by decide)

/-- Edits that lie apart are changes of the page. -/
theorem exists_plan [Record.Nesting] {content : Content} (h : IsSheet marker w c)
    (ho : content.outline = layout.outline) {es : List Edit}
    (he : (edits marker content w.render).result = .ok es) (ha : Edit.Apart es)
    (hend : ∀ l, ConfigChange marker content.fields w c l →
      ∀ x ∈ l, Text.search (skipEndTag "script".toList) (x.2.edit x.1).text = none) :
    ∃ v lt ls, Plan marker content w c v lt ls ∧
      es = (planned c v lt ls).map fun x => x.2.edit x.1 := by
  obtain ⟨document, container, slidesEdit, te, ce, hd, hc, hs, ht, hf, rfl⟩ := edits_eq_ok_iff.1 he
  cases (Written.parse_eq h.wellFormed).symm.trans hd
  rw [container?_nodes, h.first] at hc
  cases hc
  obtain ⟨lt, htc, hlt⟩ :=
    exists_titleChange h.wellFormed (fun s hs hn => h.quiet s hs (.inr hn)) ht
  obtain ⟨ls, hcc, hls⟩ := exists_configChange h.wellFormed hf
  obtain ⟨v, hv, hvr⟩ := isOutlineText_slides layout (c.inner.slice w.render)
  obtain ⟨u, hu⟩ := h.exists_page
  obtain ⟨span, hspan, hs⟩ := Outcome.bind_eq_ok.1 hs
  cases h.span_container.symm.trans hspan
  cases hs
  have hes : (⟨c.inner, slides content.outline (c.inner.slice w.render)⟩ : Edit) ::
      (te.toList ++ ce.toList)
      = (planned c v lt ls).map fun x => x.2.edit x.1 := by
    rw [planned, List.map_cons, List.map_append, ← hlt, ← hls, Change.edit, hvr, ho]
  obtain ⟨hts, htl⟩ := htc.spec h.wellFormed
  obtain ⟨hcs, hcl⟩ := hcc.spec (hend _ hcc)
  refine ⟨v, lt, ls, ⟨hv, by rw [hvr, ho], htc, hcc, ?mem, ?suits, ?distinct, hes ▸ ha⟩, hes⟩
  case mem =>
    refine List.forall_mem_cons.2
      ⟨List.mem_of_find?_eq_some h.first, List.forall_mem_append.2 ⟨?_, ?_⟩⟩
    · exact fun x hx => (hts x hx).1
    · exact fun x hx => (hcs x hx).1
  case suits =>
    refine List.forall_mem_cons.2
      ⟨⟨⟨u, hu⟩, hv.wellFormed, fun hr => ?_⟩, List.forall_mem_append.2 ⟨?_, ?_⟩⟩
    · rw [h.notRaw] at hr
      cases hr
    · exact fun x hx => (hts x hx).2.1
    · exact fun x hx => (hcs x hx).2.1
  case distinct =>
    exact h.distinct_planned v (fun x hx => ⟨(hts x hx).1, (hts x hx).2.2⟩)
      (fun x hx => ⟨(hcs x hx).1, (hcs x hx).2.2⟩)
      htl hcl

end SlideDeck.Page
