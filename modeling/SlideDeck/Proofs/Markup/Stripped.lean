import SlideDeck.Proofs.Layout.Written
import SlideDeck.Proofs.Markup.Kept
import SlideDeck.Proofs.Markup.Stylesheet

/-!
# Stripped pages

A page is stripped as a text, without regard to its elements. If every link that starts in a piece
of the page ends in it (`Written.IsStrippable`), the page is stripped piece by piece
(`Written.strip_render`): an element without content may go as a whole, a raw text may lose some of
its text, and everything else stays (`Written.stripped`). What is searched for among the elements
and is not gone is found again (`Written.find?_stripped`).
-/

namespace SlideDeck.Markup

open Stylesheet (IsLinkless opening settles strip)

variable {keep : Text} {l : Label}

namespace Label

theorem not_mem_start (h : l.IsReadable) :
    '<' ∉ l.name ++ (writeAttributes l.attributes ++ ['>']) := by
  have h₁ := Tag.Passes.not_mem_of_isTagName (c := '<') (by decide) h.1
  have h₂ := Tag.Passes.not_mem_writeAttributes (c := '<') (by decide) (by decide) (by decide)
      (by decide) h.isPlain h.not_mem
  simp [h₁, h₂]

/-- The tag of an element is no link tag if its name does not start like that of a link. -/
theorem isLinkless_start (h : l.IsReadable)
    (hn : Text.startsWithLetters "link".toList l.name = false) :
    IsLinkless l.start := by
  have hstart : l.start = '<' :: (l.name ++ (writeAttributes l.attributes ++ ['>'])) := by
    simp [start, StartTag.write]
  have hbehind : ∃ d r, writeAttributes l.attributes ++ ['>'] = d :: r ∧ (d = ' ' ∨ d = '>') := by
    cases l.attributes with
    | nil => exact ⟨'>', [], rfl, .inr rfl⟩
    | cons x attributes => exact ⟨' ', _, rfl, .inl rfl⟩
  rw [hstart]
  refine Stylesheet.isLinkless_cons (not_mem_start h) ?_
  obtain ⟨d, r, hr, hd⟩ := hbehind
  rw [hr, startsWithLetters_append_of_ne ?_, hn]
  rcases hd with rfl | rfl <;> exact Stylesheet.sameLetter_of_all (by decide)

theorem isLinkless_stop (h : l.IsReadable) : IsLinkless l.stop := by
  have hname := Tag.Passes.not_mem_of_isTagName (c := '<') (by decide) h.1
  have hstop : l.stop = '<' :: '/' :: (l.name ++ ['>']) := by simp [stop, writeEnd]
  rw [hstop]
  exact Stylesheet.isLinkless_cons (by simp [hname]) rfl

theorem isBlunt_stop (h : l.IsReadable) (rest : Text) : Stylesheet.IsBlunt (l.stop ++ rest) := by
  have hname := Tag.Passes.not_mem_of_isTagName (c := '=') (by decide) h.1
  have hstop : l.stop ++ rest = '<' :: ('/' :: l.name) ++ '>' :: rest := by simp [stop, writeEnd]
  rw [hstop]
  exact Stylesheet.isBlunt_of_not_mem (by simp [hname]) rest

end Label

namespace Written

variable {v w : Written}

/-- No link that starts in a piece of the page runs on behind it. Of the tags, only those of
elements without content are links; these go as a whole or stay. A raw text does not end before its
end tag when its links are gone. -/
def IsStrippable (keep : Text) : Written → Prop
  | .nil => True
  | .letter _ next => next.IsStrippable keep
  | .remark r next => (settles r.render = true ∧ strip keep r.render = r.render) ∧
      next.IsStrippable keep
  | .void l next =>
    (settles l.start = true ∧ (strip keep l.start = l.start ∨ strip keep l.start = [])) ∧
      next.IsStrippable keep
  | .raw l t next =>
    (IsLinkless l.start ∧ settles t = true ∧ Text.search (skipEndTag l.name) (strip keep t) =
      none) ∧
      next.IsStrippable keep
  | .element l content next => IsLinkless l.start ∧ content.IsStrippable keep ∧
      next.IsStrippable keep

instance decidableIsStrippable (keep : Text) : (w : Written) → Decidable (w.IsStrippable keep)
  | .nil => inferInstanceAs (Decidable True)
  | .letter _ next => decidableIsStrippable keep next
  | .remark _ next =>
    have := decidableIsStrippable keep next
    inferInstanceAs (Decidable (_ ∧ _))
  | .void _ next =>
    have := decidableIsStrippable keep next
    inferInstanceAs (Decidable (_ ∧ _))
  | .raw _ _ next =>
    have := decidableIsStrippable keep next
    inferInstanceAs (Decidable (_ ∧ _))
  | .element _ content next =>
    have := decidableIsStrippable keep content
    have := decidableIsStrippable keep next
    inferInstanceAs (Decidable (_ ∧ _ ∧ _))

/-- A page without its links. -/
def stripped (keep : Text) : Written → Written
  | .nil => .nil
  | .letter l next => .letter l (next.stripped keep)
  | .remark r next => .remark r (next.stripped keep)
  | .void l next => if strip keep l.start = [] then next.stripped keep
      else .void l (next.stripped keep)
  | .raw l t next => .raw l (strip keep t) (next.stripped keep)
  | .element l content next => .element l (content.stripped keep) (next.stripped keep)

/-- A tag or a remark whose links are settled is stripped on its own. -/
theorem strip_append_of_settles {a : Text} (h : settles a = true) (ha : ∃ z, a = z ++ ['>'])
    (rest : Text) :
    strip keep (a ++ rest) = strip keep a ++ strip keep rest :=
  Stylesheet.strip_append (Stylesheet.apart_of_settles h (.inl ha)) keep

/-- A tag that is no link stays. -/
theorem strip_append_of_isLinkless {a : Text} (h : IsLinkless a) (ha : ∃ z, a = z ++ ['>'])
    (rest : Text) :
    strip keep (a ++ rest) = a ++ strip keep rest := by
  rw [strip_append_of_settles (Stylesheet.settles_of_isLinkless h) ha,
    Stylesheet.strip_of_isLinkless h]

/-- The text of a page is stripped piece by piece. -/
theorem strip_render_append (hw : w.WellFormed) (h : w.IsStrippable keep) (rest : Text) :
    strip keep (w.render ++ rest) = (w.stripped keep).render ++ strip keep rest := by
  induction w generalizing rest with
  | nil => rfl
  | letter l next ih =>
    have hl := Letter.not_mem_render hw.1
    rw [render, List.append_assoc, Stylesheet.strip_append (Stylesheet.apart_of_not_mem hl _),
      ih hw.2 h,
      Stylesheet.strip_of_isLinkless (Stylesheet.isLinkless_of_not_mem hl), stripped, render,
      List.append_assoc]
  | remark r next ih =>
    obtain ⟨⟨hr, hstays⟩, hnext⟩ := h
    rw [render, List.append_assoc, strip_append_of_settles hr ⟨_, rfl⟩, ih hw.2 hnext, hstays,
      stripped, render, List.append_assoc]
  | void l next ih =>
    obtain ⟨⟨hl, hstays⟩, hnext⟩ := h
    rw [render, List.append_assoc, strip_append_of_settles hl ⟨_, rfl⟩, ih hw.2 hnext, stripped]
    rcases hstays with hstays | hgone
    · rw [hstays, if_neg l.start_ne_nil, render, List.append_assoc]
    · rw [hgone, if_pos rfl, List.nil_append]
  | raw l t next ih =>
    obtain ⟨⟨hl, ht, -⟩, hnext⟩ := h
    obtain ⟨⟨hread, -⟩, hw⟩ := hw
    have hraw : Stylesheet.Apart t (l.stop ++ (next.render ++ rest)) :=
      Stylesheet.apart_of_settles ht (.inr (Label.isBlunt_stop hread _))
    simp only [render, stripped, List.append_assoc]
    rw [strip_append_of_isLinkless hl ⟨_, rfl⟩, Stylesheet.strip_append hraw,
      strip_append_of_isLinkless (Label.isLinkless_stop hread) ⟨_, rfl⟩, ih hw hnext]
  | element l content next ihc ihn =>
    obtain ⟨hl, hc, hnext⟩ := h
    obtain ⟨⟨hread, -⟩, hwc, hw⟩ := hw
    simp only [render, stripped, List.append_assoc]
    rw [strip_append_of_isLinkless hl ⟨_, rfl⟩, ihc hwc hc,
      strip_append_of_isLinkless (Label.isLinkless_stop hread) ⟨_, rfl⟩, ihn hw hnext]

theorem strip_render (hw : w.WellFormed) (h : w.IsStrippable keep) :
    strip keep w.render = (w.stripped keep).render := by
  have := strip_render_append hw h []
  rwa [List.append_nil, show strip keep [] = [] from rfl, List.append_nil] at this

theorem IsLetters.stripped_eq (h : w.IsLetters) : w.stripped keep = w := by
  induction w with
  | nil => rfl
  | letter l next ih => rw [stripped, ih h]
  | remark | void | raw | element => exact h.elim

theorem WellFormed.stripped (hw : w.WellFormed) (h : w.IsStrippable keep) :
    (w.stripped keep).WellFormed := by
  induction w with
  | nil => trivial
  | letter l next ih => exact ⟨hw.1, ih hw.2 h⟩
  | remark r next ih => exact ⟨hw.1, ih hw.2 h.2⟩
  | void l next ih =>
    rw [Written.stripped]
    split
    · exact ih hw.2 h.2
    · exact ⟨hw.1, ih hw.2 h.2⟩
  | raw l t next ih => exact ⟨⟨hw.1.1, hw.1.2.1, h.1.2.2⟩, ih hw.2 h.2⟩
  | element l content next ihc ihn =>
    obtain ⟨⟨hl, hv, hr, hs⟩, hc, hn⟩ := hw
    refine ⟨⟨hl, hv, hr, fun h => ?_⟩, ihc hc h.2.1, ihn hn h.2.2⟩
    rw [(hs h).stripped_eq]
    exact hs h

/-! ## Pages that are strippable -/

theorem IsLetters.isStrippable (h : w.IsLetters) : w.IsStrippable keep := by
  induction w with
  | nil => trivial
  | letter l next ih => exact ih h
  | remark | void | raw | element => exact h.elim

theorem IsOutline.isStrippable (h : w.IsOutline) : w.IsStrippable keep := by
  have hall : ∀ name ∈ outlineNames, Text.startsWithLetters "link".toList name = false := by decide
  induction w with
  | nil => trivial
  | letter l next ih => exact ih h.2
  | element l content next ihc ihn =>
      exact ⟨Label.isLinkless_start h.1.1 (hall _ h.1.2), ihc h.2.1, ihn h.2.2⟩
  | remark | void | raw => exact h.elim

theorem IsOutline.stripped_eq (h : w.IsOutline) : w.stripped keep = w := by
  induction w with
  | nil => rfl
  | letter l next ih => rw [stripped, ih h.2]
  | element l content next ihc ihn => rw [stripped, ihc h.2.1, ihn h.2.2]
  | remark | void | raw => exact h.elim

theorem IsStrippable.append (hv : v.IsStrippable keep) (hw : w.IsStrippable keep) :
    (v.append w).IsStrippable keep := by
  induction v with
  | nil => exact hw
  | letter l next ih => exact ih hv
  | remark r next ih => exact ⟨hv.1, ih hv.2⟩
  | void l next ih => exact ⟨hv.1, ih hv.2⟩
  | raw l t next ih => exact ⟨hv.1, ih hv.2⟩
  | element l content next _ ih => exact ⟨hv.1, hv.2.1, ih hv.2.2⟩

/-- A changed page is strippable if the page is, and if what is new in it is. -/
theorem IsStrippable.change {f : Changes} (h : w.IsStrippable keep) (keeps : Bool) {before : Text}
    (behind : Text) (around : List Element)
    (hcontent : ∀ b c, f.content b = some c → c.IsStrippable keep)
    (hmore : ∀ b m, f.more b = some m → m.IsStrippable keep)
    (htext : ∀ s ∈ w.sites keeps before behind around, ∀ u, f.text s.before = some u →
      settles u = true ∧ Text.search (skipEndTag s.label.name) (strip keep u) = none) :
    (w.change f before).IsStrippable keep := by
  induction w generalizing keeps before behind around with
  | nil => trivial
  | letter l next ih => exact ih h _ _ _ htext
  | remark r next ih => exact ⟨h.1, ih h.2 _ _ _ htext⟩
  | void l next ih => exact ⟨h.1, ih h.2 _ _ _ fun s hs => htext s (List.mem_cons_of_mem _ hs)⟩
  | raw l t next ih =>
    obtain ⟨⟨hl, ht⟩, hnext⟩ := h
    refine ⟨⟨hl, ?_⟩, ih hnext _ _ _ fun s hs => htext s (List.mem_cons_of_mem _ hs)⟩
    cases hu : f.text before with
    | none => exact ht
    | some u => exact htext _ (List.mem_cons_self ..) u hu
  | element l content next ihc ihn =>
    obtain ⟨hl, hc, hnext⟩ := h
    have hmore' : ((f.more before).getD .nil).IsStrippable keep := by
      cases hm : f.more before with
      | none => trivial
      | some m => exact hmore _ m hm
    have hinner :
        ((f.content before).getD (content.change f (before ++ l.start))).IsStrippable keep := by
      cases hcb : f.content before with
      | some c => exact hcontent _ c hcb
      | none =>
        exact ihc hc _ _ _ fun s hs => htext s (List.mem_cons_of_mem _ (List.mem_append_left _ hs))
    refine ⟨hl, hinner.append hmore', ihn hnext keeps behind around fun s hs => ?_⟩
    exact htext s (List.mem_cons_of_mem _ (List.mem_append_right _ hs))

end Written

/-! ## The elements of a stripped page -/

/-- What an element is filled with when the page is stripped. -/
def Filling.stripped (keep : Text) : Filling → Filling
  | .none => .none
  | .text t => .text (strip keep t)
  | .page w => .page (w.stripped keep)

/-- An element of the stripped page that comes of an element of the page. -/
structure Site.Strips (keep : Text) (s s' : Site) : Prop where
  label : s'.label = s.label
  keeps : s'.keeps = s.keeps
  filling : s'.filling = s.filling.stripped keep

/-- The first element of some kind in the stripped page comes of the first one in the page, unless
that one has no content. -/
theorem Written.find?_stripped {w : Written} {p : Site → Bool} {keeps : Bool}
    {before behind before' behind' : Text} {around around' : List Element}
    (hsame : ∀ s ∈ w.sites keeps before behind around, ∀ s', s.Strips keep s' → p s' = p s)
    (hfilled : ∀ s, (w.sites keeps before behind around).find? p = some s → s.filling ≠ .none) :
    Option.Rel (Site.Strips keep) ((w.sites keeps before behind around).find? p)
      (((w.stripped keep).sites keeps before' behind' around').find? p) := by
  induction w generalizing keeps before behind around before' behind' around' with
  | nil => exact .none
  | letter l next ih => exact ih hsame hfilled
  | remark r next ih => exact ih hsame hfilled
  | void l next ih =>
    -- An element without content is not what is searched for, be it gone or not.
    have hp : p ⟨l, .none, before, next.render ++ behind, around, keeps⟩ = false := by
      refine Bool.eq_false_iff.2 fun hp => ?_
      rw [sites, List.find?_cons_of_pos hp] at hfilled
      exact hfilled _ rfl rfl
    rw [sites, List.find?_cons_of_neg (by simp [hp])] at hfilled ⊢
    have ih {b b' : Text} {a : List Element} := @ih keeps (before ++ l.start) behind b b' around a
      (fun s hs => hsame s (List.mem_cons_of_mem _ hs)) hfilled
    rw [stripped]
    split
    · exact ih
    · have hb : Site.Strips keep ⟨l, .none, before, next.render ++ behind, around, keeps⟩
        ⟨l, .none, before', (next.stripped keep).render ++ behind', around', keeps⟩ :=
      ⟨rfl, rfl, rfl⟩
      rw [sites, List.find?_cons_of_neg]
      · exact ih
      · rw [hsame _ (List.mem_cons_self ..) _ hb, hp]
        exact Bool.false_ne_true
  | raw l t next ih =>
    have hb : Site.Strips keep ⟨l, .text t, before, next.render ++ behind, around, keeps⟩
        ⟨l, .text (strip keep t), before', (next.stripped keep).render ++ behind', around',
          keeps⟩ := ⟨rfl, rfl, rfl⟩
    refine rel_find?_cons hb (hsame _ (List.mem_cons_self ..) _ hb) fun hp => ih ?_ ?_
    · exact fun s hs => hsame s (List.mem_cons_of_mem _ hs)
    · rwa [sites, List.find?_cons_of_neg (by simp [hp])] at hfilled
  | element l content next ihc ihn =>
    let s : Site := ⟨l, .page content, before, next.render ++ behind, around, keeps⟩
    let s' : Site :=
      ⟨l, .page (content.stripped keep), before', (next.stripped keep).render ++ behind', around',
        keeps⟩
    have hb : s.Strips keep s' := ⟨rfl, rfl, rfl⟩
    refine rel_find?_cons hb (hsame s (List.mem_cons_self ..) s' hb) fun hp => ?_
    rw [sites, List.find?_cons_of_neg (by simp [hp]), List.find?_append] at hfilled
    rw [List.find?_append, List.find?_append]
    refine rel_or (ihc (fun t ht => ?_) fun t ht => ?_) fun hnone =>
      ihn (fun t ht => ?_) fun t ht => ?_
    · exact hsame t (List.mem_cons_of_mem _ (List.mem_append_left _ ht))
    · exact hfilled t (by rw [ht, Option.some_or])
    · exact hsame t (List.mem_cons_of_mem _ (List.mem_append_right _ ht))
    · exact hfilled t (by rw [hnone, Option.none_or, ht])

theorem Written.exists_find?_stripped {w : Written} {p : Site → Bool} {s : Site}
    (hsame : ∀ s ∈ w.sites false [] [] [], ∀ s', s.Strips keep s' → p s' = p s)
    (hf : (w.sites false [] [] []).find? p = some s) (hs : s.filling ≠ .none) :
    ∃ s', ((w.stripped keep).sites false [] [] []).find? p = some s' ∧ s.Strips keep s' := by
  have hrel : Option.Rel (Site.Strips keep) ((w.sites false [] [] []).find? p)
      (((w.stripped keep).sites false [] [] []).find? p) := find?_stripped hsame fun t ht => by
    rw [hf] at ht
    cases ht
    exact hs
  rw [hf] at hrel
  generalize ((w.stripped keep).sites false [] [] []).find? p = found at hrel
  cases hrel with
  | some hb => exact ⟨_, rfl, hb⟩

theorem Written.find?_stripped_eq_none {w : Written} {p : Site → Bool}
    (hsame : ∀ s ∈ w.sites false [] [] [], ∀ s', s.Strips keep s' → p s' = p s)
    (hf : (w.sites false [] [] []).find? p = none) :
    ((w.stripped keep).sites false [] [] []).find? p = none := by
  have hrel : Option.Rel (Site.Strips keep) ((w.sites false [] [] []).find? p)
      (((w.stripped keep).sites false [] [] []).find? p) := find?_stripped hsame fun t ht => by
    rw [hf] at ht
    cases ht
  rw [hf] at hrel
  generalize ((w.stripped keep).sites false [] [] []).find? p = found at hrel ⊢
  cases hrel with
  | none => rfl

end SlideDeck.Markup
