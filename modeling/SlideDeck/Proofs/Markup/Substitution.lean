import Mathlib.Algebra.BigOperators.Group.List.Basic
import Mathlib.Algebra.Ring.Int.Defs
import Mathlib.Data.List.Nodup
import SlideDeck.Proofs.Markup.Splice

/-!
# Edits as one substitution

Edits of different spans that do not overlap stand in one order from left to right
(`eq_of_inOrder`). To make them one after the other, from the last to the first, is to substitute
all spans at once: what comes of them are the stretches of the text between the spans and the
replacements, in that order, however the edits were collected. A replacement is then found where its
span started, further on or back by what the edits before it have added or taken away
(`applyAll_substitutes`). If all edits but one put in what stands in their spans, only that one need
be made (`applyAll_of_isIdle_of_perm`).
-/

namespace SlideDeck.Markup.Edit

variable {html : Text} {edits es fs : List Edit}

/-- Edits from left to right: each stops before the next one starts. -/
def InOrder (es : List Edit) : Prop := es.Pairwise fun a b => a.span.stop ≤ b.span.start

instance (es : List Edit) : Decidable (InOrder es) := inferInstanceAs (Decidable (es.Pairwise _))

/-- By how much an edit makes a text longer. -/
def gain (e : Edit) : Int := e.text.length - (e.span.stop - e.span.start)

/-- Edits of different spans are told by their spans. -/
theorem eq_of_span_eq (hd : edits.Pairwise fun a b => a.span ≠ b.span) {a b : Edit} (ha : a ∈ edits)
    (hb : b ∈ edits) (h : a.span = b.span) : a = b :=
  List.inj_on_of_nodup_map (List.pairwise_map.2 hd) ha hb h

/-- Edits of different spans have one order from left to right. -/
theorem eq_of_inOrder (hw : ∀ e ∈ edits, Within html.length e)
    (hd : edits.Pairwise fun a b => a.span ≠ b.span) (hes : es.Perm edits) (hfs : fs.Perm edits)
    (he : InOrder es) (hf : InOrder fs) : es = fs := by
  refine (hes.trans hfs.symm).eq_of_pairwise (fun a b ha hb hab hba => ?_) he hf
  have ha := hes.subset ha
  have hb := hfs.subset hb
  have hwa := (hw a ha).1
  have hwb := (hw b hb).1
  -- Each of the two spans stops before the other one starts, so both are empty and at the same
  -- place.
  have hstart : a.span.start = b.span.start := by omega
  have hstop : a.span.stop = b.span.stop := by omega
  exact eq_of_span_eq hd ha hb (congrArg₂ Span.mk hstart hstop)

/-- Edits that do not overlap fill the text from left to right, in whatever order they were
collected. -/
theorem applyAll_of_perm (hw : ∀ e ∈ edits, Within html.length e)
    (hd : edits.Pairwise fun a b => a.span ≠ b.span) (ha : Apart edits) (hes : es.Perm edits) :
    applyAll html es = fill html (leftToRight edits) 0 := by
  have hw' : ∀ e ∈ es, Within html.length e := fun e he => hw e (hes.subset he)
  have ha' : Apart es := (hes.pairwise_iff fun h => h.symm).2 ha
  rw [(keepsOutside_of_apart ha' hw').2,
    eq_of_inOrder hw hd ((perm_leftToRight es).trans hes) (perm_leftToRight edits)
    (pairwise_of_apart ha' hw') (pairwise_of_apart ha hw)]

/-! ## Before and behind one of the edits -/

/-- The text up to one of the edits is that of the edits before it. -/
theorem fill_append_cons {before after : List Edit} {e : Edit} (ho : InOrder (before ++ e :: after))
    (hw : ∀ f ∈ before, f.span.start ≤ f.span.stop) (p : Nat) :
    fill html (before ++ e :: after) p = fill (html.take e.span.start) before p ++ e.text ++
      fill html after e.span.stop := by
  induction before generalizing p with
  | nil => rfl
  | cons f before ih =>
    obtain ⟨hf, ho⟩ := List.pairwise_cons.1 ho
    have hle : f.span.start ≤ e.span.start :=
      Nat.le_trans (hw f (List.mem_cons_self ..)) (hf e (by simp))
    rw [List.cons_append, fill, fill, ih ho fun g hg => hw g (List.mem_cons_of_mem _ hg),
      List.take_take, Nat.min_eq_left hle]
    simp only [List.append_assoc]

theorem length_fill {p : Nat} (hw : ∀ e ∈ es, Within html.length e) (ho : InOrder es)
    (hp : ∀ e ∈ es, p ≤ e.span.start) (hle : p ≤ html.length) :
    ((fill html es p).length : Int) = html.length - p + (es.map gain).sum := by
  induction es generalizing p with
  | nil =>
    simp only [fill, List.length_drop, List.map_nil, List.sum_nil]
    omega
  | cons e es ih =>
    obtain ⟨he, ho⟩ := List.pairwise_cons.1 ho
    obtain ⟨hspan, hstop⟩ := hw e (List.mem_cons_self ..)
    have hstart := hp e (List.mem_cons_self ..)
    have ih := ih (fun f hf => hw f (List.mem_cons_of_mem _ hf)) ho he hstop
    simp only [fill, List.length_append, List.length_drop, List.length_take, List.map_cons,
      List.sum_cons, gain]
    omega

/-- Edits of different spans that do not overlap are one substitution. They have one order from left
to right; however they were collected, what comes of them is the text with all spans replaced at
once; and the replacement of each of them stands behind what the edits before it make of the text
before its span, that is where its span started, moved by what they add. -/
theorem applyAll_substitutes (hw : ∀ e ∈ edits, Within html.length e)
    (ha : edits.Pairwise fun a b =>
      a.span ≠ b.span ∧ (a.span.stop ≤ b.span.start ∨ b.span.stop ≤ a.span.start)) :
    ∃ order, order.Perm edits ∧ InOrder order ∧
      (∀ other, other.Perm edits → InOrder other → other = order) ∧
      (∀ collected, collected.Perm edits → applyAll html collected = fill html order 0) ∧
      ∀ before e after, order = before ++ e :: after →
        ∃ left, applyAll html edits = left ++ e.text ++ fill html after e.span.stop ∧
          left = fill (html.take e.span.start) before 0 ∧
          (left.length : Int) = e.span.start + (before.map gain).sum := by
  have hd : edits.Pairwise fun a b => a.span ≠ b.span := ha.imp fun h => h.1
  have hapart : Apart edits := ha.imp fun h => h.2
  have hperm := perm_leftToRight edits
  have horder : InOrder (leftToRight edits) := pairwise_of_apart hapart hw
  refine ⟨leftToRight edits, hperm, horder,
    fun other ho hi => eq_of_inOrder hw hd ho hperm hi horder,
    fun collected hc => applyAll_of_perm hw hd hapart hc, fun before e after hsplit =>
      ⟨_, ?_, rfl, ?_⟩⟩
  · have hle : ∀ f ∈ before, f.span.start ≤ f.span.stop := fun f hf =>
      (hw f (hperm.subset (by rw [hsplit]; exact List.mem_append_left _ hf))).1
    rw [applyAll_of_perm hw hd hapart (.refl _), hsplit, fill_append_cons (hsplit ▸ horder) hle]
  · have hwe := hw e (hperm.subset (by rw [hsplit]; simp))
    have hstart : (html.take e.span.start).length = e.span.start :=
      List.length_take_of_le (Nat.le_trans hwe.1 hwe.2)
    rw [hsplit] at horder
    obtain ⟨hbefore, -, hcross⟩ := List.pairwise_append.1 horder
    -- The edits before this one lie in the text before its span.
    have hwb : ∀ f ∈ before, Within (html.take e.span.start).length f := fun f hf => by
      rw [hstart]
      exact ⟨(hw f (hperm.subset (by rw [hsplit]; exact List.mem_append_left _ hf))).1,
        hcross f hf e (List.mem_cons_self ..)⟩
    have hlength := length_fill hwb hbefore (fun _ _ => Nat.zero_le _) (Nat.zero_le _)
    rw [hstart] at hlength
    rw [hlength]
    omega

/-- An insertion and a replacement at one place, and a longer text further to the left, collected in
any order. -/
theorem applyAll_substitutes_at_one_place :
    let html := "abcdef".toList
    let edits : List Edit := [⟨⟨2, 4⟩, []⟩, ⟨⟨0, 1⟩, "wxyz".toList⟩, ⟨⟨2, 2⟩, ['-']⟩]
    (∀ e ∈ edits, Within html.length e) ∧
      (edits.Pairwise fun a b => a.span ≠ b.span ∧
        (a.span.stop ≤ b.span.start ∨ b.span.stop ≤ a.span.start)) ∧
      ∀ collected, collected.Perm edits → applyAll html collected = "wxyzb-ef".toList := by
  have hw : ∀ e ∈ [(⟨⟨2, 4⟩, []⟩ : Edit), ⟨⟨0, 1⟩, "wxyz".toList⟩, ⟨⟨2, 2⟩, ['-']⟩],
      Within "abcdef".toList.length e := by
    simp [Within]
  have ha : [(⟨⟨2, 4⟩, []⟩ : Edit), ⟨⟨0, 1⟩, "wxyz".toList⟩, ⟨⟨2, 2⟩, ['-']⟩].Pairwise fun a b =>
      a.span ≠ b.span ∧ (a.span.stop ≤ b.span.start ∨ b.span.stop ≤ a.span.start) := by decide
  obtain ⟨order, -, -, honly, happly, -⟩ := applyAll_substitutes hw ha
  obtain rfl :=
    honly [⟨⟨0, 1⟩, "wxyz".toList⟩, ⟨⟨2, 2⟩, ['-']⟩, ⟨⟨2, 4⟩, []⟩] (by decide) (by decide)
  exact ⟨hw, ha, happly⟩

/-! ## Edits of which all but one change nothing -/

theorem IsIdle.drop_eq {e : Edit} {p : Nat} (h : IsIdle html e) (hp : p ≤ e.span.start) :
    (html.take e.span.start).drop p ++ e.text ++ html.drop e.span.stop = html.drop p := by
  have happly := congrArg (List.drop p) h.apply_eq
  rw [apply, List.append_assoc, List.drop_append, List.length_take] at happly
  rcases Nat.le_total e.span.start html.length with hle | hle
  · rwa [Nat.min_eq_left hle, Nat.sub_eq_zero_of_le hp, List.drop_zero, ← List.append_assoc]
      at happly
  · -- Nothing stands in the span or behind it.
    have htext : e.text = [] := by
      rw [← h.2, Span.slice, List.drop_eq_nil_of_le (by rw [List.length_take]; omega)]
    rw [htext, List.append_nil, List.take_of_length_le hle,
      List.drop_eq_nil_of_le (Nat.le_trans hle h.1), List.append_nil]

theorem fill_of_isIdle {p : Nat} (ho : InOrder es) (hp : ∀ e ∈ es, p ≤ e.span.start)
    (h : ∀ e ∈ es, IsIdle html e) :
    fill html es p = html.drop p := by
  induction es generalizing p with
  | nil => rfl
  | cons e es ih =>
    obtain ⟨he, ho⟩ := List.pairwise_cons.1 ho
    rw [fill, ih ho he fun f hf => h f (List.mem_cons_of_mem _ hf)]
    exact (h e (List.mem_cons_self ..)).drop_eq (hp e (List.mem_cons_self ..))

theorem IsIdle.take {e : Edit} {n : Nat} (h : IsIdle html e) (hn : e.span.stop ≤ n) :
    IsIdle (html.take n) e := by
  refine ⟨h.1, ?_⟩
  rw [← h.2, Span.slice, Span.slice, List.take_take, Nat.min_eq_left hn]

theorem apply_eq_self_iff {e : Edit} (hw : Within html.length e) : apply html e = html ↔
    IsIdle html e := by
  refine ⟨fun h => ⟨hw.1, ?_⟩, IsIdle.apply_eq⟩
  have hcut : apply html ⟨e.span, e.span.slice html⟩ = html := IsIdle.apply_eq ⟨hw.1, rfl⟩
  exact List.append_cancel_left (List.append_cancel_right (hcut.trans h.symm))

/-- If all edits but one change nothing, the others need not be made. -/
theorem applyAll_of_isIdle_of_perm {e : Edit} (hw : ∀ f ∈ edits, Within html.length f)
    (ha : Apart edits) (hp : edits.Perm (e :: es)) (h : ∀ f ∈ es, IsIdle html f) :
    applyAll html edits = apply html e := by
  obtain ⟨before, after, hl⟩ :=
    List.append_of_mem (mem_leftToRight.2 (hp.mem_iff.2 (List.mem_cons_self ..)))
  have ho : InOrder (before ++ e :: after) := hl ▸ pairwise_of_apart ha hw
  have hothers : (before ++ after).Perm es := by
    refine List.Perm.cons_inv (a := e) (List.perm_middle.symm.trans ?_)
    rw [← hl]
    exact (perm_leftToRight edits).trans hp
  have hidle : ∀ f ∈ before ++ after, IsIdle html f := fun f hf => h f (hothers.subset hf)
  obtain ⟨hbefore, hafter, hbetween⟩ := List.pairwise_append.1 ho
  obtain ⟨hstop, hafter⟩ := List.pairwise_cons.1 hafter
  have hleft : ∀ f ∈ before, IsIdle (html.take e.span.start) f := fun f hf =>
    (hidle f (List.mem_append_left _ hf)).take (hbetween f hf e (List.mem_cons_self ..))
  have hright : ∀ f ∈ after, IsIdle html f := fun f hf => hidle f (List.mem_append_right _ hf)
  rw [(keepsOutside_of_apart ha hw).2, hl, fill_append_cons ho fun f hf => (hleft f hf).1,
    fill_of_isIdle hbefore (fun _ _ => Nat.zero_le _) hleft, fill_of_isIdle hafter hstop hright]
  rfl

end SlideDeck.Markup.Edit
