import SlideDeck.Markup.Edit
import SlideDeck.Proofs.Text.Order

/-!
# Edits and what they leave

`Edit.applyAll` makes edits from the last to the first, each at its offsets in the text as it was.
Read from left to right, the result is woven from stretches of the text and replacements
(`spliceAll_eq_weave`); where spans overlap, a replacement that changes the length of the text makes
the edits to its left take too much or too little.

`Edit.KeepsOutside` says that only what stands in the spans is replaced. This is so exactly if the
edits stay in step with their spans (`keepsOutside_iff`), and it is so whenever no two spans overlap
(`keepsOutside_of_apart`). To tell a character that is left from an equal one of a replacement, the
edits are made on a text whose characters are marked by their offsets; `Edit.spliceAll` therefore
works on lists of anything.
-/

namespace SlideDeck.Markup.Edit

variable {α β : Type}

/-! ## Edits of lists -/

/-- A list with the span of an edit replaced; `mark` makes the elements that stand for the
characters of the replacement. -/
def splice (mark : Char → α) (l : List α) (e : Edit) : List α :=
  l.take e.span.start ++ e.text.map mark ++ l.drop e.span.stop

/-- A list with all edits made. -/
def spliceAll (mark : Char → α) (l : List α) (edits : List Edit) : List α :=
  (edits.mergeSort precedes).foldl (splice mark) l

theorem splice_id (html : Text) (e : Edit) : splice id html e = apply html e := by
  rw [splice, List.map_id, apply]

theorem spliceAll_id (html : Text) (edits : List Edit) :
    spliceAll id html edits = applyAll html edits := by
  rw [spliceAll, applyAll, show splice id = apply from funext fun html => funext (splice_id html)]

theorem map_spliceAll (f : α → β) (mark : Char → α) (l : List α) (edits : List Edit) :
    (spliceAll mark l edits).map f = spliceAll (f ∘ mark) (l.map f) edits := by
  simp only [spliceAll]
  induction edits.mergeSort precedes generalizing l with
  | nil => rfl
  | cons e es ih =>
    rw [List.foldl_cons, List.foldl_cons, ih, splice, splice]
    simp only [List.map_append, List.map_take, List.map_drop, List.map_map]

/-! ## From left to right -/

/-- The edits from the left to the right. -/
def leftToRight (edits : List Edit) : List Edit := (edits.mergeSort precedes).reverse

theorem mem_leftToRight {e : Edit} {edits : List Edit} : e ∈ leftToRight edits ↔ e ∈ edits := by
  rw [leftToRight, List.mem_reverse, List.mem_mergeSort]

theorem perm_leftToRight (edits : List Edit) : (leftToRight edits).Perm edits :=
  (List.reverse_perm _).trans (List.mergeSort_perm _ _)

/-- The order of edits, in words. -/
theorem precedes_iff {a b : Edit} : precedes a b = true ↔
    b.span.start < a.span.start ∨ b.span.start = a.span.start ∧
      (b.span.stop < a.span.stop ∨ b.span.stop = a.span.stop ∧ Text.upTo b.text a.text = true) := by
  rw [precedes]
  split
  · rw [decide_eq_true_eq]
    omega
  · split
    · rw [decide_eq_true_eq]
      omega
    · next h₁ h₂ =>
      have h₁ : b.span.start = a.span.start := by omega
      have h₂ : b.span.stop = a.span.stop := by omega
      simp only [h₁, h₂, Nat.lt_irrefl, false_or, true_and]

theorem precedes_total (a b : Edit) : (precedes a b || precedes b a) = true := by
  have ht := Text.upTo_total b.text a.text
  rw [Bool.or_eq_true, precedes_iff, precedes_iff]
  grind

theorem precedes_trans (a b c : Edit) (h₁ : precedes a b = true) (h₂ : precedes b c = true) :
    precedes a c = true := by
  have ht := Text.upTo_trans (s := c.text) (t := b.text) (u := a.text)
  rw [precedes_iff] at h₁ h₂ ⊢
  grind

/-- From left to right, the starts ascend; of two edits at one start the first stops no later. -/
theorem pairwise_leftToRight (edits : List Edit) : (leftToRight edits).Pairwise fun a b =>
    a.span.start < b.span.start ∨ a.span.start = b.span.start ∧ a.span.stop ≤ b.span.stop := by
  rw [leftToRight, List.pairwise_reverse]
  refine (List.pairwise_mergeSort precedes_trans precedes_total edits).imp fun {a b} h => ?_
  rcases precedes_iff.1 h with h | ⟨h, hs⟩
  · exact .inl h
  · refine .inr ⟨h, ?_⟩
    omega

theorem leftToRight_pair {a b : Edit} (h : precedes a b = false) : leftToRight [a, b] = [a, b] := by
  have hs : [a, b].mergeSort precedes = [b, a] := by
    simp [List.mergeSort, List.MergeSort.Internal.splitInTwo, h]
  rw [leftToRight, hs]
  rfl

/-- The edits are made from the right to the left. -/
theorem spliceAll_eq_foldr (mark : Char → α) (l : List α) (edits : List Edit) :
    spliceAll mark l edits = (leftToRight edits).foldr (fun e l => splice mark l e) l := by
  rw [spliceAll, leftToRight, List.foldr_reverse]

/-! ## Edits that change nothing -/

/-- An edit that puts in what stands in its span. -/
def IsIdle (html : Text) (e : Edit) : Prop :=
  e.span.start ≤ e.span.stop ∧ e.span.slice html = e.text

theorem IsIdle.apply_eq {html : Text} {e : Edit} (h : IsIdle html e) : apply html e = html := by
  have ht : (html.take e.span.stop).take e.span.start = html.take e.span.start := by
    rw [List.take_take, Nat.min_eq_left h.1]
  have hs : html.take e.span.start ++ e.text = html.take e.span.stop := by
    rw [← h.2, Span.slice, ← ht, List.take_append_drop]
  rw [apply, hs, List.take_append_drop]

theorem applyAll_of_isIdle {html : Text} {edits : List Edit} (h : ∀ e ∈ edits, IsIdle html e) :
    applyAll html edits = html := by
  have hsort : ∀ e ∈ edits.mergeSort precedes, IsIdle html e :=
    fun e he => h e (List.mem_mergeSort.1 he)
  rw [applyAll]
  generalize edits.mergeSort precedes = es at hsort ⊢
  induction es with
  | nil => rfl
  | cons e es ih =>
    rw [List.foldl_cons, (hsort e (List.mem_cons_self ..)).apply_eq]
    exact ih fun f hf => hsort f (List.mem_cons_of_mem _ hf)

/-! ## What is left of a list -/

/-- Where the span of an edit lies in a list of a length. -/
def Within (n : Nat) (e : Edit) : Prop := e.span.start ≤ e.span.stop ∧ e.span.stop ≤ n

/-- How far a list is used up behind an edit, if it was used up to `p` before: a replacement that is
too short for that is used up with what stands behind the span. -/
def used (e : Edit) (p : Nat) : Nat := e.span.stop + (p - (e.span.start + e.text.length))

/-- How far the spans of the edits up to one reach, if those before it reach up to `q`. -/
def covered (e : Edit) (q : Nat) : Nat := max q e.span.stop

/-- The list behind its first `p` elements after all edits, read from left to right. -/
def weave (mark : Char → α) (l : List α) : List Edit → Nat → List α
  | [], p => l.drop p
  | e :: es, p =>
    (l.take e.span.start).drop p ++ (e.text.drop (p - e.span.start)).map mark ++
      weave mark l es (used e p)

theorem take_foldr (mark : Char → α) {l : List α} {es : List Edit} {n : Nat}
    (h : ∀ e ∈ es, n ≤ e.span.start) (hn : n ≤ l.length) :
    (es.foldr (fun e l => splice mark l e) l).take n = l.take n ∧
      n ≤ (es.foldr (fun e l => splice mark l e) l).length := by
  induction es with
  | nil => exact ⟨rfl, hn⟩
  | cons e es ih =>
    obtain ⟨ht, hl⟩ := ih fun e he => h e (List.mem_cons_of_mem _ he)
    have he := h e (List.mem_cons_self ..)
    rw [List.foldr_cons, splice]
    generalize es.foldr (fun e l => splice mark l e) l = m at ht hl
    constructor
    · rw [List.append_assoc, List.take_append_of_le_length (by rw [List.length_take]; omega),
        List.take_take, Nat.min_eq_left he, ht]
    · simp only [List.length_append, List.length_take]
      omega

/-- Dropping from the edited list is weaving from further right. -/
theorem drop_foldr {mark : Char → α} {l : List α} {es : List Edit}
    (hw : ∀ e ∈ es, Within l.length e) (hs : es.Pairwise fun a b => a.span.start ≤ b.span.start)
    (p : Nat) :
    (es.foldr (fun e l => splice mark l e) l).drop p = weave mark l es p := by
  induction es generalizing p with
  | nil => rfl
  | cons e es ih =>
    obtain ⟨hs, hes⟩ := List.pairwise_cons.1 hs
    have he := hw e (List.mem_cons_self ..)
    have ih := ih (fun e he => hw e (List.mem_cons_of_mem _ he)) hes
    obtain ⟨ht, hl⟩ := take_foldr mark (l := l) hs (Nat.le_trans he.1 he.2)
    rw [List.foldr_cons, splice, ht, weave, ← ih]
    have hlen : (l.take e.span.start).length = e.span.start := by
      rw [List.length_take]
      exact Nat.min_eq_left (Nat.le_trans he.1 he.2)
    rw [List.drop_append, List.drop_append, List.length_append, List.length_map, hlen,
      List.drop_drop, List.map_drop, used]

/-! ## What is left outside of the spans -/

/-- `out` is a list behind its first `q` elements with only the spans of the edits replaced: the
stretch up to the next span, a part of its replacement, and in the same way what stands behind the
span. -/
def Frames (mark : Char → α) (l : List α) : List Edit → Nat → List α → Prop
  | [], q, out => out = l.drop q
  | e :: es, q, out => ∃ part rest, part <:+ e.text ∧
      out = (l.take e.span.start).drop q ++ part.map mark ++ rest ∧
        Frames mark l es (covered e q) rest

/-- What the edits have used up and what their spans cover differ nowhere where something is left of
a list of `n` elements. -/
def InStep (n : Nat) : List Edit → Nat → Nat → Prop
  | [], p, q => min p n = min q n
  | e :: es, p, q =>
    (p = q ∨ e.span.start ≤ p ∧ e.span.start ≤ q) ∧ InStep n es (used e p) (covered e q)

instance decidableInStep (n : Nat) : (es : List Edit) → (p q : Nat) → Decidable (InStep n es p q)
  | [], p, q => inferInstanceAs (Decidable (min p n = min q n))
  | e :: es, p, q =>
    have := decidableInStep n es (used e p) (covered e q)
    inferInstanceAs (Decidable ((p = q ∨ e.span.start ≤ p ∧ e.span.start ≤ q) ∧ _))

/-- Two cuts of a list at one end are the same if both start at one place or behind the end. -/
theorem drop_eq_drop {l : List α} {p q : Nat} (h : p = q ∨ l.length ≤ p ∧ l.length ≤ q) :
    l.drop p = l.drop q := by
  rcases h with rfl | ⟨hp, hq⟩
  · rfl
  · rw [List.drop_eq_nil_of_le hp, List.drop_eq_nil_of_le hq]

theorem frames_weave {mark : Char → α} {l : List α} {es : List Edit} {p q : Nat}
    (h : InStep l.length es p q) :
    Frames mark l es q (weave mark l es p) := by
  induction es generalizing p q with
  | nil =>
    refine drop_eq_drop ?_
    have h : min p l.length = min q l.length := h
    omega
  | cons e es ih =>
    obtain ⟨he, hes⟩ := h
    refine ⟨e.text.drop (p - e.span.start), weave mark l es (used e p), List.drop_suffix _ _, ?_,
      ih hes⟩
    rw [weave, drop_eq_drop (p := p) (q := q)]
    rw [List.length_take]
    omega

/-- What frames a list does so for what is made of its elements. -/
theorem Frames.map (f : α → β) {mark : Char → α} {l : List α} {es : List Edit} {q : Nat}
    {out : List α} (h : Frames mark l es q out) : Frames (f ∘ mark) (l.map f) es q (out.map f) := by
  induction es generalizing q out with
  | nil =>
    rw [Frames] at h ⊢
    rw [h, List.map_drop]
  | cons e es ih =>
    obtain ⟨part, rest, hp, rfl, hr⟩ := h
    refine ⟨part, rest.map f, hp, ?_, ih hr⟩
    simp only [List.map_append, List.map_drop, List.map_take, List.map_map]

/-! ## Characters with their origins -/

/-- The characters of a text, each with its offset. -/
def marked (html : Text) : List (Char × Option Nat) := html.zipIdx.map fun (c, i) => (c, some i)

/-- A character of a replacement. -/
def unmarked (c : Char) : Char × Option Nat := (c, none)

/-- The offsets of the characters that come from a text. -/
def origins (out : List (Char × Option Nat)) : List Nat := out.filterMap Prod.snd

theorem length_marked (html : Text) : (marked html).length = html.length := by
  rw [marked, List.length_map, List.length_zipIdx]

theorem map_fst_marked (html : Text) : (marked html).map Prod.fst = html := by
  rw [marked, List.map_map]
  exact List.zipIdx_map_fst 0 html

theorem origins_append (a b : List (Char × Option Nat)) :
    origins (a ++ b) = origins a ++ origins b :=
  List.filterMap_append

theorem origins_unmarked (s : Text) : origins (s.map unmarked) = [] := by
  rw [origins, List.filterMap_map]
  exact List.filterMap_eq_nil_iff.2 fun _ _ => rfl

theorem origins_take_drop_marked {html : Text} {s : Nat} (h : s ≤ html.length) (p : Nat) :
    origins (((marked html).take s).drop p) = List.range' p (s - p) := by
  have hi : html.zipIdx.map (fun x => x.2) = List.range' 0 html.length := List.zipIdx_map_snd 0 html
  rw [origins, marked, ← List.map_take, ← List.map_drop, List.filterMap_map]
  show ((html.zipIdx.take s).drop p).filterMap (fun x => some x.2) = _
  rw [List.filterMap_eq_map', List.map_drop, List.map_take, hi, List.take_range'_of_length_ge h,
    List.drop_range', Nat.zero_add, Nat.mul_one]

theorem origins_drop_marked (html : Text) (p : Nat) :
    origins ((marked html).drop p) = List.range' p (html.length - p) := by
  have h := origins_take_drop_marked (Nat.le_refl html.length) p
  rwa [← length_marked, List.take_length, length_marked] at h

/-- The offsets of the stretches between the spans, where each stretch starts at the place that
`next` takes from the place before. -/
def offsets (n : Nat) (next : Edit → Nat → Nat) : List Edit → Nat → List Nat
  | [], p => List.range' p (n - p)
  | e :: es, p => List.range' p (e.span.start - p) ++ offsets n next es (next e p)

theorem origins_weave {html : Text} {es : List Edit} (hw : ∀ e ∈ es, Within html.length e)
    (p : Nat) :
    origins (weave unmarked (marked html) es p) = offsets html.length used es p := by
  induction es generalizing p with
  | nil => exact origins_drop_marked html p
  | cons e es ih =>
    have he := hw e (List.mem_cons_self ..)
    rw [weave, origins_append, origins_append, origins_unmarked, List.append_nil,
      origins_take_drop_marked (Nat.le_trans he.1 he.2),
      ih fun e he => hw e (List.mem_cons_of_mem _ he), offsets]

theorem Frames.origins_eq {html : Text} {es : List Edit} (hw : ∀ e ∈ es, Within html.length e)
    {q : Nat} {out : List (Char × Option Nat)} (h : Frames unmarked (marked html) es q out) :
    origins out = offsets html.length covered es q := by
  induction es generalizing q out with
  | nil => exact h ▸ origins_drop_marked html q
  | cons e es ih =>
    have he := hw e (List.mem_cons_self ..)
    obtain ⟨part, rest, -, rfl, hr⟩ := h
    rw [origins_append, origins_append, origins_unmarked, List.append_nil,
      origins_take_drop_marked (Nat.le_trans he.1 he.2),
      ih (fun e he => hw e (List.mem_cons_of_mem _ he)) hr, offsets]

/-- No offset lies before the place where the first stretch may start. -/
theorem le_of_mem_offsets {n : Nat} {next : Edit → Nat → Nat} (hn : ∀ e p, e.span.stop ≤ next e p)
    {es : List Edit} {p s : Nat} (hp : s ≤ p)
    (hs : ∀ e ∈ es, s ≤ e.span.start ∧ e.span.start ≤ e.span.stop) :
    ∀ i ∈ offsets n next es p, s ≤ i := by
  induction es generalizing p with
  | nil =>
    intro i hi
    have := (List.mem_range'_1.1 hi).1
    omega
  | cons e es ih =>
    intro i hi
    rcases List.mem_append.1 hi with hi | hi
    · have := (List.mem_range'_1.1 hi).1
      omega
    · obtain ⟨h₁, h₂⟩ := hs e (List.mem_cons_self ..)
      have := hn e p
      exact ih (by omega) (fun e he => hs e (List.mem_cons_of_mem _ he)) i hi

theorem inStep_of_offsets_eq {n : Nat} {es : List Edit} (hw : ∀ e ∈ es, Within n e)
    (hs : es.Pairwise fun a b => a.span.start ≤ b.span.start) {p q : Nat}
    (h : offsets n used es p = offsets n covered es q) : InStep n es p q := by
  induction es generalizing p q with
  | nil =>
    have h := List.range'_inj.1 h
    show min p n = min q n
    omega
  | cons e es ih =>
    obtain ⟨hs, hes⟩ := List.pairwise_cons.1 hs
    have he := (hw e (List.mem_cons_self ..)).1
    have hes' : ∀ f ∈ es, e.span.start ≤ f.span.start ∧ f.span.start ≤ f.span.stop := fun f hf =>
      ⟨hs f hf, (hw f (List.mem_cons_of_mem _ hf)).1⟩
    have hu : ∀ i ∈ offsets n used es (used e p), e.span.start ≤ i :=
      le_of_mem_offsets (fun _ _ => Nat.le_add_right _ _) (Nat.le_trans he (Nat.le_add_right _ _))
        hes'
    have hc : ∀ i ∈ offsets n covered es (covered e q), e.span.start ≤ i :=
      le_of_mem_offsets (fun _ _ => Nat.le_max_right _ _) (Nat.le_trans he (Nat.le_max_right _ _))
        hes'
    -- What lies before the start of the edit is the first stretch on both sides.
    have hfirst {r : Nat} {l : List Nat} (hl : ∀ i ∈ l, e.span.start ≤ i) :
        (List.range' r (e.span.start - r) ++ l).filter (· < e.span.start) =
          List.range' r (e.span.start - r) := by
      have hr : ∀ i ∈ List.range' r (e.span.start - r), decide (i < e.span.start) = true :=
        fun i hi => by
        have := List.mem_range'_1.1 hi
        rw [decide_eq_true_eq]
        omega
      have hl : ∀ i ∈ l, ¬decide (i < e.span.start) = true := fun i hi => by
        have := hl i hi
        rw [decide_eq_true_eq]
        omega
      rw [List.filter_append, List.filter_eq_self.2 hr, List.filter_eq_nil_iff.2 hl,
        List.append_nil]
    have hf := congrArg (List.filter (· < e.span.start)) h
    rw [offsets, offsets, hfirst hu, hfirst hc] at hf
    rw [offsets, offsets, hf] at h
    refine ⟨?_, ih (fun f hf => hw f (List.mem_cons_of_mem _ hf)) hes (List.append_cancel_left h)⟩
    have := List.range'_inj.1 hf
    omega

/-! ## Edits of a text -/

/-- Only what stands in the spans of the edits is replaced: with every character of the text marked
by its offset, what comes of the edits is the stretches outside of the spans, in order, and parts of
the replacements between them. -/
def KeepsOutside (html : Text) (edits : List Edit) : Prop :=
  Frames unmarked (marked html) (leftToRight edits) 0 (spliceAll unmarked (marked html) edits)

section

variable {html : Text} {edits : List Edit}

theorem starts_leftToRight (edits : List Edit) :
    (leftToRight edits).Pairwise fun a b => a.span.start ≤ b.span.start :=
  (pairwise_leftToRight edits).imp fun h => by omega

theorem spliceAll_eq_weave {mark : Char → α} {l : List α} (hw : ∀ e ∈ edits, Within l.length e) :
    spliceAll mark l edits = weave mark l (leftToRight edits) 0 := by
  rw [spliceAll_eq_foldr,
    ← drop_foldr (fun e he => hw e (mem_leftToRight.1 he)) (starts_leftToRight edits) 0,
    List.drop_zero]

/-- Only what stands in the spans is replaced if and only if the edits stay in step with their
spans. -/
theorem keepsOutside_iff (hw : ∀ e ∈ edits, Within html.length e) :
    KeepsOutside html edits ↔ InStep html.length (leftToRight edits) 0 0 := by
  have hl : ∀ e ∈ leftToRight edits, Within html.length e := fun e he => hw e (mem_leftToRight.1 he)
  rw [KeepsOutside, spliceAll_eq_weave (by rwa [length_marked])]
  constructor
  · intro h
    refine inStep_of_offsets_eq hl (starts_leftToRight edits) ?_
    rw [← origins_weave hl, h.origins_eq hl]
  · intro h
    rw [← length_marked] at h
    exact frames_weave h

/-- If only what stands in the spans is replaced, then the new text is made of the stretches outside
of them and of parts of the replacements. -/
theorem KeepsOutside.frames (h : KeepsOutside html edits) :
    Frames id html (leftToRight edits) 0 (applyAll html edits) := by
  have h := h.map Prod.fst
  rw [map_spliceAll, map_fst_marked] at h
  rw [← spliceAll_id]
  exact h

/-! ## Spans that lie apart -/

/-- No two spans overlap. -/
def Apart (edits : List Edit) : Prop :=
  edits.Pairwise fun a b => a.span.stop ≤ b.span.start ∨ b.span.stop ≤ a.span.start

instance (edits : List Edit) : Decidable (Apart edits) :=
  inferInstanceAs (Decidable (edits.Pairwise _))

/-- A text behind its first `p` characters with the spans of the edits replaced, from left to
right. -/
def fill (html : Text) : List Edit → Nat → Text
  | [], p => html.drop p
  | e :: es, p => (html.take e.span.start).drop p ++ e.text ++ fill html es e.span.stop

/-- From left to right, no span that lies apart starts before the one before it stops. -/
theorem pairwise_of_apart (ha : Apart edits) (hw : ∀ e ∈ edits, Within html.length e) :
    (leftToRight edits).Pairwise fun a b => a.span.stop ≤ b.span.start := by
  have hsym : ∀ {a b : Edit}, a.span.stop ≤ b.span.start ∨ b.span.stop ≤ a.span.start →
      b.span.stop ≤ a.span.start ∨ a.span.stop ≤ b.span.start := fun h => h.symm
  have ha := ((perm_leftToRight edits).pairwise_iff hsym).2 ha
  refine ((pairwise_leftToRight edits).and ha).imp_of_mem fun {a b} hma hmb h => ?_
  have hwb := (hw b (mem_leftToRight.1 hmb)).1
  have hwa := (hw a (mem_leftToRight.1 hma)).1
  omega

theorem inStep_of_pairwise {n : Nat} {es : List Edit} {p : Nat} (hp : ∀ e ∈ es, p ≤ e.span.start)
    (hw : ∀ e ∈ es, e.span.start ≤ e.span.stop)
    (ha : es.Pairwise fun a b => a.span.stop ≤ b.span.start) :
    InStep n es p p := by
  induction es generalizing p with
  | nil => rfl
  | cons e es ih =>
    obtain ⟨he, hes⟩ := List.pairwise_cons.1 ha
    have hpe := hp e (List.mem_cons_self ..)
    have hwe := hw e (List.mem_cons_self ..)
    refine ⟨.inl rfl, ?_⟩
    rw [show used e p = e.span.stop by rw [used]; omega,
      show covered e p = e.span.stop by rw [covered]; omega]
    exact ih he (fun f hf => hw f (List.mem_cons_of_mem _ hf)) hes

theorem weave_eq_fill {es : List Edit} {p : Nat} (hp : ∀ e ∈ es, p ≤ e.span.start)
    (hw : ∀ e ∈ es, e.span.start ≤ e.span.stop)
    (ha : es.Pairwise fun a b => a.span.stop ≤ b.span.start) :
    weave id html es p = fill html es p := by
  induction es generalizing p with
  | nil => rfl
  | cons e es ih =>
    obtain ⟨he, hes⟩ := List.pairwise_cons.1 ha
    have hpe := hp e (List.mem_cons_self ..)
    have hwe := hw e (List.mem_cons_self ..)
    rw [weave, fill, show used e p = e.span.stop by rw [used]; omega, Nat.sub_eq_zero_of_le hpe,
      List.drop_zero,
      List.map_id, ih he (fun f hf => hw f (List.mem_cons_of_mem _ hf)) hes]

/-- Edits of spans that lie apart keep all that stands outside of the spans and put in the
replacements whole. -/
theorem keepsOutside_of_apart (ha : Apart edits) (hw : ∀ e ∈ edits, Within html.length e) :
    KeepsOutside html edits ∧ applyAll html edits = fill html (leftToRight edits) 0 := by
  have hes := pairwise_of_apart ha hw
  have hle : ∀ e ∈ leftToRight edits, e.span.start ≤ e.span.stop :=
    fun e he => (hw e (mem_leftToRight.1 he)).1
  refine ⟨(keepsOutside_iff hw).2 (inStep_of_pairwise (fun _ _ => Nat.zero_le _) hle hes), ?_⟩
  rw [← spliceAll_id, spliceAll_eq_weave hw]
  exact weave_eq_fill (fun _ _ => Nat.zero_le _) hle hes

end

end SlideDeck.Markup.Edit
