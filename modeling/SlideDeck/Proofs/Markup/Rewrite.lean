import SlideDeck.Proofs.Markup.Again
import SlideDeck.Proofs.Markup.Splice
import SlideDeck.Proofs.Text.Utf8

/-!
# Rewritten files

A file is edited as it is read, with line feeds for all line ends, and is then written anew.
`Utf8.origin` tells where a place in the text that is read lies in the text of the file, so that an
edit of the one is an edit of the other (`Edit.inFile`). Outside of the edits the file comes out
with line feeds for its line ends (`stretches_lineFeeds`), and so it is kept if and only if no
carriage return stands there (`fill_lineFeeds_eq_iff`).

To leave out stylesheet links is to edit a text, too: `Stylesheet.removals` are the edits
(`fill_removals`).
-/

namespace SlideDeck

/-! ## Places in a file -/

namespace Utf8

/-- How much of a text makes up its first `n` characters when it is read with line feeds for all
line ends. -/
def origin : Text → Nat → Nat
  | _, 0 => 0
  | [], _ + 1 => 0
  | '\r' :: '\n' :: r, n + 1 => origin r n + 2
  | _ :: r, n + 1 => origin r n + 1

theorem origin_zero (s : Text) : origin s 0 = 0 := by
  rw [origin.eq_def]

theorem lineFeeds_take_origin (s : Text) (n : Nat) :
    lineFeeds (s.take (origin s n)) = (lineFeeds s).take n := by
  fun_induction origin s n with
  | case1 => rfl
  | case2 => rfl
  | case3 r n ih =>
      rw [List.take_succ_cons, List.take_succ_cons, lineFeeds, lineFeeds, List.take_succ_cons, ih]
  | case4 c r n hr ih =>
    have hstep (t : Text) (ht : ∀ u, c = '\r' → t = '\n' :: u → False) :
        lineFeeds (c :: t) = (if c = '\r' then '\n' else c) :: lineFeeds t := by
      rw [lineFeeds]
      exact ht
    rw [List.take_succ_cons, hstep r hr, List.take_succ_cons, hstep, ih]
    intro u hc hu
    exact hr (u ++ r.drop (origin r n)) hc (by rw [← List.cons_append, ← hu, List.take_append_drop])

theorem lineFeeds_drop_origin (s : Text) (n : Nat) :
    lineFeeds (s.drop (origin s n)) = (lineFeeds s).drop n := by
  fun_induction origin s n with
  | case1 => rfl
  | case2 => rfl
  | case3 r n ih =>
      rw [List.drop_succ_cons, List.drop_succ_cons, lineFeeds, List.drop_succ_cons, ih]
  | case4 c r n hr ih =>
    rw [List.drop_succ_cons, lineFeeds, List.drop_succ_cons, ih]
    exact hr

theorem origin_add (s : Text) (m n : Nat) :
    origin s (m + n) = origin s m + origin (s.drop (origin s m)) n := by
  fun_induction origin s m with
  | case1 => simp
  | case2 m => cases n <;> simp [origin]
  | case3 r m ih =>
    have hn : m + 1 + n = (m + n) + 1 := by omega
    rw [hn, origin, ih, List.drop_succ_cons, List.drop_succ_cons]
    omega
  | case4 c r m hr ih =>
    have hn : m + 1 + n = (m + n) + 1 := by omega
    rw [hn, origin, ih, List.drop_succ_cons]
    · omega
    · exact hr

/-- A part of what is read is read from a part of the text. -/
theorem lineFeeds_slice (s : Text) {m n : Nat} (h : m ≤ n) :
    lineFeeds ((s.take (origin s n)).drop (origin s m)) = ((lineFeeds s).take n).drop m := by
  obtain ⟨k, rfl⟩ := Nat.exists_eq_add_of_le h
  rw [origin_add, List.drop_take, List.drop_take, Nat.add_sub_cancel_left, Nat.add_sub_cancel_left,
    lineFeeds_take_origin, lineFeeds_drop_origin]

end Utf8

namespace Markup

open Utf8 (lineFeeds origin)

/-! ## Edits of a file -/

namespace Edit

/-- What stands outside of the spans of some edits behind the first `p` characters, from left to
right: what stands before, between and behind them. -/
def stretches (s : Text) : List Edit → Nat → List Text
  | [], p => [s.drop p]
  | e :: es, p => (s.take e.span.start).drop p :: stretches s es e.span.stop

/-- An edit of what is read from a text, as an edit of the text itself. -/
def inFile (raw : Text) (e : Edit) : Edit :=
  ⟨⟨origin raw e.span.start, origin raw e.span.stop⟩, e.text⟩

variable {raw s t : Text} {es fs : List Edit} {p q : Nat}

/-- An edited text is made of what stands outside of the spans and of the replacements. -/
theorem fill_congr (hs : stretches s es p = stretches t fs q)
    (ht : es.map Edit.text = fs.map Edit.text) :
    fill s es p = fill t fs q := by
  induction es generalizing fs p q with
  | nil =>
    cases fs with
    | nil => exact (List.cons.inj hs).1
    | cons f fs => cases ht
  | cons e es ih =>
    cases fs with
    | nil => cases ht
    | cons f fs =>
      obtain ⟨hfirst, hs⟩ := List.cons.inj hs
      obtain ⟨htext, ht⟩ := List.cons.inj ht
      rw [fill, fill, hfirst, htext, ih hs ht]

/-- How often a character stands in an edited text. -/
theorem count_fill (c : Char) (s : Text) (es : List Edit) (p : Nat) :
    (fill s es p).count c = (stretches s es p).flatten.count c +
      (es.map Edit.text).flatten.count c := by
  induction es generalizing p with
  | nil => simp [fill, stretches]
  | cons e es ih =>
    simp only [fill, stretches, List.count_append, ih, List.map_cons, List.flatten_cons]
    omega

/-- What stands outside of edits of a file comes out with line feeds for its line ends. -/
theorem stretches_lineFeeds (hp : ∀ e ∈ es, p ≤ e.span.start)
    (hw : ∀ e ∈ es, e.span.start ≤ e.span.stop)
    (ha : es.Pairwise fun a b => a.span.stop ≤ b.span.start) :
    stretches (lineFeeds raw) es p =
      (stretches raw (es.map (inFile raw)) (origin raw p)).map lineFeeds := by
  induction es generalizing p with
  | nil =>
    show [(lineFeeds raw).drop p] = [lineFeeds (raw.drop (origin raw p))]
    rw [Utf8.lineFeeds_drop_origin]
  | cons e es ih =>
    obtain ⟨he, hes⟩ := List.pairwise_cons.1 ha
    rw [stretches, ih he (fun f hf => hw f (List.mem_cons_of_mem _ hf)) hes,
      ← Utf8.lineFeeds_slice raw (hp e (List.mem_cons_self ..))]
    rfl

/-- A file is kept outside of the edits if and only if no carriage return stands there. -/
theorem fill_lineFeeds_eq_iff (hw : ∀ e ∈ es, e.span.start ≤ e.span.stop)
    (ha : es.Pairwise fun a b => a.span.stop ≤ b.span.start) :
    fill (lineFeeds raw) es 0 = fill raw (es.map (inFile raw)) 0 ↔
      ∀ u ∈ stretches raw (es.map (inFile raw)) 0, '\r' ∉ u := by
  have hs := @stretches_lineFeeds raw es 0 (fun _ _ => Nat.zero_le _) hw ha
  rw [Utf8.origin_zero] at hs
  have ht : es.map Edit.text = (es.map (inFile raw)).map Edit.text := by
    rw [List.map_map]
    rfl
  constructor
  · intro h u hu
    -- The replacements hold the same carriage returns, and what is read holds none.
    have hc := congrArg (List.count '\r') h
    rw [count_fill, count_fill, hs, ← ht, Nat.add_right_cancel_iff] at hc
    have hread : '\r' ∉ ((stretches raw (es.map (inFile raw)) 0).map lineFeeds).flatten := by
      rw [← List.flatMap_def, List.mem_flatMap]
      exact fun ⟨v, _, hv⟩ => Utf8.not_mem_lineFeeds v hv
    rw [List.count_eq_zero.2 hread] at hc
    exact fun hr => List.count_eq_zero.1 hc.symm (List.mem_flatten.2 ⟨u, hu, hr⟩)
  · intro h
    refine fill_congr ?_ ht
    rw [hs]
    exact (List.map_congr_left fun u hu => Utf8.lineFeeds_of_not_mem (h u hu)).trans (List.map_id _)

/-- The bytes of a file after edits of the text that is read from it: all that stands outside of the
spans has line feeds for its line ends, and is what it was if and only if no carriage return stood
there. -/
structure Rewrites (raw : Text) (es : List Edit) (bytes : List UInt8) : Prop where
  bytes_eq : bytes = Utf8.encode (fill (lineFeeds raw) es 0)
  outside : stretches (lineFeeds raw) es 0 = (stretches raw (es.map (inFile raw)) 0).map lineFeeds
  keeps_iff : bytes = Utf8.encode (fill raw (es.map (inFile raw)) 0) ↔
    ∀ u ∈ stretches raw (es.map (inFile raw)) 0, '\r' ∉ u

theorem rewrites_of_pairwise (hw : ∀ e ∈ es, e.span.start ≤ e.span.stop)
    (ha : es.Pairwise fun a b => a.span.stop ≤ b.span.start) :
    Rewrites raw es (Utf8.encode (fill (lineFeeds raw) es 0)) := by
  refine ⟨rfl, ?_, ?_⟩
  · have hs := @stretches_lineFeeds raw es 0 (fun _ _ => Nat.zero_le _) hw ha
    rwa [Utf8.origin_zero] at hs
  · rw [← fill_lineFeeds_eq_iff hw ha]
    exact ⟨Utf8.encode_injective, congrArg Utf8.encode⟩

end Edit

/-! ## Links that are left out -/

namespace Stylesheet

variable {keep : Text} {ps : List Piece}

/-- The edits that leave out the links of some pieces, the first of which starts at `p`, but for
those that mention `keep`. -/
def removalsFrom (keep : Text) : List Piece → Nat → List Edit
  | [], _ => []
  | .char _ :: ps, p => removalsFrom keep ps (p + 1)
  | .link tag :: ps, p =>
    if Text.holds keep tag then removalsFrom keep ps (p + tag.length)
    else ⟨⟨p, p + tag.length⟩, []⟩ :: removalsFrom keep ps (p + tag.length)

/-- The edits that leave out the links to stylesheets, but for those that mention `keep`. -/
def removals (keep s : Text) : List Edit := removalsFrom keep (pieces s) 0

theorem fill_removalsFrom (before : Text) {q : Nat} (hq : q ≤ before.length) :
    Edit.fill (before ++ ps.flatMap Piece.text) (removalsFrom keep ps before.length) q =
      before.drop q ++ remains keep ps := by
  induction ps generalizing before q with
  | nil => simp [removalsFrom, remains, Edit.fill]
  | cons piece ps ih =>
    have hkeep (u : Text) := ih (before ++ u) (q := q) (by rw [List.length_append]; omega)
    simp only [List.append_assoc, List.length_append, List.drop_append_of_le_length hq] at hkeep
    cases piece with
    | char c => exact hkeep [c]
    | link tag =>
      have htext : (Piece.link tag :: ps).flatMap Piece.text = tag ++ ps.flatMap Piece.text := rfl
      rw [removalsFrom, htext]
      split
      · next ht =>
        have hstays : remains keep (.link tag :: ps) = tag ++ remains keep ps := by
          rw [remains, List.filter_cons_of_pos (by exact ht)]
          rfl
        rw [hstays]
        exact hkeep tag
      · next ht =>
        have hbehind := ih (before ++ tag) (Nat.le_of_eq List.length_append.symm)
        rw [List.append_assoc, List.length_append,
          List.drop_eq_nil_of_le (Nat.le_of_eq List.length_append), List.nil_append] at hbehind
        rw [remains_of_gone (by simpa using ht), Edit.fill, List.take_left, List.append_nil,
          hbehind]

/-- To leave out the links is to make these edits. -/
theorem fill_removals (keep s : Text) : Edit.fill s (removals keep s) 0 = strip keep s := by
  have h := @fill_removalsFrom keep (pieces s) [] 0 (Nat.le_refl 0)
  rwa [List.nil_append, flatMap_text_pieces] at h

theorem removalsFrom_eq_nil (h : ∀ tag, .link tag ∈ ps → Text.Holds keep tag) (p : Nat) :
    removalsFrom keep ps p = [] := by
  induction ps generalizing p with
  | nil => rfl
  | cons piece ps ih =>
    have ih := ih fun tag ht => h tag (List.mem_cons_of_mem _ ht)
    cases piece with
    | char c => exact ih _
    | link tag =>
      rw [removalsFrom, if_pos (Text.holds_iff.2 (h tag (List.mem_cons_self ..)))]
      exact ih _

/-- There is nothing to leave out of a text that is left alone. -/
theorem removals_eq_nil_iff {s : Text} : removals keep s = [] ↔ strip keep s = s := by
  constructor
  · intro h
    rw [← fill_removals, h]
    rfl
  · exact fun h => removalsFrom_eq_nil (strip_eq_self_iff.1 h) 0

theorem le_start_of_mem_removalsFrom {p : Nat} : ∀ e ∈ removalsFrom keep ps p, p ≤ e.span.start ∧
    e.span.start ≤ e.span.stop := by
  induction ps generalizing p with
  | nil => exact nofun
  | cons piece ps ih =>
    have hnext {n : Nat} {e : Edit} (he : e ∈ removalsFrom keep ps (p + n)) :
        p ≤ e.span.start ∧ e.span.start ≤ e.span.stop := by
      have := ih e he
      omega
    cases piece with
    | char c => exact fun e he => hnext he
    | link tag =>
      intro e he
      rw [removalsFrom] at he
      split at he
      · exact hnext he
      · rcases List.mem_cons.1 he with rfl | he
        · exact ⟨Nat.le_refl _, Nat.le_add_right _ _⟩
        · exact hnext he

theorem pairwise_removalsFrom {p : Nat} :
    (removalsFrom keep ps p).Pairwise fun a b => a.span.stop ≤ b.span.start := by
  induction ps generalizing p with
  | nil => exact .nil
  | cons piece ps ih =>
    cases piece with
    | char c => exact ih
    | link tag =>
      rw [removalsFrom]
      split
      · exact ih
      · exact .cons (fun e he => (le_start_of_mem_removalsFrom e he).1) ih

theorem rewrites_strip (keep raw : Text) :
    Edit.Rewrites raw (removals keep (lineFeeds raw))
      (Utf8.encode (strip keep (lineFeeds raw))) := by
  rw [← fill_removals]
  exact Edit.rewrites_of_pairwise (fun e he => (le_start_of_mem_removalsFrom e he).2)
    pairwise_removalsFrom

end Stylesheet

end Markup

end SlideDeck
