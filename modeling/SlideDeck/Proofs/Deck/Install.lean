import SlideDeck.Deck.Template
import SlideDeck.Proofs.Deck.Ends
import SlideDeck.Proofs.Tree.Unpack

/-!
# Moving the kept entries into a deck

A template is unpacked into a fresh scratch directory (`Scratch`). Before the deck's directory is
made, nothing but that is changed, and anything that is wrong ends the work there (`install_cases`).
After that only moves are left.

If the deck is inside of the scratch directory, so is all that the moves change
(`forM_moveEntry_preserves`). If it is outside, a move fails only if the new path of the entry is
too long, and that ends the work (`Moving`). The deck holds the entries up to there and nothing else
(`Moved`, `forM_moveEntry`). That needs a path to the deck that does not lead through what is moved
away.
-/

namespace SlideDeck

open SlideDeck.Action (ending Preserves)
open SlideDeck.Tree (Fills Within Anchored)

variable {t u v : Tree} {r k m : Location} {scratch deck : Path} {name : Text}
  {names done : List Text} {e : Entry}

namespace Deck.IsName

variable (h : Deck.IsName name)

include h

theorem child_eq (p : Path) : p.child name = p.append ⟨[], [name]⟩ := by
  rw [Path.child, h.1]

theorem not_mem : Path.up ∉ [name] := by simpa [eq_comm] using h.2

theorem name_child (p : Path) : (p.child name).name = name := by
  rw [h.child_eq]
  show (p.parts ++ [name]).getLast?.getD [] = name
  rw [List.getLast?_concat]
  rfl

theorem fits_parent {p : Path} (hfits : (p.child name).fits = true) : p.fits = true := by
  rw [h.child_eq] at hfits
  have hparent : (p.append ⟨[], [name]⟩).parent = p := by
    show Path.mk p.root (p.parts ++ [name]).dropLast = p
    rw [List.dropLast_concat]
  exact hparent ▸ Path.fits_parent hfits

/-- The path of another entry with a shorter name is not longer. -/
theorem fits_child {p : Path} (hfits : (p.child name).fits = true) {other : Text}
    (hother : Deck.IsName other) (hsize : Text.size other ≤ Text.size name) :
    (p.child other).fits = true := by
  have hp := h.fits_parent hfits
  rw [h.child_eq, Path.fits_append_iff hp] at hfits
  rw [hother.child_eq, Path.fits_append_iff hp]
  refine ⟨Path.fitsText_append_of_size_le hsize hfits.1, List.forall_mem_singleton.2 ?_⟩
  have hname := hfits.2 name (List.mem_singleton_self name)
  rw [Path.fitsName, decide_eq_true_eq] at hname ⊢
  exact hsize.trans hname

end Deck.IsName

/-! ## A fresh scratch directory -/

/-- There is an empty directory at `r`, to which a path leads. -/
structure Scratch (t : Tree) (scratch : Path) (r : Location) : Prop where
  home : t.Home
  leads : t.Leads scratch r .directory
  away : ¬r <+: t.ground
  empty : ∀ x ≠ [], t.get? (r ++ x) = none

namespace Scratch

variable (h : Scratch t scratch r)

include h

theorem not_inside_of_directory (hm : t.get? m = some .directory) : ¬r.Inside m := by
  rintro ⟨⟨x, rfl⟩, hne⟩
  rw [h.empty x (by rintro rfl; exact hne (List.append_nil r).symm)] at hm
  cases hm

/-- Changes in the scratch directory do not touch what was a directory before. -/
theorem directory_of_within (hu : Within r t u) (hm : t.get? m = some .directory) :
    u.get? m = some .directory := by
  rw [hu.outside m (h.not_inside_of_directory hm), hm]

theorem leads_of_fills (hu : Fills r t u) : u.Leads scratch r .directory :=
  h.leads.mono_directory h.home.toPlain hu.2.toPlain hu.1.base fun _ hm =>
    h.directory_of_within hu.1 hm

theorem location_eq : t.location scratch = r := h.leads.location_eq h.home.toPlain

end Scratch

/-! ## Before the deck is made -/

namespace Template

/-- Moves an entry from the scratch directory into the deck. -/
def moveEntry (deck scratch : Path) (e : Text) : TreeAction Unit := do
  TreeAction.move (scratch.child e) (deck.child e)
  Action.note 3 ("Moved ".toList ++ e ++ " into ".toList ++ deck.name)

/-- An entry in the scratch directory, to which its path leads. -/
def IsUnpacked (u : Tree) (scratch : Path) (r : Location) (e : Text) : Prop :=
  (scratch.append ⟨[], [e]⟩).fits = true ∧ (u.get? (r ++ [e])).isSome

/-- The look for entries that are missing fails if a path is too long; or it is known which ones are
there. -/
theorem missing_cases (hu : u.Home) (hleads : u.Leads scratch r .directory) {entries : List Text}
    (hnames : ∀ e ∈ entries, Deck.IsName e) :
    (∃ f, ending (entries.filterM fun e => do
      return !(← TreeAction.ask Tree.contains (scratch.child e))) u = (.error f, u)) ∨
    ∃ missing, ending
      (entries.filterM fun e => do return !(← TreeAction.ask Tree.contains (scratch.child e))) u =
        (.ok missing, u) ∧ (missing = [] → ∀ e ∈ entries, IsUnpacked u scratch r e) := by
  have hask (e : Text) :
      ending (do return !(← TreeAction.ask Tree.contains (scratch.child e)) : TreeAction Bool) u =
      ((u.ask Tree.contains true (scratch.child e)).map (!·), u) := by
    cases hanswer : u.ask Tree.contains true (scratch.child e) with
    | error f => exact Action.ending_bind_of_error (by
        rw [TreeAction.ask, Action.ending_find, hanswer]) _
    | ok answer =>
        exact Action.ending_bind_of_ok (by rw [TreeAction.ask, Action.ending_find, hanswer]) _
  rw [Action.ending_filterM hask]
  cases hfilter :
    entries.filterM fun e => (u.ask Tree.contains true (scratch.child e)).map (!·) with
  | error f => exact .inl ⟨f, rfl⟩
  | ok missing =>
    refine .inr ⟨missing, rfl, ?_⟩
    rintro rfl e he
    obtain ⟨missing, hpasses, hmissing⟩ := Outcome.mem_of_filterM hfilter e he
    obtain ⟨there, hanswer, rfl⟩ := Outcome.map_eq_ok.1 hpasses
    have hthere : there = true := by simpa using hmissing
    obtain ⟨hcontains, -⟩ := Tree.ask_eq_ok hanswer
    rw [(hnames e he).child_eq] at hanswer hcontains
    have hfits := hleads.fits_of_ask hu.toPlain hanswer
    rw [Tree.contains, hleads.entry?_append hu.toPlain (hnames e he).not_mem hfits, hthere]
      at hcontains
    exact ⟨hfits, hcontains⟩

/-- Either nothing at all is done, or all entries are there, the deck is made at a free location and
the entries are moved. -/
theorem install_cases (template : Template) (h : Scratch t scratch r) (hu : Fills r t u)
    (hnames : ∀ e ∈ template.entries, Deck.IsName e) :
    (∃ f, ending (template.install deck scratch) u = (.error f, u)) ∨
    ∃ k, u.locate false deck = .ok (.absent k) ∧
      (∀ e ∈ template.entries, IsUnpacked u scratch r e) ∧
      ending (template.install deck scratch) u =
        ending (template.entries.forM (moveEntry deck scratch)) (u.put k .directory) := by
  have hleads := h.leads_of_fills hu
  rw [install]
  rcases missing_cases hu.2 hleads hnames with ⟨f, hmissing⟩ | ⟨missing, hmissing, hthere⟩
  · exact .inl ⟨f, Action.ending_bind_of_error hmissing _⟩
  rw [Action.ending_bind_of_ok hmissing]
  dsimp only
  by_cases hnone : missing = []
  · have hlist : ending (Action.find (·.list scratch) : TreeAction (List Text)) u =
        (.ok (u.children r), u) := by
      rw [Action.ending_find, hleads.list_eq]
    have hskip {c : Prop} [Decidable c] (text : Text) (rest : TreeAction Unit) :
        ending (if c then Action.note 2 text >>= fun _ => rest else rest) u = ending rest u := by
      split
      · exact Action.ending_bind_of_ok (Action.ending_note _ _ u) _
      · rfl
    rw [if_neg (not_not_intro hnone), Action.ending_bind_of_ok hlist, hskip]
    cases hdeck : u.makeDirectory deck with
    | error g =>
      refine .inl ?_
      have hrefused : ending (Action.change (·.makeDirectory deck) : TreeAction Unit) u =
          (.error g, u) :=
        Action.ending_change_of_error hdeck
      by_cases hexists : ∃ path, g = .refused .exists path
      · obtain ⟨path, rfl⟩ := hexists
        exact ⟨_, Action.ending_bind_of_error (Action.ending_rescue_of_error hrefused _) _⟩
      · refine ⟨g, Action.ending_bind_of_error ((Action.ending_rescue_of_error hrefused _).trans ?_)
          _⟩
        split
        · next path => exact absurd ⟨path, rfl⟩ hexists
        · rfl
    | ok w =>
      obtain ⟨k, hk, rfl⟩ := Tree.makeDirectory_eq_ok hdeck
      refine .inr ⟨k, hk, hthere hnone, ?_⟩
      rw [Action.ending_bind_of_ok
        (Action.ending_rescue_of_ok (Action.ending_change_of_ok hdeck) _)]
      rfl
  · rw [if_pos hnone]
    exact .inl ⟨_, Action.ending_bind_of_error (Action.ending_throw _ u) _⟩

/-! ## A deck inside of the scratch directory -/

/-- What is moved into a deck inside of the scratch directory stays in it. -/
theorem forM_moveEntry_preserves (h : Scratch t scratch r) (hu : Fills r t u) {entries : List Text}
    (hnames : ∀ e ∈ entries, Deck.IsName e) (hdeck : u.locate false deck = .ok (.absent k))
    (hk : r.Inside k) :
    Preserves (Within r t) (entries.forM (moveEntry deck scratch)) := by
  have hlocation : t.location deck = k := (hu.1.location_eq hdeck).symm
  have hanchored : Anchored r t deck := by
    intro n
    by_cases hn : n < deck.parts.length
    · rw [hu.2.locate_follow] at hdeck
      have hdirectory := (hu.2.leads_upTo hdeck hn).get?_eq hu.2.toPlain
      rw [Tree.location_congr hu.1.base] at hdirectory
      by_cases hin : r.Inside (t.location (deck.upTo n))
      · exact .inr hin
      · exact .inl (by rwa [hu.1.outside _ hin] at hdirectory)
    · have hall : deck.upTo n = deck := by rw [Path.upTo, List.take_of_length_le (by omega)]
      rw [hall, hlocation]
      exact .inr hk
  refine .forM fun e he => .bind ?_ fun _ _ _ _ => .lift _
  have hname := hnames e he
  refine TreeAction.move_preserves ?_ ?_ ?_ (by rw [hname.name_child]; exact hname.2)
  · rw [hname.child_eq, Tree.location_append hname.not_mem, h.location_eq]
    exact Location.inside_append r (List.cons_ne_nil _ _)
  · rw [hname.child_eq, Tree.location_append hname.not_mem, hlocation]
    exact hk.append _
  · rw [hname.child_eq]
    exact hanchored.append (by rw [hlocation]; exact hk.1) hname.not_mem

/-! ## A deck outside of the scratch directory -/

/-- How the moving of entries into a deck ends: all of them are moved, or those before one whose
path in the deck is too long. -/
inductive Moving {α : Type} (deck : Path) (entries : List Text) (a : α) :
    List Text → Except Failure α → Prop where
  | all (h : ∀ e ∈ entries, (deck.child e).fits = true) : Moving deck entries a entries (.ok a)
  | stopped {before after : List Text} {e : Text} (h : entries = before ++ e :: after)
    (hbefore : ∀ b ∈ before, (deck.child b).fits = true) (hlong : (deck.child e).fits = false) :
    Moving deck entries a before (.error (.refused .nameTooLong (deck.child e).toText))

theorem Moving.cons {entries moved : List Text} {result : Except Failure Unit}
    (h : Moving deck entries () moved result) {e : Text} (he : (deck.child e).fits = true) :
    Moving deck (e :: entries) () (e :: moved) result := by
  cases h with
  | all h => exact .all (List.forall_mem_cons.2 ⟨he, h⟩)
  | stopped h hbefore hlong =>
      exact .stopped (by rw [h]; rfl) (List.forall_mem_cons.2 ⟨he, hbefore⟩) hlong

theorem Moving.subset {α : Type} {a : α} {entries moved : List Text} {result : Except Failure α}
    (h : Moving deck entries a moved result) : moved ⊆ entries := by
  cases h with
  | all => exact fun _ => id
  | stopped h => exact h ▸ List.subset_append_left _ _

/-- In the tree `u` a directory has been made at `k`, and some entries in the directory `r` have
been moved into it, which gave `v`. -/
structure Moved (r k : Location) (done : List Text) (u v : Tree) : Prop where
  home : v.Home
  base : v.base = u.base
  ground : v.ground = u.ground
  deck : v.get? k = some .directory
  entries : ∀ name rest, v.get? (k ++ name :: rest) = if name ∈ done then u.get? (r ++ name :: rest)
    else none
  scratch : ∀ name rest, v.get? (r ++ name :: rest) = if name ∈ done then none
    else u.get? (r ++ name :: rest)
  outside : ∀ m, ¬k <+: m → ¬r.Inside m → v.get? m = u.get? m

end Template

namespace Tree

/-- A path to a free location leads to the directory that is made there. -/
theorem Home.leads_put (h : u.Home) (hp : u.locate false deck = .ok (.absent k)) :
    (u.put k .directory).Leads deck k .directory := by
  obtain ⟨l, name, hparts, hup, hl, rfl, hnone⟩ := h.absent_cases hp
  have hne : u.get? (l ++ [name]) ≠ some .directory := Tree.ne_directory_of_none hnone
  have hput := h.put_absent (e := .directory) hp directory_ne_link
  have hleads : (u.put (l ++ [name]) .directory).Leads deck.parent l .directory :=
    hl.mono_directory h.toPlain hput.toPlain rfl fun m hm => by
      rw [get?_put_of_ne hne, if_neg (by rintro rfl; exact hne hm), hm]
  have hdeck : deck = deck.parent.append ⟨[], [name]⟩ := by
    show deck = Path.mk deck.root (deck.parent.parts ++ [name])
    rw [← hparts]
  have hfits := h.toPlain.fits_of_locate hp
  rw [hdeck] at hfits ⊢
  exact hleads.append hput.toPlain (by simpa [eq_comm] using hup) hfits
    (by rw [get?_put_of_ne hne, if_pos rfl])

end Tree

namespace Template

section Outside

variable (hkr : ¬k <+: r) (hrk : ¬r <+: k)

include hkr hrk

/-- Nothing is below both. -/
theorem not_prefix_append (x : Location) : ¬k <+: r ++ x := fun h =>
  (List.prefix_or_prefix_of_prefix h (List.prefix_append r x)).elim hkr hrk

/-- At first nothing has been moved. -/
theorem Moved.nil (h : u.Home) (hp : u.locate false deck = .ok (.absent k)) :
    Moved r k [] u (u.put k .directory) := by
  have hnone := Tree.Linkless.get?_of_absent h.linkless hp
  have hne : u.get? k ≠ some .directory := Tree.ne_directory_of_none hnone
  refine ⟨h.put_absent hp Tree.directory_ne_link, rfl,
    rfl, by rw [Tree.get?_put_of_ne hne, if_pos rfl], fun name rest => ?_,
    fun name rest => ?_, fun m hm _ => ?_⟩
  · rw [Tree.get?_put_of_ne hne, if_neg (by simp),
      h.toPlain.get?_of_prefix_none hnone (List.prefix_append ..)]
    simp
  · rw [Tree.get?_put_of_ne hne, if_neg]
    · simp
    · rintro rfl
      exact not_prefix_append hkr hrk _ (List.prefix_refl _)
  · rw [Tree.get?_put_of_ne hne, if_neg (by rintro rfl; exact hm (List.prefix_refl m))]

/-- One more entry is moved. -/
theorem Moved.relocate (h : Moved r k done u v) (hground : ¬r <+: u.ground)
    (hbase : ¬r.Inside u.base) (hname : name ∉ done) :
    Moved r k (name :: done) u (v.relocate (r ++ [name]) (k ++ [name])) := by
  have hfree : v.get? (k ++ [name]) = none := by rw [h.entries, if_neg hname]
  have haway : ¬r ++ [name] <+: v.ground := by
    rw [h.ground]
    exact fun hpre => hground ((List.prefix_append r _).trans hpre)
  have hbase' : ¬r ++ [name] <+: v.base := by
    rw [h.base]
    exact fun hpre => hbase ((Location.inside_append r (List.cons_ne_nil _ _)).below hpre)
  have hrk' (x : Location) : ¬r ++ [name] <+: k ++ x := fun hpre =>
    not_prefix_append hrk hkr x ((List.prefix_append r _).trans hpre)
  have hget := h.home.toPlain.get?_relocate hfree haway
  have hsame {l : Location} {other : Text} {rest : List Text} : l ++ [name] <+: l ++ other :: rest ↔
      name = other := by
    rw [List.prefix_append_right_inj, List.cons_prefix_cons]
    simp
  refine ⟨?_, h.base, h.ground, ?_, fun other rest => ?_, fun other rest => ?_, fun m hkm hrm => ?_⟩
  · refine h.home.relocate hfree (by rw [List.dropLast_concat]; exact h.deck) haway hbase'
      (hrk' [name])
  · rw [hget, if_neg, if_neg, h.deck]
    · have := hrk' []
      rwa [List.append_nil] at this
    · intro hpre
      have := hpre.length_le
      rw [List.length_append, List.length_singleton] at this
      omega
  · rw [hget]
    by_cases hother : name = other
    · subst hother
      have hdrop : (k ++ name :: rest).drop (k ++ [name]).length = rest := by
        rw [List.append_cons k name rest, List.drop_left]
      rw [if_pos (hsame.2 rfl), hdrop, List.append_assoc, List.singleton_append, h.scratch,
        if_neg hname, if_pos (List.mem_cons_self ..)]
    · rw [if_neg (mt hsame.1 hother), if_neg (hrk' _), h.entries]
      simp only [List.mem_cons, Ne.symm hother, false_or]
  · have hk' : ¬k ++ [name] <+: r ++ other :: rest := fun hpre =>
      not_prefix_append hkr hrk _ ((List.prefix_append k _).trans hpre)
    rw [hget, if_neg hk']
    by_cases hother : name = other
    · rw [if_pos (hsame.2 hother), if_pos (hother ▸ List.mem_cons_self ..)]
    · rw [if_neg (mt hsame.1 hother), h.scratch]
      simp only [List.mem_cons, Ne.symm hother, false_or]
  · rw [hget, if_neg fun hpre => hkm ((List.prefix_append k _).trans hpre), if_neg,
      h.outside m hkm hrm]
    exact fun hpre => hrm ((Location.inside_append r (List.cons_ne_nil _ _)).below hpre)

end Outside

section Moves

variable (hs : Scratch t scratch r) (hu : Fills r t u)
  (hdeck : u.locate false deck = .ok (.absent k))
  (hpath : ∀ n, ¬r.Inside (t.location (deck.upTo n)))

include hs hu hdeck

omit hs in
theorem location_deck : t.location deck = k := (hu.1.location_eq hdeck).symm

theorem not_prefix_scratch : ¬k <+: r := by
  intro hkr
  have := hu.2.toPlain.get?_of_prefix_none (Tree.Linkless.get?_of_absent hu.2.linkless hdeck) hkr
  rw [(hs.leads_of_fills hu).get?_eq hu.2.toPlain] at this
  cases this

theorem Moved.leads_scratch (h : Moved r k done u v) : v.Leads scratch r .directory := by
  refine hs.leads.mono_directory hs.home.toPlain h.home.toPlain (h.base.trans hu.1.base) fun m hm =>
    ?_
  have hkept := hs.directory_of_within hu.1 hm
  rw [h.outside m ?_ (hs.not_inside_of_directory hm), hkept]
  intro hkm
  rw [hu.2.toPlain.get?_of_prefix_none (Tree.Linkless.get?_of_absent hu.2.linkless hdeck) hkm]
    at hkept
  cases hkept

include hpath

theorem not_prefix_deck : ¬r <+: k := by
  intro hrk
  by_cases heq : r = k
  · exact not_prefix_scratch hs hu hdeck (heq ▸ List.prefix_refl r)
  · refine hpath deck.parts.length ?_
    rw [deck.upTo_length, location_deck hu hdeck]
    exact ⟨hrk, heq⟩

omit hs in
theorem Moved.leads_deck (h : Moved r k done u v) : v.Leads deck k .directory := by
  have hnone := Tree.Linkless.get?_of_absent hu.2.linkless hdeck
  have hne : u.get? k ≠ some .directory := Tree.ne_directory_of_none hnone
  have hput : (u.put k .directory).Home := hu.2.put_absent hdeck Tree.directory_ne_link
  refine (hu.2.leads_put hdeck).congr hput.toPlain h.home.toPlain h.base fun n => ?_
  rw [Tree.location_congr (show (u.put k .directory).base = t.base from hu.1.base),
    Tree.get?_put_of_ne hne]
  split
  · next heq => rw [heq, h.deck]
  · next hloc =>
    refine h.outside _ (fun hkn => ?_) (hpath n)
    by_cases hn : n < deck.parts.length
    · -- The deck's path leads through directories, and there are none below a free location.
      have hlocate : u.locate true deck = .ok (.absent k) := hu.2.locate_follow.symm.trans hdeck
      have hdirectory := (hu.2.leads_upTo hlocate hn).get?_eq hu.2.toPlain
      rw [Tree.location_congr hu.1.base, hu.2.toPlain.get?_of_prefix_none hnone hkn] at hdirectory
      cases hdirectory
    · refine hloc ?_
      rw [Path.upTo, List.take_of_length_le (by omega)]
      exact location_deck hu hdeck

/-- One more entry is moved, or its new path is too long. -/
theorem moveEntry_cases {e : Text} (hname : Deck.IsName e) (he : IsUnpacked u scratch r e)
    (hfresh : e ∉ done) (h : Moved r k done u v) :
    (deck.child e).fits = false ∧
      ending (moveEntry deck scratch e) v =
        (.error (.refused .nameTooLong (deck.child e).toText), v) ∨
    (deck.child e).fits = true ∧
      ∃ w, ending (moveEntry deck scratch e) v = (.ok (), w) ∧ Moved r k (e :: done) u w := by
  have hkr := not_prefix_scratch hs hu hdeck
  have hrk := not_prefix_deck hs hu hdeck hpath
  obtain ⟨hfits, hsome⟩ := he
  obtain ⟨entry, hentry⟩ := Option.isSome_iff_exists.1 hsome
  have hsource : v.Leads (scratch.child e) (r ++ [e]) entry := by
    rw [hname.child_eq]
    exact (h.leads_scratch hs hu hdeck).append h.home.toPlain hname.not_mem hfits
      (by rw [h.scratch, if_neg hfresh, hentry])
  have hleads := h.leads_deck hu hdeck hpath
  have hapart : ¬r ++ [e] <+: k ++ [e] := fun hpre =>
    not_prefix_append hrk hkr _ ((List.prefix_append r [e]).trans hpre)
  cases hlong : (deck.child e).fits with
  | false =>
    have hmove : TreeAction.move (scratch.child e) (deck.child e) v =
        (⟨[], .error (.refused .nameTooLong (deck.child e).toText)⟩, v) := by
      rw [hname.child_eq] at hlong hsource ⊢
      rw [hname.child_eq]
      exact TreeAction.move_of_not_fits h.home.toPlain hleads hlong hsource List.getLast?_concat
        hname.2 hapart
    refine .inl ⟨rfl, ?_⟩
    rw [moveEntry]
    exact Action.ending_bind_of_error (by rw [ending, hmove]) _
  | true =>
    have hground : ¬r <+: u.ground := hu.1.away
    have hbase : ¬r.Inside u.base := by
      rw [hu.1.base]
      exact hs.not_inside_of_directory hs.home.home
    have htarget : v.locate false (deck.child e) = .ok (.absent (k ++ [e])) := by
      rw [hname.child_eq] at hlong ⊢
      exact hleads.locate_of_none h.home.toPlain hname.2 hlong (by rw [h.entries, if_neg hfresh])
    have hmove := TreeAction.move_of_absent h.home.toPlain hsource htarget
      (by rw [hname.name_child]; exact hname.2) (by rw [hname.name_child]; exact hname.2) hapart
    refine .inr ⟨rfl, v.relocate (r ++ [e]) (k ++ [e]), ?_,
      h.relocate hkr hrk hground hbase hfresh⟩
    rw [moveEntry,
      Action.ending_bind_of_ok (show ending (TreeAction.move _ _) v = _ by rw [ending, hmove])]
    rfl

/-- The entries are moved up to the first one whose new path is too long. -/
theorem forM_moveEntry {entries : List Text} (hnodup : entries.Nodup)
    (hnames : ∀ e ∈ entries, Deck.IsName e) (hthere : ∀ e ∈ entries, IsUnpacked u scratch r e)
    (hnew : ∀ e ∈ entries, e ∉ done) (h : Moved r k done u v) :
    ∃ result moved w, ending (entries.forM (moveEntry deck scratch)) v = (result, w) ∧
      Moving deck entries () moved result ∧
      Moved r k (moved.reverse ++ done) u w := by
  induction entries generalizing done v with
  | nil => exact ⟨_, [], v, rfl, .all nofun, h⟩
  | cons e entries ih =>
    obtain ⟨hnot, hnodup⟩ := List.nodup_cons.1 hnodup
    obtain ⟨hname, hnames⟩ := List.forall_mem_cons.1 hnames
    obtain ⟨he, hthere⟩ := List.forall_mem_cons.1 hthere
    obtain ⟨hfresh, hnew⟩ := List.forall_mem_cons.1 hnew
    rw [Action.forM_cons]
    obtain ⟨hlong, hstep⟩ | ⟨hfits, w, hstep, hmoved⟩ :=
      moveEntry_cases hs hu hdeck hpath hname he hfresh h
    · exact ⟨_, [], v, Action.ending_bind_of_error hstep _, .stopped rfl nofun hlong, h⟩
    · have hstill (e' : Text) (he' : e' ∈ entries) : e' ∉ e :: done := by
        simp only [List.mem_cons, not_or]
        exact ⟨by rintro rfl; exact hnot he', hnew e' he'⟩
      obtain ⟨result, moved, x, hx, hmoving, hmoved⟩ := ih hnodup hnames hthere hstill hmoved
      refine ⟨result, e :: moved, x, ?_,
        hmoving.cons hfits, by rwa [List.reverse_cons, List.append_assoc]⟩
      rw [Action.ending_bind_of_ok hstep, hx]

end Moves

end Template

end SlideDeck
