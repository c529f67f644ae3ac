import SlideDeck.Proofs.Deck.Making
import SlideDeck.Proofs.Deck.Slug

/-!
# One deck after the other

Decks are made one after the other in the same directory, from any templates and with any slugs, and
some of these attempts fail (`makeAll`). What one attempt does is told once: the tree keeps all that
it has, and gains directories on the way to `out` and, if the attempt makes the deck, what is in it,
all of which is new (`Gains`, `make_gains`). An attempt that succeeds makes the deck, and one that
fails at its last moves may do so too. The same holds of all attempts together (`makeAll_gains`).

So nothing is ever removed or changed, and nothing is added to a directory that is there, with one
exception: a slug may hold a slash, and then the deck that is made may be inside of another one
(`makeAll_touches_iff`, `makeAll_touches_nested`). Where slugs are single names, decks are left
alone (`makeAll_keeps`).
-/

namespace SlideDeck.Template

open SlideDeck.Action (ending)

variable {t u v : Tree} {m d : Location} {out : Path} {decks more : List Location} {s : Settings}
  {slug : Text} {template : Template} {suffixes : List Suffix}

/-- An attempt to make a deck: the template, the slug, and the suffixes that are tried for the
scratch directory. -/
structure Call where
  template : Template
  slug : Text
  suffixes : List Suffix

variable {call : Call} {calls before later : List Call}

namespace Call

/-- The path of the deck. -/
def deck (s : Settings) (out : Path) (call : Call) : Path := s.deckPath call.slug out

/-- Makes the deck. -/
def make (s : Settings) (out : Path) (call : Call) : TreeAction Path :=
  call.template.makeDeck s call.suffixes call.slug out

/-- The place of the deck, if the call makes it, that is, if it is there after the call and was not
before. -/
def made (s : Settings) (out : Path) (call : Call) (t : Tree) : List Location :=
  let k := t.location (call.deck s out)
  if t.get? k = none ∧ (call.make s out t).2.get? k = some .directory then [k] else []

theorem mem_made {k : Location} : k ∈ call.made s out t ↔
    k = t.location (call.deck s out) ∧ t.get? k = none ∧
      (call.make s out t).2.get? k = some .directory := by
  rw [made]
  split
  · next h =>
    rw [List.mem_singleton]
    exact ⟨fun hk => ⟨hk, hk ▸ h⟩, And.left⟩
  · next h => exact ⟨nofun, fun ⟨hk, hthere⟩ => absurd (hk ▸ hthere) h⟩

end Call

/-- Makes decks one after the other, whether the making of one fails or not. -/
def makeAll (s : Settings) (out : Path) : List Call → Tree → List (Except Failure Path) × Tree
  | [], t => ([], t)
  | call :: calls, t =>
    let first := ending (call.make s out) t
    let others := makeAll s out calls first.2
    (first.1 :: others.1, others.2)

/-- Where the decks are that calls make one after the other. -/
def allMade (s : Settings) (out : Path) : List Call → Tree → List Location
  | [], _ => []
  | call :: calls, t => call.made s out t ++ allMade s out calls (call.make s out t).2

theorem makeAll_append (before later : List Call) (t : Tree) :
    (makeAll s out (before ++ later) t).2 = (makeAll s out later (makeAll s out before t).2).2 := by
  induction before generalizing t with
  | nil => rfl
  | cons call before ih => exact ih _

/-! ## What a tree gains -/

/-- The tree `u` has all that `t` has. What it has besides are directories that the path `out` leads
through and what is in some directories, all of which are new. -/
structure Gains (out : Path) (decks : List Location) (t u : Tree) : Prop where
  home : u.Home
  base : u.base = t.base
  kept : ∀ m e, t.get? m = some e → u.get? m = some e
  new : ∀ m, t.get? m = none → (u.get? m).isSome → (∃ n, m = t.location (out.upTo n)) ∨
    ∃ k ∈ decks, k <+: m
  made : ∀ k ∈ decks, t.get? k = none ∧ u.get? k = some .directory

namespace Gains

/-- Opening up the way to `out` adds no deck, unless the way leads through it. -/
theorem of_opens (h : t.Opens out u) (hu : u.Home)
    (hdecks : ∀ k ∈ decks, t.get? k = none ∧ u.get? k = some .directory) : Gains out decks t u := by
  refine ⟨hu, h.base, fun m e => h.kept, fun m hnone hsome => ?_, hdecks⟩
  rcases h.grown m with heq | ⟨-, -, n, hm⟩
  · rw [heq, hnone] at hsome
    cases hsome
  · exact .inl ⟨n, hm⟩

/-- A new deck is added to what was opened up. -/
theorem of_installs {entries : List Text} {contents : Tree} (hopens : t.Opens out v) (hv : v.Home)
    (h : Installs entries contents m v u) : Gains out [m] t u := by
  refine ⟨h.home, h.base.trans hopens.base, fun l e hl => ?_, fun l hnone hsome => ?_,
    fun k hk => ?_⟩
  · have hkept := hopens.kept hl
    rw [h.outside l fun hml => ?_, hkept]
    rw [hv.toPlain.get?_of_prefix_none h.free hml] at hkept
    cases hkept
  · by_cases hml : m <+: l
    · exact .inr ⟨m, List.mem_singleton_self m, hml⟩
    rw [h.outside l hml] at hsome
    have hgains : Gains out [] t v := of_opens hopens hv nofun
    exact (hgains.new l hnone hsome).imp_right fun ⟨k, hk, _⟩ => nomatch hk
  · obtain rfl := List.mem_singleton.1 hk
    exact ⟨hopens.none_of_none h.free, h.deck⟩

theorem none_of_none (h : Gains out decks t u) (hm : u.get? m = none) : t.get? m = none := by
  cases ht : t.get? m with
  | none => rfl
  | some e =>
    rw [h.kept m e ht] at hm
    cases hm

theorem trans (h : Gains out decks t u) (h' : Gains out more u v) :
    Gains out (decks ++ more) t v := by
  refine ⟨h'.home, h'.base.trans h.base, fun m e hm => h'.kept m e (h.kept m e hm),
    fun m hnone hsome => ?_, fun k hk => ?_⟩
  · by_cases hu : u.get? m = none
    · simp only [← Tree.location_congr h.base]
      exact (h'.new m hu hsome).imp_right fun ⟨k, hk, hkm⟩ => ⟨k, List.mem_append_right _ hk, hkm⟩
    · exact (h.new m hnone (Option.isSome_iff_ne_none.2 hu)).imp_right
        fun ⟨k, hk, hkm⟩ => ⟨k, List.mem_append_left _ hk, hkm⟩
  · rcases List.mem_append.1 hk with hk | hk
    · exact ⟨(h.made k hk).1, h'.kept k _ (h.made k hk).2⟩
    · exact ⟨h.none_of_none (h'.made k hk).1, (h'.made k hk).2⟩

/-- Nothing is added to a directory unless a deck is made in it. -/
theorem untouched_iff (h : Gains out decks t u) (ht : t.Home) (hd : t.get? d = some .directory)
    (hout : ∀ n, ¬d <+: t.location (out.upTo n)) :
    (∀ m, d <+: m → u.get? m = t.get? m) ↔ ∀ k ∈ decks, ¬d <+: k := by
  constructor
  · intro hsame k hk hdk
    obtain ⟨hnone, hthere⟩ := h.made k hk
    rw [hsame k hdk, hnone] at hthere
    cases hthere
  · intro haway m hdm
    cases hm : t.get? m with
    | some e => exact h.kept m e hm
    | none =>
      by_contra hne
      rcases h.new m hm (Option.isSome_iff_ne_none.2 hne) with ⟨n, rfl⟩ | ⟨k, hk, hkm⟩
      · exact hout n hdm
      rcases List.prefix_or_prefix_of_prefix hdm hkm with hdk | hkd
      · exact haway k hk hdk
      · -- A deck above the directory would have been there before.
        have hfree := ht.toPlain.get?_of_prefix_none (h.made k hk).1 hkd
        rw [hd] at hfree
        cases hfree

end Gains

/-! ## Making one deck after the other -/

/-- The entries that are kept of a template are names, each once, and the path of the deck leads
through no place inside of a scratch directory. -/
structure Proper (t : Tree) (s : Settings) (out : Path) (call : Call) : Prop where
  names : ∀ e ∈ call.template.entries, Deck.IsName e
  nodup : call.template.entries.Nodup
  outside : ∀ suffix n,
  ¬(t.location (scratchPath out suffix)).Inside (t.location ((call.deck s out).upTo n))

theorem Proper.congr (h : Proper t s out call) (hb : u.base = t.base) : Proper u s out call := by
  refine ⟨h.names, h.nodup, fun suffix n => ?_⟩
  rw [Tree.location_congr hb, Tree.location_congr hb]
  exact h.outside suffix n

/-- Without steps up, no path of a deck leads through a scratch directory. -/
theorem Proper.of_not_mem {archive : Path} (hs : s = .defaults archive)
    (hnames : ∀ e ∈ template.entries, Deck.IsName e) (hnodup : template.entries.Nodup)
    (hout : Path.up ∉ out.parts) (hslug : Path.up ∉ Text.split '/' slug) :
    Proper t s out ⟨template, slug, suffixes⟩ := by
  refine ⟨hnames, hnodup, fun suffix n hin => ?_⟩
  obtain ⟨first, rest, hpath, hdown⟩ := Settings.exists_deckPath hs hslug out
  rw [Call.deck, hpath] at hin
  refine not_inside_scratch hdown suffix (hin.below (Tree.location_above ?_ t n))
  show Path.up ∉ out.parts ++ _
  simp only [List.mem_append, not_or]
  exact ⟨hout, hdown⟩

/-- An attempt adds the deck that it makes, and if it succeeds it makes the one at the path that it
comes to. -/
theorem make_gains (ht : t.Home) (h : Proper t s out call) :
    Gains out (call.made s out t) t (call.make s out t).2 ∧
      ∀ path, (call.make s out t).1.result = .ok path → t.location path ∈ call.made s out t := by
  have hstays : StaysIn t out (call.deck s out) :=
    fun suffix n _ hin => absurd hin (h.outside suffix n)
  obtain ⟨result, u, hending, hcases⟩ := makeDeck_cases ht h.names h.nodup hstays call.suffixes
  obtain ⟨hresult, rfl⟩ := Prod.mk.inj hending
  rcases hcases with ⟨hopens, hu, hinside⟩ | ⟨moved, hmoving, -, archive, v, l, -, -, hv, hopens, -,
    hinstalls⟩
  · refine ⟨.of_opens hopens hu fun k hk => (Call.mem_made.1 hk).2, fun path hpath => ?_⟩
    obtain ⟨suffix, hin⟩ := hinside path (hresult.symm.trans hpath)
    have := h.outside suffix (call.deck s out).parts.length
    rw [Path.upTo_length] at this
    exact absurd hin this
  · have hgains : Gains out [t.location (call.deck s out)] t (call.make s out t).2 :=
      .of_installs hopens hv hinstalls
    have hmade : call.made s out t = [t.location (call.deck s out)] :=
      if_pos (hgains.made _ (List.mem_singleton_self _))
    rw [hmade]
    refine ⟨hgains, fun path hpath => ?_⟩
    obtain rfl : result = .ok path := hresult.symm.trans hpath
    cases hmoving with
    | all => exact List.mem_singleton_self _

/-- All attempts together add the decks that they make. -/
theorem makeAll_gains (ht : t.Home) (hcalls : ∀ call ∈ calls, Proper t s out call) :
    Gains out (allMade s out calls t) t (makeAll s out calls t).2 ∧
      (∀ path, .ok path ∈ (makeAll s out calls t).1 → t.location path ∈ allMade s out calls t) ∧
      ∀ k ∈ allMade s out calls t, ∃ call ∈ calls, k = t.location (call.deck s out) := by
  induction calls generalizing t with
  | nil => exact ⟨.of_opens (.refl out t) ht nofun, nofun, nofun⟩
  | cons call calls ih =>
    obtain ⟨hcall, hcalls⟩ := List.forall_mem_cons.1 hcalls
    obtain ⟨hgains, hok⟩ := make_gains ht hcall
    obtain ⟨hothers, hoks, hdecks⟩ :=
      ih hgains.home fun call hmem => (hcalls call hmem).congr hgains.base
    refine ⟨hgains.trans hothers, fun path hpath => ?_, fun k hk => ?_⟩
    · rcases List.mem_cons.1 hpath with heq | hmem
      · exact List.mem_append_left _ (hok path heq.symm)
      · rw [← Tree.location_congr hgains.base]
        exact List.mem_append_right _ (hoks path hmem)
    · rcases List.mem_append.1 hk with hfirst | hmem
      · exact ⟨call, List.mem_cons_self .., (Call.mem_made.1 hfirst).1⟩
      · obtain ⟨other, hother, rfl⟩ := hdecks k hmem
        exact ⟨other, List.mem_cons_of_mem _ hother, Tree.location_congr hgains.base _⟩

section Later

variable (ht : t.Home) (hcalls : ∀ call ∈ before ++ later, Proper t s out call)
  (hu : (makeAll s out before t).2 = u)

include ht hcalls hu

/-- Later attempts add the decks that they make to what earlier ones have left. -/
theorem later_gains : u.Home ∧ u.base = t.base ∧
    Gains out (allMade s out later u) u (makeAll s out (before ++ later) t).2 ∧
    (∀ path, .ok path ∈ (makeAll s out later u).1 → u.location path ∈ allMade s out later u) ∧
    ∀ k ∈ allMade s out later u, ∃ call ∈ later, k = u.location (call.deck s out) := by
  obtain ⟨hbefore, hlater⟩ := List.forall_mem_append.1 hcalls
  obtain ⟨hgains, -⟩ := makeAll_gains ht hbefore
  rw [hu] at hgains
  rw [makeAll_append, hu]
  exact ⟨hgains.home, hgains.base, makeAll_gains hgains.home fun call hmem =>
    (hlater call hmem).congr hgains.base⟩

/-- Later attempts change and remove nothing, and add nothing to a directory that does not lead to
`out`, unless one of them makes a deck inside of it, as each one does that succeeds with a deck
there. -/
theorem makeAll_touches_iff (hd : u.get? d = some .directory)
    (hout : ∀ n, ¬d <+: t.location (out.upTo n)) :
    (∀ m e, u.get? m = some e → (makeAll s out (before ++ later) t).2.get? m = some e) ∧
      ((∀ m, d <+: m → (makeAll s out (before ++ later) t).2.get? m = u.get? m) ↔
        ∀ k ∈ allMade s out later u, ¬d <+: k) ∧
      ∀ path, .ok path ∈ (makeAll s out later u).1 → t.location path ∈ allMade s out later u := by
  obtain ⟨hhome, hbase, hgains, hok, -⟩ := later_gains ht hcalls hu
  refine ⟨hgains.kept, ?_, fun path hpath => ?_⟩
  · exact hgains.untouched_iff hhome hd fun n => by rw [Tree.location_congr hbase]; exact hout n
  · rw [← Tree.location_congr hbase]
    exact hok path hpath

/-- If no slug holds a slash, nothing is done to a directory that does not lead to `out`. -/
theorem makeAll_keeps {archive : Path} (hs : s = .defaults archive)
    (hslugs : ∀ call ∈ later, '/' ∉ call.slug) (hd : u.get? d = some .directory)
    (hout : ∀ n, ¬d <+: t.location (out.upTo n)) (hm : d <+: m) :
    (makeAll s out (before ++ later) t).2.get? m = u.get? m := by
  obtain ⟨hhome, hbase, hgains, -, hmade⟩ := later_gains ht hcalls hu
  refine (hgains.untouched_iff hhome hd fun n => by rw [Tree.location_congr hbase]; exact hout n).2
    (fun k hk hdk => ?_) m hm
  obtain ⟨call, hcall, rfl⟩ := hmade k hk
  have hfree := (hgains.made _ hk).1
  rw [Call.deck, Settings.deckPath_of_not_mem hs (hslugs call hcall),
    Tree.location_append (Settings.up_ne_deckName call.slug)] at hdk hfree
  rcases List.prefix_concat_iff.1 hdk with rfl | hdout
  · -- The deck would be the directory, which is there already.
    rw [hd] at hfree
    cases hfree
  · refine hout out.parts.length ?_
    rwa [Path.upTo_length, ← Tree.location_congr hbase]

end Later

/-- The call for a slug with the template in `template.zip`. -/
def sampleCall (slug : Text) : Call := ⟨wholeSample, slug, [sampleSuffix]⟩

/-- What is asked for by slugs without steps up is proper. -/
theorem proper_sampleCall {slug : Text} (hslug : Path.up ∉ Text.split '/' slug) :
    Proper packed (.defaults .here) ⟨[], ["out".toList]⟩ (sampleCall slug) :=
  .of_not_mem rfl isName_of_mem_wholeSample (by decide) (by decide) hslug

/-- A second deck beside the first one does not touch it. -/
theorem makeAll_touches_iff_siblings :
    let out : Path := ⟨[], ["out".toList]⟩
    let first := makeAll (.defaults .here) out [sampleCall ['x']] packed
    let both := makeAll (.defaults .here) out [sampleCall ['x'], sampleCall ['y']] packed
    first.2.get? ["out".toList, "deck-x".toList] = some .directory ∧
      both.2.get? ["out".toList, "deck-y".toList] = some .directory ∧
      ∀ m, ["out".toList, "deck-x".toList] <+: m → both.2.get? m = first.2.get? m := by
  intro out first both
  have hhome : packed.Home := ⟨Tree.plain_of_isPlain (by decide +kernel), by decide⟩
  have hcalls :
      ∀ call ∈ [sampleCall ['x']] ++ [sampleCall ['y']],
      Proper packed (.defaults .here) out call := by
    intro call hcall
    rcases List.mem_pair.1 hcall with rfl | rfl
    · exact proper_sampleCall (by decide)
    · exact proper_sampleCall (by decide)
  have hd : first.2.get? ["out".toList, "deck-x".toList] = some .directory := by decide +kernel
  have hout (n : Nat) : ¬["out".toList, "deck-x".toList] <+: packed.location (out.upTo n) :=
    fun hpre => by
    have hshort : packed.location (out.upTo n) <+: packed.location out :=
      Tree.location_above (by decide) packed n
    exact absurd (hpre.trans hshort) (by decide)
  have hmade : allMade (.defaults .here) out [sampleCall ['y']] first.2 =
      [["out".toList, "deck-y".toList]] := by
    decide +kernel
  refine ⟨hd, by decide +kernel, (makeAll_touches_iff hhome hcalls rfl hd hout).2.1.2 fun k hk =>
    ?_⟩
  rw [hmade, List.mem_singleton] at hk
  subst hk
  decide

/-- A deck whose slug holds a slash is made inside of another deck. -/
theorem makeAll_touches_nested :
    let out : Path := ⟨[], ["out".toList]⟩
    let first := makeAll (.defaults .here) out [sampleCall ['x']] packed
    let both := makeAll (.defaults .here) out [sampleCall ['x'], sampleCall "x/y".toList] packed
    packed.Home ∧ first.2.get? ["out".toList, "deck-x".toList] = some .directory ∧
      first.2.get? ["out".toList, "deck-x".toList, ['y']] = none ∧
      both.2.get? ["out".toList, "deck-x".toList, ['y']] = some .directory := by
  refine ⟨⟨Tree.plain_of_isPlain (by decide +kernel), by decide⟩, by decide +kernel, by
    decide +kernel, by decide +kernel⟩

end SlideDeck.Template
