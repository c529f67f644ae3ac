import SlideDeck.Proofs.Deck.Install

/-!
# Making a deck

The deck holds the kept entries as the archive unpacks to them (`Installs`), and the scratch
directory is gone. If anything fails before the deck's directory is made, the tree is as it was but
for directories that were missing on the way to `out`.

After that only moves are left, but they are not undone: if the path of an entry in the deck is too
long, its move fails, and the deck stays with the entries before that one. There is no other way in
which a failure leaves a deck behind (`makeDeck_fails_cases`), but for three that are left out here
(`makeDeck_leaves_deck`). A directory that is missing on the way to `out` may be called like the
deck. An entry that is a step up cannot be moved, and that is found out only when the deck's
directory is there. And a path that leads into the scratch directory and out of it again may lead
through an entry that is moved away (`StaysIn`); a path without steps up does not
(`staysIn_of_not_mem`).
-/

namespace SlideDeck.Template

open SlideDeck.Action (ending)
open SlideDeck.Tree (Fills Within Opens)

variable {t u v w : Tree} {l r k m : Location} {out deck scratch : Path} {entries : List Text}
  {archive : Archive} {template : Template} {s : Settings} {suffixes : List Suffix}
  {suffix : Suffix} {slug : Text} {f : Failure}

/-! ## The scratch directory -/

theorem scratchName_ne_up (suffix : Suffix) : scratchName suffix ≠ Path.up := by
  have hsecond : (scratchName suffix)[1]? = some 'e' := rfl
  intro heq
  rw [heq] at hsecond
  exact absurd hsecond (by decide)

/-- A directory that has been made anew is empty. -/
theorem scratch_of_makeDirectory (h : t.Home)
    (hmake : t.makeDirectory (scratchPath out suffix) = .ok u) :
    ∃ l, t.Leads out l .directory ∧ t.get? (l ++ [scratchName suffix]) = none ∧
      u = t.put (l ++ [scratchName suffix]) .directory ∧
      Scratch u (scratchPath out suffix) (l ++ [scratchName suffix]) := by
  obtain ⟨k, hk, rfl⟩ := Tree.makeDirectory_eq_ok hmake
  obtain ⟨l, name, hparts, -, hl, rfl, hnone⟩ := h.absent_cases hk
  have hparent : (scratchPath out suffix).parent = out := by
    show Path.mk out.root (out.parts ++ [scratchName suffix]).dropLast = out
    rw [List.dropLast_concat]
  rw [hparent] at hparts hl
  obtain rfl : scratchName suffix = name := by simpa [scratchPath, Path.append] using hparts
  have hne : t.get? (l ++ [scratchName suffix]) ≠ some .directory := Tree.ne_directory_of_none hnone
  have haway : ¬l ++ [scratchName suffix] <+: t.ground := Tree.not_prefix_ground hne
  refine ⟨l, hl, hnone, rfl, h.put_absent hk Tree.directory_ne_link, h.leads_put hk, haway,
    fun x hx => ?_⟩
  rw [Tree.get?_put_of_ne hne, if_neg (by simpa using hx)]
  exact h.toPlain.get?_of_prefix_none hnone (List.prefix_append ..)

/-- No scratch directory is made, and nothing is done, or one is made with one of the suffixes. -/
theorem makeScratch_cases (out : Path) (suffixes : List Suffix) (t : Tree) :
    (∃ f, ending (makeScratch out suffixes) t = (.error f, t)) ∨
    ∃ suffix u, t.makeDirectory (scratchPath out suffix) = .ok u ∧
      ending (makeScratch out suffixes) t = (.ok (scratchPath out suffix), u) := by
  induction suffixes with
  | nil => exact .inl ⟨_, rfl⟩
  | cons suffix rest ih =>
    rw [makeScratch]
    cases hmake : t.makeDirectory (scratchPath out suffix) with
    | ok u =>
      exact .inr ⟨suffix, u, hmake,
        Action.ending_rescue_of_ok (Action.ending_bind_of_ok (Action.ending_change_of_ok hmake) _)
          _⟩
    | error f =>
      rw [Action.ending_rescue_of_error
        (Action.ending_bind_of_error (Action.ending_change_of_error hmake) _)]
      split
      · exact ih
      · exact .inl ⟨_, rfl⟩

/-- Either there is no scratch directory, and nothing is done, or what is done in it is what is done
altogether, and it is removed at the end. -/
theorem withScratch_cases (h : t.Home) (out : Path) (suffixes : List Suffix)
    (body : Path → TreeAction Unit) :
    (∃ f, ending (withScratch out suffixes body) t = (.error f, t)) ∨
    ∃ suffix l, t.Leads out l .directory ∧ t.get? (l ++ [scratchName suffix]) = none ∧
      Scratch (t.put (l ++ [scratchName suffix]) .directory) (scratchPath out suffix)
        (l ++ [scratchName suffix]) ∧
      ∀ result w, ending (body (scratchPath out suffix))
        (t.put (l ++ [scratchName suffix]) .directory) = (result, w) →
        w.locate false (scratchPath out suffix) =
          .ok (.present (l ++ [scratchName suffix]) .directory) →
        w.busy = false → ending (withScratch out suffixes body) t =
          (result, w.erase (l ++ [scratchName suffix])) := by
  rw [withScratch]
  rcases makeScratch_cases out suffixes t with ⟨f, hmade⟩ | ⟨suffix, u, hmake, hmade⟩
  · exact .inl ⟨f, Action.ending_bind_of_error hmade _⟩
  · obtain ⟨l, hl, hnone, rfl, hscratch⟩ := scratch_of_makeDirectory h hmake
    refine .inr ⟨suffix, l, hl, hnone, hscratch, fun result w hbody hthere hidle => ?_⟩
    have hremove :
        w.removeAll (scratchPath out suffix) = .ok (w.erase (l ++ [scratchName suffix])) := by
      rw [Tree.removeAll, if_neg (by rw [hidle]; exact Bool.false_ne_true), Tree.entryAt, hthere]
      rfl
    rw [Action.ending_bind_of_ok hmade, Action.ending_bind_of_ok (Action.ending_note _ _ _)]
    exact Action.ending_ensuring hbody
      (Action.ending_rescue_of_ok (Action.ending_change_of_ok hremove) _)

/-! ## What is done in the scratch directory -/

/-- In the tree `u` there is a new directory at `k`, with the entries of some names in a tree and
nothing else; otherwise it is the tree `t`. -/
structure Installs (entries : List Text) (contents : Tree) (k : Location) (t u : Tree) : Prop where
  home : u.Home
  base : u.base = t.base
  free : t.get? k = none
  deck : u.get? k = some .directory
  holds : ∀ name rest, u.get? (k ++ name :: rest) = if name ∈ entries then
    contents.get? (name :: rest) else none
  there : ∀ name ∈ entries, (contents.get? [name]).isSome
  outside : ∀ m, ¬k <+: m → u.get? m = t.get? m

/-- What is done in a scratch directory stays in it, or entries are moved into the deck. -/
theorem unpack_install_cases (template : Template) (hs : Scratch t scratch r)
    (hnames : ∀ e ∈ template.entries, Deck.IsName e) (hnodup : template.entries.Nodup)
    (hstays : ∀ n, r.Inside (t.location (deck.upTo n)) → r.Inside (t.location deck))
    (archive : Archive) :
    ∃ result w, ending (do TreeAction.unpack archive scratch; template.install deck scratch) t =
      (result, w) ∧
      ((result = .ok () → r.Inside (t.location deck)) ∧ Within r t w ∨
        (TreeAction.unpack archive .here .blank).1.result = .ok () ∧
          ¬r <+: t.location deck ∧ ¬t.location deck <+: r ∧
          ∃ moved u, Moving deck template.entries () moved result ∧ Fills r t u ∧
            (∀ x, u.get? (r ++ x) = archive.unpacked.get? x) ∧
            u.get? (t.location deck) = none ∧ (∀ e ∈ template.entries, (u.get? (r ++ [e])).isSome) ∧
            Moved r (t.location deck) moved.reverse u w ∧ w.Leads scratch r .directory) := by
  have hfills :=
    TreeAction.unpack_preserves hs.home hs.leads archive t ⟨.refl hs.home.toPlain hs.away, hs.home⟩
  have hcontents := TreeAction.unpack_of_empty hs.home hs.leads hs.empty archive
  generalize hu : (TreeAction.unpack archive scratch t).2 = u at hfills hcontents
  cases hunpack : (TreeAction.unpack archive scratch t).1.result with
  | error f =>
    have hending : ending (TreeAction.unpack archive scratch) t = (.error f, u) := by
      rw [ending, hunpack, hu]
    exact ⟨_, _, Action.ending_bind_of_error hending _, .inl ⟨(fun h => by cases h), hfills.1⟩⟩
  | ok =>
    have hending : ending (TreeAction.unpack archive scratch) t = (.ok (), u) := by
      rw [ending, hunpack, hu]
    rw [Action.ending_bind_of_ok hending]
    obtain ⟨hunpacked, hcontents⟩ := hcontents hunpack
    rcases template.install_cases hs hfills hnames with ⟨f, hf⟩ | ⟨k, hdeck, hthere, hinstall⟩
    · exact ⟨_, _, hf, .inl ⟨(fun h => by cases h), hfills.1⟩⟩
    · obtain rfl := location_deck hfills hdeck
      rw [hinstall]
      by_cases hin : r.Inside (t.location deck)
      · have hput : Within r t (u.put (t.location deck) .directory) :=
          hfills.1.put hin Tree.directory_ne_link
        exact ⟨_, _, rfl,
          .inl ⟨fun _ => hin, forM_moveEntry_preserves hs hfills hnames hdeck hin _ hput⟩⟩
      · have hpath (n : Nat) : ¬r.Inside (t.location (deck.upTo n)) := mt (hstays n) hin
        have hkr := not_prefix_scratch hs hfills hdeck
        have hrk := not_prefix_deck hs hfills hdeck hpath
        obtain ⟨result, moved, w, hw, hmoving, hmoved⟩ :=
          forM_moveEntry hs hfills hdeck hpath hnodup hnames hthere
          (fun _ _ => List.not_mem_nil) (.nil hkr hrk hfills.2 hdeck)
        rw [List.append_nil] at hmoved
        exact ⟨result, w, hw, .inr ⟨hunpacked, hrk, hkr, moved, u, hmoving, hfills, hcontents,
          Tree.Linkless.get?_of_absent hfills.2.linkless hdeck, fun e he => (hthere e he).2, hmoved,
          hmoved.leads_scratch hs hfills hdeck⟩⟩

/-- The deck is left with the entries that were moved into it. -/
theorem installs_of_moved (h : t.Home) (hr : r ≠ []) (hnone : t.get? r = none)
    (hu : Fills r (t.put r .directory) u)
    (hcontents : ∀ x, u.get? (r ++ x) = archive.unpacked.get? x) (hk : u.get? k = none)
    (hrk : ¬r <+: k) (hthere : ∀ e ∈ entries, (u.get? (r ++ [e])).isSome)
    (hw : Moved r k entries.reverse u w) :
    Installs entries archive.unpacked k t (w.erase r) := by
  have hne : t.get? r ≠ some .directory := Tree.ne_directory_of_none hnone
  have hput (m : Location) (hm : ¬r <+: m) : (t.put r .directory).get? m = t.get? m := by
    rw [Tree.get?_put_of_ne hne, if_neg (by rintro rfl; exact hm (List.prefix_refl m))]
  have houtside (m : Location) (hm : ¬r <+: m) : u.get? m = t.get? m := by
    rw [hu.1.outside m fun hin => hm hin.1, hput m hm]
  have hkr : ¬k <+: r := fun hkr => by
    have hroot : u.get? r = some .directory := by
      rw [hu.1.outside r fun hin => hin.2 rfl, Tree.get?_put_of_ne hne, if_pos rfl]
    rw [hu.2.toPlain.get?_of_prefix_none hk hkr] at hroot
    cases hroot
  have hbase : w.base = t.base := hw.base.trans hu.1.base
  have herased (m : Location) (hm : ¬r <+: m) : (w.erase r).get? m = w.get? m := by
    rw [Tree.get?_erase w hr, if_neg hm]
  refine ⟨⟨hw.home.toPlain.erase hr, ?_⟩, hbase, by rw [← houtside k hrk, hk], ?_,
    fun name rest => ?_, fun name hname => ?_,
    fun m hm => ?_⟩
  · have haway : ¬r <+: w.base := by
      rw [hbase]
      intro hpre
      have := h.toPlain.get?_of_prefix_none hnone hpre
      rw [h.home] at this
      cases this
    show (w.erase r).get? w.base = _
    rw [herased _ haway, hw.home.home]
  · rw [herased k hrk, hw.deck]
  · rw [herased _ (not_prefix_append hrk hkr _), hw.entries, hcontents]
    simp only [List.mem_reverse]
  · rw [← hcontents]
    exact hthere name hname
  · by_cases hrm : r <+: m
    · rw [Tree.get?_erase w hr, if_pos hrm, h.toPlain.get?_of_prefix_none hnone hrm]
    · rw [herased m hrm, hw.outside m hm fun hin => hrm hin.1, houtside m hrm]

/-! ## The whole -/

/-- A deck's path that leads into a scratch directory that is not there yet stays in it. -/
def StaysIn (t : Tree) (out deck : Path) : Prop :=
  ∀ suffix n, t.get? (t.location (scratchPath out suffix)) = none →
    (t.location (scratchPath out suffix)).Inside (t.location (deck.upTo n)) →
    (t.location (scratchPath out suffix)).Inside (t.location deck)

/-- A path without steps up does not lead out of a directory again. -/
theorem staysIn_of_not_mem (hup : Path.up ∉ deck.parts) : StaysIn t out deck := by
  intro suffix n _ hin
  exact hin.below (Tree.location_above hup t n)

/-- No scratch directory is above a deck that is downwards from the directory of the decks. -/
theorem not_inside_scratch {first : Text} {names : List Text}
    (hup : Path.up ∉ ("deck-".toList ++ first) :: names) (suffix : Suffix) :
    ¬(t.location (scratchPath out suffix)).Inside
      (t.location (out.append ⟨[], ("deck-".toList ++ first) :: names⟩)) := by
  have hscratch : Path.up ∉ [scratchName suffix] := by
    simpa [eq_comm] using scratchName_ne_up suffix
  rw [scratchPath, Tree.location_append hscratch, Tree.location_append hup]
  rintro ⟨hpre, -⟩
  rw [List.prefix_append_right_inj, List.cons_prefix_cons] at hpre
  have hdot : (scratchName suffix)[0]? = some '.' := rfl
  have hletter : ("deck-".toList ++ first)[0]? = some 'd' := rfl
  rw [hpre.1, hletter] at hdot
  cases hdot

/-- In a tree that has more directories, it stays in it as well. -/
theorem StaysIn.opens (h : StaysIn t out deck) (hopens : t.Opens out v) : StaysIn v out deck := by
  intro suffix n hnone hin
  simp only [Tree.location_congr hopens.base] at hnone hin ⊢
  exact h suffix n (hopens.none_of_none hnone) hin

/-- What is done in a scratch directory leaves nothing, or it leaves the deck. -/
theorem withScratch_install_cases (hv : v.Home) (hnames : ∀ e ∈ template.entries, Deck.IsName e)
    (hnodup : template.entries.Nodup) (hstays : StaysIn v out deck) (suffixes : List Suffix)
    (archive : Archive) :
    ∃ result u, ending (withScratch out suffixes fun scratch => do
        TreeAction.unpack archive scratch
        template.install deck scratch) v = (result, u) ∧
      (u = v ∧ (result = .ok () →
        ∃ suffix, (v.location (scratchPath out suffix)).Inside (v.location deck)) ∨
        (TreeAction.unpack archive .here .blank).1.result = .ok () ∧
          ∃ l moved, v.Leads out l .directory ∧ Moving deck template.entries () moved result ∧
            Installs moved archive.unpacked (v.location deck) v u) := by
  rcases withScratch_cases hv out suffixes fun scratch => do
      TreeAction.unpack archive scratch
      template.install deck scratch with ⟨f, hf⟩ | ⟨suffix, l, hl, hnone, hscratch, hrun⟩
  · exact ⟨_, _, hf, .inl ⟨rfl, fun h => by cases h⟩⟩
  generalize hr : l ++ [scratchName suffix] = r at *
  have hrne : r ≠ [] := by
    rw [← hr]
    simp
  have hbase : (v.put r .directory).base = v.base := rfl
  have hlocation :
      v.location (scratchPath out suffix) = r := by
    rw [← Tree.location_congr hbase, hscratch.location_eq]
  have hstays' (n : Nat) : r.Inside ((v.put r .directory).location (deck.upTo n)) →
      r.Inside ((v.put r .directory).location deck) := by
    rw [Tree.location_congr hbase, Tree.location_congr hbase, ← hlocation]
    exact hstays suffix n (by rw [hlocation, hnone])
  obtain ⟨result, w, hbody, hcases⟩ :=
    unpack_install_cases template hscratch hnames hnodup hstays' archive
  rw [Tree.location_congr hbase] at hcases
  rcases hcases with ⟨hin, hw⟩ | ⟨hunpacked, hrk, hkr, moved, u, hmoving, hu, hcontents, hk, hthere,
    hmoved, hleads⟩
  · have hlocate := hscratch.leads.locate_mono hscratch.home.toPlain hw.base
      (fun _ => hscratch.directory_of_within hw) false
    exact ⟨result, _, hrun result w hbody hlocate hw.idle, .inl ⟨hw.erase_root hv.toPlain hnone,
      fun hok => ⟨suffix, hlocation ▸ hin hok⟩⟩⟩
  · have hlocate : w.locate false (scratchPath out suffix) = .ok (.present r .directory) := by
      rw [hmoved.home.locate_follow, hleads]
    have hinstalls :=
      installs_of_moved hv hrne hnone hu hcontents hk hrk (fun e he => hthere e (hmoving.subset he))
        hmoved
    exact ⟨result, _, hrun _ w hbody hlocate hmoved.home.idle,
      .inr ⟨hunpacked, l, moved, hl, hmoving, hinstalls⟩⟩

/-- The entries `moved` of a template are in the new deck, and the rest of the tree is as before,
but for the directories on the way to `out`. -/
def Leaves (template : Template) (out deck : Path) (moved : List Text) (t u : Tree) : Prop :=
  t.contains deck = false ∧
    ∃ archive v l, template.contents t = .ok archive ∧
      (TreeAction.unpack archive .here .blank).1.result = .ok () ∧
      v.Home ∧ t.Opens out v ∧ v.Leads out l .directory ∧
        Installs moved archive.unpacked (t.location deck) v u

/-- How the making of a deck ends. -/
theorem makeDeck_cases (ht : t.Home) (hnames : ∀ e ∈ template.entries, Deck.IsName e)
    (hnodup : template.entries.Nodup) (hstays : StaysIn t out (s.deckPath slug out))
    (suffixes : List Suffix) :
    ∃ result u, ending (template.makeDeck s suffixes slug out) t = (result, u) ∧
      (t.Opens out u ∧ u.Home ∧ (∀ path, result = .ok path →
          ∃ suffix, (t.location (scratchPath out suffix)).Inside
            (t.location (s.deckPath slug out))) ∨
        ∃ moved, Moving (s.deckPath slug out) template.entries (s.deckPath slug out) moved result ∧
          Leaves template out (s.deckPath slug out) moved t u) := by
  rw [makeDeck]
  cases hcontents : template.contents t with
  | error f =>
    exact ⟨_, _, Action.ending_bind_of_error (by rw [Action.ending_find, hcontents]) _,
      .inl ⟨.refl out t, ht, fun _ h => by cases h⟩⟩
  | ok archive =>
    rw [Action.ending_bind_of_ok (by rw [Action.ending_find, hcontents])]
    dsimp only
    generalize hdeck : s.deckPath slug out = deck at hstays ⊢
    rcases Tree.ask_cases Tree.contains true deck t with hask | hask
    · rw [Action.ending_bind_of_ok (a := t.contains deck)
        (by rw [TreeAction.ask, Action.ending_find, hask])]
      cases hcontains : t.contains deck with
      | true =>
        rw [if_pos rfl]
        exact ⟨_, _, Action.ending_bind_of_error (Action.ending_throw _ t) _,
          .inl ⟨.refl out t, ht, fun _ h => by cases h⟩⟩
      | false =>
        rw [if_neg (by simp)]
        obtain ⟨hv, hopens⟩ := TreeAction.makeDirectories_opens ht true out
        generalize hvt : (TreeAction.makeDirectories true out t).2 = v at hv hopens
        cases hmake : (TreeAction.makeDirectories true out t).1.result with
        | error f =>
          have hending : ending (TreeAction.makeDirectories true out) t = (.error f, v) := by
            rw [ending, hmake, hvt]
          exact ⟨_, _, Action.ending_bind_of_error hending _,
            .inl ⟨hopens, hv, fun _ h => by cases h⟩⟩
        | ok =>
          have hending : ending (TreeAction.makeDirectories true out) t = (.ok (), v) := by
            rw [ending, hmake, hvt]
          rw [Action.ending_bind_of_ok hending, Action.ending_bind_of_ok (Action.ending_note _ _ v)]
          obtain ⟨result, u, hrun, hcases⟩ :=
            withScratch_install_cases hv hnames hnodup (hstays.opens hopens) suffixes archive
          simp only [Tree.location_congr hopens.base] at hcases
          rcases hcases with ⟨rfl, hinside⟩ | ⟨hunpacked, l, moved, hl, hmoving, hinstalls⟩
          · cases result with
            | error f => exact ⟨_, _, Action.ending_bind_of_error hrun _,
                .inl ⟨hopens, hv, fun _ h => by cases h⟩⟩
            | ok => exact ⟨_, _, Action.ending_bind_of_ok hrun _,
                .inl ⟨hopens, hv, fun _ _ => hinside rfl⟩⟩
          · have hleaves : Leaves template out deck moved t u :=
              ⟨hcontains, archive, v, l, hcontents, hunpacked, hv, hopens, hl, hinstalls⟩
            cases hmoving with
            | all hfits =>
                exact ⟨_, _, Action.ending_bind_of_ok hrun _, .inr ⟨_, .all hfits, hleaves⟩⟩
            | stopped h hbefore hlong =>
              exact ⟨_, _, Action.ending_bind_of_error hrun _,
                .inr ⟨_, .stopped h hbefore hlong, hleaves⟩⟩
    · exact ⟨_, _, Action.ending_bind_of_error (by rw [TreeAction.ask, Action.ending_find, hask]) _,
        .inl ⟨.refl out t, ht, fun _ h => by cases h⟩⟩

/-- If the making of a deck fails, nothing is left of it; or the path of an entry in the deck is too
long, and the deck is left with the entries before that one. -/
theorem makeDeck_fails_cases (ht : t.Home) (hnames : ∀ e ∈ template.entries, Deck.IsName e)
    (hnodup : template.entries.Nodup) (hstays : StaysIn t out (s.deckPath slug out))
    (hfails : (template.makeDeck s suffixes slug out t).1.result = .error f) :
    t.Opens out (template.makeDeck s suffixes slug out t).2 ∨
    ∃ before e after, template.entries = before ++ e :: after ∧
      (∀ b ∈ before, ((s.deckPath slug out).child b).fits = true) ∧
      ((s.deckPath slug out).child e).fits = false ∧
      f = .refused .nameTooLong ((s.deckPath slug out).child e).toText ∧
      Leaves template out (s.deckPath slug out) before t
        (template.makeDeck s suffixes slug out t).2 := by
  obtain ⟨result, u, hending, hcases⟩ := makeDeck_cases ht hnames hnodup hstays suffixes
  obtain ⟨hresult, rfl⟩ := Prod.mk.inj hending
  rcases hcases with ⟨hopens, -⟩ | ⟨moved, hmoving, hleaves⟩
  · exact .inl hopens
  · rw [hfails] at hresult
    subst hresult
    cases hmoving with
    | stopped h hbefore hlong => exact .inr ⟨moved, _, _, h, hbefore, hlong, rfl, hleaves⟩

/-- The template in `template.zip`. -/
def sample (entries : List Text) : Template := ⟨⟨[], ["template.zip".toList]⟩, entries⟩

/-- The template with the page and the library. -/
def wholeSample : Template := sample ["index.html".toList, "lib".toList]

/-- The same template, with the library first. -/
def turnedSample : Template := sample ["lib".toList, "index.html".toList]

/-- A suffix for scratch directories. -/
def sampleSuffix : Suffix := fun _ => ⟨0, by decide⟩

/-- A member without bytes. -/
def emptyMember (name : Text) : Member := { name := name, bytes := [] }

theorem isName_of_mem_wholeSample : ∀ e ∈ wholeSample.entries, Deck.IsName e := by
  intro e he
  rcases List.mem_pair.1 he with rfl | rfl
  · exact ⟨by decide, by decide⟩
  · exact ⟨by decide, by decide⟩

theorem isName_of_mem_turnedSample : ∀ e ∈ turnedSample.entries, Deck.IsName e := fun e he =>
  isName_of_mem_wholeSample e (List.mem_reverse.1 he)

/-- A tree with an archive in which a file stands where another one needs a directory. -/
def clashing : Tree where
  base := []
  entries := [(["template.zip".toList],
    .file ⟨[], some (.readable
      [emptyMember "lib".toList, emptyMember "index.html".toList,
        emptyMember "lib/offline-v2.css".toList])⟩)]

/-- A tree with an archive of a page and a stylesheet, and a directory beside it. -/
def packed : Tree where
  base := []
  entries := [(["template.zip".toList],
      .file ⟨[], some (.readable
        [emptyMember "index.html".toList, emptyMember "lib/offline-v2.css".toList])⟩),
    (["out".toList], .directory), (["out".toList, "deck-".toList], .directory)]

/-- A path that is almost too long. -/
def longOut : Path := ⟨[], List.replicate 16 (List.replicate 63 '𝄞')⟩

/-- The making of a deck in such a directory, under a long slug. -/
def longMaking : Attempt Failure Path × Tree :=
  turnedSample.makeDeck (.defaults .here) [sampleSuffix] (List.replicate 34 'x') longOut packed

/-- The path of this deck. -/
def longDeck : Path := (Settings.defaults .here).deckPath (List.replicate 34 'x') longOut

/-- An archive that cannot be unpacked leaves nothing but the directories on the way to the deck. In
a directory whose path is almost too long, the library is moved into the deck and the page is
not. -/
theorem makeDeck_fails_cases_both :
    clashing.Opens ⟨[], [['a'], ['b']]⟩
        (wholeSample.makeDeck (.defaults .here) [sampleSuffix] ['x'] ⟨[], [['a'], ['b']]⟩
          clashing).2 ∧
      longMaking.1.result =
        .error (.refused .nameTooLong (longDeck.child "index.html".toList).toText) ∧
      Leaves turnedSample longOut longDeck ["lib".toList] packed longMaking.2 := by
  have hlong : (longDeck.child "index.html".toList).fits = false := by decide +kernel
  have hshort : (longDeck.child "lib".toList).fits = true := by decide +kernel
  refine ⟨?_, ?_⟩
  · have herror : (wholeSample.makeDeck (.defaults .here) [sampleSuffix] ['x']
        ⟨[], [['a'], ['b']]⟩ clashing).1.result.toOption = none := by decide +kernel
    obtain ⟨f, hf⟩ := Outcome.exists_error_of_toOption herror
    rcases makeDeck_fails_cases ⟨Tree.plain_of_isPlain (by decide +kernel), by decide⟩
      isName_of_mem_wholeSample (by decide)
      (staysIn_of_not_mem (by decide)) hf with hopens | ⟨before, e, after, hentries, -, htoo, -⟩
    · exact hopens
    · have hmem : e ∈ wholeSample.entries :=
        hentries ▸ List.mem_append_right before (List.mem_cons_self ..)
      rcases List.mem_pair.1 hmem with rfl | rfl
      · exact absurd htoo (by decide)
      · exact absurd htoo (by decide)
  · obtain ⟨herror, hthere⟩ : longMaking.1.result.toOption = none ∧
        longMaking.2.get? (packed.location longDeck) = some .directory := by decide +kernel
    obtain ⟨f, hf⟩ := Outcome.exists_error_of_toOption herror
    have hdown : Path.up ∉ longDeck.parts := by decide +kernel
    rcases makeDeck_fails_cases ⟨Tree.plain_of_isPlain (by decide +kernel), by decide⟩
      isName_of_mem_turnedSample (by decide)
      (staysIn_of_not_mem hdown) hf
        with hopens | ⟨before, e, after, hentries, hbefore, htoo, rfl, hleaves⟩
    · have hnone : packed.get? (packed.location longDeck) = none := by decide +kernel
      rcases hopens.grown (packed.location longDeck) with heq | ⟨-, -, n, hn⟩
      · cases (hnone.symm.trans heq.symm).trans hthere
      · have habove : packed.location (longOut.upTo n) <+: packed.location longOut :=
          Tree.location_above (by decide +kernel) packed n
        rw [← hn] at habove
        exact absurd habove.length_le (by decide +kernel)
    · cases before with
      | nil =>
        obtain rfl : "lib".toList = e := (List.cons.inj hentries).1
        cases hshort.symm.trans htoo
      | cons first rest =>
        obtain ⟨rfl, hrest⟩ : "lib".toList = first ∧ ["index.html".toList] = rest ++ e :: after :=
          List.cons.inj hentries
        rcases List.singleton_eq_append_iff.1 hrest with ⟨rfl, hlast⟩ | ⟨-, hlast⟩
        · obtain rfl := (List.cons.inj hlast).1
          exact ⟨hf, hleaves⟩
        · cases hlast

/-- The making of a deck fails, and there is a directory where the deck would be and nothing was
before. -/
def LeavesDeck (entries : List Text) (slug : Text) (out : Path) (t : Tree) : Prop :=
  ((sample entries).makeDeck (.defaults .here) [sampleSuffix] slug out t).1.result.toOption = none ∧
    t.get? (t.location ((Settings.defaults .here).deckPath slug out)) = none ∧
    ((sample entries).makeDeck (.defaults .here) [sampleSuffix] slug out t).2.get?
      (t.location ((Settings.defaults .here).deckPath slug out)) = some .directory

instance (entries : List Text) (slug : Text) (out : Path) (t : Tree) :
    Decidable (LeavesDeck entries slug out t) :=
  inferInstanceAs (Decidable (_ ∧ _ ∧ _))

/-- A deck is left behind by a failure if the path of an entry in it is too long; if a directory on
the way to `out` is called like it, if an entry is a step up, and if its path leads through an entry
that is moved away. -/
theorem makeDeck_leaves_deck :
    packed.Home ∧
      LeavesDeck ["index.html".toList, "lib".toList] (List.replicate 26 's')
        ⟨[], (List.replicate 28 [List.replicate 34 '𝄞', "..".toList]).flatten ++
          [List.replicate 34 '𝄞']⟩ packed ∧
      LeavesDeck ["index.html".toList, "lib".toList] "x".toList
        ⟨[], ["a".toList, "deck-x".toList, "..".toList]⟩ packed ∧
      LeavesDeck ["..".toList, "lib".toList] "x".toList ⟨[], ["out".toList]⟩ packed ∧
      LeavesDeck ["lib".toList, "index.html".toList] "/../.extract-aaaaaaaa/lib/../../deck-y".toList
        ⟨[], ["out".toList]⟩ packed := by
  refine ⟨⟨Tree.plain_of_isPlain (by decide +kernel), by decide⟩, ?_, ?_, ?_, ?_⟩
  · decide +kernel
  · decide +kernel
  · decide +kernel
  · decide +kernel

end SlideDeck.Template
