import Mathlib.Data.List.Flatten
import SlideDeck.Proofs.Deck.Merge

/-!
# How the steps of a finalization end

Each step finds nothing to do, changes the tree in a way that is described here, or fails and leaves
the tree as it was: `ensureAssets_end`, `mergeStylesheets_end`, `stripLinks_end` and
`removeArtifacts_end`. The last one fails only at the first build output: if that one's path is not
too long, neither are those of the others (`artifacts_fit_cases`).

It need not be known where the deck's own path leads to say how the links are taken out of the page
or which build outputs are removed. That matters for the build outputs: a path may lead to the deck
through one of them, and then leads nowhere after that one is gone.
-/

namespace SlideDeck

open StepAction (WorkEnd ask onTree report reportChange)

variable {d : Deck} {t u : Tree} {l k m : Location} {name artifact : Text} {p : Path} {f : File}
  {o : Outcome}

/-! ## Reading a file -/

/-- A text is that of a file, or it is not there for a reason that the tree gives. -/
theorem Tree.readText_cases (t : Tree) (p : Path) :
    (∃ k f, t.Leads p k (.file f) ∧
      t.readText p = (Utf8.readLines f.bytes).mapError Failure.undecodable) ∨
      ∃ e, t.readText p = .error e ∧ e.isSystem = true := by
  unfold readText read entryAt
  cases hp : t.locate true p with
  | error e => exact .inr ⟨_, rfl, rfl⟩
  | ok place =>
    cases place with
    | absent k => exact .inr ⟨_, rfl, rfl⟩
    | present k e =>
      cases e with
      | file f => exact .inl ⟨k, f, hp, by rw [← Leads.readText_eq hp, readText, read, entryAt, hp]⟩
      | _ => exact .inr ⟨_, rfl, rfl⟩

namespace TreeAction

/-- A directory below one that is there is made at once. -/
theorem makeDirectories_of_none (ht : t.Plain) (hl : t.Leads p l .directory) (hup : name ≠ Path.up)
    (hfits : (p.append ⟨[], [name]⟩).fits = true) (hn : t.get? (l ++ [name]) = none)
    (lenient : Bool) :
    makeDirectories lenient (p.append ⟨[], [name]⟩) t =
      (⟨[], .ok ()⟩, t.put (l ++ [name]) .directory) := by
  have hlength : (p.append ⟨[], [name]⟩).parts.length = p.parts.length + 1 := List.length_append
  rw [makeDirectories, hlength, makeWithParents]
  exact Action.rescue_of_ok (Action.change_of_ok (hl.makeDirectory_of_none ht hup hfits hn)) _

theorem tolerate_of_leads {e : Entry} (hp : t.Leads p l e) (lenient : Bool) (cause : Failure) :
    tolerate lenient p cause t =
      (⟨[], if lenient = true ∧ t.isDirectory p = true then .ok () else .error cause⟩, t) := by
  cases lenient with
  | false => rfl
  | true =>
    rw [tolerate, if_pos rfl, ask, Action.bind_find_of_ok (hp.ask_eq Tree.isDirectory)]
    cases t.isDirectory p <;> rfl

/-- A directory is not made where there is something. -/
theorem makeDirectories_of_present {e : Entry} (ht : t.Plain) (hp : t.Leads p l e)
    (lenient : Bool) :
    makeDirectories lenient p t =
      (⟨[], if lenient = true ∧ t.isDirectory p = true then .ok ()
        else .error (.refused .exists p.toText)⟩, t) := by
  have hrefused :
      Action.change (·.makeDirectory p) t = (⟨[], .error (.refused .exists p.toText)⟩, t) :=
    Action.change_of_error (hp.makeDirectory_of_present ht)
  rw [makeDirectories]
  cases p.parts.length with
  | zero =>
    rw [makeWithParents, makeOne, Action.rescue_of_error hrefused, tolerate_of_leads hp]
    rfl
  | succ n =>
    rw [makeWithParents, Action.rescue_of_error hrefused]
    dsimp only
    rw [tolerate_of_leads hp]
    rfl

theorem makeDirectories_of_file (ht : t.Plain) (hp : t.Leads p l (.file f)) (lenient : Bool) :
    makeDirectories lenient p t = (⟨[], .error (.refused .exists p.toText)⟩, t) := by
  have hno : t.isDirectory p = false := by
    rw [Tree.isDirectory, hp.entry?_eq]
    rfl
  rw [makeDirectories_of_present ht hp, if_neg (by simp [hno])]

/-- A directory that is there is as good as a new one. -/
theorem makeDirectories_of_directory (ht : t.Plain) (hp : t.Leads p l .directory) :
    makeDirectories true p t = (⟨[], .ok ()⟩, t) := by
  rw [makeDirectories_of_present ht hp, if_pos ⟨rfl, Tree.isDirectory_iff.2 ⟨l, hp⟩⟩]

end TreeAction

namespace Deck

/-- A text is the name of an entry in a directory. -/
def IsName (name : Text) : Prop := Path.ofText name = ⟨[], [name]⟩ ∧ name ≠ Path.up

theorem child_eq (h : IsName name) :
    d.path.child name = d.inRoot name := by rw [Path.child, h.1, inRoot]

/-! ## The directory of assets -/

theorem ensureAssets_end (ht : t.Plain) (hl : t.Leads d.path l .directory)
    (ha : d.assets = d.inRoot name) (hup : name ≠ Path.up) (o : Outcome) :
    WorkEnd (t.Leads d.assets (l ++ [name]) .directory)
      (fun u => d.assets.fits = true ∧ t.get? (l ++ [name]) = none ∧
        u = t.put (l ++ [name]) .directory)
      ((∃ f, t.get? (l ++ [name]) = some (.file f)) ∨ d.assets.fits = false) t o
        (d.ensureAssets ⟨t, o⟩) := by
  have hmem : Path.up ∉ [name] := by simpa [eq_comm] using hup
  rw [ensureAssets]
  cases hfits : d.assets.fits with
  | false =>
    have hask : t.ask Tree.isDirectory true d.assets =
        .error (.refused .nameTooLong d.assets.toText) := by
      rw [ha] at hfits ⊢
      exact hl.ask_of_not_fits ht hfits _
    rw [StepAction.bind_ask_of_error hask]
    exact .fails_silently (.inr rfl) (.inl rfl)
  | true =>
    rw [StepAction.bind_ask_of_ok (ht.ask_of_fits hfits _)]
    have hfits' : (d.path.append ⟨[], [name]⟩).fits = true := by rwa [ha] at hfits
    have hentry :
        t.entry? d.assets = t.get? (l ++ [name]) := by
      rw [ha, inRoot, hl.entry?_append ht hmem hfits']
    rw [Tree.isDirectory, hentry]
    cases hget : t.get? (l ++ [name]) with
    | none =>
      have hmake : TreeAction.makeDirectories true d.assets t =
          (⟨[], .ok ()⟩, t.put (l ++ [name]) .directory) := by
        rw [ha]
        exact TreeAction.makeDirectories_of_none ht hl hup hfits' hget true
      rw [if_neg (by simp), StepAction.bind_onTree_of_silent hmake, StepAction.bind_reportChange,
        StepAction.report_apply, Outcome.changing_saying]
      exact .changes ⟨rfl, rfl, rfl⟩
    | some e =>
      have hleads : t.Leads d.assets (l ++ [name]) e := ha ▸ hl.append ht hmem hfits' hget
      cases e with
      | directory =>
        rw [if_pos (by simp), StepAction.report_apply]
        exact .rests hleads
      | link target => exact absurd hget (ht.linkless _ _)
      | file f =>
        rw [if_neg (by simp),
          StepAction.bind_onTree_of_error (TreeAction.makeDirectories_of_file ht hleads true)]
        refine .fails_silently (.inl ⟨f, rfl⟩) (.inl ?_)
        rfl

/-! ## The stylesheets -/

theorem mergeStylesheets_end (ht : t.Plain) (hl : t.Leads d.path l .directory) (o : Outcome) :
    WorkEnd (d.Settled t l)
      (fun u => ∃ k old canonical sheets, t.Leads d.stylesheet k (.file old) ∧ d.overlong t l = [] ∧
        Utf8.readLines old.bytes = .ok canonical ∧ sheets ≠ [] ∧ d.IsListing t l sheets ∧
        u = merged t l k old canonical sheets) (¬d.Settled t l) t o
      (d.mergeStylesheets ⟨t, o⟩) := by
  have hend := mergeStylesheets_cases ht hl o
  generalize d.mergeStylesheets ⟨t, o⟩ = r at hend ⊢
  cases hend with
  | noStylesheet h => exact .rests (.inl h)
  | tooLong h => exact .fails_silently (fun hs => hs.not_tooLong h) (.inl rfl)
  | nothingLoose hthere hshort h => exact .rests (.inr ⟨hthere, hshort, h⟩)
  | undecodable hk hname => exact .fails (fun h => h.elim hk hname) (.inr rfl)
  | merged hk hshort hread hne hsheets =>
      exact .changes ⟨_, _, _, _, hk, hshort, hread, hne, hsheets, rfl⟩

/-! ## The links of the page -/

/-- What stays of a page. -/
def stripped (d : Deck) (html : Text) : Text :=
  Markup.Stylesheet.strip d.settings.canonicalStylesheet html

theorem stripped_sublist (d : Deck) (html : Text) : (d.stripped html).Sublist html := by
  have hpieces : html = (Markup.Stylesheet.pieces html).flatMap Markup.Stylesheet.Piece.text :=
    (Markup.Stylesheet.flatMap_text_pieces html).symm
  conv_rhs => rw [hpieces]
  exact List.filter_sublist.flatMap _

/-- A page that has been stripped is read as it was written. -/
theorem readLines_stripped {html : Text} (hread : Utf8.readLines f.bytes = .ok html) :
    Utf8.readLines (Utf8.encode (d.stripped html)) = .ok (d.stripped html) := by
  have hreturn : '\r' ∉ d.stripped html :=
    fun h => Utf8.not_mem_of_readLines hread ((d.stripped_sublist html).subset h)
  rw [Utf8.readLines_encode, Utf8.lineFeeds_of_not_mem hreturn]

theorem stripLinks_end (t : Tree) (o : Outcome) :
    WorkEnd (∃ k f html, t.Leads d.page k (.file f) ∧ Utf8.readLines f.bytes = .ok html ∧
      d.stripped html = html)
      (fun u => ∃ k f html, t.Leads d.page k (.file f) ∧ Utf8.readLines f.bytes = .ok html ∧
        d.stripped html ≠ html ∧
        u = t.put k (.file ⟨Utf8.encode (d.stripped html), none⟩))
      (∀ html, t.readText d.page ≠ .ok html) t o (d.stripLinks ⟨t, o⟩) := by
  have hfail {e : Failure} (hread : t.readText d.page = .error e)
      (he : e.isSystem = true ∨ e.isValue = true)
      {rest : Prop} {change : Tree → Prop} :
      WorkEnd rest change (∀ html, t.readText d.page ≠ .ok html) t o (d.stripLinks ⟨t, o⟩) := by
    rw [stripLinks, Action.bind_find_of_error (s := (⟨t, o⟩ : Progress)) hread]
    exact .fails_silently (fun html hok => nomatch hread.symm.trans hok) he
  rcases t.readText_cases d.page with ⟨k, f, hk, hread⟩ | ⟨e, hread, he⟩
  · cases hlines : Utf8.readLines f.bytes with
    | error e =>
      rw [hlines] at hread
      exact hfail hread (.inr rfl)
    | ok html =>
      rw [hlines] at hread
      rw [stripLinks, Action.bind_find_of_ok (s := (⟨t, o⟩ : Progress)) hread]
      by_cases hclean : Markup.Stylesheet.strip d.settings.canonicalStylesheet html = html
      · rw [if_pos hclean, StepAction.report_apply]
        exact .rests ⟨k, f, html, hk, hlines, hclean⟩
      · have hwrite : t.write d.page (Utf8.encode (d.stripped html)) =
            .ok (t.put k (.file ⟨Utf8.encode (d.stripped html), none⟩)) := hk.modifyFile_eq _
        rw [if_neg hclean, StepAction.bind_change_of_ok hwrite, StepAction.bind_reportChange,
          StepAction.report_apply, Outcome.changing_saying]
        exact .changes ⟨k, f, html, hk, hlines, hclean, rfl⟩
  · exact hfail hread (.inl he)

/-! ## The build outputs -/

section Asks

variable (ht : t.Plain) (hfits : p.fits = true) (o : Outcome)

include ht hfits

theorem ask_apply (question : Tree → Path → Bool) :
    ask question p ⟨t, o⟩ = (⟨[], .ok (question t p)⟩, ⟨t, o⟩) := by
  rw [ask, onTree, TreeAction.ask, Action.find_of_ok (ht.ask_of_fits hfits question)]

theorem find_isLink_apply :
    Action.find (·.tree.ask Tree.isLink false p) (⟨t, o⟩ : Progress) =
      (⟨[], .ok false⟩, ⟨t, o⟩) := by
  refine Action.find_of_ok ?_
  show t.ask Tree.isLink false p = .ok false
  rw [ht.ask_of_fits hfits, ht.isLink_eq]

/-- Where there are no links, a directory is a directory itself. -/
theorem isOwnDirectory_apply :
    (ask Tree.isDirectory p <&&> not <$> Action.find (·.tree.ask Tree.isLink false p))
    (⟨t, o⟩ : Progress) =
      (⟨[], .ok (t.isDirectory p)⟩, ⟨t, o⟩) := by
  unfold andM
  rw [Action.bind_of_silent (ask_apply ht hfits o Tree.isDirectory)]
  cases t.isDirectory p with
  | false => rfl
  | true =>
    show (Action.find (·.tree.ask Tree.isLink false p) >>= fun b => pure !b) (⟨t, o⟩ : Progress) = _
    rw [Action.bind_of_silent (find_isLink_apply ht hfits o)]
    rfl

theorem isThere_apply :
    (ask Tree.contains p <||> Action.find (·.tree.ask Tree.isLink false p)) (⟨t, o⟩ : Progress) =
      (⟨[], .ok (t.contains p)⟩, ⟨t, o⟩) := by
  unfold orM
  rw [Action.bind_of_silent (ask_apply ht hfits o Tree.contains)]
  cases t.contains p with
  | false => exact find_isLink_apply ht hfits o
  | true => rfl

end Asks

/-- Removing a build output fails only if its path is too long. -/
theorem removeArtifact_cases (ht : t.Plain) (hname : IsName artifact)
    (hfits : (d.path.child artifact).fits = true) (o : Outcome) :
    t.entry? (d.path.child artifact) = none ∧
      d.removeArtifact artifact ⟨t, o⟩ = (⟨[], .ok ()⟩, ⟨t, o⟩) ∨
    ∃ m e said, t.Leads (d.path.child artifact) m e ∧ m ≠ [] ∧
      d.removeArtifact artifact ⟨t, o⟩ = (⟨[], .ok ()⟩, ⟨t.erase m, (o.saying said).changing⟩) := by
  rw [removeArtifact]
  generalize "Removed directory: ".toList ++ artifact ++ "/".toList = directoryRemoved
  generalize "Removed file: ".toList ++ artifact = fileRemoved
  rw [Action.bind_of_silent (isOwnDirectory_apply ht hfits o), Tree.isDirectory]
  cases hentry : t.entry? (d.path.child artifact) with
  | none =>
    refine .inl ⟨rfl, ?_⟩
    rw [if_neg (by simp), Action.bind_of_silent (isThere_apply ht hfits o), Tree.contains, hentry,
      if_neg (by simp)]
    rfl
  | some e =>
    obtain ⟨m, hm⟩ := Tree.entry?_eq_some_iff.1 hentry
    have hne : m ≠ [] := by
      have hlast : (d.path.child artifact).parts.getLast? = some artifact := by
        rw [child_eq hname]
        exact List.getLast?_concat
      have := Tree.getLast?_of_advance_of_ne_up (hm.advance_eq ht) hlast hname.2
      rintro rfl
      cases this
    cases e with
    | directory =>
      refine .inr ⟨m, _, [directoryRemoved], hm, hne, ?_⟩
      rw [if_pos (by simp), StepAction.bind_change_of_ok (hm.removeAll_eq ht),
        StepAction.bind_report, StepAction.reportChange_apply]
    | link target => exact absurd (hm.get?_eq ht) (ht.linkless m target)
    | file f =>
      refine .inr ⟨m, _, [fileRemoved], hm, hne, ?_⟩
      rw [if_neg (by simp), Action.bind_of_silent (isThere_apply ht hfits o), Tree.contains, hentry,
        if_pos (by simp),
        StepAction.bind_change_of_ok (hm.unlink_eq ht), StepAction.bind_report,
        StepAction.reportChange_apply]

theorem removeArtifact_of_not_fitsText (hlong : (d.path.child artifact).fitsText = false) (t : Tree)
    (o : Outcome) :
    d.removeArtifact artifact ⟨t, o⟩ =
      (⟨[], .error (.refused .nameTooLong (d.path.child artifact).toText)⟩, ⟨t, o⟩) := by
  rw [removeArtifact]
  refine Action.bind_of_error ?_ _
  unfold andM
  exact StepAction.bind_ask_of_error (Tree.ask_of_not_fitsText hlong _) _

/-- The build outputs that are there are removed one after the other. -/
theorem forM_removeArtifact_cases (ht : t.Plain) {artifacts : List Text}
    (hnames : ∀ a ∈ artifacts, IsName a) (hfits : ∀ a ∈ artifacts, (d.path.child a).fits = true)
    (o : Outcome) :
    (∀ a ∈ artifacts, t.entry? (d.path.child a) = none) ∧ artifacts.forM d.removeArtifact ⟨t, o⟩ =
      (⟨[], .ok ()⟩, ⟨t, o⟩) ∨
    ∃ ms said, (∃ a ∈ artifacts, t.entry? (d.path.child a) ≠ none) ∧ ms ≠ [] ∧ [] ∉ ms ∧
      (∀ m ∈ ms, (t.get? m).isSome) ∧
      artifacts.forM d.removeArtifact ⟨t, o⟩ =
        (⟨[], .ok ()⟩, ⟨t.eraseAll ms, (o.saying said).changing⟩) := by
  induction artifacts generalizing t o with
  | nil => exact .inl ⟨nofun, rfl⟩
  | cons a artifacts ih =>
    obtain ⟨ha, hartifacts⟩ := List.forall_mem_cons.1 hnames
    obtain ⟨hfit, hfits⟩ := List.forall_mem_cons.1 hfits
    rw [Action.forM_cons]
    rcases removeArtifact_cases ht ha hfit o with ⟨hnone, heq⟩ | ⟨m, e, said, hm, hne, heq⟩
    · rw [Action.bind_of_silent heq]
      rcases ih ht hartifacts hfits o with ⟨hnones, hrest⟩ | ⟨ms, said, ⟨b, hb, hsome⟩, hrest⟩
      · exact .inl ⟨List.forall_mem_cons.2 ⟨hnone, hnones⟩, hrest⟩
      · exact .inr ⟨ms, said, ⟨b, List.mem_cons_of_mem _ hb, hsome⟩, hrest⟩
    · rw [Action.bind_of_silent heq]
      have hsome : (t.get? m).isSome := by rw [hm.get?_eq ht]; rfl
      have hthere : ∃ b ∈ a :: artifacts, t.entry? (d.path.child b) ≠ none :=
        ⟨a, List.mem_cons_self .., by rw [hm.entry?_eq]; exact nofun⟩
      refine .inr ?_
      rcases ih (ht.erase hne) hartifacts hfits (o.saying said).changing with
        ⟨-, hrest⟩ | ⟨ms, said', -, -, hroot, hms, hrest⟩
      · exact ⟨[m], said, hthere, by simp, by simpa using hne.symm, by simpa using hsome, hrest⟩
      · refine ⟨m :: ms, said ++ said', hthere, by simp, by simp [hne.symm, hroot],
          List.forall_mem_cons.2 ⟨hsome, fun k hk => ?_⟩, ?_⟩
        · have := hms k hk
          rw [Tree.get?_erase t hne] at this
          split at this
          · cases this
          · exact this
        · rw [hrest, Outcome.changing_saying, Outcome.changing_changing, Outcome.saying_saying]
          rfl

/-- The removal of the build outputs fails at the first one, if its path is too long, or not at
all. -/
theorem removeArtifacts_end (ht : t.Plain) {artifacts : List Text}
    (hnames : ∀ a ∈ artifacts, IsName a) (hfits : (∀ a ∈ artifacts, (d.path.child a).fits = true) ∨
      ∃ a rest, artifacts = a :: rest ∧ (d.path.child a).fitsText = false) {step : Text} :
    WorkEnd (∀ a ∈ artifacts, (d.path.child a).fits = true ∧ t.entry? (d.path.child a) = none)
      (fun u => (∀ a ∈ artifacts, (d.path.child a).fits = true) ∧
        (∃ a ∈ artifacts, t.entry? (d.path.child a) ≠ none) ∧
        ∃ ms, ms ≠ [] ∧ [] ∉ ms ∧ (∀ m ∈ ms, (t.get? m).isSome) ∧ u = t.eraseAll ms)
      (∃ a ∈ artifacts, (d.path.child a).fits = false) t { step := step }
      (d.removeArtifacts artifacts ⟨t, { step := step }⟩) := by
  rw [removeArtifacts]
  rcases hfits with hfits | ⟨a, rest, rfl, hlong⟩
  · rcases forM_removeArtifact_cases (d := d) ht hnames hfits { step := step } with
      ⟨hnone, heq⟩ | ⟨ms, said, hthere, hne, hroot, hms, heq⟩
    · rw [Action.bind_of_silent heq, Action.bind_look, if_pos (by simp), StepAction.report_apply]
      exact .rests fun a ha => ⟨hfits a ha, hnone a ha⟩
    · rw [Action.bind_of_silent heq, Action.bind_look, if_neg (by simp)]
      exact .changes ⟨hfits, hthere, ms, hne, hroot, hms, rfl⟩
  · have hfails : (a :: rest).forM d.removeArtifact ⟨t, { step := step }⟩ =
        (⟨[], .error (.refused .nameTooLong (d.path.child a).toText)⟩, ⟨t, { step := step }⟩) :=
      Action.bind_of_error (removeArtifact_of_not_fitsText hlong t _) _
    rw [Action.bind_of_error hfails]
    refine .fails_silently ⟨a, List.mem_cons_self .., ?_⟩ (.inl rfl)
    rw [Path.fits, hlong, Bool.false_and]

/-! ## All steps -/

section Standard

variable {archive : Path} (hs : d.settings = .defaults archive)

include hs

theorem assets_eq : d.assets = d.inRoot "assets".toList := by
  have hname : IsName "assets".toList := ⟨by decide, by decide⟩
  rw [assets, hs]
  exact child_eq hname

theorem page_eq : d.page = d.inRoot "index.html".toList := by
  have hname : IsName "index.html".toList := ⟨by decide, by decide⟩
  rw [page, hs]
  exact child_eq hname

theorem stylesheet_eq :
    d.stylesheet = d.path.append ⟨[], ["lib".toList, "offline-v2.css".toList]⟩ := by
  rw [stylesheet, hs]
  rfl

theorem isName_of_mem (ha : artifact ∈ d.settings.ephemeralArtifacts) : IsName artifact := by
  rw [hs] at ha
  rcases List.mem_pair.1 ha with rfl | rfl
  · exact ⟨by decide, by decide⟩
  · exact ⟨by decide, by decide⟩

/-- If the path of the first build output is not too long, neither is that of another one. -/
theorem artifacts_fit_cases (hfits : d.path.fits = true) :
    (∀ a ∈ d.settings.ephemeralArtifacts, (d.path.child a).fits = true) ∨
      ∃ a rest, d.settings.ephemeralArtifacts = a :: rest ∧ (d.path.child a).fitsText = false := by
  have hartifacts :
      d.settings.ephemeralArtifacts = ["screenshots".toList, "output.pdf".toList] := by rw [hs]; rfl
  have hchild {a : Text} (ha : IsName a) (hname : Path.fitsName a = true)
      (hlong : (d.inRoot a).fitsText = true) :
      (d.path.child a).fits = true := by
    rw [child_eq ha]
    exact (Path.fits_append_iff hfits).2 ⟨hlong, List.forall_mem_singleton.2 hname⟩
  rw [hartifacts]
  cases hlong : (d.path.child "screenshots".toList).fitsText with
  | false => exact .inr ⟨_, _, rfl, hlong⟩
  | true =>
    rw [child_eq ⟨by decide, by decide⟩] at hlong
    refine .inl fun a ha => ?_
    rcases List.mem_pair.1 ha with rfl | rfl
    · exact hchild ⟨by decide, by decide⟩ (by decide) hlong
    · exact hchild ⟨by decide, by decide⟩ (by decide)
        (Path.fitsText_append_of_size_le (by decide) hlong)

end Standard

/-- A step finds nothing to do in a tree in which the deck is at `l`. -/
def Rests (d : Deck) (l : Location) (t : Tree) : Step → Prop
  | .assets => t.Leads d.assets (l ++ ["assets".toList]) .directory
  | .stylesheets => d.Settled t l
  | .links => ∃ k f html, t.Leads d.page k (.file f) ∧ Utf8.readLines f.bytes = .ok html ∧
      d.stripped html = html
  | .artifacts => ∀ a ∈ d.settings.ephemeralArtifacts,
      (d.path.child a).fits = true ∧ t.entry? (d.path.child a) = none

/-- A step changes a tree in which the deck is at `l` into another one. -/
def Changes (d : Deck) (l : Location) (t : Tree) : Step → Tree → Prop
  | .assets, u => d.assets.fits = true ∧ t.get? (l ++ ["assets".toList]) = none ∧
      u = t.put (l ++ ["assets".toList]) .directory
  | .stylesheets, u => ∃ k old canonical sheets, t.Leads d.stylesheet k (.file old) ∧
      d.overlong t l = [] ∧
      Utf8.readLines old.bytes = .ok canonical ∧ sheets ≠ [] ∧ d.IsListing t l sheets ∧
      u = merged t l k old canonical sheets
  | .links, u => ∃ k f html, t.Leads d.page k (.file f) ∧ Utf8.readLines f.bytes = .ok html ∧
      d.stripped html ≠ html ∧
      u = t.put k (.file ⟨Utf8.encode (d.stripped html), none⟩)
  | .artifacts, u => (∀ a ∈ d.settings.ephemeralArtifacts, (d.path.child a).fits = true) ∧
      (∃ a ∈ d.settings.ephemeralArtifacts, t.entry? (d.path.child a) ≠ none) ∧
      ∃ ms, ms ≠ [] ∧ [] ∉ ms ∧ (∀ m ∈ ms, (t.get? m).isSome) ∧ u = t.eraseAll ms

/-- A step fails in a tree in which the deck is at `l`. -/
def Fails (d : Deck) (l : Location) (t : Tree) : Step → Prop
  | .assets => (∃ f, t.get? (l ++ ["assets".toList]) = some (.file f)) ∨ d.assets.fits = false
  | .stylesheets => ¬d.Settled t l
  | .links => ∀ html, t.readText d.page ≠ .ok html
  | .artifacts => ∃ a ∈ d.settings.ephemeralArtifacts, (d.path.child a).fits = false

/-- A step that is run on a tree ends with an outcome and another tree. -/
def Ends (d : Deck) (l : Location) (t : Tree) (step : Step) (o : Outcome) (u : Tree) : Prop :=
  StepAction.StepEnd (d.Rests l t step) (d.Changes l t step) (d.Fails l t step) t o u

theorem Ends.ok {step : Step} {o : Outcome} {u : Tree} (h : d.Ends l t step o u)
    (hfails : ¬d.Fails l t step) :
    o.ok = true := by
  cases h with
  | rests _ hok => exact hok
  | changes _ hok => exact hok
  | fails h => exact absurd h hfails

/-- Every step has an outcome. -/
theorem runStep_cases {archive : Path} (hs : d.settings = .defaults archive) (ht : t.Plain)
    (hl : t.Leads d.path l .directory) (step : Step) :
    ∃ o, (d.runStep step t).1.result = .ok o ∧ o.step = step.name ∧
      d.Ends l t step o (d.runStep step t).2 := by
  refine StepAction.run_cases ?_
  cases step with
  | assets => exact ensureAssets_end ht hl (assets_eq hs) (by decide) _
  | stylesheets => exact mergeStylesheets_end ht hl _
  | links => exact stripLinks_end t _
  | artifacts =>
      exact removeArtifacts_end ht (fun a ha => isName_of_mem hs ha)
        (artifacts_fit_cases hs (hl.fits ht))

end Deck

end SlideDeck
