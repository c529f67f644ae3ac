import SlideDeck.Proofs.Deck.Outcomes

/-!
# Finalizing a deck again

A finalization without failures leaves a deck in which there is nothing more to do but, perhaps, for
the links of its page: the directory of assets is there, nothing is left to merge, and there are no
build outputs (`Finalized`). A second one finds that the steps rest (`finalize_again`). Only the
page can change, if links are left in the page that has been stripped once, since what stood around
a link can make a new one.

A path that leads to the deck through one of its build outputs, as `deck/screenshots/..` does, leads
nowhere any more when they have been removed, and a second finalization is refused then
(`finalize_roundabout`). `StandsAt` says that a deck's path is none of these; that is so for all
paths in which no step up comes after a name (`isDirectory_finalize`).
-/

namespace SlideDeck

variable {t u : Tree} {l m s : Location} {p : Path} {names : List Text}

/-! ## Erasing in trees that hold the same -/

namespace Tree

theorem not_mem_map_concat (l : Location) (names : List Text) :
    [] ∉ names.map fun a => l ++ [a] := by simp

theorem Same.eraseAll (h : t.Same u) {ls : List Location} (hls : [] ∉ ls) :
    (t.eraseAll ls).Same (u.eraseAll ls) := by
  intro m
  rw [get?_eraseAll hls, get?_eraseAll hls, h m]

theorem Plain.eraseAll_concat (ht : t.Plain) (l : Location) (names : List Text) :
    (t.eraseAll (names.map fun a => l ++ [a])).Plain := ht.eraseAll (not_mem_map_concat l names)

/-- What a path leads to without some entries is what it leads to with them. -/
theorem leads_of_eraseAll (ht : t.Plain) {ls : List Location} (hls : [] ∉ ls)
    (h : (t.eraseAll ls).Leads p m .directory) : t.Leads p m .directory := by
  refine h.mono_directory (ht.eraseAll hls) ht (base_eraseAll _).symm fun k hk => ?_
  rw [get?_eraseAll hls] at hk
  split at hk
  · cases hk
  · exact hk

/-- Erasing what is not there changes nothing. -/
theorem Plain.same_erase (ht : t.Plain) (hm : t.get? m = none) : t.Same (t.erase m) := by
  have hne : m ≠ [] := ne_nil_of_get?_ne (by rw [hm]; exact nofun)
  intro k
  rw [Tree.get?_erase t hne]
  split
  · next hk =>
    cases hget : t.get? k with
    | none => rfl
    | some e =>
      by_cases heq : m = k
      · rw [← heq, hm] at hget
        cases hget
      · rw [ht.directory_of_prefix (by rw [hget]; rfl) hk heq] at hm
        cases hm
  · rfl

theorem Plain.same_eraseAll_cons (ht : t.Plain) {a : Text} (ha : t.get? (l ++ [a]) = none)
    (names : List Text) :
    (t.eraseAll (names.map fun a => l ++ [a])).Same
      (t.eraseAll ((a :: names).map fun a => l ++ [a])) :=
  (ht.same_erase ha).eraseAll (not_mem_map_concat l names)

theorem Plain.leads_eraseAll_cons_iff (ht : t.Plain) {a : Text} (ha : t.get? (l ++ [a]) = none)
    {e : Entry} :
    (t.eraseAll ((a :: names).map fun a => l ++ [a])).Leads p m e ↔
      (t.eraseAll (names.map fun a => l ++ [a])).Leads p m e := by
  have hsame := ht.same_eraseAll_cons ha names
  have hbase : (t.eraseAll ((a :: names).map fun a => l ++ [a])).base =
      (t.eraseAll (names.map fun a => l ++ [a])).base := by
    rw [base_eraseAll, base_eraseAll]
  have hcons := ht.eraseAll_concat l (a :: names)
  exact ⟨.same hcons (ht.eraseAll_concat l names) hbase.symm hsame.symm,
    .same (ht.eraseAll_concat l names) hcons hbase hsame⟩

/-- Steps up at the start of a path do not depend on the tree. -/
theorem exists_advance_climb (n : Nat) (s : Location) :
    ∃ k, ∀ (t : Tree) (names : List Text),
      advance t true s (List.replicate n Path.up ++ names) = advance t true k names := by
  induction n generalizing s with
  | zero => exact ⟨s, fun _ _ => rfl⟩
  | succ n ih =>
    obtain ⟨k, hk⟩ := ih s.dropLast
    refine ⟨k, fun t names => ?_⟩
    rw [List.replicate_succ, List.cons_append, advance_up, hk]

/-- A walk downwards starts in a directory. -/
theorem Plain.directory_of_advance (ht : t.Plain) (hup : Path.up ∉ names)
    (h : advance t true s names = .ok (.place (.present l .directory))) :
    t.get? s = some .directory := by
  cases names with
  | nil =>
    rw [advance] at h
    split at h <;> cases h
    assumption
  | cons name rest =>
    simp only [List.mem_cons, not_or] at hup
    have hsome : (t.get? (s ++ [name])).isSome := by
      rw [advance_cons t true s (fun hn => hup.1 hn.symm)
        (fitsName_of_advance (fun hn => hup.1 hn.symm) h)] at h
      split at h
      · split at h <;> cases h
      all_goals next he => rw [he]; rfl
    exact ht.above hsome

end Tree

namespace Deck

open StepAction (StepEnd)

variable {d : Deck} {o : Outcome} {archive : Path} {html : Text} {f : File}

/-! ## Decks that stay where they are -/

/-- The build outputs that a finalization removes: none if the path of one of them is too long. -/
def outputs (d : Deck) : List Text :=
  if d.settings.ephemeralArtifacts.all fun a => (d.path.child a).fits then
    d.settings.ephemeralArtifacts else []

theorem outputs_eq (h : ∀ a ∈ d.settings.ephemeralArtifacts, (d.path.child a).fits = true) :
    d.outputs = d.settings.ephemeralArtifacts := if_pos (List.all_eq_true.2 h)

theorem mem_of_mem_outputs {a : Text} (h : a ∈ d.outputs) :
    a ∈ d.settings.ephemeralArtifacts ∧ (d.path.child a).fits = true := by
  rw [outputs] at h
  split at h
  · next hall => exact ⟨h, List.all_eq_true.1 hall a h⟩
  · cases h

/-- The deck's path leads to the directory at `l`, and not through one of the build outputs that are
removed. -/
def StandsAt (d : Deck) (t : Tree) (l : Location) : Prop :=
  (t.eraseAll (d.outputs.map fun a => l ++ [a])).Leads d.path l .directory

theorem StandsAt.leads (h : d.StandsAt t l) (ht : t.Plain) : t.Leads d.path l .directory :=
  Tree.leads_of_eraseAll ht (Tree.not_mem_map_concat l _) h

theorem Keeps.eraseAll (h : Keeps t u) (names : List Text) :
    Keeps (t.eraseAll (names.map fun a => l ++ [a]))
      (u.eraseAll (names.map fun a => l ++ [a])) := by
  refine ⟨h.plain.eraseAll_concat l names, by rw [Tree.base_eraseAll, Tree.base_eraseAll, h.base],
    fun m hm => ?_⟩
  rw [Tree.get?_eraseAll (Tree.not_mem_map_concat l _)] at hm ⊢
  split at hm
  · cases hm
  · next hno => rw [if_neg hno, h.directories m hm]

theorem StandsAt.keeps (h : d.StandsAt t l) (ht : t.Plain) (hk : Keeps t u) : d.StandsAt u l :=
  (hk.eraseAll _).leads (ht.eraseAll_concat l _) h

/-- A path that first goes up and then only down leads to a deck without going through it. -/
theorem standsAt_of_climbs (ht : t.Plain) (hl : t.Leads d.path l .directory) {n : Nat}
    (hparts : d.path.parts = List.replicate n Path.up ++ names) (hup : Path.up ∉ names) :
    d.StandsAt t l := by
  have hu := ht.eraseAll_concat l d.outputs
  have hget (m : Location) (hm : m <+: l) :
      (t.eraseAll (d.outputs.map fun a => l ++ [a])).get? m = t.get? m := by
    rw [Tree.get?_eraseAll (Tree.not_mem_map_concat l _), if_neg]
    rintro ⟨k, hk, hkm⟩
    obtain ⟨a, -, rfl⟩ := List.mem_map.1 hk
    have := (hkm.trans hm).length_le
    rw [List.length_append, List.length_singleton] at this
    omega
  refine hu.leads_of_walk (Path.fitsText_of_fits (hl.fits ht)) ?_
  have hfits : ∀ name ∈ names, Path.fitsName name = true := fun name hname =>
    Path.fitsName_of_fits (hl.fits ht) name (by rw [hparts]; exact List.mem_append_right _ hname)
  have hwalk := hl.advance_eq ht
  have hstart : (t.eraseAll (d.outputs.map fun a => l ++ [a])).start d.path = t.start d.path := by
    rw [Tree.start, Tree.start, Tree.base_eraseAll]
  obtain ⟨s, hs⟩ := Tree.exists_advance_climb n (t.start d.path)
  rw [hparts, hs] at hwalk
  rw [hstart, hparts, hs]
  have hdir := ht.directory_of_advance hup hwalk
  obtain ⟨rfl, hdeck⟩ := (ht.advance_down hdir hup hfits).1 hwalk
  exact (hu.advance_down (by rw [hget s (List.prefix_append ..), hdir]) hup hfits).2
    ⟨rfl, by rw [hget _ (List.prefix_refl _), hdeck]⟩

/-! ## What the last step leaves -/

section Removals

variable {artifacts : List Text}

/-- The build outputs are erased, and nothing else. -/
theorem forM_removeArtifact_same (ht : t.Plain) (hnames : ∀ a ∈ artifacts, IsName a)
    (hfits : ∀ a ∈ artifacts, (d.path.child a).fits = true)
    (hl : (t.eraseAll (artifacts.map fun a => l ++ [a])).Leads d.path l .directory) (o : Outcome) :
    (t.eraseAll (artifacts.map fun a => l ++ [a])).Same
      (artifacts.forM d.removeArtifact ⟨t, o⟩).2.tree := by
  induction artifacts generalizing t o with
  | nil => exact fun _ => rfl
  | cons a artifacts ih =>
    obtain ⟨ha, hartifacts⟩ := List.forall_mem_cons.1 hnames
    obtain ⟨hfit, hfits⟩ := List.forall_mem_cons.1 hfits
    have hleads := Tree.leads_of_eraseAll ht (Tree.not_mem_map_concat l (a :: artifacts)) hl
    have hup : Path.up ∉ [a] := by simpa [eq_comm] using ha.2
    have hpath : d.path.child a = d.path.append ⟨[], [a]⟩ := child_eq ha
    have hne : l ++ [a] ≠ [] := by simp
    rw [Action.forM_cons]
    rcases removeArtifact_cases ht ha hfit o with ⟨hnone, heq⟩ | ⟨m, e, said, hm, -, heq⟩
    · -- What is not there need not be erased.
      rw [hpath] at hfit
      rw [hpath, hleads.entry?_append ht hup hfit] at hnone
      rw [Action.bind_of_silent heq]
      have hrest := ih ht hartifacts hfits ((ht.leads_eraseAll_cons_iff hnone).1 hl) o
      exact fun k => (hrest k).trans (ht.same_eraseAll_cons hnone artifacts k).symm
    · rw [hpath] at hm
      obtain ⟨-, rfl, -⟩ := (hleads.append_iff ht hup).1 hm
      rw [Action.bind_of_silent heq]
      exact ih (ht.erase hne) hartifacts hfits hl _

theorem leads_of_forM_removeArtifact (ht : t.Plain) (hnames : ∀ a ∈ artifacts, IsName a)
    (hfits : ∀ a ∈ artifacts, (d.path.child a).fits = true)
    (h : (artifacts.forM d.removeArtifact ⟨t, o⟩).2.tree.Leads p m .directory) :
    t.Leads p m .directory := by
  rcases forM_removeArtifact_cases ht hnames hfits o with ⟨-, heq⟩ | ⟨ms, said, -, -, hroot, -, heq⟩
  · rwa [heq] at h
  · rw [heq] at h
    exact Tree.leads_of_eraseAll ht hroot h

/-- A deck's path that still leads to a directory when the build outputs are removed does not lead
through them. -/
theorem leads_eraseAll_of_forM (ht : t.Plain) (hnames : ∀ a ∈ artifacts, IsName a)
    (hfits : ∀ a ∈ artifacts, (d.path.child a).fits = true) (hl : t.Leads d.path l .directory)
    (h : (artifacts.forM d.removeArtifact ⟨t, o⟩).2.tree.Leads d.path m .directory) :
    (t.eraseAll (artifacts.map fun a => l ++ [a])).Leads d.path l .directory := by
  induction artifacts generalizing t o with
  | nil => exact hl
  | cons a artifacts ih =>
    obtain ⟨ha, hartifacts⟩ := List.forall_mem_cons.1 hnames
    obtain ⟨hfit, hfits⟩ := List.forall_mem_cons.1 hfits
    have hup : Path.up ∉ [a] := by simpa [eq_comm] using ha.2
    have hpath : d.path.child a = d.path.append ⟨[], [a]⟩ := child_eq ha
    have hne : l ++ [a] ≠ [] := by simp
    rw [Action.forM_cons] at h
    rcases removeArtifact_cases ht ha hfit o with ⟨hnone, heq⟩ | ⟨k, e, said, hk, -, heq⟩
    · rw [Action.bind_of_silent heq] at h
      rw [hpath] at hfit
      rw [hpath, hl.entry?_append ht hup hfit] at hnone
      exact (ht.leads_eraseAll_cons_iff hnone).2 (ih ht hartifacts hfits hl h)
    · rw [hpath] at hk
      obtain ⟨-, rfl, -⟩ := (hl.append_iff ht hup).1 hk
      rw [Action.bind_of_silent heq] at h
      -- The path leads to a directory after the other removals, so it does before them, and to no
      -- other one than at first.
      have hrest := leads_of_forM_removeArtifact (ht.erase hne) hartifacts hfits h
      have hbefore : t.Leads d.path m .directory :=
        Tree.leads_of_eraseAll ht (show [] ∉ [l ++ [a]] by simp) hrest
      obtain ⟨rfl, -⟩ := hl.unique hbefore
      exact ih (ht.erase hne) hartifacts hfits hrest h

end Removals

/-- The tree `u` is `t` without the build outputs of the deck at `l`, and the deck is where it
was. -/
structure Clears (d : Deck) (l : Location) (t u : Tree) : Prop where
  plain : u.Plain
  base : u.base = t.base
  leads : u.Leads d.path l .directory
  gone : ∀ a ∈ d.outputs, u.get? (l ++ [a]) = none
  entry_of : ∀ {m e}, u.get? m = some e → t.get? m = some e
  kept : ∀ {b}, b ∉ d.outputs → u.get? (l ++ [b]) = t.get? (l ++ [b])

/-- The last step leaves what the removals of the build outputs leave. -/
theorem tree_runStep_artifacts (hs : d.settings = .defaults archive) (ht : t.Plain)
    (hfits : d.path.fits = true) :
    (d.runStep .artifacts t).2 =
      (d.outputs.forM d.removeArtifact ⟨t, { step := Step.artifacts.name }⟩).2.tree := by
  show (d.removeArtifacts d.settings.ephemeralArtifacts
      ⟨t, { step := Step.artifacts.name }⟩).2.tree = _
  rw [removeArtifacts]
  rcases artifacts_fit_cases hs hfits with hall | ⟨a, rest, hartifacts, hlong⟩
  · rw [outputs_eq hall]
    rcases forM_removeArtifact_cases (d := d) ht (fun a ha => isName_of_mem hs ha) hall
      { step := Step.artifacts.name } with
      ⟨-, heq⟩ | ⟨ms, said, -, -, -, -, heq⟩
    · rw [Action.bind_of_silent heq, Action.bind_look, if_pos (by simp),
        StepAction.report_apply, heq]
    · rw [Action.bind_of_silent heq, Action.bind_look, if_neg (by simp), heq]
      rfl
  · -- Where the first path is too long, nothing is removed.
    have hnone : d.outputs = [] := by
      rw [outputs, if_neg]
      simp only [hartifacts, List.all_cons, Path.fits, hlong, Bool.false_and, Bool.false_eq_true,
        not_false_eq_true]
    have hfails : (a :: rest).forM d.removeArtifact ⟨t, { step := Step.artifacts.name }⟩ =
        (⟨[], .error (.refused .nameTooLong (d.path.child a).toText)⟩,
          ⟨t, { step := Step.artifacts.name }⟩) :=
      Action.bind_of_error (removeArtifact_of_not_fitsText hlong t _) _
    rw [hartifacts, hnone, Action.bind_of_error hfails]
    rfl

section Outputs

variable (hs : d.settings = .defaults archive) (ht : t.Plain)

include hs ht

theorem standsAt_of_leads (hl : t.Leads d.path l .directory)
    (h : (d.runStep .artifacts t).2.Leads d.path m .directory) : d.StandsAt t l := by
  rw [tree_runStep_artifacts hs ht (hl.fits ht)] at h
  exact leads_eraseAll_of_forM ht (fun a ha => isName_of_mem hs (mem_of_mem_outputs ha).1)
    (fun a ha => (mem_of_mem_outputs ha).2) hl h

theorem clears_runStep (hl : d.StandsAt t l) : d.Clears l t (d.runStep .artifacts t).2 := by
  have hroot := Tree.not_mem_map_concat l d.outputs
  have hsame : (t.eraseAll (d.outputs.map fun a => l ++ [a])).Same (d.runStep .artifacts t).2 := by
    rw [tree_runStep_artifacts hs ht ((hl.leads ht).fits ht)]
    exact forM_removeArtifact_same ht (fun a ha => isName_of_mem hs (mem_of_mem_outputs ha).1)
      (fun a ha => (mem_of_mem_outputs ha).2) hl _
  obtain ⟨o, -, -, hend⟩ := runStep_cases hs ht (hl.leads ht) .artifacts
  generalize (d.runStep .artifacts t).2 = u at hsame hend
  obtain ⟨hplain, hbase⟩ : u.Plain ∧ u.base = t.base := by
    cases hend with
    | rests => exact ⟨ht, rfl⟩
    | changes h =>
      obtain ⟨-, -, ms, -, hms, -, rfl⟩ := h
      exact ⟨ht.eraseAll hms, Tree.base_eraseAll ms⟩
    | fails => exact ⟨ht, rfl⟩
  refine ⟨hplain, hbase, ?_, fun a ha => ?_, fun {m e} hm => ?_, fun {b} hb => ?_⟩
  · exact Tree.Leads.same (ht.eraseAll_concat l _) hplain (by rw [Tree.base_eraseAll, hbase])
      hsame hl
  · rw [hsame, Tree.get?_eraseAll hroot,
      if_pos ⟨l ++ [a], List.mem_map_of_mem ha, List.prefix_refl _⟩]
  · rw [hsame, Tree.get?_eraseAll hroot] at hm
    split at hm
    · cases hm
    · exact hm
  · rw [hsame, Tree.get?_eraseAll hroot, if_neg]
    rintro ⟨k, hk, hkb⟩
    obtain ⟨a, ha, rfl⟩ := List.mem_map.1 hk
    obtain rfl : a = b := by simpa using hkb
    exact hb ha

end Outputs

/-- The removal of the build outputs succeeds only if their paths are not too long. -/
theorem fits_of_ends {o : Outcome} (h : d.Ends l t .artifacts o u) (hok : o.ok = true) :
    ∀ a ∈ d.settings.ephemeralArtifacts, (d.path.child a).fits = true := by
  cases h with
  | rests h => exact fun a ha => (h a ha).1
  | changes h => exact h.1
  | fails _ hno => simp [hok] at hno

/-! ## What the other steps leave -/

theorem ne_of_name {a b : Text} (h : a ≠ b) : l ++ [a] ≠ l ++ [b] := by simpa using h

theorem assets_of_ends {t u : Tree} (ht : t.Plain) (h : d.Ends l t .assets o u)
    (hok : o.ok = true) :
    d.assets.fits = true ∧ u.get? (l ++ ["assets".toList]) = some .directory ∧
      ∀ m ≠ l ++ ["assets".toList], u.get? m = t.get? m := by
  cases h with
  | rests h => exact ⟨h.fits ht, h.get?_eq ht, fun _ _ => rfl⟩
  | changes h =>
    obtain ⟨hfits, hnone, rfl⟩ := h
    have hne : t.get? (l ++ ["assets".toList]) ≠ some .directory := by rw [hnone]; exact nofun
    exact ⟨hfits, by rw [Tree.get?_put_of_ne hne, if_pos rfl],
      fun m hm => by rw [Tree.get?_put_of_ne hne, if_neg hm]⟩
  | fails _ hno => simp [hok] at hno

/-- After a merge nothing is left to merge, and the page is as it was. -/
theorem settled_of_ends (hs : d.settings = .defaults archive) (ht : t.Plain)
    (hl : t.Leads d.path l .directory) (h : d.Ends l t .stylesheets o u) (hok : o.ok = true) :
    d.Settled u l ∧ u.get? (l ++ ["index.html".toList]) = t.get? (l ++ ["index.html".toList]) := by
  cases h with
  | rests h => exact ⟨h, rfl⟩
  | changes h =>
    obtain ⟨k, old, canonical, sheets, hk, hshort, hread, -, hsheets, rfl⟩ := h
    obtain ⟨new, hmerges⟩ := merges_merged ht hl hk hread hsheets
    have hname : "index.html".toList ≠ d.settings.canonicalName := by
      rw [hs]
      show _ ≠ (Path.ofText "lib/offline-v2.css".toList).name
      decide
    have hsuffix : ¬stylesheetSuffix <:+ "index.html".toList := by decide
    refine ⟨settled_merged ht hl hk hshort hsheets hmerges,
      hmerges.kept _ (ne_stylesheet ht hl hk hname l).symm fun name hloose => ?_⟩
    exact ne_of_name fun heq => hsuffix (heq ▸ hloose.1)
  | fails _ hno => simp [hok] at hno

theorem leads_page (hs : d.settings = .defaults archive) (ht : t.Plain)
    (hl : t.Leads d.path l .directory) (hfits : d.page.fits = true)
    (hf : t.get? (l ++ ["index.html".toList]) = some (.file f)) :
    t.Leads d.page (l ++ ["index.html".toList]) (.file f) := by
  rw [page_eq hs] at hfits ⊢
  exact hl.append ht (by decide) hfits hf

/-- The page is left stripped, and is changed only if there was something to strip. -/
theorem page_of_ends (hs : d.settings = .defaults archive) (ht : t.Plain)
    (hl : t.Leads d.path l .directory) (h : d.Ends l t .links o u) (hok : o.ok = true) :
    ∃ f g html, t.get? (l ++ ["index.html".toList]) = some (.file f) ∧
      Utf8.readLines f.bytes = .ok html ∧
      u.get? (l ++ ["index.html".toList]) = some (.file g) ∧
        Utf8.readLines g.bytes = .ok (d.stripped html) ∧
      (g ≠ f ↔ d.stripped html ≠ html) ∧ ∀ m ≠ l ++ ["index.html".toList], u.get? m = t.get? m := by
  have hup : Path.up ∉ ["index.html".toList] := by decide
  have hpage {k : Location} {f : File} (hk : t.Leads d.page k (.file f)) :
      k = l ++ ["index.html".toList] ∧ t.get? k = some (.file f) := by
    rw [page_eq hs] at hk
    exact ((hl.append_iff ht hup).1 hk).2
  cases h with
  | rests h =>
    obtain ⟨k, f, html, hk, hread, hclean⟩ := h
    obtain ⟨rfl, hf⟩ := hpage hk
    exact ⟨f, f, html, hf, hread, hf, by rw [hclean, hread], by simp [hclean], fun _ _ => rfl⟩
  | changes h =>
    obtain ⟨k, f, html, hk, hread, hne, rfl⟩ := h
    obtain ⟨rfl, hf⟩ := hpage hk
    have hlines := readLines_stripped (d := d) hread
    refine ⟨f, _, html, hf, hread, by rw [Tree.get?_put_file hf, if_pos rfl], hlines,
      ⟨fun _ => hne, ?_⟩,
      fun m hm => by rw [Tree.get?_put_file hf, if_neg hm]⟩
    rintro - rfl
    exact hne (Except.ok.inj (hlines.symm.trans hread))
  | fails _ hno => simp [hok] at hno

/-- A step that has nothing to do does nothing. -/
theorem Ends.of_rests {step : Step} (ht : t.Plain) (h : d.Ends l t step o u)
    (hrests : d.Rests l t step) :
    o.ok = true ∧ o.changed = false ∧ u = t := by
  cases h with
  | rests _ hok hchanged => exact ⟨hok, hchanged, rfl⟩
  | changes h =>
    exfalso
    cases step with
    | assets => exact nomatch (hrests.get?_eq ht).symm.trans h.2.1
    | stylesheets =>
      obtain ⟨k, old, canonical, sheets, hk, -, -, hne, hsheets, -⟩ := h
      obtain ⟨s, hs⟩ := List.exists_mem_of_ne_nil _ hne
      exact Settled.elim hrests hk ((hsheets.mem_iff s.name).1 (List.mem_map_of_mem hs))
    | links =>
      obtain ⟨k, f, html, hk, hread, hclean⟩ := hrests
      obtain ⟨k', f', html', hk', hread', hne, -⟩ := h
      obtain ⟨rfl, ⟨⟩⟩ := hk.unique hk'
      rw [hread] at hread'
      cases hread'
      exact hne hclean
    | artifacts =>
      obtain ⟨-, ⟨a, ha, hsome⟩, -⟩ := h
      exact hsome (hrests a ha).2
  | fails h =>
    exfalso
    cases step with
    | assets =>
      rcases h with ⟨f, hf⟩ | hlong
      · exact nomatch (hrests.get?_eq ht).symm.trans hf
      · exact absurd (hrests.fits ht) (by simp [hlong])
    | stylesheets => exact h hrests
    | links =>
      obtain ⟨k, f, html, hk, hread, -⟩ := hrests
      exact h html (by rw [hk.readText_eq, hread]; rfl)
    | artifacts =>
      obtain ⟨a, ha, hlong⟩ := h
      exact absurd (hrests a ha).1 (by simp [hlong])

/-! ## A run and the next one -/

/-- The four steps of a finalization, one after the other. -/
theorem exists_steps (hs : d.settings = .defaults archive) (ht : t.Plain)
    (hl : t.Leads d.path l .directory) (hcheck : d.check t = .ok ()) :
    ∃ o₁ o₂ o₃ o₄ t₁ t₂ t₃, (d.finalize t).1.result = .ok ⟨[o₁, o₂, o₃, o₄]⟩ ∧
      [o₁, o₂, o₃, o₄].map Outcome.step = Step.all.map Step.name ∧
      d.Ends l t .assets o₁ t₁ ∧ d.Ends l t₁ .stylesheets o₂ t₂ ∧ d.Ends l t₂ .links o₃ t₃ ∧
      d.Ends l t₃ .artifacts o₄ (d.finalize t).2 ∧ (d.finalize t).2 = (d.runStep .artifacts t₃).2 ∧
      Keeps t t₁ ∧ Keeps t₁ t₂ ∧ Keeps t₂ t₃ := by
  obtain ⟨o₁, h₁, hn₁, e₁⟩ := runStep_cases hs ht hl .assets
  have k₁ := e₁.keeps ht hl (by decide)
  have l₁ := k₁.leads ht hl
  obtain ⟨o₂, h₂, hn₂, e₂⟩ := runStep_cases hs k₁.plain l₁ .stylesheets
  have k₂ := e₂.keeps k₁.plain l₁ (by decide)
  have l₂ := k₂.leads k₁.plain l₁
  obtain ⟨o₃, h₃, hn₃, e₃⟩ := runStep_cases hs k₂.plain l₂ .links
  have k₃ := e₃.keeps k₂.plain l₂ (by decide)
  have l₃ := k₃.leads k₂.plain l₂
  obtain ⟨o₄, h₄, hn₄, e₄⟩ := runStep_cases hs k₃.plain l₃ .artifacts
  have hruns : d.Runs Step.all t [o₁, o₂, o₃, o₄] _ :=
    .cons h₁ hn₁ (e₁.honest ht hl)
      (.cons h₂ hn₂ (e₂.honest k₁.plain l₁) (.cons h₃ hn₃ (e₃.honest k₂.plain l₂)
      (.cons h₄ hn₄ (e₄.honest k₃.plain l₃) (.nil _))))
  obtain ⟨hresult, htree⟩ := finalize_of_runs hcheck hruns
  exact ⟨o₁, o₂, o₃, o₄, _, _, _, hresult, hruns.map_step, e₁, e₂, e₃, htree ▸ e₄, htree, k₁,
    k₂, k₃⟩

/-- The deck at `l` is as a finalization leaves it, and its page reads `html`. -/
structure Finalized (d : Deck) (t : Tree) (l : Location) (html : Text) : Prop where
  plain : t.Plain
  leads : t.Leads d.path l .directory
  assets : t.Leads d.assets (l ++ ["assets".toList]) .directory
  settled : d.Settled t l
  page : ∃ f, t.Leads d.page (l ++ ["index.html".toList]) (.file f) ∧
    Utf8.readLines f.bytes = .ok html
  artifacts : ∀ a ∈ d.settings.ephemeralArtifacts, (d.path.child a).fits = true ∧
    t.get? (l ++ [a]) = none

theorem not_mem_artifacts (hs : d.settings = .defaults archive) :
    "assets".toList ∉ d.settings.ephemeralArtifacts ∧
      "index.html".toList ∉ d.settings.ephemeralArtifacts := by
  have hnot : "assets".toList ∉ ["screenshots".toList, "output.pdf".toList] ∧
      "index.html".toList ∉ ["screenshots".toList, "output.pdf".toList] := by decide
  rw [hs]
  exact hnot

/-- A deck is where it was if its path leads to a directory without leading through the build
outputs. -/
theorem isDirectory_finalize_of_standsAt (hs : d.settings = .defaults archive) (ht : t.Plain)
    (hl : d.StandsAt t l) (hcheck : d.check t = .ok ()) :
    (d.finalize t).2.isDirectory d.path = true := by
  obtain ⟨o₁, o₂, o₃, o₄, t₁, t₂, t₃, -, -, -, -, -, -, htree, k₁, k₂, k₃⟩ :=
    exists_steps hs ht (hl.leads ht) hcheck
  have hstands := ((hl.keeps ht k₁).keeps k₁.plain k₂).keeps k₂.plain k₃
  rw [htree, Tree.isDirectory_iff]
  exact ⟨l, (clears_runStep hs k₃.plain hstands).leads⟩

/-- A deck is where it was if its path first goes up and then only down. -/
theorem isDirectory_finalize (hs : d.settings = .defaults archive) (ht : t.Plain)
    (hcheck : d.check t = .ok ()) {n : Nat}
    (hparts : d.path.parts = List.replicate n Path.up ++ names) (hup : Path.up ∉ names) :
    (d.finalize t).2.isDirectory d.path = true := by
  obtain ⟨l, hl⟩ := Tree.isDirectory_iff.1 (check_eq_ok_iff.1 hcheck).1
  exact isDirectory_finalize_of_standsAt hs ht (standsAt_of_climbs ht hl hparts hup) hcheck

/-- A run without failures leaves a finalized deck, whose page has been stripped once. -/
theorem finalized_of_ok (hs : d.settings = .defaults archive) (ht : t.Plain)
    (hl : t.Leads d.path l .directory) (hcheck : d.check t = .ok ()) {r : Report}
    (hrun : (d.finalize t).1.result = .ok r) (hok : r.ok = true)
    (hthere : (d.finalize t).2.isDirectory d.path = true) :
    ∃ html, t.readText d.page = .ok html ∧ d.Finalized (d.finalize t).2 l (d.stripped html) := by
  obtain ⟨o₁, o₂, o₃, o₄, t₁, t₂, t₃, hresult, -, e₁, e₂, e₃, e₄, htree, k₁, k₂, k₃⟩ :=
    exists_steps hs ht hl hcheck
  obtain rfl : r = ⟨[o₁, o₂, o₃, o₄]⟩ := Except.ok.inj (hrun.symm.trans hresult)
  obtain ⟨hok₁, hok₂, hok₃, hok₄⟩ : o₁.ok = true ∧ o₂.ok = true ∧ o₃.ok = true ∧ o₄.ok = true := by
    simpa [Report.ok] using hok
  have l₁ := k₁.leads ht hl
  have l₂ := k₂.leads k₁.plain l₁
  obtain ⟨hassetsFit, hassets, hkept₁⟩ := assets_of_ends ht e₁ hok₁
  obtain ⟨hsettled, hpage₂⟩ := settled_of_ends hs k₁.plain l₁ e₂ hok₂
  obtain ⟨f, g, html, hf, hread, hg, hstripped, -, hkept₃⟩ := page_of_ends hs k₂.plain l₂ e₃ hok₃
  have hfits := fits_of_ends e₄ hok₄
  obtain ⟨m, hm⟩ := Tree.isDirectory_iff.1 hthere
  rw [htree] at hm
  have hclears :=
    clears_runStep hs k₃.plain (standsAt_of_leads hs k₃.plain (k₃.leads k₂.plain l₂) hm)
  rw [← htree] at hclears
  obtain ⟨k, f', hpage⟩ := Tree.isFile_iff.1 (check_eq_ok_iff.1 hcheck).2
  have hpageFits := hpage.fits ht
  have hpath : t.Leads d.page (l ++ ["index.html".toList]) (.file f) := by
    refine leads_page hs ht hl hpageFits ?_
    rw [← hkept₁ _ (ne_of_name (by decide)), ← hpage₂, hf]
  have hstylesheet : d.stylesheet.fits = true := by
    have htext := hsettled.fitsText
    rw [stylesheet_eq hs] at htext ⊢
    exact (Path.fits_append_iff (hl.fits ht)).2 ⟨htext, by decide⟩
  refine ⟨html, by rw [hpath.readText_eq, hread]; rfl, hclears.plain, hclears.leads, ?_, ?_,
    ⟨g, ?_, hstripped⟩, ?_⟩
  · rw [assets_eq hs] at hassetsFit ⊢
    refine hclears.leads.append hclears.plain (by decide) hassetsFit ?_
    rw [hclears.kept fun ha => (not_mem_artifacts hs).1 (mem_of_mem_outputs ha).1]
    exact k₃.directories _ (k₂.directories _ hassets)
  · refine hsettled.mono k₂.plain hclears.plain (by rw [hclears.base, k₃.base]) hstylesheet
      (fun m hm => ?_)
      (fun m hm => ?_) (fun m f' hm => ?_)
    · obtain ⟨e, he⟩ := Option.isSome_iff_exists.1 hm
      by_cases hmp : m = l ++ ["index.html".toList]
      · rw [hmp, hf]
        rfl
      · rw [← hkept₃ m hmp, hclears.entry_of he]
        rfl
    · have hm₃ := hclears.entry_of hm
      rwa [hkept₃ m (by rintro rfl; rw [hg] at hm₃; cases hm₃)] at hm₃
    · by_cases hmp : m = l ++ ["index.html".toList]
      · exact ⟨f, hmp ▸ hf⟩
      · exact ⟨f', by rw [← hkept₃ m hmp, hclears.entry_of hm]⟩
  · refine leads_page hs hclears.plain hclears.leads hpageFits ?_
    rw [hclears.kept fun ha => (not_mem_artifacts hs).2 (mem_of_mem_outputs ha).1, hg]
  · intro a ha
    refine ⟨hfits a ha, hclears.gone a ?_⟩
    rwa [outputs_eq hfits]

/-- From the tree `t`, in which the page reads `html`, a run has come to the tree `u` with nothing
changed but links in the page. -/
structure OnlyStrips (d : Deck) (l : Location) (html : Text) (t u : Tree) (r : Report) : Prop where
  ok : r.ok = true
  steps : r.outcomes.map Outcome.step = Step.all.map Step.name
  /-- All steps but the one that strips the page say that they have changed nothing. -/
  unchanged : ∀ o ∈ r.outcomes, o.step ≠ Step.links.name → o.changed = false
  kept : ∀ m ≠ l ++ ["index.html".toList], u.get? m = t.get? m
  page_iff : u.get? (l ++ ["index.html".toList]) ≠ t.get? (l ++ ["index.html".toList]) ↔
    d.stripped html ≠ html

/-- A run on a finalized deck does nothing but strip the page again. -/
theorem Finalized.onlyStrips (h : d.Finalized t l html) (hs : d.settings = .defaults archive) :
    ∃ r, (d.finalize t).1.result = .ok r ∧ d.OnlyStrips l html t (d.finalize t).2 r := by
  obtain ⟨f, hpath, hread⟩ := h.page
  have hf := hpath.get?_eq h.plain
  have hcheck : d.check t = .ok () :=
    check_eq_ok_iff.2 ⟨Tree.isDirectory_iff.2 ⟨l, h.leads⟩, Tree.isFile_iff.2 ⟨_, f, hpath⟩⟩
  obtain ⟨o₁, o₂, o₃, o₄, t₁, t₂, t₃, hresult, hnames, e₁, e₂, e₃, e₄, -, -, -, k₃⟩ :=
    exists_steps hs h.plain h.leads hcheck
  generalize (d.finalize t).2 = t₄ at e₄ ⊢
  obtain ⟨hok₁, hchanged₁, rfl⟩ := e₁.of_rests h.plain h.assets
  obtain ⟨hok₂, hchanged₂, rfl⟩ := e₂.of_rests h.plain h.settled
  have hok₃ : o₃.ok = true := by
    cases e₃ with
    | rests _ hok => exact hok
    | changes _ hok => exact hok
    | fails h => exact absurd (by rw [hpath.readText_eq, hread]; rfl) (h html)
  obtain ⟨f', g, html', hf', hread', hg, -, hiff, hkept⟩ := page_of_ends hs h.plain h.leads e₃ hok₃
  rw [hf] at hf'
  cases hf'
  rw [hread] at hread'
  cases hread'
  have hrests : d.Rests l t₃ .artifacts := fun a ha => by
    have hname := isName_of_mem hs ha
    obtain ⟨hfits, hgone⟩ := h.artifacts a ha
    refine ⟨hfits, ?_⟩
    rw [child_eq hname] at hfits ⊢
    rw [inRoot, (k₃.leads h.plain h.leads).entry?_append k₃.plain (by simpa [eq_comm] using hname.2)
      hfits,
      hkept _ (ne_of_name fun heq => (not_mem_artifacts hs).2 (heq ▸ ha)), hgone]
  obtain ⟨hok₄, hchanged₄, rfl⟩ := e₄.of_rests k₃.plain hrests
  refine ⟨_, hresult, by simp [Report.ok, hok₁, hok₂, hok₃, hok₄], hnames, ?_, hkept, ?_⟩
  · simp only [Step.all, List.map_cons, List.map_nil, List.cons.injEq, and_true] at hnames
    intro o ho hne
    simp only [List.mem_cons, List.not_mem_nil, or_false] at ho
    rcases ho with rfl | rfl | rfl | rfl
    · exact hchanged₁
    · exact hchanged₂
    · exact absurd hnames.2.2.1 hne
    · exact hchanged₄
  · rw [hf, hg, ← hiff]
    simp

/-- Finalizing a deck again does nothing but strip the page again, if the deck's path still leads to
a directory. -/
theorem finalize_again (hs : d.settings = .defaults archive) (ht : t.Plain) {r : Report}
    (hrun : (d.finalize t).1.result = .ok r) (hok : r.ok = true)
    (hthere : (d.finalize t).2.isDirectory d.path = true) :
    ∃ l html r', t.Leads d.path l .directory ∧ t.readText d.page = .ok html ∧
      (d.finalize (d.finalize t).2).1.result = .ok r' ∧
      d.OnlyStrips l (d.stripped html) (d.finalize t).2 (d.finalize (d.finalize t).2).2 r' := by
  have hcheck : d.check t = .ok () := by
    obtain ⟨⟨⟩, hcheck, -⟩ := Action.result_bind_eq_ok.1 hrun
    exact hcheck
  obtain ⟨l, hl⟩ := Tree.isDirectory_iff.1 (check_eq_ok_iff.1 hcheck).1
  obtain ⟨html, hread, hfinalized⟩ := finalized_of_ok hs ht hl hcheck hrun hok hthere
  obtain ⟨r', hresult, honly⟩ := hfinalized.onlyStrips hs
  exact ⟨l, html, r', hl, hread, hresult, honly⟩

/-- A deck with something to do for every step. What stands around the link in its page is a link
when that one is gone. -/
def unfinished : Tree where
  base := []
  entries := [(["deck".toList], .directory), (["deck".toList, "lib".toList], .directory),
    sampleFile ["lib".toList, "offline-v2.css".toList] "p{}\n".toList,
    sampleFile ["a.css".toList] "q{}".toList,
    sampleFile ["index.html".toList] "<li<link href='a.css'>nk href='b.css'>".toList,
    (["deck".toList, "screenshots".toList], .directory),
    sampleFile ["screenshots".toList, "1.png".toList] [],
    sampleFile ["output.pdf".toList] []]

/-- Finalizing the unfinished deck again strips its page again, and changes nothing else. -/
theorem finalize_again_unfinished :
    ∃ r', (sampleDeck.finalize (sampleDeck.finalize unfinished).2).1.result = .ok r' ∧
      sampleDeck.OnlyStrips ["deck".toList] "<link href='b.css'>".toList
        (sampleDeck.finalize unfinished).2
        (sampleDeck.finalize (sampleDeck.finalize unfinished).2).2 r' ∧
      (sampleDeck.finalize (sampleDeck.finalize unfinished).2).2.get?
        ["deck".toList, "index.html".toList] ≠
        (sampleDeck.finalize unfinished).2.get? ["deck".toList, "index.html".toList] := by
  have hsettings : sampleDeck.settings = .defaults .here := rfl
  have hplain : unfinished.Plain := Tree.plain_of_isPlain (by decide +kernel)
  have hleads : unfinished.Leads sampleDeck.path ["deck".toList] .directory := rfl
  have hdone : (sampleDeck.finalize unfinished).1.result.toOption.any Report.ok = true := by
    decide +kernel
  obtain ⟨r, hrun, hok⟩ := Outcome.exists_of_any hdone
  have hthere : (sampleDeck.finalize unfinished).2.isDirectory sampleDeck.path = true :=
    isDirectory_finalize (n := 0) hsettings hplain (by decide +kernel) rfl
      (show Path.up ∉ ["deck".toList] by decide)
  obtain ⟨l, html, r', hl, hread, hresult, honly⟩ := finalize_again hsettings hplain hrun hok hthere
  obtain ⟨rfl, -⟩ := hleads.unique hl
  have hhtml : unfinished.readText sampleDeck.page =
      .ok "<li<link href='a.css'>nk href='b.css'>".toList := by
    decide +kernel
  rw [hhtml] at hread
  cases hread
  have honce : sampleDeck.stripped "<li<link href='a.css'>nk href='b.css'>".toList =
      "<link href='b.css'>".toList := by
    decide +kernel
  rw [honce] at honly
  exact ⟨r', hresult, honly, honly.page_iff.2 (by decide +kernel)⟩

/-- A deck with build outputs. -/
def photographed : Tree where
  base := []
  entries := [(["deck".toList], .directory), (["deck".toList, "lib".toList], .directory),
    sampleFile ["lib".toList, "offline-v2.css".toList] "p{}\n".toList,
    sampleFile ["index.html".toList] "<p>x</p>\n".toList,
    (["deck".toList, "screenshots".toList], .directory)]

/-- The deck in `deck`, by a path that leads through its build outputs. -/
def roundabout : Deck := ⟨⟨[], ["deck".toList, "screenshots".toList, Path.up]⟩, .defaults .here⟩

/-- A path through the build outputs leads to no deck any more when they have been removed. -/
theorem finalize_roundabout :
    roundabout.settings = .defaults .here ∧ photographed.Plain ∧
      (∃ r, (roundabout.finalize photographed).1.result = .ok r ∧ r.ok = true) ∧
      (roundabout.finalize (roundabout.finalize photographed).2).1.result =
        .error (.deckMissing roundabout.path) := by
  have hdone : (roundabout.finalize photographed).1.result.toOption.any Report.ok = true := by
    decide +kernel
  have hgone : roundabout.check (roundabout.finalize photographed).2 =
      .error (.deckMissing roundabout.path) := by
    decide +kernel
  refine ⟨rfl, Tree.plain_of_isPlain (by decide +kernel), Outcome.exists_of_any hdone, ?_⟩
  rw [finalize_of_refused hgone]

end Deck

end SlideDeck
