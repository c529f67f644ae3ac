import SlideDeck.Proofs.Deck.Ends

/-!
# Honest outcomes

With the default settings a finalization of a deck that is there always comes to its end, with one
outcome for each step (`finalize_honest`). An outcome tells the truth: it says that the step changed
the deck exactly if the step did, and a step that failed has left the tree as it was (`Honest`).

Each step is run on what the steps before it left. The first three steps keep all directories
(`keeps_of_changes`), so the deck is still where it was for the last one; and nothing is run after
the last one, which may take the way to the deck away.
-/

namespace SlideDeck.Deck

variable {d : Deck} {t u : Tree} {l : Location} {o : Outcome} {os : List Outcome} {step : Step}
  {steps : List Step} {archive : Path}

/-! ## What a step tells -/

/-- An outcome tells whether the step changed the tree `t` into another one, `u`, and a failed step
did not. -/
structure Honest (t u : Tree) (o : Outcome) : Prop where
  changed_iff : o.changed = true ↔ ∃ l, u.get? l ≠ t.get? l
  untouched : o.ok = false → u = t

/-- What a step calls a change can be seen in the tree. -/
theorem exists_ne_of_changes (ht : t.Plain) (hl : t.Leads d.path l .directory)
    (h : d.Changes l t step u) :
    ∃ m, u.get? m ≠ t.get? m := by
  cases step with
  | assets =>
    obtain ⟨-, hnone, rfl⟩ := h
    refine ⟨l ++ ["assets".toList], ?_⟩
    rw [Tree.get?_put_of_ne (by rw [hnone]; exact nofun), if_pos rfl, hnone]
    exact nofun
  | stylesheets =>
    obtain ⟨k, old, canonical, sheets, hk, -, -, hne, hsheets, rfl⟩ := h
    obtain ⟨s, hs⟩ := List.exists_mem_of_ne_nil _ hne
    obtain ⟨f, hf, -⟩ := hsheets.file ht hl hs
    refine ⟨l ++ [s.name], ?_⟩
    rw [get?_merged _ ht hl hk hsheets, if_pos ⟨s, hs, rfl⟩, hf]
    exact nofun
  | links =>
    obtain ⟨k, f, html, hk, hread, hne, rfl⟩ := h
    refine ⟨k, fun heq => hne ?_⟩
    rw [Tree.get?_put_file (hk.get?_eq ht), if_pos rfl, hk.get?_eq ht] at heq
    have hfile := Entry.file.inj (Option.some.inj heq)
    -- The page would be read as it was, and it has been written as it is read now.
    rw [← hfile, readLines_stripped (hfile ▸ hread)] at hread
    exact Except.ok.inj hread
  | artifacts =>
    obtain ⟨-, -, ms, hne, hroot, hms, rfl⟩ := h
    obtain ⟨m, hm⟩ := List.exists_mem_of_ne_nil _ hne
    refine ⟨m, fun heq => ?_⟩
    rw [Tree.get?_eraseAll hroot, if_pos ⟨m, hm, List.prefix_refl m⟩] at heq
    have := hms m hm
    rw [← heq] at this
    cases this

theorem Ends.honest (h : d.Ends l t step o u) (ht : t.Plain) (hl : t.Leads d.path l .directory) :
    Honest t u o := by
  cases h with
  | rests _ hok hchanged => exact ⟨by simp [hchanged], fun _ => rfl⟩
  | changes h hok hchanged =>
    exact ⟨⟨fun _ => exists_ne_of_changes ht hl h, fun _ => hchanged⟩,
      fun hno => by simp [hok] at hno⟩
  | fails _ hok hchanged => exact ⟨by simp [hchanged], fun _ => rfl⟩

/-! ## What the first steps keep -/

/-- The tree `u` is plain and has all directories of `t`. -/
structure Keeps (t u : Tree) : Prop where
  plain : u.Plain
  base : u.base = t.base
  directories : ∀ m, t.get? m = some .directory → u.get? m = some .directory

theorem Keeps.refl (ht : t.Plain) : Keeps t t := ⟨ht, rfl, fun _ => id⟩

theorem Keeps.leads {p : Path} (h : Keeps t u) (ht : t.Plain) (hl : t.Leads p l .directory) :
    u.Leads p l .directory :=
  hl.mono_directory ht h.plain h.base h.directories

theorem keeps_put {e : Entry} {m : Location} (hu : (t.put m e).Plain)
    (hm : t.get? m ≠ some .directory) :
    Keeps t (t.put m e) := by
  refine ⟨hu, rfl, fun k hk => ?_⟩
  rw [Tree.get?_put_of_ne hm, if_neg (by rintro rfl; exact hm hk), hk]

theorem keeps_of_changes (ht : t.Plain) (hl : t.Leads d.path l .directory)
    (h : d.Changes l t step u) (hstep : step ≠ .artifacts) : Keeps t u := by
  cases step with
  | assets =>
    obtain ⟨-, hnone, rfl⟩ := h
    have hne : t.get? (l ++ ["assets".toList]) ≠ some .directory := by rw [hnone]; exact nofun
    exact keeps_put
      (ht.put hne (by rw [List.dropLast_concat]; exact hl.get?_eq ht) (fun _ => nofun)) hne
  | stylesheets =>
    obtain ⟨k, old, canonical, sheets, hk, -, -, -, hsheets, rfl⟩ := h
    exact ⟨plain_merged ht hk, base_merged, directory_merged ht hl hk hsheets⟩
  | links =>
    obtain ⟨k, f, html, hk, -, -, rfl⟩ := h
    exact keeps_put (ht.put_file (hk.get?_eq ht) _) (by rw [hk.get?_eq ht]; exact nofun)
  | artifacts => exact absurd rfl hstep

theorem Ends.keeps (h : d.Ends l t step o u) (ht : t.Plain) (hl : t.Leads d.path l .directory)
    (hstep : step ≠ .artifacts) : Keeps t u := by
  cases h with
  | rests => exact .refl ht
  | changes h => exact keeps_of_changes ht hl h hstep
  | fails => exact .refl ht

/-! ## A whole run -/

/-- Steps that are run one after the other, each with an outcome in its name that tells the
truth. -/
inductive Runs (d : Deck) : List Step → Tree → List Outcome → Tree → Prop where
  | nil (t : Tree) : Runs d [] t [] t
  | cons {step : Step} {steps : List Step} {t u : Tree} {o : Outcome} {os : List Outcome}
      (hresult : (d.runStep step t).1.result = .ok o) (hname : o.step = step.name)
      (honest : Honest t (d.runStep step t).2 o) (hrest : Runs d steps (d.runStep step t).2 os u) :
      Runs d (step :: steps) t (o :: os) u

theorem Runs.map_step (h : d.Runs steps t os u) : os.map Outcome.step = steps.map Step.name := by
  induction h with
  | nil => rfl
  | cons _ hname _ _ ih => rw [List.map_cons, List.map_cons, hname, ih]

theorem Runs.mapM_eq (h : d.Runs steps t os u) :
    ∃ log, steps.mapM d.runStep t = (⟨log, .ok os⟩, u) := by
  suffices hloop :
      ∀ done, ∃ log, List.mapM.loop d.runStep steps done t = (⟨log, .ok (done.reverse ++ os)⟩, u) by
    exact hloop []
  induction h with
  | nil t => exact fun done => ⟨[], by rw [List.append_nil]; rfl⟩
  | @cons step steps t u o os hresult _ _ _ ih =>
    intro done
    obtain ⟨log, hlog⟩ := ih (o :: done)
    have hstep : d.runStep step t = (⟨(d.runStep step t).1.log, .ok o⟩, (d.runStep step t).2) := by
      rw [← hresult]
    refine ⟨(d.runStep step t).1.log ++ log, ?_⟩
    rw [List.mapM.loop, Action.bind_of_ok hstep, hlog, List.reverse_cons, List.append_assoc]
    rfl

/-- A finalization of a deck that is there runs all steps. -/
theorem finalize_of_mapM {log : Log} (hcheck : d.check t = .ok ())
    (hlog : Step.all.mapM d.runStep t = (⟨log, .ok os⟩, u)) :
    (d.finalize t).1.result = .ok ⟨os⟩ ∧ (d.finalize t).2 = u := by
  rw [finalize, Action.bind_find_of_ok hcheck]
  generalize "Finalizing presentation: ".toList ++ d.path.toText = message
  have hnote : (Action.note 1 message : TreeAction Unit) t =
      (⟨[⟨.detail 1, message⟩], .ok ()⟩, t) := rfl
  rw [Action.bind_of_ok hnote, Action.bind_of_ok hlog]
  exact ⟨rfl, rfl⟩

theorem finalize_of_runs (hcheck : d.check t = .ok ()) (h : d.Runs Step.all t os u) :
    (d.finalize t).1.result = .ok ⟨os⟩ ∧ (d.finalize t).2 = u := by
  obtain ⟨log, hlog⟩ := h.mapM_eq
  exact finalize_of_mapM hcheck hlog

/-- A finalization that is refused does nothing. -/
theorem finalize_of_refused {e : Failure} (hcheck : d.check t = .error e) :
    d.finalize t = (⟨[], .error e⟩, t) :=
  Action.bind_find_of_error hcheck _

/-- Steps can be run one after the other if no other follows the one that removes the build
outputs. -/
theorem exists_runs (hs : d.settings = .defaults archive) (ht : t.Plain)
    (hl : t.Leads d.path l .directory) (hsteps : .artifacts ∉ steps.dropLast) :
    ∃ os u, d.Runs steps t os u := by
  induction steps generalizing t with
  | nil => exact ⟨[], t, .nil t⟩
  | cons step steps ih =>
    obtain ⟨o, hresult, hname, hend⟩ := runStep_cases hs ht hl step
    have honest := hend.honest ht hl
    by_cases hlast : steps = []
    · subst hlast
      exact ⟨[o], _, .cons hresult hname honest (.nil _)⟩
    · rw [List.dropLast_cons_of_ne_nil hlast, List.mem_cons, not_or] at hsteps
      have hkeeps := hend.keeps ht hl (Ne.symm hsteps.1)
      obtain ⟨os, u, hrest⟩ := ih hkeeps.plain (hkeeps.leads ht hl) hsteps.2
      exact ⟨o :: os, u, .cons hresult hname honest hrest⟩

theorem check_eq_ok_iff : d.check t = .ok () ↔ t.isDirectory d.path = true ∧
    t.isFile d.page = true := by
  rw [check]
  constructor
  · intro h
    obtain ⟨there, hthere, h⟩ := Outcome.bind_eq_ok.1 h
    obtain ⟨rfl, -⟩ := Tree.ask_eq_ok hthere
    cases hdirectory : t.isDirectory d.path with
    | false =>
      rw [hdirectory] at h
      cases h
    | true =>
      rw [hdirectory] at h
      obtain ⟨page, hpage, h⟩ := Outcome.bind_eq_ok.1 h
      obtain ⟨rfl, -⟩ := Tree.ask_eq_ok hpage
      cases hfile : t.isFile d.page with
      | false =>
        rw [hfile] at h
        cases h
      | true => exact ⟨rfl, rfl⟩
  · rintro ⟨hdirectory, hfile⟩
    obtain ⟨l, hl⟩ := Tree.isDirectory_iff.1 hdirectory
    obtain ⟨k, f, hk⟩ := Tree.isFile_iff.1 hfile
    rw [hl.ask_eq, hk.ask_eq, hdirectory, hfile]
    rfl

/-- A finalization of a deck that is there comes to its end, with a true outcome for each of its
four steps. -/
theorem finalize_honest (hs : d.settings = .defaults archive) (ht : t.Plain)
    (hcheck : d.check t = .ok ()) :
    ∃ os, (d.finalize t).1.result = .ok ⟨os⟩ ∧
      os.map Outcome.step =
        ["assets".toList, "stylesheets".toList, "links".toList, "artifacts".toList] ∧
      d.Runs [.assets, .stylesheets, .links, .artifacts] t os (d.finalize t).2 := by
  obtain ⟨l, hl⟩ := Tree.isDirectory_iff.1 (check_eq_ok_iff.1 hcheck).1
  obtain ⟨os, u, hruns⟩ := exists_runs hs ht hl (show .artifacts ∉ Step.all.dropLast by decide)
  obtain ⟨hresult, htree⟩ := finalize_of_runs hcheck hruns
  exact ⟨os, hresult, hruns.map_step, htree ▸ hruns⟩

/-- A deck with a file where its assets should be, and with bytes that are no text in one of its
stylesheets. -/
def spoilt : Tree where
  base := []
  entries := [(["deck".toList], .directory), (["deck".toList, "lib".toList], .directory),
    sampleFile ["assets".toList] [], sampleFile ["index.html".toList] "<link href='a.css'>".toList,
    sampleFile ["lib".toList, "offline-v2.css".toList] "p{}\n".toList,
    (["deck".toList, "a.css".toList], .file ⟨[0xff], none⟩), sampleFile ["output.pdf".toList] []]

/-- Two steps fail in a spoilt deck, and the others do their work. -/
theorem finalize_spoilt :
    ∃ os, (sampleDeck.finalize spoilt).1.result = .ok ⟨os⟩ ∧
      os.map Outcome.step =
        ["assets".toList, "stylesheets".toList, "links".toList, "artifacts".toList] ∧
      sampleDeck.Runs [.assets, .stylesheets, .links, .artifacts] spoilt os
        (sampleDeck.finalize spoilt).2 ∧
      os.map Outcome.ok = [false, false, true, true] ∧
        os.map Outcome.changed = [false, false, true, true] := by
  obtain ⟨os, hresult, hnames, hruns⟩ := finalize_honest (d := sampleDeck) (t := spoilt)
    (show sampleDeck.settings = .defaults .here from rfl)
      (Tree.plain_of_isPlain (by decide +kernel)) (by decide +kernel)
  have hflags :
      (sampleDeck.finalize spoilt).1.result.toOption.map (fun r => (r.outcomes.map Outcome.ok,
      r.outcomes.map Outcome.changed)) =
        some ([false, false, true, true], [false, false, true, true]) := by
    decide +kernel
  rw [hresult] at hflags
  obtain ⟨hok, hchanged⟩ := Prod.mk.inj (Option.some.inj hflags)
  exact ⟨os, hresult, hnames, hruns, hok, hchanged⟩

end SlideDeck.Deck
