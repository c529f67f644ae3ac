import SlideDeck.Proofs.Deck.Alongside

/-!
# The order of the steps

A step finds its part of the deck as it was at first, whichever other steps have been run before it
(`After.cons`). So each step comes to the same in every order of the steps, and all orders lead to
the same tree (`mapM_runStep`, `After.same`).

That holds as long as the deck is found where it was. A path that leads to the deck through one of
its build outputs leads nowhere when they have been removed, and a step that is run after that does
not find the page (`anyOrder_roundabout`). For all other paths the order does not matter
(`anyOrder_iff`).
-/

namespace SlideDeck.Deck

variable {d : Deck} {t u v w : Tree} {l : Location} {s : Step} {steps : List Step} {archive : Path}

/-! ## Steps in any order -/

/-- Some steps have been run on `t`: in the part of each of them `v` is as the step alone leaves it,
and as `t` is elsewhere. -/
structure After (d : Deck) (l : Location) (t : Tree) (done : List Step) (v : Tree) : Prop where
  standing : d.Standing l v
  part : ∀ s ∈ done, ∀ m, d.Footprint l s m → v.get? m = (d.runStep s t).2.get? m
  long : ∀ name, (d.inRoot name).fits = false → v.get? (l ++ [name]) = t.get? (l ++ [name])
  rest : ∀ m, (∀ s ∈ done, ¬d.Footprint l s m) → v.get? m = t.get? m

namespace After

theorem nil (ht : d.Standing l t) : d.After l t [] t := ⟨ht, nofun, fun _ _ => rfl, fun _ _ => rfl⟩

/-- A step that has not been run comes to what it comes to at first. -/
theorem cons (hs : d.settings = .defaults archive) (ht : d.Standing l t) (h : d.After l t steps v)
    (hnew : s ∉ steps) :
    (d.runStep s v).1.result = (d.runStep s t).1.result ∧
      d.After l t (s :: steps) (d.runStep s v).2 := by
  have hpart (m : Location) (hm : d.Footprint l s m) : v.get? m = t.get? m :=
    h.rest m fun s' hs' hm' => hnew (hm.step_unique hm' ▸ hs')
  obtain ⟨hresult, o, o', hafter⟩ := runStep_alongside hs ht h.standing hpart h.long
  refine ⟨hresult, hafter.right, fun s' hs' m hm => ?_, fun name hlong => ?_, fun m hm => ?_⟩
  · rcases List.mem_cons.1 hs' with rfl | hs'
    · exact hafter.agree m hm
    · have hother : ¬d.Footprint l s m := fun hm' => hnew (hm'.step_unique hm ▸ hs')
      exact (hafter.right_kept m hother).trans (h.part s' hs' m hm)
  · exact (hafter.right_long name hlong).trans (h.long name hlong)
  · obtain ⟨hnot, hrest⟩ := List.forall_mem_cons.1 hm
    exact (hafter.right_kept m hnot).trans (h.rest m hrest)

/-- The order of the steps does not show in the tree. -/
theorem same {steps' : List Step} (hv : d.After l t steps v) (hw : d.After l t steps' w)
    (h : ∀ s, s ∈ steps ↔ s ∈ steps') : v.Same w := by
  intro m
  by_cases hm : ∃ s ∈ steps, d.Footprint l s m
  · obtain ⟨s, hs, hfoot⟩ := hm
    rw [hv.part s hs m hfoot, hw.part s ((h s).1 hs) m hfoot]
  · simp only [not_exists, not_and] at hm
    rw [hv.rest m hm, hw.rest m fun s hs => hm s ((h s).2 hs)]

end After

/-- Steps that are run one after the other, each once, have the outcomes that they have alone. -/
theorem mapM_runStep (hs : d.settings = .defaults archive) (ht : d.Standing l t)
    {f : Step → Outcome} (hf : ∀ s, (d.runStep s t).1.result = .ok (f s)) (hsteps : steps.Nodup) :
    (steps.mapM d.runStep t).1.result = .ok (steps.map f) ∧
      d.After l t steps.reverse (steps.mapM d.runStep t).2 := by
  suffices hloop : ∀ (done : List Step) (os : List Outcome) (v : Tree), d.After l t done v →
      (∀ s ∈ steps, s ∉ done) →
      (List.mapM.loop d.runStep steps os v).1.result = .ok (os.reverse ++ steps.map f) ∧
        d.After l t (steps.reverse ++ done) (List.mapM.loop d.runStep steps os v).2 by
    have := hloop [] [] t (.nil ht) fun _ _ => List.not_mem_nil
    rwa [List.append_nil] at this
  induction steps with
  | nil =>
    intro done os v h _
    rw [List.mapM.loop, List.map_nil, List.append_nil]
    exact ⟨rfl, h⟩
  | cons s steps ih =>
    intro done os v h hnew
    obtain ⟨hnot, hsteps⟩ := List.nodup_cons.1 hsteps
    obtain ⟨hs', hrest⟩ := List.forall_mem_cons.1 hnew
    obtain ⟨hresult, hafter⟩ := h.cons hs ht hs'
    have hstep : d.runStep s v = (⟨(d.runStep s v).1.log, .ok (f s)⟩, (d.runStep s v).2) := by
      rw [← hf s, ← hresult]
    obtain ⟨hos, hdone⟩ := ih hsteps (s :: done) (f s :: os) _ hafter fun s' hmem hin => by
      rcases List.mem_cons.1 hin with rfl | hin
      · exact hnot hmem
      · exact hrest s' hmem hin
    rw [List.mapM.loop, Action.bind_of_ok hstep]
    refine ⟨?_, ?_⟩
    · rw [hos, List.reverse_cons, List.append_assoc]
      rfl
    · rwa [List.reverse_cons, List.append_assoc]

/-! ## When the order does not matter -/

/-- A deck's path that leads to a directory when all steps have been run has not led through the
build outputs. -/
theorem standsAt_of_isDirectory_finalize (hs : d.settings = .defaults archive) (ht : t.Plain)
    (hl : t.Leads d.path l .directory) (hcheck : d.check t = .ok ())
    (h : (d.finalize t).2.isDirectory d.path = true) :
    d.StandsAt t l := by
  obtain ⟨o₁, o₂, o₃, o₄, t₁, t₂, t₃, -, -, -, -, -, -, htree, k₁, k₂, k₃⟩ :=
    exists_steps hs ht hl hcheck
  obtain ⟨m, hm⟩ := Tree.isDirectory_iff.1 h
  rw [htree] at hm
  have hlast :=
    standsAt_of_leads hs k₃.plain (k₃.leads k₂.plain (k₂.leads k₁.plain (k₁.leads ht hl))) hm
  have hroot := Tree.not_mem_map_concat l d.outputs
  refine hl.of_both ht (k₃.plain.eraseAll_concat l _) (ht.eraseAll_concat l _)
    (Tree.base_eraseAll _) ?_ hlast ?_
  · rw [Tree.base_eraseAll, k₃.base, k₂.base, k₁.base]
  · intro m hm hm'
    rw [Tree.get?_eraseAll hroot] at hm' ⊢
    split at hm'
    · cases hm'
    · next hno => rw [if_neg hno, hm]

/-- The messages of a refusal by the tree and of a file that is no text start differently. -/
theorem message_ne_of_isSystem {e : Failure} (he : e.isSystem = true) (e' : Utf8.Error) :
    e.message ≠ (Failure.undecodable e').message := by
  have hquote : (Failure.undecodable e').message.head? = some '\'' := rfl
  intro heq
  rw [← heq] at hquote
  cases e with
  | refused | scratchNamesTaken | intoItself | unmovable | targetTaken | busy | locked =>
      exact nomatch hquote
  | unsearchableName fault => cases fault <;> cases he
  | _ => cases he

/-- What the step that strips the page comes to where there is no deck is not what it comes to where
there is one. -/
theorem links_ne_of_not_isDirectory (hs : d.settings = .defaults archive) (hu : u.Plain)
    (hpage : t.isFile d.page = true) (hgone : u.isDirectory d.path = false) :
    (d.runStep .links u).1.result ≠ (d.runStep .links t).1.result := by
  have hunread : ∃ e, u.readText d.page = .error e ∧ e.isSystem = true := by
    rcases u.readText_cases d.page with ⟨k, f, hk, -⟩ | he
    · rw [page_eq hs] at hk
      obtain ⟨m, hm⟩ := hu.leads_parent (by decide) hk
      rw [Tree.isDirectory_iff.2 ⟨m, hm⟩] at hgone
      cases hgone
    · exact he
  obtain ⟨e, hread, he⟩ := hunread
  have hfails :
      d.stripLinks ⟨u, { step := Step.links.name }⟩ =
        (⟨[], .error e⟩, ⟨u, { step := Step.links.name }⟩) :=
    Action.bind_find_of_error (s := (⟨u, { step := Step.links.name }⟩ : Progress)) hread _
  have hresult : (d.runStep .links u).1.result = _ := (StepAction.run_of_error hfails (.inl he)).1
  obtain ⟨k, f, hk⟩ := Tree.isFile_iff.1 hpage
  rw [hresult]
  cases hlines : Utf8.readLines f.bytes with
  | error e' =>
    have hread' : t.readText d.page = .error (.undecodable e') := by
      rw [hk.readText_eq, hlines]
      rfl
    have hfails' : d.stripLinks ⟨t, { step := Step.links.name }⟩ =
        (⟨[], .error (.undecodable e')⟩, ⟨t, { step := Step.links.name }⟩) :=
      Action.bind_find_of_error (s := (⟨t, { step := Step.links.name }⟩ : Progress)) hread' _
    have hresult' : (d.runStep .links t).1.result = _ :=
      (StepAction.run_of_error hfails' (.inr rfl)).1
    rw [hresult']
    intro heq
    have hmessages := congrArg Outcome.messages (Except.ok.inj heq)
    obtain ⟨hsaid, -⟩ := List.cons.inj hmessages
    exact message_ne_of_isSystem he e' (List.append_cancel_left (List.append_cancel_left hsaid))
  | ok html =>
    have hends := stripLinks_end (d := d) t { step := Step.links.name }
    obtain ⟨o, hresult', -, hend⟩ := StepAction.run_cases hends
    generalize (StepAction.run Step.links.name d.stripLinks t).2 = v at hend
    have hok : o.ok = true := by
      cases hend with
      | rests _ hok => exact hok
      | changes _ hok => exact hok
      | fails h => exact absurd (by rw [hk.readText_eq, hlines]; rfl) (h html)
    have hlinks : (d.runStep .links t).1.result = .ok o := hresult'
    rw [hlinks]
    intro heq
    have := congrArg Outcome.ok (Except.ok.inj heq)
    rw [hok] at this
    cases this

/-- Whatever order the steps are run in, each comes to what it comes to in a finalization, and so
does the tree: that is so exactly for the decks whose path still leads to a directory when a
finalization has been run. -/
theorem anyOrder_iff (hs : d.settings = .defaults archive) (ht : t.Plain)
    (hcheck : d.check t = .ok ()) :
    (∃ f : Step → Outcome, (∀ s, (f s).step = s.name) ∧
      (d.finalize t).1.result = .ok ⟨Step.all.map f⟩ ∧
      ∀ steps : List Step, steps.Perm Step.all →
        (steps.mapM d.runStep t).1.result = .ok (steps.map f) ∧
        (d.finalize t).2.Same (steps.mapM d.runStep t).2) ↔
    (d.finalize t).2.isDirectory d.path = true := by
  obtain ⟨hthere, hpage⟩ := check_eq_ok_iff.1 hcheck
  obtain ⟨l, hl⟩ := Tree.isDirectory_iff.1 hthere
  constructor
  · rintro ⟨f, -, -, horders⟩
    by_contra hgone
    -- The links are taken out first in one order, and in the other when the build outputs are gone.
    obtain ⟨hfirst, -⟩ := horders [.links, .assets, .stylesheets, .artifacts] (by decide)
    obtain ⟨hlast, -⟩ := horders [.artifacts, .links, .assets, .stylesheets] (by decide)
    have hu : (d.runStep .artifacts t).2.Plain := by
      obtain ⟨o, -, -, hend⟩ := runStep_cases hs ht hl .artifacts
      generalize (d.runStep .artifacts t).2 = u at hend
      cases hend with
      | rests => exact ht
      | changes h =>
        obtain ⟨-, -, ms, -, hms, -, rfl⟩ := h
        exact ht.eraseAll hms
      | fails => exact ht
    have hnone : (d.runStep .artifacts t).2.isDirectory d.path = false := by
      by_contra h
      obtain ⟨m, hm⟩ := Tree.isDirectory_iff.1 (Bool.not_eq_false _ ▸ h)
      exact hgone (isDirectory_finalize_of_standsAt hs ht (standsAt_of_leads hs ht hl hm) hcheck)
    refine links_ne_of_not_isDirectory hs hu hpage hnone ?_
    simp only [List.mapM, List.mapM.loop, Action.result_bind_eq_ok] at hfirst hlast
    obtain ⟨o₁, h₁, o₂, -, o₃, -, o₄, -, hfirst⟩ := hfirst
    obtain ⟨o₁', -, o₂', h₂', o₃', -, o₄', -, hlast⟩ := hlast
    obtain ⟨rfl, -⟩ := List.cons.inj (Except.ok.inj hfirst)
    obtain ⟨-, rest⟩ := List.cons.inj (Except.ok.inj hlast)
    obtain ⟨rfl, -⟩ := List.cons.inj rest
    rw [h₁, h₂']
  · intro h
    have hstanding : d.Standing l t := ⟨ht, standsAt_of_isDirectory_finalize hs ht hl hcheck h⟩
    choose f hf hname hend using runStep_cases hs ht hl
    have hnodup : Step.all.Nodup := by decide
    obtain ⟨hall, hafter⟩ := mapM_runStep hs hstanding hf hnodup
    obtain ⟨hresult, htree⟩ := finalize_of_mapM (u := (Step.all.mapM d.runStep t).2) hcheck
      (show Step.all.mapM d.runStep t =
        (⟨(Step.all.mapM d.runStep t).1.log, .ok (Step.all.map f)⟩, _) by rw [← hall])
    refine ⟨f, hname, hresult, fun steps hperm => ?_⟩
    obtain ⟨hsteps, hafter'⟩ := mapM_runStep hs hstanding hf (hperm.nodup_iff.2 hnodup)
    refine ⟨hsteps, ?_⟩
    rw [htree]
    exact hafter.same hafter' fun s => by rw [List.mem_reverse, List.mem_reverse, hperm.mem_iff]

/-- The steps can be run on the unfinished deck in any order. -/
theorem anyOrder_unfinished :
    ∃ f : Step → Outcome, (∀ s, (f s).step = s.name) ∧
      (sampleDeck.finalize unfinished).1.result = .ok ⟨Step.all.map f⟩ ∧
      ∀ steps : List Step, steps.Perm Step.all →
        (steps.mapM sampleDeck.runStep unfinished).1.result = .ok (steps.map f) ∧
          (sampleDeck.finalize unfinished).2.Same (steps.mapM sampleDeck.runStep unfinished).2 := by
  have hplain : unfinished.Plain := Tree.plain_of_isPlain (by decide +kernel)
  have hsettings : sampleDeck.settings = .defaults .here := rfl
  exact (anyOrder_iff hsettings hplain (by decide +kernel)).2 (by decide +kernel)

/-- A deck's path that leads through the build outputs does not lead to the page any more when they
are removed first. -/
theorem anyOrder_roundabout :
    roundabout.settings = .defaults .here ∧ photographed.Plain ∧
      roundabout.check photographed = .ok () ∧
      ∃ steps : List Step, steps.Perm Step.all ∧ ∃ os os' : List Outcome,
        (roundabout.finalize photographed).1.result = .ok ⟨os⟩ ∧
        (steps.mapM roundabout.runStep photographed).1.result = .ok os' ∧
        (os.map fun o => (o.step, o.ok)) = Step.all.map (fun s => (s.name, true)) ∧
        (os'.map fun o => (o.step, o.ok)) =
          [("artifacts".toList, true), ("links".toList, false), ("stylesheets".toList, true),
            ("assets".toList, true)] ∧
        ¬(roundabout.finalize photographed).2.Same
          (steps.mapM roundabout.runStep photographed).2 := by
  have hfirst : (roundabout.finalize photographed).1.result.toOption.map
      (fun r => r.outcomes.map fun o => (o.step, o.ok)) =
        some (Step.all.map fun s => (s.name, true)) := by decide +kernel
  have hlast : (List.mapM roundabout.runStep [.artifacts, .links, .stylesheets, .assets]
      photographed).1.result.toOption.map
      (List.map fun o => (o.step, o.ok)) =
        some [("artifacts".toList, true), ("links".toList, false),
        ("stylesheets".toList, true), ("assets".toList, true)] := by decide +kernel
  obtain ⟨r, hr, hr'⟩ := Option.map_eq_some_iff.1 hfirst
  obtain ⟨os, hos, hos'⟩ := Option.map_eq_some_iff.1 hlast
  refine ⟨rfl, Tree.plain_of_isPlain (by decide +kernel), by decide +kernel,
    [.artifacts, .links, .stylesheets, .assets], by decide, r.outcomes, os,
    Outcome.eq_ok_of_toOption hr,
    Outcome.eq_ok_of_toOption hos, hr', hos', fun hsame => ?_⟩
  exact absurd (hsame ["deck".toList, "screenshots".toList]) (by decide +kernel)

end SlideDeck.Deck
