import SlideDeck.Deck.Finalization
import SlideDeck.Deck.Revision
import SlideDeck.Deck.Template
import SlideDeck.Proofs.Action
import SlideDeck.Proofs.Deck.Step
import SlideDeck.Proofs.Tree.Refusal

/-!
# Why a deck is not made, revised or finalized

To make the directory of a deck out of the template fails with failures that are reported, or
because the tree is at fault (`Told`), or because the archive is damaged
(`Template.makeDeck_failsOnly`). A finalization fails only as the look at the deck and its page does
that it starts with (`Deck.finalize_eq_error_iff`): its steps report what the tree or a value is at
fault for, and their work fails with nothing else. A page that is there is revised if there is a new
text of it and the tree takes it (`Deck.ending_revisePage_cases`).
-/

namespace SlideDeck

open SlideDeck.Action (FailsOnly)

/-- A run that makes a deck has a word for the failure: it is one of its own, or the tree is at
fault. -/
abbrev Told (f : Failure) : Prop := (f.isReported || f.isSystem) = true

theorem Refuses.told {f : Failure} (h : Refuses f) : Told f :=
  Bool.or_eq_true_iff.2 (.inr h)

/-- Such a failure, or an archive is damaged. -/
def ToldOrDamaged (f : Failure) : Prop :=
  Told f ∨ ∃ damage wording, f = .archiveDamaged damage wording

theorem Refuses.toldOrDamaged {f : Failure} (h : Refuses f) : ToldOrDamaged f := .inl h.told

/-! ## Making a deck -/

namespace Template

variable (t : Template) (s : Settings) (slug : Text) (out deck scratch : Path)
  (suffixes : List Suffix)

theorem contents_failsOnly (tree : Tree) : Outcome.FailsOnly Told (t.contents tree) := by
  refine .bind ((tree.ask_failsOnly true t.archive _).mono fun _ => Refuses.told) fun there =>
    .optional (.error rfl) fun _ => ?_
  split
  · exact .error rfl
  · exact .ok _

theorem install_failsOnly : FailsOnly Told (t.install deck scratch) := by
  refine .bind (.filterM fun e _ =>
    .bind ((TreeAction.ask_failsOnly _ _).mono fun _ => Refuses.told) fun _ => .pure _)
    fun missing => .optional (.throw rfl) fun _ =>
      .bind (.find fun tree => (tree.list_failsOnly scratch).mono fun _ => Refuses.told)
        fun names => ?_
  refine .optional (.note _ _) fun _ =>
    .bind (.rescue (TreeAction.makeDirectory_failsOnly deck) fun e he => ?_) fun _ =>
    .forM fun entry _ => .bind ((TreeAction.move_failsOnly _ _).mono fun _ => Refuses.told) fun _ =>
      .note _ _
  split
  · exact .throw rfl
  · exact .throw he.told

theorem makeScratch_failsOnly : FailsOnly Refuses (makeScratch out suffixes) := by
  induction suffixes with
  | nil => exact .throw rfl
  | cons s rest ih =>
    refine .rescue (.bind (TreeAction.makeDirectory_failsOnly _) fun _ => .pure _) fun e he => ?_
    split
    · exact ih
    · exact .throw he

theorem withScratch_failsOnly {E : Failure → Prop} (hE : ∀ f, Refuses f → E f)
    {body : Path → TreeAction Unit} (h : ∀ scratch, FailsOnly E (body scratch)) :
    FailsOnly E (withScratch out suffixes body) := by
  refine .bind ((makeScratch_failsOnly out suffixes).mono hE) fun scratch =>
    .bind (.note _ _) fun _ => .ensuring (h scratch) ?_
  refine .rescue (.change fun tree => tree.removeAll_failsOnly scratch) fun e he => ?_
  split
  · exact .lift (.ok ())
  · exact .throw (hE e he)

/-- The making of a deck has no failures that a run does not tell, but for those of a damaged
archive. -/
theorem makeDeck_failsOnly : FailsOnly ToldOrDamaged (t.makeDeck s suffixes slug out) := by
  refine .bind (.find fun tree => (t.contents_failsOnly tree).mono fun _ => .inl) fun archive =>
    .bind ((TreeAction.ask_failsOnly _ _).mono fun _ => Refuses.toldOrDamaged) fun there => ?_
  refine .optional (.throw (.inl rfl)) fun _ =>
    .bind ((TreeAction.makeDirectories_failsOnly out true).mono fun _ => Refuses.toldOrDamaged)
      fun _ =>
      .bind (.note _ _) fun _ => ?_
  refine .bind (withScratch_failsOnly out suffixes (fun _ => Refuses.toldOrDamaged) fun scratch =>
    ?_) fun _ => .pure _
  refine .bind ((TreeAction.unpack_failsOnly archive scratch).mono fun f hf => ?_) fun _ =>
    (install_failsOnly t _ scratch).mono fun _ => .inl
  exact hf.imp_left Refuses.told

end Template

/-! ## Finalizing a deck -/

/-- The tree or a value is at fault, so a step only reports the failure. -/
def Absorbed (f : Failure) : Prop := f.isSystem = true ∨ f.isValue = true

theorem Refuses.absorbed {f : Failure} (h : Refuses f) : Absorbed f := .inl h

theorem readText_failsOnly_absorbed (t : Tree) (p : Path) :
    Outcome.FailsOnly Absorbed (t.readText p) := by
  refine (t.readText_failsOnly p).mono fun f hf => ?_
  rcases hf with hf | ⟨e, rfl⟩
  · exact hf.absorbed
  · exact .inr rfl

namespace StepAction

theorem onTree_failsOnly {α : Type} {m : TreeAction α} (h : FailsOnly Refuses m) :
    FailsOnly Absorbed (onTree m) :=
  fun p => (h p.tree).mono fun _ => Refuses.absorbed

theorem ask_failsOnly (question : Tree → Path → Bool) (p : Path) :
    FailsOnly Absorbed (ask question p) :=
  onTree_failsOnly (TreeAction.ask_failsOnly p question)

theorem report_failsOnly (message : Text) : FailsOnly Absorbed (report message) :=
  .change fun _ => .ok _

theorem reportChange_failsOnly : FailsOnly Absorbed reportChange := .change fun _ => .ok _

/-- A step whose work has no other failures than those that are reported does not fail. -/
theorem run_failsOnly (name : Text) {work : StepAction Unit} (h : FailsOnly Absorbed work) :
    FailsOnly (fun _ => False) (run name work) := by
  intro t
  have hresult := h ⟨t, { step := name }⟩
  rcases hwork : work ⟨t, { step := name }⟩ with ⟨⟨log, result⟩, ⟨u, o⟩⟩
  rw [hwork] at hresult
  cases result with
  | ok =>
    rw [(run_of_ok hwork).1]
    exact .ok _
  | error e =>
    rw [(run_of_error hwork (hresult e rfl)).1]
    exact .ok _

end StepAction

namespace Deck

open StepAction

variable (d : Deck)

theorem ensureAssets_failsOnly : FailsOnly Absorbed d.ensureAssets := by
  refine .bind (ask_failsOnly _ _) fun there => ?_
  split
  · exact report_failsOnly _
  · exact .bind (onTree_failsOnly (TreeAction.makeDirectories_failsOnly _ _)) fun _ =>
      .bind reportChange_failsOnly
      fun _ => report_failsOnly _

theorem looseStylesheets_failsOnly (t : Tree) : Outcome.FailsOnly Absorbed (d.looseStylesheets t) :=
  .bind ((t.list_failsOnly d.path).mono fun _ => Refuses.absorbed) fun _ =>
    .bind (.filterM fun _ _ => (t.ask_failsOnly true _ _).mono fun _ => Refuses.absorbed) fun _ =>
      .ok _

theorem newBlocks_failsOnly (canonical : Text) (names : List Text) :
    FailsOnly Absorbed (d.newBlocks canonical names) := by
  induction names with
  | nil => exact .pure []
  | cons name names ih =>
    refine .bind (.find fun p => readText_failsOnly_absorbed p.tree _) fun content => ?_
    dsimp only
    split
    · exact .bind (report_failsOnly _) fun _ => ih
    · exact .bind (report_failsOnly _) fun _ => .bind ih fun _ => .pure _

theorem mergeStylesheets_failsOnly : FailsOnly Absorbed d.mergeStylesheets := by
  refine .bind (ask_failsOnly _ _) fun there => ?_
  split
  · exact .bind (.lift (.ok ())) fun _ => report_failsOnly _
  refine .bind (.find fun p => d.looseStylesheets_failsOnly p.tree) fun loose => ?_
  split
  · exact report_failsOnly _
  refine .bind (.find fun p => readText_failsOnly_absorbed p.tree _) fun canonical =>
    .bind (d.newBlocks_failsOnly canonical loose) fun blocks => ?_
  have hrest : FailsOnly Absorbed (do
      loose.forM fun name => do
        onTree (Action.change (·.unlink (d.path.append ⟨[], [name]⟩)))
        report ("Removed ".toList ++ name)
      reportChange) :=
    .bind (.forM fun name _ => .bind (onTree_failsOnly (.change fun t => t.unlink_failsOnly _))
      fun _ => report_failsOnly _)
      fun _ => reportChange_failsOnly
  dsimp only
  split
  · refine .bind (onTree_failsOnly (.change fun t => t.modifyFile_failsOnly _ _)) fun _ =>
      .bind (report_failsOnly _) fun _ =>
      hrest
  · exact hrest

theorem stripLinks_failsOnly : FailsOnly Absorbed d.stripLinks := by
  refine .bind (.find fun p => readText_failsOnly_absorbed p.tree _) fun html => ?_
  dsimp only
  split
  · exact report_failsOnly _
  · exact .bind (onTree_failsOnly (TreeAction.write_failsOnly _ _)) fun _ =>
      .bind reportChange_failsOnly
      fun _ => report_failsOnly _

theorem removeArtifact_failsOnly (artifact : Text) :
    FailsOnly Absorbed (d.removeArtifact artifact) := by
  have hlink : FailsOnly Absorbed
      (Action.find (·.tree.ask Tree.isLink false (d.path.child artifact)) : StepAction Bool) :=
    .find fun p => (p.tree.ask_failsOnly false _ _).mono fun _ => Refuses.absorbed
  refine .bind (.bind (ask_failsOnly _ _) fun directory => ?_) fun remove => ?_
  · cases directory with
    | false => exact .pure _
    | true => exact .bind hlink fun _ => .pure _
  split
  · exact .bind (onTree_failsOnly (.change fun t => t.removeAll_failsOnly _)) fun _ =>
      .bind (report_failsOnly _) fun _ =>
      reportChange_failsOnly
  · refine .bind (.bind (ask_failsOnly _ _) fun there => ?_) fun remove => ?_
    · cases there with
      | true => exact .pure _
      | false => exact hlink
    split
    · exact .bind (onTree_failsOnly (.change fun t => t.unlink_failsOnly _)) fun _ =>
        .bind (report_failsOnly _) fun _ =>
        reportChange_failsOnly
    · exact .pure ()

theorem removeArtifacts_failsOnly (artifacts : List Text) :
    FailsOnly Absorbed (d.removeArtifacts artifacts) := by
  refine .bind (.forM fun artifact _ => d.removeArtifact_failsOnly artifact) fun _ =>
    .bind (.look _) fun changed => ?_
  split
  · exact report_failsOnly _
  · exact .pure ()

theorem work_failsOnly (step : Step) : FailsOnly Absorbed (d.work step) := by
  cases step with
  | assets => exact d.ensureAssets_failsOnly
  | stylesheets => exact d.mergeStylesheets_failsOnly
  | links => exact d.stripLinks_failsOnly
  | artifacts => exact d.removeArtifacts_failsOnly _

/-- A finalization fails as the look at the deck and its page fails that it starts with, and not
later. -/
theorem finalize_eq_error_iff (t : Tree) (f : Failure) : (d.finalize t).1.result = .error f ↔
    d.check t = .error f := by
  have hsteps : FailsOnly (fun _ => False) (Step.all.mapM d.runStep : TreeAction (List Outcome)) :=
    .mapM fun step _ => run_failsOnly step.name (d.work_failsOnly step)
  show (Action.ending d.finalize t).1 = .error f ↔ _
  rw [finalize, Action.fst_ending_bind_eq_error, Action.ending_find]
  refine or_iff_left fun ⟨_, u, _, hrest⟩ => ?_
  rw [Action.fst_ending_bind_eq_error] at hrest
  rcases hrest with hnote | ⟨_, v, _, hrest⟩
  · cases hnote
  · rw [Action.fst_ending_bind_eq_error] at hrest
    rcases hrest with hstep | ⟨_, _, _, hdone⟩
    · exact hsteps v f hstep
    · cases hdone

end Deck

/-! ## Revising a page -/

namespace Deck

open SlideDeck.Action (ending)

variable {s : Settings} {marker : Text} {cover : Cover} {page : Path} {layout : Layout} {u : Tree}

theorem ending_compile :
    ending (liftM (Layout.compile layout : Attempt Failure Outline) : TreeAction Outline) u =
      (.ok layout.outline, u) := rfl

variable [Record.Nesting]

/-- The new text of a page, as far as the page allows for one. -/
def newText (s : Settings) (marker : Text) (cover : Cover) (page : Path) (layout : Layout)
    (u : Tree) : Except Failure Text := do
  (Page.revise marker ⟨s.deckDirname cover.slug, cover.title, layout.outline⟩
    (← u.readText page)).result

/-- A page that has no new text stays as it is. -/
theorem ending_revisePage_of_error {f : Failure}
    (h : newText s marker cover page layout u = .error f) :
    ending (revisePage s marker cover page layout) u = (.error f, u) := by
  rw [revisePage, Action.ending_bind_of_ok ending_compile]
  rcases Outcome.bind_eq_error.1 h with hread | ⟨html, hread, hrevise⟩
  · exact Action.ending_bind_of_error (by rw [Action.ending_find, hread]) _
  · rw [Action.ending_bind_of_ok (by rw [Action.ending_find, hread])]
    exact Action.ending_bind_of_error (by rw [Action.ending_lift, hrevise]) _

/-- The new text of a page is written, if the tree takes it. -/
theorem ending_revisePage_of_ok {text : Text}
    (h : newText s marker cover page layout u = .ok text) :
    ending (revisePage s marker cover page layout) u =
      ending (do Action.change (·.write page (Utf8.encode text)); return layout.outline) u := by
  obtain ⟨html, hread, hrevise⟩ := Outcome.bind_eq_ok.1 h
  rw [revisePage, Action.ending_bind_of_ok ending_compile,
    Action.ending_bind_of_ok (by rw [Action.ending_find, hread]),
    Action.ending_bind_of_ok (by rw [Action.ending_lift, hrevise])]

/-- There is no new text of a page, and that is why it is not revised; or there is one, and if it is
not written the tree is at fault. -/
theorem ending_revisePage_cases (s : Settings) (marker : Text) (cover : Cover) (page : Path)
    (layout : Layout) (u : Tree) :
    (∃ f, newText s marker cover page layout u = .error f ∧
      ending (Deck.revisePage s marker cover page layout) u = (.error f, u)) ∨
    (∃ text, newText s marker cover page layout u = .ok text) ∧
      ((∃ f, Refuses f ∧ ending (Deck.revisePage s marker cover page layout) u = (.error f, u)) ∨
        ∃ v, ending (Deck.revisePage s marker cover page layout) u = (.ok layout.outline, v)) := by
  cases hnew : newText s marker cover page layout u with
  | error f => exact .inl ⟨f, rfl, ending_revisePage_of_error hnew⟩
  | ok text =>
    refine .inr ⟨⟨text, rfl⟩, ?_⟩
    rw [ending_revisePage_of_ok hnew]
    cases hwrite : u.write page (Utf8.encode text) with
    | error g =>
      exact .inl ⟨g, u.modifyFile_failsOnly _ _ g hwrite,
        Action.ending_bind_of_error (Action.ending_change_of_error hwrite) _⟩
    | ok v => exact .inr ⟨v, Action.ending_bind_of_ok (Action.ending_change_of_ok hwrite) _⟩

end Deck

end SlideDeck
