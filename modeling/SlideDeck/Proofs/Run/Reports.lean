import SlideDeck.CommandLine.Program
import SlideDeck.Proofs.Deck.Damaged
import SlideDeck.Proofs.Layout.Grammar
import SlideDeck.Proofs.Page.Causes
import SlideDeck.Proofs.Run.Making

/-!
# What a run reports

A run succeeds, ends in a message and the exit code 1, or ends in a failure that it has no word for.
The last happens for the causes that `Escapes` lists, and for no others (`runStages_reports`).

When a deck is finalized these are paths that are too long for the system. When one is made they are
an archive's path that is too long, a random slug of less than no bytes, a number in the structure
text that has too many digits, an archive that turns out to be damaged when it is unpacked, a page
that is not in UTF-8, and faults of the page (`Page.Fault`).
-/

namespace SlideDeck

open SlideDeck.Action (FailsOnly ending)

variable {f : Failure}

theorem isReported_eq_false (h : ¬Told f) : f.isReported = false :=
  (Bool.or_eq_false_iff.1 (Bool.eq_false_iff.2 h)).1

/-- A deck is not looked at, for a reason that no run reports, if its path or that of its page is
too long. -/
theorem Deck.check_eq_error_iff {d : Deck} {t : Tree} (hf : f.isReported = false) :
    d.check t = .error f ↔
      (t.IsTooLong d.path ∧ f = .refused .nameTooLong d.path.toText) ∨
      t.isDirectory d.path = true ∧ t.IsTooLong d.page ∧
        f = .refused .nameTooLong d.page.toText := by
  have hreported {g : Failure} (hg : g.isReported = true) : f ≠ g := by
    rintro rfl
    cases hf.symm.trans hg
  rw [check, Outcome.bind_eq_error, Tree.ask_eq_error_iff]
  refine or_congr_right ⟨?_, ?_⟩
  · rintro ⟨there, hask, h⟩
    cases there with
    | false => cases hreported rfl (Except.error.inj h).symm
    | true =>
      refine ⟨(Tree.ask_eq_ok hask).1, ?_⟩
      rcases Outcome.bind_eq_error.1 h with h | ⟨there, -, h⟩
      · exact Tree.ask_eq_error_iff.1 h
      · cases there with
        | false => cases hreported rfl (Except.error.inj h).symm
        | true => cases h
  · rintro ⟨hdirectory, hlong⟩
    obtain ⟨l, hl⟩ := Tree.isDirectory_iff.1 hdirectory
    refine ⟨true, by rw [hl.ask_eq, hdirectory], ?_⟩
    exact Outcome.bind_eq_error.2 (.inl (Tree.ask_eq_error_iff.2 hlong))

/-- A number in a structure text that has too many digits is refused for that if the marker is none
such. -/
theorem Group.refusal_untold_iff {marker piece : Text} :
    ¬IsToken marker piece ∧ f = refusal marker piece ∧ f.isReported = false ↔
      Text.strip piece ≠ marker ∧ Numeral.isPlain (Text.strip piece) = true ∧
        Numeral.maxDigits < (Text.strip piece).length ∧
        f = .numeralTooLong (Text.strip piece).length := by
  constructor
  · rintro ⟨htoken, rfl, huntold⟩
    rw [refusal] at huntold ⊢
    by_cases hlong : Numeral.isPlain (Text.strip piece) ∧
      Numeral.maxDigits < (Text.strip piece).length
    · rw [if_pos hlong]
      exact ⟨fun hmarker => htoken (.inl hmarker), hlong.1, hlong.2, rfl⟩
    · rw [if_neg hlong] at huntold
      cases huntold
  · rintro ⟨hmarker, hplain, hlong, rfl⟩
    refine ⟨?_, (if_pos ⟨hplain, hlong⟩).symm, rfl⟩
    rintro (h | h)
    · exact hmarker h
    · exact Nat.not_lt.2 h.length_le hlong

/-- A layout is not read, for a reason that no run reports, if the first piece of the structure text
that is no token is a number with too many digits. -/
theorem Layout.read_eq_error_iff {marker : Text} (count : Int) {request : Request} :
    read marker count request = .error f ∧ f.isReported = false ↔
      ∃ structureText before piece after, request.slides = none ∧
        request.tokens = some structureText ∧
        Text.split ',' structureText = before ++ piece :: after ∧
        (∀ token ∈ before, Group.IsToken marker token) ∧ Text.strip piece ≠ marker ∧
        Numeral.isPlain (Text.strip piece) = true ∧
        Numeral.maxDigits < (Text.strip piece).length ∧
        f = .numeralTooLong (Text.strip piece).length := by
  have hreported {g : Failure} (hg : g.isReported = true) :
      ¬((.error g : Except Failure Layout) = .error f ∧ f.isReported = false) := by
    rintro ⟨h, hf⟩
    obtain rfl := Except.error.inj h
    cases hf.symm.trans hg
  obtain ⟨slides, tokens⟩ := request
  unfold read
  cases slides with
  | none =>
    cases tokens with
    | none => exact iff_of_false nofun fun ⟨_, _, _, _, _, h, _⟩ => nomatch h
    | some structureText =>
      dsimp only
      rw [ofStructure_eq_error_iff]
      constructor
      · rintro ⟨⟨before, piece, after, hpieces, hbefore, htoken, hrefused⟩, huntold⟩
        exact ⟨structureText, before, piece, after, rfl, rfl, hpieces, hbefore,
          Group.refusal_untold_iff.1 ⟨htoken, hrefused, huntold⟩⟩
      · rintro ⟨_, before, piece, after, -, htext, hpieces, hbefore, hlong⟩
        obtain rfl := Option.some.inj htext
        obtain ⟨htoken, hrefused, huntold⟩ := Group.refusal_untold_iff.2 hlong
        exact ⟨⟨before, piece, after, hpieces, hbefore, htoken, hrefused⟩, huntold⟩
  | some slides =>
    refine iff_of_false ?_ fun ⟨_, _, _, _, h, _⟩ => nomatch h
    cases tokens with
    | some structureText => exact hreported rfl
    | none =>
      dsimp only
      unfold Count.validate
      split
      · split
        · nofun
        · exact hreported rfl
      · exact hreported rfl

namespace Run

variable [Record.Nesting] {c : Context} {s s' : State} {t u : Tree} {slug : Text} {layout : Layout}
  {α : Type}

/-- What is at fault with the page of a deck, or with what is to be put into it, and no run has a
word for it. -/
inductive State.PageFault (c : Context) (s : State) (layout : Layout) (u : Tree) : Failure → Prop
  /-- The bytes of the page are not in UTF-8. -/
  | undecodable {l : Location} {file : File} {e : Utf8.Error}
    (hpage : u.Leads (s.deck.child c.settings.markupEntry) l (.file file))
    (hbytes : Utf8.readLines file.bytes = .error e) : PageFault c s layout u (.undecodable e)
  /-- The text of the page cannot be revised. -/
  | text {l : Location} {file : File} {html : Text} {f : Failure}
    (hpage : u.Leads (s.deck.child c.settings.markupEntry) l (.file file))
    (hbytes : Utf8.readLines file.bytes = .ok html)
    (hfault : Page.Fault c.settings.configMarker
      ⟨c.settings.deckDirname (s.slug.getD []), s.title, layout.outline⟩ html f) :
    PageFault c s layout u f

/-- The failures that a run from some tree has no word for, each with its cause. -/
inductive Escapes (c : Context) (s : State) (t : Tree) : Failure → Prop
  /-- The path of the deck that is to be finalized is too long. -/
  | deckPath {slug : Text} (hfinalize : s.finalize = true) (hslug : nonempty? s.slug = some slug)
    (hlong : t.IsTooLong (c.settings.deckPath slug s.output)) :
    Escapes c s t (.refused .nameTooLong (c.settings.deckPath slug s.output).toText)
  /-- The deck that is to be finalized is there, and the path of its page is too long. -/
  | pagePath {slug : Text} {page : Path} (hfinalize : s.finalize = true)
    (hslug : nonempty? s.slug = some slug)
    (hdirectory : t.isDirectory (c.settings.deckPath slug s.output) = true)
    (hpage : page = (c.settings.deckPath slug s.output).child c.settings.markupEntry)
    (hlong : t.IsTooLong page) : Escapes c s t (.refused .nameTooLong page.toText)
  /-- The path of the archive that a deck is to be made of is too long. -/
  | archivePath (hmake : s.finalize = false) (hlong : t.IsTooLong (s.archiveOr c.settings)) :
    Escapes c s t (.refused .nameTooLong (s.archiveOr c.settings).toText)
  /-- No slug is given, and one is to be made of less than no random bytes. -/
  | slug (hmake : s.finalize = false) (harchive : t.isFile (s.archiveOr c.settings) = true)
    (hslug : nonempty? s.slug = none) (hbytes : c.settings.slugBytes < 0) :
    Escapes c s t .negativeCount
  /-- The first piece of the structure text that is no token is a number with too many digits. -/
  | numeral {slug structureText piece : Text} {before after : List Text}
      (hmake : s.finalize = false)
    (harchive : t.isFile (s.archiveOr c.settings) = true) (hslug : s.slugOr c = .ok slug)
    (hslides : s.layout.slides = none) (htokens : s.layout.tokens = some structureText)
    (hpieces : Text.split ',' structureText = before ++ piece :: after)
    (hbefore : ∀ token ∈ before, Group.IsToken c.settings.dividerToken token)
    (hmarker : Text.strip piece ≠ c.settings.dividerToken)
    (hplain : Numeral.isPlain (Text.strip piece) = true)
    (hlong : Numeral.maxDigits < (Text.strip piece).length) :
    Escapes c s t (.numeralTooLong (Text.strip piece).length)
  /-- There is no deck yet, and in its scratch directory the archive turns out to be damaged. -/
  | archive {slug wording : Text} {layout : Layout} {archive : Archive} {v w : Tree}
      {scratch : Path}
    {damage : Damage} (hmake : s.finalize = false) (hslug : s.slugOr c = .ok slug)
    (hread : Layout.read c.settings.dividerToken c.settings.defaultSlideCount s.layout = .ok layout)
    (harchive : (t.file? (s.archiveOr c.settings)).bind (·.archive) = some archive)
    (hfree : t.ask Tree.contains true (c.settings.deckPath slug s.output) = .ok false)
    (hout : ending (TreeAction.makeDirectories true s.output) t = (.ok (), v))
    (hscratch : ending (Template.makeScratch s.output c.suffixes) v = (.ok scratch, w))
    (hdamaged : archive.TurnsOut damage wording scratch w) :
    Escapes c s t (.archiveDamaged damage wording)
  /-- The deck is made, and its page is at fault. -/
  | page {s' : State} {u : Tree} {layout : Layout} {f : Failure} (hmake : s.finalize = false)
    (hmade : ending (Stage.runAll c Stage.untilDeck s) t = (.ok s', u))
    (hgroups : s'.groups = some layout) (hfault : s'.PageFault c layout u f) : Escapes c s t f

/-- A halt with a message. -/
def Halt.IsMessage (halt : Halt) : Prop := ∃ text, halt = .message text

omit [Record.Nesting] in
theorem fst_ending_reporting_eq_failure (isReported : Failure → Bool) (m : TreeAction α) :
    (ending (reporting isReported m) t).1 = .error (.failure f) ↔
      (ending m t).1 = .error f ∧ isReported f = false := by
  rw [reporting, Action.ending_explain]
  cases (ending m t).1 with
  | ok a => simp [Except.mapError]
  | error g =>
    constructor
    · intro h
      cases hg : isReported g with
      | true => rw [Except.mapError, hg] at h; cases h
      | false =>
        rw [Except.mapError, hg] at h
        cases h
        exact ⟨rfl, hg⟩
    · rintro ⟨h, hf⟩
      obtain rfl := Except.error.inj h
      rw [Except.mapError, hf]
      rfl

/-! ## Finalizing -/

omit [Record.Nesting] in
theorem announceReport_failsOnly {report : Report} (h : s.report = some report) :
    FailsOnly Halt.IsMessage (s.announceReport c) := by
  rw [State.announceReport, h]
  exact .bind (.forM fun _ _ => .note _ _) fun _ => .bind (.note _ _) fun _ =>
    .bind (.note _ _) fun _ => .bind (.note _ _) fun _ => .bind (.note _ _) fun _ => .pure _

section Finalizing

variable (hfinalize : s.finalize = true)

include hfinalize

omit [Record.Nesting] in
/-- A run that finalizes a deck goes on with the deck of a slug, or ends in a message if there is
none. -/
theorem checkSurroundings_of_finalize (t : Tree) :
    (nonempty? s.slug = none ∧
      ∃ halt, halt.IsMessage ∧ ending (s.checkSurroundings c) t = (.error halt, t)) ∨
    ∃ slug, nonempty? s.slug = some slug ∧ ending (s.checkSurroundings c) t =
      (.ok { s with deck := c.settings.deckPath slug s.output, ready := true }, t) := by
  rw [State.checkSurroundings, Action.ending_bind_of_ok (Action.ending_note _ _ t),
    Action.ending_bind_of_ok (Action.ending_note _ _ t), if_pos hfinalize]
  cases hslug : nonempty? s.slug with
  | none =>
    rw [if_pos rfl]
    exact .inl ⟨rfl, _, ⟨_, rfl⟩, Action.ending_bind_of_error (Action.ending_throw _ t) _⟩
  | some slug =>
    refine .inr ⟨slug, rfl, ?_⟩
    have hgiven : s.slug.getD [] = slug := by
      unfold nonempty? at hslug
      split at hslug
      · next heq => rw [heq, ← Option.some.inj hslug]; rfl
      · cases hslug
    rw [if_neg (by simp), Action.ending_bind_of_ok (Action.ending_pure s t)]
    rw [← hgiven]
    rfl

/-- The steps of a finalization report what they fail with, so only the look at the deck escapes. -/
theorem finalizing_eq_failure_iff :
    (ending (Stage.runAll c Stage.finalizing s) t).1 = .error (.failure f) ↔
      ∃ slug, nonempty? s.slug = some slug ∧ f.isReported = false ∧
        (⟨c.settings.deckPath slug s.output, c.settings⟩ : Deck).check t = .error f := by
  have hstages : Stage.runAll c Stage.finalizing s = s.checkSurroundings c >>= fun s =>
    s.finalizeDeck c >>= fun s => s.announceReport c >>= fun s => pure s := rfl
  have hannounce {s : State} {report : Report} (hs : s.report = some report) (t : Tree) :
      (ending (s.announceReport c >>= fun s => pure s) t).1 ≠ .error (.failure f) := fun h =>
    nomatch (announceReport_failsOnly hs).bind (fun _ => .pure _) t _ h
  rw [hstages]
  rcases checkSurroundings_of_finalize (c := c) hfinalize t with
    ⟨hnone, halt, ⟨text, rfl⟩, hchecked⟩ | ⟨slug, hslug, hchecked⟩
  · rw [Action.ending_bind_of_error hchecked]
    exact iff_of_false nofun fun ⟨_, h, _⟩ => nomatch hnone.symm.trans h
  · rw [Action.ending_bind_of_ok hchecked, hslug]
    simp only [Option.some.injEq, exists_eq_left']
    rw [Action.fst_ending_bind_eq_error, or_iff_left, State.finalizeDeck,
      Action.fst_ending_bind_eq_error, or_iff_left, fst_ending_reporting_eq_failure, and_comm]
    · exact and_congr_right fun _ => Deck.finalize_eq_error_iff ..
    · exact fun ⟨_, _, _, h⟩ => nomatch h
    · rintro ⟨s', u, hfinalized, h⟩
      obtain ⟨report, v, -, hs'⟩ := Action.ending_bind_eq_ok.1 hfinalized
      obtain ⟨heq, -⟩ := Prod.mk.inj hs'
      obtain rfl := Except.ok.inj heq
      exact hannounce rfl u h

end Finalizing

/-! ## Making -/

/-- The state with which a run reads the layout. -/
def State.surroundedBy (s : State) (c : Context) (slug : Text) : State :=
  { s with
    archive := s.archiveOr c.settings, slug := some slug,
    deck := c.settings.deckPath slug s.output, ready := true }

section Making

variable (hmake : s.finalize = false)

include hmake

omit [Record.Nesting] in
theorem checkSurroundings_eq_failure_iff :
    (ending (s.checkSurroundings c) t).1 = .error (.failure f) ↔
      (t.IsTooLong (s.archiveOr c.settings) ∧
        f = .refused .nameTooLong (s.archiveOr c.settings).toText) ∨
      t.isFile (s.archiveOr c.settings) = true ∧ s.slugOr c = .error f := by
  rw [← @Tree.ask_eq_error_iff _ _ Tree.isFile]
  rcases checkSurroundings_cases (c := c) hmake t with
    ⟨g, hask, hchecked⟩ | ⟨hask, hchecked⟩ | ⟨harchive, hcases⟩
  · have hno : t.isFile (s.archiveOr c.settings) ≠ true := fun h =>
      nomatch hask.symm.trans (Tree.ask_of_isFile h _)
    simp [hchecked, hask, hno]
  · simp [hchecked, hask, (Tree.ask_eq_ok hask).1]
  · rcases hcases with ⟨g, hg, hchecked⟩ | ⟨slug, hslug, hchecked⟩
    · simp [hchecked, Tree.ask_of_isFile, harchive, hg]
    · simp [hchecked, Tree.ask_of_isFile, harchive, hslug]

omit [Record.Nesting] in
theorem checkSurroundings_eq_ok_iff : ending (s.checkSurroundings c) t = (.ok s', u) ↔
    t.isFile (s.archiveOr c.settings) = true ∧ ∃ slug, s.slugOr c = .ok slug ∧
      s.surroundedBy c slug = s' ∧ t = u := by
  rcases checkSurroundings_cases (c := c) hmake t with
    ⟨g, hask, hchecked⟩ | ⟨hask, hchecked⟩ | ⟨harchive, hcases⟩
  · have hno : t.isFile (s.archiveOr c.settings) ≠ true := fun h =>
      nomatch hask.symm.trans (Tree.ask_of_isFile h _)
    simp [hchecked, hno]
  · simp [hchecked, (Tree.ask_eq_ok hask).1]
  · rcases hcases with ⟨g, hg, hchecked⟩ | ⟨slug, hslug, hchecked⟩
    · simp [hchecked, harchive, hg]
    · simp [hchecked, harchive, hslug, State.surroundedBy]

omit hmake

omit [Record.Nesting] in
/-- The only slug that cannot be made is one of less than no bytes. -/
theorem slugOr_eq_error_iff :
    s.slugOr c = .error f ↔
      nonempty? s.slug = none ∧ c.settings.slugBytes < 0 ∧ f = .negativeCount := by
  unfold State.slugOr
  cases nonempty? s.slug with
  | some slug => exact iff_of_false nofun nofun
  | none =>
    dsimp only
    unfold Slug.generate
    split
    · next hneg => simp [hneg, eq_comm]
    · next hneg => simp [hneg]

omit [Record.Nesting] in
theorem readLayout_eq_ok_iff : ending (s.readLayout c) t = (.ok s', u) ↔
    ∃ layout, Layout.read c.settings.dividerToken c.settings.defaultSlideCount s.layout =
      .ok layout ∧
      { s with groups := some layout } = s' ∧ t = u := by
  rcases readLayout_cases s c t with ⟨g, hg, hread⟩ | ⟨layout, hlayout, hread⟩
  · simp [hread, hg]
  · simp [hread, hlayout]

omit [Record.Nesting] in
/-- A layout is not read, for a reason that no run reports, if the first piece of the structure text
that is no token is a number with too many digits. -/
theorem readLayout_eq_failure_iff :
    (ending (s.readLayout c) t).1 = .error (.failure f) ↔
      ∃ structureText before piece after, s.layout.slides = none ∧
        s.layout.tokens = some structureText ∧
        Text.split ',' structureText = before ++ piece :: after ∧
        (∀ token ∈ before, Group.IsToken c.settings.dividerToken token) ∧
        Text.strip piece ≠ c.settings.dividerToken ∧ Numeral.isPlain (Text.strip piece) = true ∧
        Numeral.maxDigits < (Text.strip piece).length ∧
        f = .numeralTooLong (Text.strip piece).length := by
  rw [← Layout.read_eq_error_iff c.settings.defaultSlideCount]
  rcases readLayout_cases s c t with ⟨g, hg, hread⟩ | ⟨layout, hlayout, hread⟩
  · rw [hread, hg]
    constructor
    · intro h
      cases htold : g.isReported <;> rw [htold] at h <;> cases h
      exact ⟨rfl, htold⟩
    · rintro ⟨h, huntold⟩
      obtain rfl := Except.error.inj h
      rw [huntold, if_neg nofun]
  · simp [hlayout, hread]

omit [Record.Nesting] in
/-- A run has a word for whatever keeps a deck from being made, unless the archive is damaged. -/
theorem makeDeck_eq_failure_iff (hslug : s.slug = some slug) :
    (ending (s.makeDeck c) t).1 = .error (.failure f) ↔
      ∃ damage wording archive v w scratch, f = .archiveDamaged damage wording ∧
        (t.file? s.archive).bind (·.archive) = some archive ∧
        t.ask Tree.contains true (c.settings.deckPath slug s.output) = .ok false ∧
        ending (TreeAction.makeDirectories true s.output) t = (.ok (), v) ∧
        ending (Template.makeScratch s.output c.suffixes) v = (.ok scratch, w) ∧
        archive.TurnsOut damage wording scratch w := by
  have hslug' : s.slug.getD [] = slug := by rw [hslug]; rfl
  rw [State.makeDeck, Action.fst_ending_bind_pure_eq_error, hslug', fst_ending_reporting_eq_failure]
  constructor
  · rintro ⟨hfails, huntold⟩
    obtain htold | ⟨damage, wording, rfl⟩ := Template.makeDeck_failsOnly _ _ _ _ _ t f hfails
    · cases huntold.symm.trans htold
    · obtain ⟨archive, v, w, scratch, h⟩ := Template.makeDeck_eq_error_iff.1 hfails
      exact ⟨damage, wording, archive, v, w, scratch, rfl, h⟩
  · rintro ⟨damage, wording, archive, v, w, scratch, rfl, h⟩
    exact ⟨Template.makeDeck_eq_error_iff.2 ⟨archive, v, w, scratch, h⟩, rfl⟩

theorem runAll_untilDeck : Stage.runAll c Stage.untilDeck s =
    s.checkSurroundings c >>= fun s => s.readLayout c >>= fun s => s.makeDeck c >>= fun s =>
      pure s :=
  rfl

theorem exists_groups_of_untilDeck (h : ending (Stage.runAll c Stage.untilDeck s) t = (.ok s', u)) :
    ∃ layout, s'.groups = some layout := by
  rw [runAll_untilDeck] at h
  obtain ⟨s₁, t₁, -, h⟩ := Action.ending_bind_eq_ok.1 h
  obtain ⟨s₂, t₂, hread, h⟩ := Action.ending_bind_eq_ok.1 h
  obtain ⟨s₃, t₃, hmade, h⟩ := Action.ending_bind_eq_ok.1 h
  cases h
  obtain ⟨deck, t₄, -, hdeck⟩ := Action.ending_bind_eq_ok.1 hmade
  cases hdeck
  obtain ⟨layout, -, rfl, -⟩ := readLayout_eq_ok_iff.1 hread
  exact ⟨layout, rfl⟩

/-- A deck is not made because of the surroundings, of the layout, or of the archive. -/
theorem untilDeck_eq_failure_iff (hmake : s.finalize = false) :
    (ending (Stage.runAll c Stage.untilDeck s) t).1 = .error (.failure f) ↔
      (ending (s.checkSurroundings c) t).1 = .error (.failure f) ∨
      t.isFile (s.archiveOr c.settings) = true ∧ ∃ slug, s.slugOr c = .ok slug ∧
        ((ending (s.readLayout c) t).1 = .error (.failure f) ∨
          ∃ layout, Layout.read c.settings.dividerToken c.settings.defaultSlideCount s.layout =
            .ok layout ∧
            (ending (({ s.surroundedBy c slug with groups := some layout } : State).makeDeck c)
              t).1 =
              .error (.failure f)) := by
  have hread (slug : Text) :
      (ending ((s.surroundedBy c slug).readLayout c) t).1 = .error (.failure f) ↔
      (ending (s.readLayout c) t).1 = .error (.failure f) := by
    rw [readLayout_eq_failure_iff, readLayout_eq_failure_iff]
    rfl
  rw [runAll_untilDeck, Action.fst_ending_bind_eq_error]
  refine or_congr_right ⟨?_, ?_⟩
  · rintro ⟨_, _, hchecked, h⟩
    obtain ⟨harchive, slug, hslug, rfl, rfl⟩ := (checkSurroundings_eq_ok_iff hmake).1 hchecked
    refine ⟨harchive, slug, hslug, ?_⟩
    rcases Action.fst_ending_bind_eq_error.1 h with h | ⟨_, _, hreads, h⟩
    · exact .inl ((hread slug).1 h)
    · obtain ⟨layout, hlayout, rfl, rfl⟩ := readLayout_eq_ok_iff.1 hreads
      exact .inr ⟨layout, hlayout, Action.fst_ending_bind_pure_eq_error.1 h⟩
  · rintro ⟨harchive, slug, hslug, h⟩
    refine ⟨_, _, (checkSurroundings_eq_ok_iff hmake).2 ⟨harchive, slug, hslug, rfl, rfl⟩, ?_⟩
    rw [Action.fst_ending_bind_eq_error]
    refine h.imp (hread slug).2 fun ⟨layout, hlayout, h⟩ => ?_
    exact ⟨_, _, readLayout_eq_ok_iff.2 ⟨layout, hlayout, rfl, rfl⟩,
      Action.fst_ending_bind_pure_eq_error.2 h⟩

theorem escapes_of_untilDeck (hmake : s.finalize = false)
    (h : (ending (Stage.runAll c Stage.untilDeck s) t).1 = .error (.failure f)) :
    Escapes c s t f := by
  rcases (untilDeck_eq_failure_iff hmake).1 h
    with h | ⟨harchive, slug, hslug, h | ⟨layout, hlayout, h⟩⟩
  · rcases (checkSurroundings_eq_failure_iff hmake).1 h with ⟨hlong, rfl⟩ | ⟨harchive, hslug⟩
    · exact .archivePath hmake hlong
    · obtain ⟨hnone, hbytes, rfl⟩ := slugOr_eq_error_iff.1 hslug
      exact .slug hmake harchive hnone hbytes
  · obtain ⟨structureText, before, piece, after, hslides, htokens, hpieces, hbefore, hmarker,
        hplain, hlong, rfl⟩ := readLayout_eq_failure_iff.1 h
    exact .numeral hmake harchive hslug hslides htokens hpieces hbefore hmarker hplain hlong
  · obtain ⟨damage, wording, archive, v, w, scratch, rfl, hfile, hfree, hout, hscratch, hdamaged⟩ :=
      (makeDeck_eq_failure_iff rfl).1 h
    exact .archive hmake hslug hlayout hfile hfree hout hscratch hdamaged

end Making

/-! ## Revising the page -/

/-- The new text of a deck's page, as far as the page allows for one. -/
def State.newPage (s : State) (c : Context) (layout : Layout) (u : Tree) : Except Failure Text := do
  let html ← u.readText (s.deck.child c.settings.markupEntry)
  (Page.revise c.settings.configMarker
    ⟨c.settings.deckDirname (s.slug.getD []), s.title, layout.outline⟩ html).result

/-- There is no new text of the page, for a reason that the run has no word for, if the page is at
fault. -/
theorem newPage_untold_iff :
    s.newPage c layout u = .error f ∧ ¬Told f ↔ s.PageFault c layout u f := by
  constructor
  · rintro ⟨h, huntold⟩
    rw [State.newPage, Outcome.bind_eq_error] at h
    rcases u.readText_cases (s.deck.child c.settings.markupEntry) with
      ⟨l, file, hpage, htext⟩ | ⟨e, htext, he⟩
    · rw [htext] at h
      cases hbytes : Utf8.readLines file.bytes with
      | error e =>
        rw [hbytes] at h
        obtain h | ⟨_, h, -⟩ := h
        · cases h
          exact .undecodable hpage hbytes
        · cases h
      | ok html =>
        rw [hbytes] at h
        obtain h | ⟨_, hhtml, h⟩ := h
        · cases h
        · cases hhtml
          exact .text hpage hbytes ((Page.revise_eq_error_iff (isReported_eq_false huntold)).1 h)
    · rw [htext] at h
      obtain h | ⟨_, h, -⟩ := h
      · obtain rfl := Except.error.inj h
        exact absurd (Bool.or_eq_true_iff.2 (.inr he)) huntold
      · cases h
  · rintro (⟨hpage, hbytes⟩ | ⟨hpage, hbytes, hfault⟩)
    · refine ⟨?_, Bool.false_ne_true⟩
      rw [State.newPage, hpage.readText_eq, hbytes]
      rfl
    · refine ⟨?_, hfault.not_told⟩
      rw [State.newPage, hpage.readText_eq, hbytes]
      exact (Page.revise_eq_error_iff (isReported_eq_false hfault.not_told)).2 hfault

/-- A page that is no file is not even read. -/
theorem newPage_failsOnly (hfile : u.isFile (s.deck.child c.settings.markupEntry) = false) :
    Outcome.FailsOnly Told (s.newPage c layout u) := by
  intro f hf
  by_contra huntold
  have hthere : u.isFile (s.deck.child c.settings.markupEntry) = true := by
    rcases newPage_untold_iff.1 ⟨hf, huntold⟩ with ⟨hpage, -⟩ | ⟨hpage, -, -⟩
    · exact Tree.isFile_iff.2 ⟨_, _, hpage⟩
    · exact Tree.isFile_iff.2 ⟨_, _, hpage⟩
  cases hfile.symm.trans hthere

/-- There is no new text of the page, and that is why the stage fails, or the stage fails with a
message, or it succeeds. -/
theorem revisePage_reports (hgroups : s.groups = some layout) (u : Tree) :
    (∃ f, s.newPage c layout u = .error f ∧ ending (s.revisePage c) u =
      (.error (if f.isReported || f.isSystem then .message f.message else .failure f), u)) ∨
    Outcome.FailsOnly Told (s.newPage c layout u) ∧
      ((∃ halt, Halt.IsMessage halt ∧ ending (s.revisePage c) u = (.error halt, u)) ∨
        ∃ s' v, s'.creation.isSome ∧ ending (s.revisePage c) u = (.ok s', v)) := by
  rw [State.revisePage, hgroups]
  dsimp only
  cases hfile : u.isFile (s.deck.child c.settings.markupEntry) with
  | false =>
    obtain ⟨f, hf, hopened⟩ := Deck.ending_openPage_of_not_isFile hfile s.deck.toText
    refine .inr ⟨newPage_failsOnly hfile, .inl ⟨.message f.message, ⟨_, rfl⟩, ?_⟩⟩
    refine (ending_reporting_error (Action.ending_bind_of_error hopened _)).trans ?_
    rw [if_pos hf]
  | true =>
    have hopened := Deck.ending_openPage_of_isFile hfile s.deck.toText
    rcases Deck.ending_revisePage_cases c.settings c.settings.configMarker ⟨s.title, s.slug.getD []⟩
      (s.deck.child c.settings.markupEntry) layout u
        with ⟨f, hf, hrevised⟩ | ⟨⟨text, htext⟩, hcases⟩
    · refine .inl ⟨f, hf, ending_reporting_error ?_⟩
      rw [Action.ending_bind_of_ok hopened]
      exact Action.ending_bind_of_error hrevised _
    · have hnew : s.newPage c layout u = .ok text := htext
      refine .inr ⟨hnew ▸ .ok text, ?_⟩
      rcases hcases with ⟨f, hf, hrevised⟩ | ⟨v, hrevised⟩
      · refine .inl ⟨_, ?_, ending_reporting_error (f := f) ?_⟩
        · rw [if_pos hf.told]
          exact ⟨_, rfl⟩
        · rw [Action.ending_bind_of_ok hopened]
          exact Action.ending_bind_of_error hrevised _
      · refine .inr ⟨_, v, ?_, ending_reporting_of_ok ((Action.ending_bind_of_ok hopened _).trans
          (Action.ending_bind_of_ok hrevised _))⟩
        rfl

/-- Once the deck is made, a run has no word for what its page is at fault for. -/
theorem afterDeck_eq_failure_iff (hgroups : s.groups = some layout) :
    (ending (Stage.runAll c Stage.afterDeck s) u).1 = .error (.failure f) ↔
      s.PageFault c layout u f := by
  have hafter : Stage.runAll c Stage.afterDeck s =
    s.revisePage c >>= fun s => s.announceDeck >>= fun s => pure s := rfl
  rw [hafter, ← newPage_untold_iff]
  rcases revisePage_reports (c := c) hgroups u with
    ⟨g, hg, hrevised⟩ | ⟨htold, ⟨halt, ⟨text, rfl⟩, hrevised⟩ | ⟨s', v, hcreation, hrevised⟩⟩
  · rw [Action.ending_bind_of_error hrevised, hg]
    constructor
    · intro h
      by_cases htold : Told g
      · rw [if_pos htold] at h
        cases h
      · rw [if_neg htold] at h
        cases h
        exact ⟨rfl, htold⟩
    · rintro ⟨h, huntold⟩
      obtain rfl := Except.error.inj h
      rw [if_neg huntold]
  · rw [Action.ending_bind_of_error hrevised]
    exact ⟨nofun, fun h => absurd (htold f h.1) h.2⟩
  · rw [Action.ending_bind_of_ok hrevised,
      Action.ending_bind_of_ok (ending_announceDeck hcreation v)]
    exact ⟨nofun, fun h => absurd (htold f h.1) h.2⟩

/-! ## Whole runs -/

/-- A run that makes a deck ends in a failure without a word for it exactly if the failure
escapes. -/
theorem making_eq_failure_iff (hmake : s.finalize = false) :
    (ending (Stage.runAll c Stage.making s) t).1 = .error (.failure f) ↔ Escapes c s t f := by
  have hsplit : ending (Stage.runAll c Stage.making s) t =
      ending (Stage.runAll c Stage.untilDeck s >>= Stage.runAll c Stage.afterDeck) t :=
    ending_runAll_append c Stage.untilDeck Stage.afterDeck s t
  rw [hsplit, Action.fst_ending_bind_eq_error]
  constructor
  · rintro (h | ⟨s', u, hmade, h⟩)
    · exact escapes_of_untilDeck hmake h
    · obtain ⟨layout, hgroups⟩ := exists_groups_of_untilDeck hmade
      exact .page hmake hmade hgroups ((afterDeck_eq_failure_iff hgroups).1 h)
  · intro h
    cases h with
    | deckPath hfinalize | pagePath hfinalize => cases hmake.symm.trans hfinalize
    | archivePath _ hlong =>
      refine .inl ((untilDeck_eq_failure_iff hmake).2 (.inl ?_))
      exact (checkSurroundings_eq_failure_iff hmake).2 (.inl ⟨hlong, rfl⟩)
    | slug _ harchive hnone hbytes =>
      refine .inl ((untilDeck_eq_failure_iff hmake).2 (.inl ?_))
      exact (checkSurroundings_eq_failure_iff hmake).2
        (.inr ⟨harchive, slugOr_eq_error_iff.2 ⟨hnone, hbytes, rfl⟩⟩)
    | numeral _ harchive hslug hslides htokens hpieces hbefore hmarker hplain hlong =>
      refine .inl ((untilDeck_eq_failure_iff hmake).2 (.inr ⟨harchive, _, hslug, .inl ?_⟩))
      exact readLayout_eq_failure_iff.2
        ⟨_, _, _, _, hslides, htokens, hpieces, hbefore, hmarker, hplain, hlong, rfl⟩
    | archive _ hslug hread harchive hfree hout hscratch hdamaged =>
      have hfile : t.isFile (s.archiveOr c.settings) = true := by
        obtain ⟨file, hfile, -⟩ := Option.bind_eq_some_iff.1 harchive
        rw [Tree.isFile, hfile]
        rfl
      refine .inl ((untilDeck_eq_failure_iff hmake).2 (.inr ⟨hfile, _, hslug, .inr ⟨_, hread, ?_⟩⟩))
      exact (makeDeck_eq_failure_iff rfl).2
        ⟨_, _, _, _, _, _, rfl, harchive, hfree, hout, hscratch, hdamaged⟩
    | page _ hmade hgroups hfault =>
      exact .inr ⟨_, _, hmade, (afterDeck_eq_failure_iff hgroups).2 hfault⟩

/-- So does a run that finalizes one. -/
theorem finalizing_escapes_iff (hfinalize : s.finalize = true) :
    (ending (Stage.runAll c Stage.finalizing s) t).1 = .error (.failure f) ↔ Escapes c s t f := by
  rw [finalizing_eq_failure_iff hfinalize]
  constructor
  · rintro ⟨slug, hslug, huntold, h⟩
    rcases (Deck.check_eq_error_iff huntold).1 h with ⟨hlong, rfl⟩ | ⟨hdirectory, hlong, rfl⟩
    · exact .deckPath hfinalize hslug hlong
    · exact .pagePath hfinalize hslug hdirectory rfl hlong
  · intro h
    cases h with
    | deckPath _ hslug hlong =>
        exact ⟨_, hslug, rfl, (Deck.check_eq_error_iff rfl).2 (.inl ⟨hlong, rfl⟩)⟩
    | pagePath _ hslug hdirectory hpage hlong =>
      subst hpage
      exact ⟨_, hslug, rfl, (Deck.check_eq_error_iff rfl).2 (.inr ⟨hdirectory, hlong, rfl⟩)⟩
    | archivePath hmake | slug hmake | numeral hmake | archive hmake | page hmake =>
      cases hmake.symm.trans hfinalize

end Run

namespace CommandLine

open Run (Context Escapes Exit Halt Stage State)

/-- What the stages of a run come to, as the program sees it. -/
def endedAs : Except Halt State → Except Failure (Except Exit State)
  | .ok s => .ok (.ok s)
  | .error halt => halt.exit.map .error

theorem result_runStages [Record.Nesting] (c : Context) (stages : List Stage) (s : State)
    (console : Console) : (Console.runStages c stages s console).1.result =
      endedAs (Stage.runAll c stages s console.tree).1.result := rfl

theorem endedAs_cases (result : Except Halt State) :
    (∃ s, endedAs result = .ok (.ok s)) ∨
      (∃ text, endedAs result =
        .ok (.error { code := 1, errors := "Error: ".toList ++ text ++ ['\n'] })) ∨
      ∃ f, endedAs result = .error f := by
  rcases result with (text | f) | s
  · exact .inr (.inl ⟨text, rfl⟩)
  · exact .inr (.inr ⟨f, rfl⟩)
  · exact .inl ⟨s, rfl⟩

theorem endedAs_eq_error_iff {result : Except Halt State} :
    endedAs result = .error f ↔ result = .error (.failure f) := by
  rcases result with (text | g) | s
  · exact ⟨nofun, nofun⟩
  · exact ⟨fun h => by cases h; rfl, fun h => by cases h; rfl⟩
  · exact ⟨nofun, nofun⟩

end CommandLine

end SlideDeck
