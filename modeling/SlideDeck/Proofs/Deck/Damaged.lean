import SlideDeck.Deck.Template
import SlideDeck.Proofs.Deck.Failing
import SlideDeck.Proofs.Tree.Walk

/-!
# Damaged archives

An archive turns out to be damaged when it is unpacked: the list of its members cannot be read, or
one of them is met that cannot (`Archive.TurnsOut`, `TreeAction.unpack_eq_error_iff`). By then the
archive has been taken for one, there has been no deck, and the scratch directory has been made
(`Template.makeDeck_eq_error_iff`).
-/

namespace SlideDeck

open SlideDeck.Action (FailsOnly ending)

variable {u v : Tree} {dir : Path} {members : List Member} {m : Member} {damage : Damage}
  {wording : Text}

/-! ## Unpacking -/

theorem Refuses.ne_damaged {f : Failure} (h : Refuses f) : f ≠ .archiveDamaged damage wording := by
  rintro rfl
  cases h

theorem not_damaged_of_failsOnly {α : Type} {a : TreeAction α} (h : FailsOnly Refuses a) :
    (ending a u).1 ≠ .error (.archiveDamaged damage wording) :=
  fun herror => (h u _ herror).ne_damaged rfl

/-- What only the tree refuses succeeds before it turns out that an archive is damaged. -/
theorem fst_ending_bind_eq_damaged {α β : Type} {a : TreeAction α} {f : α → TreeAction β}
    (h : FailsOnly Refuses a) :
    (ending (a >>= f) u).1 = .error (.archiveDamaged damage wording) ↔
      ∃ x v, ending a u = (.ok x, v) ∧
        (ending (f x) v).1 = .error (.archiveDamaged damage wording) := by
  rw [Action.fst_ending_bind_eq_error, or_iff_right (not_damaged_of_failsOnly h)]

namespace Member

/-- Makes the directories that the place of a member is in. -/
def makeWay (dir : Path) (m : Member) : TreeAction Unit := do
  if (m.place dir).parent ≠ .here ∧ !(← Action.look (·.contains (m.place dir).parent)) then
    TreeAction.makeNewDirectory (m.place dir).parent

/-- Puts a member in its place. -/
def put (members : List Member) (dir : Path) (m : Member) : TreeAction Unit := do
  if m.isDirectory then
    if !(← Action.look (·.isDirectory (m.place dir))) then
      Action.change (·.makeDirectory (m.place dir))
  else (m.lastIn members).save (m.place dir)

theorem ending_unpack (members : List Member) (dir : Path) (m : Member) (u : Tree) :
    ending (m.unpack members dir) u = ending (m.makeWay dir >>= fun _ => m.put members dir) u := by
  rw [makeWay, Action.ending_bind_assoc, Action.ending_bind_of_ok (Action.ending_look _ u)]
  rw [unpack, Action.ending_bind_of_ok (Action.ending_look _ u)]
  dsimp only
  by_cases hmissing : (m.place dir).parent ≠ Path.here ∧ (!u.contains (m.place dir).parent) = true
  · rw [if_pos hmissing, if_pos hmissing]
    rfl
  · rw [if_neg hmissing, if_neg hmissing]
    rfl

theorem save_eq_error_iff {place : Path} :
    (ending (m.save place) u).1 = .error (.archiveDamaged damage wording) ↔
    ∃ fault, m.fault = some fault ∧ fault.damage = damage ∧ fault.wording = wording ∧
      (fault.late = true → ∃ w, u.write place m.bytes = .ok w) := by
  have hwrite := TreeAction.write_failsOnly place m.bytes
  have hthrown (fault : Fault) (v : Tree) :
      (ending (throwThe Failure (.archiveDamaged fault.damage fault.wording) : TreeAction Unit)
        v).1 =
          .error (.archiveDamaged damage wording) ↔ fault.damage = damage ∧
            fault.wording = wording := by
    rw [Action.ending_throw, Except.error.injEq, Failure.archiveDamaged.injEq]
  rw [save]
  cases hfault : m.fault with
  | none => exact iff_of_false (not_damaged_of_failsOnly hwrite) nofun
  | some fault =>
    dsimp only
    simp only [Option.some.injEq, exists_eq_left']
    cases hlate : fault.late with
    | false =>
      rw [if_neg Bool.false_ne_true, and_iff_left (fun h => nomatch h)]
      exact hthrown fault u
    | true =>
      rw [if_pos rfl, fst_ending_bind_eq_damaged hwrite, ← and_assoc]
      cases hwritten : u.write place m.bytes with
      | error e =>
        have hends : ending (Action.change fun t => t.write place m.bytes) u = (.error e, u) :=
          Action.ending_change_of_error hwritten
        simp [hends]
      | ok w =>
        have hends : ending (Action.change fun t => t.write place m.bytes) u = (.ok (), w) :=
          Action.ending_change_of_ok hwritten
        simp only [hends, Prod.mk.injEq, Except.ok.injEq, exists_eq', forall_const, and_true]
        constructor
        · rintro ⟨_, _, ⟨-, rfl⟩, h⟩
          exact (hthrown fault _).1 h
        · exact fun h => ⟨(), w, ⟨trivial, rfl⟩, (hthrown fault w).2 h⟩

/-- A member that is unpacked turns out to be damaged if it is no directory, there is a way to its
place, and its bytes cannot be read. If that shows only behind them, what there is of them has been
written. -/
theorem unpack_eq_error_iff :
    (ending (m.unpack members dir) u).1 = .error (.archiveDamaged damage wording) ↔
    m.isDirectory = false ∧ ∃ fault v, (m.lastIn members).fault = some fault ∧
      fault.damage = damage ∧
      fault.wording = wording ∧ ending (m.makeWay dir) u = (.ok (), v) ∧
      (fault.late = true → ∃ w, v.write (m.place dir) (m.lastIn members).bytes = .ok w) := by
  have hway : FailsOnly Refuses (m.makeWay dir) := by
    refine .bind (.look _) fun there => ?_
    split
    · exact TreeAction.makeNewDirectory_failsOnly _
    · exact .pure ()
  rw [ending_unpack, fst_ending_bind_eq_damaged hway]
  cases hdirectory : m.isDirectory with
  | true =>
    refine iff_of_false ?_ nofun
    rintro ⟨_, v, -, hput⟩
    rw [put, if_pos hdirectory] at hput
    refine not_damaged_of_failsOnly (.bind (.look _) fun there => ?_) hput
    split
    · exact TreeAction.makeDirectory_failsOnly _
    · exact .pure ()
  | false =>
    have hput (v : Tree) :
        ending (m.put members dir) v = ending ((m.lastIn members).save (m.place dir)) v := by
      rw [put, if_neg (by simp [hdirectory])]
    simp only [hput, true_and, save_eq_error_iff]
    constructor
    · rintro ⟨_, v, hv, fault, hfault, hdamage, hwording, hlate⟩
      exact ⟨fault, v, hfault, hdamage, hwording, hv, hlate⟩
    · rintro ⟨fault, v, hfault, hdamage, hwording, hv, hlate⟩
      exact ⟨(), v, hv, fault, hfault, hdamage, hwording, hlate⟩

end Member

/-- Unpacked into a directory of a tree, an archive turns out to be damaged: there is no list of its
members, or there is one that cannot be read behind others that can. -/
inductive Archive.TurnsOut (damage : Damage) (wording : Text) (dir : Path) (u : Tree) :
    Archive → Prop
  | unlisted : TurnsOut damage wording dir u (.unreadable damage wording)
  | member {members before after : List Member} {m : Member} {fault : Fault} {v w : Tree}
    (hmembers : members = before ++ m :: after)
    (hbefore : ending (before.forM (Member.unpack members dir) : TreeAction Unit) u = (.ok (), v))
    (hfile : m.isDirectory = false) (hfault : (m.lastIn members).fault = some fault)
    (hdamage : fault.damage = damage) (hwording : fault.wording = wording)
    (hway : ending (m.makeWay dir) v = (.ok (), w))
    (hlate : fault.late = true → ∃ x, w.write (m.place dir) (m.lastIn members).bytes = .ok x) :
    TurnsOut damage wording dir u (.readable members)

theorem TreeAction.unpack_eq_error_iff {archive : Archive} :
    (ending (unpack archive dir) u).1 = .error (.archiveDamaged damage wording) ↔
      archive.TurnsOut damage wording dir u := by
  cases archive with
  | unreadable damage' wording' =>
    constructor
    · intro h
      cases h
      exact .unlisted
    · rintro ⟨⟩
      rfl
  | readable members =>
    show (ending (members.forM (Member.unpack members dir)) u).1 = _ ↔ _
    simp only [Action.fst_ending_forM_eq_error, Member.unpack_eq_error_iff]
    constructor
    · rintro ⟨before, m, after, v, hmembers, hbefore, hfile, fault, w, hfault, hdamage, hwording,
        hway, hlate⟩
      exact .member hmembers hbefore hfile hfault hdamage hwording hway hlate
    · rintro (_ | ⟨hmembers, hbefore, hfile, hfault, hdamage, hwording, hway, hlate⟩)
      exact ⟨_, _, _, _, hmembers, hbefore, hfile, _, _, hfault, hdamage, hwording, hway, hlate⟩

/-! ## Making a deck -/

namespace Template

variable {t : Template} {s : Settings} {slug : Text} {out : Path} {suffixes : List Suffix}

theorem install_ne_damaged (deck scratch : Path) :
    (ending (t.install deck scratch) u).1 ≠ .error (.archiveDamaged damage wording) := fun h => by
  have htold := t.install_failsOnly deck scratch u _ h
  cases htold

/-- An archive is found where a file is that is taken for one. -/
theorem contents_eq_ok_iff {archive : Archive} :
    t.contents u = .ok archive ↔ (u.file? t.archive).bind (·.archive) = some archive := by
  rw [contents, Outcome.bind_eq_ok]
  constructor
  · rintro ⟨there, hask, h⟩
    cases there with
    | false => cases h
    | true =>
      rw [if_neg (by simp)] at h
      split at h
      · cases h
      · next harchive => rw [harchive, Except.ok.inj h]
  · intro h
    obtain ⟨file, hfile, -⟩ := Option.bind_eq_some_iff.1 h
    have hthere : u.isFile t.archive = true := by rw [Tree.isFile, hfile]; rfl
    refine ⟨true, by rw [Tree.ask_of_isFile hthere, hthere], ?_⟩
    rw [if_neg (by simp), h]
    rfl

/-- What is done in a scratch directory fails with something else than that the tree is at fault if
there is one in which it does. -/
theorem withScratch_eq_error_iff {body : Path → TreeAction Unit} {f : Failure} (hf : ¬Refuses f) :
    (ending (withScratch out suffixes body) u).1 = .error f ↔
      ∃ scratch v, ending (makeScratch out suffixes) u = (.ok scratch, v) ∧
        (ending (body scratch) v).1 = .error f := by
  have hcleanup (scratch : Path) (v : Tree) :
      ∃ w, ending (Action.rescue (Action.change (·.removeAll scratch)) fun e => do
      if e.isSystem then
        Action.warn ("Could not remove scratch directory ".toList ++ scratch.toText ++
          ": ".toList ++ e.message)
      else throw e) v = (.ok (), w) := by
    cases hremoved : v.removeAll scratch with
    | ok w => exact ⟨w, Action.ending_rescue_of_ok (Action.ending_change_of_ok hremoved) _⟩
    | error e =>
      refine ⟨v, (Action.ending_rescue_of_error (Action.ending_change_of_error hremoved) _).trans
        ?_⟩
      rw [if_pos (show e.isSystem = true from v.removeAll_failsOnly scratch e hremoved)]
      rfl
  have hscratch : (ending (makeScratch out suffixes) u).1 ≠ .error f := fun h =>
    hf (makeScratch_failsOnly out suffixes u f h)
  rw [withScratch, Action.fst_ending_bind_eq_error, or_iff_right hscratch]
  refine exists_congr fun scratch => exists_congr fun v => and_congr_right fun _ => ?_
  rw [Action.ending_bind_of_ok (Action.ending_note _ _ v)]
  obtain ⟨w, hw⟩ := hcleanup scratch (ending (body scratch) v).2
  rw [Action.ending_ensuring rfl hw]
  rfl

/-- The making of a deck fails because the archive is damaged exactly if the archive turns out to be
so in the scratch directory. -/
theorem makeDeck_eq_error_iff :
    (ending (t.makeDeck s suffixes slug out) u).1 = .error (.archiveDamaged damage wording) ↔
      ∃ archive v w scratch, (u.file? t.archive).bind (·.archive) = some archive ∧
        u.ask Tree.contains true (s.deckPath slug out) = .ok false ∧
        ending (TreeAction.makeDirectories true out) u = (.ok (), v) ∧
        ending (makeScratch out suffixes) v = (.ok scratch, w) ∧
          archive.TurnsOut damage wording scratch w := by
  have hbody (archive : Archive) (v : Tree) :
      (ending (withScratch out suffixes (fun scratch => do
          TreeAction.unpack archive scratch
          t.install (s.deckPath slug out) scratch) >>= fun _ => pure (s.deckPath slug out)) v).1 =
          .error (.archiveDamaged damage wording) ↔
        ∃ scratch w, ending (makeScratch out suffixes) v = (.ok scratch, w) ∧
          archive.TurnsOut damage wording scratch w := by
    have hreturns (x : Except Failure Unit × Tree) : ¬∃ a v, x = (.ok a, v) ∧
        (ending (pure (s.deckPath slug out) : TreeAction Path) v).1 =
          .error (.archiveDamaged damage wording) :=
      fun ⟨_, _, _, h⟩ => nomatch h
    rw [Action.fst_ending_bind_eq_error, or_iff_left (hreturns _),
      withScratch_eq_error_iff fun h => h.ne_damaged rfl]
    simp only [Action.fst_ending_bind_eq_error, TreeAction.unpack_eq_error_iff, install_ne_damaged,
      and_false, exists_false, or_false]
  have hcontents : t.contents u ≠ .error (.archiveDamaged damage wording) :=
    fun h => nomatch t.contents_failsOnly u _ h
  rw [makeDeck, Action.fst_ending_bind_eq_error, Action.ending_find, or_iff_right hcontents]
  constructor
  · rintro ⟨archive, _, hreads, h⟩
    obtain ⟨hread, rfl⟩ := Prod.mk.inj hreads
    obtain ⟨there, _, hasks, h⟩ := (fst_ending_bind_eq_damaged (TreeAction.ask_failsOnly _ _)).1 h
    rw [TreeAction.ask, Action.ending_find] at hasks
    obtain ⟨hask, rfl⟩ := Prod.mk.inj hasks
    cases there with
    | true => cases h
    | false =>
      obtain ⟨_, v, hmade, h⟩ :=
        (fst_ending_bind_eq_damaged (TreeAction.makeDirectories_failsOnly _ _)).1 h
      rw [Action.ending_bind_of_ok (Action.ending_note _ _ v)] at h
      obtain ⟨scratch, w, hscratch, hdamaged⟩ := (hbody archive v).1 h
      exact ⟨archive, v, w, scratch, contents_eq_ok_iff.1 hread, hask, hmade, hscratch, hdamaged⟩
  · rintro ⟨archive, v, w, scratch, hread, hask, hmade, hscratch, hdamaged⟩
    have hasked : ending (TreeAction.ask Tree.contains (s.deckPath slug out)) u =
        (.ok false, u) := by
      rw [TreeAction.ask, Action.ending_find, hask]
    refine ⟨archive, u, by rw [contents_eq_ok_iff.2 hread], ?_⟩
    rw [Action.ending_bind_of_ok hasked, if_neg Bool.false_ne_true, Action.ending_bind_of_ok hmade,
      Action.ending_bind_of_ok (Action.ending_note _ _ v)]
    exact (hbody archive v).2 ⟨scratch, w, hscratch, hdamaged⟩

end Template

end SlideDeck
