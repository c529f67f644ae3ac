import SlideDeck.Proofs.Failing
import SlideDeck.Proofs.Tree.Move
import SlideDeck.Proofs.Tree.Normal
import SlideDeck.Tree.Unpack

/-!
# What unpacking an archive does

Unpacking an archive into a directory changes nothing outside of the directory and keeps the tree as
it should be, also if it fails on the way (`TreeAction.unpack_preserves`).

What comes to be in the directory is up to the archive alone: in two directories of two trees that
hold the same, unpacking comes to the same and leaves the same (`TreeAction.unpack_matches`). So it
can be read off from the archive unpacked into a tree in which there is nothing else
(`Member.unpacked`, `TreeAction.unpack_of_empty`).
-/

namespace SlideDeck

open SlideDeck.Action (Alike Matches Preserves)

variable {t t' u u' : Tree} {r r' x : Location} {q q' : Path} {e : Entry} {names : List Text}
  {members : List Member} {m : Member}

namespace Member

theorem up_not_mem_parts (m : Member) : Path.up ∉ m.parts := fun h => by
  have := (List.mem_filter.1 h).2
  simp at this

/-- The place of a member is its parts, seen from the directory. -/
theorem place_eq (dir : Path) (m : Member) : m.place dir = dir.normal.append ⟨[], m.parts⟩ :=
  dir.normal_append m.up_not_mem_parts

end Member

/-! ## Nothing happens outside of the directory -/

namespace Tree

/-- A path to a directory leads through directories only. -/
theorem Leads.anchored (h : t.Home) (hq : t.Leads q r .directory) : Anchored r t q := by
  intro n
  by_cases hn : n < q.parts.length
  · exact .inl ((h.leads_upTo hq hn).get?_eq h.toPlain)
  · have hall : q.upTo n = q := by
      rw [Path.upTo, List.take_of_length_le (by omega)]
    rw [hall, hq.location_eq h.toPlain]
    exact .inl (hq.get?_eq h.toPlain)

/-- The tree `u` is as it should be, and is `t` but for what is inside of `r`. -/
def Fills (r : Location) (t u : Tree) : Prop := Within r t u ∧ u.Home

end Tree

open SlideDeck.Tree (Fills Anchored)

theorem TreeAction.makeNewDirectory_fills (h : Anchored r t q) :
    Preserves (Fills r t) (makeNewDirectory q) :=
  makeNewDirectory_preserves fun _ _ _ hu hmake =>
    ⟨hu.1.makeDirectory h hmake, hu.2.makeDirectory hmake⟩

theorem Member.save_preserves {I : Tree → Prop} {place : Path}
    (h : ∀ bytes u v, I u → u.write place bytes = .ok v → I v) (m : Member) :
    Preserves I (m.save place) := by
  have hwrite : Preserves I (Action.change (·.write place m.bytes)) := .change (h m.bytes)
  unfold save
  split
  · exact hwrite
  · split
    · exact .bind hwrite fun _ _ _ _ => .throw _
    · exact .throw _

theorem Member.unpack_preserves (h : t.Home) {dir : Path} (hdir : t.Leads dir r .directory)
    (members : List Member) (m : Member) : Preserves (Fills r t) (m.unpack members dir) := by
  have hnormal := hdir.normal h.toPlain
  have hanchored : Anchored r t (m.place dir) := by
    rw [place_eq]
    have hr : r <+: t.location dir.normal := by
      simp only [hnormal.location_eq h.toPlain, List.prefix_refl]
    exact (hnormal.anchored h).append hr m.up_not_mem_parts
  have hplace : t.get? (t.location (m.place dir)) = some .directory ∨
      r.Inside (t.location (m.place dir)) := by
    have := hanchored (m.place dir).parts.length
    rwa [Path.upTo_length] at this
  have hmake (u v : Tree) (hu : Fills r t u) (hmake : u.makeDirectory (m.place dir) = .ok v) :
      Fills r t v := by
    rw [← Path.upTo_length (m.place dir)] at hmake
    exact ⟨hu.1.makeDirectory hanchored hmake, hu.2.makeDirectory hmake⟩
  have hparent : Anchored r t (m.place dir).parent := by
    obtain ⟨n, hn⟩ := (m.place dir).exists_upTo_parent (m.place dir).parts.length
    rw [Path.upTo_length] at hn
    rw [hn]
    exact hanchored.upTo n
  have hrest : Preserves (Fills r t) (do
      if m.isDirectory then
        if !(← Action.look (·.isDirectory (m.place dir))) then
          Action.change (·.makeDirectory (m.place dir))
      else (m.lastIn members).save (m.place dir) : TreeAction Unit) := by
    split
    · refine .bind (.look _) fun _ there _ _ => ?_
      split
      · exact .change hmake
      · exact .pure ()
    · exact save_preserves
        (fun _ _ _ hu hwrite => ⟨hu.1.modifyFile hplace hwrite, hu.2.modifyFile hwrite⟩) _
  rw [unpack]
  dsimp only
  refine .bind (.look _) fun _ there _ _ => ?_
  split
  · exact .bind (TreeAction.makeNewDirectory_fills hparent) fun _ _ _ _ => hrest
  · exact hrest

/-- Unpacking into a directory changes what is inside of it, and nothing else, however it ends. -/
theorem TreeAction.unpack_preserves (h : t.Home) {dir : Path} (hdir : t.Leads dir r .directory)
    (archive : Archive) :
    Preserves (Fills r t) (unpack archive dir) := by
  cases archive with
  | readable members => exact .forM fun m _ => m.unpack_preserves h hdir members
  | unreadable damage wording => exact .throw _

/-! ## Two directories side by side -/

/-- Two trees hold the same in the directories to which two paths lead. -/
structure Mirrors (q q' : Path) (r r' : Location) (t t' : Tree) : Prop where
  left : t.Home
  right : t'.Home
  leads : t.Leads q r .directory
  leads' : t'.Leads q' r' .directory
  agree : ∀ x, t'.get? (r' ++ x) = t.get? (r ++ x)
  /-- What is short enough seen from the first directory is so seen from the second. -/
  fitsText : ∀ {names}, (q.append ⟨[], names⟩).fitsText = true →
    (q'.append ⟨[], names⟩).fitsText = true

/-- Two refusals for the same reason, on paths of their own. -/
def SameRefusal (f f' : Failure) : Prop := ∃ e p p', f = .refused e p ∧ f' = .refused e p'

/-- Two paths lead to the same place, seen from two directories. -/
inductive SamePlace (r r' : Location) : Except TreeError Place → Except TreeError Place → Prop where
  | present (x : Location) (e : Entry) :
      SamePlace r r' (.ok (.present (r ++ x) e)) (.ok (.present (r' ++ x) e))
  | absent (x : Location) : SamePlace r r' (.ok (.absent (r ++ x))) (.ok (.absent (r' ++ x)))
  | error (e : TreeError) : SamePlace r r' (.error e) (.error e)

namespace Mirrors

variable (h : Mirrors q q' r r' t t')

include h

theorem samePlace (hup : Path.up ∉ names) (hfits : (q.append ⟨[], names⟩).fitsText = true)
    (follow : Bool) :
    SamePlace r r' (t.locate follow (q.append ⟨[], names⟩))
      (t'.locate follow (q'.append ⟨[], names⟩)) := by
  rw [h.left.locate_of_fitsText hfits, h.right.locate_of_fitsText (h.fitsText hfits),
    Tree.start_append, Tree.start_append]
  show SamePlace r r' ((Tree.advance t true (t.start q) (q.parts ++ names)).bind _)
    ((Tree.advance t' true (t'.start q') (q'.parts ++ names)).bind _)
  rw [Tree.advance_append (h.leads.advance_eq h.left.toPlain),
    Tree.advance_append (h.leads'.advance_eq h.right.toPlain)]
  suffices hwalk : ∀ x, SamePlace r r'
      ((Tree.advance t true (r ++ x) names).bind Stop.reached)
      ((Tree.advance t' true (r' ++ x) names).bind Stop.reached) by
    have := hwalk []
    rwa [List.append_nil, List.append_nil] at this
  clear hfits
  induction names with
  | nil =>
    intro x
    rw [Tree.advance, Tree.advance, h.agree x]
    cases t.get? (r ++ x) with
    | none => exact .error _
    | some e => exact .present x e
  | cons name rest ih =>
    intro x
    simp only [List.mem_cons, not_or] at hup
    cases hname : Path.fitsName name with
    | false =>
      rw [Tree.advance_of_not_fits (Ne.symm hup.1) hname,
        Tree.advance_of_not_fits (Ne.symm hup.1) hname]
      exact .error _
    | true =>
      rw [Tree.advance_cons t true _ (Ne.symm hup.1) hname,
        Tree.advance_cons t' true _ (Ne.symm hup.1) hname,
        List.append_assoc, List.append_assoc, h.agree (x ++ [name])]
      cases hget : t.get? (r ++ (x ++ [name])) with
      | none =>
        dsimp only
        split
        · exact .absent _
        · exact .error _
      | some e =>
        cases e with
        | directory => exact ih hup.2 (x ++ [name])
        | link target => exact absurd hget (h.left.linkless _ _)
        | file f =>
          dsimp only
          split
          · exact .present _ _
          · exact .error _

theorem entry?_eq (hup : Path.up ∉ names) (hfits : (q.append ⟨[], names⟩).fitsText = true) :
    t'.entry? (q'.append ⟨[], names⟩) = t.entry? (q.append ⟨[], names⟩) := by
  have hplace := h.samePlace hup hfits true
  unfold Tree.entry? Tree.entryAt
  generalize t.locate true _ = place, t'.locate true _ = place' at hplace ⊢
  cases hplace <;> rfl

/-- Both put the same where there is no directory. -/
theorem put (hx : t.get? (r ++ x) ≠ some .directory) (hleft : (t.put (r ++ x) e).Home)
    (hright : (t'.put (r' ++ x) e).Home) :
    Mirrors q q' r r' (t.put (r ++ x) e) (t'.put (r' ++ x) e) := by
  have hx' : t'.get? (r' ++ x) ≠ some .directory := by rwa [h.agree x]
  have hkeep {t : Tree} {m : Location} (hm : t.get? m ≠ some .directory) (k : Location)
      (hk : t.get? k = some .directory) :
      (t.put m e).get? k = some .directory := by
    rw [Tree.get?_put_of_ne hm, if_neg (by rintro rfl; exact hm hk), hk]
  refine ⟨hleft, hright, h.leads.mono_directory h.left.toPlain hleft.toPlain rfl (hkeep hx),
    h.leads'.mono_directory h.right.toPlain hright.toPlain rfl (hkeep hx'), fun y => ?_, h.fitsText⟩
  rw [Tree.get?_put_of_ne hx, Tree.get?_put_of_ne hx', h.agree y]
  simp only [List.append_cancel_left_eq]

theorem makeDirectory_cases (hup : Path.up ∉ names)
    (hfits : (q.append ⟨[], names⟩).fitsText = true) :
    (∃ u u', t.makeDirectory (q.append ⟨[], names⟩) = .ok u ∧
      t'.makeDirectory (q'.append ⟨[], names⟩) = .ok u' ∧
      Mirrors q q' r r' u u') ∨
    ∃ f f', t.makeDirectory (q.append ⟨[], names⟩) = .error f ∧
      t'.makeDirectory (q'.append ⟨[], names⟩) = .error f' ∧
      SameRefusal f f' := by
  have hplace := h.samePlace hup hfits false
  unfold Tree.makeDirectory
  generalize hp : t.locate false _ = place, hp' : t'.locate false _ = place' at hplace ⊢
  cases hplace with
  | present x e => exact .inr ⟨_, _, rfl, rfl, .exists, _, _, rfl, rfl⟩
  | error e => exact .inr ⟨_, _, rfl, rfl, e, _, _, rfl, rfl⟩
  | absent x =>
    refine .inl ⟨_, _, rfl, rfl, h.put ?_ (h.left.put_absent hp Tree.directory_ne_link)
      (h.right.put_absent hp' Tree.directory_ne_link)⟩
    exact Tree.ne_directory_of_none (Tree.Linkless.get?_of_absent h.left.linkless hp)

theorem write_cases (hup : Path.up ∉ names) (hfits : (q.append ⟨[], names⟩).fitsText = true)
    (bytes : List UInt8) :
    (∃ u u', t.write (q.append ⟨[], names⟩) bytes = .ok u ∧ t'.write (q'.append ⟨[], names⟩) bytes =
      .ok u' ∧
      Mirrors q q' r r' u u') ∨
    ∃ f f', t.write (q.append ⟨[], names⟩) bytes = .error f ∧
      t'.write (q'.append ⟨[], names⟩) bytes = .error f' ∧
      SameRefusal f f' := by
  have hplace := h.samePlace hup hfits true
  have hwrite :
      t.write (q.append ⟨[], names⟩) bytes = t.modifyFile (q.append ⟨[], names⟩) fun _ => bytes :=
    rfl
  have hwrite' :
      t'.write (q'.append ⟨[], names⟩) bytes = t'.modifyFile (q'.append ⟨[], names⟩) fun _ =>
        bytes := rfl
  have hleft (v : Tree) (hv : t.modifyFile (q.append ⟨[], names⟩) (fun _ => bytes) = .ok v) :=
    h.left.modifyFile hv
  have hright (v : Tree) (hv : t'.modifyFile (q'.append ⟨[], names⟩) (fun _ => bytes) = .ok v) :=
    h.right.modifyFile hv
  rw [hwrite, hwrite']
  unfold Tree.modifyFile at hleft hright ⊢
  generalize hp : t.locate true _ = place, hp' : t'.locate true _ = place' at hplace hleft hright ⊢
  cases hplace with
  | error e => exact .inr ⟨_, _, rfl, rfl, e, _, _, rfl, rfl⟩
  | absent x =>
    refine .inl ⟨_, _, rfl, rfl, h.put ?_ (hleft _ rfl) (hright _ rfl)⟩
    exact Tree.ne_directory_of_none (Tree.Linkless.get?_of_absent h.left.linkless hp)
  | present x e =>
    cases e with
    | directory => exact .inr ⟨_, _, rfl, rfl, .isDirectory, _, _, rfl, rfl⟩
    | link target => exact .inr ⟨_, _, rfl, rfl, .isDirectory, _, _, rfl, rfl⟩
    | file f =>
      refine .inl ⟨_, _, rfl, rfl, h.put ?_ (hleft _ rfl) (hright _ rfl)⟩
      exact Tree.ne_directory_of_file (Tree.Linkless.get?_of_locate h.left.linkless hp)

end Mirrors

/-- It is not that something is there already. -/
def NotTaken (f : Failure) : Prop := ∀ p, f ≠ .refused .exists p

/-- Two actions come to the same in two directories that hold the same, and leave the same in them,
unless the first one fails otherwise than by meeting what is there already. -/
abbrev MatchesIn {α : Type} (q q' : Path) (r r' : Location) (a a' : TreeAction α) : Prop :=
  Matches (Mirrors q q' r r') SameRefusal NotTaken a a'

/-- Wherever it starts from, an action fails, and not by meeting what is there already. -/
def Breaks {α : Type} (a : TreeAction α) : Prop := ∀ t, ∃ f, (a t).1.result = .error f ∧ NotTaken f

namespace Breaks

variable {α β : Type} {a : TreeAction α} {p : Path}

theorem matchesIn (h : Breaks a) (a' : TreeAction α) : MatchesIn q q' r r' a a' :=
  fun t _ _ => .inl (h t)

theorem bind (h : Breaks a) (f : α → TreeAction β) : Breaks (a >>= f) := fun t => by
  obtain ⟨e, hresult, he⟩ := h t
  refine ⟨e, ?_, he⟩
  rw [Action.bind_of_error (show a t = (⟨(a t).1.log, .error e⟩, (a t).2) by rw [← hresult])]

theorem after {f : α → TreeAction β} (ha : Action.FailsOnly NotTaken a) (hf : ∀ x, Breaks (f x)) :
    Breaks (a >>= f) := by
  intro t
  cases hresult : (a t).1.result with
  | error e =>
    refine ⟨e, ?_, ha t e hresult⟩
    rw [Action.bind_of_error (show a t = (⟨(a t).1.log, .error e⟩, (a t).2) by rw [← hresult])]
  | ok x =>
    obtain ⟨e, hx, he⟩ := hf x (a t).2
    refine ⟨e, ?_, he⟩
    rw [Action.bind_of_ok (show a t = (⟨(a t).1.log, .ok x⟩, (a t).2) by rw [← hresult])]
    exact hx

theorem makeDirectory (hp : p.fitsText = false) : Breaks (Action.change (·.makeDirectory p)) :=
  fun t =>
  ⟨.refused .nameTooLong p.toText, by
    rw [Action.change_of_error (e := .refused .nameTooLong p.toText)]
    rw [Tree.makeDirectory, Tree.locate_of_not_fitsText hp], nofun⟩

theorem write (hp : p.fitsText = false) (bytes : List UInt8) :
    Breaks (Action.change (·.write p bytes)) := fun t =>
  ⟨.refused .nameTooLong p.toText, by
    rw [Action.change_of_error (e := .refused .nameTooLong p.toText)]
    rw [Tree.write, Tree.modifyFile, Tree.locate_of_not_fitsText hp], nofun⟩

theorem throw {f : Failure} (hf : NotTaken f) : Breaks (throwThe Failure f : TreeAction α) :=
  fun _ => ⟨f, rfl, hf⟩

theorem damaged (damage : Damage) (wording : Text) :
    Breaks (throwThe Failure (.archiveDamaged damage wording) : TreeAction α) :=
  throw fun _ h => nomatch h

theorem makeFrom (hp : p.fitsText = false) (n : Nat) : Breaks (TreeAction.makeFrom n p) := by
  cases n with
  | zero => exact makeDirectory hp
  | succ n =>
    rw [TreeAction.makeFrom]
    refine .after (.look _) fun there => ?_
    split
    · have hparents : Action.FailsOnly (fun _ => True) (TreeAction.makeFrom n p.parent) :=
        fun _ _ _ => trivial
      refine .after (.rescue hparents fun e _ => ?_) fun _ => makeDirectory hp
      split
      · exact .pure ()
      · next he => exact .throw he
    · exact makeDirectory hp

theorem makeMissing (hp : p.fitsText = false) :
    Breaks (do if !(← Action.look (·.isDirectory p)) then Action.change (·.makeDirectory p) :
      TreeAction Unit) := by
  intro t
  rw [Action.bind_look, Tree.isDirectory_of_locate_error (Tree.locate_of_not_fitsText hp)]
  exact makeDirectory hp t

theorem save (hp : p.fitsText = false) (m : Member) : Breaks (m.save p) := by
  unfold Member.save
  split
  · exact write hp _
  · split
    · exact (write hp _).bind _
    · exact damaged _ _

end Breaks

theorem makeDirectory_matches (hup : Path.up ∉ names) :
    MatchesIn q q' r r' (Action.change (·.makeDirectory (q.append ⟨[], names⟩)))
      (Action.change (·.makeDirectory (q'.append ⟨[], names⟩))) := by
  cases hfits : (q.append ⟨[], names⟩).fitsText with
  | false => exact (Breaks.makeDirectory hfits).matchesIn _
  | true => exact .change fun _ _ h => .inr (h.makeDirectory_cases hup hfits)

theorem save_matches (hup : Path.up ∉ names) (m : Member) :
    MatchesIn q q' r r' (m.save (q.append ⟨[], names⟩)) (m.save (q'.append ⟨[], names⟩)) := by
  cases hfits : (q.append ⟨[], names⟩).fitsText with
  | false => exact (Breaks.save hfits m).matchesIn _
  | true =>
    have hwrite : MatchesIn q q' r r' (Action.change (·.write (q.append ⟨[], names⟩) m.bytes))
        (Action.change (·.write (q'.append ⟨[], names⟩) m.bytes)) :=
      .change fun _ _ h => .inr (h.write_cases hup hfits _)
    unfold Member.save
    split
    · exact hwrite
    · exact .optional hwrite fun _ => (Breaks.damaged _ _).matchesIn _

theorem Path.append_nil (q : Path) : q.append ⟨[], []⟩ = q := by
  rw [append, if_pos rfl, List.append_nil]

theorem Path.parent_append_concat (q : Path) (names : List Text) (name : Text) :
    (q.append ⟨[], names ++ [name]⟩).parent = q.append ⟨[], names⟩ := by
  show Path.mk q.root (q.parts ++ (names ++ [name])).dropLast = Path.mk q.root (q.parts ++ names)
  rw [← List.append_assoc, List.dropLast_concat]

/-- What stands before the last name of a path to a directory is there. -/
theorem Tree.Leads.contains_parent (h : t.Home) (hq : t.Leads q r .directory) :
    t.contains q.parent = true := by
  have hparent : q.parent = q.upTo (q.parts.length - 1) := by
    rw [Path.upTo, ← List.dropLast_eq_take]
    rfl
  rw [Tree.contains_iff, hparent]
  by_cases hn : q.parts.length - 1 < q.parts.length
  · exact ⟨_, _, h.leads_upTo hq hn⟩
  · have hall : q.upTo (q.parts.length - 1) = q := by
      rw [Path.upTo, List.take_of_length_le (by omega)]
    exact ⟨r, _, by rwa [hall]⟩

/-- A path that leads nowhere is not the path of the directory from which paths start. -/
theorem Tree.Home.ne_here (h : t.Home) (hq : t.contains q = false) : q ≠ .here := by
  rintro rfl
  have hleads : t.Leads .here t.base .directory := by
    refine h.leads_of_walk rfl ?_
    show Tree.advance t true t.base [] = _
    rw [Tree.advance, h.home]
  rw [Tree.contains_iff.2 ⟨_, _, hleads⟩] at hq
  cases hq

/-- Both make what is missing above, or neither does. -/
theorem missing_matches {p p' : Path} {a a' b b' : TreeAction Unit}
    (hsame : ∀ t t', Mirrors q q' r r' t t' → t'.contains p' = t.contains p)
    (ha : (∃ t t', Mirrors q q' r r' t t' ∧ t.contains p = false) → MatchesIn q q' r r' a a')
    (hb : MatchesIn q q' r r' b b') :
    MatchesIn q q' r r'
      (Action.look (·.contains p) >>= fun there => if p ≠ .here ∧
        (!there) = true then a >>= fun _ => b else b)
      (Action.look (·.contains p') >>= fun there => if p' ≠ .here ∧
        (!there) = true then a' >>= fun _ => b' else b') := by
  refine .bind (.look fun t t' h => (hsame t t' h).symm) fun t t' there h hthere => ?_
  obtain rfl : t.contains p = there := Except.ok.inj hthere
  cases hmissing : t.contains p with
  | true => rwa [if_neg (by simp), if_neg (by simp)]
  | false =>
    have hmissing' : t'.contains p' = false := by rw [hsame t t' h, hmissing]
    rw [if_pos ⟨h.left.ne_here hmissing, rfl⟩, if_pos ⟨h.right.ne_here hmissing', rfl⟩]
    exact .bind (ha ⟨t, t', h, hmissing⟩) fun _ _ _ _ _ => hb

/-- What is asked for above a place is the same seen from both directories. -/
theorem Mirrors.contains_eq (h : Mirrors q q' r r' t t') (hup : Path.up ∉ names)
    (hfits : (q.append ⟨[], names⟩).fitsText = true) :
    t'.contains (q'.append ⟨[], names⟩) = t.contains (q.append ⟨[], names⟩) := by
  rw [Tree.contains, Tree.contains, h.entry?_eq hup hfits]

/-- The directory itself is there. -/
theorem Mirrors.ne_nil_of_missing (h : Mirrors q q' r r' t t')
    (hmissing : t.contains (q.append ⟨[], names⟩) = false) : names ≠ [] := by
  rintro rfl
  rw [Path.append_nil, Tree.contains_iff.2 ⟨_, _, h.leads⟩] at hmissing
  cases hmissing

theorem makeFrom_matches {n n' : Nat} (hup : Path.up ∉ names) (hne : names ≠ [])
    (hn : names.length ≤ n) (hn' : names.length ≤ n') :
    MatchesIn q q' r r' (TreeAction.makeFrom n (q.append ⟨[], names⟩))
      (TreeAction.makeFrom n' (q'.append ⟨[], names⟩)) := by
  induction names using List.reverseRecOn generalizing n n' with
  | nil => exact absurd rfl hne
  | append_singleton init name ih =>
    cases hfits : (q.append ⟨[], init ++ [name]⟩).fitsText with
    | false => exact (Breaks.makeFrom hfits n).matchesIn _
    | true =>
      have hparent := Path.fitsText_parent hfits
      rw [List.length_append, List.length_singleton] at hn hn'
      obtain ⟨a, rfl⟩ : ∃ a, n = a + 1 := ⟨n - 1, by omega⟩
      obtain ⟨b, rfl⟩ : ∃ b, n' = b + 1 := ⟨n' - 1, by omega⟩
      have hinit : Path.up ∉ init := fun hmem => hup (List.mem_append_left _ hmem)
      rw [TreeAction.makeFrom, TreeAction.makeFrom, Path.parent_append_concat,
        Path.parent_append_concat]
      rw [Path.parent_append_concat] at hparent
      refine missing_matches (fun t t' h => h.contains_eq hinit hparent) ?_
        (makeDirectory_matches hup)
      rintro ⟨t, t', h, hmissing⟩
      refine .rescue (ih hinit (h.ne_nil_of_missing hmissing) (by omega) (by omega)) ?_ ?_
      · rintro f f' ⟨e, p, p', rfl, rfl⟩
        cases e with
        | «exists» => exact .pure ()
        | _ => exact .throw ⟨_, p, p', rfl, rfl⟩
      · intro f s hf
        refine ⟨f, ?_, hf⟩
        split
        · next p => exact absurd rfl (hf p)
        · rfl

theorem makeMissing_matches (hup : Path.up ∉ names) :
    MatchesIn q q' r r'
      (do
        if !(← Action.look (·.isDirectory (q.append ⟨[], names⟩))) then
          Action.change (·.makeDirectory (q.append ⟨[], names⟩)))
      (do
        if !(← Action.look (·.isDirectory (q'.append ⟨[], names⟩))) then
          Action.change (·.makeDirectory (q'.append ⟨[], names⟩))) := by
  cases hfits : (q.append ⟨[], names⟩).fitsText with
  | false => exact (Breaks.makeMissing hfits).matchesIn _
  | true =>
    refine .bind (.look fun t t' h => ?_) fun _ _ there _ _ => ?_
    · rw [Tree.isDirectory, Tree.isDirectory, h.entry?_eq hup hfits]
    · split
      · exact makeDirectory_matches hup
      · exact .pure ()

namespace Member

variable {dir dir' : Path} {m : Member}

/-- A member is not unpacked if the path above its place is too long. -/
theorem breaks_unpack (hfits : (m.place dir).parent.fitsText = false) (members : List Member) :
    Breaks (m.unpack members dir) := by
  intro t
  have hmissing : t.contains (m.place dir).parent = false :=
    Tree.contains_of_locate_error (Tree.locate_of_not_fitsText hfits)
  have hhere : (m.place dir).parent ≠ .here := by
    intro heq
    rw [heq] at hfits
    cases hfits
  rw [unpack, Action.bind_look, hmissing, if_pos ⟨hhere, rfl⟩]
  exact (Breaks.makeFrom hfits _).bind _ t

theorem unpack_matches (members : List Member) (m : Member) :
    MatchesIn dir.normal dir'.normal r r' (m.unpack members dir) (m.unpack members dir') := by
  have hup := m.up_not_mem_parts
  cases hfits : (m.place dir).parent.fitsText with
  | false => exact (breaks_unpack hfits members).matchesIn _
  | true =>
    rw [place_eq] at hfits
    rw [unpack, unpack, place_eq, place_eq]
    refine missing_matches ?_ ?_ ?_
    · intro t t' h
      rcases List.eq_nil_or_concat' m.parts with hparts | ⟨init, name, hparts⟩
      · -- The member's place is the directory itself.
        rw [hparts, Path.append_nil, Path.append_nil, h.leads.contains_parent h.left,
          h.leads'.contains_parent h.right]
      · rw [hparts] at hup hfits ⊢
        rw [Path.parent_append_concat] at hfits ⊢
        rw [Path.parent_append_concat]
        exact h.contains_eq (fun hmem => hup (List.mem_append_left _ hmem)) hfits
    · rintro ⟨t, t', h, hmissing⟩
      rcases List.eq_nil_or_concat' m.parts with hparts | ⟨init, name, hparts⟩
      · rw [hparts, Path.append_nil, h.leads.contains_parent h.left] at hmissing
        cases hmissing
      · rw [hparts] at hup hmissing ⊢
        rw [Path.parent_append_concat] at hmissing ⊢
        rw [Path.parent_append_concat]
        have hlength (q : Path) : init.length ≤ (q.append ⟨[], init⟩).parts.length := by
          show init.length ≤ (q.parts ++ init).length
          rw [List.length_append]
          omega
        exact makeFrom_matches (fun hmem => hup (List.mem_append_left _ hmem))
          (h.ne_nil_of_missing hmissing) (hlength _) (hlength _)
    · split
      · exact makeMissing_matches hup
      · exact save_matches hup _

end Member

namespace TreeAction

/-- Unpacking an archive into two directories that hold the same comes to the same, unless it fails
in the first one. -/
theorem unpack_matches {dir dir' : Path} (archive : Archive) :
    MatchesIn dir.normal dir'.normal r r' (unpack archive dir) (unpack archive dir') := by
  cases archive with
  | readable members => exact .forM fun m _ => m.unpack_matches members
  | unreadable damage wording => exact (Breaks.damaged _ _).matchesIn _

end TreeAction

/-! ## What an archive unpacks to -/

/-- The tree in which there is nothing. -/
def Tree.blank : Tree := { base := [], entries := [] }

/-- What the members of an archive come to when they are unpacked. -/
def Archive.unpacked (archive : Archive) : Tree := (TreeAction.unpack archive .here .blank).2

/-- Unpacking into an empty directory, if it does not fail, leaves in it what the archive unpacks
to. -/
theorem TreeAction.unpack_of_empty (h : t.Home) {dir : Path} (hdir : t.Leads dir r .directory)
    (hempty : ∀ x ≠ [], t.get? (r ++ x) = none) (archive : Archive)
    (hok : (unpack archive dir t).1.result = .ok ()) :
    (unpack archive .here .blank).1.result = .ok () ∧
      ∀ x, (unpack archive dir t).2.get? (r ++ x) = archive.unpacked.get? x := by
  have hblank : Tree.blank.Home := ⟨Tree.plain_of_isPlain (by decide), rfl⟩
  have hmirrors : Mirrors dir.normal Path.here.normal r [] t .blank := by
    refine ⟨h, hblank, hdir.normal h.toPlain, rfl, fun x => ?_,
      fun hfits => Path.fitsText_names hfits⟩
    by_cases hx : x = []
    · rw [hx, List.append_nil, List.append_nil, hdir.get?_eq h.toPlain]
      rfl
    · rw [hempty x hx]
      exact if_neg fun hpre => hx (List.prefix_nil.1 hpre)
  rcases unpack_matches archive _ _ hmirrors with ⟨f, hf, -⟩ | ⟨halike, hafter⟩
  · cases hok.symm.trans hf
  · refine ⟨?_, fun x => (hafter.agree x).symm⟩
    rw [hok] at halike
    generalize (unpack archive .here .blank).1.result = result at halike
    cases halike
    rfl

end SlideDeck
