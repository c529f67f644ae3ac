import SlideDeck.Proofs.Action
import SlideDeck.Proofs.Deck.Finalized
import SlideDeck.Proofs.Tree.Location

/-!
# The part of each step

Each step of a finalization has its own part of the deck: the entries whose names in the deck's
directory are its own (`Deck.stepFor`), with what is below them (`Footprint`). No location is in the
parts of two steps (`Footprint.step_unique`).

In two trees that have the same in the part of a step, the step comes to the same and changes that
part alike, and it changes nothing else (`runStep_alongside`). That is shown operation by operation,
for two runs side by side (`Alongside`).
-/

namespace SlideDeck.Deck

open SlideDeck.Action (Alike Matches)
open StepAction (ask onTree report reportChange)

variable {d : Deck} {t u t₀ u₀ : Tree} {l m k : Location} {name : Text} {rest : List Text}
  {p q : Progress} {s : Step} {archive : Path} {α : Type}

/-! ## The part of a step -/

/-- The step that deals with what has a name in the deck's directory. -/
def stepFor (d : Deck) (name : Text) : Option Step :=
  if name = "assets".toList then some .assets
  else if name = "index.html".toList then some .links
  else if name ∈ d.settings.ephemeralArtifacts then some .artifacts
  else if name = "lib".toList ∨ stylesheetSuffix <:+ name then some .stylesheets
  else none

/-- A location is in the part of the deck at `l` that a step deals with. -/
def Footprint (d : Deck) (l : Location) (s : Step) (m : Location) : Prop :=
  ∃ name rest, m = l ++ name :: rest ∧ d.stepFor name = some s

theorem Footprint.of_stepFor (h : d.stepFor name = some s) (l : Location) (rest : List Text) :
    d.Footprint l s (l ++ name :: rest) := ⟨name, rest, rfl, h⟩

theorem Footprint.below (h : d.Footprint l s m) (hk : m <+: k) : d.Footprint l s k := by
  obtain ⟨name, rest, rfl, hname⟩ := h
  obtain ⟨more, rfl⟩ := hk
  exact ⟨name, rest ++ more, by rw [List.append_assoc, List.cons_append], hname⟩

/-- No two steps deal with one location. -/
theorem Footprint.step_unique {s' : Step} (h : d.Footprint l s m) (h' : d.Footprint l s' m) :
    s = s' := by
  obtain ⟨name, rest, rfl, hname⟩ := h
  obtain ⟨name', rest', heq, hname'⟩ := h'
  obtain ⟨rfl, -⟩ := List.cons.inj (List.append_cancel_left heq)
  rw [hname] at hname'
  exact Option.some.inj hname'

theorem Footprint.ne_nil (h : d.Footprint l s m) : m ≠ [] := by
  obtain ⟨name, rest, rfl, -⟩ := h
  simp

theorem stepFor_of_suffix (hs : d.settings = .defaults archive) (h : stylesheetSuffix <:+ name) :
    d.stepFor name = some .stylesheets := by
  have hne {other : Text} (ho : ¬stylesheetSuffix <:+ other) :
      name ≠ other := fun heq => ho (heq ▸ h)
  have hnot : name ∉ d.settings.ephemeralArtifacts := by
    rw [hs]
    show name ∉ ["screenshots".toList, "output.pdf".toList]
    simp only [List.mem_cons, List.not_mem_nil, or_false, not_or]
    exact ⟨hne (by decide), hne (by decide)⟩
  rw [stepFor, if_neg (hne (by decide)), if_neg (hne (by decide)), if_neg hnot, if_pos (.inr h)]

theorem stepFor_lib (hs : d.settings = .defaults archive) :
    d.stepFor "lib".toList = some .stylesheets := by
  have hartifacts :
      d.settings.ephemeralArtifacts = ["screenshots".toList, "output.pdf".toList] := by rw [hs]; rfl
  rw [stepFor, hartifacts]
  decide

theorem stepFor_of_artifact (hs : d.settings = .defaults archive)
    (h : name ∈ d.settings.ephemeralArtifacts) :
    d.stepFor name = some .artifacts := by
  have hne {other : Text} (ho : other ∉ d.settings.ephemeralArtifacts) :
      name ≠ other := fun heq => ho (heq ▸ h)
  rw [stepFor, if_neg (hne (not_mem_artifacts hs).1), if_neg (hne (not_mem_artifacts hs).2),
    if_pos h]

/-! ## Decks that stand -/

/-- The deck stands at `l` in a plain tree. -/
structure Standing (d : Deck) (l : Location) (t : Tree) : Prop where
  plain : t.Plain
  stands : d.StandsAt t l

namespace Standing

theorem leads (h : d.Standing l t) : t.Leads d.path l .directory := h.stands.leads h.plain

theorem directory (h : d.Standing l t) : t.get? l = some .directory := h.leads.get?_eq h.plain

theorem keeps (h : d.Standing l t) (hk : Keeps t u) :
    d.Standing l u := ⟨hk.plain, h.stands.keeps h.plain hk⟩

/-- A file may go. -/
theorem erase_file (h : d.Standing l t) {f : File} (hm : t.get? m = some (.file f)) :
    d.Standing l (t.erase m) := by
  refine h.keeps ⟨h.plain.erase (Tree.ne_nil_of_get?_ne (Tree.ne_directory_of_file hm)), rfl,
    fun k hk => ?_⟩
  rw [h.plain.get?_erase hm, if_neg, hk]
  rintro rfl
  rw [hm] at hk
  cases hk

/-- A build output may go. -/
theorem erase_output (h : d.Standing l t) (ha : name ∈ d.outputs) :
    d.Standing l (t.erase (l ++ [name])) := by
  have hplain : (t.erase (l ++ [name])).Plain := h.plain.erase (by simp)
  refine ⟨hplain, ?_⟩
  refine Tree.Leads.same (h.plain.eraseAll_concat l _) (hplain.eraseAll_concat l _) ?_ (fun k => ?_)
    h.stands
  · rw [Tree.base_eraseAll, Tree.base_eraseAll]
    rfl
  · have hroot := Tree.not_mem_map_concat l d.outputs
    rw [Tree.get?_eraseAll hroot, Tree.get?_eraseAll hroot, Tree.get?_erase t (by simp)]
    split
    · rfl
    · next hno => rw [if_neg fun hk => hno ⟨_, List.mem_map_of_mem ha, hk⟩]

end Standing

/-! ## Two trees side by side -/

/-- Two runs of a step side by side: they have come to the same so far and have the same in the part
of the step, and elsewhere the trees are as they were. So are the entries in the deck's directory of
which the paths are too long. -/
structure Alongside (d : Deck) (l : Location) (s : Step) (t₀ u₀ : Tree)
    (p q : Progress) : Prop where
  left : d.Standing l p.tree
  right : d.Standing l q.tree
  outcome : q.outcome = p.outcome
  agree : ∀ m, d.Footprint l s m → q.tree.get? m = p.tree.get? m
  left_kept : ∀ m, ¬d.Footprint l s m → p.tree.get? m = t₀.get? m
  right_kept : ∀ m, ¬d.Footprint l s m → q.tree.get? m = u₀.get? m
  long : ∀ name, (d.inRoot name).fits = false → u₀.get? (l ++ [name]) = t₀.get? (l ++ [name])
  left_long : ∀ name, (d.inRoot name).fits = false →
    p.tree.get? (l ++ [name]) = t₀.get? (l ++ [name])
  right_long : ∀ name, (d.inRoot name).fits = false →
    q.tree.get? (l ++ [name]) = u₀.get? (l ++ [name])

namespace Alongside

theorem start (ht : d.Standing l t) (hu : d.Standing l u)
    (h : ∀ m, d.Footprint l s m → u.get? m = t.get? m)
    (hlong : ∀ name, (d.inRoot name).fits = false → u.get? (l ++ [name]) = t.get? (l ++ [name]))
    (o : Outcome) :
    d.Alongside l s t u ⟨t, o⟩ ⟨u, o⟩ :=
  ⟨ht, hu, rfl, h, fun _ _ => rfl, fun _ _ => rfl, hlong, fun _ _ => rfl, fun _ _ => rfl⟩

variable (h : d.Alongside l s t₀ u₀ p q)

include h

/-- Both say the same. -/
theorem tell (f : Outcome → Outcome) :
    d.Alongside l s t₀ u₀ ⟨p.tree, f p.outcome⟩ ⟨q.tree, f q.outcome⟩ :=
  { h with outcome := congrArg f h.outcome }

/-- Both put the same into the part of the step, where there is no directory. -/
theorem put {e : Entry} (hname : d.stepFor name = some s) (hfits : (d.inRoot name).fits = true)
    (hne : p.tree.get? (l ++ name :: rest) ≠ some .directory)
    (hleft : (p.tree.put (l ++ name :: rest) e).Plain)
    (hright : (q.tree.put (l ++ name :: rest) e).Plain) :
    d.Alongside l s t₀ u₀ ⟨p.tree.put (l ++ name :: rest) e, p.outcome⟩
      ⟨q.tree.put (l ++ name :: rest) e, q.outcome⟩ := by
  have hm := Footprint.of_stepFor hname l rest
  have hother {other : Text} (hlong : (d.inRoot other).fits = false) :
      l ++ [other] ≠ l ++ name :: rest := by
    intro heq
    obtain ⟨rfl, -⟩ := List.cons.inj (List.append_cancel_left heq)
    rw [hfits] at hlong
    cases hlong
  generalize l ++ name :: rest = m at *
  have hne' : q.tree.get? m ≠ some .directory := by rwa [h.agree m hm]
  refine ⟨h.left.keeps (keeps_put hleft hne), h.right.keeps (keeps_put hright hne'), h.outcome,
    fun k hk => ?_,
    fun k hk => ?_, fun k hk => ?_, h.long, fun other hlong => ?_, fun other hlong => ?_⟩
  · show (q.tree.put m e).get? k = (p.tree.put m e).get? k
    rw [Tree.get?_put_of_ne hne, Tree.get?_put_of_ne hne', h.agree k hk]
  · show (p.tree.put m e).get? k = _
    rw [Tree.get?_put_of_ne hne, if_neg (by rintro rfl; exact hk hm), h.left_kept k hk]
  · show (q.tree.put m e).get? k = _
    rw [Tree.get?_put_of_ne hne', if_neg (by rintro rfl; exact hk hm), h.right_kept k hk]
  · show (p.tree.put m e).get? _ = _
    rw [Tree.get?_put_of_ne hne, if_neg (hother hlong), h.left_long other hlong]
  · show (q.tree.put m e).get? _ = _
    rw [Tree.get?_put_of_ne hne', if_neg (hother hlong), h.right_long other hlong]

/-- Both erase the same in the part of the step. -/
theorem erase (hname : d.stepFor name = some s) (hfits : (d.inRoot name).fits = true)
    (hleft : d.Standing l (p.tree.erase (l ++ name :: rest)))
    (hright : d.Standing l (q.tree.erase (l ++ name :: rest))) :
    d.Alongside l s t₀ u₀ ⟨p.tree.erase (l ++ name :: rest), p.outcome⟩
      ⟨q.tree.erase (l ++ name :: rest), q.outcome⟩ := by
  have hm := Footprint.of_stepFor hname l rest
  have hother {other : Text} (hlong : (d.inRoot other).fits = false) :
      ¬l ++ name :: rest <+: l ++ [other] := by
    rw [List.prefix_append_right_inj, List.cons_prefix_cons]
    rintro ⟨rfl, -⟩
    rw [hfits] at hlong
    cases hlong
  generalize l ++ name :: rest = m at *
  refine ⟨hleft, hright, h.outcome, fun k hk => ?_, fun k hk => ?_, fun k hk => ?_, h.long,
    fun other hlong => ?_,
    fun other hlong => ?_⟩
  · show (q.tree.erase m).get? k = (p.tree.erase m).get? k
    rw [Tree.get?_erase _ hm.ne_nil, Tree.get?_erase _ hm.ne_nil, h.agree k hk]
  · show (p.tree.erase m).get? k = _
    rw [Tree.get?_erase _ hm.ne_nil, if_neg (fun hmk => hk (hm.below hmk)), h.left_kept k hk]
  · show (q.tree.erase m).get? k = _
    rw [Tree.get?_erase _ hm.ne_nil, if_neg (fun hmk => hk (hm.below hmk)), h.right_kept k hk]
  · show (p.tree.erase m).get? _ = _
    rw [Tree.get?_erase _ hm.ne_nil, if_neg (hother hlong), h.left_long other hlong]
  · show (q.tree.erase m).get? _ = _
    rw [Tree.get?_erase _ hm.ne_nil, if_neg (hother hlong), h.right_long other hlong]

/-- A path into the part of the step leads to the same on both sides. -/
theorem locate_eq (hup : Path.up ∉ name :: rest) (hname : d.stepFor name = some s) (follow : Bool) :
    q.tree.locate follow (d.path.append ⟨[], name :: rest⟩) =
      p.tree.locate follow (d.path.append ⟨[], name :: rest⟩) := by
  refine h.left.leads.locate_congr h.left.plain h.right.plain h.right.leads hup fun k hlk hk => ?_
  obtain ⟨more, rfl⟩ := hlk
  cases more with
  | nil => rw [List.append_nil, h.left.directory, h.right.directory]
  | cons first more =>
    obtain ⟨rfl, -⟩ := List.cons_prefix_cons.1 ((List.prefix_append_right_inj l).1 hk)
    exact h.agree _ (.of_stepFor hname l more)

/-- Where a path into the part of the step leads is in that part. -/
theorem location_eq (hup : Path.up ∉ name :: rest) {follow : Bool} {place : Place}
    (hp : p.tree.locate follow (d.path.append ⟨[], name :: rest⟩) = .ok place) :
    place.location = l ++ name :: rest := by
  rw [Tree.Linkless.locate_location h.left.plain.linkless hp, Tree.location_append hup,
    h.left.leads.location_eq h.left.plain]

omit h in
/-- A path into the deck that leads somewhere goes by a name that is not too long. -/
theorem fits_of_locate (ht : t.Plain) {follow : Bool} {place : Place}
    (hp : t.locate follow (d.path.append ⟨[], name :: rest⟩) = .ok place) :
    (d.inRoot name).fits = true :=
  Path.fits_of_sublist (q := d.path.append ⟨[], name :: rest⟩) (List.Sublist.refl _)
    ((List.Sublist.refl d.path.parts).append ((List.nil_sublist rest).cons_cons name))
      (ht.fits_of_locate hp)

end Alongside

/-- An action comes to the same on both sides and keeps them side by side. -/
abbrev Local (d : Deck) (l : Location) (s : Step) (t₀ u₀ : Tree) (m : StepAction α) : Prop :=
  Matches (d.Alongside l s t₀ u₀) Eq (fun _ => False) m m

/-! ## The operations in a step -/

section Operations

theorem local_report (message : Text) : d.Local l s t₀ u₀ (report message) :=
  fun _ _ h => .inr ⟨.ok (), h.tell (·.saying [message])⟩

theorem local_reportChange : d.Local l s t₀ u₀ reportChange :=
  fun _ _ h => .inr ⟨.ok (), h.tell Outcome.changing⟩

theorem local_warn (text : Text) : d.Local l s t₀ u₀ (Action.warn text) :=
  fun _ _ h => .inr ⟨.ok (), h⟩

theorem local_look {f : Progress → α} (hf : ∀ p q, d.Alongside l s t₀ u₀ p q → f q = f p) :
    d.Local l s t₀ u₀ (Action.look f) := .look fun p q h => (hf p q h).symm

theorem local_find {f : Progress → Except Failure α}
    (hf : ∀ p q, d.Alongside l s t₀ u₀ p q → f q = f p) :
    d.Local l s t₀ u₀ (Action.find f) :=
  fun p q h => .inr ⟨Action.alike_eq_iff.2 (hf p q h).symm, h⟩

/-- A change of the tree is refused on both sides for the same reason, or made on both sides. -/
theorem local_change {f : Tree → Except Failure Tree} (hf : ∀ p q, d.Alongside l s t₀ u₀ p q →
      (∃ e, f p.tree = .error e ∧ f q.tree = .error e) ∨
      ∃ t u, f p.tree = .ok t ∧ f q.tree = .ok u ∧
        d.Alongside l s t₀ u₀ ⟨t, p.outcome⟩ ⟨u, q.outcome⟩) :
    d.Local l s t₀ u₀ (onTree (Action.change f)) := by
  intro p q h
  unfold StepAction.onTree
  rcases hf p q h with ⟨e, hp, hq⟩ | ⟨t, u, hp, hq, hafter⟩
  · rw [Action.change_of_error hp, Action.change_of_error hq]
    exact .inr ⟨.error rfl, h⟩
  · rw [Action.change_of_ok hp, Action.change_of_ok hq]
    exact .inr ⟨.ok (), hafter⟩

variable (hup : Path.up ∉ name :: rest) (hname : d.stepFor name = some s)

include hup hname

/-- A question of which the answer is up to where the path leads. -/
theorem local_ask {question : Tree → Path → Bool}
    (hq : ∀ {t u : Tree} {p : Path}, u.locate true p = t.locate true p →
      question u p = question t p) :
    d.Local l s t₀ u₀ (ask question (d.path.append ⟨[], name :: rest⟩)) := fun p q h => by
  refine .inr ⟨Action.alike_eq_iff.2 ?_, h⟩
  show p.tree.ask _ _ _ = q.tree.ask _ _ _
  have hlocate := h.locate_eq hup hname true
  rw [Tree.ask, Tree.ask, hlocate, hq hlocate]

theorem local_isDirectory :
    d.Local l s t₀ u₀ (ask Tree.isDirectory (d.path.append ⟨[], name :: rest⟩)) :=
  local_ask hup hname fun h => by simp only [Tree.isDirectory, Tree.entry?, Tree.entryAt, h]

theorem local_isFile : d.Local l s t₀ u₀ (ask Tree.isFile (d.path.append ⟨[], name :: rest⟩)) :=
  local_ask hup hname fun h => by simp only [Tree.isFile, Tree.file?, Tree.entry?, Tree.entryAt, h]

theorem local_contains : d.Local l s t₀ u₀ (ask Tree.contains (d.path.append ⟨[], name :: rest⟩)) :=
  local_ask hup hname fun h => by simp only [Tree.contains, Tree.entry?, Tree.entryAt, h]

theorem local_isLink :
    d.Local l s t₀ u₀
      (Action.find (·.tree.ask Tree.isLink false (d.path.append ⟨[], name :: rest⟩))) :=
  local_find fun _ _ h => by
    rw [Tree.ask, Tree.ask, Tree.isLink, Tree.isLink, Tree.entryAt, Tree.entryAt,
      h.locate_eq hup hname false]

theorem local_readText :
    d.Local l s t₀ u₀ (Action.find (·.tree.readText (d.path.append ⟨[], name :: rest⟩))) :=
  local_find fun _ _ h => by
    rw [Tree.readText, Tree.readText, Tree.read, Tree.read, Tree.entryAt, Tree.entryAt,
      h.locate_eq hup hname]

theorem local_modifyFile (g : List UInt8 → List UInt8) :
    d.Local l s t₀ u₀
      (onTree (Action.change (·.modifyFile (d.path.append ⟨[], name :: rest⟩) g))) := by
  refine local_change fun p q h => ?_
  have hq := h.locate_eq hup hname true
  unfold Tree.modifyFile
  rw [hq]
  cases hp : p.tree.locate true (d.path.append ⟨[], name :: rest⟩) with
  | error e => exact .inl ⟨_, rfl, rfl⟩
  | ok place =>
    have hplace := h.location_eq hup hp
    cases place with
    | absent k =>
      obtain rfl : k = l ++ name :: rest := hplace
      have hput {t : Tree} (ht : d.Standing l t)
          (hl : t.locate true (d.path.append ⟨[], name :: rest⟩) =
            .ok (.absent (l ++ name :: rest))) :
          (t.put (l ++ name :: rest) (.file ⟨g [], none⟩)).Plain := by
        have ha := Tree.Linkless.advance_eq_of_locate ht.plain.linkless hl
        rw [Tree.start_append] at ha
        replace ha : Tree.advance t true (t.start d.path) (d.path.parts ++ name :: rest) = _ := ha
        rw [Tree.advance_append (ht.leads.advance_eq ht.plain)] at ha
        exact ht.plain.put_absent ht.directory ha (Tree.file_ne_link _)
      have hfits := Alongside.fits_of_locate h.left.plain hp
      refine .inr ⟨_, _, rfl, rfl,
        h.put hname hfits ?_ (hput h.left hp) (hput h.right (hq.trans hp))⟩
      exact Tree.ne_directory_of_none (Tree.Linkless.get?_of_absent h.left.plain.linkless hp)
    | present k e =>
      obtain rfl : k = l ++ name :: rest := hplace
      have hget := Tree.Linkless.get?_of_locate h.left.plain.linkless hp
      cases e with
      | directory => exact .inl ⟨_, rfl, rfl⟩
      | link target => exact .inl ⟨_, rfl, rfl⟩
      | file f =>
        have hfoot := Footprint.of_stepFor hname l rest
        have hfits := Alongside.fits_of_locate h.left.plain hp
        refine .inr ⟨_, _, rfl, rfl, h.put hname hfits (Tree.ne_directory_of_file hget)
          (h.left.plain.put_file hget _) (h.right.plain.put_file ((h.agree _ hfoot).trans hget) _)⟩

theorem local_unlink :
    d.Local l s t₀ u₀ (onTree (Action.change (·.unlink (d.path.append ⟨[], name :: rest⟩)))) := by
  refine local_change fun p q h => ?_
  have hq := h.locate_eq hup hname false
  unfold Tree.unlink Tree.entryAt
  rw [hq, if_neg (by simp [h.left.plain.unlocked]), if_neg (by simp [h.right.plain.unlocked])]
  cases hp : p.tree.locate false (d.path.append ⟨[], name :: rest⟩) with
  | error e => exact .inl ⟨_, rfl, rfl⟩
  | ok place =>
    have hplace := h.location_eq hup hp
    cases place with
    | absent k => exact .inl ⟨_, rfl, rfl⟩
    | present k e =>
      obtain rfl : k = l ++ name :: rest := hplace
      have hget := Tree.Linkless.get?_of_locate h.left.plain.linkless hp
      have hfoot := Footprint.of_stepFor hname l rest
      cases e with
      | directory => exact .inl ⟨_, rfl, rfl⟩
      | link target => exact absurd hget (h.left.plain.linkless _ _)
      | file f =>
        exact .inr ⟨_, _, rfl, rfl,
          h.erase hname (Alongside.fits_of_locate h.left.plain hp) (h.left.erase_file hget)
          (h.right.erase_file ((h.agree _ hfoot).trans hget))⟩

end Operations

/-! ## The steps -/

section Steps

variable (hs : d.settings = .defaults archive)

include hs

theorem local_ensureAssets : d.Local l .assets t₀ u₀ d.ensureAssets := by
  have hup : Path.up ∉ ["assets".toList] := by decide
  have hname : d.stepFor "assets".toList = some .assets := if_pos rfl
  rw [ensureAssets, assets_eq hs]
  refine .bind (local_isDirectory hup hname) fun p _ there h hthere => ?_
  have hfits : (d.path.append ⟨[], ["assets".toList]⟩).fits = true :=
    h.left.leads.fits_of_ask h.left.plain hthere
  split
  · exact local_report _
  · refine .bind (fun p q h => .inr ?_) fun _ _ _ _ _ => .bind local_reportChange fun _ _ _ _ _ =>
      local_report _
    have hfoot := Footprint.of_stepFor hname l []
    have hagree := h.agree _ hfoot
    unfold onTree
    cases hget : p.tree.get? (l ++ ["assets".toList]) with
    | none =>
      rw [hget] at hagree
      rw [inRoot, TreeAction.makeDirectories_of_none h.left.plain h.left.leads (by decide)
        hfits hget,
        TreeAction.makeDirectories_of_none h.right.plain h.right.leads (by decide) hfits hagree]
      have hput {t : Tree} (ht : d.Standing l t) (hnone : t.get? (l ++ ["assets".toList]) = none) :
          (t.put (l ++ ["assets".toList]) .directory).Plain :=
        ht.plain.put (Tree.ne_directory_of_none hnone)
          (by rw [List.dropLast_concat]; exact ht.directory)
          Tree.directory_ne_link
      exact ⟨.ok (), h.put hname hfits (Tree.ne_directory_of_none hget) (hput h.left hget)
        (hput h.right hagree)⟩
    | some e =>
      rw [hget] at hagree
      have hleft := h.left.leads.append h.left.plain hup hfits hget
      have hright := h.right.leads.append h.right.plain hup hfits hagree
      cases e with
      | directory =>
        rw [inRoot, TreeAction.makeDirectories_of_directory h.left.plain hleft,
          TreeAction.makeDirectories_of_directory h.right.plain hright]
        exact ⟨.ok (), h⟩
      | link target => exact absurd hget (h.left.plain.linkless _ _)
      | file f =>
        rw [inRoot, TreeAction.makeDirectories_of_file h.left.plain hleft,
          TreeAction.makeDirectories_of_file h.right.plain hright]
        exact ⟨.error rfl, h⟩

theorem local_stripLinks : d.Local l .links t₀ u₀ d.stripLinks := by
  have hup : Path.up ∉ ["index.html".toList] := by decide
  have hname : d.stepFor "index.html".toList = some .links := by
    rw [stepFor, if_neg (by decide), if_pos rfl]
  rw [stripLinks, page_eq hs]
  refine .bind (local_readText hup hname) fun _ _ html _ _ => ?_
  dsimp only
  split
  · exact local_report _
  · exact .bind (local_modifyFile hup hname _) fun _ _ _ _ _ =>
      .bind local_reportChange fun _ _ _ _ _ => local_report _

theorem local_removeArtifact (ha : name ∈ d.outputs) :
    d.Local l .artifacts t₀ u₀ (d.removeArtifact name) := by
  obtain ⟨hartifact, hfits⟩ := mem_of_mem_outputs ha
  have hisName := isName_of_mem hs hartifact
  have hup : Path.up ∉ [name] := by simpa [eq_comm] using hisName.2
  have hname := stepFor_of_artifact hs hartifact
  rw [child_eq hisName] at hfits
  have hremove :
      d.Local l .artifacts t₀ u₀ (onTree (Action.change (·.removeAll (d.inRoot name)))) := by
    refine local_change fun p q h => ?_
    have hq := h.locate_eq hup hname false
    unfold Tree.removeAll Tree.entryAt
    rw [inRoot, hq, if_neg (by rw [h.left.plain.idle]; exact Bool.false_ne_true),
      if_neg (by rw [h.right.plain.idle]; exact Bool.false_ne_true)]
    cases hp : p.tree.locate false (d.path.append ⟨[], [name]⟩) with
    | error e => exact .inl ⟨_, rfl, rfl⟩
    | ok place =>
      have hplace := h.location_eq hup hp
      cases place with
      | absent k => exact .inl ⟨_, rfl, rfl⟩
      | present k e =>
        obtain rfl : k = l ++ [name] := hplace
        cases e with
        | directory =>
          exact .inr ⟨_, _, rfl, rfl,
            h.erase hname hfits (h.left.erase_output ha) (h.right.erase_output ha)⟩
        | link target => exact .inl ⟨_, rfl, rfl⟩
        | file f => exact .inl ⟨_, rfl, rfl⟩
  have hisLink :
      d.Local l .artifacts t₀ u₀ (Action.find (·.tree.ask Tree.isLink false (d.inRoot name))) :=
    local_isLink hup hname
  rw [removeArtifact, child_eq hisName]
  unfold andM orM
  refine .bind (.bind (local_isDirectory hup hname) fun _ _ there _ _ => ?_)
    fun _ _ isDirectory _ _ => ?_
  · cases there with
    | false => exact .pure false
    | true => exact .bind hisLink fun _ _ isLink _ _ => .pure !isLink
  split
  · exact .bind hremove fun _ _ _ _ _ => .bind (local_report _) fun _ _ _ _ _ => local_reportChange
  · refine .bind (.bind (local_contains hup hname) fun _ _ there _ _ => ?_) fun _ _ isThere _ _ =>
      ?_
    · cases there with
      | false => exact hisLink
      | true => exact .pure true
    split
    · exact .bind (local_unlink hup hname) fun _ _ _ _ _ => .bind (local_report _) fun _ _ _ _ _ =>
        local_reportChange
    · exact .pure ()

theorem local_removeArtifacts :
    d.Local l .artifacts t₀ u₀ (d.removeArtifacts d.settings.ephemeralArtifacts) := by
  rw [removeArtifacts]
  refine .bind (fun p q h => ?_) fun _ _ _ _ _ => ?_
  · rcases artifacts_fit_cases hs (h.left.leads.fits h.left.plain)
      with hfits | ⟨a, rest, hartifacts, hlong⟩
    · refine Matches.forM (fun a ha => local_removeArtifact hs ?_) p q h
      rwa [outputs_eq hfits]
    · -- Both fail at the first build output.
      have hfails (p : Progress) : (a :: rest).forM d.removeArtifact p =
          (⟨[], .error (.refused .nameTooLong (d.path.child a).toText)⟩, p) :=
        Action.bind_of_error (removeArtifact_of_not_fitsText hlong p.tree p.outcome) _
      rw [hartifacts, hfails, hfails]
      exact .inr ⟨.error rfl, h⟩
  · refine .bind (local_look fun p q h => by rw [h.outcome]) fun _ _ changed _ _ => ?_
    split
    · exact local_report _
    · exact .pure ()

/-- The same stylesheets are loose on both sides, or the same path is too long. -/
theorem looseStylesheets_congr (h : d.Alongside l .stylesheets t₀ u₀ p q) :
    d.looseStylesheets q.tree = d.looseStylesheets p.tree := by
  have hlong : d.overlong q.tree l = d.overlong p.tree l :=
    overlong_congr h.left.plain h.right.plain fun name hlong => by
      rw [h.right_long name hlong, h.long name hlong, h.left_long name hlong]
  rcases looseStylesheets_cases h.left.plain h.left.leads with
    ⟨hshort, names, hnames, hsorted, hnodup, hmem⟩ | ⟨name, rest, hleft, hfails⟩ <;>
    rcases looseStylesheets_cases h.right.plain h.right.leads with
      ⟨hshort', names', hnames', hsorted', hnodup', hmem'⟩ | ⟨name', rest', hright, hfails'⟩
  · have hloose (name : Text) : name ∈ names' ↔ name ∈ names := by
      rw [hmem, hmem', IsLoose, IsLoose]
      refine and_congr_right fun hsuffix => and_congr_right fun _ => ?_
      rw [h.agree _ (.of_stepFor (stepFor_of_suffix hs hsuffix) l [])]
    rw [hnames, hnames', Text.eq_of_sorted hsorted' hsorted hnodup' hnodup hloose]
  · rw [hlong, hshort] at hright
    cases hright
  · rw [← hlong, hshort'] at hleft
    cases hleft
  · rw [hlong, hleft] at hright
    cases hright
    rw [hfails, hfails']

theorem local_newBlocks (canonical : Text) {names : List Text}
    (hnames : ∀ name ∈ names, stylesheetSuffix <:+ name) :
    d.Local l .stylesheets t₀ u₀ (d.newBlocks canonical names) := by
  induction names with
  | nil => exact .pure []
  | cons name names ih =>
    obtain ⟨hname, hnames⟩ := List.forall_mem_cons.1 hnames
    rw [newBlocks]
    refine .bind (local_readText (not_mem_of_suffix hname) (stepFor_of_suffix hs hname))
      fun _ _ content _ _ => ?_
    dsimp only
    split
    · exact .bind (local_report _) fun _ _ _ _ _ => ih hnames
    · exact .bind (local_report _) fun _ _ _ _ _ => .bind (ih hnames) fun _ _ blocks _ _ => .pure _

theorem local_mergeStylesheets : d.Local l .stylesheets t₀ u₀ d.mergeStylesheets := by
  have hup : Path.up ∉ ["lib".toList, "offline-v2.css".toList] := by decide
  have hname := stepFor_lib hs
  rw [mergeStylesheets, stylesheet_eq hs]
  refine .bind (local_isFile hup hname) fun _ _ there _ _ => ?_
  split
  · exact .bind (local_warn _) fun _ _ _ _ _ => local_report _
  · refine .bind (local_find fun p q h => looseStylesheets_congr hs h) fun p _ loose h hloose => ?_
    have hsuffix (name : Text) (hmem : name ∈ loose) : stylesheetSuffix <:+ name := by
      rcases looseStylesheets_cases h.left.plain h.left.leads
        with ⟨-, names, hnames, -, -, hiff⟩ | ⟨_, _, -, hfails⟩
      · obtain rfl : names = loose := Except.ok.inj (hnames.symm.trans hloose)
        exact ((hiff name).1 hmem).1
      · cases hfails.symm.trans hloose
    split
    · exact local_report _
    · refine .bind (local_readText hup hname) fun _ _ canonical _ _ => ?_
      refine .bind (local_newBlocks hs canonical hsuffix) fun _ _ blocks _ _ => ?_
      have hremove : d.Local l .stylesheets t₀ u₀ (loose.forM fun name => do
          onTree (Action.change (·.unlink (d.path.append ⟨[], [name]⟩)))
          report ("Removed ".toList ++ name)) :=
        .forM fun name hmem => .bind
          (local_unlink (not_mem_of_suffix (hsuffix name hmem))
            (stepFor_of_suffix hs (hsuffix name hmem)))
          fun _ _ _ _ _ => local_report _
      have hrest := Matches.bind hremove fun _ _ _ _ _ => local_reportChange
      split
      · exact .bind (local_modifyFile hup hname _) fun _ _ _ _ _ =>
          .bind (local_report _) fun _ _ _ _ _ => hrest
      · exact hrest

theorem local_work (s : Step) : d.Local l s t₀ u₀ (d.work s) := by
  cases s with
  | assets => exact local_ensureAssets hs
  | stylesheets => exact local_mergeStylesheets hs
  | links => exact local_stripLinks hs
  | artifacts => exact local_removeArtifacts hs

/-- A step on trees that have the same in its part, and the same entries with paths that are too
long, comes to the same, with the same changes in its part and no others. -/
theorem runStep_alongside (ht : d.Standing l t) (hu : d.Standing l u)
    (h : ∀ m, d.Footprint l s m → u.get? m = t.get? m)
    (hlong : ∀ name, (d.inRoot name).fits = false → u.get? (l ++ [name]) = t.get? (l ++ [name])) :
    (d.runStep s u).1.result = (d.runStep s t).1.result ∧
      ∃ o o', d.Alongside l s t u ⟨(d.runStep s t).2, o⟩ ⟨(d.runStep s u).2, o'⟩ := by
  rcases local_work hs s _ _ (Alongside.start ht hu h hlong { step := s.name })
    with ⟨e, -, ⟨⟩⟩ | ⟨hresult, hafter⟩
  exact ⟨StepAction.result_run_congr (Action.alike_eq_iff.1 hresult).symm hafter.outcome, _, _,
    hafter⟩

end Steps

end SlideDeck.Deck
