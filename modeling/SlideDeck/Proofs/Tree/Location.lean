import SlideDeck.Proofs.Tree.Length
import SlideDeck.Proofs.Tree.Walk

/-!
# Where paths lead

Where there are no links, the location that a path leads to can be read off the path
(`Linkless.locate_location`), whatever else is in the tree: a name leads downwards, and a step up
leads back. What is found there depends only on what the tree has on the way (`advance_congr`).

In a tree in which the directory that paths start from is there (`Home`), all that a path leads
through are directories (`Home.leads_upTo`). A path that leads to a free location has led to a
directory before its last name (`Home.absent_cases`), so a directory or a file that is put there
keeps the tree as it should be (`Home.put_absent`).
-/

namespace SlideDeck

/-- Where a name leads from a location. -/
def Location.toward (l : Location) (name : Text) : Location :=
  if name = Path.up then l.dropLast else l ++ [name]

/-- The location of a place. -/
def Place.location : Place → Location
  | .present l _ => l
  | .absent l => l

/-- A path as far as its first `n` names. -/
def Path.upTo (p : Path) (n : Nat) : Path := ⟨p.root, p.parts.take n⟩

theorem Path.upTo_length (p : Path) : p.upTo p.parts.length = p := by
  rw [upTo, List.take_length]

theorem Path.fitsText_upTo {p : Path} (h : p.fitsText = true) (n : Nat) :
    (p.upTo n).fitsText = true :=
  fitsText_of_sublist (q := p) (List.Sublist.refl _) (List.take_sublist n _) h

theorem Location.toward_of_ne {name : Text} (h : name ≠ Path.up) (l : Location) :
    l.toward name = l ++ [name] := if_neg h

theorem Location.foldl_toward_of_not_mem {names : List Text} (h : Path.up ∉ names) (l : Location) :
    names.foldl toward l = l ++ names := by
  induction names generalizing l with
  | nil => rw [List.foldl_nil, List.append_nil]
  | cons name rest ih =>
    simp only [List.mem_cons, not_or] at h
    rw [List.foldl_cons, toward_of_ne (Ne.symm h.1), ih h.2, List.append_assoc,
      List.singleton_append]

namespace Tree

variable {t u : Tree} {l k : Location} {name : Text} {names rest : List Text} {p : Path} {e : Entry}
  {follow : Bool} {place : Place}

/-- Where a path leads if there is no link on its way. -/
def location (t : Tree) (p : Path) : Location := p.parts.foldl Location.toward (t.start p)

/-- There are no links. -/
def Linkless (t : Tree) : Prop := ∀ l target, t.get? l ≠ some (.link target)

theorem start_congr (h : u.base = t.base) (p : Path) : u.start p = t.start p := by
  rw [start, start, h]

theorem location_congr (h : u.base = t.base) (p : Path) : u.location p = t.location p := by
  rw [location, location, start_congr h]

theorem location_append (hup : Path.up ∉ names) :
    t.location (p.append ⟨[], names⟩) = t.location p ++ names := by
  show (p.parts ++ names).foldl _ (t.start p) = _
  rw [List.foldl_append, Location.foldl_toward_of_not_mem hup]
  rfl

/-- A path that leads downwards leads through what is above its end. -/
theorem location_above (hup : Path.up ∉ p.parts) (t : Tree) (n : Nat) :
    t.location (p.upTo n) <+: t.location p := by
  have hn : Path.up ∉ (p.upTo n).parts := fun hmem => hup (List.mem_of_mem_take hmem)
  rw [location, location, Location.foldl_toward_of_not_mem hup, Location.foldl_toward_of_not_mem hn]
  exact (List.prefix_append_right_inj _).2 (List.take_prefix n p.parts)

/-! ## Walks without links -/

namespace Linkless

variable (h : t.Linkless)

include h

theorem advance_location {s : Stop} (ha : advance t follow l names = .ok s) :
    ∃ place, s = .place place ∧ place.location = names.foldl Location.toward l := by
  induction names generalizing l with
  | nil =>
    rw [advance] at ha
    split at ha <;> cases ha
    exact ⟨_, rfl, rfl⟩
  | cons name rest ih =>
    rw [List.foldl_cons]
    by_cases hup : name = Path.up
    · subst hup
      rw [advance_up] at ha
      exact ih ha
    · rw [Location.toward_of_ne hup]
      have hname := fitsName_of_advance hup ha
      rw [advance_cons t follow l hup hname] at ha
      split at ha
      · split at ha <;> cases ha
        next hr => exact ⟨_, rfl, by rw [hr]; rfl⟩
      · exact ih ha
      · next target he => exact absurd he (h _ _)
      · split at ha <;> cases ha
        next hr => exact ⟨_, rfl, by rw [hr]; rfl⟩

theorem advance_eq_of_locate (hp : t.locate follow p = .ok place) :
    advance t follow (t.start p) p.parts = .ok (.place place) := by
  rw [locate, if_neg (by simp [fitsText_of_locate hp]), walk] at hp
  obtain ⟨s, hs, hplace⟩ := Outcome.bind_eq_ok.1 hp
  obtain ⟨place', rfl, -⟩ := h.advance_location hs
  cases hplace
  exact hs

theorem locate_location (hp : t.locate follow p = .ok place) : place.location = t.location p := by
  obtain ⟨place', heq, hlocation⟩ := h.advance_location (h.advance_eq_of_locate hp)
  cases heq
  exact hlocation

theorem get?_of_locate (hp : t.locate follow p = .ok (.present l e)) : t.get? l = some e :=
  get?_of_advance (h.advance_eq_of_locate hp)

end Linkless

theorem Leads.location_eq (h : t.Plain) (hp : t.Leads p l e) : t.location p = l :=
  (Linkless.locate_location h.linkless hp).symm

/-- A walk ends at a free location only where there is nothing. -/
theorem get?_of_advance_absent (ha : advance t follow l names = .ok (.place (.absent k))) :
    t.get? k = none := by
  induction names generalizing l with
  | nil =>
    rw [advance] at ha
    split at ha <;> cases ha
  | cons name rest ih =>
    by_cases hup : name = Path.up
    · subst hup
      rw [advance_up] at ha
      exact ih ha
    · have hname := fitsName_of_advance hup ha
      rw [advance_cons t follow l hup hname] at ha
      split at ha
      · next hn =>
        split at ha <;> cases ha
        exact hn
      · exact ih ha
      · split at ha <;> cases ha
      · split at ha <;> cases ha

theorem Linkless.get?_of_absent (h : t.Linkless) (hp : t.locate follow p = .ok (.absent k)) :
    t.get? k = none :=
  get?_of_advance_absent (h.advance_eq_of_locate hp)

/-- A walk depends on what the tree has on the way and at the end. -/
theorem advance_congr (h : ∀ n, u.get? ((names.take n).foldl Location.toward l) =
    t.get? ((names.take n).foldl Location.toward l)) :
    advance u follow l names = advance t follow l names := by
  induction names generalizing l with
  | nil => rw [advance, advance, show u.get? l = t.get? l from h 0]
  | cons name rest ih =>
    have hrest := ih fun n => h (n + 1)
    by_cases hup : name = Path.up
    · subst hup
      rw [Location.toward, if_pos rfl] at hrest
      rw [advance_up, advance_up, hrest]
    · rw [Location.toward_of_ne hup] at hrest
      have hnext : u.get? (l ++ [name]) = t.get? (l ++ [name]) := by
        have := h 1
        rwa [List.take_succ_cons, List.take_zero, List.foldl_cons, List.foldl_nil,
          Location.toward_of_ne hup] at this
      cases hname : Path.fitsName name with
      | false => rw [advance_of_not_fits hup hname, advance_of_not_fits hup hname]
      | true => rw [advance_cons u follow l hup hname, advance_cons t follow l hup hname, hnext,
          hrest]

/-- A path leads to the same place in a tree that holds the same entries. -/
theorem Plain.locate_same (ht : t.Plain) (hu : u.Plain) (hb : u.base = t.base) (hs : t.Same u) :
    u.locate follow p = t.locate follow p := by
  cases hfits : p.fitsText with
  | false => rw [locate_of_not_fitsText hfits, locate_of_not_fitsText hfits]
  | true =>
    rw [hu.locate_of_fitsText hfits, ht.locate_of_fitsText hfits, start_congr hb,
      advance_congr fun n => hs _]

/-- A walk downwards depends on what the tree has from its start to its end. -/
theorem advance_congr_down (hup : Path.up ∉ names)
    (h : ∀ k, l <+: k → k <+: l ++ names → u.get? k = t.get? k) :
    advance u follow l names = advance t follow l names := by
  refine advance_congr fun n => ?_
  rw [Location.foldl_toward_of_not_mem fun hmem => hup (List.mem_of_mem_take hmem)]
  exact h _ (List.prefix_append l _) ((List.prefix_append_right_inj l).2 (List.take_prefix n names))

/-- A path leads to the same directory in a tree that has the same on the way and at the end. -/
theorem Leads.congr (ht : t.Plain) (hu : u.Plain) (hb : u.base = t.base) (hp : t.Leads p l e)
    (h : ∀ n, u.get? (t.location (p.upTo n)) = t.get? (t.location (p.upTo n))) : u.Leads p l e := by
  refine hu.leads_of_walk (Path.fitsText_of_fits (hp.fits ht)) ?_
  rw [start_congr hb, advance_congr h]
  exact hp.advance_eq ht

/-- A path leads to a directory in every tree that keeps the directories. -/
theorem Leads.locate_mono (ht : t.Plain) (hp : t.Leads p l .directory) (hb : u.base = t.base)
    (hd : ∀ m, t.get? m = some .directory → u.get? m = some .directory) (follow : Bool) :
    u.locate follow p = .ok (.present l .directory) := by
  have ha : advance u follow (u.start p) p.parts = .ok (.place (.present l .directory)) := by
    refine advance_mono hd (hd l (hp.get?_eq ht)) directory_ne_link Iff.rfl ?_
    rw [ht.advance_follow, start_congr hb]
    exact hp.advance_eq ht
  rw [locate, if_neg (by simp [Path.fitsText_of_fits (hp.fits ht)]), walk, ← start, ha]
  rfl

/-- The path of what is below a directory leads to the same in a tree that has the same there. -/
theorem Leads.locate_congr (ht : t.Plain) (hu : u.Plain) (hp : t.Leads p l .directory)
    (hq : u.Leads p l .directory) (hup : Path.up ∉ names)
    (h : ∀ k, l <+: k → k <+: l ++ names → u.get? k = t.get? k) :
    u.locate follow (p.append ⟨[], names⟩) = t.locate follow (p.append ⟨[], names⟩) := by
  cases hfits : (p.append ⟨[], names⟩).fitsText with
  | false => rw [locate_of_not_fitsText hfits, locate_of_not_fitsText hfits]
  | true =>
    rw [hu.locate_of_fitsText hfits, ht.locate_of_fitsText hfits, start_append, start_append]
    show (advance u true (u.start p) (p.parts ++ names)).bind _ =
        (advance t true (t.start p) (p.parts ++ names)).bind _
    rw [advance_append (hq.advance_eq hu), advance_append (hp.advance_eq ht),
      advance_congr_down hup h]

/-! ## The directories on the way -/

/-- A walk that leads to a directory in each of two trees leads there in every tree that has the
directories of both. -/
theorem advance_of_both {v : Tree} {k' : Location}
    (hv : ∀ m, t.get? m = some .directory → u.get? m = some .directory →
      v.get? m = some .directory)
    (ht : advance t true l names = .ok (.place (.present k .directory)))
    (hu : advance u true l names = .ok (.place (.present k' .directory))) :
    advance v true l names = .ok (.place (.present k .directory)) := by
  induction names generalizing l with
  | nil =>
    have hk := get?_of_advance ht
    have hk' := get?_of_advance hu
    rw [advance] at ht hu ⊢
    split at ht <;> cases ht
    split at hu <;> cases hu
    rw [hv _ hk hk']
  | cons name rest ih =>
    by_cases hup : name = Path.up
    · subst hup
      rw [advance_up] at ht hu ⊢
      exact ih ht hu
    · have hname := fitsName_of_advance hup ht
      rw [advance_cons t true l hup hname] at ht
      rw [advance_cons u true l hup hname] at hu
      split at ht
      · split at ht <;> cases ht
      · next hd =>
        split at hu
        · split at hu <;> cases hu
        · next hd' =>
          rw [advance_cons v true l hup hname, hv _ hd hd']
          exact ih ht hu
        · split at hu <;> cases hu
        · split at hu <;> cases hu
      · split at ht <;> cases ht
      · split at ht <;> cases ht

theorem Leads.of_both {v : Tree} {k' : Location} (ht : t.Plain) (hu : u.Plain) (hv : v.Plain)
    (htv : v.base = t.base) (hut : u.base = t.base) (hp : t.Leads p k .directory)
    (hq : u.Leads p k' .directory)
    (hboth : ∀ m, t.get? m = some .directory → u.get? m = some .directory →
      v.get? m = some .directory) :
    v.Leads p k .directory := by
  refine hv.leads_of_walk (Path.fitsText_of_fits (hp.fits ht)) ?_
  have hwalk := hq.advance_eq hu
  rw [start_congr hut] at hwalk
  rw [start_congr htv]
  exact advance_of_both hboth (hp.advance_eq ht) hwalk

namespace Plain

/-- A path that leads to an entry by its last name leads to a directory before that. -/
theorem leads_parent (h : t.Plain) (hup : name ≠ Path.up)
    (hp : t.Leads (p.append ⟨[], [name]⟩) k e) :
    ∃ m, t.Leads p m .directory := by
  suffices hwalk : ∀ names s, advance t true s (names ++ [name]) = .ok (.place (.present k e)) →
      ∃ m, advance t true s names = .ok (.place (.present m .directory)) by
    obtain ⟨m, hm⟩ := hwalk p.parts (t.start p) (hp.advance_eq h)
    have hparent : (p.append ⟨[], [name]⟩).parent = p := by
      show Path.mk p.root (p.parts ++ [name]).dropLast = p
      rw [List.dropLast_concat]
    exact ⟨m, h.leads_of_walk (Path.fitsText_of_fits (hparent ▸ Path.fits_parent (hp.fits h))) hm⟩
  intro names s ha
  induction names generalizing s with
  | nil =>
    have hsome : (t.get? (s ++ [name])).isSome := by
      rw [List.nil_append, advance_cons t true s hup (fitsName_of_advance hup ha)] at ha
      split at ha
      · split at ha <;> cases ha
      all_goals next he => rw [he]; rfl
    exact ⟨s, by rw [advance, h.above hsome]⟩
  | cons first rest ih =>
    rw [List.cons_append] at ha
    by_cases hfirst : first = Path.up
    · subst hfirst
      rw [advance_up] at ha ⊢
      exact ih _ ha
    · have hne : rest ++ [name] ≠ [] := by simp
      have hname := fitsName_of_advance hfirst ha
      rw [advance_cons t true s hfirst hname] at ha ⊢
      split at ha
      · split at ha <;> cases ha
      · next hd => exact ih _ ha
      · next target he => exact absurd he (h.linkless _ _)
      · rw [if_neg hne] at ha
        cases ha

variable (h : t.Plain)

include h

/-- A walk from a directory has come to a directory wherever it goes on. -/
theorem advance_directory (hl : t.get? l = some .directory) (hrest : rest ≠ [])
    (ha : advance t true l (names ++ rest) = .ok (.place place)) :
    ∃ m, advance t true l names = .ok (.place (.present m .directory)) := by
  induction names generalizing l with
  | nil => exact ⟨l, by rw [advance, hl]⟩
  | cons name names ih =>
    rw [List.cons_append] at ha
    by_cases hup : name = Path.up
    · subst hup
      rw [advance_up] at ha ⊢
      refine ih ?_ ha
      by_cases hn : l = []
      · rw [hn]
        exact t.get?_root
      · exact h.parent hn (by rw [hl]; rfl)
    · have hne : names ++ rest ≠ [] := by simp [hrest]
      have hname := fitsName_of_advance hup ha
      rw [advance_cons t true l hup hname] at ha ⊢
      split at ha
      · rw [if_neg hne] at ha
        cases ha
      · next hd => exact ih hd ha
      · next target he => exact absurd he (h.linkless _ _)
      · rw [if_neg hne] at ha
        cases ha

/-- A walk from a directory that ends at a free location has come to a directory before its last
name. -/
theorem advance_absent_cases (hl : t.get? l = some .directory)
    (ha : advance t true l names = .ok (.place (.absent k))) :
    ∃ init name m, names = init ++ [name] ∧ name ≠ Path.up ∧
      advance t true l init = .ok (.place (.present m .directory)) ∧ k = m ++ [name] ∧
        t.get? k = none := by
  have hnone := get?_of_advance_absent ha
  have hne : names ≠ [] := fun hempty => by
    rw [hempty, advance, hl] at ha
    cases ha
  have hnames : names = names.dropLast ++ [names.getLast hne] :=
    (List.dropLast_concat_getLast hne).symm
  rw [hnames] at ha
  obtain ⟨m, hm⟩ := h.advance_directory hl (List.cons_ne_nil _ _) ha
  rw [advance_append hm] at ha
  by_cases hup : names.getLast hne = Path.up
  · -- A step up leads to what is there.
    rw [hup, advance_up, advance] at ha
    split at ha <;> cases ha
  · refine ⟨_, _, m, hnames, hup, hm, ?_, hnone⟩
    have hname := fitsName_of_advance hup ha
    rw [advance_cons t true m hup hname] at ha
    split at ha
    · cases ha
      rfl
    · rw [advance] at ha
      split at ha <;> cases ha
    · split at ha <;> cases ha
    · rw [if_pos rfl] at ha
      cases ha

/-- What is put at the free end of a walk from a directory is in a directory. -/
theorem put_absent (hl : t.get? l = some .directory)
    (ha : advance t true l names = .ok (.place (.absent k))) (he : ∀ target, e ≠ .link target) :
    (t.put k e).Plain := by
  obtain ⟨init, name, m, -, -, hm, rfl, hnone⟩ := h.advance_absent_cases hl ha
  exact h.put (ne_directory_of_none hnone) (by rw [List.dropLast_concat]; exact get?_of_advance hm)
    he

end Plain

/-! ## Trees with a directory to start from -/

/-- A plain tree in which the directory is there in which relative paths start. -/
structure Home (t : Tree) : Prop extends t.Plain where
  home : t.get? t.base = some .directory

namespace Home

variable (h : t.Home)

include h

theorem start_directory (p : Path) : t.get? (t.start p) = some .directory := by
  rw [start]
  split
  · exact h.home
  · exact t.get?_root

/-- A path without steps up leads to what stands at its location, unless it is too long. -/
theorem leads_location (hup : Path.up ∉ p.parts) (hfits : p.fits = true)
    (he : t.get? (t.location p) = some e) :
    t.Leads p (t.location p) e := by
  refine h.toPlain.leads_of_walk (Path.fitsText_of_fits hfits) ?_
  rw [h.toPlain.advance_down (h.start_directory p) hup (Path.fitsName_of_fits hfits)]
  exact ⟨Location.foldl_toward_of_not_mem hup _, he⟩

/-- All that a path leads through are directories. -/
theorem leads_upTo (hp : t.locate true p = .ok place) {n : Nat} (hn : n < p.parts.length) :
    t.Leads (p.upTo n) (t.location (p.upTo n)) .directory := by
  have ha := Linkless.advance_eq_of_locate h.linkless hp
  rw [← List.take_append_drop n p.parts] at ha
  obtain ⟨m, hm⟩ := h.toPlain.advance_directory (h.start_directory p) (by simpa using hn) ha
  have hleads : t.Leads (p.upTo n) m .directory :=
    h.leads_of_walk (Path.fitsText_upTo (fitsText_of_locate hp) n) hm
  rwa [hleads.location_eq h.toPlain]

/-- A path that leads to a free location leads to a directory before its last name. -/
theorem absent_cases (hp : t.locate follow p = .ok (.absent k)) :
    ∃ l name, p.parts = p.parent.parts ++ [name] ∧ name ≠ Path.up ∧ t.Leads p.parent l .directory ∧
      k = l ++ [name] ∧
      t.get? k = none := by
  rw [h.locate_follow] at hp
  obtain ⟨init, name, l, hparts, hup, hl, hk, hnone⟩ :=
    h.toPlain.advance_absent_cases (h.start_directory p)
      (Linkless.advance_eq_of_locate h.linkless hp)
  have hparent : p.parent.parts = init := by rw [Path.parent, hparts, List.dropLast_concat]
  refine ⟨l, name, by rw [hparent, hparts], hup,
    h.leads_of_walk (Path.fitsText_parent (fitsText_of_locate hp)) ?_, hk, hnone⟩
  rw [hparent]
  exact hl

theorem put (hk : t.get? k ≠ some .directory) (hp : t.get? k.dropLast = some .directory)
    (he : ∀ target, e ≠ .link target) : (t.put k e).Home where
  toPlain := h.toPlain.put hk hp he
  home := by
    show (t.put k e).get? t.base = _
    rw [get?_put_of_ne hk, if_neg (by rintro rfl; exact hk h.home), h.home]

theorem put_absent (hp : t.locate follow p = .ok (.absent k)) (he : ∀ target, e ≠ .link target) :
    (t.put k e).Home := by
  obtain ⟨l, name, -, -, hl, rfl, hnone⟩ := h.absent_cases hp
  exact h.put (ne_directory_of_none hnone)
    (by rw [List.dropLast_concat]; exact hl.get?_eq h.toPlain) he

end Home

theorem contains_iff : t.contains p = true ↔ ∃ l e, t.Leads p l e := by
  rw [contains, Option.isSome_iff_exists]
  constructor
  · rintro ⟨e, he⟩
    obtain ⟨l, hl⟩ := entry?_eq_some_iff.1 he
    exact ⟨l, e, hl⟩
  · rintro ⟨l, e, hl⟩
    exact ⟨e, hl.entry?_eq⟩

end Tree

end SlideDeck
