import SlideDeck.Proofs.Outcome
import SlideDeck.Proofs.Tree.Length
import SlideDeck.Proofs.Tree.Plain
import SlideDeck.Tree.Change

/-!
# Walks through plain trees

In a plain tree a path leads to the entry that the tree has at the place where the path ends
(`Leads.get?_eq`), and names that lead downwards from a directory lead to what is below it
(`Leads.append_iff`). So the questions about a path and the elementary operations on it come down to
`Tree.get?`.

Where a path leads depends on the directories on the way and on the entry at its end: it leads there
still in a tree that keeps them (`Leads.mono`).
-/

namespace SlideDeck

/-- Where a walk has come to that does not go on behind a link. -/
def Stop.reached : Stop → Except TreeError Place
  | .place p => .ok p
  | .link .. => .error .tooManyLinks

namespace Tree

variable {t u : Tree} {l k : Location} {name : Text} {names rest : List Text} {p : Path} {e : Entry}
  {follow : Bool}

/-- A path leads to an entry at a location. -/
def Leads (t : Tree) (p : Path) (l : Location) (e : Entry) : Prop :=
  t.locate true p = .ok (.present l e)

/-- Where the walk along a path starts. -/
def start (t : Tree) (p : Path) : Location := if p.root = [] then t.base else []

/-! ## Walking along names -/

theorem advance_cons (t : Tree) (follow : Bool) (l : Location) (h : name ≠ Path.up)
    (hname : Path.fitsName name = true) (rest : List Text) : advance t follow l (name :: rest) =
      match t.get? (l ++ [name]) with
      | none => if rest = [] then .ok (.place (.absent (l ++ [name]))) else .error .notFound
      | some .directory => advance t follow (l ++ [name]) rest
      | some (.link target) =>
        if rest = [] ∧ !follow then .ok (.place (.present (l ++ [name]) (.link target)))
          else .ok (.link l target rest)
      | some (.file f) => if rest = [] then .ok (.place (.present (l ++ [name]) (.file f)))
          else .error .notDirectory :=
  (if_neg h).trans (if_neg (by simp [hname]))

theorem advance_up (t : Tree) (follow : Bool) (l : Location) (rest : List Text) :
    advance t follow l (Path.up :: rest) = advance t follow l.dropLast rest := if_pos rfl

theorem advance_of_not_fits (h : name ≠ Path.up) (hname : Path.fitsName name = false) :
    advance t follow l (name :: rest) = .error .nameTooLong :=
  (if_neg h).trans (if_pos (by simp [hname]))

theorem fitsName_of_advance {s : Stop} (h : name ≠ Path.up)
    (ha : advance t follow l (name :: rest) = .ok s) :
    Path.fitsName name = true := by
  cases hname : Path.fitsName name with
  | true => rfl
  | false => cases (advance_of_not_fits h hname).symm.trans ha

/-- No name on the way of a walk to its end is too long. -/
theorem fitsName_of_mem {place : Place} (ha : advance t follow l names = .ok (.place place)) :
    ∀ name ∈ names, Path.fitsName name = true := by
  induction names generalizing l with
  | nil => exact nofun
  | cons first rest ih =>
    rw [List.forall_mem_cons]
    by_cases hup : first = Path.up
    · subst hup
      rw [advance_up] at ha
      exact ⟨by decide, ih ha⟩
    · have hname := fitsName_of_advance hup ha
      refine ⟨hname, ?_⟩
      rw [advance_cons t follow l hup hname] at ha
      split at ha
      · split at ha
        · next hr => rw [hr]; exact nofun
        · cases ha
      · exact ih ha
      · split at ha
        · next hr => rw [hr.1]; exact nofun
        · cases ha
      · split at ha
        · next hr => rw [hr]; exact nofun
        · cases ha

/-- What is met at the end of a walk is in the tree. -/
theorem get?_of_advance (h : advance t follow l names = .ok (.place (.present k e))) :
    t.get? k = some e := by
  induction names generalizing l with
  | nil =>
    rw [advance] at h
    split at h
    · next e' he =>
      cases h
      exact he
    · cases h
  | cons name rest ih =>
    by_cases hup : name = Path.up
    · subst hup
      rw [advance_up] at h
      exact ih h
    · have hname := fitsName_of_advance hup h
      rw [advance_cons t follow l hup hname] at h
      split at h
      · split at h <;> cases h
      · exact ih h
      · next target he =>
        split at h <;> cases h
        exact he
      · next f he =>
        split at h <;> cases h
        exact he

/-- A walk that has come to a directory goes on from there. -/
theorem advance_append (h : advance t follow l names = .ok (.place (.present k .directory)))
    (rest : List Text) :
    advance t follow l (names ++ rest) = advance t follow k rest := by
  induction names generalizing l with
  | nil =>
    rw [advance] at h
    split at h <;> cases h
    rfl
  | cons name names ih =>
    rw [List.cons_append]
    by_cases hup : name = Path.up
    · subst hup
      rw [advance_up] at h ⊢
      exact ih h
    · have hname := fitsName_of_advance hup h
      rw [advance_cons t follow l hup hname] at h ⊢
      split at h
      · split at h <;> cases h
      · exact ih h
      · split at h <;> cases h
      · split at h <;> cases h

/-- A walk meets the same in a tree that keeps the directories and has an entry of the same kind at
the end. -/
theorem advance_mono (hd : ∀ m, t.get? m = some .directory → u.get? m = some .directory)
    {e' : Entry} (he : u.get? k = some e') (hl : ∀ target, e' ≠ .link target)
    (hk : e = .directory ↔ e' = .directory)
    (h : advance t follow l names = .ok (.place (.present k e))) :
    advance u follow l names = .ok (.place (.present k e')) := by
  induction names generalizing l with
  | nil =>
    rw [advance] at h ⊢
    split at h <;> cases h
    rw [he]
  | cons name rest ih =>
    by_cases hup : name = Path.up
    · subst hup
      rw [advance_up] at h ⊢
      exact ih h
    · have hname := fitsName_of_advance hup h
      rw [advance_cons t follow l hup hname] at h
      rw [advance_cons u follow l hup hname]
      split at h
      · split at h <;> cases h
      · next hn =>
        rw [hd _ hn]
        exact ih h
      · split at h
        · next hr =>
          cases h
          rw [he]
          cases e' with
          | directory => cases hk.2 rfl
          | link target => exact absurd rfl (hl target)
          | file f => exact if_pos hr.1
        · cases h
      · split at h
        · next hr =>
          cases h
          rw [he]
          cases e' with
          | directory => cases hk.2 rfl
          | link target => exact absurd rfl (hl target)
          | file f => exact if_pos hr
        · cases h

/-- A walk that does not end with a step up ends at its last name. -/
theorem getLast?_of_advance_of_ne_up (h : advance t true l names = .ok (.place (.present k e)))
    (hlast : names.getLast? = some name) (hup : name ≠ Path.up) : k.getLast? = some name := by
  induction names generalizing l with
  | nil => cases hlast
  | cons first rest ih =>
    by_cases hr : rest = []
    · subst hr
      obtain rfl : first = name := by simpa using hlast
      have hname := fitsName_of_advance hup h
      rw [advance_cons t true l hup hname] at h
      split at h
      · split at h <;> cases h
      · rw [advance] at h
        split at h <;> cases h
        exact List.getLast?_concat
      · cases h
      · cases h
        exact List.getLast?_concat
    · rw [List.getLast?_cons_of_ne_nil hr] at hlast
      by_cases hstep : first = Path.up
      · rw [hstep, advance_up] at h
        exact ih h hlast
      · have hname := fitsName_of_advance hstep h
        rw [advance_cons t true l hstep hname] at h
        split at h
        · split at h <;> cases h
        · exact ih h hlast
        · split at h
          · next hend => exact absurd hend.1 hr
          · cases h
        · exact nomatch (if_neg hr ▸ h)

/-- A path whose text is too long leads nowhere. -/
theorem locate_of_not_fitsText (hp : p.fitsText = false) :
    t.locate follow p = .error .nameTooLong :=
  if_pos (by rw [hp]; rfl)

/-- There is no entry where a path leads nowhere. -/
theorem contains_of_locate_error {e : TreeError} (h : t.locate true p = .error e) :
    t.contains p = false := by
  rw [contains, entry?, entryAt, h]
  rfl

theorem isDirectory_of_locate_error {e : TreeError} (h : t.locate true p = .error e) :
    t.isDirectory p = false := by
  rw [isDirectory, entry?, entryAt, h]
  rfl

theorem fitsText_of_locate {place : Place} (h : t.locate follow p = .ok place) :
    p.fitsText = true := by
  cases hp : p.fitsText with
  | true => rfl
  | false => exact nomatch (locate_of_not_fitsText hp).symm.trans h

namespace Plain

variable (h : t.Plain)

include h

theorem advance_ne_link {target : Text} : advance t follow l names ≠ .ok (.link k target rest) := by
  intro ha
  induction names generalizing l with
  | nil =>
    rw [advance] at ha
    split at ha <;> cases ha
  | cons name names ih =>
    by_cases hup : name = Path.up
    · subst hup
      rw [advance_up] at ha
      exact ih ha
    · have hname := fitsName_of_advance hup ha
      rw [advance_cons t follow l hup hname] at ha
      split at ha
      · split at ha <;> cases ha
      · exact ih ha
      · next target' he => exact h.linkless _ _ he
      · split at ha <;> cases ha

theorem advance_follow : advance t follow l names = advance t true l names := by
  induction names generalizing l with
  | nil => rfl
  | cons name names ih =>
    by_cases hup : name = Path.up
    · subst hup
      rw [advance_up, advance_up]
      exact ih
    · cases hname : Path.fitsName name with
      | false => rw [advance_of_not_fits hup hname, advance_of_not_fits hup hname]
      | true =>
        rw [advance_cons t follow l hup hname, advance_cons t true l hup hname]
        split
        · rfl
        · exact ih
        · next target he => exact absurd he (h.linkless _ _)
        · rfl

theorem locate_of_fitsText (hp : p.fitsText = true) :
    t.locate follow p = (advance t true (t.start p) p.parts).bind Stop.reached := by
  rw [locate, if_neg (by simp [hp]), walk, start, h.advance_follow]
  cases ha : advance t true (if p.root = [] then t.base else []) p.parts with
  | error e => rfl
  | ok s =>
    cases s with
    | place place => rfl
    | link k target rest => exact absurd ha h.advance_ne_link

theorem locate_follow : t.locate follow p = t.locate true p := by
  cases hp : p.fitsText with
  | false => rw [locate_of_not_fitsText hp, locate_of_not_fitsText hp]
  | true => rw [h.locate_of_fitsText hp, h.locate_of_fitsText hp]

theorem locate_eq_ok_iff {place : Place} : t.locate follow p = .ok place ↔
    p.fitsText = true ∧ advance t true (t.start p) p.parts = .ok (.place place) := by
  constructor
  · intro hp
    have hfits := fitsText_of_locate hp
    refine ⟨hfits, ?_⟩
    rw [h.locate_of_fitsText hfits] at hp
    cases ha : advance t true (t.start p) p.parts with
    | error e => exact nomatch ha ▸ hp
    | ok s =>
      cases s with
      | place place' =>
        rw [ha] at hp
        rw [show place' = place from Except.ok.inj hp]
      | link k target rest => exact absurd ha h.advance_ne_link
  · rintro ⟨hfits, ha⟩
    rw [h.locate_of_fitsText hfits, ha]
    rfl

/-- A path that leads to a place is not too long, nor is a name in it. -/
theorem fits_of_locate {place : Place} (hp : t.locate follow p = .ok place) : p.fits = true := by
  have ⟨hfits, ha⟩ := h.locate_eq_ok_iff.1 hp
  exact Bool.and_eq_true_iff.2 ⟨hfits, List.all_eq_true.2 (fitsName_of_mem ha)⟩

theorem leads_of_walk (hp : p.fitsText = true)
    (ha : advance t true (t.start p) p.parts = .ok (.place (.present l e))) : t.Leads p l e :=
  h.locate_eq_ok_iff.2 ⟨hp, ha⟩

/-- Names that lead downwards from a directory lead to what the tree has there. -/
theorem advance_down (hl : t.get? l = some .directory) (hup : Path.up ∉ names)
    (hfits : ∀ name ∈ names, Path.fitsName name = true) :
    advance t true l names = .ok (.place (.present k e)) ↔ k = l ++ names ∧ t.get? k = some e := by
  induction names generalizing l with
  | nil =>
    rw [advance, hl, List.append_nil]
    constructor
    · rintro ⟨⟩
      exact ⟨rfl, hl⟩
    · rintro ⟨rfl, he⟩
      rw [hl] at he
      cases he
      rfl
  | cons name rest ih =>
    simp only [List.mem_cons, not_or] at hup
    rw [List.forall_mem_cons] at hfits
    rw [List.append_cons, advance_cons t true l (fun hn => hup.1 hn.symm) hfits.1]
    have habove (hr : rest ≠ []) (hk : (t.get? (l ++ [name] ++ rest)).isSome) :
        t.get? (l ++ [name]) = some .directory :=
      h.directory_of_prefix hk (List.prefix_append ..) (by simpa using hr)
    split
    · next hn =>
      constructor
      · intro ha
        split at ha <;> cases ha
      · rintro ⟨rfl, he⟩
        by_cases hr : rest = []
        · rw [hr, List.append_nil, hn] at he
          cases he
        · rw [habove hr (by rw [he]; rfl)] at hn
          cases hn
    · next hn => exact ih hn hup.2 hfits.2
    · next target hn => exact absurd hn (h.linkless _ _)
    · next f hn =>
      by_cases hr : rest = []
      · subst hr
        rw [if_pos rfl, List.append_nil]
        constructor
        · rintro ⟨⟩
          exact ⟨rfl, hn⟩
        · rintro ⟨rfl, he⟩
          rw [hn] at he
          cases he
          rfl
      · rw [if_neg hr]
        constructor
        · intro ha
          cases ha
        · rintro ⟨rfl, he⟩
          rw [habove hr (by rw [he]; rfl)] at hn
          cases hn

end Plain

/-! ## What a path leads to -/

theorem start_append (t : Tree) (p : Path) (names : List Text) :
    t.start (p.append ⟨[], names⟩) = t.start p := rfl

namespace Leads

theorem advance_eq (h : t.Plain) (hp : t.Leads p l e) :
    advance t true (t.start p) p.parts = .ok (.place (.present l e)) := (h.locate_eq_ok_iff.1 hp).2

theorem fits (h : t.Plain) (hp : t.Leads p l e) : p.fits = true := h.fits_of_locate hp

theorem get?_eq (h : t.Plain) (hp : t.Leads p l e) :
    t.get? l = some e := get?_of_advance (hp.advance_eq h)

/-- The path of what is below a directory leads to what the tree has there, unless it is too
long. -/
theorem append_iff (h : t.Plain) (hp : t.Leads p l .directory) (hup : Path.up ∉ names) :
    t.Leads (p.append ⟨[], names⟩) k e
      ↔ (p.append ⟨[], names⟩).fits = true ∧ k = l ++ names ∧ t.get? k = some e := by
  have hdown (hfits : (p.append ⟨[], names⟩).fits = true) :
      advance t true (t.start p) (p.parts ++ names) = .ok (.place (.present k e)) ↔
        k = l ++ names ∧ t.get? k = some e := by
    rw [advance_append (hp.advance_eq h)]
    exact h.advance_down (hp.get?_eq h) hup (Path.fitsName_of_fits (Path.fits_names hfits))
  constructor
  · exact fun hq => ⟨hq.fits h, (hdown (hq.fits h)).1 (hq.advance_eq h)⟩
  · exact fun ⟨hfits, hq⟩ => h.leads_of_walk (Path.fitsText_of_fits hfits) ((hdown hfits).2 hq)

theorem append (h : t.Plain) (hp : t.Leads p l .directory) (hup : Path.up ∉ names)
    (hfits : (p.append ⟨[], names⟩).fits = true) (he : t.get? (l ++ names) = some e) :
    t.Leads (p.append ⟨[], names⟩) (l ++ names) e := (hp.append_iff h hup).2 ⟨hfits, rfl, he⟩

theorem mono (h : t.Plain) (hu : u.Plain) (hb : u.base = t.base)
    (hd : ∀ m, t.get? m = some .directory → u.get? m = some .directory) (hp : t.Leads p l e)
    {e' : Entry} (he : u.get? l = some e') (hk : e = .directory ↔ e' = .directory) :
    u.Leads p l e' := by
  have hstart : u.start p = t.start p := by rw [start, start, hb]
  refine hu.leads_of_walk (Path.fitsText_of_fits (hp.fits h)) ?_
  rw [hstart]
  exact advance_mono hd he (fun target hl => hu.linkless l target (hl ▸ he)) hk (hp.advance_eq h)

theorem mono_directory (h : t.Plain) (hu : u.Plain) (hb : u.base = t.base)
    (hd : ∀ m, t.get? m = some .directory → u.get? m = some .directory)
    (hp : t.Leads p l .directory) :
    u.Leads p l .directory := hp.mono h hu hb hd (hd l (hp.get?_eq h)) Iff.rfl

/-- A path leads to the same entry in a tree that holds the same entries. -/
theorem same (h : t.Plain) (hu : u.Plain) (hb : u.base = t.base) (hs : t.Same u)
    (hp : t.Leads p l e) : u.Leads p l e :=
  hp.mono h hu hb (fun m hm => by rw [hs m, hm]) (by rw [hs l, hp.get?_eq h]) Iff.rfl

/-- A path leads to one entry at most. -/
theorem unique {e' : Entry} (hp : t.Leads p l e) (hq : t.Leads p k e') : l = k ∧ e = e' := by
  cases hp.symm.trans hq
  exact ⟨rfl, rfl⟩

theorem entryAt_eq (hp : t.Leads p l e) : t.entryAt true p = .ok (l, e) := by
  rw [entryAt, hp]

theorem entry?_eq (hp : t.Leads p l e) : t.entry? p = some e := by
  unfold entry?
  rw [hp.entryAt_eq]
  rfl

end Leads

theorem entry?_eq_some_iff : t.entry? p = some e ↔ ∃ l, t.Leads p l e := by
  constructor
  · intro h
    unfold entry? entryAt at h
    split at h
    · next l e' hl =>
      obtain rfl : e' = e := Option.some.inj h
      exact ⟨l, hl⟩
    · cases h
    · cases h
  · rintro ⟨l, hp⟩
    exact hp.entry?_eq

theorem isDirectory_iff : t.isDirectory p = true ↔ ∃ l, t.Leads p l .directory := by
  rw [isDirectory, beq_iff_eq, entry?_eq_some_iff]

theorem isFile_iff : t.isFile p = true ↔ ∃ l f, t.Leads p l (.file f) := by
  rw [isFile, file?]
  split
  · next f hf => exact ⟨fun _ => ⟨_, f, (entry?_eq_some_iff.1 hf).choose_spec⟩, fun _ => rfl⟩
  · next hf => exact ⟨nofun, fun ⟨l, f, hp⟩ => absurd hp.entry?_eq (hf f)⟩

section Append

variable (h : t.Plain) (hp : t.Leads p l .directory) (hup : Path.up ∉ names)
  (hfits : (p.append ⟨[], names⟩).fits = true)

include h hp hup hfits

theorem Leads.entry?_append : t.entry? (p.append ⟨[], names⟩) = t.get? (l ++ names) := by
  ext e
  rw [entry?_eq_some_iff]
  simp only [hp.append_iff h hup]
  exact ⟨fun ⟨k, _, hk, he⟩ => hk ▸ he, fun he => ⟨_, hfits, rfl, he⟩⟩

theorem Leads.isFile_append_iff :
    t.isFile (p.append ⟨[], names⟩) = true ↔ ∃ f, t.get? (l ++ names) = some (.file f) := by
  simp only [isFile_iff, hp.append_iff h hup]
  exact ⟨fun ⟨k, f, _, hk, hf⟩ => ⟨f, hk ▸ hf⟩, fun ⟨f, hf⟩ => ⟨_, f, hfits, rfl, hf⟩⟩

end Append

/-! ## Questions -/

/-- A question is answered, or the way of the path is too long. -/
theorem ask_cases (question : Tree → Path → Bool) (follow : Bool) (p : Path) (t : Tree) :
    t.ask question follow p = .ok (question t p) ∨
      t.ask question follow p = .error (.refused .nameTooLong p.toText) := by
  unfold ask
  split
  · exact .inr rfl
  · exact .inl rfl

/-- The text of a path is too long, or a name that is met on its way. -/
def IsTooLong (t : Tree) (p : Path) : Prop := t.locate true p = .error .nameTooLong

/-- A question has no answer if the path that it is about is too long. -/
theorem ask_eq_error_iff {question : Tree → Path → Bool} {f : Failure} :
    t.ask question true p = .error f ↔ t.IsTooLong p ∧ f = .refused .nameTooLong p.toText := by
  rw [ask, IsTooLong]
  split
  · next h =>
    rw [h]
    exact ⟨fun h => ⟨rfl, (Except.error.inj h).symm⟩, fun h => congrArg Except.error h.2.symm⟩
  · next hne => exact iff_of_false nofun fun h => hne h.1

/-- An answer is true, and the path's text is not too long. -/
theorem ask_eq_ok {question : Tree → Path → Bool} {answer : Bool}
    (h : t.ask question follow p = .ok answer) :
    question t p = answer ∧ p.fitsText = true := by
  unfold ask at h
  split at h
  · cases h
  · next hne =>
    refine ⟨Except.ok.inj h, ?_⟩
    cases hp : p.fitsText with
    | true => rfl
    | false => exact absurd (locate_of_not_fitsText hp) hne

theorem ask_of_not_fitsText (hp : p.fitsText = false) (question : Tree → Path → Bool) :
    t.ask question follow p = .error (.refused .nameTooLong p.toText) := by
  rw [ask, locate_of_not_fitsText hp]

theorem advance_ne_nameTooLong (hfits : ∀ name ∈ names, Path.fitsName name = true) :
    advance t follow l names ≠ .error .nameTooLong := by
  induction names generalizing l with
  | nil =>
    rw [advance]
    split <;> simp
  | cons name rest ih =>
    obtain ⟨hname, hrest⟩ := List.forall_mem_cons.1 hfits
    by_cases hup : name = Path.up
    · rw [hup, advance_up]
      exact ih hrest
    · rw [advance_cons t follow l hup hname]
      split
      · split <;> simp
      · exact ih hrest
      · split <;> simp
      · split <;> simp

/-- A question about a path that is not too long, and in which no name is, is answered. -/
theorem Plain.ask_of_fits (h : t.Plain) (hp : p.fits = true) (question : Tree → Path → Bool) :
    t.ask question follow p = .ok (question t p) := by
  have hne : t.locate follow p ≠ .error .nameTooLong := by
    rw [h.locate_of_fitsText (Path.fitsText_of_fits hp)]
    cases ha : advance t true (t.start p) p.parts with
    | error e =>
      intro heq
      cases heq
      exact advance_ne_nameTooLong (Path.fitsName_of_fits hp) ha
    | ok s => cases s <;> exact nofun
  unfold ask
  split
  · next heq => exact absurd heq hne
  · rfl

/-- The path of an entry of a directory leads nowhere if it is too long, or the name. -/
theorem Leads.locate_of_not_fits (h : t.Plain) (hp : t.Leads p l .directory)
    (hfits : (p.append ⟨[], [name]⟩).fits = false) :
    t.locate follow (p.append ⟨[], [name]⟩) = .error .nameTooLong := by
  cases htext : (p.append ⟨[], [name]⟩).fitsText with
  | false => exact locate_of_not_fitsText htext
  | true =>
    have hname : Path.fitsName name = false := by
      rw [Bool.eq_false_iff] at hfits ⊢
      exact fun hname =>
        hfits ((Path.fits_append_iff (hp.fits h)).2 ⟨htext, List.forall_mem_singleton.2 hname⟩)
    have hup : name ≠ Path.up := by
      rintro rfl
      cases hname
    rw [h.locate_of_fitsText htext]
    show (advance t true (t.start p) (p.parts ++ [name])).bind _ = _
    rw [advance_append (hp.advance_eq h), advance_of_not_fits hup hname]
    rfl

theorem Leads.ask_of_not_fits (h : t.Plain) (hp : t.Leads p l .directory)
    (hfits : (p.append ⟨[], [name]⟩).fits = false) (question : Tree → Path → Bool) :
    t.ask question follow (p.append ⟨[], [name]⟩) =
      .error (.refused .nameTooLong (p.append ⟨[], [name]⟩).toText) := by
  rw [ask, hp.locate_of_not_fits h hfits]

theorem Leads.fits_of_ask (h : t.Plain) (hp : t.Leads p l .directory)
    {question : Tree → Path → Bool} {answer : Bool}
    (hask : t.ask question follow (p.append ⟨[], [name]⟩) = .ok answer) :
    (p.append ⟨[], [name]⟩).fits = true := by
  cases hfits : (p.append ⟨[], [name]⟩).fits with
  | true => rfl
  | false => cases hask.symm.trans (hp.ask_of_not_fits h hfits question)

theorem ask_of_locate {place : Place} (h : t.locate follow p = .ok place)
    (question : Tree → Path → Bool) :
    t.ask question follow p = .ok (question t p) := by
  rw [ask, h]

theorem Leads.ask_eq (h : t.Leads p l e) (question : Tree → Path → Bool) :
    t.ask question true p = .ok (question t p) := ask_of_locate h question

theorem ask_of_isFile (h : t.isFile p = true) (question : Tree → Path → Bool) :
    t.ask question true p = .ok (question t p) := by
  obtain ⟨l, f, hl⟩ := isFile_iff.1 h
  exact hl.ask_eq question

theorem Plain.isLink_eq (h : t.Plain) (p : Path) : t.isLink p = false := by
  rw [isLink, entryAt, h.locate_follow]
  cases hp : t.locate true p with
  | error e => rfl
  | ok place =>
    cases place with
    | absent k => rfl
    | present k e =>
      cases e with
      | link target => exact absurd (Leads.get?_eq h hp) (h.linkless k target)
      | _ => rfl

/-! ## The elementary operations -/

namespace Leads

variable {f : File}

theorem read_eq (hp : t.Leads p l (.file f)) : t.read p = .ok f.bytes := by
  rw [Tree.read, hp.entryAt_eq]
  rfl

/-- Reading fails only because of bytes that are no text. -/
theorem readText_eq (hp : t.Leads p l (.file f)) :
    t.readText p = (Utf8.readLines f.bytes).mapError Failure.undecodable := by
  simp only [readText, hp.read_eq, bind, Except.bind]
  cases Utf8.readLines f.bytes <;> rfl

theorem readLines_of_readText (hp : t.Leads p l (.file f)) {text : Text}
    (h : t.readText p = .ok text) : Utf8.readLines f.bytes = .ok text := by
  rw [hp.readText_eq] at h
  cases hlines : Utf8.readLines f.bytes with
  | error reason =>
    rw [hlines] at h
    cases h
  | ok lines =>
    rw [hlines] at h
    exact congrArg Except.ok (Except.ok.inj h)

/-- A file of which no text is read is no text. -/
theorem undecodable_of_readText (hp : t.Leads p l (.file f)) {e : Failure}
    (h : t.readText p = .error e) :
    ∃ reason, Utf8.readLines f.bytes = .error reason ∧ e = .undecodable reason := by
  rw [hp.readText_eq] at h
  cases hlines : Utf8.readLines f.bytes with
  | error reason =>
    rw [hlines] at h
    exact ⟨reason, rfl, (Except.error.inj h).symm⟩
  | ok lines =>
    rw [hlines] at h
    cases h

theorem list_eq (hp : t.Leads p l .directory) : t.list p = .ok (t.children l) := by
  rw [list, hp.entryAt_eq]
  rfl

theorem modifyFile_eq (hp : t.Leads p l (.file f)) (g : List UInt8 → List UInt8) :
    t.modifyFile p g = .ok (t.put l (.file ⟨g f.bytes, none⟩)) := by
  rw [modifyFile, hp]

theorem unlink_eq (h : t.Plain) (hp : t.Leads p l (.file f)) : t.unlink p = .ok (t.erase l) := by
  have hentry : t.entryAt false p = .ok (l, .file f) := by
    rw [← hp.entryAt_eq, entryAt, entryAt, h.locate_follow]
  rw [unlink, if_neg (by rw [h.unlocked]; exact nofun), hentry]
  rfl

theorem removeAll_eq (h : t.Plain) (hp : t.Leads p l .directory) :
    t.removeAll p = .ok (t.erase l) := by
  have hentry : t.entryAt false p = .ok (l, .directory) := by
    rw [← hp.entryAt_eq, entryAt, entryAt, h.locate_follow]
  rw [removeAll, if_neg (by rw [h.idle]; exact nofun), hentry]
  rfl

/-- A name that is free in a directory leads to where the entry would be. -/
theorem locate_of_none (h : t.Plain) (hp : t.Leads p l .directory) (hup : name ≠ Path.up)
    (hfits : (p.append ⟨[], [name]⟩).fits = true) (hn : t.get? (l ++ [name]) = none) :
    t.locate follow (p.append ⟨[], [name]⟩) = .ok (.absent (l ++ [name])) := by
  refine h.locate_eq_ok_iff.2 ⟨Path.fitsText_of_fits hfits, ?_⟩
  show advance t true (t.start p) (p.parts ++ [name]) = _
  have hname := Path.fitsName_of_fits (Path.fits_names hfits) name (List.mem_singleton_self name)
  rw [advance_append (hp.advance_eq h), advance_cons t true l hup hname, hn]
  rfl

theorem makeDirectory_of_none (h : t.Plain) (hp : t.Leads p l .directory) (hup : name ≠ Path.up)
    (hfits : (p.append ⟨[], [name]⟩).fits = true) (hn : t.get? (l ++ [name]) = none) :
    t.makeDirectory (p.append ⟨[], [name]⟩) = .ok (t.put (l ++ [name]) .directory) := by
  rw [makeDirectory, hp.locate_of_none h hup hfits hn]

theorem makeDirectory_of_present (h : t.Plain) (hp : t.Leads p l e) :
    t.makeDirectory p = .error (.refused .exists p.toText) := by
  have hplace : t.locate false p = .ok (.present l e) := by rw [h.locate_follow, hp]
  rw [makeDirectory, hplace]

end Leads

end Tree

end SlideDeck
