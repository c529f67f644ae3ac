import SlideDeck.Deck.Finalization
import SlideDeck.Proofs.Deck.Step
import SlideDeck.Proofs.Text.Order
import SlideDeck.Proofs.Tree.Walk

/-!
# What a merge of stylesheets does

The loose stylesheets of a deck are the files in its directory that are called like a stylesheet,
but for the canonical one (`Deck.IsLoose`); they are merged in the order of their names
(`looseStylesheets_cases`). They cannot be told if there is an entry in the directory of which the
path is too long (`overlong`). The canonical stylesheet itself is never loose (`ne_stylesheet`).

A merge comes to one of five ends (`mergeStylesheets_cases`): there is no canonical stylesheet, some
path is too long, there is nothing to merge, some stylesheet is no text, or all blocks that were
missing are written and the loose files are gone (`Deck.merged`). Only the last one changes the
tree.
-/

namespace SlideDeck.Deck

open StepAction (ask report onTree reportChange)

variable {d : Deck} {t : Tree} {l k : Location} {name canonical : Text} {f old : File}

/-! ## Loose stylesheets -/

/-- A file in the deck's directory is a loose stylesheet. -/
def IsLoose (d : Deck) (t : Tree) (l : Location) (name : Text) : Prop :=
  stylesheetSuffix <:+ name ∧ name ≠ d.settings.canonicalName ∧
    ∃ f, t.get? (l ++ [name]) = some (.file f)

/-- The path of what has a name in the deck's directory. -/
def inRoot (d : Deck) (name : Text) : Path := d.path.append ⟨[], [name]⟩

theorem ne_up_of_suffix (h : stylesheetSuffix <:+ name) : name ≠ Path.up := by
  rintro rfl
  exact absurd h (by decide)

theorem not_mem_of_suffix (h : stylesheetSuffix <:+ name) : Path.up ∉ [name] := by
  rw [List.mem_singleton]
  exact fun hup => ne_up_of_suffix h hup.symm

theorem IsLoose.leads (ht : t.Plain) (hl : t.Leads d.path l .directory) (h : d.IsLoose t l name)
    (hfits : (d.inRoot name).fits = true) :
    ∃ f, t.get? (l ++ [name]) = some (.file f) ∧
      t.Leads (d.inRoot name) (l ++ [name]) (.file f) := by
  obtain ⟨hs, -, f, hf⟩ := h
  exact ⟨f, hf, hl.append ht (not_mem_of_suffix hs) hfits hf⟩

/-- A loose stylesheet that cannot be read is a file that is no text. -/
theorem IsLoose.undecodable (ht : t.Plain) (hl : t.Leads d.path l .directory)
    (h : d.IsLoose t l name) (hfits : (d.inRoot name).fits = true) {e : Failure}
    (he : t.readText (d.inRoot name) = .error e) :
    ∃ f e', t.get? (l ++ [name]) = some (.file f) ∧ Utf8.readLines f.bytes = .error e' ∧
      e = .undecodable e' := by
  obtain ⟨f, hf, hleads⟩ := h.leads ht hl hfits
  obtain ⟨e', hlines, rfl⟩ := hleads.undecodable_of_readText he
  exact ⟨f, e', hf, hlines, rfl⟩

/-- The entries of the deck's directory of which no question is answered, since their paths or names
are too long. -/
def overlong (d : Deck) (t : Tree) (l : Location) : List Text :=
  (Text.sort (t.children l)).filter fun name => !(d.inRoot name).fits

theorem mem_overlong_iff :
    name ∈ d.overlong t l ↔ (t.get? (l ++ [name])).isSome ∧ (d.inRoot name).fits = false := by
  rw [overlong, List.mem_filter, (Text.sort_perm _).mem_iff, Tree.mem_children_iff,
    Bool.not_eq_true']

/-- The same entries are overlong in trees that have the same of these. -/
theorem overlong_congr {u : Tree} (ht : t.Plain) (hu : u.Plain)
    (h : ∀ name, (d.inRoot name).fits = false → u.get? (l ++ [name]) = t.get? (l ++ [name])) :
    d.overlong u l = d.overlong t l := by
  have hsorted (t : Tree) : (d.overlong t l).Pairwise fun a b => Text.upTo a b = true :=
    (Text.pairwise_sort _).filter _
  have hnodup {t : Tree} (ht : t.Plain) : (d.overlong t l).Nodup :=
    ((Text.sort_perm _).nodup_iff.2 (ht.nodup_children l)).filter _
  refine Text.eq_of_sorted (hsorted u) (hsorted t) (hnodup hu) (hnodup ht) fun name => ?_
  rw [mem_overlong_iff, mem_overlong_iff]
  exact and_congr_left fun hlong => by rw [h name hlong]

theorem overlong_eq_nil_iff :
    d.overlong t l = [] ↔ ∀ name, (t.get? (l ++ [name])).isSome → (d.inRoot name).fits = true := by
  simp only [overlong, List.filter_eq_nil_iff, (Text.sort_perm _).mem_iff, Tree.mem_children_iff,
    Bool.not_eq_true', Bool.not_eq_false]

theorem IsLoose.fits (h : d.IsLoose t l name) (hshort : d.overlong t l = []) :
    (d.inRoot name).fits = true := by
  obtain ⟨-, -, f, hf⟩ := h
  exact overlong_eq_nil_iff.1 hshort name (by rw [hf]; rfl)

theorem looseStylesheets_cases (ht : t.Plain) (hl : t.Leads d.path l .directory) :
    (d.overlong t l = [] ∧ ∃ names, d.looseStylesheets t = .ok names ∧
      names.Pairwise (fun a b => Text.upTo a b = true) ∧ names.Nodup ∧ ∀ name, name ∈ names ↔
        d.IsLoose t l name) ∨
    ∃ name rest, d.overlong t l = name :: rest ∧
      d.looseStylesheets t = .error (.refused .nameTooLong (d.inRoot name).toText) := by
  rw [looseStylesheets, hl.list_eq]
  have hfiles := @Outcome.filterM_cases _ _ (fun name => t.ask Tree.isFile true (d.inRoot name))
    (fun name => t.isFile (d.inRoot name)) (fun name => !(d.inRoot name).fits)
    (fun name => .refused .nameTooLong (d.inRoot name).toText)
    (fun name hname => ht.ask_of_fits (by simpa using hname) _)
    (fun name hname => hl.ask_of_not_fits ht (by simpa [inRoot] using hname) _)
      (Text.sort (t.children l))
  rcases hfiles with ⟨hshort, hfiles⟩ | ⟨name, rest, hfirst, hfiles⟩
  · refine .inl ⟨hshort, _, Outcome.bind_eq_ok.2 ⟨_, rfl, Outcome.bind_eq_ok.2 ⟨_, hfiles, rfl⟩⟩,
      ?_, ?_, fun name => ?_⟩
    · exact ((Text.pairwise_sort _).filter _).filter _
    · exact (((Text.sort_perm _).nodup_iff.2 (ht.nodup_children l)).filter _).filter _
    · simp only [List.mem_filter, (Text.sort_perm _).mem_iff, Bool.and_eq_true,
        List.isSuffixOf_iff_suffix, bne_iff_ne, Tree.mem_children_iff]
      constructor
      · rintro ⟨⟨hthere, hfile⟩, hs, hne⟩
        have hfits := overlong_eq_nil_iff.1 hshort name hthere
        exact ⟨hs, hne, (hl.isFile_append_iff ht (not_mem_of_suffix hs) hfits).1 hfile⟩
      · rintro ⟨hs, hne, f, hf⟩
        have hthere : (t.get? (l ++ [name])).isSome := by rw [hf]; rfl
        have hfits := overlong_eq_nil_iff.1 hshort name hthere
        exact ⟨⟨hthere, (hl.isFile_append_iff ht (not_mem_of_suffix hs) hfits).2 ⟨f, hf⟩⟩, hs, hne⟩
  · refine .inr ⟨name, rest, hfirst, ?_⟩
    show ((Text.sort (t.children l)).filterM fun name =>
        t.ask Tree.isFile true (d.inRoot name)).bind _ = _
    rw [hfiles]
    rfl

/-- A walk from a directory that ends in a file ends in the file's name. -/
theorem getLast?_of_advance (ht : t.Plain) {names : List Text} (hl : t.get? l = some .directory)
    (h : Tree.advance t true l names = .ok (.place (.present k (.file f)))) :
    ∃ name, names.getLast? = some name ∧ k.getLast? = some name := by
  induction names generalizing l with
  | nil =>
    rw [Tree.advance, hl] at h
    cases h
  | cons name rest ih =>
    have hrest {m : Location} (hm : t.get? m = some .directory)
        (h : Tree.advance t true m rest = .ok (.place (.present k (.file f)))) :
        ∃ last, (name :: rest).getLast? = some last ∧ k.getLast? = some last := by
      obtain ⟨last, hlast, hk⟩ := ih hm h
      refine ⟨last, ?_, hk⟩
      rw [List.getLast?_cons, hlast]
      rfl
    by_cases hup : name = Path.up
    · subst hup
      rw [Tree.advance_up] at h
      refine hrest ?_ h
      by_cases hn : l = []
      · rw [hn]
        exact t.get?_root
      · exact ht.parent hn (by rw [hl]; rfl)
    · rw [Tree.advance_cons t true l hup (Tree.fitsName_of_advance hup h)] at h
      split at h
      · split at h <;> cases h
      · next hd => exact hrest hd h
      · split at h
        · next hr => cases hr.2
        · cases h
      · split at h
        · next hr =>
          cases h
          subst hr
          exact ⟨name, rfl, List.getLast?_concat⟩
        · cases h

/-- The canonical stylesheet has the name that no loose one has. -/
theorem getLast?_stylesheet (ht : t.Plain) (hl : t.Leads d.path l .directory)
    (hk : t.Leads d.stylesheet k (.file f)) : k.getLast? = some d.settings.canonicalName := by
  have hwalk := hk.advance_eq ht
  generalize hq : Path.ofText d.settings.canonicalStylesheet = q at *
  have hstyle : d.stylesheet = d.path.append q := by rw [← hq]; rfl
  have hname : d.settings.canonicalName = q.parts.getLast?.getD [] := by rw [← hq]; rfl
  have hlast : ∃ name, q.parts.getLast? = some name ∧ k.getLast? = some name := by
    rw [hstyle, Path.append] at hwalk
    split at hwalk
    · have hstart : t.start ⟨d.path.root, d.path.parts ++ q.parts⟩ = t.start d.path := rfl
      rw [hstart, Tree.advance_append (hl.advance_eq ht)] at hwalk
      exact getLast?_of_advance ht (hl.get?_eq ht) hwalk
    · next hroot =>
      rw [Tree.start, if_neg hroot] at hwalk
      exact getLast?_of_advance ht t.get?_root hwalk
  obtain ⟨name, hn, hkn⟩ := hlast
  rw [hkn, hname, hn]
  rfl

theorem ne_stylesheet (ht : t.Plain) (hl : t.Leads d.path l .directory)
    (hk : t.Leads d.stylesheet k (.file f)) (hn : name ≠ d.settings.canonicalName) (m : Location) :
    k ≠ m ++ [name] := by
  rintro rfl
  have := getLast?_stylesheet ht hl hk
  rw [List.getLast?_concat, Option.some.injEq] at this
  exact hn this

/-! ## Blocks -/

/-- A loose stylesheet that has been read. -/
structure Loose where
  name : Text
  content : Text

/-- The block of a loose stylesheet. -/
def Loose.block (s : Loose) : Text := Deck.block s.name s.content

/-- The loose stylesheets whose blocks the canonical one does not hold. -/
def fresh (canonical : Text) (sheets : List Loose) : List Loose :=
  sheets.filter fun s => !Text.holds s.block canonical

/-- What a merge writes behind the canonical stylesheet: nothing, or the missing blocks, behind the
banner if that is missing too. -/
def addition (canonical : Text) (sheets : List Loose) : Text :=
  if fresh canonical sheets = [] then []
  else (if Text.holds (Text.strip banner) canonical then [] else banner) ++
    (fresh canonical sheets).flatMap Loose.block

theorem fresh_cons_of_holds {s : Loose} (h : Text.holds s.block canonical = true)
    (sheets : List Loose) :
    fresh canonical (s :: sheets) = fresh canonical sheets :=
  List.filter_cons_of_neg (by simpa using h)

theorem fresh_cons_of_not_holds {s : Loose} (h : ¬Text.holds s.block canonical = true)
    (sheets : List Loose) :
    fresh canonical (s :: sheets) = s :: fresh canonical sheets :=
  List.filter_cons_of_pos (by simpa using h)

theorem Loose.block_ne_nil (s : Loose) : s.block ≠ [] := fun h => by
  have := (List.append_eq_nil_iff.1 h).2
  exact absurd this (by decide)

theorem flatMap_block_eq_nil_iff {sheets : List Loose} : sheets.flatMap Loose.block = [] ↔
    sheets = [] := by
  cases sheets with
  | nil => simp
  | cons s ss => simp [List.flatMap_cons, s.block_ne_nil]

theorem addition_eq_nil_iff {sheets : List Loose} : addition canonical sheets = [] ↔
    fresh canonical sheets = [] := by
  rw [addition]
  split
  · next h => exact ⟨fun _ => h, fun _ => rfl⟩
  · next h =>
    rw [List.append_eq_nil_iff, flatMap_block_eq_nil_iff]
    exact ⟨And.right, fun hf => absurd hf h⟩

/-- A loose stylesheet with its content. -/
def Reads (d : Deck) (t : Tree) (s : Loose) : Prop := t.readText (d.inRoot s.name) = .ok s.content

theorem Reads.fits {s : Loose} (h : d.Reads t s) (ht : t.Plain) :
    (d.inRoot s.name).fits = true := by
  obtain ⟨bytes, hread, -⟩ := Outcome.bind_eq_ok.1 h
  obtain ⟨⟨k, e⟩, hentry, -⟩ := Outcome.bind_eq_ok.1 hread
  rw [Tree.entryAt] at hentry
  split at hentry
  · next hp => exact ht.fits_of_locate hp
  · cases hentry
  · cases hentry

/-- The blocks of stylesheets that can all be read, or the error of one that cannot. -/
theorem newBlocks_cases (canonical : Text) (o : Outcome) (names : List Text) :
    (∃ sheets said, sheets.map Loose.name = names ∧ (∀ s ∈ sheets, d.Reads t s) ∧
      d.newBlocks canonical names ⟨t, o⟩ =
        (⟨[], .ok ((fresh canonical sheets).flatMap Loose.block)⟩, ⟨t, o.saying said⟩)) ∨
    ∃ name ∈ names, ∃ e said, t.readText (d.inRoot name) = .error e ∧
      d.newBlocks canonical names ⟨t, o⟩ = (⟨[], .error e⟩, ⟨t, o.saying said⟩) := by
  induction names generalizing o with
  | nil => exact .inl ⟨[], [], rfl, by simp, by rw [o.saying_nil]; rfl⟩
  | cons name names ih =>
    rw [newBlocks]
    cases hread : t.readText (d.inRoot name) with
    | error e =>
      refine .inr ⟨name, List.mem_cons_self .., e, [], hread, ?_⟩
      rw [Action.bind_find_of_error (s := (⟨t, o⟩ : Progress)) hread, o.saying_nil]
    | ok content =>
      rw [Action.bind_find_of_ok (s := (⟨t, o⟩ : Progress)) hread]
      by_cases hholds : Text.holds (block name content) canonical = true
      · rw [if_pos hholds, StepAction.bind_report]
        generalize name ++ " already integrated".toList = message
        rcases ih (o.saying [message])
          with ⟨sheets, said, hnames, hreads, heq⟩ | ⟨bad, hbad, e, said, he, heq⟩
        · refine .inl ⟨⟨name, content⟩ :: sheets, message :: said, by rw [List.map_cons, hnames],
            ?_, ?_⟩
          · exact List.forall_mem_cons.2 ⟨hread, hreads⟩
          · rw [heq, Outcome.saying_saying, fresh_cons_of_holds (s := ⟨name, content⟩) hholds]
            rfl
        · refine .inr ⟨bad, List.mem_cons_of_mem _ hbad, e, message :: said, he, ?_⟩
          rw [heq, Outcome.saying_saying]
          rfl
      · rw [if_neg hholds, StepAction.bind_report]
        generalize "Integrating ".toList ++ name = message
        rcases ih (o.saying [message])
          with ⟨sheets, said, hnames, hreads, heq⟩ | ⟨bad, hbad, e, said, he, heq⟩
        · refine .inl ⟨⟨name, content⟩ :: sheets, message :: said, by rw [List.map_cons, hnames],
            ?_, ?_⟩
          · exact List.forall_mem_cons.2 ⟨hread, hreads⟩
          · rw [Action.bind_of_silent heq, Outcome.saying_saying,
              fresh_cons_of_not_holds (s := ⟨name, content⟩) hholds]
            rfl
        · refine .inr ⟨bad, List.mem_cons_of_mem _ hbad, e, message :: said, he, ?_⟩
          rw [Action.bind_of_error heq, Outcome.saying_saying]
          rfl

/-! ## Removing the loose files -/

theorem IsLoose.erase (ht : t.Plain) (h : d.IsLoose t l name) {other : Text}
    (ho : d.IsLoose t l other) (hne : name ≠ other) :
    d.IsLoose (t.erase (l ++ [other])) l name := by
  obtain ⟨hs, hn, f, hf⟩ := h
  obtain ⟨-, -, g, hg⟩ := ho
  exact ⟨hs, hn, f, by rw [ht.get?_erase hg, if_neg (by simpa using hne), hf]⟩

/-- Removing the loose files removes them and nothing else, and cannot fail. -/
theorem forM_unlink_eq (ht : t.Plain) (hl : t.Leads d.path l .directory) {names : List Text}
    (hnodup : names.Nodup) (hloose : ∀ name ∈ names, d.IsLoose t l name)
    (hfits : ∀ name ∈ names, (d.inRoot name).fits = true) (o : Outcome) :
    (names.forM fun name => do
        onTree (Action.change (·.unlink (d.path.append ⟨[], [name]⟩)))
        report ("Removed ".toList ++ name)) ⟨t, o⟩ =
      (⟨[], .ok ()⟩,
        ⟨t.eraseAll (names.map fun name => l ++ [name]),
          o.saying (names.map ("Removed ".toList ++ ·))⟩) := by
  induction names generalizing t o with
  | nil => simp [Tree.eraseAll]
  | cons name names ih =>
    obtain ⟨hnot, hnodup⟩ := List.nodup_cons.1 hnodup
    obtain ⟨hname, hnames⟩ := List.forall_mem_cons.1 hloose
    obtain ⟨hshort, hfits⟩ := List.forall_mem_cons.1 hfits
    obtain ⟨f, hf, hleads⟩ := hname.leads ht hl hshort
    have hdirs (m : Location) (hm : t.get? m = some .directory) :
        (t.erase (l ++ [name])).get? m = some .directory := by
      rw [ht.get?_erase hf, if_neg (by rintro rfl; rw [hf] at hm; cases hm), hm]
    have ht' : (t.erase (l ++ [name])).Plain := ht.erase (by simp)
    have hnames' (other : Text) (ho : other ∈ names) : d.IsLoose (t.erase (l ++ [name])) l other :=
      (hnames other ho).erase ht hname (fun heq => hnot (heq ▸ ho))
    have hunlink : t.unlink (d.path.append ⟨[], [name]⟩) = .ok (t.erase (l ++ [name])) :=
      hleads.unlink_eq ht
    have hfirst : (do
        onTree (Action.change (·.unlink (d.path.append ⟨[], [name]⟩)))
        report ("Removed ".toList ++ name) : StepAction Unit) ⟨t, o⟩ =
          (⟨[], .ok ()⟩, ⟨t.erase (l ++ [name]), o.saying ["Removed ".toList ++ name]⟩) := by
      rw [StepAction.bind_change_of_ok hunlink, StepAction.report_apply]
    rw [Action.forM_cons, Action.bind_of_silent hfirst,
      ih ht' (hl.mono_directory ht ht' rfl hdirs) hnodup hnames'
      hfits, Outcome.saying_saying]
    rfl

/-! ## The ends of a merge -/

/-- The loose stylesheets of a deck, each once and with its content, in the order of their names. -/
structure IsListing (d : Deck) (t : Tree) (l : Location) (sheets : List Loose) : Prop where
  sorted : (sheets.map Loose.name).Pairwise fun a b => Text.upTo a b = true
  once : (sheets.map Loose.name).Nodup
  mem_iff : ∀ name, name ∈ sheets.map Loose.name ↔ d.IsLoose t l name
  reads : ∀ s ∈ sheets, d.Reads t s

theorem IsListing.file (ht : t.Plain) (hl : t.Leads d.path l .directory) {sheets : List Loose}
    (h : d.IsListing t l sheets) {s : Loose} (hs : s ∈ sheets) :
    ∃ f, t.get? (l ++ [s.name]) = some (.file f) ∧ Utf8.readLines f.bytes = .ok s.content := by
  obtain ⟨f, hf, hleads⟩ :=
    ((h.mem_iff s.name).1 (List.mem_map_of_mem hs)).leads ht hl ((h.reads s hs).fits ht)
  exact ⟨f, hf, hleads.readLines_of_readText (h.reads s hs)⟩

/-- The tree in which a text is written behind the canonical stylesheet; an empty one is not
written. -/
def written (t : Tree) (k : Location) (old : File) (added : Text) : Tree :=
  if added = [] then t else t.put k (.file ⟨old.bytes ++ Utf8.encode added, none⟩)

/-- The tree in which the loose stylesheets are merged into the canonical one. -/
def merged (t : Tree) (l k : Location) (old : File) (canonical : Text) (sheets : List Loose) :
    Tree :=
  (written t k old (addition canonical sheets)).eraseAll (sheets.map fun s => l ++ [s.name])

section Written

variable {added : Text}

theorem get?_written (hk : t.get? k = some (.file old)) (m : Location) :
    (written t k old added).get? m =
      if m = k ∧ added ≠ [] then some (.file ⟨old.bytes ++ Utf8.encode added, none⟩)
        else t.get? m := by
  rw [written]
  split
  · next h => rw [if_neg (fun hm => hm.2 h)]
  · next h =>
    rw [Tree.get?_put_file hk]
    simp only [h, ne_eq, not_false_eq_true, and_true]

theorem base_written : (written t k old added).base = t.base := by
  rw [written]
  split <;> rfl

variable (added) in
theorem plain_written (ht : t.Plain) (hk : t.get? k = some (.file old)) :
    (written t k old added).Plain := by
  rw [written]
  split
  · exact ht
  · exact ht.put_file hk _

theorem directory_written (hk : t.get? k = some (.file old)) (m : Location)
    (hm : t.get? m = some .directory) :
    (written t k old added).get? m = some .directory := by
  rw [get?_written hk, if_neg, hm]
  rintro ⟨rfl, -⟩
  rw [hk] at hm
  cases hm

theorem IsLoose.written (ht : t.Plain) (hl : t.Leads d.path l .directory)
    (hk : t.Leads d.stylesheet k (.file old)) (h : d.IsLoose t l name) :
    d.IsLoose (written t k old added) l name := by
  obtain ⟨hs, hn, f, hf⟩ := h
  refine ⟨hs, hn, f, ?_⟩
  rw [get?_written (hk.get?_eq ht), if_neg (fun hm => ne_stylesheet ht hl hk hn l hm.1.symm), hf]

end Written

section Merged

variable {sheets : List Loose} (ht : t.Plain) (hl : t.Leads d.path l .directory)
  (hk : t.Leads d.stylesheet k (.file old)) (hsheets : d.IsListing t l sheets)

include ht hl hk hsheets

variable (canonical) in
theorem get?_merged (m : Location) :
    (merged t l k old canonical sheets).get? m =
      if ∃ s ∈ sheets, m = l ++ [s.name] then none
      else if m = k ∧ addition canonical sheets ≠ [] then
        some (.file ⟨old.bytes ++ Utf8.encode (addition canonical sheets), none⟩)
      else t.get? m := by
  have hfile := hk.get?_eq ht
  have hfiles (m : Location) (hm : m ∈ sheets.map fun s => l ++ [s.name]) :
      ∃ f, (written t k old (addition canonical sheets)).get? m = some (.file f) := by
    obtain ⟨s, hs, rfl⟩ := List.mem_map.1 hm
    obtain ⟨-, -, hf⟩ := ((hsheets.mem_iff s.name).1 (List.mem_map_of_mem hs)).written ht hl hk
    exact hf
  rw [merged, (plain_written _ ht hfile).get?_eraseAll hfiles, get?_written hfile]
  simp only [List.mem_map, eq_comm]

omit hl hsheets in
theorem plain_merged : (merged t l k old canonical sheets).Plain :=
  (plain_written _ ht (hk.get?_eq ht)).eraseAll (by simp)

omit ht hl hk hsheets in
theorem base_merged : (merged t l k old canonical sheets).base = t.base := by
  rw [merged, Tree.base_eraseAll, base_written]

variable (canonical) in
/-- When the blocks have been written, the loose files are still there, and removing them makes the
merged tree. -/
theorem forM_unlink_written (o : Outcome) :
    ((sheets.map Loose.name).forM fun name => do
        onTree (Action.change (·.unlink (d.path.append ⟨[], [name]⟩)))
        report ("Removed ".toList ++ name)) ⟨written t k old (addition canonical sheets), o⟩ =
      (⟨[], .ok ()⟩, ⟨merged t l k old canonical sheets,
        o.saying ((sheets.map Loose.name).map ("Removed ".toList ++ ·))⟩) := by
  have hfile := hk.get?_eq ht
  have hplain := plain_written (addition canonical sheets) ht hfile
  have hthere (name : Text) (hname : name ∈ sheets.map Loose.name) :
      d.IsLoose (written t k old (addition canonical sheets)) l name :=
    ((hsheets.mem_iff name).1 hname).written ht hl hk
  have hfits (name : Text) (hname : name ∈ sheets.map Loose.name) :
      (d.inRoot name).fits = true := by
    obtain ⟨s, hs, rfl⟩ := List.mem_map.1 hname
    exact (hsheets.reads s hs).fits ht
  rw [forM_unlink_eq hplain (hl.mono_directory ht hplain base_written (directory_written hfile))
    hsheets.once hthere
    hfits, List.map_map]
  rfl

theorem directory_merged (m : Location) (hm : t.get? m = some .directory) :
    (merged t l k old canonical sheets).get? m = some .directory := by
  rw [get?_merged canonical ht hl hk hsheets, if_neg, if_neg, hm]
  · rintro ⟨rfl, -⟩
    rw [hk.get?_eq ht] at hm
    cases hm
  · rintro ⟨s, hs, rfl⟩
    obtain ⟨f, hf, -⟩ := hsheets.file ht hl hs
    rw [hf] at hm
    cases hm

/-- Nothing is there after a merge that was not there before. -/
theorem isSome_of_merged {m : Location} (h : ((merged t l k old canonical sheets).get? m).isSome) :
    (t.get? m).isSome := by
  rw [get?_merged canonical ht hl hk hsheets] at h
  split at h
  · cases h
  · split at h
    · next hmk => rw [hmk.1, hk.get?_eq ht]; rfl
    · exact h

end Merged

/-- The ends that a merge can come to. -/
inductive MergeEnd (d : Deck) (t : Tree) (l : Location) (o : Outcome) :
    Attempt Failure Unit × Progress → Prop where
  /-- There is no canonical stylesheet. -/
  | noStylesheet {log : Log} {said : List Text}
      (h : t.ask Tree.isFile true d.stylesheet = .ok false) :
    MergeEnd d t l o (⟨log, .ok ()⟩, ⟨t, o.saying said⟩)
  /-- The path of the canonical stylesheet, or of an entry of the deck's directory, is too long. -/
  | tooLong {text : Text} (h : (∃ e, t.ask Tree.isFile true d.stylesheet = .error e) ∨
      t.ask Tree.isFile true d.stylesheet = .ok true ∧ d.overlong t l ≠ []) :
    MergeEnd d t l o (⟨[], .error (.refused .nameTooLong text)⟩, ⟨t, o⟩)
  /-- Nothing is loose. -/
  | nothingLoose {said : List Text} (hthere : t.ask Tree.isFile true d.stylesheet = .ok true)
      (hshort : d.overlong t l = []) (h : ∀ name, ¬d.IsLoose t l name) :
    MergeEnd d t l o (⟨[], .ok ()⟩, ⟨t, o.saying said⟩)
  /-- There is something to merge, but the canonical stylesheet or a loose one is no text. -/
  | undecodable {k m : Location} {old f : File} {name : Text} {e : Utf8.Error} {said : List Text}
      (hk : t.Leads d.stylesheet k (.file old)) (hname : d.IsLoose t l name)
      (hm : t.get? m = some (.file f)) (h : Utf8.readLines f.bytes = .error e)
      (hp : m = k ∨ ∃ name, d.IsLoose t l name ∧ m = l ++ [name]) :
    MergeEnd d t l o (⟨[], .error (.undecodable e)⟩, ⟨t, o.saying said⟩)
  /-- The blocks that were missing are written, and the loose files are gone. -/
  | merged {k : Location} {old : File} {canonical : Text} {sheets : List Loose} {said : List Text}
      (hk : t.Leads d.stylesheet k (.file old)) (hshort : d.overlong t l = [])
      (hread : Utf8.readLines old.bytes = .ok canonical) (hne : sheets ≠ [])
      (hsheets : d.IsListing t l sheets) :
    MergeEnd d t l o (⟨[], .ok ()⟩, ⟨merged t l k old canonical sheets, (o.saying said).changing⟩)

theorem mergeStylesheets_cases (ht : t.Plain) (hl : t.Leads d.path l .directory) (o : Outcome) :
    d.MergeEnd t l o (d.mergeStylesheets ⟨t, o⟩) := by
  rw [mergeStylesheets]
  rcases Tree.ask_cases Tree.isFile true d.stylesheet t with hthere | hthere
  swap
  · rw [StepAction.bind_ask_of_error hthere]
    exact .tooLong (.inl ⟨_, hthere⟩)
  rw [StepAction.bind_ask_of_ok hthere]
  cases hfile : t.isFile d.stylesheet with
  | false => exact .noStylesheet (hfile ▸ hthere)
  | true =>
    rw [hfile] at hthere
    obtain ⟨k, old, hk⟩ := Tree.isFile_iff.1 hfile
    rw [if_neg (by simp)]
    rcases looseStylesheets_cases ht hl
      with ⟨hshort, names, hnames, hsorted, hnodup, hmem⟩ | ⟨name, rest, hlong, hloose⟩
    swap
    · rw [Action.bind_find_of_error (s := (⟨t, o⟩ : Progress)) hloose]
      exact .tooLong (.inr ⟨hthere, by rw [hlong]; exact List.cons_ne_nil _ _⟩)
    rw [Action.bind_find_of_ok (s := (⟨t, o⟩ : Progress)) hnames]
    by_cases hne : names = []
    · rw [if_pos hne, StepAction.report_apply]
      exact .nothingLoose hthere hshort fun name hname => by simpa [hne] using (hmem name).2 hname
    rw [if_neg hne]
    obtain ⟨name, hname⟩ := List.exists_mem_of_ne_nil names hne
    cases hread : Utf8.readLines old.bytes with
    | error e =>
      have hcanonical : t.readText d.stylesheet = .error (.undecodable e) := by
        rw [hk.readText_eq, hread]; rfl
      have hend : d.MergeEnd t l o (⟨[], .error (.undecodable e)⟩, ⟨t, o.saying []⟩) :=
        .undecodable hk ((hmem name).1 hname) (hk.get?_eq ht) hread (.inl rfl)
      rw [o.saying_nil] at hend
      rwa [Action.bind_find_of_error (s := (⟨t, o⟩ : Progress)) hcanonical]
    | ok canonical =>
      have hcanonical :
          t.readText d.stylesheet = .ok canonical := by rw [hk.readText_eq, hread]; rfl
      rw [Action.bind_find_of_ok (s := (⟨t, o⟩ : Progress)) hcanonical]
      rcases newBlocks_cases canonical o names
        with ⟨sheets, said, rfl, hreads, hblocks⟩ | ⟨bad, hbad, e, said, he, hblocks⟩
      · rw [Action.bind_of_silent hblocks]
        have hsheets : d.IsListing t l sheets := ⟨hsorted, hnodup, hmem, hreads⟩
        have hremove := forM_unlink_written canonical ht hl hk hsheets
        by_cases hfresh : fresh canonical sheets = []
        · have hwritten : written t k old (addition canonical sheets) = t :=
            if_pos (addition_eq_nil_iff.2 hfresh)
          rw [if_neg (not_not_intro (flatMap_block_eq_nil_iff.2 hfresh))]
          beta_reduce
          rw [hwritten] at hremove
          rw [Action.bind_of_silent (hremove _), StepAction.reportChange_apply,
            Outcome.saying_saying]
          exact .merged hk hshort hread (by simpa using hne) hsheets
        · have hadd :
              (if Text.holds (Text.strip banner) canonical =
                true then (fresh canonical sheets).flatMap Loose.block
              else banner ++ (fresh canonical sheets).flatMap Loose.block) =
                addition canonical sheets := by
            rw [addition, if_neg hfresh]
            split <;> rfl
          have hwritten : t.append d.stylesheet (Utf8.encode (addition canonical sheets)) =
              .ok (written t k old (addition canonical sheets)) := by
            rw [written, if_neg (mt addition_eq_nil_iff.1 hfresh)]
            exact hk.modifyFile_eq _
          rw [if_pos (mt flatMap_block_eq_nil_iff.1 hfresh), hadd,
            StepAction.bind_change_of_ok hwritten, StepAction.bind_report]
          beta_reduce
          rw [Action.bind_of_silent (hremove _), StepAction.reportChange_apply,
            Outcome.saying_saying, Outcome.saying_saying]
          exact .merged hk hshort hread (by simpa using hne) hsheets
      · rw [Action.bind_of_error hblocks]
        have hloose := (hmem bad).1 hbad
        obtain ⟨f, e', hf, hlines, rfl⟩ := hloose.undecodable ht hl (hloose.fits hshort) he
        exact .undecodable hk hloose hf hlines (.inr ⟨bad, hloose, rfl⟩)

end SlideDeck.Deck
