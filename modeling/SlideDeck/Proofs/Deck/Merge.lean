import SlideDeck.Proofs.Deck.Stylesheets
import SlideDeck.Proofs.Text.Utf8
import SlideDeck.Proofs.Tree.Location

/-!
# Merging stylesheets once and again

A merge writes the blocks that are missing behind what the canonical stylesheet held, removes the
loose files and leaves everything else as it is (`mergeStylesheets_merges`). What it writes is read
again, with line feeds for all line ends; the block of a stylesheet is found there as it was written
if there is no carriage return in the stylesheet's name, and only then, since a file name is written
as it is.

So a merge can be repeated after some removals have failed (`mergeStylesheets_again_iff`): the loose
files that are left are taken for merged and only removed, but for those with a carriage return in
their names, which are merged a second time.
-/

namespace SlideDeck.Deck

variable {d : Deck} {t u : Tree} {l k : Location} {name canonical raw : Text} {old new : File}
  {sheets : List Loose} {s : Loose} {o : Outcome}

/-- A deck in the directory `deck`. -/
def sampleDeck : Deck := ⟨⟨[], ["deck".toList]⟩, .defaults .here⟩

/-- A file of the deck in `deck`. -/
def sampleFile (names : List Text) (text : Text) : Location × Entry :=
  ("deck".toList :: names, .file ⟨Utf8.encode text, none⟩)

/-- A deck with a canonical stylesheet and another one, in the name of which there is a carriage
return. -/
def returnInName : Tree where
  base := []
  entries := [(["deck".toList], .directory), (["deck".toList, "lib".toList], .directory),
    sampleFile ["lib".toList, "offline-v2.css".toList] "p{}\n".toList,
    sampleFile ["a\rb.css".toList] "q{}".toList]

/-! ## Reading what has been written -/

/-- A block runs from one line feed to another; a carriage return in it is one of the name or of the
content. -/
theorem exists_block_eq (s : Loose) :
    ∃ before behind : Text, '\r' ∉ before ∧ '\r' ∉ behind ∧
      s.block = '\n' :: (before ++ s.name ++ behind ++ s.content ++ ['\n']) := by
  have hopen : "\n/* Integrated from ".toList = '\n' :: "/* Integrated from ".toList := by decide
  have hclose : "\n".toList = ['\n'] := by decide
  refine ⟨"/* Integrated from ".toList, " */\n".toList, by decide, by decide, ?_⟩
  unfold Loose.block block
  generalize "/* Integrated from ".toList = before at hopen ⊢
  generalize "\n/* Integrated from ".toList = opening at hopen ⊢
  generalize " */\n".toList = behind
  generalize "\n".toList = closing at hclose ⊢
  rw [hopen, hclose]
  rfl

theorem head?_block (s : Loose) : s.block.head? = some '\n' := by
  obtain ⟨before, behind, -, -, heq⟩ := exists_block_eq s
  rw [heq, List.head?_cons]

theorem getLast?_block (s : Loose) : s.block.getLast? = some '\n' := by
  obtain ⟨before, behind, -, -, heq⟩ := exists_block_eq s
  rw [heq, ← List.cons_append, List.getLast?_concat]

theorem mem_block_iff (h : '\r' ∉ s.content) : '\r' ∈ s.block ↔ '\r' ∈ s.name := by
  obtain ⟨before, behind, hbefore, hbehind, heq⟩ := exists_block_eq s
  simp [heq, hbefore, hbehind, h]

/-- A block that is missing is written. -/
theorem block_infix_addition (h : s ∈ fresh canonical sheets) :
    s.block <:+: addition canonical sheets := by
  rw [addition, if_neg (List.ne_nil_of_mem h)]
  exact (List.infix_of_mem_flatten (List.mem_map_of_mem h)).trans (List.suffix_append ..).isInfix

theorem holds_iff_isInfix {pat s : Text} : Text.Holds pat s ↔ pat <:+: s :=
  ⟨fun ⟨before, after, h⟩ => ⟨before, after, h.symm⟩, fun ⟨before, after, h⟩ =>
    ⟨before, after, h.symm⟩⟩

/-- Every block is found when the stylesheet is read again, with line feeds for the line ends in its
name. -/
theorem holds_lineFeeds_block (hs : s ∈ sheets) :
    Text.Holds (Utf8.lineFeeds s.block)
      (Utf8.lineFeeds (raw ++ addition (Utf8.lineFeeds raw) sheets)) := by
  rw [holds_iff_isInfix]
  by_cases hholds : Text.holds s.block (Utf8.lineFeeds raw) = true
  · have hin := holds_iff_isInfix.1 (Text.holds_iff.1 hholds)
    have hblock : '\r' ∉ s.block := fun hr => Utf8.not_mem_lineFeeds raw (hin.subset hr)
    rw [Utf8.lineFeeds_of_not_mem hblock]
    exact hin.trans (Utf8.lineFeeds_isPrefix raw _).isInfix
  · have hfresh : s ∈ fresh (Utf8.lineFeeds raw) sheets :=
      List.mem_filter.2 ⟨hs, by simpa using hholds⟩
    obtain ⟨before, after, heq⟩ := block_infix_addition hfresh
    rw [← heq, ← List.append_assoc, ← List.append_assoc]
    exact Utf8.lineFeeds_isInfix (head?_block s) (getLast?_block s) (raw ++ before) after

/-- A block is found as it was written unless its line ends are read as others. -/
theorem holds_block_iff (hc : '\r' ∉ s.content)
    (h : Text.Holds (Utf8.lineFeeds s.block) (Utf8.lineFeeds raw)) :
    Text.Holds s.block (Utf8.lineFeeds raw) ↔ '\r' ∉ s.name := by
  rw [← mem_block_iff hc]
  constructor
  · exact fun hholds hr => Utf8.not_mem_lineFeeds raw ((holds_iff_isInfix.1 hholds).subset hr)
  · exact fun hr => Utf8.lineFeeds_of_not_mem hr ▸ h

/-! ## Merging once -/

/-- The tree `u` is `t` with the loose stylesheets of a deck merged into the canonical one, which is
at `k` and reads `canonical`. -/
structure Merges (d : Deck) (t u : Tree) (l k : Location) (canonical : Text) (sheets : List Loose)
    (old new : File) :
    Prop where
  /-- The loose stylesheets are these, in the order of their names. -/
  listing : d.IsListing t l sheets
  /-- The canonical stylesheet is a text, if there is anything to merge. -/
  reads : sheets ≠ [] → Utf8.readLines old.bytes = .ok canonical
  file : u.get? k = some (.file new)
  /-- The missing blocks are written behind the bytes that were there. -/
  bytes : new.bytes = old.bytes ++ Utf8.encode (addition canonical sheets)
  /-- All blocks are read in the new stylesheet, as they were written if no name holds a carriage
  return. -/
  blocks : ∀ s ∈ sheets, ∃ text, Utf8.readLines new.bytes = .ok text ∧
    Text.Holds (Utf8.lineFeeds s.block) text ∧
    (Text.Holds s.block text ↔ '\r' ∉ s.name)
  /-- Nothing is left to merge. -/
  gone : ∀ s ∈ sheets, u.get? (l ++ [s.name]) = none
  none_loose : ∀ name, ¬d.IsLoose u l name
  kept : ∀ m ≠ k, (∀ name, d.IsLoose t l name → m ≠ l ++ [name]) → u.get? m = t.get? m

/-- What is read after a merge. -/
theorem holds_of_reads (hread : Utf8.readLines old.bytes = .ok canonical)
    (hbytes : new.bytes = old.bytes ++ Utf8.encode (addition canonical sheets)) :
    ∃ text, Utf8.readLines new.bytes = .ok text ∧ ∀ s ∈ sheets, '\r' ∉ s.content →
      Text.Holds (Utf8.lineFeeds s.block) text ∧ (Text.Holds s.block text ↔ '\r' ∉ s.name) := by
  obtain ⟨raw, hraw, rfl⟩ := Outcome.map_eq_ok.1 hread
  refine ⟨_, Outcome.map_eq_ok.2 ⟨_, hbytes ▸ Utf8.decode_append hraw _, rfl⟩, fun s hs hc => ?_⟩
  have hholds :
      Text.Holds (Utf8.lineFeeds s.block)
        (Utf8.lineFeeds (raw ++ addition (Utf8.lineFeeds raw) sheets)) :=
    holds_lineFeeds_block hs
  exact ⟨hholds, holds_block_iff hc hholds⟩

theorem IsListing.not_mem_content (ht : t.Plain) (hl : t.Leads d.path l .directory)
    (h : d.IsListing t l sheets) (hs : s ∈ sheets) : '\r' ∉ s.content := by
  obtain ⟨f, -, hread⟩ := h.file ht hl hs
  exact Utf8.not_mem_of_readLines hread

/-- A merge without anything to merge. -/
theorem merges_nil (hk : t.get? k = some (.file old)) (h : ∀ name, ¬d.IsLoose t l name) :
    d.Merges t t l k canonical [] old old where
  listing := ⟨List.Pairwise.nil, List.nodup_nil, fun name => ⟨nofun, fun hn => absurd hn (h name)⟩,
    nofun⟩
  reads hne := absurd rfl hne
  file := hk
  bytes := (List.append_nil _).symm
  blocks := nofun
  gone := nofun
  none_loose := h
  kept _ _ _ := rfl

theorem merges_merged (ht : t.Plain) (hl : t.Leads d.path l .directory)
    (hk : t.Leads d.stylesheet k (.file old)) (hread : Utf8.readLines old.bytes = .ok canonical)
    (hsheets : d.IsListing t l sheets) :
    ∃ new, d.Merges t (merged t l k old canonical sheets) l k canonical sheets old new := by
  have hget := get?_merged canonical ht hl hk hsheets
  have hloose (name : Text) : (∃ s ∈ sheets, s.name = name) ↔ d.IsLoose t l name := by
    rw [← hsheets.mem_iff, List.mem_map]
  have hkept (s : Loose) (hs : s ∈ sheets) : k ≠ l ++ [s.name] :=
    ne_stylesheet ht hl hk ((hloose s.name).1 ⟨s, hs, rfl⟩).2.1 l
  have hgone (s : Loose) (hs : s ∈ sheets) :
      (merged t l k old canonical sheets).get? (l ++ [s.name]) = none := by
    rw [hget, if_pos ⟨s, hs, rfl⟩]
  obtain ⟨new, hnew, hbytes⟩ :
      ∃ new, (merged t l k old canonical sheets).get? k = some (.file new) ∧
      new.bytes = old.bytes ++ Utf8.encode (addition canonical sheets) := by
    rw [hget, if_neg (fun ⟨s, hs, heq⟩ => hkept s hs heq)]
    by_cases hadd : addition canonical sheets = []
    · refine ⟨old, ?_, by rw [hadd]; exact (List.append_nil _).symm⟩
      rw [if_neg (fun h => h.2 hadd), hk.get?_eq ht]
    · exact ⟨_, if_pos ⟨rfl, hadd⟩, rfl⟩
  obtain ⟨text, htext, hholds⟩ := holds_of_reads hread hbytes
  refine ⟨new, hsheets, fun _ => hread, hnew, hbytes, ?_, hgone, ?_, ?_⟩
  · exact fun s hs => ⟨text, htext, hholds s hs (hsheets.not_mem_content ht hl hs)⟩
  · rintro name ⟨hsuffix, hne, f, hf⟩
    rw [hget] at hf
    split at hf
    · cases hf
    · next hnot =>
      split at hf
      · next hkm => exact ne_stylesheet ht hl hk hne l hkm.1.symm
      · obtain ⟨s, hs, rfl⟩ := (hloose name).2 ⟨hsuffix, hne, f, hf⟩
        exact hnot ⟨s, hs, rfl⟩
  · intro m hm hnot
    rw [hget, if_neg, if_neg (fun h => hm h.1)]
    rintro ⟨s, hs, rfl⟩
    exact hnot s.name ((hloose s.name).1 ⟨s, hs, rfl⟩) rfl

/-- A merge that succeeds writes the missing blocks behind the canonical stylesheet, removes the
loose files and leaves all else as it is. -/
theorem mergeStylesheets_merges (ht : t.Plain) (hl : t.Leads d.path l .directory)
    (hk : t.Leads d.stylesheet k (.file old))
    (hok : (d.mergeStylesheets ⟨t, o⟩).1.result = .ok ()) :
    ∃ canonical sheets new, d.Merges t (d.mergeStylesheets ⟨t, o⟩).2.tree l k canonical sheets old
      new := by
  have hend := mergeStylesheets_cases ht hl o
  generalize d.mergeStylesheets ⟨t, o⟩ = r at hend hok ⊢
  cases hend with
  | noStylesheet h => exact absurd (Tree.isFile_iff.2 ⟨k, old, hk⟩) (by simp [(Tree.ask_eq_ok h).1])
  | tooLong => cases hok
  | nothingLoose _ _ h => exact ⟨[], [], old, merges_nil (hk.get?_eq ht) h⟩
  | undecodable => cases hok
  | merged hk' _ hread hne hsheets =>
    obtain ⟨rfl, ⟨⟩⟩ := hk.unique hk'
    exact ⟨_, _, merges_merged ht hl hk hread hsheets⟩

/-- The block of a stylesheet with a carriage return in its name is not read as it was written. -/
theorem mergeStylesheets_return_in_name :
    ∃ canonical sheets new,
    sampleDeck.Merges returnInName
      (sampleDeck.mergeStylesheets ⟨returnInName, { step := [] }⟩).2.tree
      ["deck".toList] ["deck".toList, "lib".toList, "offline-v2.css".toList] canonical sheets
      ⟨Utf8.encode "p{}\n".toList, none⟩ new ∧
      ∃ s ∈ sheets, ∃ text, Utf8.readLines new.bytes = .ok text ∧ ¬Text.Holds s.block text := by
  have hcanonical :
      returnInName.Leads sampleDeck.stylesheet
        ["deck".toList, "lib".toList, "offline-v2.css".toList]
      (.file ⟨Utf8.encode "p{}\n".toList, none⟩) := rfl
  obtain ⟨canonical, sheets, new, h⟩ :=
    mergeStylesheets_merges (d := sampleDeck) (t := returnInName)
    (l := ["deck".toList]) (o := { step := [] }) (Tree.plain_of_isPlain (by decide +kernel))
      (by rfl) hcanonical
    (by decide +kernel)
  have hloose : sampleDeck.IsLoose returnInName ["deck".toList] "a\rb.css".toList :=
    ⟨by decide, by decide, ⟨Utf8.encode "q{}".toList, none⟩, by decide +kernel⟩
  obtain ⟨s, hs, hname⟩ := List.mem_map.1 ((h.listing.mem_iff _).2 hloose)
  obtain ⟨text, htext, -, hiff⟩ := h.blocks s hs
  exact ⟨canonical, sheets, new, h, s, hs, text, htext,
    fun hholds => hiff.1 hholds (by rw [hname]; decide)⟩

/-! ## Merging again -/

/-- There is nothing to merge, and no path is too long to find that out. -/
def Settled (d : Deck) (t : Tree) (l : Location) : Prop :=
  t.ask Tree.isFile true d.stylesheet = .ok false ∨
    t.ask Tree.isFile true d.stylesheet = .ok true ∧ d.overlong t l = [] ∧
      ∀ name, ¬d.IsLoose t l name

theorem Settled.elim (h : d.Settled t l) (hk : t.Leads d.stylesheet k (.file old))
    (hname : d.IsLoose t l name) : False := by
  rcases h with h | ⟨-, -, h⟩
  · exact absurd (Tree.isFile_iff.2 ⟨k, old, hk⟩) (by simp [(Tree.ask_eq_ok h).1])
  · exact h name hname

theorem Settled.fitsText (h : d.Settled t l) : d.stylesheet.fitsText = true := by
  rcases h with h | ⟨h, -⟩
  · exact (Tree.ask_eq_ok h).2
  · exact (Tree.ask_eq_ok h).2

theorem Settled.not_tooLong (h : d.Settled t l)
    (hlong : (∃ e, t.ask Tree.isFile true d.stylesheet = .error e) ∨
    t.ask Tree.isFile true d.stylesheet = .ok true ∧ d.overlong t l ≠ []) : False := by
  rcases h with h | ⟨h, hshort, -⟩ <;> rcases hlong with ⟨e, he⟩ | ⟨hthere, hlong⟩
  · cases h.symm.trans he
  · cases h.symm.trans hthere
  · cases h.symm.trans he
  · exact hlong hshort

/-- Where there is nothing to merge, a merge leaves the tree as it is. -/
theorem Settled.mergeStylesheets_eq (h : d.Settled t l) (ht : t.Plain)
    (hl : t.Leads d.path l .directory) (o : Outcome) :
    ∃ log said, d.mergeStylesheets ⟨t, o⟩ = (⟨log, .ok ()⟩, ⟨t, o.saying said⟩) := by
  have hend := mergeStylesheets_cases ht hl o
  generalize d.mergeStylesheets ⟨t, o⟩ = r at hend ⊢
  cases hend with
  | noStylesheet => exact ⟨_, _, rfl⟩
  | tooLong hlong => exact (h.not_tooLong hlong).elim
  | nothingLoose => exact ⟨_, _, rfl⟩
  | undecodable hk hname => exact (h.elim hk hname).elim
  | merged hk _ _ hne hsheets =>
    obtain ⟨s, hs⟩ := List.exists_mem_of_ne_nil _ hne
    exact (h.elim hk ((hsheets.mem_iff s.name).1 (List.mem_map_of_mem hs))).elim

/-- There is still nothing to merge when files are removed or written anew. -/
theorem Settled.mono (h : d.Settled t l) (ht : t.Plain) (hu : u.Plain) (hb : u.base = t.base)
    (hfits : d.stylesheet.fits = true) (hthere : ∀ m, (u.get? m).isSome → (t.get? m).isSome)
    (hdirs : ∀ m, u.get? m = some .directory → t.get? m = some .directory)
    (hfiles : ∀ m f, u.get? m = some (.file f) → ∃ g, t.get? m = some (.file g)) :
    d.Settled u l := by
  have hask : u.ask Tree.isFile true d.stylesheet = .ok (u.isFile d.stylesheet) :=
    hu.ask_of_fits hfits _
  cases hfile : u.isFile d.stylesheet with
  | false => exact .inl (hfile ▸ hask)
  | true =>
    obtain ⟨k, f, hk⟩ := Tree.isFile_iff.1 hfile
    obtain ⟨g, hg⟩ := hfiles k f (hk.get?_eq hu)
    have hbefore : t.Leads d.stylesheet k (.file g) := hk.mono hu ht hb.symm hdirs hg (by simp)
    rcases h with h | ⟨-, hshort, hloose⟩
    · exact absurd (Tree.isFile_iff.2 ⟨k, g, hbefore⟩) (by simp [(Tree.ask_eq_ok h).1])
    · refine .inr ⟨hfile ▸ hask, overlong_eq_nil_iff.2 fun name hname => ?_,
        fun name hname => hloose name ?_⟩
      · exact overlong_eq_nil_iff.1 hshort name (hthere _ hname)
      · obtain ⟨hsuffix, hne, f, hf⟩ := hname
        exact ⟨hsuffix, hne, hfiles _ f hf⟩

theorem Settled.same (h : d.Settled t l) (ht : t.Plain) (hu : u.Plain) (hb : u.base = t.base)
    (hs : t.Same u) :
    d.Settled u l := by
  have hask : u.ask Tree.isFile true d.stylesheet = t.ask Tree.isFile true d.stylesheet := by
    simp only [Tree.ask, Tree.isFile, Tree.file?, Tree.entry?, Tree.entryAt,
      ht.locate_same hu hb hs]
  rw [Settled, hask]
  refine h.imp_right
    (And.imp_right fun h => ⟨overlong_eq_nil_iff.2 fun name hname => ?_, fun name hname => ?_⟩)
  · exact overlong_eq_nil_iff.1 h.1 name (by rwa [← hs])
  · obtain ⟨hsuffix, hne, f, hf⟩ := hname
    exact h.2 name ⟨hsuffix, hne, f, by rw [← hs, hf]⟩

/-- After a merge there is nothing to merge. -/
theorem settled_merged (ht : t.Plain) (hl : t.Leads d.path l .directory)
    (hk : t.Leads d.stylesheet k (.file old)) (hshort : d.overlong t l = [])
    (hsheets : d.IsListing t l sheets)
    (h : d.Merges t (merged t l k old canonical sheets) l k canonical sheets old new) :
    d.Settled (merged t l k old canonical sheets) l := by
  have hleads : (merged t l k old canonical sheets).Leads d.stylesheet k (.file new) :=
    hk.mono ht (plain_merged ht hk) base_merged (directory_merged ht hl hk hsheets) h.file (by simp)
  refine .inr ⟨?_, overlong_eq_nil_iff.2 fun name hname => ?_, h.none_loose⟩
  · rw [hleads.ask_eq, Tree.isFile_iff.2 ⟨k, new, hleads⟩]
  · exact overlong_eq_nil_iff.1 hshort name (isSome_of_merged ht hl hk hsheets hname)

/-- The tree `u` is `after` with some entries of `before` put back. -/
structure PutsBack (before after u : Tree) (ls : List Location) : Prop where
  plain : u.Plain
  base : u.base = before.base
  get?_eq : ∀ m, u.get? m = if m ∈ ls then before.get? m else after.get? m

theorem fresh_eq_nil_iff : fresh canonical sheets = [] ↔
    ∀ s ∈ sheets, Text.Holds s.block canonical := by
  simp only [fresh, List.filter_eq_nil_iff, Bool.not_eq_true', Bool.not_eq_false, Text.holds_iff]

/-- A merge of what has been put back gives the tree from before exactly if it writes nothing. -/
theorem same_merged_iff {after : Tree} {text : Text} (hu : u.Plain)
    (hl : u.Leads d.path l .directory) (hk : u.Leads d.stylesheet k (.file new))
    (hsheets : d.IsListing u l sheets) (hgone : ∀ s ∈ sheets, after.get? (l ++ [s.name]) = none)
    (hput : ∀ m, (∀ s ∈ sheets, m ≠ l ++ [s.name]) → u.get? m = after.get? m) :
    after.Same (merged u l k new text sheets) ↔ addition text sheets = [] := by
  have hget := get?_merged text hu hl hk hsheets
  constructor
  · intro hsame
    have hnot (s : Loose) (hs : s ∈ sheets) : k ≠ l ++ [s.name] :=
      ne_stylesheet hu hl hk ((hsheets.mem_iff s.name).1 (List.mem_map_of_mem hs)).2.1 l
    have hfile := hsame k
    rw [← hput k hnot, hk.get?_eq hu, hget, if_neg (fun ⟨s, hs, heq⟩ => hnot s hs heq)] at hfile
    by_contra hadd
    rw [if_pos ⟨rfl, hadd⟩] at hfile
    have hbytes := congrArg File.bytes (Entry.file.inj (Option.some.inj hfile))
    exact hadd (Utf8.encode_eq_nil_iff.1 (List.append_right_eq_self.1 hbytes))
  · intro hadd m
    rw [hget]
    by_cases hm : ∃ s ∈ sheets, m = l ++ [s.name]
    · obtain ⟨s, hs, rfl⟩ := hm
      rw [if_pos ⟨s, hs, rfl⟩, hgone s hs]
    · rw [if_neg hm, if_neg (fun h => h.2 hadd), hput m (fun s hs heq => hm ⟨s, hs, heq⟩)]

section Again

variable {after : Tree} {names : List Text} {sheets' : List Loose}

/-- What is put back after a merge is loose again, and nothing else is. -/
theorem PutsBack.isLoose_iff (h : PutsBack t after u (names.map fun name => l ++ [name]))
    (hnames : ∀ name ∈ names, d.IsLoose t l name) (hnone : ∀ name, ¬d.IsLoose after l name) :
    d.IsLoose u l name ↔ name ∈ names := by
  have hmem : l ++ [name] ∈ names.map (fun name => l ++ [name]) ↔ name ∈ names := by simp
  constructor
  · rintro ⟨hsuffix, hne, f, hf⟩
    by_contra hnot
    rw [h.get?_eq, if_neg (mt hmem.1 hnot)] at hf
    exact hnone name ⟨hsuffix, hne, f, hf⟩
  · intro hname
    obtain ⟨hsuffix, hne, f, hf⟩ := hnames name hname
    exact ⟨hsuffix, hne, f, by rw [h.get?_eq, if_pos (hmem.2 hname), hf]⟩

/-- What is put back reads as before. -/
theorem PutsBack.mem_listing (h : PutsBack t after u (names.map fun name => l ++ [name]))
    (ht : t.Plain) (hl : t.Leads d.path l .directory) (hl' : u.Leads d.path l .directory)
    (hnames : ∀ name ∈ names, d.IsLoose t l name) (hnone : ∀ name, ¬d.IsLoose after l name)
    (hsheets : d.IsListing t l sheets) (hsheets' : d.IsListing u l sheets') (hs : s ∈ sheets') :
    s ∈ sheets := by
  have hname : s.name ∈ names :=
    (h.isLoose_iff hnames hnone).1 ((hsheets'.mem_iff s.name).1 (List.mem_map_of_mem hs))
  obtain ⟨s', hs', heq⟩ := List.mem_map.1 ((hsheets.mem_iff s.name).2 (hnames _ hname))
  obtain ⟨f, hf, hread⟩ := hsheets'.file h.plain hl' hs
  obtain ⟨f', hf', hread'⟩ := hsheets.file ht hl hs'
  rw [h.get?_eq, if_pos (List.mem_map_of_mem hname), ← heq, hf'] at hf
  cases hf
  rw [hread] at hread'
  obtain ⟨name, content⟩ := s
  obtain ⟨name', content'⟩ := s'
  cases heq
  cases hread'
  exact hs'

/-- Merging again what a merge has failed to remove. -/
theorem Merges.again (h : d.Merges t after l k canonical sheets old new) (ht : t.Plain)
    (hl : t.Leads d.path l .directory) (hk : u.Leads d.stylesheet k (.file new))
    (hl' : u.Leads d.path l .directory) (hshort : d.overlong u l = []) (hne : sheets ≠ [])
    (hnames : ∀ name ∈ names, d.IsLoose t l name)
    (hu : PutsBack t after u (names.map fun name => l ++ [name])) (o : Outcome) :
    (d.mergeStylesheets ⟨u, o⟩).1.result = .ok () ∧
      (after.Same (d.mergeStylesheets ⟨u, o⟩).2.tree ↔ ∀ name ∈ names, '\r' ∉ name) := by
  have hloose (name : Text) : d.IsLoose u l name ↔ name ∈ names :=
    hu.isLoose_iff hnames h.none_loose
  have hput (m : Location) (hm : ∀ name ∈ names, m ≠ l ++ [name]) : u.get? m = after.get? m := by
    rw [hu.get?_eq, if_neg]
    simpa [eq_comm] using hm
  obtain ⟨s₀, hs₀⟩ := List.exists_mem_of_ne_nil _ hne
  obtain ⟨text, htext, -⟩ := h.blocks s₀ hs₀
  have hend := mergeStylesheets_cases hu.plain hl' o
  generalize d.mergeStylesheets ⟨u, o⟩ = r at hend ⊢
  cases hend with
  | noStylesheet hno =>
      exact absurd (Tree.isFile_iff.2 ⟨k, new, hk⟩) (by simp [(Tree.ask_eq_ok hno).1])
  | tooLong hlong =>
    rcases hlong with ⟨e, he⟩ | ⟨-, hlong⟩
    · cases (hk.ask_eq Tree.isFile).symm.trans he
    · exact absurd hshort hlong
  | nothingLoose _ _ hno =>
    have hnil (name : Text) : name ∉ names := fun hname => hno name ((hloose name).2 hname)
    exact ⟨rfl, fun _ name hname => absurd hname (hnil name), fun _ m => hput m fun name hname =>
      absurd hname (hnil name)⟩
  | undecodable hk' _ hm hbad hplace =>
    exfalso
    rcases hplace with rfl | ⟨name, hname, rfl⟩
    · obtain ⟨rfl, ⟨⟩⟩ := hk.unique hk'
      rw [hk.get?_eq hu.plain] at hm
      cases hm
      rw [htext] at hbad
      cases hbad
    · have hin := (hloose name).1 hname
      obtain ⟨s, hs, rfl⟩ := List.mem_map.1 ((h.listing.mem_iff name).2 (hnames name hin))
      obtain ⟨f, hf, hread⟩ := h.listing.file ht hl hs
      rw [hu.get?_eq, if_pos (List.mem_map_of_mem hin), hf] at hm
      cases hm
      rw [hread] at hbad
      cases hbad
  | @merged k' new' text' left _ hk' _ hread' _ hsheets' =>
    obtain ⟨rfl, ⟨⟩⟩ := hk.unique hk'
    rw [htext] at hread'
    cases hread'
    have hin (s : Loose) (hs : s ∈ left) :
        s ∈ sheets := hu.mem_listing ht hl hl' hnames h.none_loose h.listing hsheets' hs
    have hname (name : Text) : (∃ s ∈ left, s.name = name) ↔ name ∈ names := by
      rw [← hloose, ← hsheets'.mem_iff, List.mem_map]
    refine ⟨rfl, ?_⟩
    rw [same_merged_iff hu.plain hl' hk hsheets' (fun s hs => h.gone s (hin s hs))
      (fun m hm => hput m fun name hn => by
        obtain ⟨s, hs, rfl⟩ := (hname name).2 hn; exact hm s hs),
      addition_eq_nil_iff, fresh_eq_nil_iff]
    have hblock (s : Loose) (hs : s ∈ sheets) : Text.Holds s.block text ↔ '\r' ∉ s.name := by
      obtain ⟨text', htext', -, hiff⟩ := h.blocks s hs
      rw [htext] at htext'
      cases htext'
      exact hiff
    constructor
    · intro hall name hn
      obtain ⟨s, hs, rfl⟩ := (hname name).2 hn
      exact (hblock s (hin s hs)).1 (hall s hs)
    · exact fun hall s hs => (hblock s (hin s hs)).2 (hall s.name ((hname s.name).1 ⟨s, hs, rfl⟩))

end Again

/-- A merge after which some loose files are still there can be repeated, and the files are removed
then. The canonical stylesheet stays as it is exactly if none of them has a carriage return in its
name. -/
theorem mergeStylesheets_again_iff (ht : t.Plain) (hl : t.Leads d.path l .directory)
    (hok : (d.mergeStylesheets ⟨t, o⟩).1.result = .ok ()) {names : List Text}
    (hnames : ∀ name ∈ names, d.IsLoose t l name)
    (hgone : ∀ name ∈ names, (d.mergeStylesheets ⟨t, o⟩).2.tree.get? (l ++ [name]) = none)
    (hu : PutsBack t (d.mergeStylesheets ⟨t, o⟩).2.tree u (names.map fun name => l ++ [name]))
    (o' : Outcome) :
    (d.mergeStylesheets ⟨u, o'⟩).1.result = .ok () ∧
      ((d.mergeStylesheets ⟨t, o⟩).2.tree.Same (d.mergeStylesheets ⟨u, o'⟩).2.tree ↔
        ∀ name ∈ names, '\r' ∉ name) := by
  have hend := mergeStylesheets_cases ht hl o
  generalize d.mergeStylesheets ⟨t, o⟩ = r at hend hok hgone hu ⊢
  -- Where nothing was merged, nothing can be put back.
  have hsettled (hd : d.Settled t l) (hr : r.2.tree = t) :
      (d.mergeStylesheets ⟨u, o'⟩).1.result = .ok () ∧
      (r.2.tree.Same (d.mergeStylesheets ⟨u, o'⟩).2.tree ↔ ∀ name ∈ names, '\r' ∉ name) := by
    have hnil (name : Text) : name ∉ names := fun hname => by
      obtain ⟨-, -, f, hf⟩ := hnames name hname
      have := hgone name hname
      rw [hr, hf] at this
      cases this
    have hsame : t.Same u := fun m => by
      rw [hu.get?_eq, hr]
      split <;> rfl
    obtain ⟨log, said, heq⟩ := (hd.same ht hu.plain hu.base hsame).mergeStylesheets_eq hu.plain
      (hl.same ht hu.plain hu.base hsame) o'
    rw [heq, hr]
    exact ⟨rfl, fun _ name hname => absurd hname (hnil name), fun _ => hsame⟩
  cases hend with
  | noStylesheet h => exact hsettled (.inl h) rfl
  | tooLong => cases hok
  | nothingLoose hthere hshort h => exact hsettled (.inr ⟨hthere, hshort, h⟩) rfl
  | undecodable => cases hok
  | @merged k old canonical sheets _ hk hshort hread hne hsheets =>
    obtain ⟨new, hmerges⟩ := merges_merged ht hl hk hread hsheets
    have hdirs (m : Location) (hm : t.get? m = some .directory) : u.get? m = some .directory := by
      rw [hu.get?_eq]
      split
      · exact hm
      · exact directory_merged ht hl hk hsheets m hm
    have hfile : u.get? k = some (.file new) := by
      rw [hu.get?_eq, if_neg, hmerges.file]
      rw [List.mem_map]
      exact fun ⟨name, hname, heq⟩ => ne_stylesheet ht hl hk (hnames name hname).2.1 l heq.symm
    have hthere (m : Location) (hm : (u.get? m).isSome) : (t.get? m).isSome := by
      rw [hu.get?_eq] at hm
      split at hm
      · exact hm
      · exact isSome_of_merged ht hl hk hsheets hm
    exact hmerges.again ht hl (hk.mono ht hu.plain hu.base hdirs hfile (by simp))
      (hl.mono_directory ht hu.plain hu.base hdirs)
      (overlong_eq_nil_iff.2 fun name hname => overlong_eq_nil_iff.1 hshort name (hthere _ hname))
        hne hnames hu o'

/-- A stylesheet with a carriage return in its name that could not be removed is merged twice. -/
theorem mergeStylesheets_twice_return_in_name :
    let first := (sampleDeck.mergeStylesheets ⟨returnInName, { step := [] }⟩).2.tree
    let back := first.put ["deck".toList, "a\rb.css".toList]
        (.file ⟨Utf8.encode "q{}".toList, none⟩)
    (sampleDeck.mergeStylesheets ⟨back, { step := [] }⟩).1.result = .ok () ∧
      ¬first.Same (sampleDeck.mergeStylesheets ⟨back, { step := [] }⟩).2.tree := by
  intro first back
  have hfirst : first.get? ["deck".toList, "a\rb.css".toList] = none := by decide +kernel
  have hloose (name : Text) (hname : name ∈ ["a\rb.css".toList]) :
      sampleDeck.IsLoose returnInName ["deck".toList] name := by
    obtain rfl := List.mem_singleton.1 hname
    exact ⟨by decide, by decide, ⟨Utf8.encode "q{}".toList, none⟩, by decide +kernel⟩
  have hback : PutsBack returnInName first back
      (["a\rb.css".toList].map fun name => ["deck".toList] ++ [name]) := by
    refine ⟨Tree.plain_of_isPlain (by decide +kernel), by decide +kernel, fun m => ?_⟩
    rw [Tree.get?_put_of_ne (by rw [hfirst]; exact nofun)]
    by_cases hm : m = ["deck".toList, "a\rb.css".toList]
    · subst hm
      decide +kernel
    · rw [if_neg hm, if_neg (by simpa using hm)]
  obtain ⟨hok, hsame⟩ :=
    mergeStylesheets_again_iff (d := sampleDeck) (t := returnInName) (l := ["deck".toList])
    (o := { step := [] }) (Tree.plain_of_isPlain (by decide +kernel)) (by rfl) (by decide +kernel)
      hloose
    (fun name hname => by
      obtain rfl := List.mem_singleton.1 hname
      exact hfirst)
    hback { step := [] }
  exact ⟨hok, fun h => hsame.1 h _ (List.mem_singleton_self _) (by decide)⟩

end SlideDeck.Deck
