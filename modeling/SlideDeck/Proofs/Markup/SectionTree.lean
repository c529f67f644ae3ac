import SlideDeck.Proofs.Markup.StartTag

/-!
# Sections of a markup

The section tags of a text from left to right (`SectionTag.all`), each start tag with the id that
its attributes give it, and the trees of sections that they make (`SectionTree.read?`). A text whose
tags are not well nested has no trees: an end tag without an open section, and a section that is
still open at the end, are refused.

`SectionTree.read?_eq_some_iff` says that tags are read as the trees whose tags, from left to right,
they are.
-/

namespace SlideDeck.Markup

/-- The name of sections. -/
def sectionName : Text := "section".toList

/-- What a tag of a section does. -/
inductive SectionTag where
  /-- Opens a section, which may have an id. -/
  | opens (id : Option Text)
  | closes
  deriving DecidableEq, Repr

namespace SectionTag

/-- The id that a start tag gives. -/
def idOf (tag : Text) : Option Text :=
  match (StartTag.read tag).attributes with
  | .ok attributes => attributes.lookup "id".toList
  | .error _ => none

/-- What a tag of the name of sections does; one that ends in a slash opens a section and closes
it. -/
def ofTag : TagRole × Text → List SectionTag
  | (.opens, tag) => [.opens (idOf tag)]
  | (.both, tag) => [.opens (idOf tag), .closes]
  | (.closes, _) => [.closes]

/-- The section tags of a text. -/
def all (s : Text) : List SectionTag := (Tag.texts sectionName s).flatMap ofTag

/-- The id of a section whose start tag this is. -/
def id? : SectionTag → Option Text
  | .opens id => id
  | .closes => none

/-- Whatever follows `a`, a scan for sections finds these tags in it and goes on behind it. -/
def ReadsAs (a : Text) (tags : List SectionTag) : Prop :=
  ∃ found, Reads sectionName a found ∧ found.flatMap ofTag = tags

namespace ReadsAs

variable {a b : Text} {tags more : List SectionTag}

theorem all_eq (h : ReadsAs a tags) : all a = tags := by
  obtain ⟨found, hr, rfl⟩ := h
  rw [all, hr.texts_eq]

theorem nil : ReadsAs [] [] := ⟨[], Reads.nil, rfl⟩

theorem append (ha : ReadsAs a tags) (hb : ReadsAs b more) : ReadsAs (a ++ b) (tags ++ more) := by
  obtain ⟨found, hr, rfl⟩ := ha
  obtain ⟨found', hr', rfl⟩ := hb
  exact ⟨found ++ found', hr.append hr', List.flatMap_append⟩

theorem of_not_mem (h : '<' ∉ a) : ReadsAs a [] := ⟨[], Reads.of_not_mem h, rfl⟩

/-- A bracket and a character behind it that start neither a section nor the end of one. -/
theorem bracket {c : Char} (hc : c ≠ '<') (hs : c ≠ '/') (hp : Text.sameLetter 's' c = false)
    (h : ReadsAs a tags) :
    ReadsAs ('<' :: c :: a) tags := by
  obtain ⟨found, hr, rfl⟩ := h
  refine ⟨found, ?_, rfl⟩
  refine Reads.cons (fun rest => Tag.at?_other hs hp _) (Reads.cons (fun rest => ?_) hr)
  exact Tag.at?_of_ne hc _ _

/-- A bracket, a slash and a character behind them that do not start the end of a section. -/
theorem slash {c : Char} (hc : c ≠ '<') (hp : Text.sameLetter 's' c = false) (h : ReadsAs a tags) :
    ReadsAs ('<' :: '/' :: c :: a) tags := by
  obtain ⟨found, hr, rfl⟩ := h
  refine ⟨found, ?_, rfl⟩
  refine Reads.cons (fun rest => Tag.at?_other_end (by decide) hp _)
    (Reads.cons (fun rest => ?_) ?_)
  · exact Tag.at?_of_ne (by decide) _ _
  · exact Reads.cons (fun rest => Tag.at?_of_ne hc _ _) hr

/-- The start tag of a section, with plain attributes. -/
theorem write {attributes : List (Text × Text)} (h : ∀ x ∈ attributes, IsPlain x) :
    ReadsAs (StartTag.write sectionName attributes)
      [.opens (idOf (StartTag.write sectionName attributes))] :=
  ⟨_, Reads.tag (by simp [StartTag.write])
    (Tag.at?_write (isNamed_of_isTagName (by decide)) (by decide) h), rfl⟩

/-- The end tag of a section. -/
theorem writeEnd : ReadsAs (writeEnd sectionName) [.closes] :=
  ⟨_, Reads.tag (by simp [Markup.writeEnd])
    (Tag.at?_writeEnd (isNamed_of_isTagName (by decide)) (by decide)), rfl⟩

end ReadsAs

theorem idOf_write {attributes : List (Text × Text)} (h : ∀ x ∈ attributes, IsPlain x) :
    idOf (StartTag.write sectionName attributes)
      = (attributes.foldl (fun attrs (n, v) => Attributes.set n v attrs) []).lookup
        "id".toList := by
  have hw := @StartTag.attributes_write sectionName attributes (by decide) h []
  rw [List.append_nil] at hw
  rw [idOf, hw]

end SectionTag

/-- A section: its id, if it has one, and the sections inside of it. -/
inductive SectionTree where
  | node (id : Option Text) (inner : List SectionTree)
  deriving Repr

namespace SectionTree

/-- A section without sections inside of it. -/
def leaf (id : Option Text) : SectionTree := node id []

mutual

/-- The tags of a section from left to right. -/
def tags : SectionTree → List SectionTag
  | .node id inner => .opens id :: tagsAll inner ++ [.closes]

/-- The tags of some sections from left to right. -/
def tagsAll : List SectionTree → List SectionTag
  | [] => []
  | t :: ts => t.tags ++ tagsAll ts

end

mutual

/-- The ids of the sections without sections inside of them. -/
def leaves : SectionTree → List (Option Text)
  | .node id [] => [id]
  | .node _ (t :: ts) => t.leaves ++ leavesAll ts

/-- The ids of the sections without sections inside of them, from left to right. -/
def leavesAll : List SectionTree → List (Option Text)
  | [] => []
  | t :: ts => t.leaves ++ leavesAll ts

end

mutual

/-- How many sections stand one inside of the other. -/
def depth : SectionTree → Nat
  | .node _ inner => depthAll inner + 1

/-- The depth of the deepest of some sections. -/
def depthAll : List SectionTree → Nat
  | [] => 0
  | t :: ts => max t.depth (depthAll ts)

end

/-- Reads the rest of some tags. Of each open section the id and the sections before it are kept,
the innermost first; `done` holds the sections since the last tag that opened one, in reverse. -/
def readFrom : List (Option Text × List SectionTree) → List SectionTree → List SectionTag →
    Option (List SectionTree)
  | [], done, [] => some done.reverse
  | _ :: _, _, [] => none
  | opened, done, .opens id :: r => readFrom ((id, done) :: opened) [] r
  | (id, before) :: opened, done, .closes :: r =>
      readFrom opened (.node id done.reverse :: before) r
  | [], _, .closes :: _ => none

/-- The sections that some tags make, if they are well nested. -/
def read? (tags : List SectionTag) : Option (List SectionTree) := readFrom [] [] tags

theorem tagsAll_append (a b : List SectionTree) : tagsAll (a ++ b) = tagsAll a ++ tagsAll b := by
  induction a with
  | nil => rfl
  | cons t a ih => simp [tagsAll, ih]

mutual

theorem readFrom_tags : ∀ (t : SectionTree) (opened : List (Option Text × List SectionTree))
    (done : List SectionTree) (r : List SectionTag),
    readFrom opened done (t.tags ++ r) = readFrom opened (t :: done) r
  | .node id inner, opened, done, r => by
    rw [tags, List.append_assoc, List.cons_append, readFrom, readFrom_tagsAll inner]
    simp [readFrom]

/-- The tags of some sections are read as these sections, wherever they stand. -/
theorem readFrom_tagsAll :
    ∀ (ts : List SectionTree) (opened : List (Option Text × List SectionTree))
    (done : List SectionTree) (r : List SectionTag),
    readFrom opened done (tagsAll ts ++ r) = readFrom opened (ts.reverse ++ done) r
  | [], _, _, _ => rfl
  | t :: ts, opened, done, r => by
    rw [tagsAll, List.append_assoc, readFrom_tags t, readFrom_tagsAll ts]
    simp

end

/-- The tags read so far, from what is kept of them. -/
def tagsBefore : List (Option Text × List SectionTree) → List SectionTree → List SectionTag
  | [], done => tagsAll done.reverse
  | (id, before) :: opened, done => tagsBefore opened before ++ .opens id :: tagsAll done.reverse

/-- Nothing is lost of the tags that are read. -/
theorem tagsBefore_append_of_readFrom {opened : List (Option Text × List SectionTree)}
    {done ts : List SectionTree} {r : List SectionTag} (h : readFrom opened done r = some ts) :
    tagsBefore opened done ++ r = tagsAll ts := by
  fun_induction readFrom opened done r with
  | case1 done =>
    rw [Option.some.injEq] at h
    rw [tagsBefore, List.append_nil, h]
  | case2 => cases h
  | case3 opened done id r ih => simpa [tagsBefore, tagsAll] using ih h
  | case4 id before opened done r ih =>
    rw [← ih h]
    cases opened <;> simp [tagsBefore, tagsAll_append, tagsAll, tags]
  | case5 => cases h

/-- The sections of some tags are those whose tags, from left to right, these are. -/
theorem read?_eq_some_iff {r : List SectionTag} {ts : List SectionTree} : read? r = some ts ↔
    r = tagsAll ts := by
  constructor
  · intro h
    exact tagsBefore_append_of_readFrom h
  · rintro rfl
    have := readFrom_tagsAll ts [] [] []
    rw [List.append_nil, List.append_nil] at this
    rw [read?, this, readFrom, List.reverse_reverse]

end SectionTree

end SlideDeck.Markup
