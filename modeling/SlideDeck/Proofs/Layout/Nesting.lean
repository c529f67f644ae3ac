import Mathlib.Data.List.Forall2
import SlideDeck.Proofs.Layout.Place
import SlideDeck.Proofs.Markup.SectionTree

/-!
# The sections of an outline

What an outline's markup says when it is read for sections: a single slide or a divider is one
section without sections inside, a stack is one section without an id around one such section for
each of its slides (`Group.Shows`). `Group.readsAs_render` reads the markup of one group, from which
`Layout.readsAs_renderFrom` reads that of a layout; the ids of the innermost sections are the ids
that the outline lists (`Layout.leavesAll_treesFrom`).

`Layout.sections_outline` puts these together with the number of slides.
-/

namespace SlideDeck

open Markup (SectionTag SectionTree StartTag IsPlain sectionName writeEnd)

/-! ## The section of one slide -/

namespace Section

/-- The attributes of a slide's section. -/
def attributes (s : Section) : List (Text × Text) :=
  ("id".toList, s.id) ::
    if s.opens then
      [("class".toList, "section-divider".toList),
        ("data-state".toList, "is-section-divider".toList)]
    else []

/-- A section as its tags with the heading between them. -/
theorem render_eq (s : Section) :
    s.render = List.replicate s.depth '\t' ++ (StartTag.write sectionName s.attributes
      ++ (('\n' :: List.replicate s.depth '\t' ++ ['\t']) ++ (s.heading
      ++ (('\n' :: List.replicate s.depth '\t') ++ (writeEnd sectionName ++ ['\n']))))) := by
  have hs : StartTag.write sectionName s.attributes = "<section id=\"".toList ++
      (s.id ++ ("\"".toList
      ++ ((if s.opens then " class=\"section-divider\" data-state=\"is-section-divider\"".toList
        else []) ++ ['>']))) := by
    have h₁ : "<section id=\"".toList = '<' :: sectionName ++ (' ' :: "id".toList ++ ['=', '"']) :=
      rfl
    have h₂ : "\"".toList = ['"'] := rfl
    rw [h₁, h₂, attributes, StartTag.write]
    cases s.opens <;>
      simp only [Markup.writeAttributes, List.append_assoc, List.cons_append, List.nil_append,
        ite_true, Bool.false_eq_true, ite_false]
    rfl
  have h₁ : ">\n".toList = ['>'] ++ ['\n'] := rfl
  have h₂ : "\n".toList = ['\n'] := rfl
  have h₃ : "</section>\n".toList = writeEnd sectionName ++ ['\n'] := rfl
  rw [hs, render, h₁, h₂, h₃]
  simp only [List.append_assoc, List.cons_append, List.nil_append]

/-- A section whose id is read as it is written and whose heading holds no section. -/
structure IsReadable (s : Section) : Prop where
  quote : '"' ∉ s.id
  ampersand : '&' ∉ s.id
  heading : SectionTag.ReadsAs s.heading []

theorem IsReadable.isPlain {s : Section} (h : s.IsReadable) : ∀ a ∈ s.attributes, IsPlain a := by
  have hid : IsPlain ("id".toList, s.id) := ⟨List.cons_ne_nil _ _, rfl, h.quote, h.ampersand⟩
  have hc : IsPlain ("class".toList, "section-divider".toList) :=
    ⟨by decide, by decide, by decide, by decide⟩
  have hd : IsPlain ("data-state".toList, "is-section-divider".toList) :=
    ⟨by decide, by decide, by decide, by decide⟩
  intro a ha
  rw [attributes] at ha
  split at ha <;> simp only [List.mem_cons, List.not_mem_nil, or_false] at ha
  · rcases ha with rfl | rfl | rfl
    · exact hid
    · exact hc
    · exact hd
  · exact ha ▸ hid

theorem idOf_write {s : Section} (h : s.IsReadable) :
    SectionTag.idOf (StartTag.write sectionName s.attributes) = some s.id := by
  rw [SectionTag.idOf_write h.isPlain, attributes]
  split <;> rfl

theorem not_mem_tabs {c : Char} (h : c ≠ '\t') (n : Nat) : c ∉ List.replicate n '\t' := by
  simp [List.mem_replicate, h]

/-- The markup of a section is read as one section with its id. -/
theorem readsAs_render {s : Section} (h : s.IsReadable) :
    SectionTag.ReadsAs s.render (SectionTree.leaf (some s.id)).tags := by
  have ht := not_mem_tabs (show '<' ≠ '\t' by decide) s.depth
  have h₁ := SectionTag.ReadsAs.of_not_mem ht
  have h₂ : SectionTag.ReadsAs ('\n' :: List.replicate s.depth '\t' ++ ['\t']) [] :=
    .of_not_mem (by simp)
  have h₃ : SectionTag.ReadsAs ('\n' :: List.replicate s.depth '\t') [] :=
    .of_not_mem (by simp)
  have h₄ : SectionTag.ReadsAs ['\n'] [] := .of_not_mem (by decide)
  have hw := SectionTag.ReadsAs.write h.isPlain
  rw [idOf_write h] at hw
  rw [render_eq]
  exact h₁.append
    (hw.append (h₂.append (h.heading.append (h₃.append (SectionTag.ReadsAs.writeEnd.append h₄)))))

end Section

/-! ## The sections of a group -/

namespace Group

/-- A heading of the level whose digit is given holds no section. -/
theorem readsAs_heading (level : Char) (hl : level ≠ '<') {text : Text} (h : '<' ∉ text) :
    SectionTag.ReadsAs ('<' :: 'h' :: level :: '>' :: text ++ '<' :: '/' :: 'h' :: [level, '>'])
      [] := by
  have hs : '<' ∉ level :: '>' :: text := by simp [Ne.symm hl, h]
  have he : '<' ∉ [level, '>'] := by simp [Ne.symm hl]
  have h₁ := SectionTag.ReadsAs.bracket (c := 'h') (by decide) (by decide) (by decide)
      (.of_not_mem hs)
  have h₂ := SectionTag.ReadsAs.slash (c := 'h') (by decide) (by decide) (.of_not_mem he)
  simpa using h₁.append h₂

theorem readsAs_heading1 {text : Text} (h : '<' ∉ text) : SectionTag.ReadsAs (heading1 text) [] :=
  readsAs_heading '1' (by decide) h

theorem readsAs_heading2 {text : Text} (h : '<' ∉ text) : SectionTag.ReadsAs (heading2 text) [] :=
  readsAs_heading '2' (by decide) h

theorem isReadable_dividerSection (number : Nat) : (dividerSection number).IsReadable where
  quote := List.not_mem_append (by decide) (Text.not_mem_ofNat (by decide) _)
  ampersand := List.not_mem_append (by decide) (Text.not_mem_ofNat (by decide) _)
  heading := readsAs_heading1
    (List.not_mem_append (List.not_mem_append (by decide) (Text.not_mem_ofNat (by decide) _))
      (by decide))

theorem isReadable_singleSection (position : Nat) : (singleSection position).IsReadable := by
  rw [singleSection]
  split
  · exact ⟨by decide, by decide, readsAs_heading1 (by decide)⟩
  · exact ⟨List.not_mem_append (by decide) (Text.not_mem_ofNat (by decide) _),
      List.not_mem_append (by decide) (Text.not_mem_ofNat (by decide) _),
      readsAs_heading2 (List.not_mem_append
        (List.not_mem_append (by decide) (Text.not_mem_ofNat (by decide) _)) (by decide))⟩

/-- Two numerals with a character that is no digit between them do not hold another such
character. -/
theorem not_mem_pair {c d : Char} (hc : c.isDigit = false) (hd : c ≠ d) {start : Text}
    (hs : c ∉ start) (position vertical : Nat) :
    c ∉ start ++ Text.ofNat position ++ d :: Text.ofNat vertical := by
  refine List.not_mem_append (List.not_mem_append hs (Text.not_mem_ofNat hc _)) ?_
  rw [List.mem_cons, not_or]
  exact ⟨hd, Text.not_mem_ofNat hc _⟩

theorem isReadable_stackSection (position vertical : Nat) :
    (stackSection position vertical).IsReadable where
  quote := not_mem_pair (by decide) (by decide) (by decide) _ _
  ampersand := not_mem_pair (by decide) (by decide) (by decide) _ _
  heading := readsAs_heading2
    (List.not_mem_append (not_mem_pair (by decide) (by decide) (by decide) _ _) (by decide))

theorem isReadable_of_mem_sections {c : Cursor} {g : Group} {s : Section} (h : s ∈ g.sections c) :
    s.IsReadable := by
  cases g with
  | single => exact List.mem_singleton.1 h ▸ isReadable_singleSection _
  | divider => exact List.mem_singleton.1 h ▸ isReadable_dividerSection _
  | stack size pos =>
    obtain ⟨i, -, rfl⟩ := List.mem_map.1 h
    exact isReadable_stackSection _ _

/-- The section of a slide without sections inside of it. -/
def leafOf (s : Section) : SectionTree := .leaf (some s.id)

/-- The section of a group. -/
def tree (c : Cursor) (g : Group) : SectionTree :=
  match g with
  | .single => leafOf (singleSection c.position)
  | .divider => leafOf (dividerSection c.divider)
  | .stack .. => .node none ((g.sections c).map leafOf)

/-- The markup of some slides is read slide by slide. -/
theorem readsAs_flatten {slides : List Section} (h : ∀ s ∈ slides, s.IsReadable) :
    SectionTag.ReadsAs (slides.map Section.render).flatten
      (SectionTree.tagsAll (slides.map leafOf)) := by
  induction slides with
  | nil => exact .nil
  | cons s slides ih =>
    rw [List.map_cons, List.map_cons, List.flatten_cons, SectionTree.tagsAll]
    exact (Section.readsAs_render (h s (List.mem_cons_self ..))).append
      (ih fun t ht => h t (List.mem_cons_of_mem _ ht))

/-- The markup of a group is read as one section. -/
theorem readsAs_render (c : Cursor) (g : Group) :
    SectionTag.ReadsAs (g.render c) (g.tree c).tags := by
  have hs := readsAs_flatten fun s hs => isReadable_of_mem_sections (c := c) (g := g) hs
  cases g with
  | single => simpa [SectionTree.tagsAll, sections, tree, render] using hs
  | divider => simpa [SectionTree.tagsAll, sections, tree, render] using hs
  | stack size pos =>
    have hi : SectionTag.ReadsAs (List.replicate baseDepth '\t') [] := .of_not_mem (by decide)
    have hl : SectionTag.ReadsAs ['\n'] [] := .of_not_mem (by decide)
    have ho := SectionTag.ReadsAs.write (List.forall_mem_nil IsPlain)
    have hid : SectionTag.idOf (StartTag.write sectionName []) = none :=
      SectionTag.idOf_write (List.forall_mem_nil _)
    rw [hid] at ho
    have := hi.append
        (ho.append (hl.append (hs.append (hi.append (SectionTag.ReadsAs.writeEnd.append hl)))))
    have h₁ : "<section>\n".toList = StartTag.write sectionName [] ++ ['\n'] := rfl
    have h₂ : "</section>\n".toList = writeEnd sectionName ++ ['\n'] := rfl
    rw [render, h₁, h₂]
    simpa only [List.append_assoc, List.cons_append, List.nil_append, List.append_nil, tree,
      SectionTree.tags]
      using this

/-- What a group's section looks like: a stack is a section without an id around a section for each
of its slides, and another group is one slide's section, which has an id. -/
def Shows : Group → SectionTree → Prop
  | .stack size _, .node id inner => id = none ∧ inner.length = size ∧
      ∀ t ∈ inner, ∃ id, t = .leaf (some id)
  | _, t => ∃ id, t = .leaf (some id)

theorem shows_tree (c : Cursor) (g : Group) : g.Shows (g.tree c) := by
  cases g with
  | single => exact ⟨_, rfl⟩
  | divider => exact ⟨_, rfl⟩
  | stack size pos =>
    refine ⟨rfl, by simp [sections], fun t ht => ?_⟩
    obtain ⟨s, -, rfl⟩ := List.mem_map.1 ht
    exact ⟨_, rfl⟩

theorem leavesAll_map_leafOf (slides : List Section) :
    SectionTree.leavesAll (slides.map leafOf) = slides.map fun s => some s.id := by
  induction slides with
  | nil => rfl
  | cons s slides ih =>
    rw [List.map_cons, SectionTree.leavesAll, ih]
    rfl

theorem filterMap_id?_map_leafOf (slides : List Section) :
    (SectionTree.tagsAll (slides.map leafOf)).filterMap SectionTag.id? = slides.map (·.id) := by
  induction slides with
  | nil => rfl
  | cons s slides ih =>
    rw [List.map_cons, SectionTree.tagsAll, List.filterMap_append, ih]
    rfl

theorem depthAll_map_leafOf (slides : List Section) :
    SectionTree.depthAll (slides.map leafOf) ≤ 1 := by
  induction slides with
  | nil => exact Nat.zero_le _
  | cons s slides ih => exact Nat.max_le.2 ⟨Nat.le_refl _, ih⟩

/-- The innermost sections of a group are those of its slides. -/
theorem leaves_tree (c : Cursor) (g : Group) :
    (g.tree c).leaves = (g.sections c).map fun s => some s.id := by
  cases g with
  | single => rfl
  | divider => rfl
  | stack size pos =>
    -- A stack holds a slide, so its own section is no innermost one.
    obtain ⟨n, rfl⟩ := Nat.exists_eq_succ_of_ne_zero (Nat.ne_of_gt pos)
    rw [← leavesAll_map_leafOf, tree, sections, List.range_succ_eq_map]
    rfl

theorem filterMap_id?_tree (c : Cursor) (g : Group) :
    (g.tree c).tags.filterMap SectionTag.id? = (g.sections c).map (·.id) := by
  cases g with
  | single => rfl
  | divider => rfl
  | stack size pos =>
    rw [tree, SectionTree.tags, List.cons_append, List.filterMap_cons_none rfl,
      List.filterMap_append, filterMap_id?_map_leafOf]
    exact List.append_nil _

theorem depth_tree_le (c : Cursor) (g : Group) : (g.tree c).depth ≤ 2 := by
  cases g with
  | single => exact Nat.le_succ 1
  | divider => exact Nat.le_succ 1
  | stack size pos => exact Nat.succ_le_succ (depthAll_map_leafOf _)

theorem length_sections (c : Cursor) (g : Group) : (g.sections c).length = g.slideCount := by
  cases g with
  | single => rfl
  | divider => rfl
  | stack size pos => simp [sections, slideCount]

end Group

/-! ## The sections of a layout -/

namespace Layout

/-- The sections of the groups from a cursor on. -/
def treesFrom : Cursor → Layout → List SectionTree
  | _, [] => []
  | c, g :: gs => g.tree c :: treesFrom (c.next g) gs

/-- The markup of a layout is read as the sections of its groups. -/
theorem readsAs_renderFrom (c : Cursor) (layout : Layout) :
    SectionTag.ReadsAs (renderFrom c layout).1 (SectionTree.tagsAll (treesFrom c layout)) := by
  induction layout generalizing c with
  | nil => exact .nil
  | cons g gs ih => exact (g.readsAs_render c).append (ih (c.next g))

theorem forall₂_shows_treesFrom (c : Cursor) (layout : Layout) :
    List.Forall₂ Group.Shows layout (treesFrom c layout) := by
  induction layout generalizing c with
  | nil => exact .nil
  | cons g gs ih => exact .cons (g.shows_tree c) (ih (c.next g))

/-- The innermost sections have the ids that the outline lists. -/
theorem leavesAll_treesFrom (c : Cursor) (layout : Layout) :
    SectionTree.leavesAll (treesFrom c layout) = (renderFrom c layout).2.map some := by
  induction layout generalizing c with
  | nil => rfl
  | cons g gs ih =>
    rw [treesFrom, SectionTree.leavesAll, ih, Group.leaves_tree, renderFrom, List.map_append,
      List.map_map]
    rfl

/-- No section but those of slides has an id. -/
theorem filterMap_id?_treesFrom (c : Cursor) (layout : Layout) :
    (SectionTree.tagsAll (treesFrom c layout)).filterMap SectionTag.id? =
      (renderFrom c layout).2 := by
  induction layout generalizing c with
  | nil => rfl
  | cons g gs ih =>
    rw [treesFrom, SectionTree.tagsAll, List.filterMap_append, ih, Group.filterMap_id?_tree,
      renderFrom]

theorem depthAll_treesFrom_le (c : Cursor) (layout : Layout) :
    SectionTree.depthAll (treesFrom c layout) ≤ 2 := by
  induction layout generalizing c with
  | nil => exact Nat.zero_le _
  | cons g gs ih => exact Nat.max_le.2 ⟨g.depth_tree_le c, ih (c.next g)⟩

/-- As many ids are listed as slides are counted. -/
theorem length_renderFrom_ids (c : Cursor) (layout : Layout) :
    (renderFrom c layout).2.length = layout.slideCount := by
  induction layout generalizing c with
  | nil => rfl
  | cons g gs ih =>
    rw [renderFrom, List.length_append, List.length_map, Group.length_sections, ih, slideCount]

/-- An outline counts the slides of its layout, lists one id for each of them, and has a markup
whose section tags are well nested: one section for each group, in order, in which the innermost
sections are those of the slides, and only these have ids, which are the ids that are listed. -/
theorem sections_outline (layout : Layout) :
    layout.outline.slideCount = layout.slideCount ∧ layout.outline.ids.length = layout.slideCount ∧
    (SectionTag.all layout.outline.markup).filterMap SectionTag.id? = layout.outline.ids ∧
    ∃ trees, SectionTree.read? (SectionTag.all layout.outline.markup) = some trees ∧
      (SectionTree.leavesAll trees).length = layout.slideCount ∧
      SectionTree.leavesAll trees = layout.outline.ids.map some ∧
      SectionTree.depthAll trees ≤ 2 ∧ List.Forall₂ Group.Shows layout trees := by
  have hall : SectionTag.all layout.outline.markup =
      SectionTree.tagsAll (treesFrom .start layout) :=
    (readsAs_renderFrom .start layout).all_eq
  have hlen := length_renderFrom_ids .start layout
  have hleaves := leavesAll_treesFrom .start layout
  refine ⟨rfl, hlen, ?_, treesFrom .start layout, ?_, ?_, hleaves, depthAll_treesFrom_le _ _,
    forall₂_shows_treesFrom _ _⟩
  · rw [hall]; exact filterMap_id?_treesFrom .start layout
  · exact SectionTree.read?_eq_some_iff.2 hall
  · rw [hleaves, List.length_map, hlen]

end Layout

end SlideDeck
