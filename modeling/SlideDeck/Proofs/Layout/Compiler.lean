import SlideDeck.Layout.Compiler
import SlideDeck.Proofs.Layout.Nesting
import SlideDeck.Proofs.Layout.Written

/-!
# Compilers, position by position

What a compiler writes for a group and where it stands behind it is told by the cursor in front of
the group alone (`Compiler.writeGroup_eq`), and so is a whole run (`Compiler.mapM_writeGroup`). As a
run starts at the first position without ids, what earlier runs left behind does not matter
(`Compiler.outline_eq`).

The cursor in front of a group is told by the index of the group and by the number of dividers
before it (`Layout.cursorAt`). So every slide can be named without a run: `Layout.markup_outline`
gives the markup, and `Layout.ids_outline` the places of the slides, which tell their ids and
headings (`SlidePlace.toSection`). Of the elements of the page, the slides of dividers and the title
are the ones with the class of slides that open a section (`Layout.openings_outline`).

What holds of the outline of a layout thus holds of what any compiler comes to, whatever it has
compiled before: its sections (`Compiler.sections_compile`), its ids
(`Compiler.nodup_ids_compile`), and each slide by its position (`Compiler.compile_by_position`).
-/

namespace SlideDeck

open Markup (Label SectionTag SectionTree)

/-! ## Runs of a compiler -/

namespace Compiler

/-- A compiler behind a group. -/
def past (g : Group) (c : Compiler) : Compiler :=
  { c with cursor := c.cursor.next g, ids := c.ids ++ (g.sections c.cursor).map (·.id) }

theorem bind_apply {α β : Type} (x : StateM Compiler α) (f : α → StateM Compiler β) (c : Compiler) :
    (x >>= f) c = f (x c).1 (x c).2 := rfl

/-- The slides of a stack, written one after the other: the cursor stays where it is. -/
theorem mapM_writeSlide (indices : List Nat) (c : Compiler) :
    (indices.mapM fun i => do writeSlide (Group.stackSection (← get).cursor.position (i + 1))) c
      = (indices.map fun i => (Group.stackSection c.cursor.position (i + 1)).render,
        { c with ids :=
          c.ids ++ indices.map fun i => (Group.stackSection c.cursor.position (i + 1)).id }) := by
  induction indices generalizing c with
  | nil =>
    rw [List.map_nil, List.map_nil, List.append_nil]
    rfl
  | cons i indices ih =>
    rw [List.mapM_cons, bind_apply, bind_apply, ih, List.map_cons, List.map_cons, List.append_cons]
    rfl

/-- A group is written as its cursor tells, whatever was written before. -/
theorem writeGroup_eq (g : Group) (c : Compiler) :
    writeGroup g c = (g.render c.cursor, c.past g) := by
  cases g with
  | divider =>
    have h : Group.render c.cursor .divider = (Group.dividerSection c.cursor.divider).render :=
      List.append_nil _
    rw [h]
    rfl
  | single =>
    have h : Group.render c.cursor .single = (Group.singleSection c.cursor.position).render :=
      List.append_nil _
    rw [h]
    rfl
  | stack size pos =>
    have h : writeStack size c = (Group.render c.cursor (.stack size pos),
        { c with ids := c.ids ++ (Group.sections c.cursor (.stack size pos)).map (·.id) }) := by
      rw [writeStack, bind_apply, mapM_writeSlide, Group.render, Group.sections, List.map_map,
        List.map_map]
      rfl
    rw [writeGroup, bind_apply, h]
    rfl

/-- A run writes the groups from its cursor on and adds their ids to those that are there. -/
theorem mapM_writeGroup (layout : Layout) (c : Compiler) :
    ((layout.mapM writeGroup) c).1.flatten = (Layout.renderFrom c.cursor layout).1 ∧
      ((layout.mapM writeGroup) c).2
        = { c with cursor := layout.foldl .next c.cursor, ids :=
          c.ids ++ (Layout.renderFrom c.cursor layout).2 } := by
  induction layout generalizing c with
  | nil =>
    refine ⟨rfl, ?_⟩
    rw [Layout.renderFrom, List.append_nil]
    rfl
  | cons g gs ih =>
    obtain ⟨htext, hend⟩ := ih (c.past g)
    rw [List.mapM_cons, bind_apply, bind_apply, writeGroup_eq]
    refine ⟨congrArg (g.render c.cursor ++ ·) htext, hend.trans ?_⟩
    rw [past, List.append_assoc]
    rfl

/-- The compiler that has run. -/
def done (c : Compiler) : Compiler :=
  { c with cursor := c.layout.foldl .next .start, ids := c.layout.outline.ids }

/-- What earlier runs left behind does not matter to the outline. -/
theorem outline_eq (c : Compiler) : outline c = (c.layout.outline, c.done) := by
  have hrun := mapM_writeGroup c.layout { c with cursor := .start, ids := [] }
  generalize hr : (c.layout.mapM writeGroup) { c with cursor := .start, ids := [] } = run at hrun
  have ho : outline c = (⟨run.1.flatten, c.layout.slideCount, run.2.ids⟩, run.2) := hr ▸ rfl
  rw [ho, hrun.1, hrun.2]
  rfl

/-- A run and the rendering of a layout agree, messages included. -/
theorem compile_eq {ε : Type} (c : Compiler) :
    (compile c : Attempt ε (Outline × Compiler)) =
      (fun outline => (outline, c.done)) <$> c.layout.compile := by
  rw [compile, outline_eq]
  rfl

end Compiler

/-! ## Positions -/

namespace SlidePlace

/-- The heading of the slide at a place. -/
def heading : SlidePlace → Text
  | .title => "<h1>Presentation Title</h1>".toList
  | .slide position => "<h2>Slide ".toList ++ Text.ofNat position ++ " Title Here</h2>".toList
  | .stacked position vertical =>
    "<h2>Slide ".toList ++ Text.ofNat position ++ '.' :: Text.ofNat vertical ++
      " Title Here</h2>".toList
  | .divider number => "<h1>Section ".toList ++ Text.ofNat number ++ " Title</h1>".toList

/-- The slide at a place: the slides of stacks stand one level deeper, and the title slide is styled
like a divider. -/
def toSection (p : SlidePlace) : Section where
  id := p.id
  heading := p.heading
  depth := match p with
    | .stacked .. => Group.baseDepth + 1
    | _ => Group.baseDepth
  opens := match p with
    | .title | .divider _ => true
    | _ => false

theorem heading_title : heading .title = Group.heading1 "Presentation Title".toList := by decide

theorem heading_slide (position : Nat) : (slide position).heading =
    Group.heading2 ("Slide ".toList ++ Text.ofNat position ++ " Title Here".toList) := by
  have hstart : "<h2>Slide ".toList = "<h2>".toList ++ "Slide ".toList := by decide
  have hend : " Title Here</h2>".toList = " Title Here".toList ++ "</h2>".toList := by decide
  show "<h2>Slide ".toList ++ Text.ofNat position ++ " Title Here</h2>".toList = _
  rw [hstart, hend, Group.heading2]
  simp only [List.append_assoc]

theorem heading_stacked (position vertical : Nat) : (stacked position vertical).heading =
    Group.heading2
      ("Slide ".toList ++ Text.ofNat position ++ '.' :: Text.ofNat vertical ++
        " Title Here".toList) := by
  have hstart : "<h2>Slide ".toList = "<h2>".toList ++ "Slide ".toList := by decide
  have hend : " Title Here</h2>".toList = " Title Here".toList ++ "</h2>".toList := by decide
  show "<h2>Slide ".toList ++ Text.ofNat position ++ '.' :: Text.ofNat vertical ++
    " Title Here</h2>".toList = _
  rw [hstart, hend, Group.heading2]
  simp only [List.append_assoc, List.cons_append]

theorem heading_divider (number : Nat) : (divider number).heading =
    Group.heading1 ("Section ".toList ++ Text.ofNat number ++ " Title".toList) := by
  have hstart : "<h1>Section ".toList = "<h1>".toList ++ "Section ".toList := by decide
  have hend : " Title</h1>".toList = " Title".toList ++ "</h1>".toList := by decide
  show "<h1>Section ".toList ++ Text.ofNat number ++ " Title</h1>".toList = _
  rw [hstart, hend, Group.heading1]
  simp only [List.append_assoc]

end SlidePlace

namespace Group

theorem sections_eq (c : Cursor) (g : Group) :
    g.sections c = (g.places c).map SlidePlace.toSection := by
  cases g with
  | single =>
    simp only [sections, places, singleSection, List.map_cons, List.map_nil]
    split
    · rw [SlidePlace.toSection, SlidePlace.heading_title]
      rfl
    · have hslide :
          (SlidePlace.slide c.position).toSection = ⟨"slide-".toList ++ Text.ofNat c.position,
        (SlidePlace.slide c.position).heading, baseDepth, false⟩ := rfl
      rw [hslide, SlidePlace.heading_slide]
  | divider =>
    rw [sections, places, List.map_singleton, SlidePlace.toSection, SlidePlace.heading_divider]
    rfl
  | stack size pos =>
    simp only [sections, places, List.map_map]
    refine List.map_congr_left fun i _ => ?_
    rw [Function.comp_apply, SlidePlace.toSection, SlidePlace.heading_stacked]
    rfl

theorem heading_infix_render {c : Cursor} {g : Group} {p : SlidePlace} (h : p ∈ g.places c) :
    p.heading <:+: g.render c := by
  have hsection (s : Section) : s.heading <:+: s.render := by
    have hline : s.heading <:+: '\t' :: s.heading := List.infix_cons List.infix_rfl
    rw [Section.render]
    iterate 3 refine List.infix_append_of_infix_left ?_
    exact List.infix_append_of_infix_right hline
  have hslides : p.heading <:+: ((g.sections c).map Section.render).flatten := by
    refine (hsection p.toSection).trans (List.infix_of_mem_flatten (List.mem_map_of_mem ?_))
    rw [sections_eq]
    exact List.mem_map_of_mem h
  cases g with
  | single | divider => exact hslides
  | stack size pos =>
    rw [render]
    iterate 2 refine List.infix_append_of_infix_left ?_
    exact List.infix_append_of_infix_right hslides

end Group

namespace Layout

/-- The cursor in front of the group at an index. -/
def cursorAt (layout : Layout) (i : Nat) : Cursor := ⟨i + 1, (layout.take i).count .divider + 1⟩

/-- A walk over a layout that takes a part from every group takes the part that the group's index
tells. -/
theorem eq_mapIdx_of_walk {α : Type} (part : Cursor → Group → List α)
    (whole : Cursor → Layout → List α) (hnil : ∀ c, whole c [] = [])
    (hcons : ∀ c g gs, whole c (g :: gs) = part c g ++ whole (c.next g) gs) (layout : Layout) :
    whole .start layout = (layout.mapIdx fun i g => part (layout.cursorAt i) g).flatten := by
  have hfrom (layout : Layout) (c : Cursor) : whole c layout
      = (layout.mapIdx fun i g => part ⟨i + c.position, (layout.take i).count .divider + c.divider⟩
        g).flatten := by
    induction layout generalizing c with
    | nil => exact hnil c
    | cons g gs ih =>
      -- An index behind `g` is counted from one on, and `g` is among the groups before it.
      have hstep (i : Nat) :
          (⟨i + (c.next g).position, (gs.take i).count .divider + (c.next g).divider⟩ : Cursor)
          = ⟨i + 1 + c.position, ((g :: gs).take (i + 1)).count .divider + c.divider⟩ := by
        rw [List.take_succ_cons]
        cases g <;> simp [Cursor.next] <;> omega
      rw [hcons, ih (c.next g), List.mapIdx_cons, List.flatten_cons]
      simp only [hstep, List.take_zero, List.count_nil, Nat.zero_add]
  exact hfrom layout .start

theorem markup_outline (layout : Layout) :
    layout.outline.markup = (layout.mapIdx fun i g => g.render (layout.cursorAt i)).flatten :=
  eq_mapIdx_of_walk (fun c g => g.render c) (fun c layout => (renderFrom c layout).1) (fun _ => rfl)
    (fun _ _ _ => rfl) layout

theorem ids_outline (layout : Layout) :
    layout.outline.ids = (layout.mapIdx fun i g => g.places (layout.cursorAt i)).flatten.map
      SlidePlace.id := by
  rw [← eq_mapIdx_of_walk (fun c g => g.places c) placesFrom (fun _ => rfl) (fun _ _ _ => rfl)]
  exact renderFrom_ids .start layout

/-- A single slide behind a divider is not the title, and dividers are numbered on their own. -/
example : (outline [.divider, .single, .stack 2 (by decide), .divider]).ids
    = ["divider-1".toList, "slide-2".toList, "slide-3-1".toList, "slide-3-2".toList,
      "divider-2".toList] := by decide

/-- Only a single slide in front of all other groups is the title. -/
theorem title_mem_ids_outline (layout : Layout) :
    "title".toList ∈ layout.outline.ids ↔ layout.head? = some .single := by
  have hids : layout.outline.ids = (placesFrom .start layout).map SlidePlace.id :=
    renderFrom_ids .start layout
  have hplace : SlidePlace.id .title ∈ layout.outline.ids ↔ .title ∈ placesFrom .start layout := by
    rw [hids]
    exact List.mem_map_of_injective fun _ _ => SlidePlace.id_injective
  refine hplace.trans ?_
  cases layout with
  | nil => simp [placesFrom]
  | cons g gs =>
    have hrest : .title ∉ placesFrom (Cursor.start.next g) gs := by
      intro h
      have := reaches_of_mem_placesFrom h
      cases g <;> simp [Cursor.Reaches, Cursor.next, Cursor.start] at this
    rw [placesFrom, List.mem_append, or_iff_left hrest, List.head?_cons, Option.some.injEq]
    cases g <;> simp [Group.places, Cursor.start]

/-- A run over the first groups of a layout writes the first part of its markup and of its ids. -/
theorem renderFrom_append (c : Cursor) (layout after : Layout) :
    renderFrom c (layout ++ after)
      = ((renderFrom c layout).1 ++ (renderFrom (layout.foldl .next c) after).1,
        (renderFrom c layout).2 ++ (renderFrom (layout.foldl .next c) after).2) := by
  induction layout generalizing c with
  | nil => rfl
  | cons g gs ih =>
    rw [List.cons_append, renderFrom, ih, renderFrom, List.append_assoc, List.append_assoc]
    rfl

end Layout

/-! ## Classes -/

/-- How often some elements have the class of slides that open a section. -/
def openings (labels : List Label) : Nat :=
  (labels.flatMap Label.classes).count "section-divider".toList

theorem openings_append (a b : List Label) : openings (a ++ b) = openings a + openings b := by
  rw [openings, List.flatMap_append, List.count_append]
  rfl

theorem Section.openings_slideLabels (s : Section) :
    openings (Group.slideLabels s) = if s.opens then 1 else 0 := by
  have hsection :
      Label.classes ⟨Markup.sectionName, s.attributes⟩ = if s.opens then ["section-divider".toList]
        else [] := by
    rw [attributes]
    cases s.opens <;> rfl
  have hheading : s.headingLabel.classes = [] := by
    rw [headingLabel]
    cases s.opens <;> rfl
  rw [openings, Group.slideLabels, List.flatMap_cons, List.flatMap_cons, hsection, hheading]
  cases s.opens <;> rfl

namespace Group

theorem openings_labels (c : Cursor) (g : Group) :
    openings (g.labels c) = if g = .divider ∨ g = .single ∧ c.position = 1 then 1 else 0 := by
  cases g with
  | divider => exact Section.openings_slideLabels _
  | single =>
    have h : openings (Group.labels c .single) =
        openings (slideLabels (singleSection c.position)) :=
      congrArg openings (List.append_nil _)
    rw [h, Section.openings_slideLabels, singleSection]
    split <;> simp_all
  | stack size pos =>
    have h (slides : List Section) (hs : ∀ s ∈ slides, s.opens = false) :
        openings (slides.flatMap slideLabels) = 0 := by
      induction slides with
      | nil => rfl
      | cons s slides ih =>
        rw [List.flatMap_cons, openings_append, Section.openings_slideLabels,
          hs s (List.mem_cons_self ..),
          ih fun t ht => hs t (List.mem_cons_of_mem _ ht)]
        rfl
    have hs : ∀ s ∈ Group.sections c (.stack size pos), s.opens = false := by
      intro s hs
      obtain ⟨i, -, rfl⟩ := List.mem_map.1 hs
      rfl
    exact h _ hs

end Group

namespace Layout

/-- Behind the first position only dividers open sections. -/
theorem openings_labelsFrom {c : Cursor} (hc : 1 < c.position) (layout : Layout) :
    openings (labelsFrom c layout) = layout.count .divider := by
  induction layout generalizing c with
  | nil => rfl
  | cons g gs ih =>
    have hnext : 1 < (c.next g).position := by cases g <;> exact Nat.lt_succ_of_lt hc
    have hg : openings (g.labels c) = if g = .divider then 1 else 0 := by
      rw [Group.openings_labels]
      exact if_congr (or_iff_left fun h => absurd h.2 (Nat.ne_of_gt hc)) rfl rfl
    rw [labelsFrom, openings_append, ih hnext, hg, List.count_cons, Nat.add_comm]
    simp only [beq_iff_eq]

theorem openings_outline (layout : Layout) : openings (labelsFrom .start layout)
    = layout.count .divider + if layout.head? = some .single then 1 else 0 := by
  cases layout with
  | nil => rfl
  | cons g gs =>
    have hnext : 1 < (Cursor.start.next g).position := by cases g <;> exact Nat.lt_succ_self 1
    rw [labelsFrom, openings_append, openings_labelsFrom hnext, Group.openings_labels,
      List.count_cons, List.head?_cons]
    cases g <;> simp [Cursor.start] <;> omega

end Layout

namespace Compiler

theorem result_compile {ε : Type} (c : Compiler) :
    (compile c : Attempt ε (Outline × Compiler)).result = .ok (c.layout.outline, c.done) := by
  rw [compile_eq]
  rfl

/-- What a compiler renders counts the slides of its layout, lists one id for each of them, and has
a markup whose section tags are well nested: one section for each group, in order, in which the
innermost sections are those of the slides, and only these have ids, which are the ids that are
listed. -/
theorem sections_compile {ε : Type} (c : Compiler) : ∃ rendered done,
    (compile c : Attempt ε (Outline × Compiler)).result = .ok (rendered, done) ∧
    rendered.slideCount = c.layout.slideCount ∧ rendered.ids.length = c.layout.slideCount ∧
    (SectionTag.all rendered.markup).filterMap SectionTag.id? = rendered.ids ∧
    ∃ trees, SectionTree.read? (SectionTag.all rendered.markup) = some trees ∧
      (SectionTree.leavesAll trees).length = c.layout.slideCount ∧
      SectionTree.leavesAll trees = rendered.ids.map some ∧
      SectionTree.depthAll trees ≤ 2 ∧ List.Forall₂ Group.Shows c.layout trees :=
  ⟨c.layout.outline, c.done, result_compile c, c.layout.sections_outline⟩

/-- No two slides that a compiler renders share an id. -/
theorem nodup_ids_compile {ε : Type} (c : Compiler) : ∃ rendered done,
    (compile c : Attempt ε (Outline × Compiler)).result = .ok (rendered, done) ∧
      rendered.ids.Nodup :=
  ⟨c.layout.outline, c.done, result_compile c, c.layout.nodup_ids_outline⟩

/-- Whatever a compiler has written before, it renders its layout position by position: the group at
index `i` at the position `i + 1`, with the number of dividers before it, each slide with its
heading. The first slide is the title if it is a single one, and the elements of the page that open
sections are the dividers and the title. A longer layout begins with the ids and the markup of a
shorter one. -/
theorem compile_by_position {ε : Type} (c : Compiler) : ∃ rendered done,
    (compile c : Attempt ε (Outline × Compiler)).result = .ok (rendered, done) ∧
      done.layout = c.layout ∧
    rendered.markup = (c.layout.mapIdx fun i g => g.render (c.layout.cursorAt i)).flatten ∧
    (∀ i, ∀ g : Group, g.sections (c.layout.cursorAt i) =
      (g.places (c.layout.cursorAt i)).map SlidePlace.toSection ∧
      ∀ p ∈ g.places (c.layout.cursorAt i), p.heading <:+: g.render (c.layout.cursorAt i)) ∧
    rendered.ids = (c.layout.mapIdx fun i g => g.places (c.layout.cursorAt i)).flatten.map
      SlidePlace.id ∧
    ("title".toList ∈ rendered.ids ↔ c.layout.head? = some .single) ∧
    (∃ document, Markup.parse rendered.markup = .ok document ∧
      ((Markup.elementsOf document).flatMap Markup.Element.classes).count "section-divider".toList
        = c.layout.count .divider + if c.layout.head? = some .single then 1 else 0) ∧
    ∀ d : Compiler, ∃ longer done',
      (compile { d with layout := c.layout ++ d.layout } : Attempt ε (Outline × Compiler)).result =
        .ok (longer, done') ∧
      rendered.ids <+: longer.ids ∧ rendered.markup <+: longer.markup := by
  refine ⟨c.layout.outline, c.done, result_compile c, rfl, c.layout.markup_outline,
    fun i g => ⟨g.sections_eq _, fun _ => Group.heading_infix_render⟩,
    c.layout.ids_outline, c.layout.title_mem_ids_outline, ?_, fun d => ?_⟩
  · obtain ⟨document, hparse, hclasses⟩ := c.layout.parse_outline
    refine ⟨document, hparse, ?_⟩
    rw [← Layout.openings_outline, openings, List.flatMap_def, hclasses, List.flatMap_def]
  · refine ⟨_, _, result_compile _, ?_⟩
    have happend := Layout.renderFrom_append .start c.layout d.layout
    exact ⟨⟨_, (congrArg Prod.snd happend).symm⟩, ⟨_, (congrArg Prod.fst happend).symm⟩⟩

end Compiler

end SlideDeck
