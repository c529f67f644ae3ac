import SlideDeck.Proofs.Markup.Document
import SlideDeck.Proofs.Text.Position

/-!
# Where the elements of a page stand

The elements of a page's document, in document order, are the elements of the page from left to
right (`Written.sites`): each with what it is filled with, the text before and behind it, and the
elements around it (`Written.ancestorsOf_nodes`). An element is found in the text where it was
written (`Site.offset?_element`), and its span is what was written between its tags, if no remark
and no raw text of the page holds a tag of its name (`Written.span_element`).
-/

namespace SlideDeck.Markup

/-- What stands between the tags of an element. -/
inductive Filling where
  /-- Nothing, not even an end tag. -/
  | none
  | text (t : Text)
  | page (w : Written)
  deriving DecidableEq, Repr

/-- The text between the tags. -/
def Filling.render? : Filling → Option Text
  | .none => Option.none
  | .text t => some t
  | .page w => some w.render

/-- An element of a page. -/
structure Site where
  label : Label
  filling : Filling
  /-- The text before the element. -/
  before : Text
  /-- The text behind the element. -/
  behind : Text
  /-- The elements around it, the innermost first. -/
  around : List Element
  /-- Whether blanks are kept around it. -/
  keeps : Bool
  deriving Repr

namespace Site

/-- The position of the start tag. -/
def position (s : Site) : Position := Position.start.after s.before

/-- The nodes between the tags. -/
def content (s : Site) : List Node :=
  match s.filling with
  | .none => []
  | .text t => rawNodes s.keeps t
  | .page w => w.nodes (blankKeepers.contains s.label.name || s.keeps)
      (s.position.after s.label.start) none

def element (s : Site) : Element := ⟨s.label.name, s.label.read, s.position, s.content⟩

/-- The text from the start tag to the end tag. -/
def text (s : Site) : Text :=
  match s.filling.render? with
  | none => s.label.start
  | some t => s.label.start ++ (t ++ s.label.stop)

/-- The text that the element is part of. -/
def html (s : Site) : Text := s.before ++ (s.text ++ s.behind)

/-- Where the text between the tags stands. -/
def span? (s : Site) : Option Span :=
  s.filling.render?.map fun t =>
    ⟨s.before.length + s.label.start.length, s.before.length + s.label.start.length + t.length⟩

/-- What a search for the end of the element comes to. -/
def span (s : Site) : Except Failure Span :=
  match s.span? with
  | some span => .ok span
  | none => .error (.unclosedElement s.label.name)

theorem span_eq_ok {s : Site} {span : Span} : s.span = .ok span ↔ s.span? = some span := by
  rw [Site.span]
  split
  · next h => rw [h, Except.ok.injEq, Option.some.injEq]
  · next h => simp [h]

/-- An element is found where it was written. -/
theorem offset?_element (s : Site) : s.element.position.offset? s.html = some s.before.length :=
  Position.offset?_after s.before _

end Site

namespace Written

/-- The elements of a page between two texts, in document order, in elements around the page. -/
def sites (keeps : Bool) (before behind : Text) (around : List Element) : Written → List Site
  | .nil => []
  | .letter l next => next.sites keeps (before ++ l.render) behind around
  | .remark r next => next.sites keeps (before ++ r.render) behind around
  | .void l next =>
    ⟨l, .none, before, next.render ++ behind, around, keeps⟩ :: next.sites keeps (before ++ l.start)
      behind around
  | .raw l t next =>
    ⟨l, .text t, before, next.render ++ behind, around, keeps⟩
      :: next.sites keeps (before ++ (l.start ++ (t ++ l.stop))) behind around
  | .element l content next =>
    let s : Site := ⟨l, .page content, before, next.render ++ behind, around, keeps⟩
    s :: (content.sites (blankKeepers.contains l.name || keeps) (before ++ l.start)
      (l.stop ++ (next.render ++ behind))
        (s.element :: around)
      ++ next.sites keeps (before ++ (l.start ++ (content.render ++ l.stop))) behind around)

variable {w : Written} {keeps : Bool} {before behind : Text} {around : List Element} {s : Site}

/-! ## The document and its sites -/

theorem walkAll_settledText (around : List Element) (keeps : Bool) (pending : Option Text)
    (ns : List Node) :
    walkAll around (settledText keeps pending ++ ns) = walkAll around ns := by
  cases pending <;> rfl

theorem walkAll_rawNodes (around : List Element) (keeps : Bool) (t : Text) :
    walkAll around (rawNodes keeps t) = [] := by
  rw [rawNodes]
  split <;> rfl

theorem walkAll_nodes (w : Written) (keeps : Bool) (before behind : Text) (pending : Option Text)
    (around : List Element) :
    walkAll around (w.nodes keeps (Position.start.after before) pending)
      = (w.sites keeps before behind around).map fun s => (s.element, s.around) := by
  induction w generalizing keeps before behind pending around with
  | nil => cases pending <;> rfl
  | letter l next ih => rw [nodes, ← Position.after_append, ih, sites]
  | remark r next ih =>
    rw [nodes, walkAll_settledText, ← Position.after_append, walkAll, Node.walk, ih, sites]
    rfl
  | void l next ih =>
    rw [nodes, walkAll_settledText, ← Position.after_append, walkAll, Node.walk, ih, sites]
    rfl
  | raw l t next ih =>
    rw [nodes, walkAll_settledText, walkAll, Node.walk, Label.behind, ← Position.after_append,
      ← Position.after_append, ← Position.after_append, walkAll_rawNodes, ih, sites]
    rfl
  | element l content next ihc ihn =>
    let s : Site := ⟨l, .page content, before, next.render ++ behind, around, keeps⟩
    have hp : l.behind (Position.start.after before) content.render
        = Position.start.after (before ++ (l.start ++ (content.render ++ l.stop))) := by
      simp only [Label.behind, Position.after_append]
    have hc : walkAll (s.element :: around) s.content =
        (content.sites (blankKeepers.contains l.name || keeps)
        (before ++ l.start) (l.stop ++ (next.render ++ behind)) (s.element :: around)).map
          fun s => (s.element, s.around) := by
      show walkAll _ (content.nodes _ ((Position.start.after before).after l.start) none) = _
      rw [← Position.after_append]
      exact ihc ..
    rw [nodes, walkAll_settledText, walkAll, Node.walk, hp, ihn keeps _ behind, sites,
      List.map_cons, List.map_append, ← hc]
    rfl

/-- The elements of a page's document. -/
theorem ancestorsOf_nodes (w : Written) :
    ancestorsOf (w.nodes false .start none) = (w.sites false [] [] []).map fun s =>
      (s.element, s.around) :=
  walkAll_nodes w false [] [] none []

theorem map_label_sites (w : Written) (keeps : Bool) (before behind : Text)
    (around : List Element) :
    (w.sites keeps before behind around).map (·.label) = w.labels := by
  induction w generalizing keeps before behind around with
  | nil => rfl
  | letter l next ih => exact ih ..
  | remark r next ih => exact ih ..
  | void l next ih => rw [sites, List.map_cons, ih, labels]
  | raw l t next ih => rw [sites, List.map_cons, ih, labels]
  | element l content next ihc ihn => rw [sites, List.map_cons, List.map_append, ihc, ihn, labels]

/-- The elements of a page's document have the classes that the labels of the page give them. -/
theorem map_classes_elementsOf (w : Written) :
    (elementsOf (w.nodes false .start none)).map Element.classes = w.labels.map Label.classes := by
  rw [elementsOf, ancestorsOf_nodes, ← map_label_sites w false [] [] [], List.map_map, List.map_map,
    List.map_map]
  rfl

/-- The elements of what an element is filled with are elements of the page. -/
theorem mem_sites_of_page (h : s ∈ w.sites keeps before behind around) {v : Written}
    (hv : s.filling = .page v) :
    ∃ keeps' before' behind' around', ∀ t ∈ v.sites keeps' before' behind' around', t ∈
      w.sites keeps before behind around := by
  induction w generalizing keeps before behind around with
  | nil => cases h
  | letter l next ih => exact ih h
  | remark r next ih => exact ih h
  | void l next ih =>
    rcases List.mem_cons.1 h with rfl | h
    · cases hv
    · obtain ⟨k, b, b', a, hall⟩ := ih h
      exact ⟨k, b, b', a, fun t ht => List.mem_cons_of_mem _ (hall t ht)⟩
  | raw l t next ih =>
    rcases List.mem_cons.1 h with rfl | h
    · cases hv
    · obtain ⟨k, b, b', a, hall⟩ := ih h
      exact ⟨k, b, b', a, fun t ht => List.mem_cons_of_mem _ (hall t ht)⟩
  | element l content next ihc ihn =>
    rcases List.mem_cons.1 h with rfl | h
    · cases hv
      exact ⟨_, _, _, _, fun t ht => List.mem_cons_of_mem _ (List.mem_append_left _ ht)⟩
    · rcases List.mem_append.1 h with h | h
      · obtain ⟨k, b, b', a, hall⟩ := ihc h
        exact ⟨k, b, b', a, fun t ht => List.mem_cons_of_mem _ (List.mem_append_left _ (hall t ht))⟩
      · obtain ⟨k, b, b', a, hall⟩ := ihn h
        exact ⟨k, b, b', a,
          fun t ht => List.mem_cons_of_mem _ (List.mem_append_right _ (hall t ht))⟩

/-! ## The text around a site -/

theorem html_of_mem_sites (h : s ∈ w.sites keeps before behind around) :
    s.html = before ++ (w.render ++ behind) := by
  induction w generalizing keeps before behind around with
  | nil => cases h
  | letter l next ih => rw [ih h, render, List.append_assoc, List.append_assoc]
  | remark r next ih => rw [ih h, render, List.append_assoc, List.append_assoc]
  | void l next ih =>
    rcases List.mem_cons.1 h with rfl | h
    · simp [Site.html, Site.text, Filling.render?, render]
    · rw [ih h, render, List.append_assoc, List.append_assoc]
  | raw l t next ih =>
    rcases List.mem_cons.1 h with rfl | h
    · simp [Site.html, Site.text, Filling.render?, render]
    · simp only [ih h, render, List.append_assoc]
  | element l content next ihc ihn =>
    rcases List.mem_cons.1 h with rfl | h
    · simp [Site.html, Site.text, Filling.render?, render]
    · rcases List.mem_append.1 h with h | h
      · simp only [ihc h, render, List.append_assoc]
      · simp only [ihn h, render, List.append_assoc]

/-- A site of a page lies in the page. -/
theorem within_of_mem_sites (h : s ∈ w.sites keeps before behind around) :
    before.length ≤ s.before.length ∧
      s.before.length + s.text.length ≤ before.length + w.render.length := by
  induction w generalizing keeps before behind around with
  | nil => cases h
  | letter l next ih =>
    have := ih h
    simp only [render, List.length_append] at this ⊢
    omega
  | remark r next ih =>
    have := ih h
    simp only [render, List.length_append] at this ⊢
    omega
  | void l next ih =>
    rcases List.mem_cons.1 h with rfl | h
    · simp only [Site.text, Filling.render?, render, List.length_append]
      omega
    · have := ih h
      simp only [render, List.length_append] at this ⊢
      omega
  | raw l t next ih =>
    rcases List.mem_cons.1 h with rfl | h
    · simp only [Site.text, Filling.render?, render, List.length_append]
      omega
    · have := ih h
      simp only [render, List.length_append] at this ⊢
      omega
  | element l content next ihc ihn =>
    rcases List.mem_cons.1 h with rfl | h
    · simp only [Site.text, Filling.render?, render, List.length_append]
      omega
    · rcases List.mem_append.1 h with h | h
      · have := ihc h
        simp only [render, List.length_append] at this ⊢
        omega
      · have := ihn h
        simp only [render, List.length_append] at this ⊢
        omega

end Written

/-! ## The span of a site -/

/-- The text between the tags holds no tag of the name but those of its elements. -/
def Filling.Quiet (n : Text) : Filling → Prop
  | .none => True
  | .text t => holdsTag n t = false
  | .page w => w.Quiet n

instance (n : Text) : (f : Filling) → Decidable (f.Quiet n)
  | .none => inferInstanceAs (Decidable True)
  | .text _ => inferInstanceAs (Decidable (_ = _))
  | .page w => Written.decidableQuiet n w

/-- An element that is read as what it is. -/
def Site.IsReadable (s : Site) : Prop :=
  s.label.IsReadable ∧ match s.filling with
    | .none => s.label.name ∈ voidElements
    | .text t => isRawElement s.label.name = true ∧ Text.search (skipEndTag s.label.name) t = none
    | .page w =>
      s.label.name ∉ voidElements ∧ isRawElement s.label.name = false ∧
        (isRawSpan s.label.name = true → w.IsLetters) ∧ w.WellFormed

theorem isRawElement_void {name : Text} (h : name ∈ voidElements) : isRawElement name = false := by
  have hall : ∀ n ∈ voidElements, isRawElement n = false := by decide
  exact hall name h

/-- The elements with a span are those that are not void. -/
theorem Site.IsReadable.exists_span_iff {s : Site} (h : s.IsReadable) :
    (∃ span, s.span = .ok span) ↔ s.label.name ∉ voidElements := by
  obtain ⟨label, filling, before, behind, around, keeps⟩ := s
  obtain ⟨-, hf⟩ := h
  cases filling with
  | none => exact ⟨fun ⟨_, h⟩ => (nomatch h), fun h => absurd hf h⟩
  | text t =>
    refine ⟨fun _ hv => ?_, fun _ => ⟨_, rfl⟩⟩
    rw [isRawElement_void hv] at hf
    exact Bool.false_ne_true hf.1
  | page w => exact ⟨fun _ => hf.1, fun _ => ⟨_, rfl⟩⟩

theorem isRawSpan_of_isRawElement {name : Text} (h : isRawElement name = true) :
    isRawSpan name = true := by
  rw [isRawElement] at h
  rw [isRawSpan, h]
  rfl

/-- The span of an element is its content. One without content has none. -/
theorem Site.span_element {s : Site} (h : s.IsReadable)
    (hq : isRawSpan s.label.name = false → s.filling.Quiet s.label.name)
    (hu : s.label.name ∈ voidElements → Tag.Unclosed s.label.name s.behind) :
    s.element.span s.html = s.span := by
  obtain ⟨label, filling, before, behind, around, keeps⟩ := s
  obtain ⟨hl, hf⟩ := h
  rw [Element.span, offset?_element]
  cases filling with
  | none => exact Label.spanAt_void hl hf (hu hf) before
  | text t =>
    have hhtml : html ⟨label, .text t, before, behind, around, keeps⟩
        = before ++ (label.start ++ (t ++ (label.stop ++ behind))) := by
      simp [html, text, Filling.render?]
    rw [hhtml]
    exact Label.spanAt_raw hl (isRawSpan_of_isRawElement hf.1) hf.2 before behind
  | page w =>
    obtain ⟨hv, -, hr, hw⟩ := hf
    have hhtml : html ⟨label, .page w, before, behind, around, keeps⟩
        = before ++ (label.start ++ (w.render ++ (label.stop ++ behind))) := by
      simp [html, text, Filling.render?]
    rw [hhtml]
    exact Label.spanAt_element hl hv hr hw hq before behind

namespace Written

variable {w : Written} {keeps : Bool} {before behind : Text} {around : List Element} {s : Site}

theorem isReadable_of_mem_sites (hw : w.WellFormed) (h : s ∈ w.sites keeps before behind around) :
    s.IsReadable := by
  induction w generalizing keeps before behind around with
  | nil => cases h
  | letter l next ih => exact ih hw.2 h
  | remark r next ih => exact ih hw.2 h
  | void l next ih =>
    rcases List.mem_cons.1 h with rfl | h
    · exact hw.1
    · exact ih hw.2 h
  | raw l t next ih =>
    rcases List.mem_cons.1 h with rfl | h
    · exact hw.1
    · exact ih hw.2 h
  | element l content next ihc ihn =>
    obtain ⟨⟨hl, hv, hr, hs⟩, hc, hn⟩ := hw
    rcases List.mem_cons.1 h with rfl | h
    · exact ⟨hl, hv, hr, hs, hc⟩
    · rcases List.mem_append.1 h with h | h
      · exact ihc hc h
      · exact ihn hn h

theorem quiet_of_mem_sites {n : Text} (hq : w.Quiet n)
    (h : s ∈ w.sites keeps before behind around) :
    s.filling.Quiet n := by
  induction w generalizing keeps before behind around with
  | nil => cases h
  | letter l next ih => exact ih hq h
  | remark r next ih => exact ih hq.2 h
  | void l next ih =>
    rcases List.mem_cons.1 h with rfl | h
    · trivial
    · exact ih hq h
  | raw l t next ih =>
    rcases List.mem_cons.1 h with rfl | h
    · exact hq.1
    · exact ih hq.2 h
  | element l content next ihc ihn =>
    rcases List.mem_cons.1 h with rfl | h
    · exact hq.1
    · rcases List.mem_append.1 h with h | h
      · exact ihc hq.1 h
      · exact ihn hq.2 h

/-- Behind a site, no end tag of an element without content is found. -/
theorem unclosed_of_mem_sites {n : Text} (hw : w.WellFormed) (hn : isTagName n = true)
    (hv : n ∈ voidElements) (hq : w.Quiet n) (hb : Tag.Unclosed n behind)
    (h : s ∈ w.sites keeps before behind around) :
    Tag.Unclosed n s.behind := by
  induction w generalizing keeps before behind around with
  | nil => cases h
  | letter l next ih => exact ih hw.2 hq hb h
  | remark r next ih => exact ih hw.2 hq.2 hb h
  | void l next ih =>
    rcases List.mem_cons.1 h with rfl | h
    · exact sinks hw.2 hn hv hq _ hb
    · exact ih hw.2 hq hb h
  | raw l t next ih =>
    rcases List.mem_cons.1 h with rfl | h
    · exact sinks hw.2 hn hv hq.2 _ hb
    · exact ih hw.2 hq.2 hb h
  | element l content next ihc ihn =>
    obtain ⟨⟨hl, hv', -⟩, hc, hw⟩ := hw
    have hnext : Tag.Unclosed n (next.render ++ behind) := sinks hw hn hv hq.2 _ hb
    rcases List.mem_cons.1 h with rfl | h
    · exact hnext
    · rcases List.mem_append.1 h with h | h
      · exact ihc hc hq.1 (Tag.Sinks.stop hn hv hl hv' hnext) h
      · exact ihn hw hq.2 hb h

/-- No remark and no raw text of the page holds what looks like a tag of one of its elements.
Elements that are searched for their end tag alone do not matter. -/
def IsQuiet (w : Written) : Prop :=
  ∀ s ∈ w.sites false [] [] [], isRawSpan s.label.name = false → w.Quiet s.label.name

instance (w : Written) : Decidable w.IsQuiet := inferInstanceAs (Decidable (∀ _ ∈ _, _))

/-- The spans of the elements of a page. -/
theorem span_element (hw : w.WellFormed) (hq : w.IsQuiet) (h : s ∈ w.sites false [] [] []) :
    s.element.span w.render = s.span := by
  have hr := isReadable_of_mem_sites hw h
  have hall : ∀ n ∈ voidElements, isRawSpan n = false := by decide
  have hhtml : s.html = w.render := by simpa using html_of_mem_sites h
  rw [← hhtml]
  refine s.span_element hr (fun hs => quiet_of_mem_sites (hq s h hs) h) fun hv => ?_
  exact unclosed_of_mem_sites hw hr.1.1 hv (hq s h (hall _ hv)) (fun _ _ _ => rfl) h

end Written

end SlideDeck.Markup
