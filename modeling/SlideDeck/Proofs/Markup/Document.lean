import SlideDeck.Proofs.Markup.Reading

/-!
# The document of a written page

A document under construction takes a page in as the nodes that the page was written for
(`Written.nodes`), added to the innermost open element (`Builder.after`). Texts are gathered until
the next tag or remark, so that `Written.nodes` carries the text that is pending. Every element
closes itself: its end tag finds it as the innermost open element, because no end tag is passed over
but those of elements without content. So the document of a well-formed page is the page's nodes
(`Written.parse_eq`).
-/

namespace SlideDeck.Markup

/-! ## The nodes of a page -/

/-- A text as a document keeps it. -/
def settled (keeps : Bool) (t : Text) : Text :=
  if keeps then t else if t.all Builder.isAsciiBlank then (if '\n' ∈ t then ['\n'] else [' '])
    else t

/-- The node of the text read since the last node. -/
def settledText (keeps : Bool) : Option Text → List Node
  | none => []
  | some t => [.text (settled keeps t)]

/-- The content of an element with raw text. -/
def rawNodes (keeps : Bool) (t : Text) : List Node :=
  if t = [] then [] else [.text (settled keeps t)]

/-- Where an element with a content ends that starts at a position. -/
def Label.behind (l : Label) (p : Position) (content : Text) : Position :=
  ((p.after l.start).after content).after l.stop

/-- The nodes of a page from a position on, where some text is pending; `keeps` tells whether blanks
are kept. -/
def Written.nodes (keeps : Bool) (p : Position) (pending : Option Text) : Written → List Node
  | .nil => settledText keeps pending
  | .letter l next => next.nodes keeps (p.after l.render) (some (pending.getD [] ++ l.read))
  | .remark r next =>
    settledText keeps pending ++ .text (settled keeps r.read) ::
      next.nodes keeps (p.after r.render) none
  | .void l next =>
    settledText keeps pending ++ .element l.name l.read p [] ::
      next.nodes keeps (p.after l.start) none
  | .raw l t next =>
    settledText keeps pending ++ .element l.name l.read p (rawNodes keeps t)
      :: next.nodes keeps (l.behind p t) none
  | .element l content next =>
    settledText keeps pending
      ++ .element l.name l.read p
        (content.nodes (blankKeepers.contains l.name || keeps) (p.after l.start) none)
      :: next.nodes keeps (l.behind p content.render) none

/-! ## Documents under construction -/

namespace Builder

variable {b : Builder} {ns ms : List Node} {ps : List Text}

/-- Whether blanks are kept in the innermost open element. -/
def keeps (b : Builder) : Bool := b.opened.any fun o => blankKeepers.contains o.name

/-- A document with some more nodes in its innermost open element, where no text is pending. -/
def after (b : Builder) (ns : List Node) (passed : List Text) : Builder :=
  { ns.foldl add b with pending := none, passed }

theorem add_update (b : Builder) (n : Node) (pending : Option Text) (passed : List Text) :
    { b with pending, passed }.add n = { b.add n with pending, passed } := by
  cases b with
  | mk opened top _ _ => cases opened <;> rfl

theorem foldl_add_update (b : Builder) (ns : List Node) (pending : Option Text)
    (passed : List Text) :
    ns.foldl add { b with pending, passed } = { ns.foldl add b with pending, passed } := by
  induction ns generalizing b with
  | nil => rfl
  | cons n ns ih => rw [List.foldl_cons, List.foldl_cons, add_update, ih]

theorem after_after (b : Builder) (ns ms : List Node) (ps qs : List Text) :
    (b.after ns ps).after ms qs = b.after (ns ++ ms) qs := by
  rw [after, after, foldl_add_update, after, List.foldl_append]

theorem after_update (b : Builder) (ns : List Node) (pending : Option Text)
    (passed ps : List Text) :
    { b with pending, passed }.after ns ps = b.after ns ps := by
  rw [after, foldl_add_update, after]

theorem keeps_add (b : Builder) (n : Node) : (b.add n).keeps = b.keeps := by
  cases b with
  | mk opened top _ _ => cases opened <;> rfl

theorem keeps_after (b : Builder) (ns : List Node) (ps : List Text) :
    (b.after ns ps).keeps = b.keeps := by
  show (ns.foldl add b).keeps = b.keeps
  induction ns generalizing b with
  | nil => rfl
  | cons n ns ih => rw [List.foldl_cons, ih, keeps_add]

theorem flush_eq (b : Builder) : b.flush = b.after (settledText b.keeps b.pending) b.passed := by
  cases b with
  | mk opened top pending passed =>
    cases pending with
    | none => rfl
    | some t => cases opened <;> rfl

/-- Nodes go to the innermost open element. -/
theorem foldl_add_opened (o : Open) (os : List Open) (top : List Node) (pending : Option Text)
    (passed : List Text) (ns : List Node) :
    ns.foldl add ⟨o :: os, top, pending, passed⟩
      = ⟨{ o with content := ns.reverse ++ o.content } :: os, top, pending, passed⟩ := by
  induction ns generalizing o with
  | nil => rfl
  | cons n ns ih =>
    rw [List.foldl_cons, add, ih]
    simp

theorem foldl_add_top (top : List Node) (pending : Option Text) (passed : List Text)
    (ns : List Node) :
    ns.foldl add ⟨[], top, pending, passed⟩ = ⟨[], ns.reverse ++ top, pending, passed⟩ := by
  induction ns generalizing top with
  | nil => rfl
  | cons n ns ih =>
    rw [List.foldl_cons, add, ih]
    simp

theorem pending_flush (b : Builder) : b.flush.pending = none := by
  rw [flush_eq]
  rfl

theorem passed_flush (b : Builder) : b.flush.passed = b.passed := by
  rw [flush_eq]
  rfl

theorem keeps_start (b : Builder) (name : Text) (attributes : Attributes) (p : Position) :
    (b.start name attributes p).keeps = (blankKeepers.contains name || b.keeps) := by
  rw [← keeps_after b (settledText b.keeps b.pending) b.passed, ← flush_eq]
  rfl

/-- An element that is opened, filled and closed is a node with its content. -/
theorem close_start (b : Builder) {name : Text} (attributes : Attributes) (p : Position)
    {x : Builder} (h : x.flush = (b.start name attributes p).after ns ps) :
    x.close name = b.after (settledText b.keeps b.pending ++ [.element name attributes p ns])
      ps := by
  rw [← after_after b _ _ b.passed, ← flush_eq]
  rw [start] at h
  generalize b.flush = c at h ⊢
  obtain ⟨opened, top, pending, passed⟩ := c
  rw [close, h, after, foldl_add_opened]
  simp only [List.findIdx?_cons, decide_true, ite_true, closeMany, closeOne, List.append_nil,
    List.reverse_reverse]
  rw [after, List.foldl_cons, List.foldl_nil]
  cases opened <;> rfl

/-- A remark is a text of its own. -/
theorem take_remark (b : Builder) (p : Position) (t : Text) :
    b.take ⟨p, .remark t⟩ = b.after (settledText b.keeps b.pending ++ [.text (settled b.keeps t)])
      b.passed := by
  have hk : b.flush.keeps = b.keeps := by rw [flush_eq, keeps_after]
  have hf := flush_eq { b.flush with pending := some t }
  show flush { b.flush with pending := some t } = _
  rw [hf, after_update b.flush, passed_flush]
  show b.flush.after [.text (settled b.flush.keeps t)] b.passed = _
  rw [hk, ← after_after b _ _ b.passed, ← flush_eq]

/-- An element without content ends where it starts, and its end tag is passed over from then on. -/
theorem take_void (b : Builder) {name : Text} (hv : name ∈ voidElements) (attributes : Attributes)
    (p : Position) :
    b.take ⟨p, .startTag name attributes false⟩ =
      b.after (settledText b.keeps b.pending ++ [.element name attributes p []])
        (name :: b.passed) := by
  have hc : voidElements.contains name = true := by simpa using hv
  have hclose : (b.start name attributes p).close name
      = b.after (settledText b.keeps b.pending ++ [.element name attributes p []]) b.passed := by
    refine close_start b attributes p ?_
    rw [flush_eq, start, pending_flush, passed_flush]
    rfl
  simp only [take, hc, ite_true, hclose]
  rfl

/-- An end tag closes an element, unless it is that of an element without content. -/
theorem endTag_eq {x : Builder} {name : Text} (hv : name ∉ voidElements)
    (hx : ∀ n ∈ x.passed, n ∈ voidElements) :
    x.endTag name = x.close name := by
  have hc : x.passed.contains name = false := by
    rw [← Bool.not_eq_true, List.contains_iff_mem]
    exact fun h => hv (hx _ h)
  rw [endTag, hc, if_neg Bool.false_ne_true]

end Builder

/-! ## Taking a page in -/

/-- A document takes events in as nodes of its innermost open element, after which no text is
pending. -/
def Takes (b : Builder) (events : List Located) (ns : List Node) : Prop :=
  ∃ ps, (∀ n ∈ ps, n ∈ voidElements) ∧ (events.foldl Builder.take b).flush = b.after ns ps

namespace Takes

variable {b : Builder} {events : List Located} {ns : List Node} {p q : Position} {name : Text}
  {attributes : Attributes}

/-- What a piece of a page is taken in as, and then what is behind the piece. -/
theorem piece {node : Node} {ps : List Text} {next : Written}
    (h : events.foldl Builder.take b = b.after (settledText b.keeps b.pending ++ [node]) ps)
    (hps : ∀ n ∈ ps, n ∈ voidElements)
    (hn : ∀ (p : Position) (b : Builder), (∀ n ∈ b.passed, n ∈ voidElements) →
      Takes b (next.events p) (next.nodes b.keeps p b.pending)) (q : Position) :
    Takes b (events ++ next.events q)
      (settledText b.keeps b.pending ++ node :: next.nodes b.keeps q none) := by
  obtain ⟨qs, hqs, hn⟩ := hn q (b.after (settledText b.keeps b.pending ++ [node]) ps) hps
  refine ⟨qs, hqs, ?_⟩
  rw [List.foldl_append, h, hn, Builder.keeps_after, Builder.after_after, List.append_assoc]
  rfl

/-- The tags of an element and what is taken in between them. -/
theorem element (hv : name ∉ voidElements) (h : Takes (b.start name attributes p) events ns)
    (q : Position) :
    ∃ ps, (∀ n ∈ ps, n ∈ voidElements) ∧
      (⟨p, .startTag name attributes false⟩ :: (events ++ [⟨q, .endTag name⟩])).foldl Builder.take b
        = b.after (settledText b.keeps b.pending ++ [.element name attributes p ns]) ps := by
  obtain ⟨ps, hps, h⟩ := h
  refine ⟨ps, hps, ?_⟩
  have hc : voidElements.contains name = false := by simpa using hv
  have hstart : b.take ⟨p, .startTag name attributes false⟩ = b.start name attributes p := by
    simp only [Builder.take, hc, Bool.false_eq_true, ite_false]
  have hpassed : (events.foldl Builder.take (b.start name attributes p)).passed = ps := by
    rw [← Builder.passed_flush, h]
    rfl
  rw [List.foldl_cons, hstart, List.foldl_append, List.foldl_cons, List.foldl_nil]
  show Builder.endTag _ name = _
  rw [Builder.endTag_eq hv (hpassed ▸ hps), Builder.close_start b attributes p h]

/-- Raw text. -/
theorem raw (b : Builder) (hp : b.pending = none) (q : Position) (t : Text)
    (hb : ∀ n ∈ b.passed, n ∈ voidElements) :
    Takes b (textEvents q t) (rawNodes b.keeps t) := by
  refine ⟨b.passed, hb, ?_⟩
  rw [textEvents, rawNodes]
  split
  · rw [List.foldl_nil, Builder.flush_eq, hp]
    rfl
  · have htake : b.take ⟨q, .text t⟩ = { b with pending := some t } := by
      simp [Builder.take, hp]
    rw [List.foldl_cons, List.foldl_nil, htake, Builder.flush_eq, Builder.after_update b]
    rfl

end Takes

/-- Elements with raw text are neither void nor do they keep blanks. -/
theorem not_void_of_isRawElement {name : Text} (h : isRawElement name = true) :
    name ∉ voidElements ∧ blankKeepers.contains name = false := by
  have hk : ∀ m ∈ blankKeepers, isRawElement m = false := by decide
  refine ⟨fun hm => ?_, ?_⟩
  · rw [not_isRawElement_of_void hm] at h
    cases h
  · rw [← Bool.not_eq_true, List.contains_iff_mem]
    intro hm
    rw [hk name hm] at h
    cases h

/-- A document takes the pieces of a page in as the page's nodes. -/
theorem Written.takes {w : Written} (hw : w.WellFormed) (p : Position) (b : Builder)
    (hb : ∀ n ∈ b.passed, n ∈ voidElements) :
    Takes b (w.events p) (w.nodes b.keeps p b.pending) := by
  induction w generalizing p b with
  | nil => exact ⟨b.passed, hb, Builder.flush_eq b⟩
  | letter l next ih =>
    obtain ⟨ps, hps, h⟩ :=
      ih hw.2 (p.after l.render) { b with pending := some (b.pending.getD [] ++ l.read) } hb
    refine ⟨ps, hps, h.trans ?_⟩
    rw [Builder.after_update b]
    rfl
  | remark r next ih =>
      exact @Takes.piece b [⟨p, .remark r.read⟩] _ _ _ (b.take_remark p r.read) hb (ih hw.2) _
  | void l next ih =>
    obtain ⟨⟨-, hv⟩, hw⟩ := hw
    exact @Takes.piece b [⟨p, .startTag l.name l.read false⟩] _ _ _ (b.take_void hv l.read p)
      (List.forall_mem_cons.2 ⟨hv, hb⟩) (ih hw) _
  | raw l t next ih =>
    obtain ⟨⟨hl, hraw, -⟩, hw⟩ := hw
    obtain ⟨hv, hk⟩ := not_void_of_isRawElement hraw
    have hpassed : (b.start l.name l.read p).passed = b.passed := Builder.passed_flush b
    obtain ⟨ps, hps, h⟩ := Takes.element hv (Takes.raw (b.start l.name l.read p)
      (Builder.pending_flush b) (p.after l.start) t (hpassed ▸ hb)) ((p.after l.start).after t)
    rw [Builder.keeps_start, hk, Bool.false_or] at h
    have := Takes.piece h hps (ih hw) (l.behind p t)
    simp only [List.cons_append, List.append_assoc, List.nil_append] at this
    exact this
  | element l content next ihc ihn =>
    obtain ⟨⟨hl, hv, -⟩, hc, hw⟩ := hw
    have hpassed : (b.start l.name l.read p).passed = b.passed := Builder.passed_flush b
    have hpending : (b.start l.name l.read p).pending = none := Builder.pending_flush b
    have hcontent := ihc hc (p.after l.start) (b.start l.name l.read p) (hpassed ▸ hb)
    rw [Builder.keeps_start, hpending] at hcontent
    obtain ⟨ps, hps, h⟩ := Takes.element hv hcontent ((p.after l.start).after content.render)
    have := Takes.piece h hps (ihn hw) (l.behind p content.render)
    simp only [List.cons_append, List.append_assoc, List.nil_append] at this
    exact this

/-- The document of a well-formed page. -/
theorem Written.parse_eq {w : Written} (hw : w.WellFormed) :
    parse w.render = .ok (w.nodes false .start none) := by
  obtain ⟨ps, -, h⟩ := Written.takes hw .start .empty (fun n hn => nomatch hn)
  have hk : Builder.empty.keeps = false := rfl
  have hp : Builder.empty.pending = none := rfl
  rw [hk, hp] at h
  rw [Written.parse_render hw, Builder.finish, h, Builder.after, Builder.empty,
    Builder.foldl_add_top]
  simp [Builder.closeMany]

end SlideDeck.Markup
