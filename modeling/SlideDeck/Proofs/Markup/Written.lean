import SlideDeck.Markup.Document
import SlideDeck.Proofs.Markup.Balance
import SlideDeck.Proofs.Markup.EndTag

/-!
# Written pages

A page written down from left to right (`Written`): letters, remarks, elements without content,
elements with raw text, and elements with a page of their own between their tags. In a well-formed
page every piece is read as what it is meant to be (`Written.WellFormed`).

Remarks and raw texts may hold what looks like a tag. Where they hold none of a name
(`Written.Quiet`), a scan for the end of an element of this name passes over the page
(`Written.passes`), so that the span of an element is the content it was written with
(`Label.spanAt_element`), and an element without content has no span (`Label.spanAt_void`).
-/

namespace SlideDeck.Markup

/-! ## Pieces of a page -/

/-- A character of a text as it is written: itself, or a reference by name. -/
inductive Letter where
  | char (c : Char)
  | reference (name : Text)
  deriving DecidableEq, Repr

namespace Letter

def render : Letter → Text
  | .char c => [c]
  | .reference name => '&' :: name ++ [';']

/-- The text that a letter stands for. -/
def read : Letter → Text
  | .char c => [c]
  | .reference name => textNamed name

/-- A letter that starts nothing else in markup. -/
def IsReadable : Letter → Prop
  | .char c => c ≠ '<' ∧ c ≠ '&'
  | .reference name => name.head?.any Char.isAlpha = true ∧ name.all isNameChar = true

instance : (l : Letter) → Decidable l.IsReadable
  | .char _ => inferInstanceAs (Decidable (_ ∧ _))
  | .reference _ => inferInstanceAs (Decidable (_ ∧ _))

theorem not_mem_render {l : Letter} (h : l.IsReadable) : '<' ∉ l.render := by
  cases l with
  | char c =>
    obtain ⟨hc, -⟩ := h
    simp [render, Ne.symm hc]
  | reference name =>
    have hn : '<' ∉ name := fun hm => absurd (List.all_eq_true.1 h.2 _ hm) (by decide)
    simp [render, hn]

end Letter

/-- A remark as it is written. -/
inductive Remark where
  | comment (t : Text)
  | doctype (t : Text)
  deriving DecidableEq, Repr

namespace Remark

/-- What stands between the brackets of a remark. -/
def inner : Remark → Text
  | .comment t => "!--".toList ++ t ++ "--".toList
  | .doctype t => "!DOCTYPE".toList ++ t

def render (r : Remark) : Text := '<' :: r.inner ++ ['>']

/-- The text that is kept of a remark. -/
def read : Remark → Text
  | .comment t => t
  | .doctype t => t.drop 1

/-- A remark that ends at its own end. -/
def IsReadable : Remark → Prop
  | .comment t => Text.search skipCommentEnd (t ++ "-->".toList) = some (t, [])
  | .doctype t => '>' ∉ t

instance : (r : Remark) → Decidable r.IsReadable
  | .comment _ => inferInstanceAs (Decidable (_ = _))
  | .doctype _ => inferInstanceAs (Decidable (¬_))

end Remark

instance (a : Text × Text) : Decidable (IsPlain a) :=
  decidable_of_iff (a.1 ≠ [] ∧ a.1.all isPlainNameChar = true ∧ '"' ∉ a.2 ∧ '&' ∉ a.2)
    ⟨fun ⟨h₁, h₂, h₃, h₄⟩ => ⟨h₁, h₂, h₃, h₄⟩, fun ⟨h₁, h₂, h₃, h₄⟩ => ⟨h₁, h₂, h₃, h₄⟩⟩

/-- What the tags of an element say: its name and its attributes. -/
structure Label where
  name : Text
  attributes : List (Text × Text)
  deriving DecidableEq, Repr

namespace Label

/-- The start tag. -/
def start (l : Label) : Text := StartTag.write l.name l.attributes

/-- The end tag. -/
def stop (l : Label) : Text := writeEnd l.name

/-- The attributes as they are read, each name once. -/
def read (l : Label) : Attributes := l.attributes.foldl (fun attrs (n, v) => attrs.set n v) []

/-- The words of the class. -/
def classes (l : Label) : List Text := Text.words ((l.read.lookup "class".toList).getD [])

/-- A label whose tags are read as they are written. -/
def IsReadable (l : Label) : Prop :=
  isTagName l.name = true ∧ ∀ x ∈ l.attributes, IsPlain x ∧ '<' ∉ x.2

instance (l : Label) : Decidable l.IsReadable := inferInstanceAs (Decidable (_ ∧ _))

variable {l : Label}

theorem IsReadable.isPlain (h : l.IsReadable) : ∀ x ∈ l.attributes, IsPlain x :=
  fun x hx => (h.2 x hx).1

theorem IsReadable.not_mem (h : l.IsReadable) : ∀ x ∈ l.attributes, '<' ∉ x.2 :=
  fun x hx => (h.2 x hx).2

theorem start_ne_nil (l : Label) : l.start ≠ [] := by simp [start, StartTag.write]

theorem stop_ne_nil (l : Label) : l.stop ≠ [] := by simp [stop, writeEnd]

end Label

/-! ## Pages -/

/-- A page from left to right. -/
inductive Written where
  | nil
  | letter (l : Letter) (next : Written)
  | remark (r : Remark) (next : Written)
  /-- An element without content. -/
  | void (l : Label) (next : Written)
  /-- An element with raw text. -/
  | raw (l : Label) (t : Text) (next : Written)
  | element (l : Label) (content next : Written)
  deriving DecidableEq, Repr

namespace Written

/-- The text of a page. -/
def render : Written → Text
  | .nil => []
  | .letter l next => l.render ++ next.render
  | .remark r next => r.render ++ next.render
  | .void l next => l.start ++ next.render
  | .raw l t next => l.start ++ (t ++ (l.stop ++ next.render))
  | .element l content next => l.start ++ (content.render ++ (l.stop ++ next.render))

/-- A page with another one behind it. -/
def append : Written → Written → Written
  | .nil, w => w
  | .letter l next, w => .letter l (next.append w)
  | .remark r next, w => .remark r (next.append w)
  | .void l next, w => .void l (next.append w)
  | .raw l t next, w => .raw l t (next.append w)
  | .element l content next, w => .element l content (next.append w)

theorem append_nil (v : Written) : v.append .nil = v := by
  induction v <;> simp_all [append]

theorem render_append (v w : Written) : (v.append w).render = v.render ++ w.render := by
  induction v <;> simp_all [append, render]

/-- A page of letters only. -/
def IsLetters : Written → Prop
  | .nil => True
  | .letter _ next => next.IsLetters
  | _ => False

instance decidableIsLetters : (w : Written) → Decidable w.IsLetters
  | .nil => inferInstanceAs (Decidable True)
  | .letter _ next => decidableIsLetters next
  | .remark _ _ => inferInstanceAs (Decidable False)
  | .void _ _ => inferInstanceAs (Decidable False)
  | .raw _ _ _ => inferInstanceAs (Decidable False)
  | .element _ _ _ => inferInstanceAs (Decidable False)

/-- Every piece of the page is read as what it is. An element whose content is searched for its end
tag alone holds letters only. -/
def WellFormed : Written → Prop
  | .nil => True
  | .letter l next => l.IsReadable ∧ next.WellFormed
  | .remark r next => r.IsReadable ∧ next.WellFormed
  | .void l next => (l.IsReadable ∧ l.name ∈ voidElements) ∧ next.WellFormed
  | .raw l t next =>
    (l.IsReadable ∧ isRawElement l.name = true ∧ Text.search (skipEndTag l.name) t = none) ∧
      next.WellFormed
  | .element l content next =>
    (l.IsReadable ∧ l.name ∉ voidElements ∧ isRawElement l.name = false ∧
      (isRawSpan l.name = true → content.IsLetters))
      ∧ content.WellFormed ∧ next.WellFormed

instance decidableWellFormed : (w : Written) → Decidable w.WellFormed
  | .nil => inferInstanceAs (Decidable True)
  | .letter _ next =>
    have := decidableWellFormed next
    inferInstanceAs (Decidable (_ ∧ _))
  | .remark _ next =>
    have := decidableWellFormed next
    inferInstanceAs (Decidable (_ ∧ _))
  | .void _ next =>
    have := decidableWellFormed next
    inferInstanceAs (Decidable (_ ∧ _))
  | .raw _ _ next =>
    have := decidableWellFormed next
    inferInstanceAs (Decidable (_ ∧ _))
  | .element _ content next =>
    have := decidableWellFormed content
    have := decidableWellFormed next
    inferInstanceAs (Decidable (_ ∧ _ ∧ _))

/-- No remark and no raw text of the page holds what looks like a tag of the name. -/
def Quiet (n : Text) : Written → Prop
  | .nil => True
  | .letter _ next => next.Quiet n
  | .remark r next => holdsTag n ('<' :: r.inner) = false ∧ next.Quiet n
  | .void _ next => next.Quiet n
  | .raw _ t next => holdsTag n t = false ∧ next.Quiet n
  | .element _ content next => content.Quiet n ∧ next.Quiet n

instance decidableQuiet (n : Text) : (w : Written) → Decidable (w.Quiet n)
  | .nil => inferInstanceAs (Decidable True)
  | .letter _ next => decidableQuiet n next
  | .remark _ next =>
    have := decidableQuiet n next
    inferInstanceAs (Decidable (_ ∧ _))
  | .void _ next => decidableQuiet n next
  | .raw _ _ next =>
    have := decidableQuiet n next
    inferInstanceAs (Decidable (_ ∧ _))
  | .element _ content next =>
    have := decidableQuiet n content
    have := decidableQuiet n next
    inferInstanceAs (Decidable (_ ∧ _))

/-- The names of the elements without content. -/
def voids : Written → List Text
  | .nil => []
  | .letter _ next => next.voids
  | .remark _ next => next.voids
  | .void l next => l.name :: next.voids
  | .raw _ _ next => next.voids
  | .element _ content next => content.voids ++ next.voids

/-- The labels of the elements in document order. -/
def labels : Written → List Label
  | .nil => []
  | .letter _ next => next.labels
  | .remark _ next => next.labels
  | .void l next => l :: next.labels
  | .raw l _ next => l :: next.labels
  | .element l content next => l :: (content.labels ++ next.labels)

theorem labels_append (v w : Written) : (v.append w).labels = v.labels ++ w.labels := by
  induction v <;> simp_all [append, labels]

variable {w : Written}

theorem not_mem_render_of_isLetters (h : w.WellFormed) (hl : w.IsLetters) : '<' ∉ w.render := by
  induction w with
  | nil => exact List.not_mem_nil
  | letter l next ih => exact List.not_mem_append (Letter.not_mem_render h.1) (ih h.2 hl)
  | remark | void | raw | element => exact hl.elim

theorem mem_voidElements_of_mem_voids (h : w.WellFormed) {m : Text} (hm : m ∈ w.voids) :
    m ∈ voidElements := by
  induction w with
  | nil => cases hm
  | letter l next ih => exact ih h.2 hm
  | remark r next ih => exact ih h.2 hm
  | void l next ih =>
    rcases List.mem_cons.1 hm with rfl | hm
    · exact h.1.2
    · exact ih h.2 hm
  | raw l t next ih => exact ih h.2 hm
  | element l content next ihc ihn =>
    rcases List.mem_append.1 hm with hm | hm
    · exact ihc h.2.1 hm
    · exact ihn h.2.2 hm

/-! ## Scanning a page -/

variable {n : Text}

theorem passes_remark (hn : IsNamed n) {r : Remark} (h : holdsTag n ('<' :: r.inner) = false)
    (rest : Text) :
    Tag.Passes n r.render rest := by
  have h₁ : Tag.Passes n ('<' :: r.inner) ('>' :: rest) :=
    .of_not_holdsTag hn (by decide) (by decide) h
  exact Tag.Passes.append h₁ (.of_not_mem (by decide))

theorem passes_raw (hn : IsNamed n) {l : Label} (hl : l.IsReadable) {t : Text}
    (h : holdsTag n t = false) (rest : Text) :
    Tag.Passes n (l.start ++ t ++ l.stop) rest := by
  refine Tag.Passes.element hn hl.1 hl.isPlain hl.not_mem ?_
  exact .of_not_holdsTag hn (by decide) (by decide) h

/-- A scan for the end of an element passes over a page without lone tags of the element's name. -/
theorem passes (hw : w.WellFormed) (hn : IsNamed n) (hq : w.Quiet n)
    (hv : ∀ m ∈ w.voids, sameName n m = false) (rest : Text) : Tag.Passes n w.render rest := by
  induction w generalizing rest with
  | nil => exact .nil
  | letter l next ih =>
    exact Tag.Passes.append (.of_not_mem (Letter.not_mem_render hw.1)) (ih hw.2 hq hv rest)
  | remark r next ih => exact Tag.Passes.append (passes_remark hn hq.1 _) (ih hw.2 hq.2 hv rest)
  | void l next ih =>
    obtain ⟨⟨hl, -⟩, hw⟩ := hw
    have hs : Tag.Passes n l.start (next.render ++ rest) :=
      .write hn hl.1 hl.isPlain hl.not_mem (hv _ (List.mem_cons_self ..))
    exact hs.append (ih hw hq (fun m hm => hv m (List.mem_cons_of_mem _ hm)) rest)
  | raw l t next ih =>
    have h := (passes_raw hn hw.1.1 hq.1 (next.render ++ rest)).append (ih hw.2 hq.2 hv rest)
    simpa only [render, List.append_assoc] using h
  | element l content next ihc ihn =>
    obtain ⟨⟨hl, -⟩, hc, hw⟩ := hw
    have hc := ihc hc hq.1 (fun m hm => hv m (List.mem_append_left _ hm))
        (l.stop ++ (next.render ++ rest))
    have h := (Tag.Passes.element hn hl.1 hl.isPlain hl.not_mem hc).append
      (ihn hw hq.2 (fun m hm => hv m (List.mem_append_right _ hm)) rest)
    simpa only [render, Label.start, Label.stop, List.append_assoc] using h

end Written

/-! ## Spans of written elements -/

namespace Label

variable {l : Label}

/-- Behind the name of an element, its start tag goes on up to the content. -/
theorem skipTagRest_start (hl : l.IsReadable) (before rest : Text) :
    skipTagRest none ((before ++ (l.start ++ rest)).drop (before.length + 1 + l.name.length)) =
      some rest := by
  have he : before ++ (l.start ++ rest) = (before ++ '<' :: l.name) ++
      (writeAttributes l.attributes ++ '>' :: rest) := by
    simp [start, StartTag.write]
  have hn : before.length + 1 + l.name.length = (before ++ '<' :: l.name).length := by
    rw [List.length_append, List.length_cons]
    omega
  rw [he, hn, List.drop_left, skipTagRest_writeAttributes hl.isPlain]
  rfl

/-- The content of an element starts behind its start tag. -/
theorem length_sub_rest (before start rest : Text) :
    (before ++ (start ++ rest)).length - rest.length = before.length + start.length := by
  simp only [List.length_append]
  omega

/-- The span of an element that is searched for its end tag alone. -/
theorem spanAt_raw (hl : l.IsReadable) (hr : isRawSpan l.name = true) {t : Text}
    (ht : Text.search (skipEndTag l.name) t = none) (before rest : Text) :
    spanAt (before ++ (l.start ++ (t ++ (l.stop ++ rest)))) before.length l.name
      = .ok ⟨before.length + l.start.length, before.length + l.start.length + t.length⟩ := by
  have hs := search_skipPlainEndTag hl.1 ht rest
  simp only [spanAt, skipTagRest_start hl, length_sub_rest, hr, ite_true, stop, hs]

/-- The span of another element is what a scan for the end of the element passes over. -/
theorem spanAt_of_passes (hl : l.IsReadable) (hr : isRawSpan l.name = false) {t rest : Text}
    (ht : Tag.Passes l.name t (l.stop ++ rest)) (before : Text) :
    spanAt (before ++ (l.start ++ (t ++ (l.stop ++ rest)))) before.length l.name
      = .ok ⟨before.length + l.start.length, before.length + l.start.length + t.length⟩ := by
  have hn := isNamed_of_isTagName hl.1
  have hb := Tag.balance?_eq_some hn hl.1 ht
  simp only [spanAt, skipTagRest_start hl, length_sub_rest, hr, Bool.false_eq_true, ite_false,
    tagsIn_of_isNamed hn.2, bind, Except.bind]
  rw [show l.stop = writeEnd l.name from rfl, hb]

/-- Elements without content have other names than those with a page between their tags. -/
theorem sameName_eq_false (hl : l.IsReadable) (hv : l.name ∉ voidElements) {m : Text}
    (hm : m ∈ voidElements) :
    sameName l.name m = false := by
  have hall : ∀ m ∈ voidElements, isTagName m = true := by decide
  rw [← Bool.not_eq_true]
  intro h
  rw [eq_of_sameName (forall_of_isTagName hl.1) (forall_of_isTagName (hall m hm)) h] at hv
  exact hv hm

/-- The span of an element is its content. A scan for end tags and start tags goes wrong where a
remark or a raw text in the content holds a tag of the element's name. -/
theorem spanAt_element {content : Written} (hl : l.IsReadable) (hv : l.name ∉ voidElements)
    (hr : isRawSpan l.name = true → content.IsLetters) (hw : content.WellFormed)
    (hq : isRawSpan l.name = false → content.Quiet l.name) (before rest : Text) :
    spanAt (before ++ (l.start ++ (content.render ++ (l.stop ++ rest)))) before.length l.name
      = .ok ⟨before.length + l.start.length, before.length + l.start.length +
        content.render.length⟩ := by
  cases h : isRawSpan l.name with
  | true =>
    refine spanAt_raw hl h (search_skipEndTag_of_not_mem ?_) before rest
    exact Written.not_mem_render_of_isLetters hw (hr h)
  | false =>
    have hp := Written.passes hw (isNamed_of_isTagName hl.1) (hq h)
      (fun m hm => sameName_eq_false hl hv (Written.mem_voidElements_of_mem_voids hw hm))
        (l.stop ++ rest)
    exact spanAt_of_passes hl h hp before

end Label

/-! ## Elements without content -/

namespace Tag

/-- The end of an element of the name that starts in front of the text is not found in the text. -/
def Unclosed (n s : Text) : Prop :=
  ∀ offset depth, 1 ≤ depth → balance? depth (allFrom n offset 0 s) = none

/-- Where the end of an element is not found behind `a`, it is not found from in front of `a` on,
either. -/
def Sinks (n a rest : Text) : Prop := Unclosed n rest → Unclosed n (a ++ rest)

namespace Sinks

variable {n a b rest : Text}

theorem append (ha : Sinks n a (b ++ rest)) (hb : Sinks n b rest) : Sinks n (a ++ b) rest := by
  intro h
  rw [List.append_assoc]
  exact ha (hb h)

theorem of_passes (h : Passes n a rest) : Sinks n a rest := by
  intro hr offset depth hd
  rw [h offset depth hd]
  exact hr _ depth hd

/-- A start tag, be it of the name or of another one. -/
theorem start (hn : IsNamed n) {l : Label} (hl : l.IsReadable) : Sinks n l.start rest := by
  cases hs : sameName n l.name with
  | false => exact of_passes (.write hn hl.1 hl.isPlain hl.not_mem hs)
  | true =>
    intro hr offset depth hd
    have hat := at?_write hn hl.1 hl.isPlain rest
    rw [hs, if_pos rfl] at hat
    rw [allFrom_of_some l.start_ne_nil hat, balance?]
    exact hr _ _ (Nat.le_add_left 1 depth)

/-- An end tag, where the name is that of an element without content. -/
theorem stop (hn : isTagName n = true) (hv : n ∈ voidElements) {l : Label} (hl : l.IsReadable)
    (hv' : l.name ∉ voidElements) : Sinks n l.stop rest := by
  have hs : sameName n l.name = false := by
    rw [← Bool.not_eq_true]
    intro h
    rw [eq_of_sameName (forall_of_isTagName hn) (forall_of_isTagName hl.1) h] at hv
    exact hv' hv
  exact of_passes (.writeEnd_of_ne (isNamed_of_isTagName hn) hl.1 hs)

end Sinks

end Tag

/-- No end tag of an element without content is found in a page. -/
theorem Written.sinks {w : Written} {n : Text} (hw : w.WellFormed) (hn : isTagName n = true)
    (hv : n ∈ voidElements) (hq : w.Quiet n) (rest : Text) : Tag.Sinks n w.render rest := by
  have hn' := isNamed_of_isTagName hn
  induction w generalizing rest with
  | nil => exact fun h => h
  | letter l next ih =>
    have hl : Tag.Passes n l.render (next.render ++ rest) :=
      .of_not_mem (Letter.not_mem_render hw.1)
    exact (Tag.Sinks.of_passes hl).append (ih hw.2 hq rest)
  | remark r next ih =>
      exact (Tag.Sinks.of_passes (passes_remark hn' hq.1 _)).append (ih hw.2 hq.2 rest)
  | void l next ih => exact (Tag.Sinks.start hn' hw.1.1).append (ih hw.2 hq rest)
  | raw l t next ih =>
    have h := (Tag.Sinks.of_passes (passes_raw hn' hw.1.1 hq.1 (next.render ++ rest))).append
        (ih hw.2 hq.2 rest)
    simpa only [render, List.append_assoc] using h
  | element l content next ihc ihn =>
    obtain ⟨⟨hl, hv', -⟩, hc, hw⟩ := hw
    have hstop : Tag.Sinks n l.stop (next.render ++ rest) := .stop hn hv hl hv'
    exact (Tag.Sinks.start hn' hl).append ((ihc hc hq.1 _).append (hstop.append (ihn hw hq.2 rest)))

theorem Label.spanAt_void {l : Label} (hl : l.IsReadable) (hv : l.name ∈ voidElements) {rest : Text}
    (hr : Tag.Unclosed l.name rest) (before : Text) :
    spanAt (before ++ (l.start ++ rest)) before.length l.name =
      .error (.unclosedElement l.name) := by
  have hn := isNamed_of_isTagName hl.1
  have hall : ∀ m ∈ voidElements, isRawSpan m = false := by decide
  have hb := hr 0 1 (Nat.le_refl 1)
  simp only [spanAt, skipTagRest_start hl, hall l.name hv, Bool.false_eq_true, ite_false,
    tagsIn_of_isNamed hn.2, bind, Except.bind]
  rw [Tag.all, hb]

end SlideDeck.Markup
