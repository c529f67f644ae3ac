import SlideDeck.Proofs.Markup.Document

/-!
# Elements with the same content

Nodes with the same content hold elements of the same names (`Node.names_eq_of_same`), and an
element holds the names of all elements that it is around (`mem_names_of_mem_walkAll`). So an
element in which there is no element of a name is not the same as one around an element of this name
(`not_same_of_not_mem`). A node is the same as itself, if no element of it has two attributes of one
name (`Node.same_self`), as none has that is read (`Written.allTidy_nodes`).
-/

namespace SlideDeck.Markup

mutual

/-- The names of the elements of a node, in document order. -/
def Node.names : Node → List Text
  | .text _ => []
  | .element name _ _ content => name :: namesAll content

/-- The names of the elements of some nodes, in document order. -/
def namesAll : List Node → List Text
  | [] => []
  | n :: ns => n.names ++ namesAll ns

end

mutual

theorem Node.names_eq_of_same : (n m : Node) → n.same m = true → n.names = m.names
  | .text _, .text _, _ => rfl
  | .text _, .element .., h => by simp [Node.same] at h
  | .element .., .text _, h => by simp [Node.same] at h
  | .element name _ _ content, .element name' _ _ content', h => by
    simp only [Node.same, Bool.and_eq_true, decide_eq_true_eq] at h
    rw [Node.names, Node.names, h.1.1, namesAll_eq_of_sameAll content content' h.2]

theorem namesAll_eq_of_sameAll : (ns ms : List Node) → sameAll ns ms = true →
    namesAll ns = namesAll ms
  | [], [], _ => rfl
  | [], _ :: _, h => by simp [sameAll] at h
  | _ :: _, [], h => by simp [sameAll] at h
  | n :: ns, m :: ms, h => by
    simp only [sameAll, Bool.and_eq_true] at h
    rw [namesAll, namesAll, Node.names_eq_of_same n m h.1, namesAll_eq_of_sameAll ns ms h.2]

end

variable {f : Element} {as : List Element}

mutual

theorem Node.mem_names_of_mem_walk : (n : Node) → (around : List Element) →
    (f, as) ∈ n.walk around →
    f.name ∈ n.names ∧ ∀ e ∈ as, e ∈ around ∨ f.name ∈ namesAll e.content
  | .text _, _, h => nomatch h
  | .element name attributes position content, around, h => by
    rw [Node.walk] at h
    rw [Node.names]
    rcases List.mem_cons.1 h with h | h
    · obtain ⟨rfl, rfl⟩ := Prod.mk.inj h
      exact ⟨List.mem_cons_self .., fun e he => .inl he⟩
    · obtain ⟨hn, hall⟩ := mem_names_of_mem_walkAll content _ h
      refine ⟨List.mem_cons_of_mem _ hn, fun e he => ?_⟩
      rcases hall e he with he | he
      · rcases List.mem_cons.1 he with rfl | he
        · exact .inr hn
        · exact .inl he
      · exact .inr he

theorem mem_names_of_mem_walkAll : (ns : List Node) → (around : List Element) →
    (f, as) ∈ walkAll around ns →
    f.name ∈ namesAll ns ∧ ∀ e ∈ as, e ∈ around ∨ f.name ∈ namesAll e.content
  | [], _, h => nomatch h
  | n :: ns, around, h => by
    rw [walkAll] at h
    rw [namesAll]
    rcases List.mem_append.1 h with h | h
    · obtain ⟨hn, hall⟩ := Node.mem_names_of_mem_walk n around h
      exact ⟨List.mem_append_left _ hn, hall⟩
    · obtain ⟨hn, hall⟩ := mem_names_of_mem_walkAll ns around h
      exact ⟨List.mem_append_right _ hn, hall⟩

end

mutual

theorem Node.map_name_walk : (n : Node) → (around : List Element) →
    (n.walk around).map (·.1.name) = n.names
  | .text _, _ => rfl
  | .element name attributes position content, around => by
    rw [Node.walk, Node.names, List.map_cons, map_name_walkAll content]

theorem map_name_walkAll : (ns : List Node) → (around : List Element) →
    (walkAll around ns).map (·.1.name) = namesAll ns
  | [], _ => rfl
  | n :: ns, around => by
    rw [walkAll, namesAll, List.map_append, Node.map_name_walk n, map_name_walkAll ns]

end

/-- No element around another one is the same as an element that holds none of its name. -/
theorem not_same_of_not_mem {document : List Node} (h : (f, as) ∈ ancestorsOf document)
    {c : Element} (hc : f.name ∉ namesAll c.content) :
    (as.any fun e => e.toNode.same c.toNode) = false := by
  rw [← Bool.not_eq_true, List.any_eq_true]
  rintro ⟨e, he, hs⟩
  have hn := (mem_names_of_mem_walkAll document [] h).2 e he
  have hnames := Node.names_eq_of_same _ _ hs
  rw [Element.toNode, Element.toNode, Node.names, Node.names, List.cons.injEq] at hnames
  rw [hnames.2] at hn
  rcases hn with hn | hn
  · cases hn
  · exact hc hn

/-! ## Nodes that are the same as themselves -/

mutual

/-- No element of a node has two attributes of one name. -/
def Node.IsTidy : Node → Prop
  | .text _ => True
  | .element _ attributes _ content => (attributes.map Prod.fst).Nodup ∧ AllTidy content

/-- No element of some nodes has two attributes of one name. -/
def AllTidy : List Node → Prop
  | [] => True
  | n :: ns => n.IsTidy ∧ AllTidy ns

end

theorem lookup_of_mem {attributes : Attributes} (hd : (attributes.map Prod.fst).Nodup)
    {name value : Text} (h : (name, value) ∈ attributes) : attributes.lookup name = some value := by
  induction attributes with
  | nil => cases h
  | cons x attributes ih =>
    obtain ⟨n, v⟩ := x
    obtain ⟨hn, hd⟩ := List.nodup_cons.1 hd
    rw [List.lookup_cons]
    rcases List.mem_cons.1 h with h | h
    · cases h
      rw [beq_self_eq_true]
    · have hm : name ∈ attributes.map Prod.fst := List.mem_map_of_mem h
      have hne : name ≠ n := fun he => hn (he ▸ hm)
      rw [beq_false_of_ne hne]
      exact ih hd h

theorem sameAttributes_self (element : Text) {attributes : Attributes}
    (hd : (attributes.map Prod.fst).Nodup) :
    sameAttributes element attributes attributes = true := by
  rw [sameAttributes, decide_eq_true rfl, Bool.true_and, List.all_eq_true]
  rintro ⟨name, value⟩ h
  show (attributes.lookup name).any (sameValue element name value) = true
  rw [lookup_of_mem hd h, Option.any_some, sameValue]
  split <;> simp

mutual

theorem Node.same_self : (n : Node) → n.IsTidy → n.same n = true
  | .text _, _ => by simp [Node.same]
  | .element name _ _ content, h => by
    rw [Node.same, decide_eq_true rfl, sameAttributes_self name h.1, sameAll_self content h.2]
    rfl

theorem sameAll_self : (ns : List Node) → AllTidy ns → sameAll ns ns = true
  | [], _ => rfl
  | n :: ns, h => by
    rw [sameAll, Node.same_self n h.1, sameAll_self ns h.2]
    rfl

end

theorem mem_keys_set {name value n : Text} {attributes : Attributes}
    (h : n ∈ (attributes.set name value).map Prod.fst) :
    n = name ∨ n ∈ attributes.map Prod.fst := by
  induction attributes with
  | nil => exact .inl (List.mem_singleton.1 h)
  | cons x attributes ih =>
    rw [Attributes.set] at h
    split at h
    · rcases List.mem_cons.1 h with h | h
      · exact .inl h
      · exact .inr (List.mem_cons_of_mem _ h)
    · rcases List.mem_cons.1 h with h | h
      · exact .inr (h ▸ List.mem_cons_self ..)
      · exact (ih h).imp_right (List.mem_cons_of_mem _)

theorem nodup_keys_set (name value : Text) {attributes : Attributes}
    (h : (attributes.map Prod.fst).Nodup) :
    ((attributes.set name value).map Prod.fst).Nodup := by
  induction attributes with
  | nil => exact List.pairwise_singleton _ _
  | cons x attributes ih =>
    obtain ⟨hx, h⟩ := List.nodup_cons.1 h
    rw [Attributes.set]
    split
    · next hn => exact List.nodup_cons.2 ⟨hn ▸ hx, h⟩
    · next hn =>
      refine List.nodup_cons.2 ⟨fun hm => ?_, ih h⟩
      exact (mem_keys_set hm).elim hn hx

theorem Label.nodup_keys_read (l : Label) : (l.read.map Prod.fst).Nodup := by
  have : ∀ (as : List (Text × Text)) (start : Attributes), (start.map Prod.fst).Nodup →
      ((as.foldl (fun attrs a => attrs.set a.1 a.2) start).map Prod.fst).Nodup := by
    intro as
    induction as with
    | nil => exact fun _ h => h
    | cons a as ih => exact fun start h => ih _ (nodup_keys_set a.1 a.2 h)
  exact this l.attributes [] List.nodup_nil

theorem allTidy_append {ns ms : List Node} (h₁ : AllTidy ns) (h₂ : AllTidy ms) :
    AllTidy (ns ++ ms) := by
  induction ns with
  | nil => exact h₂
  | cons n ns ih => exact ⟨h₁.1, ih h₁.2⟩

theorem allTidy_settledText (keeps : Bool) (pending : Option Text) :
    AllTidy (settledText keeps pending) := by
  cases pending with
  | none => trivial
  | some t => exact ⟨trivial, trivial⟩

theorem allTidy_rawNodes (keeps : Bool) (t : Text) : AllTidy (rawNodes keeps t) := by
  rw [rawNodes]
  split
  · trivial
  · exact ⟨trivial, trivial⟩

theorem Written.allTidy_nodes (w : Written) (keeps : Bool) (p : Position) (pending : Option Text) :
    AllTidy (w.nodes keeps p pending) := by
  induction w generalizing keeps p pending with
  | nil => exact allTidy_settledText ..
  | letter l next ih => exact ih ..
  | remark r next ih => exact allTidy_append (allTidy_settledText ..) ⟨trivial, ih ..⟩
  | void l next ih =>
      exact allTidy_append (allTidy_settledText ..) ⟨⟨l.nodup_keys_read, trivial⟩, ih ..⟩
  | raw l t next ih =>
    exact allTidy_append (allTidy_settledText ..) ⟨⟨l.nodup_keys_read, allTidy_rawNodes ..⟩, ih ..⟩
  | element l content next ihc ihn =>
    exact allTidy_append (allTidy_settledText ..) ⟨⟨l.nodup_keys_read, ihc ..⟩, ihn ..⟩

end SlideDeck.Markup
