import SlideDeck.Proofs.Config.Reading
import SlideDeck.Proofs.Page.Revision

/-!
# The script of the configuration

A revision looks for the configuration in one script only, the first eligible one that mentions the
variable (`scriptFor?`), and updates it if that script assigns something (`configEdit?_cases`). Of
the scripts outside of the container, the first one with an assignment is therefore updated if and
only if it comes first (`revise_configures`): no element around it has the content of the container,
and no eligible script before it mentions the variable. A remark with the variable's name in an
earlier script is enough for the assignment to be passed over (`revise_stops_at_mention`).
-/

namespace SlideDeck.Page

open Markup
open Assignment (IsAssigned)

/-! ## The script that is looked at -/

/-- The text of an element that holds nothing else. -/
def textOf (e : Element) : Text := (onlyTextOf? e.content).getD []

/-- A script that may carry the configuration: no element around it has the content of the
container. -/
def IsEligible (container : Element) (x : Element × List Element) : Prop :=
  x.1.name = "script".toList ∧ (x.2.any fun e => e.toNode.same container.toNode) = false

instance (container : Element) (x : Element × List Element) : Decidable (IsEligible container x) :=
  inferInstanceAs (Decidable (_ ∧ _))

/-- The script in which the configuration is looked for: the first eligible one that mentions the
variable. -/
def scriptFor? (marker : Text) (container : Element) (document : List Node) :
    Option (Element × List Element) :=
  (ancestorsOf document).find? fun x => decide (IsEligible container x) &&
    Text.holds marker (textOf x.1)

theorem find?_holds_scriptsOutside (marker : Text) (container : Element) (document : List Node) :
    (scriptsOutside container document).find? (fun x => Text.holds marker x.2)
      = (scriptFor? marker container document).map fun x => (x.1, textOf x.1) := by
  have hread : scriptsOutside container document = (ancestorsOf document).filterMap fun x =>
      if IsEligible container x then some (x.1, textOf x.1) else none := by
    refine congrArg (fun f => List.filterMap f (ancestorsOf document)) (funext fun x => ?_)
    have hiff : (x.1.name = "script".toList ∧
        (!x.2.any fun e => e.toNode.same container.toNode) = true)
        ↔ IsEligible container x := by rw [IsEligible, Bool.not_eq_true']
    exact if_congr hiff rfl rfl
  rw [hread, List.find?_filterMap, scriptFor?]
  have hmentions : (fun x => (if IsEligible container x then some (x.1, textOf x.1) else none).any
      fun y => Text.holds marker y.2) = fun x => decide (IsEligible container x) &&
        Text.holds marker (textOf x.1) := by
    funext x
    by_cases hx : IsEligible container x <;> simp [hx]
  rw [hmentions]
  cases hf : (ancestorsOf document).find? fun x => decide (IsEligible container x) &&
    Text.holds marker (textOf x.1) with
  | none => rfl
  | some x =>
    have hx := List.find?_some hf
    rw [Bool.and_eq_true, decide_eq_true_eq] at hx
    rw [Option.bind_some, if_pos hx.1]
    rfl

/-- An edit that writes a deck's fields into what a script configures. -/
def Updates [Record.Nesting] (marker html : Text) (fields : DeckFields) (script : Element)
    (e : Edit) : Prop :=
  ∃ config, (Embedded.read marker (textOf script)).result = .ok (some config) ∧
    script.span html = .ok e.span ∧
    (config.update marker fields (e.span.slice html)).result = .ok e.text

variable {marker html out : Text} {content : Content} {container : Element} {document : List Node}
  {before after : List (Element × List Element)} {x : Element × List Element}

/-- The edit of the configuration is the update of the script that is looked at, if that assigns
something. -/
theorem configEdit?_cases [Record.Nesting] {fields : DeckFields} {e : Option Edit}
    (h : (configEdit? html marker fields (scriptsOutside container document)).result = .ok e) :
    e = none ∧ (∀ y, scriptFor? marker container document = some y →
      ¬IsAssigned marker (textOf y.1)) ∨
      ∃ y edit, scriptFor? marker container document = some y ∧ e = some edit ∧
        Updates marker html fields y.1 edit := by
  rcases configEdit?_eq_ok_iff.1 h with ⟨hf, rfl⟩ | ⟨script, text, config, hf, hr, hconfig⟩
  · rw [find?_holds_scriptsOutside, Option.map_eq_none_iff] at hf
    exact .inl ⟨rfl, fun y hy => by cases hf.symm.trans hy⟩
  · rw [find?_holds_scriptsOutside] at hf
    obtain ⟨y, hy, heq⟩ := Option.map_eq_some_iff.1 hf
    cases heq
    rcases hconfig with ⟨rfl, rfl⟩ | ⟨c, span, new, rfl, hs, hu, rfl⟩
    · refine .inl ⟨rfl, fun z hz => ?_⟩
      obtain rfl := Option.some.inj (hy.symm.trans hz)
      exact Embedded.result_read_eq_none_iff.1 hr
    · exact .inr ⟨y, ⟨span, new⟩, hy, rfl, c, hr, hs, hu⟩

/-! ## The first script with an assignment -/

/-- A script outside of the container that assigns something, the first one behind the elements in
`before`. -/
structure AssignsFirst (marker : Text) (container : Element)
    (before : List (Element × List Element)) (x : Element × List Element) : Prop where
  name : x.1.name = "script".toList
  outside : container ∉ x.2
  assigned : IsAssigned marker (textOf x.1)
  first : ∀ y ∈ before, y.1.name = "script".toList → container ∉ y.2 →
    ¬IsAssigned marker (textOf y.1)

/-- A script comes first if it is eligible and no eligible script before it mentions the
variable. -/
def ComesFirst (marker : Text) (container : Element) (before : List (Element × List Element))
    (x : Element × List Element) : Prop :=
  IsEligible container x ∧ ∀ y ∈ before, IsEligible container y → ¬Text.Holds marker (textOf y.1)

theorem scriptFor?_eq_some_iff (hs : ancestorsOf document = before ++ x :: after)
    (hx : AssignsFirst marker container before x) :
    scriptFor? marker container document = some x ↔ ComesFirst marker container before x := by
  rw [scriptFor?, hs]
  constructor
  · intro h
    have hfound := List.find?_some h
    rw [Bool.and_eq_true, decide_eq_true_eq] at hfound
    refine ⟨hfound.1, fun y hy hey hm => ?_⟩
    -- Then a script before this one would be found, and that would be a second one with the same
    -- assignment.
    rw [List.find?_append] at h
    cases hz : before.find? fun x => decide (IsEligible container x) &&
      Text.holds marker (textOf x.1) with
    | none =>
      refine List.find?_eq_none.1 hz y hy ?_
      rw [Bool.and_eq_true, decide_eq_true_eq]
      exact ⟨hey, Text.holds_iff.2 hm⟩
    | some z =>
      rw [hz, Option.some_or] at h
      obtain rfl := Option.some.inj h
      exact hx.first z (List.mem_of_find?_eq_some hz) hx.name hx.outside hx.assigned
  · rintro ⟨he, hfirst⟩
    rw [List.find?_append, List.find?_eq_none.2, Option.none_or, List.find?_cons_of_pos]
    · rw [Bool.and_eq_true, decide_eq_true_eq]
      exact ⟨he, Text.holds_iff.2 hx.assigned.holds⟩
    · intro y hy hm
      rw [Bool.and_eq_true, decide_eq_true_eq] at hm
      exact hfirst y hy hm.1 (Text.holds_iff.1 hm.2)

/-- Of all scripts outside of the container, the first one that assigns something is updated if it
comes first, and its update stands in the new page with nothing but replacements of other spans
around it, if the spans lie apart. If it does not come first, then no configuration is updated, or
that of another script. -/
theorem revise_configures [Record.Nesting] (hd : Markup.parse html = .ok document)
    (hc : container? (elementsOf document) = some container)
    (hs : ancestorsOf document = before ++ x :: after) (hx : AssignsFirst marker container before x)
    (h : (revise marker content html).result = .ok out) :
    ∃ slides, ∃ title config : Option Edit, ∃ es, (edits marker content html).result = .ok es ∧
      out = Edit.applyAll html es ∧
      es = slides :: (title.toList ++ config.toList) ∧
      (ComesFirst marker container before x → ∃ e, config = some e ∧
        Updates marker html content.fields x.1 e ∧
        (Edit.Apart es → out = Edit.fill html (Edit.leftToRight es) 0)) ∧
      (¬ComesFirst marker container before x → ∀ e, config = some e →
        ∃ y, y ≠ x ∧ scriptFor? marker container document = some y ∧
          Updates marker html content.fields y.1 e) := by
  obtain ⟨es, he, h⟩ := Attempt.result_bind_eq_ok.1 h
  obtain rfl : Edit.applyAll html es = out := Except.ok.inj h
  obtain ⟨document', container', slides, title, config, hd', hc', -, -, hconfig, heq⟩ :=
    edits_eq_ok_iff.1 he
  cases hd.symm.trans hd'
  cases hc.symm.trans hc'
  refine ⟨slides, title, config, es, he, rfl, heq, fun hfirst => ?_, fun hfirst e hce => ?_⟩
  · have hfor := (scriptFor?_eq_some_iff hs hx).2 hfirst
    rcases configEdit?_cases hconfig with ⟨-, hnone⟩ | ⟨y, e, hy, hce, hu⟩
    · exact absurd hx.assigned (hnone x hfor)
    · have hwithin : ∀ e ∈ es, Edit.Within html.length e := fun e hm =>
        within_of_replaces (replaces_of_edits he) (List.mem_map_of_mem hm)
      obtain rfl := Option.some.inj (hy.symm.trans hfor)
      exact ⟨e, hce, hu, fun ha => (Edit.keepsOutside_of_apart ha hwithin).2⟩
  · rcases configEdit?_cases hconfig with ⟨hnone, -⟩ | ⟨y, e', hy, hce', hu⟩
    · cases hnone.symm.trans hce
    · obtain rfl := Option.some.inj (hce.symm.trans hce')
      refine ⟨y, ?_, hy, hu⟩
      rintro rfl
      exact hfirst ((scriptFor?_eq_some_iff hs hx).1 hy)

/-- An empty container, the first element of a page. -/
def firstContainer : Element := ⟨"div".toList, [("class".toList, "slides".toList)], .start, []⟩

/-- A script with a text, in no other element. -/
def scriptAt (column : Nat) (t : Text) : Element × List Element :=
  (⟨"script".toList, [], ⟨1, column⟩, [.text t]⟩, [])

/-- A page with an empty container and two scripts behind it. -/
def scriptsPage (first second : Text) : Written :=
  .element ⟨"div".toList, [("class".toList, "slides".toList)]⟩ .nil
    (.raw ⟨"script".toList, []⟩ first (.raw ⟨"script".toList, []⟩ second .nil))

/-- A text that mentions the variable of the configuration and assigns nothing to it. -/
def mention : Text := "// SLConfig".toList

/-- A text that assigns a record to the variable. -/
def assignment : Text := "var SLConfig = \x7b\"deck\":\x7b\x7d\x7d;".toList

theorem isAssigned_assignment : IsAssigned "SLConfig".toList assignment :=
  Assignment.isSome_find?_iff.1 (by decide +kernel)

theorem not_isAssigned_mention : ¬IsAssigned "SLConfig".toList mention := fun h =>
  absurd (Assignment.isSome_find?_iff.2 h) (by decide +kernel)

/-- What mentions the variable behind the script does not matter. -/
theorem revise_configures_before_mention :
    let html := (scriptsPage assignment mention).render
    let content : Content := ⟨"deck-x".toList, ['T'], Layout.outline []⟩
    let before := [(firstContainer, [])]
    ∃ document after out, Markup.parse html = .ok document ∧
      container? (elementsOf document) = some firstContainer ∧
      ancestorsOf document = before ++ scriptAt 26 assignment :: after ∧
      AssignsFirst "SLConfig".toList firstContainer before (scriptAt 26 assignment) ∧
      ComesFirst "SLConfig".toList firstContainer before (scriptAt 26 assignment) ∧
      (revise "SLConfig".toList content html).result = .ok out ∧
      ∃ e es, (edits "SLConfig".toList content html).result = .ok es ∧ out = Edit.applyAll html es ∧
        e ∈ es ∧
        Updates "SLConfig".toList html content.fields (scriptAt 26 assignment).1 e := by
  intro html content before
  have hd : Markup.parse html = .ok _ := Written.parse_eq (by decide +kernel)
  have hx : AssignsFirst "SLConfig".toList firstContainer before (scriptAt 26 assignment) := by
    refine ⟨rfl, List.not_mem_nil, isAssigned_assignment, fun y hy hn => ?_⟩
    rw [List.mem_singleton.1 hy] at hn
    exact absurd hn (by decide)
  have hfirst : ComesFirst "SLConfig".toList firstContainer before (scriptAt 26 assignment) := by
    refine ⟨by decide, fun y hy hn => ?_⟩
    rw [List.mem_singleton.1 hy] at hn
    exact absurd hn (by decide)
  obtain ⟨out, h, -⟩ := Outcome.exists_of_any (x := (revise "SLConfig".toList content html).result)
    (p := fun _ => true) (by decide +kernel)
  obtain ⟨slides, title, config, es, he, hout, hes, hconfig, -⟩ := revise_configures hd rfl rfl hx h
  obtain ⟨e, rfl, hu, -⟩ := hconfig hfirst
  exact ⟨_, _, out, hd, rfl, rfl, hx, hfirst, h, e, es, he, hout, by rw [hes]; simp, hu⟩

/-- A script that only mentions the variable keeps the one behind it from being updated. -/
theorem revise_stops_at_mention :
    let html := (scriptsPage mention assignment).render
    let content : Content := ⟨"deck-x".toList, ['T'], Layout.outline []⟩
    let before := [(firstContainer, []), scriptAt 26 mention]
    ∃ document after, Markup.parse html = .ok document ∧
      container? (elementsOf document) = some firstContainer ∧
      ancestorsOf document = before ++ scriptAt 54 assignment :: after ∧
      AssignsFirst "SLConfig".toList firstContainer before (scriptAt 54 assignment) ∧
      ¬ComesFirst "SLConfig".toList firstContainer before (scriptAt 54 assignment) ∧
      (revise "SLConfig".toList content html).result =
        .ok ("<div class=\"slides\">\n</div><script>// SLConfig</script><script>".toList ++
          assignment ++ "</script>".toList) := by
  intro html content before
  have hx : AssignsFirst "SLConfig".toList firstContainer before (scriptAt 54 assignment) := by
    refine ⟨rfl, List.not_mem_nil, isAssigned_assignment, fun y hy hn => ?_⟩
    rcases List.mem_cons.1 hy with rfl | hy
    · exact absurd hn (by decide)
    · rw [List.mem_singleton.1 hy]
      exact fun _ => not_isAssigned_mention
  have he : (edits "SLConfig".toList content html).result = .ok [⟨⟨20, 20⟩, ['\n']⟩] :=
    Outcome.eq_ok_of_toOption (by decide +kernel)
  refine ⟨_, _, Written.parse_eq (by decide +kernel), rfl, rfl, hx, fun hfirst => ?_, ?_⟩
  · exact hfirst.2 (scriptAt 26 mention) (by simp [before]) (by decide) (by decide +kernel)
  · refine Attempt.result_bind_eq_ok.2 ⟨_, he, congrArg Except.ok ?_⟩
    rw [Edit.applyAll, List.mergeSort_singleton]
    decide +kernel

end SlideDeck.Page
