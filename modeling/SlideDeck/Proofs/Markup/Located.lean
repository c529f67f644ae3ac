import SlideDeck.Markup.Document
import SlideDeck.Proofs.Outcome
import SlideDeck.Proofs.Text.Position

/-!
# Where elements stand

Whatever a step takes from the start of a text, a suffix of the text is left (`step_leaves`). So
every event is found behind some beginning of the text, at the position behind it (`events_stand`).
An element stands where its start tag does, and it is only put into other elements afterwards
(`Builder.Stands`). So all elements of a document stand behind some beginning of its text
(`parse_stands`), and the positions of all of them can be found in it.
-/

namespace SlideDeck.Markup

/-! ## What is left of a text -/

section Rest

variable {c : Char} {s r t rest : Text}

theorem suffix_cons (c : Char) (s : Text) : s <:+ c :: s := List.suffix_cons c s

theorem suffix_of_upTo (h : upTo c s = some (t, rest)) : rest <:+ s := by
  induction s generalizing t with
  | nil => cases h
  | cons d s ih =>
    rw [upTo] at h
    split at h
    · cases h
      exact suffix_cons d _
    · obtain ⟨⟨t', rest'⟩, h', heq⟩ := Option.map_eq_some_iff.1 h
      cases heq
      exact (ih h').trans (suffix_cons d s)

/-- What is left behind what is recognized somewhere in a text. -/
theorem suffix_of_search {recognize : Text → Option Text}
    (hr : ∀ s rest, recognize s = some rest → rest <:+ s)
    (h : Text.search recognize s = some (t, rest)) : rest <:+ s := by
  induction s generalizing t with
  | nil =>
    obtain ⟨rest', h', heq⟩ := Option.map_eq_some_iff.1 h
    cases heq
    exact hr _ _ h'
  | cons d s ih =>
    rw [Text.search] at h
    split at h
    · next found =>
      cases h
      exact hr _ _ found
    · obtain ⟨⟨t', rest'⟩, h', heq⟩ := Option.map_eq_some_iff.1 h
      cases heq
      exact (ih h').trans (suffix_cons d s)

theorem stripLeft_suffix (s : Text) : Text.stripLeft s <:+ s := List.dropWhile_suffix _

theorem skipSemicolon_suffix (s : Text) : skipSemicolon s <:+ s := by
  unfold skipSemicolon
  split
  · exact suffix_cons _ _
  · exact List.suffix_refl _

theorem skipGap_suffix (s : Text) : skipGap s <:+ s := by
  fun_induction skipGap s with
  | case1 => exact List.suffix_refl _
  | case2 => exact List.suffix_refl _
  | case3 c r h hc ih => exact ih.trans (suffix_cons c r)
  | case4 => exact List.suffix_refl _

/-- A closing bracket behind blanks leaves a suffix. -/
theorem suffix_of_stripLeft (h : Text.stripLeft s = c :: rest) : rest <:+ s :=
  (suffix_cons c rest).trans (h ▸ stripLeft_suffix s)

theorem suffix_of_skipEndTag {name : Text} (h : skipEndTag name s = some rest) : rest <:+ s := by
  unfold skipEndTag at h
  split at h
  · dsimp only at h
    split at h
    · split at h
      · next hstrip =>
        cases h
        exact (suffix_of_stripLeft hstrip).trans
          ((List.drop_suffix _ _).trans ((stripLeft_suffix _).trans
          ((suffix_cons _ _).trans (suffix_cons _ _))))
      · cases h
    · cases h
  · cases h

theorem suffix_of_plainEndTag? (h : plainEndTag? s = some (t, rest)) : rest <:+ s := by
  unfold plainEndTag? at h
  split at h
  · next r =>
    have hr : r <:+ '<' :: '/' :: r := (suffix_cons _ _).trans (suffix_cons _ _)
    split at h
    · next c q hq =>
      split at h
      · split at h
        · next hstrip =>
          cases h
          exact (suffix_of_stripLeft hstrip).trans
            ((List.dropWhile_suffix _).trans ((suffix_of_stripLeft hq).trans hr))
        · cases h
      · cases h
    · cases h
  · cases h

theorem suffix_of_skipCommentEnd (h : skipCommentEnd s = some rest) : rest <:+ s := by
  unfold skipCommentEnd at h
  split at h
  · split at h
    · next hstrip =>
      cases h
      exact (suffix_of_stripLeft hstrip).trans ((suffix_cons _ _).trans (suffix_cons _ _))
    · cases h
  · cases h

theorem suffix_of_skipShortSectionEnd (h : skipShortSectionEnd s = some rest) : rest <:+ s := by
  unfold skipShortSectionEnd at h
  split at h
  · split at h
    · next hstrip =>
      cases h
      exact (suffix_of_stripLeft hstrip).trans (suffix_cons _ _)
    · cases h
  · cases h

theorem suffix_of_skipLongSectionEnd (h : skipLongSectionEnd s = some rest) : rest <:+ s := by
  unfold skipLongSectionEnd at h
  split at h
  · exact (suffix_of_skipShortSectionEnd h).trans ((stripLeft_suffix _).trans (suffix_cons _ _))
  · cases h

theorem suffix_of_digitsOf? {hex found : Bool} {digits : Text}
    (h : digitsOf? hex s = some (found, digits, rest)) :
    rest <:+ s := by
  unfold digitsOf? at h
  dsimp only at h
  split at h
  · cases h
  · cases h
    exact List.dropWhile_suffix _

theorem suffix_of_takeDigits? {hex : Bool} {digits : Text}
    (h : takeDigits? s = some (hex, digits, rest)) : rest <:+ s := by
  unfold takeDigits? at h
  split at h
  · exact (suffix_of_digitsOf? h).trans (suffix_cons _ _)
  · exact (suffix_of_digitsOf? h).trans (suffix_cons _ _)
  · exact suffix_of_digitsOf? h

theorem suffix_of_textNumber? {hex : Bool} {digits : Text}
    (h : textNumber? s = some (hex, digits, rest)) : rest <:+ s := by
  unfold textNumber? at h
  split at h
  · next htaken =>
    split at h
    · cases h
    · cases h
      exact (skipSemicolon_suffix _).trans (suffix_of_takeDigits? htaken)
  · cases h

theorem suffix_of_textName? {name : Text} (h : textName? s = some (name, rest)) : rest <:+ s := by
  unfold textName? at h
  split at h
  · cases h
  · next c r =>
    split at h
    · dsimp only at h
      split at h
      · next hall =>
        split at h
        · cases h
        · next mark start hstart =>
          -- The name takes all of the text, so that its last letters and digits are the text's.
          cases h
          have hwhole : (c :: r).takeWhile isNameChar = c :: r := by
            have := List.takeWhile_append_dropWhile (p := isNameChar) (l := c :: r)
            rwa [hall, List.append_nil] at this
          rw [hwhole] at hstart ⊢
          have hsplit :=
            List.takeWhile_append_dropWhile (p := Char.isAlphanum) (l := (c :: r).reverse)
          rw [hstart, ← List.reverse_eq_iff, List.reverse_append, List.reverse_cons,
            List.append_assoc] at hsplit
          exact ⟨_, hsplit⟩
      · cases h
        exact (skipSemicolon_suffix _).trans (List.dropWhile_suffix _)
    · cases h

theorem suffix_of_bareValue : (bareValue s).2 <:+ s := List.dropWhile_suffix _

/-- The last of the characters that a text starts with stands right before the rest. -/
theorem cons_dropWhile_suffix {p : Char → Bool} (h : (s.takeWhile p).getLast? = some c) :
    c :: s.dropWhile p <:+ s := by
  obtain ⟨init, hinit⟩ := List.getLast?_eq_some_iff.1 h
  refine ⟨init, ?_⟩
  conv_rhs => rw [← List.takeWhile_append_dropWhile (p := p) (l := s), hinit, List.append_assoc,
    List.singleton_append]

theorem suffix_of_unclosedValue? (h : unclosedValue? s = some (t, rest)) : rest <:+ s := by
  have hgap : s.dropWhile (fun d => decide (d = '=')) <:+ s := List.dropWhile_suffix _
  unfold unclosedValue? at h
  dsimp only at h
  split at h
  · next blank hblank =>
    cases h
    exact (cons_dropWhile_suffix hblank).trans hgap
  · next hnone =>
    split at h
    · cases h
    · next hmore =>
      cases h
      refine (suffix_of_bareValue (s := '=' :: Text.stripLeft _)).trans ?_
      have hstrip :
          Text.stripLeft (s.dropWhile (fun d => decide (d = '='))) =
            s.dropWhile (fun d => decide (d = '=')) := by
        have := List.takeWhile_append_dropWhile (p := Text.isBlank)
            (l := s.dropWhile (fun d => decide (d = '=')))
        rwa [List.getLast?_eq_none_iff.1 hnone] at this
      rw [hstrip]
      refine cons_dropWhile_suffix ?_
      rw [List.getLast?_eq_some_getLast hmore]
      have hlast := List.all_eq_true.1 List.all_takeWhile _ (List.getLast_mem hmore)
      rw [of_decide_eq_true hlast]

theorem suffix_of_takeValue? (h : takeValue? s = some (t, rest)) : rest <:+ s := by
  unfold takeValue? at h
  split at h
  · next r hr =>
    refine List.IsSuffix.trans ?_ (suffix_of_stripLeft hr)
    have hvalue : Text.stripLeft (r.dropWhile (fun d => decide (d = '='))) <:+ r :=
      (stripLeft_suffix _).trans (List.dropWhile_suffix _)
    split at h
    · next q hq =>
      rcases Option.or_eq_some_iff.1 h with h | ⟨-, h⟩
      · exact (suffix_of_upTo h).trans ((suffix_cons _ q).trans (hq ▸ hvalue))
      · exact suffix_of_unclosedValue? h
    · next q hq =>
      rcases Option.or_eq_some_iff.1 h with h | ⟨-, h⟩
      · exact (suffix_of_upTo h).trans ((suffix_cons _ q).trans (hq ▸ hvalue))
      · exact suffix_of_unclosedValue? h
    · cases h
      exact suffix_of_bareValue.trans hvalue
  · cases h

theorem suffix_of_takeAttribute? {a : Taken} (h : takeAttribute? s = some a) : a.rest <:+ s := by
  unfold takeAttribute? at h
  split at h
  · cases h
  · next c r =>
    split at h
    · cases h
    · have hrest : r.dropWhile (fun d => !(Text.isBlank d || d == '/' || d == '=' || d == '>')) <:+
          c :: r :=
        (List.dropWhile_suffix _).trans (suffix_cons _ _)
      dsimp only at h
      split at h
      · next hvalue =>
        cases h
        exact (skipGap_suffix _).trans ((suffix_of_takeValue? hvalue).trans hrest)
      · cases h
        exact (skipGap_suffix _).trans hrest

theorem takeAttributes_suffix (whole : Text) (fuel : Nat) (s : Text) :
    (takeAttributes whole fuel s).2 <:+ s := by
  induction fuel generalizing s with
  | zero => exact List.suffix_refl _
  | succ fuel ih =>
    rw [takeAttributes]
    dsimp only
    split
    · split
      · next a ha => exact (ih a.rest).trans (suffix_of_takeAttribute? ha)
      · exact List.suffix_refl _
    · exact List.suffix_refl _

end Rest

/-! ## Steps -/

/-- What a step leaves is a suffix of the text. -/
def Step.Leaves (s : Text) : Step → Prop
  | .event _ _ rest => rest <:+ s
  | .skip rest => rest <:+ s
  | .stop _ rest => rest <:+ s
  | .unfinished => True

section Steps

variable {s t : Text} {st : Step}

theorem Step.Leaves.trans (h : st.Leaves s) (ht : s <:+ t) : st.Leaves t := by
  cases st with
  | unfinished => trivial
  | _ => exact List.IsSuffix.trans h ht

theorem remarkTo_leaves (s : Text) (skipped : Nat) : (remarkTo s skipped).Leaves s := by
  unfold remarkTo
  split
  · next h => exact (suffix_of_upTo h).trans (List.drop_suffix _ _)
  · trivial

theorem remarkUntil_leaves {skip : Text → Option Text}
    (hr : ∀ s rest, skip s = some rest → rest <:+ s) (s : Text) (strip : Text → Text) :
    (remarkUntil skip s strip).Leaves s := by
  unfold remarkUntil
  split
  · next h => exact suffix_of_search hr h
  · trivial

theorem endTagStep_leaves (s : Text) : (endTagStep s).Leaves s := by
  unfold endTagStep
  split
  · trivial
  · split
    · next h => exact suffix_of_plainEndTag? h
    · split
      · next c r hcr =>
        have hsuffix : c :: r <:+ s := hcr ▸ List.drop_suffix 2 s
        split
        · split
          · next h => exact (suffix_of_upTo h).trans hsuffix
          · trivial
        · split
          · exact (suffix_cons c r).trans hsuffix
          · exact remarkTo_leaves s 2
      · trivial

/-- What a start tag leaves is a suffix of the text. -/
def TagEnd.Leaves (s : Text) : TagEnd → Prop
  | .opened rest => rest <:+ s
  | .closed rest => rest <:+ s
  | .unfinished => True
  | .broken rest => rest <:+ s

theorem TagEnd.at_leaves (s : Text) : (TagEnd.at s).Leaves s := by
  unfold TagEnd.at
  split
  · trivial
  · exact suffix_cons _ _
  · exact (suffix_cons '>' _).trans (suffix_cons '/' _)
  · split
    · trivial
    · exact List.suffix_refl _

theorem TagEnd.Leaves.trans {e : TagEnd} (h : e.Leaves s) (ht : s <:+ t) : e.Leaves t := by
  cases e with
  | unfinished => trivial
  | _ => exact List.IsSuffix.trans h ht

theorem StartTag.read_leaves (s : Text) : (StartTag.read s).tagEnd.Leaves s :=
  (TagEnd.at_leaves _).trans ((takeAttributes_suffix s _ _).trans ((skipGap_suffix _).trans
    ((List.dropWhile_suffix _).trans (List.drop_suffix 1 s))))

theorem startTagStep_leaves (h : startTagStep s = .ok st) : st.Leaves s := by
  have hend := StartTag.read_leaves s
  unfold startTagStep at h
  dsimp only at h
  split at h
  · next heq =>
    rw [heq] at hend
    obtain ⟨attributes, -, h⟩ := Outcome.bind_eq_ok.1 h
    cases h
    exact hend
  · next heq =>
    rw [heq] at hend
    obtain ⟨attributes, -, h⟩ := Outcome.bind_eq_ok.1 h
    cases h
    exact hend
  · cases h
    trivial
  · next heq =>
    rw [heq] at hend
    cases h
    exact hend

theorem sectionStep_leaves (h : sectionStep s = .ok st) : st.Leaves s := by
  unfold sectionStep at h
  split at h
  · cases h
    trivial
  · split at h
    · dsimp only at h
      split at h
      · cases h
        trivial
      · split at h
        · cases h
          exact remarkUntil_leaves (fun _ _ => suffix_of_skipLongSectionEnd) _ _
        · split at h
          · cases h
            exact remarkUntil_leaves (fun _ _ => suffix_of_skipShortSectionEnd) _ _
          · cases h
    · cases h

theorem declarationStep_leaves (h : declarationStep s = .ok st) : st.Leaves s := by
  unfold declarationStep at h
  split at h
  · exact (sectionStep_leaves h).trans (List.drop_suffix _ _)
  · split at h
    · split at h
      · next hup =>
        split at h
        · cases h
          exact (suffix_of_upTo hup).trans (List.drop_suffix _ _)
        · cases h
          trivial
      · cases h
        trivial
    · cases h
      exact remarkTo_leaves s 2

theorem leftover_leaves (s : Text) : (leftover s).Leaves s := by
  unfold leftover
  split
  · exact List.suffix_refl _
  · next c r =>
    split
    · next h => exact (suffix_of_upTo h).trans (suffix_cons c r)
    · split
      · exact suffix_cons c r
      · exact (List.dropWhile_suffix _).trans (suffix_cons c r)

theorem openedStep_leaves (h : openedStep s = .ok st) : st.Leaves s := by
  unfold openedStep at h
  split at h
  · split at h
    · exact startTagStep_leaves h
    split at h
    · cases h
      exact endTagStep_leaves _
    split at h
    · cases h
      exact (remarkUntil_leaves (fun _ _ => suffix_of_skipCommentEnd) _ _).trans
        (List.drop_suffix 4 _)
    split at h
    · cases h
      exact remarkTo_leaves _ 2
    split at h
    · exact declarationStep_leaves h
    · cases h
      exact suffix_cons '<' _
  · cases h
    exact List.suffix_refl s

theorem Step.Leaves.finish {closing : Bool} (h : st.Leaves s) : (st.finish closing s).Leaves s := by
  unfold Step.finish
  split
  · split
    · exact leftover_leaves s
    · exact List.suffix_refl _
  · exact h

theorem bracketStep_leaves {closing : Bool} (h : bracketStep closing s = .ok st) : st.Leaves s := by
  obtain ⟨found, hfound, rfl⟩ := Outcome.map_eq_ok.1 h
  exact (openedStep_leaves hfound).finish

theorem ampersandStep_leaves {closing : Bool} (h : ampersandStep closing s = .ok st) :
    st.Leaves s := by
  unfold ampersandStep at h
  split at h
  · next r =>
    have hr : r <:+ '&' :: '#' :: r := (suffix_cons '#' r).trans (suffix_cons '&' _)
    split at h
    · next hnumber =>
      obtain ⟨n, -, h⟩ := Outcome.bind_eq_ok.1 h
      cases h
      exact (suffix_of_textNumber? hnumber).trans hr
    · cases h
      split
      · exact hr
      · exact List.suffix_refl _
  · next c r _ =>
    split at h
    · next hname =>
      cases h
      exact (suffix_of_textName? hname).trans (suffix_cons '&' _)
    · split at h
      · cases h
        split
        · next hlast =>
          rw [hlast.2]
          exact suffix_cons '&' _
        · exact List.suffix_refl _
      · cases h
        exact suffix_cons '&' _
  · cases h
    exact List.suffix_refl _

theorem rawStep_leaves (name s : Text) : (rawStep name s).Leaves s := by
  unfold rawStep
  split
  · exact List.suffix_refl _
  · next h =>
    split
    · next hplain => exact suffix_of_plainEndTag? hplain
    · exact suffix_of_search (fun _ _ => suffix_of_skipEndTag) h
  · exact List.drop_suffix _ _

/-- Whatever a step takes from the start of a text, a suffix of the text is left. -/
theorem step_leaves {closing : Bool} {raw : Option Text} (h : step closing raw s = .ok st) :
    st.Leaves s := by
  unfold step at h
  split at h
  · cases h
    exact rawStep_leaves _ s
  · split at h
    · exact bracketStep_leaves h
    · exact ampersandStep_leaves h
    · cases h
      exact List.dropWhile_suffix _

end Steps

/-! ## Rounds -/

/-- A position is the one behind some beginning of a text. -/
def StandsIn (html : Text) (p : Position) : Prop :=
  ∃ before after, html = before ++ after ∧ p = Position.start.after before

theorem StandsIn.offset? {html : Text} {p : Position} (h : StandsIn html p) :
    ∃ offset, p.offset? html = some offset := by
  obtain ⟨before, after, rfl, rfl⟩ := h
  exact ⟨_, Position.offset?_after before after⟩

section Rounds

variable {before s : Text} {p : Position} {raw : Option Text} {events : List Located}
  {pause : Pause}

/-- From a position behind some beginning of the text on, a round finds its events behind such
beginnings, and so it stops. -/
theorem round_stands {closing : Bool} {fuel : Nat} (hp : p = Position.start.after before)
    (h : round closing fuel p raw s = .ok (events, pause)) :
    (∀ e ∈ events, StandsIn (before ++ s) e.position) ∧
      ∃ taken, s = taken ++ pause.rest ∧
        pause.position = Position.start.after (before ++ taken) := by
  induction fuel generalizing before s p raw events pause with
  | zero =>
    cases h
    exact ⟨nofun, [], rfl, by rw [List.append_nil, hp]⟩
  | succ fuel ih =>
    cases s with
    | nil =>
      cases h
      exact ⟨nofun, [], rfl, by rw [List.append_nil, hp]⟩
    | cons c r =>
      have hbehind {rest : Text} (hrest : rest <:+ c :: r) :
          ∃ taken, c :: r = taken ++ rest ∧
            p.after ((c :: r).take ((c :: r).length - rest.length)) =
            Position.start.after (before ++ taken) := by
        obtain ⟨taken, htaken⟩ := hrest
        refine ⟨taken, htaken.symm, ?_⟩
        rw [← htaken, hp, Position.after_append, List.length_append, Nat.add_sub_cancel,
          List.take_left]
      have hhere : StandsIn (before ++ c :: r) p := ⟨before, c :: r, rfl, hp⟩
      -- The rest of the round is behind what is taken, so it tells about the same text.
      have hgoes {rest : Text} {raw : Option Text} {events : List Located} {pause : Pause}
          (hrest : rest <:+ c :: r)
          (h : round closing fuel (p.after ((c :: r).take ((c :: r).length - rest.length))) raw
            rest =
            .ok (events, pause)) : (∀ e ∈ events, StandsIn (before ++ c :: r) e.position) ∧
          ∃ taken, c :: r = taken ++ pause.rest ∧
            pause.position = Position.start.after (before ++ taken) := by
        obtain ⟨taken, htaken, hposition⟩ := hbehind hrest
        obtain ⟨hevents, more, hmore, hpause⟩ := ih hposition h
        rw [htaken, ← List.append_assoc]
        refine ⟨hevents, taken ++ more, ?_, by rw [hpause, List.append_assoc]⟩
        rw [List.append_assoc, ← hmore]
      rw [round.eq_def] at h
      obtain ⟨st, hst, h⟩ := Outcome.bind_eq_ok.1 h
      have hleaves := step_leaves hst
      cases st with
      | event e raw' rest =>
        obtain ⟨⟨events', pause'⟩, hround, h⟩ := Outcome.bind_eq_ok.1 h
        cases h
        obtain ⟨hevents, htaken⟩ := hgoes hleaves hround
        exact ⟨List.forall_mem_cons.2 ⟨hhere, hevents⟩, htaken⟩
      | skip rest => exact hgoes hleaves h
      | stop t rest =>
        cases h
        refine ⟨fun e he => ?_, hbehind hleaves⟩
        split at he
        · cases he
        · rw [List.mem_singleton.1 he]
          exact hhere
      | unfinished =>
        cases h
        exact ⟨nofun, [], rfl, by rw [List.append_nil, hp]⟩

/-- Every event of a text stands behind some beginning of it. -/
theorem events_stand {html : Text} {found : List Located} (h : Markup.events html = .ok found) :
    ∀ e ∈ found, StandsIn html e.position := by
  obtain ⟨⟨first, pause⟩, hfirst, h⟩ := Outcome.bind_eq_ok.1 h
  obtain ⟨⟨second, last⟩, hsecond, h⟩ := Outcome.bind_eq_ok.1 h
  cases h
  have hstart : Position.start = Position.start.after [] := rfl
  obtain ⟨hevents, taken, htaken, hpause⟩ := round_stands hstart hfirst
  obtain ⟨hevents', more, hmore, hlast⟩ := round_stands hpause hsecond
  rw [List.nil_append] at hevents hpause hlast hevents'
  rw [← htaken] at hevents'
  refine List.forall_mem_append.2 ⟨List.forall_mem_append.2 ⟨hevents, hevents'⟩, fun e he => ?_⟩
  split at he
  · cases he
  · rw [List.mem_singleton.1 he]
    exact ⟨taken ++ more, last.rest, by rw [htaken, hmore, List.append_assoc], hlast⟩

end Rounds

/-! ## Documents -/

section Documents

variable {P : Position → Prop}

/-- All elements of a node have positions of a sort. -/
inductive Node.Stands (P : Position → Prop) : Node → Prop
  | text (t : Text) : Stands P (.text t)
  | element {name : Text} {attributes : Attributes} {position : Position} {content : List Node}
      (hposition : P position)
    (hcontent : ∀ n ∈ content, Stands P n) : Stands P (.element name attributes position content)

theorem exists_of_mem_walkAll {around : List Element} {ns : List Node} {x : Element × List Element}
    (h : x ∈ walkAll around ns) : ∃ n ∈ ns, x ∈ n.walk around := by
  induction ns with
  | nil => cases h
  | cons n ns ih =>
    rcases List.mem_append.1 h with h | h
    · exact ⟨n, List.mem_cons_self .., h⟩
    · obtain ⟨m, hm, hx⟩ := ih h
      exact ⟨m, List.mem_cons_of_mem _ hm, hx⟩

theorem Node.Stands.position {n : Node} (h : n.Stands P) (around : List Element) :
    ∀ x ∈ n.walk around, P x.1.position := by
  induction h generalizing around with
  | text t => exact nofun
  | element hposition hcontent ih =>
    intro x hx
    rcases List.mem_cons.1 hx with rfl | hx
    · exact hposition
    · obtain ⟨n, hn, hx⟩ := exists_of_mem_walkAll hx
      exact ih n hn _ x hx

namespace Builder

/-- All elements of a document under construction have positions of a sort. -/
structure Stands (P : Position → Prop) (b : Builder) : Prop where
  opened : ∀ o ∈ b.opened, P o.position ∧ ∀ n ∈ o.content, n.Stands P
  top : ∀ n ∈ b.top, n.Stands P

variable {b : Builder}

theorem Stands.add (h : b.Stands P) {n : Node} (hn : n.Stands P) : (b.add n).Stands P := by
  unfold Builder.add
  split
  · next hopened => exact ⟨h.opened, List.forall_mem_cons.2 ⟨hn, h.top⟩⟩
  · next o os hopened =>
    have hall := h.opened
    rw [hopened] at hall
    obtain ⟨ho, hos⟩ := List.forall_mem_cons.1 hall
    exact ⟨List.forall_mem_cons.2 ⟨⟨ho.1, List.forall_mem_cons.2 ⟨hn, ho.2⟩⟩, hos⟩, h.top⟩

theorem Stands.flush (h : b.Stands P) : b.flush.Stands P := by
  unfold Builder.flush
  split
  · exact h
  · exact Stands.add (b := { b with pending := none }) ⟨h.opened, h.top⟩ (.text _)

theorem Stands.closeOne (h : b.Stands P) : b.closeOne.Stands P := by
  unfold Builder.closeOne
  split
  · exact h
  · next o os hopened =>
    have hall := h.opened
    rw [hopened] at hall
    obtain ⟨ho, hos⟩ := List.forall_mem_cons.1 hall
    exact Stands.add (b := { b with opened := os }) ⟨hos, h.top⟩
      (.element ho.1 fun n hn => ho.2 n (List.mem_reverse.1 hn))

theorem Stands.closeMany (h : b.Stands P) (n : Nat) : (b.closeMany n).Stands P := by
  induction n generalizing b with
  | zero => exact h
  | succ n ih => exact ih h.closeOne

theorem Stands.close (h : b.Stands P) (name : Text) : (b.close name).Stands P := by
  unfold Builder.close
  dsimp only
  split
  · exact h.flush
  · exact h.flush.closeMany _

theorem Stands.endTag (h : b.Stands P) (name : Text) : (b.endTag name).Stands P := by
  unfold Builder.endTag
  split
  · exact ⟨h.opened, h.top⟩
  · exact h.close name

theorem Stands.start (h : b.Stands P) (name : Text) (attributes : Attributes) {p : Position}
    (hp : P p) :
    (b.start name attributes p).Stands P :=
  ⟨List.forall_mem_cons.2 ⟨⟨hp, nofun⟩, h.flush.opened⟩, h.flush.top⟩

theorem Stands.take (h : b.Stands P) {e : Located} (he : P e.position) : (b.take e).Stands P := by
  unfold Builder.take
  split
  · exact ⟨h.opened, h.top⟩
  · exact Stands.flush ⟨h.flush.opened, h.flush.top⟩
  · exact h.endTag _
  · exact (h.start _ _ he).endTag _
  · have hstart (name : Text) (attributes : Attributes) := h.start name attributes he
    dsimp only
    split
    · exact ⟨((hstart _ _).close _).opened, ((hstart _ _).close _).top⟩
    · exact hstart _ _

theorem Stands.takeAll (h : b.Stands P) {events : List Located} (he : ∀ e ∈ events, P e.position) :
    (events.foldl Builder.take b).Stands P := by
  induction events generalizing b with
  | nil => exact h
  | cons e events ih =>
    obtain ⟨he, hrest⟩ := List.forall_mem_cons.1 he
    exact ih (h.take he) hrest

end Builder

/-- Every element of a document stands behind some beginning of its text. -/
theorem parse_stands {html : Text} {document : List Node} (h : Markup.parse html = .ok document) :
    ∀ x ∈ ancestorsOf document, StandsIn html x.1.position := by
  obtain ⟨found, hfound, h⟩ := Outcome.bind_eq_ok.1 h
  cases h
  have hempty : Builder.empty.Stands (StandsIn html) := ⟨nofun, nofun⟩
  have hall := (hempty.takeAll (events_stand hfound)).flush
  intro x hx
  obtain ⟨n, hn, hx⟩ := exists_of_mem_walkAll hx
  exact ((hall.closeMany _).top n (List.mem_reverse.1 hn)).position [] x hx

end Documents

end SlideDeck.Markup
