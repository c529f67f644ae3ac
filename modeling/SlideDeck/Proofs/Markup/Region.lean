import SlideDeck.Proofs.Markup.SpanEdit

/-!
# Regions of elements

An element with an inner span is a region of its text: a start tag, a content in which the tags of
the element's name are balanced (`Tag.IsBalanced`), and an end tag (`IsRegion`, `exists_region`). A
region is found again wherever it stands, if no quotation mark follows it (`IsRegion.spanAt_eq`,
`Element.span_balanced`). What stands before it is not looked at. What follows it matters only where
a bracket in the content starts a tag that is not finished, because a quote is open in it: over the
end tag of the region this quote is still open, and behind it nothing closes the quote
(`Tag.length_le_of_at?_append`).
-/

namespace SlideDeck.Markup

/-! ## The rest of a tag -/

/-- A text without quotation marks. -/
def IsQuoteless (z : Text) : Prop := '"' ∉ z ∧ '\'' ∉ z

/-- A text ends with a bracket, if a tag in it ends with the text. -/
theorem exists_bracket_of_drop {k : Nat} {s : Text} (h : skipTagRest none (s.drop k) = some []) :
    ∃ w, s = w ++ ['>'] := by
  obtain ⟨a, ⟨w, rfl⟩, ha, -⟩ := exists_of_skipTagRest h
  rw [List.append_nil] at ha
  exact ⟨s.take k ++ w, by rw [List.append_assoc, ← ha, List.take_append_drop]⟩

theorem skipTagRest_of_not_mem {mark : Char} {z : Text} (h : mark ∉ z) :
    skipTagRest (some mark) z = none := by
  induction z with
  | nil => rfl
  | cons c z ih =>
    rw [List.mem_cons, not_or] at h
    rw [skipTagRest, if_neg (Ne.symm h.1), ih h.2]

/-- A tag that starts before a bracket does not end behind it, if no quotation mark follows the
bracket: either the bracket ends it, or a quote is open there that nothing closes. -/
theorem length_le_of_skipTagRest_append {w z rest : Text} (hz : IsQuoteless z) {mark : Option Char}
    (hmark : ∀ q, mark = some q → q = '"' ∨ q = '\'')
    (h : skipTagRest mark (w ++ '>' :: z) = some rest) :
    z.length ≤ rest.length := by
  induction w generalizing mark with
  | nil =>
    cases mark with
    | none =>
      cases h
      exact Nat.le_refl _
    | some q =>
      have hq : q ≠ '>' ∧ q ∉ z := by
        rcases hmark q rfl with rfl | rfl
        · exact ⟨by decide, hz.1⟩
        · exact ⟨by decide, hz.2⟩
      rw [List.nil_append, skipTagRest, if_neg (Ne.symm hq.1), skipTagRest_of_not_mem hq.2] at h
      cases h
  | cons c w ih =>
    cases mark with
    | none =>
      rw [List.cons_append, skipTagRest] at h
      split at h
      · cases h
        simp only [List.length_append, List.length_cons]
        omega
      · refine ih (fun q hq => ?_) h
        split at hq
        · next hc =>
          cases hq
          exact hc
        · cases hq
    | some m =>
      refine ih (fun q hq => ?_) h
      split at hq
      · cases hq
      · exact hmark q hq

namespace Tag

variable {n : Text}

/-! ## One tag -/

/-- The text of a tag: whatever follows it, the tag is found there, and what stands behind its name
is read up to its end. -/
structure IsTag (n : Text) (role : TagRole) (body : Text) : Prop where
  at?_append : ∀ r, at? n (body ++ r) = some (role, body.length)
  skipTagRest_drop : ∃ k ≤ n.length + 2, k < body.length ∧
    ∀ r, skipTagRest none ((body ++ r).drop k) = some r
  /-- In an end tag, the name stands behind a slash. -/
  slash : role = .closes → ∃ q, body = '<' :: '/' :: q ∧ n.length < q.length ∧
    ∀ r, Text.startsWithLetters n (q ++ r) = true

/-- A name is read with what follows it up to the end of the tag, and so whatever follows the
tag. -/
theorem skipNamed_eq_some {s rest : Text} (h : skipNamed n s = some rest) :
    ∃ body, s = body ++ rest ∧ n.length < body.length ∧ ∀ r, Text.startsWithLetters n (body ++ r) =
      true ∧
      skipNamed n (body ++ r) = some r ∧ skipTagRest none ((body ++ r).drop n.length) = some r := by
  rw [skipNamed, Option.ite_none_right_eq_some, Bool.and_eq_true] at h
  obtain ⟨⟨hletters, hboundary⟩, hskip⟩ := h
  obtain ⟨letters, r, rfl, hlength, -, hstarts⟩ := exists_of_startsWithLetters hletters
  rw [← hlength, List.drop_left] at hskip
  rw [← hlength, List.take_left, List.drop_left] at hboundary
  obtain ⟨a, ⟨w, hw⟩, rfl, hall⟩ := exists_of_skipTagRest hskip
  have hne : a ≠ [] := by simp [hw]
  have hpos := List.length_pos_iff.2 hne
  refine ⟨letters ++ a, by rw [List.append_assoc], by rw [List.length_append]; omega, fun r => ?_⟩
  rw [List.head?_append_of_ne_nil _ hne] at hboundary
  rw [skipNamed, List.append_assoc, hstarts, ← hlength, List.take_left, List.drop_left,
    List.head?_append_of_ne_nil _ hne, hboundary]
  exact ⟨rfl, hall r, hall r⟩

/-- No name starts with a slash. -/
theorem skipNamed_slash (hn : ∀ c ∈ n, isElementNameChar c = true) (q : Text) :
    skipNamed n ('/' :: q) = none := by
  cases n with
  | nil => rfl
  | cons c n =>
      exact skipNamed_of_ne (sameLetter_mark (hn c (List.mem_cons_self ..)) (by decide)) n q

/-- An end tag is a bracket, a slash and the name with what follows it. -/
theorem at?_slash (hn : ∀ c ∈ n, isElementNameChar c = true) (q : Text) :
    at? n ('<' :: '/' :: q) =
      (skipNamed n q).map fun rest => (.closes, q.length + 2 - rest.length) := by
  simp only [at?, skipNamed_slash hn]
  cases skipNamed n q <;> rfl

theorem isTag_of_slash (hn : ∀ c ∈ n, isElementNameChar c = true) {q : Text} {role : TagRole}
    {length : Nat} (h : at? n ('<' :: '/' :: q) = some (role, length)) :
    ∃ body rest, '<' :: '/' :: q = body ++ rest ∧ body.length = length ∧ IsTag n role body := by
  rw [at?_slash hn, Option.map_eq_some_iff] at h
  obtain ⟨rest, hs, heq⟩ := h
  obtain ⟨rfl, rfl⟩ := Prod.mk.inj heq
  obtain ⟨body, rfl, hlt, hall⟩ := skipNamed_eq_some hs
  have hlength (r : Text) : (body ++ r).length + 2 - r.length = body.length + 2 := by
    rw [List.length_append]
    omega
  refine ⟨'<' :: '/' :: body, rest, rfl, (hlength rest).symm, fun r => ?_,
    ⟨n.length + 2, Nat.le_refl _, Nat.add_lt_add_right hlt 2, fun r => (hall r).2.2⟩,
    fun _ => ⟨body, rfl, hlt, fun r => (hall r).1⟩⟩
  rw [List.cons_append, List.cons_append, at?_slash hn, (hall r).2.1, Option.map_some, hlength]
  rfl

theorem isTag_of_start {c : Char} (hc : c ≠ '/') {q : Text} {role : TagRole} {length : Nat}
    (h : at? n ('<' :: c :: q) = some (role, length)) :
    ∃ body rest, '<' :: c :: q = body ++ rest ∧ body.length = length ∧ IsTag n role body := by
  rw [at?_start hc, Option.bind_eq_some_iff] at h
  obtain ⟨rest, hs, heq⟩ := h
  obtain ⟨body, hbody, hlt, hall⟩ := skipNamed_eq_some hs
  cases body with
  | nil => cases hlt
  | cons d body =>
    rw [List.cons_append] at hbody
    obtain ⟨rfl, rfl⟩ := List.cons.inj hbody
    have hlength (r : Text) : (c :: (body ++ r)).length + 1 - r.length = body.length + 2 := by
      rw [List.length_cons, List.length_append]
      omega
    have htake (r : Text) :
        ('<' :: c :: (body ++ r)).take (body.length + 2) = '<' :: c :: body := by simp
    simp only [hlength, htake] at heq
    obtain ⟨hrole, rfl⟩ := Prod.mk.inj (Option.some.inj heq)
    refine ⟨'<' :: c :: body, rest, rfl, rfl, fun r => ?_,
      ⟨n.length + 1, Nat.le_succ _, Nat.succ_lt_succ hlt, fun r => (hall r).2.2⟩, fun hcloses => ?_⟩
    · have hskip := (hall r).2.1
      rw [List.cons_append] at hskip
      rw [List.cons_append, List.cons_append, at?_start hc, hskip, Option.bind_some]
      simp only [hlength, htake, hrole]
      rfl
    · rw [hcloses] at hrole
      split at hrole <;> cases hrole

/-- What is found at the start of a text is the text of a tag. -/
theorem exists_isTag (hn : ∀ c ∈ n, isElementNameChar c = true) {s : Text} {role : TagRole}
    {length : Nat} (h : at? n s = some (role, length)) :
    ∃ body rest, s = body ++ rest ∧ body.length = length ∧ IsTag n role body := by
  cases s with
  | nil => cases h
  | cons b s =>
    by_cases hb : b = '<'
    · subst hb
      cases s with
      | nil =>
        cases hs : skipNamed n [] with
        | none => simp [at?, hs] at h
        | some rest =>
          obtain ⟨body, hbody, hlt, -⟩ := skipNamed_eq_some hs
          rw [(List.nil_eq_append_iff.1 hbody).1] at hlt
          cases hlt
      | cons c q =>
        by_cases hc : c = '/'
        · subst hc
          exact isTag_of_slash hn h
        · exact isTag_of_start hc h
    · rw [at?_of_ne hb] at h
      cases h

/-- A tag that ends in a text is there whatever follows the text. -/
theorem at?_append_of_le (hn : ∀ c ∈ n, isElementNameChar c = true) {y b : Text} {role : TagRole}
    {length : Nat} (h : at? n (y ++ b) = some (role, length)) (hle : length ≤ y.length) (r : Text) :
    at? n (y ++ r) = some (role, length) := by
  obtain ⟨body, rest, hs, rfl, htag⟩ := exists_isTag hn h
  obtain ⟨w, rfl⟩ :
      body <+: y := List.prefix_of_prefix_length_le ⟨rest, hs.symm⟩ (List.prefix_append y b) hle
  rw [List.append_assoc]
  exact htag.at?_append (w ++ r)

/-- A tag ends in the text it is found in. -/
theorem length_le_of_at? (hn : ∀ c ∈ n, isElementNameChar c = true) {s : Text} {role : TagRole}
    {length : Nat} (h : at? n s = some (role, length)) : length ≤ s.length := by
  obtain ⟨body, rest, rfl, rfl, -⟩ := exists_isTag hn h
  simp

/-- A tag does not end behind a bracket that stands far enough from its start, if no quotation mark
follows the bracket. -/
theorem length_le_of_at?_append (hn : ∀ c ∈ n, isElementNameChar c = true) {w z : Text}
    {role : TagRole} {length : Nat} (h : at? n (w ++ '>' :: z) = some (role, length))
    (hw : n.length + 2 ≤ w.length) (hz : IsQuoteless z) : length ≤ (w ++ ['>']).length := by
  obtain ⟨body, rest, hs, rfl, htag⟩ := exists_isTag hn h
  obtain ⟨k, hk, -, hskip⟩ := htag.skipTagRest_drop
  have hlength := congrArg List.length hs
  have hskip := hskip rest
  rw [← hs, List.drop_append_of_le_length (by omega)] at hskip
  have := length_le_of_skipTagRest_append hz (by simp) hskip
  simp only [List.length_append, List.length_cons, List.length_nil] at hlength ⊢
  omega

/-- The last character of a tag is a bracket. -/
theorem IsTag.exists_bracket {role : TagRole} {body : Text} (h : IsTag n role body) :
    ∃ w, body = w ++ ['>'] := by
  obtain ⟨k, -, -, hskip⟩ := h.skipTagRest_drop
  exact exists_bracket_of_drop (by simpa using hskip [])

/-! ## Tags before an end tag -/

theorem le_offset_of_mem_allFrom {n : Text} {offset skip : Nat} {s : Text} {t : Tag}
    (h : t ∈ allFrom n offset skip s) : offset + skip ≤ t.offset := by
  induction s generalizing offset skip with
  | nil => cases skip <;> cases h
  | cons c s ih =>
    cases skip with
    | succ skip =>
      have := ih h
      omega
    | zero =>
      rw [allFrom] at h
      split at h
      · rcases List.mem_cons.1 h with rfl | h
        · exact Nat.le_refl _
        · have := ih h
          omega
      · have := ih h
        omega

/-- A tag at the start of a text has no tag before it. -/
theorem eq_nil_of_allFrom_eq {n : Text} {offset skip : Nat} {s : Text} {found more : List Tag}
    {t : Tag} (h : allFrom n offset skip s = found ++ t :: more) (ht : t.offset = offset) :
    skip = 0 ∧ found = [] := by
  have hskip : offset + skip ≤ t.offset := le_offset_of_mem_allFrom (by rw [h]; simp)
  obtain rfl : skip = 0 := by omega
  refine ⟨rfl, ?_⟩
  have later {skip : Nat} {s : Text} (ht' : t ∈ allFrom n (offset + 1) skip s) : False := by
    have := le_offset_of_mem_allFrom ht'
    omega
  cases s with
  | nil => simp [allFrom] at h
  | cons c s =>
    rw [allFrom] at h
    split at h
    · cases found with
      | nil => rfl
      | cons u found =>
        rw [List.cons_append] at h
        exact (later (by rw [(List.cons.inj h).2]; simp)).elim
    · exact (later (by rw [h]; simp)).elim

/-- The tags before a tag are found in the text before it, whatever follows this text, as long as no
tag starts there that did not. -/
theorem allFrom_append_of_split (hn : ∀ c ∈ n, isElementNameChar c = true) {offset skip : Nat}
    {a b r : Text} {found more : List Tag} {t : Tag}
    (h : allFrom n offset skip (a ++ b) = found ++ t :: more) (ht : t.offset = offset + a.length)
    (hr : ∀ y, at? n (y ++ b) = none → at? n (y ++ r) = none) :
    allFrom n offset skip (a ++ r) = found ++ allFrom n (offset + a.length) 0 r := by
  induction a generalizing offset skip found with
  | nil =>
    obtain ⟨rfl, rfl⟩ := eq_nil_of_allFrom_eq h ht
    rfl
  | cons c a ih =>
    have hlength : offset + (c :: a).length = offset + 1 + a.length := by
      rw [List.length_cons]
      omega
    rw [hlength] at ht ⊢
    rw [List.cons_append] at h ⊢
    cases skip with
    | succ skip => exact ih h ht
    | zero =>
      cases hat : at? n (c :: (a ++ b)) with
      | none =>
        have hat' := hr (c :: a) hat
        rw [List.cons_append] at hat'
        rw [allFrom_cons_of_none hat] at h
        rw [allFrom_cons_of_none hat']
        exact ih h ht
      | some tag =>
        obtain ⟨role, length⟩ := tag
        simp only [allFrom, hat] at h
        cases found with
        | nil =>
          rw [← (List.cons.inj h).1] at ht
          exact absurd ht (by simp; omega)
        | cons u found =>
          rw [List.cons_append] at h
          obtain ⟨rfl, hfound⟩ := List.cons.inj h
          -- The tag ends before the place of `t`, so it is there in front of the other text as
          -- well.
          have hle : offset + 1 + (length - 1) ≤ t.offset :=
            le_offset_of_mem_allFrom (by rw [hfound]; simp)
          have hat' := at?_append_of_le (y := c :: a) hn hat (by rw [List.length_cons]; omega) r
          rw [List.cons_append] at hat'
          simp only [allFrom, hat', ih hfound ht, List.cons_append]

/-! ## Balanced tags -/

/-- How many of some tags open an element and leave it open. -/
def starts (tags : List Tag) : Nat := tags.countP (·.role = .opens)

/-- How many of some tags are end tags. -/
def ends (tags : List Tag) : Nat := tags.countP (·.role = .closes)

/-- The tags end no more elements than they start and than were open before, from wherever one looks
back. -/
def StaysOpen (depth : Nat) (tags : List Tag) : Prop :=
  ∀ front, front <+: tags → ends front ≤ starts front + depth

/-- As many elements are ended as are started, and none before it is started. -/
def IsBalanced (tags : List Tag) : Prop := ends tags = starts tags ∧ StaysOpen 0 tags

theorem starts_cons (t : Tag) (tags : List Tag) :
    starts (t :: tags) = starts tags + if t.role = .opens then 1 else 0 := by
  simp [starts, List.countP_cons]

theorem ends_cons (t : Tag) (tags : List Tag) :
    ends (t :: tags) = ends tags + if t.role = .closes then 1 else 0 := by
  simp [ends, List.countP_cons]

theorem staysOpen_nil (depth : Nat) : StaysOpen depth [] := by
  intro front h
  rw [List.prefix_nil.1 h]
  exact Nat.zero_le _

/-- Where `depth` elements are open before a tag, `depth'` are open behind it. -/
def Leads (t : Tag) (depth depth' : Nat) : Prop :=
  depth' + (if t.role = .closes then 1 else 0) = depth + if t.role = .opens then 1 else 0

/-- A tag leads on, unless it is an end tag and no element is open. -/
theorem exists_leads (t : Tag) (depth : Nat) : depth = 0 ∧ t.role = .closes ∨
    ∃ depth', t.Leads depth depth' := by
  cases ht : t.role with
  | opens => exact .inr ⟨depth + 1, by simp [Leads, ht]⟩
  | both => exact .inr ⟨depth, by simp [Leads, ht]⟩
  | closes =>
    cases depth with
    | zero => exact .inl ⟨rfl, rfl⟩
    | succ depth => exact .inr ⟨depth, by simp [Leads, ht]⟩

variable {t : Tag} {depth depth' : Nat}

theorem Leads.ends_eq_iff (h : t.Leads depth depth') (tags : List Tag) :
    ends (t :: tags) = starts (t :: tags) + depth ↔ ends tags = starts tags + depth' := by
  rw [Leads] at h
  rw [starts_cons, ends_cons]
  omega

theorem Leads.staysOpen_iff (h : t.Leads depth depth') (tags : List Tag) :
    StaysOpen depth (t :: tags) ↔ StaysOpen depth' tags := by
  rw [Leads] at h
  constructor
  · intro hopen front hfront
    have := hopen _ (List.cons_prefix_cons.2 ⟨rfl, hfront⟩)
    rw [starts_cons, ends_cons] at this
    omega
  · intro hopen front hfront
    cases front with
    | nil => exact Nat.zero_le _
    | cons u front =>
      obtain ⟨rfl, hprefix⟩ := List.cons_prefix_cons.1 hfront
      have := hopen front hprefix
      rw [starts_cons, ends_cons]
      omega

theorem Leads.balance?_cons (h : t.Leads depth depth') (tags : List Tag) :
    balance? (depth + 1) (t :: tags) = balance? (depth' + 1) tags := by
  rw [Leads] at h
  rw [balance?]
  split
  · next ht =>
    obtain rfl : depth' = depth + 1 := by simpa [ht] using h
    rfl
  · next ht =>
    obtain rfl : depth' = depth := by simpa [ht] using h
    rfl
  · next ht =>
    obtain rfl : depth' + 1 = depth := by simpa [ht] using h
    rw [if_neg (by omega)]
    rfl

theorem balance?_closes (ht : t.role = .closes) (tags : List Tag) :
    balance? 1 (t :: tags) = some t := by
  simp [balance?, ht]

theorem not_staysOpen_closes (ht : t.role = .closes) (tags : List Tag) :
    ¬StaysOpen 0 (t :: tags) := by
  intro h
  have := h [t] (List.cons_prefix_cons.2 ⟨rfl, List.nil_prefix⟩)
  simp [starts, ends, ht] at this

/-- An end tag that balances an element stands behind tags that leave as many elements open as were
open before. -/
theorem exists_of_balance? {tags : List Tag} (h : balance? (depth + 1) tags = some t) :
    ∃ found more, tags = found ++ t :: more ∧ ends found = starts found + depth ∧
      StaysOpen depth found := by
  induction tags generalizing depth with
  | nil => cases h
  | cons u tags ih =>
    rcases u.exists_leads depth with ⟨rfl, hu⟩ | ⟨depth', hu⟩
    · obtain rfl := Option.some.inj ((balance?_closes hu tags).symm.trans h)
      exact ⟨[], tags, rfl, rfl, staysOpen_nil 0⟩
    · rw [hu.balance?_cons] at h
      obtain ⟨found, more, rfl, hends, hopen⟩ := ih h
      exact ⟨u :: found, more, rfl, (hu.ends_eq_iff found).2 hends,
        (hu.staysOpen_iff found).2 hopen⟩

/-- A scan for the end of an element goes on behind tags that leave as many elements open as were
open before. -/
theorem balance?_append {found : List Tag} (hends : ends found = starts found + depth)
    (hopen : StaysOpen depth found) (tags : List Tag) :
    balance? (depth + 1) (found ++ tags) = balance? 1 tags := by
  induction found generalizing depth with
  | nil =>
    obtain rfl : depth = 0 := by simpa [starts, ends] using hends.symm
    rfl
  | cons u found ih =>
    rcases u.exists_leads depth with ⟨rfl, hu⟩ | ⟨depth', hu⟩
    · exact (not_staysOpen_closes hu found hopen).elim
    · rw [List.cons_append, hu.balance?_cons]
      exact ih ((hu.ends_eq_iff found).1 hends) ((hu.staysOpen_iff found).1 hopen)

/-- No end tag balances an element exactly if the elements that are open stay open. -/
theorem balance?_eq_none_iff {tags : List Tag} : balance? (depth + 1) tags = none ↔
    StaysOpen depth tags := by
  induction tags generalizing depth with
  | nil => simp [balance?, staysOpen_nil]
  | cons u tags ih =>
    rcases u.exists_leads depth with ⟨rfl, hu⟩ | ⟨depth', hu⟩
    · simp [balance?_closes hu, not_staysOpen_closes hu]
    · rw [hu.balance?_cons, hu.staysOpen_iff, ih]

/-! ## No other tag than before -/

/-- Where no tag starts, none starts if less of the text is there. -/
theorem at?_eq_none_of_append (hn : ∀ c ∈ n, isElementNameChar c = true) {y b : Text}
    (h : at? n (y ++ b) = none) : at? n y = none := by
  by_contra hy
  obtain ⟨⟨role, length⟩, hat⟩ := Option.ne_none_iff_exists'.1 hy
  rw [← List.append_nil y] at hat
  rw [at?_append_of_le hn hat (by simpa using length_le_of_at? hn hat) b] at h
  cases h

/-- Where no tag starts before an end tag, none starts whatever follows the end tag, if there is no
quotation mark in it. -/
theorem at?_append_ending (hn : ∀ c ∈ n, isElementNameChar c = true) {y ending r z : Text}
    (hending : IsTag n .closes ending) (hz : IsQuoteless z)
    (h : at? n (y ++ (ending ++ r)) = none) :
    at? n (y ++ (ending ++ z)) = none := by
  by_contra hy
  obtain ⟨⟨role, length⟩, hat⟩ := Option.ne_none_iff_exists'.1 hy
  obtain ⟨w, hw⟩ := hending.exists_bracket
  obtain ⟨q, hq, hlt, -⟩ := hending.slash rfl
  have hlength : w.length + 1 = q.length + 2 := by simpa [hw] using congrArg List.length hq
  have hle : length ≤ (y ++ ending).length := by
    have hbracket : y ++ (ending ++ z) = (y ++ w) ++ '>' :: z := by simp [hw]
    rw [hbracket] at hat
    have := length_le_of_at?_append hn hat (by rw [List.length_append]; omega) hz
    rwa [List.append_assoc, ← hw] at this
  rw [← List.append_assoc] at h hat
  rw [at?_append_of_le hn hat hle r] at h
  cases h

end Tag

/-! ## Regions -/

/-- A content in which the tags of the name are balanced, and an end tag that none of them reaches
over, if no quotation mark follows it. -/
structure IsClosed (n content ending : Text) : Prop where
  balanced : Tag.IsBalanced (Tag.all n content)
  isTag : Tag.IsTag n .closes ending
  all_append : ∀ z, IsQuoteless z → Tag.all n (content ++ (ending ++ z)) =
    Tag.all n content ++ Tag.allFrom n content.length 0 (ending ++ z)

/-- The text of an element: its start tag, its content and its end tag. -/
structure IsRegion (n opening content ending : Text) : Prop extends IsClosed n content ending where
  lt_length : n.length + 1 < opening.length
  /-- Behind the bracket and the name, the start tag is read up to its end. -/
  skipTagRest_drop : ∀ r, skipTagRest none ((opening ++ r).drop (1 + n.length)) = some r

theorem Span.slice_append (x y z : Text) :
    Span.slice ⟨x.length, x.length + y.length⟩ (x ++ y ++ z) = y := by
  rw [slice, List.take_left' (List.length_append ..), List.drop_left]

variable {n html : Text} {p : Nat}

/-- Up to the tag that balances it, the content of an element is balanced on its own. -/
theorem exists_isClosed (hn : ∀ c ∈ n, isElementNameChar c = true) {inside : Text} {t : Tag}
    (h : Tag.balance? 1 (Tag.all n inside) = some t) :
    ∃ content ending rest, inside = content ++ (ending ++ rest) ∧ content.length = t.offset ∧
      IsClosed n content ending := by
  have hmem := Tag.mem_of_balance? h
  have hle := Tag.offset_le_of_mem_allFrom hmem
  obtain ⟨k, hk, hat⟩ := Tag.at?_of_mem_allFrom hmem
  rw [Nat.zero_add] at hle hk
  rw [← hk, Tag.role_of_balance? h] at hat
  obtain ⟨ending, rest, hdrop, -, hending⟩ := Tag.exists_isTag hn hat
  obtain ⟨found, more, htags, hends, hopen⟩ := Tag.exists_of_balance? h
  have hlength : (inside.take t.offset).length = t.offset := List.length_take_of_le hle
  have hinside : inside = inside.take t.offset ++ (ending ++ rest) := by
    rw [← hdrop, List.take_append_drop]
  rw [Tag.all, hinside] at htags
  have split {r : Text} (hr : ∀ y, Tag.at? n (y ++ (ending ++ rest)) = none →
      Tag.at? n (y ++ r) = none) :
      Tag.all n (inside.take t.offset ++ r) =
        found ++ Tag.allFrom n (inside.take t.offset).length 0 r := by
    rw [Tag.all, Tag.allFrom_append_of_split hn htags (by omega) hr, Nat.zero_add]
  have hall : Tag.all n (inside.take t.offset) = found := by
    have := split (r := []) fun y hy => by simpa using Tag.at?_eq_none_of_append hn hy
    simpa [Tag.allFrom] using this
  refine ⟨inside.take t.offset, ending, rest, hinside, hlength, ?_, hending, fun z hz => ?_⟩
  · rw [hall]
    exact ⟨hends, hopen⟩
  · rw [hall]
    exact split fun y hy => Tag.at?_append_ending hn hending hz hy

/-- The end tag of an element is the one behind its content. -/
theorem IsClosed.balance?_eq_some {content ending : Text} (h : IsClosed n content ending) {z : Text}
    (hz : IsQuoteless z) :
    Tag.balance? 1 (Tag.all n (content ++ (ending ++ z))) =
      some ⟨content.length, ending.length, .closes⟩ := by
  obtain ⟨q, hq, -, -⟩ := h.isTag.slash rfl
  have hne : ending ≠ [] := by simp [hq]
  rw [h.all_append z hz, Tag.balance?_append h.balanced.1 h.balanced.2,
    Tag.allFrom_of_some hne (h.isTag.at?_append z)]
  rfl

/-- The inner span of an element that is not raw: behind its start tag, and before the tag that
balances it. -/
theorem spanAt_eq_match (hn : ∀ c ∈ n, isElementNameChar c = true) (hraw : isRawSpan n = false) :
    spanAt html p n =
      match skipTagRest none (html.drop (p + 1 + n.length)) with
      | none => .error (.malformedTag n)
      | some inside =>
        match Tag.balance? 1 (Tag.all n inside) with
        | some t => .ok ⟨html.length - inside.length, html.length - inside.length + t.offset⟩
        | none => .error (.unclosedElement n) := by
  simp only [spanAt, hraw, tagsIn_of_isNamed hn]
  rfl

/-- Where an element has an inner span, a region stands. -/
theorem exists_region (hn : ∀ c ∈ n, isElementNameChar c = true) (hraw : isRawSpan n = false)
    {s : Span} (h : spanAt html p n = .ok s) :
    ∃ before opening content ending rest, html = before ++ (opening ++ content ++ ending) ++ rest ∧
      before.length = p ∧
      s = ⟨p + opening.length, p + opening.length + content.length⟩ ∧
        IsRegion n opening content ending := by
  rw [spanAt_eq_match hn hraw] at h
  split at h
  · cases h
  · next inside hinside =>
    split at h
    · next t ht =>
      obtain ⟨a, ⟨w, hw⟩, ha, hall⟩ := exists_of_skipTagRest hinside
      obtain ⟨content, ending, rest, rfl, hcontent, hclosed⟩ := exists_isClosed hn ht
      have hpos : 0 < a.length := by simp [hw]
      have hlength := congrArg List.length ha
      rw [List.length_drop, List.length_append] at hlength
      obtain ⟨name, hname, hdrop⟩ : ∃ name : Text, name.length = 1 + n.length ∧
          html.drop p = name ++ (a ++ (content ++ (ending ++ rest))) := by
        refine ⟨(html.drop p).take (1 + n.length), ?_, ?_⟩
        · rw [List.length_take, List.length_drop]
          omega
        · rw [← ha, Nat.add_assoc, ← List.drop_drop, List.take_append_drop]
      refine ⟨html.take p, name ++ a, content, ending, rest, ?_, ?_, ?_, hclosed, ?_, ?_⟩
      · simpa only [List.append_assoc, hdrop] using (List.take_append_drop p html).symm
      · exact List.length_take_of_le (by omega)
      · cases h
        simp only [List.length_append, hname, hcontent] at hlength ⊢
        congr 1 <;> omega
      · rw [List.length_append]
        omega
      · intro r
        rw [List.append_assoc, ← hname, List.drop_left]
        exact hall r
    · cases h

/-- A region is found wherever it stands, if no quotation mark follows it. -/
theorem IsRegion.spanAt_eq (hn : ∀ c ∈ n, isElementNameChar c = true) (hraw : isRawSpan n = false)
    {opening content ending : Text} (h : IsRegion n opening content ending) (x : Text) {z : Text}
    (hz : IsQuoteless z) :
    spanAt (x ++ (opening ++ content ++ ending) ++ z) x.length n =
      .ok ⟨x.length + opening.length, x.length + opening.length + content.length⟩ := by
  have hdrop : (x ++ (opening ++ content ++ ending) ++ z).drop (x.length + 1 + n.length) =
      (opening ++ (content ++ (ending ++ z))).drop (1 + n.length) := by
    rw [Nat.add_assoc, ← List.drop_drop, List.append_assoc, List.drop_left]
    simp only [List.append_assoc]
  have hlength :
      (x ++ (opening ++ content ++ ending) ++ z).length - (content ++ (ending ++ z)).length =
      x.length + opening.length := by
    simp only [List.length_append]
    omega
  simp only [spanAt_eq_match hn hraw, hdrop, h.skipTagRest_drop, h.balance?_eq_some hz, hlength]

/-- An element without an inner span has a start tag that does not end, or it stays open behind its
start tag. -/
theorem spanAt_eq_error (hn : ∀ c ∈ n, isElementNameChar c = true) (hraw : isRawSpan n = false)
    {f : Failure} (h : spanAt html p n = .error f) :
    f.kind = .configuration ∧ (skipTagRest none (html.drop (p + 1 + n.length)) = none ∨
      ∃ inside, skipTagRest none (html.drop (p + 1 + n.length)) = some inside ∧
        Tag.StaysOpen 0 (Tag.all n inside)) := by
  rw [spanAt_eq_match hn hraw] at h
  split at h
  · next hskip =>
    cases h
    exact ⟨rfl, .inl hskip⟩
  · next inside hskip =>
    split at h
    · cases h
    · next hbalance =>
      cases h
      exact ⟨rfl, .inr ⟨inside, hskip, Tag.balance?_eq_none_iff.1 hbalance⟩⟩

namespace Element

/-- The inner span of an element is the content of a region: it lies between the bracket of the
start tag and an end tag of the name, the tags of the name in it are balanced, and it is found in
every text that goes on without quotation marks behind the end tag. Where there is none, the start
tag does not end, or the element stays open. -/
theorem span_balanced {html : Text} {e : Element} {p : Nat} (hp : e.position.offset? html = some p)
    (hn : ∀ c ∈ e.name, isElementNameChar c = true) (hraw : isRawSpan e.name = false) :
    (∀ s, e.span html = .ok s →
      (p < s.start ∧ s.start ≤ s.stop ∧ s.stop ≤ html.length) ∧
      html[s.start - 1]? = some '>' ∧
      (∃ r, html.drop s.stop = '<' :: '/' :: r ∧ Text.startsWithLetters e.name r = true) ∧
      Tag.IsBalanced (Tag.all e.name (s.slice html)) ∧
      ∃ length, Tag.at? e.name (html.drop s.stop) = some (.closes, length) ∧
        ∀ x z, IsQuoteless z → ∀ f : Element, f.name = e.name →
          f.position.offset? (x ++ Span.slice ⟨p, s.stop + length⟩ html ++ z) = some x.length →
          f.span (x ++ Span.slice ⟨p, s.stop + length⟩ html ++ z) =
            .ok ⟨x.length + s.start - p, x.length + s.stop - p⟩) ∧
    ∀ f, e.span html = .error f →
      f.kind = .configuration ∧ (skipTagRest none (html.drop (p + 1 + e.name.length)) = none ∨
        ∃ inside, skipTagRest none (html.drop (p + 1 + e.name.length)) = some inside ∧
          ∀ front, front <+: Tag.all e.name inside → Tag.ends front ≤ Tag.starts front) := by
  have hspan : e.span html = spanAt html p e.name := by simp only [span, hp]
  rw [hspan]
  refine ⟨fun s hs => ?_, fun f hf => spanAt_eq_error hn hraw hf⟩
  obtain ⟨before, opening, content, ending, rest, rfl, rfl, rfl, hregion⟩ :=
    exists_region hn hraw hs
  obtain ⟨w, hw⟩ := exists_bracket_of_drop (by simpa using hregion.skipTagRest_drop [])
  obtain ⟨q, hq, -, hname⟩ := hregion.isTag.slash rfl
  have hlt := hregion.lt_length
  have hdrop : (before ++ (opening ++ content ++ ending) ++ rest).drop
      (before.length + opening.length + content.length) = ending ++ rest := by simp [Nat.add_assoc]
  have hcontent :
      Span.slice ⟨before.length + opening.length, before.length + opening.length + content.length⟩
      (before ++ (opening ++ content ++ ending) ++ rest) = content := by
    have := Span.slice_append (before ++ opening) content (ending ++ rest)
    simpa [List.append_assoc, Nat.add_assoc] using this
  have hwhole :
      Span.slice ⟨before.length, before.length + opening.length + content.length + ending.length⟩
      (before ++ (opening ++ content ++ ending) ++ rest) = opening ++ content ++ ending := by
    have := Span.slice_append before (opening ++ content ++ ending) rest
    simpa [List.append_assoc, Nat.add_assoc] using this
  refine ⟨⟨?_, spanAt_within hs⟩, ?_, ⟨q ++ rest, ?_, ?_⟩, ?_, ending.length, ?_,
    fun x z hz f hf hx => ?_⟩
  · show before.length < before.length + opening.length
    omega
  · simp [hw]
  · rw [hdrop, hq]
    rfl
  · exact hname rest
  · rw [hcontent]
    exact hregion.balanced
  · rw [hdrop]
    exact hregion.isTag.at?_append rest
  · rw [hwhole] at hx ⊢
    simp only [span, hx, hf]
    rw [hregion.spanAt_eq hn hraw x hz]
    congr 2 <;> omega

theorem span_balanced_at_open_quote :
    let html := "<p>\"</p>\n<div a=\">\"><DIV>x</DIV><div/><div t=\"</div>\n".toList
    let e : Element := ⟨"div".toList, [], ⟨2, 0⟩, []⟩
    (e.position.offset? html = some 9 ∧ (∀ c ∈ e.name, isElementNameChar c = true) ∧
      isRawSpan e.name = false) ∧
      e.span html = .ok ⟨20, 46⟩ ∧
      Tag.IsBalanced (Tag.all e.name (Span.slice ⟨20, 46⟩ html)) ∧
      Element.span ("\"<a>".toList ++ Span.slice ⟨9, 52⟩ html ++ "</div>".toList)
        ⟨"div".toList, [], ⟨1, 4⟩, []⟩ =
        .ok ⟨15, 41⟩ := by
  have hp : Position.offset? "<p>\"</p>\n<div a=\">\"><DIV>x</DIV><div/><div t=\"</div>\n".toList
      ⟨2, 0⟩ = some 9 := by decide
  have hn : ∀ c ∈ "div".toList, isElementNameChar c = true := List.all_eq_true.1 (by decide)
  have hs : Element.span "<p>\"</p>\n<div a=\">\"><DIV>x</DIV><div/><div t=\"</div>\n".toList
      ⟨"div".toList, [], ⟨2, 0⟩, []⟩ =
      .ok ⟨20, 46⟩ := by decide +kernel
  obtain ⟨-, -, -, hbalanced, length, hat, hall⟩ := (span_balanced hp hn (by decide)).1 _ hs
  have hending : Tag.at? "div".toList
      ("<p>\"</p>\n<div a=\">\"><DIV>x</DIV><div/><div t=\"</div>\n".toList.drop 46) =
        some (.closes, 6) := by decide +kernel
  obtain rfl : length = 6 := (Prod.mk.inj (Option.some.inj (hat.symm.trans hending))).2
  exact ⟨⟨hp, hn, by decide⟩, hs, hbalanced,
    hall "\"<a>".toList "</div>".toList ⟨by decide, by decide⟩ _ rfl (by decide)⟩

end Element

end SlideDeck.Markup
