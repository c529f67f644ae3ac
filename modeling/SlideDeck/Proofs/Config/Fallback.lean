import SlideDeck.Proofs.Config.Member

/-!
# The fallback update, made again

In a script that cannot be used as a record, the first slug and the first title are replaced. A
written title is a member as its own replacement looks for it, so that the title is settled at once.
A written slug need not be one: its quotes are escaped, but the end of a slug is looked for without
regard to escapes. So a second update leaves the script as it is if and only if the first slug in it
then reads as the new one (`updateRaw_updateRaw_iff`), and if the slug stands before the title, this
is so if and only if there is no quote in the slug (`update_raw_again_iff`). With a quote, the
script grows with each update (`update_raw_grows`).
-/

namespace SlideDeck.Embedded

open Text (isBlank search)
open Record (escapeChar escapeCharAscii unicodeEscape)

variable {f : DeckFields} {s b b' m y a a' p q x : Text}

/-! ## Quotes in written slugs -/

theorem not_mem_hex {c : Char} (hc : ∀ k < 16, Nat.digitChar k ≠ c) (n : Nat) :
    c ∉ Text.hex 4 n := by
  intro h
  rcases List.mem_append.1 h with h | h
  · exact hc 0 (by decide) (List.eq_of_mem_replicate h).symm
  · exact Text.not_mem_toDigits (by decide) hc n h

theorem quote_not_mem_unicodeEscape (n : Nat) : '"' ∉ unicodeEscape n := by
  have hhex : '"' ∉ Text.hex 4 n := not_mem_hex (by decide) n
  simp [unicodeEscape, hhex]

theorem quote_not_mem_escapeChar {c : Char} (hc : c ≠ '"') : '"' ∉ escapeChar c := by
  rw [escapeChar, if_neg hc]
  split_ifs
  iterate 6 decide
  · exact quote_not_mem_unicodeEscape _
  · exact fun h => hc (List.mem_singleton.1 h).symm

theorem quote_not_mem_escapeCharAscii {c : Char} (hc : c ≠ '"') : '"' ∉ escapeCharAscii c := by
  rw [escapeCharAscii]
  split_ifs
  · exact quote_not_mem_escapeChar hc
  · exact fun h => hc (List.mem_singleton.1 h).symm
  · exact quote_not_mem_unicodeEscape _
  · exact List.not_mem_append (quote_not_mem_unicodeEscape _) (quote_not_mem_unicodeEscape _)

/-- Every quote inside of a written slug is escaped. -/
theorem exists_backslash_of_flatMap (h : s.flatMap escapeCharAscii = p ++ '"' :: q) :
    ∃ p', p = p' ++ ['\\'] := by
  induction s generalizing p with
  | nil => simp at h
  | cons c s ih =>
    rw [List.flatMap_cons] at h
    by_cases hc : c = '"'
    · have hescape : escapeCharAscii c = ['\\', '"'] := by rw [hc]; decide
      rw [hescape] at h
      rcases p with _ | ⟨d, _ | ⟨e, p⟩⟩
      · exact absurd (List.cons.inj h).1 (by decide)
      · exact ⟨[], by rw [← (List.cons.inj h).1]; rfl⟩
      · obtain ⟨p', hp⟩ := ih (List.cons.inj (List.cons.inj h).2).2
        exact ⟨d :: e :: p', by rw [hp]; rfl⟩
    · rcases List.append_eq_append_iff.1 h with ⟨z, rfl, hz⟩ | ⟨z, hz, hq⟩
      · obtain ⟨p', rfl⟩ := ih hz
        exact ⟨escapeCharAscii c ++ p', (List.append_assoc ..).symm⟩
      · cases z with
        | nil =>
          obtain ⟨p', hp⟩ := ih (p := []) hq.symm
          exact absurd hp (by simp)
        | cons d z =>
          rw [← (List.cons.inj hq).1] at hz
          exact absurd (by rw [hz]; simp) (quote_not_mem_escapeCharAscii hc)

theorem quote_mem_flatMap_iff : '"' ∈ s.flatMap escapeCharAscii ↔ '"' ∈ s := by
  rw [List.mem_flatMap]
  constructor
  · rintro ⟨c, hc, h⟩
    by_cases hq : c = '"'
    · exact hq ▸ hc
    · exact absurd h (quote_not_mem_escapeCharAscii hq)
  · exact fun h => ⟨'"', h, by decide⟩

/-! ## The members that are written -/

/-- The slug as it is written into a script. -/
def slugMember (f : DeckFields) : Text := "\"slug\":".toList ++ Record.asciiString f.slug

/-- The title as it is written into a script. -/
def titleMember (f : DeckFields) : Text := "\"title\":".toList ++ Record.string f.title

theorem slugMember_eq (f : DeckFields) :
    slugMember f = quoted "slug".toList ++ ':' :: Record.asciiString f.slug := rfl

/-- A text with its slug replaced. -/
def replaceSlug (f : DeckFields) (s : Text) : Text :=
  replaceMember "slug".toList skipPlain (slugMember f) s

/-- A text with its title replaced. -/
def replaceTitle (f : DeckFields) (s : Text) : Text :=
  replaceMember "title".toList skipEscaped (titleMember f) s

theorem updateRaw_eq (f : DeckFields) (s : Text) :
    updateRaw f s = replaceTitle f (replaceSlug f s) := rfl

theorem isMember_of_skip {key body : Text} {skip : Text → Option Text} (hs : Skips skip)
    (h : skip body = some []) :
    IsMember key skip (quoted key ++ ':' :: '"' :: body) := by
  have hskip : skipMember key skip (quoted key ++ ':' :: '"' :: body) = some [] :=
    (@skipMember_append key skip [] [] nofun nofun body).trans h
  obtain ⟨m, hm, hmember⟩ := exists_isMember hs hskip
  rwa [hm, List.append_nil]

theorem skipEscaped_cons {c : Char} (hq : c ≠ '"') (hb : c ≠ '\\') (r : Text) :
    skipEscaped (c :: r) = skipEscaped r :=
  skipEscaped.eq_5 c r hq (fun _ _ h => absurd h hb) fun h => absurd h hb

theorem skipEscaped_append (h : '"' ∉ p ∧ '\\' ∉ p) (r : Text) :
    skipEscaped (p ++ r) = skipEscaped r := by
  induction p with
  | nil => rfl
  | cons c p ih =>
    simp only [List.mem_cons, not_or] at h
    exact (skipEscaped_cons (fun hc => h.1.1 hc.symm) (fun hc => h.2.1 hc.symm) _).trans
      (ih ⟨h.1.2, h.2.2⟩)

theorem skipEscaped_escapeChar (c : Char) (r : Text) :
    skipEscaped (escapeChar c ++ r) = skipEscaped r := by
  have hescape {d : Char} (hd : d ≠ '\n') (r : Text) :
      skipEscaped (['\\', d] ++ r) = skipEscaped r :=
    (skipEscaped.eq_3 d r).trans (if_neg hd)
  rw [escapeChar]
  split_ifs with hq hb
  iterate 7 exact hescape (by decide) r
  · show skipEscaped (['\\', 'u'] ++ (Text.hex 4 c.toNat ++ r)) = skipEscaped r
    rw [hescape (by decide),
      skipEscaped_append ⟨not_mem_hex (by decide) _, not_mem_hex (by decide) _⟩]
  · exact skipEscaped_cons hq hb r

/-- The quote behind an escaped text ends it. -/
theorem skipEscaped_flatMap (s r : Text) :
    skipEscaped (s.flatMap escapeChar ++ '"' :: r) = some r := by
  induction s with
  | nil => rfl
  | cons c s ih => rw [List.flatMap_cons, List.append_assoc, skipEscaped_escapeChar, ih]

theorem isMember_titleMember (f : DeckFields) :
    IsMember "title".toList skipEscaped (titleMember f) :=
  isMember_of_skip skips_skipEscaped (skipEscaped_flatMap f.title [])

theorem skipPlain_append (h : '"' ∉ p) (r : Text) : skipPlain (p ++ '"' :: r) = some r := by
  induction p with
  | nil => rfl
  | cons c p ih =>
    simp only [List.mem_cons, not_or] at h
    exact (skipPlain.eq_3 c _ fun hc => h.1 hc.symm).trans (ih h.2)

/-- A written slug starts with a member, which ends at the first quote inside of the slug, if there
is one. -/
theorem exists_isMember_slugMember (f : DeckFields) :
    ∃ m x, slugMember f = m ++ x ∧ IsMember "slug".toList skipPlain m ∧ (x = [] ↔ '"' ∉ f.slug) ∧
      (x = [] ∨ ∃ m', m = m' ++ ['\\', '"']) := by
  have hslug : slugMember f = quoted "slug".toList ++ ':' :: '"' ::
      (f.slug.flatMap escapeCharAscii ++ ['"']) := rfl
  by_cases h : '"' ∈ f.slug.flatMap escapeCharAscii
  · obtain ⟨p, q, hpq, hp⟩ := List.eq_append_cons_of_mem h
    obtain ⟨p', rfl⟩ := exists_backslash_of_flatMap hpq
    refine ⟨quoted "slug".toList ++ ':' :: '"' :: (p' ++ ['\\'] ++ ['"']), q ++ ['"'], ?_,
      isMember_of_skip skips_skipPlain (skipPlain_append hp []), ?_,
      .inr ⟨quoted "slug".toList ++ ':' :: '"' :: p', by simp⟩⟩
    · rw [hslug, hpq]
      simp
    · simp [quote_mem_flatMap_iff.1 h]
  · refine ⟨slugMember f, [], (List.append_nil _).symm,
      isMember_of_skip skips_skipPlain (skipPlain_append h []), ?_, .inl rfl⟩
    exact iff_of_true rfl fun hq => h (quote_mem_flatMap_iff.2 hq)

/-! ## The second update -/

theorem isKey_slug : IsKey "slug".toList := ⟨by decide, "slu".toList, 'g', by decide, by decide⟩

theorem isKey_title : IsKey "title".toList := ⟨by decide, "titl".toList, 'e', by decide, by decide⟩

theorem replaceTitle_replaceTitle (f : DeckFields) (s : Text) :
    replaceTitle f (replaceTitle f s) = replaceTitle f s :=
  replaceMember_replaceMember skips_skipEscaped isKey_title (isMember_titleMember f) s

/-- If what stands behind an escaped quote ends like a quoted title, then it holds that title's last
two characters. -/
theorem exists_of_append_title {e : Text} (h : p ++ ['e', '"'] = q ++ ['\\', '"'] ++ e) :
    ∃ e', e = e' ++ ['e', '"'] := by
  rcases List.append_eq_append_iff.1 h with ⟨z, hz, he⟩ | ⟨z, -, he⟩
  · rcases z with _ | ⟨c, _ | ⟨d, z⟩⟩
    · exact ⟨[], he.symm⟩
    · -- The escaped quote would be the letter before the last one.
      have hlast : (q ++ ['\\']) ++ ['"'] = p ++ [c] := by simpa using hz
      exact absurd ((List.cons.inj he).1.trans
        (List.cons.inj (List.append_inj' hlast rfl).2).1.symm) (by decide)
    · -- The backslash would be that letter.
      obtain ⟨hc, hrest⟩ := List.cons.inj he
      obtain rfl : z = [] := (List.append_eq_nil_iff.1 (List.cons.inj hrest).2.symm).1
      exact absurd (hc.trans (List.cons.inj (List.append_inj' hz rfl).2).1.symm) (by decide)
  · exact ⟨z, he⟩

/-- The member that a second update would find in front of a title is all of the slug that was
written. -/
theorem eq_nil_of_title_behind {m' e rest rest' : Text}
    (he : p ++ quoted "title".toList = b ++ m ++ e) (hm : m = m' ++ ['\\', '"']) (hg : Guarded rest)
    (hne : rest' ≠ []) (h : e ++ rest = x ++ (e ++ rest')) : x = [] := by
  by_contra hx
  obtain ⟨e', rfl⟩ : ∃ e', e = e' ++ ['e', '"'] := by
    refine exists_of_append_title (p := p ++ "\"titl".toList) (q := b ++ m') ?_
    rw [hm] at he
    simpa [quoted] using he
  have hpos : 0 < x.length := List.length_pos_iff.2 hx
  rcases List.append_eq_append_iff.1 (h.trans (List.append_assoc x _ rest').symm)
    with ⟨z, hz, hrest⟩ | ⟨z, hz, -⟩
  · -- What stands between the two titles ends with the quote of the first one, and no guard stands
    -- before that quote.
    rcases List.eq_nil_or_concat z with rfl | ⟨z, d, rfl⟩
    · have hlength := congrArg List.length hz
      simp only [List.length_append, List.length_nil] at hlength
      omega
    have hlast : (x ++ e' ++ ['e']) ++ ['"'] = (e' ++ ['e', '"'] ++ z) ++ [d] := by simpa using hz
    obtain ⟨hbefore, hd⟩ := List.append_inj' hlast rfl
    rw [← (List.cons.inj hd).1] at hrest
    obtain ⟨y, c, rfl, hc⟩ := (hg z rest' (by rw [hrest]; simp)).resolve_left hne
    have hletter : (x ++ e') ++ ['e'] = (e' ++ ['e', '"'] ++ y) ++ [c] := by simpa using hbefore
    rw [← (List.cons.inj (List.append_inj' hletter rfl).2).1] at hc
    exact absurd hc (by decide)
  · have hlength := congrArg List.length hz
    simp only [List.length_append] at hlength
    omega

/-- A title is complete in front of the key of a slug behind it. -/
theorem exists_of_title_left (hy : IsMember "title".toList skipEscaped y)
    (h : b ++ slugMember f ++ a = b' ++ y ++ a') (hle : b'.length ≤ b.length) :
    ∃ e, b ++ quoted "slug".toList = b' ++ y ++ e := by
  have hs : b ++ quoted "slug".toList ++ (':' :: Record.asciiString f.slug ++ a) =
      b' ++ y ++ a' := by
    rw [← h, slugMember_eq]
    simp only [List.append_assoc]
  exact hy.within isKey_title isKey_slug hs
    (hle.lt_or_eq.imp_right fun hlength => ⟨hlength, by decide⟩)

/-- A slug is complete where the key of a title behind it ends. -/
theorem exists_of_slug_left (hm : IsMember "slug".toList skipPlain m)
    (hy : IsMember "title".toList skipEscaped y) (h : b ++ m ++ a = b' ++ y ++ a')
    (hlt : b.length < b'.length) : ∃ e, b' ++ quoted "title".toList = b ++ m ++ e := by
  obtain ⟨rest, rfl, -⟩ := hy.parts
  exact hm.within isKey_slug isKey_title (r := rest ++ a')
    (by rw [h]; simp only [List.append_assoc]) (.inl hlt)

section

variable (hm : IsMember "slug".toList skipPlain m) (hy : IsMember "title".toList skipEscaped y)
  (hparts : b ++ slugMember f ++ a = b' ++ y ++ a') (ht : b ++ m ++ a = b' ++ titleMember f ++ a')
include hm hy hparts ht

/-- A title that is replaced by itself in front of a slug is the one that was written. -/
theorem eq_titleMember_of_left (hle : b'.length ≤ b.length) : y = titleMember f := by
  obtain ⟨rest, rfl, -⟩ := hm.parts
  obtain ⟨e, he⟩ := exists_of_title_left hy hparts hle
  refine hy.eq (isMember_titleMember f) (r := e ++ rest ++ a) (q := a')
    ((List.append_right_inj b').1 ?_)
  simp only [← List.append_assoc] at ht ⊢
  rw [← he, ht]

/-- A slug in front of a title that is replaced is the one that was written. -/
theorem eq_slugMember_of_left (hlt : b.length < b'.length) : m = slugMember f := by
  obtain ⟨e, he⟩ := exists_of_slug_left hm (isMember_titleMember f) ht hlt
  obtain ⟨rest, hrest, hne, -⟩ := (isMember_titleMember f).parts
  obtain ⟨rest', rfl, -, hg⟩ := hy.parts
  obtain ⟨m', x, hslug, hm', -, hescaped⟩ := exists_isMember_slugMember f
  have ha : a = e ++ rest ++ a' := by
    refine (List.append_right_inj (b ++ m)).1 ?_
    rw [ht, hrest]
    simp only [← List.append_assoc]
    rw [he]
  have hv : m' ++ (x ++ a) = m ++ (e ++ rest' ++ a') := by
    refine (List.append_right_inj b).1 ?_
    rw [hslug] at hparts
    simp only [← List.append_assoc] at hparts ⊢
    rw [hparts, he]
  obtain rfl : m' = m := hm'.eq hm hv
  have hx : e ++ rest' = x ++ (e ++ rest) := by
    refine (List.append_left_inj a').1 ?_
    rw [List.append_assoc x, ← ha]
    exact (List.append_cancel_left hv).symm
  rw [hslug, hescaped.elim id fun ⟨_, h⟩ => eq_nil_of_title_behind he h hg hne hx, List.append_nil]

end

/-- The first slug in a text, if there is one, reads as it is written. -/
def SlugIsWritten (f : DeckFields) (s : Text) : Prop :=
  ∀ b m a, IsFirstMember "slug".toList skipPlain s b m a → m = slugMember f

/-- The first title in a text, if there is one, reads as it is written. -/
def TitleIsWritten (f : DeckFields) (s : Text) : Prop :=
  ∀ b m a, IsFirstMember "title".toList skipEscaped s b m a → m = titleMember f

/-- An update leaves a text as it is if and only if the first slug and the first title in it read as
they are written. -/
theorem updateRaw_eq_self_iff (f : DeckFields) (s : Text) : updateRaw f s = s ↔ SlugIsWritten f s ∧
    TitleIsWritten f s := by
  have hslug : replaceSlug f s = s ↔ SlugIsWritten f s :=
    replaceMember_eq_self_iff skips_skipPlain _ _ s
  have htitle : replaceTitle f s = s ↔ TitleIsWritten f s :=
    replaceMember_eq_self_iff skips_skipEscaped _ _ s
  constructor
  · intro h
    have hs : SlugIsWritten f s := by
      intro b m a hm
      have hnew : replaceSlug f s = b ++ slugMember f ++ a :=
        replaceMember_of_isFirstMember hm skips_skipPlain _
      rw [updateRaw_eq, hnew] at h
      rcases replaceMember_cases skips_skipEscaped "title".toList (titleMember f)
        (b ++ slugMember f ++ a) with
        ⟨-, hnone⟩ | ⟨b', y, a', hy, hsome⟩
      · have heq : b ++ slugMember f ++ a = b ++ m ++ a := (hnone.symm.trans h).trans hm.parts
        exact (List.append_cancel_left (List.append_cancel_right heq)).symm
      · have ht : b ++ m ++ a = b' ++ titleMember f ++ a' :=
          hm.parts.symm.trans (h.symm.trans hsome)
        rcases Nat.lt_or_ge b.length b'.length with hlt | hle
        · exact eq_slugMember_of_left hm.member hy.member hy.parts ht hlt
        · have heq : b ++ slugMember f ++ a = b ++ m ++ a := by
            rw [hy.parts, eq_titleMember_of_left hm.member hy.member hy.parts ht hle, ht]
          exact (List.append_cancel_left (List.append_cancel_right heq)).symm
    rw [updateRaw_eq, hslug.2 hs] at h
    exact ⟨hs, htitle.1 h⟩
  · rintro ⟨hs, ht⟩
    rw [updateRaw_eq, hslug.2 hs, htitle.2 ht]

/-- A second update leaves the script as it is if and only if the first slug in it is the one that
was written. -/
theorem updateRaw_updateRaw_iff (f : DeckFields) (s : Text) :
    updateRaw f (updateRaw f s) = updateRaw f s ↔
    SlugIsWritten f (updateRaw f s) := by
  have htitle : TitleIsWritten f (updateRaw f s) :=
    (replaceMember_eq_self_iff skips_skipEscaped _ _ _).1
      (replaceTitle_replaceTitle f (replaceSlug f s))
  rw [updateRaw_eq_self_iff, and_iff_left htitle]

/-! ## The slug in front of the title -/

/-- A text has a slug, and no title that starts in front of it. -/
def SlugLeads (s : Text) : Prop :=
  ∃ b m a, IsFirstMember "slug".toList skipPlain s b m a ∧
    ∀ p y q, s = p ++ y ++ q → IsMember "title".toList skipEscaped y → b.length < p.length

/-- A slug in front of the title is still the first one after the update, with the member that its
text starts with. -/
theorem exists_isFirstMember_updateRaw (h : SlugLeads s) (hm : IsMember "slug".toList skipPlain m)
    (hslug : slugMember f = m ++ x) :
    ∃ b a, IsFirstMember "slug".toList skipPlain (updateRaw f s) b m a := by
  obtain ⟨b, old, a, hold, hlead⟩ := h
  have hfirst (a' : Text) : IsFirstMember "slug".toList skipPlain (b ++ m ++ a') b m a' :=
    hold.of_key isKey_slug hm
  have hu : replaceSlug f s = b ++ slugMember f ++ a :=
    replaceMember_of_isFirstMember hold skips_skipPlain _
  have hu' : b ++ slugMember f ++ a = b ++ m ++ (x ++ a) := by
    rw [hslug]; simp only [List.append_assoc]
  rw [updateRaw_eq, hu]
  rcases replaceMember_cases skips_skipEscaped "title".toList (titleMember f)
    (b ++ slugMember f ++ a) with
    ⟨-, hnone⟩ | ⟨b', y, a', hy, hsome⟩
  · exact ⟨b, x ++ a, by rw [replaceTitle, hnone, hu']; exact hfirst _⟩
  have hlt : b.length < b'.length := by
    refine Nat.lt_of_not_le fun hle => ?_
    -- A title in front of the slug would have been there before the update.
    obtain ⟨rest, rfl, -⟩ := hold.member.parts
    obtain ⟨e, he⟩ := exists_of_title_left hy.member hy.parts hle
    refine absurd (hlead b' y (e ++ rest ++ a) ?_ hy.member) (Nat.not_lt_of_le hle)
    rw [hold.parts]
    simp only [← List.append_assoc]
    rw [he]
  obtain ⟨e, he⟩ := exists_of_slug_left hm hy.member (hu'.symm.trans hy.parts) hlt
  obtain ⟨rest, hrest, -⟩ := (isMember_titleMember f).parts
  have ht : b' ++ titleMember f ++ a' = b ++ m ++ (e ++ rest ++ a') := by
    rw [hrest]
    simp only [← List.append_assoc]
    rw [he]
  exact ⟨b, e ++ rest ++ a', by rw [replaceTitle, hsome, ht]; exact hfirst _⟩

/-- If the slug stands in front of the title, it reads as it is written unless there is a quote in
it. -/
theorem slugIsWritten_updateRaw_iff (h : SlugLeads s) : SlugIsWritten f (updateRaw f s) ↔
    '"' ∉ f.slug := by
  obtain ⟨m, x, hslug, hm, hx, -⟩ := exists_isMember_slugMember f
  obtain ⟨b, a, hfirst⟩ := exists_isFirstMember_updateRaw h hm hslug
  rw [← hx]
  constructor
  · intro hw
    have heq : m ++ [] = m ++ x := by rw [List.append_nil, ← hslug, ← hw b m a hfirst]
    exact (List.append_cancel_left heq).symm
  · intro hnil b' m' a' hm'
    rw [hm'.unique hfirst skips_skipPlain, hslug, hnil, List.append_nil]

end SlideDeck.Embedded
