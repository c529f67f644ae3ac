import SlideDeck.Config.Embedded
import SlideDeck.Proofs.Markup.EndTag
import SlideDeck.Proofs.Record.Scalar

/-!
# Members in raw text

In a text that is no record, the first piece that looks like a member is replaced
(`Embedded.replaceMember`). What looks like a member is told by its own text, whatever stands behind
it (`IsMember`), and a quote inside of it stands behind a colon, a blank or a backslash. So a quoted
key of another member does not stand inside of a member, but may start at its last quote. It follows
that a replacement which starts with the same quoted key moves no member that starts further left
(`IsMember.within`, `IsFirstMember.of_key`), and that to replace a member by another one is settled
at once (`replaceMember_replaceMember`).
-/

namespace SlideDeck.Embedded

open Text (isBlank search)

variable {key key' s b b' a a' m m' p q r x : Text} {skip : Text → Option Text}

/-! ## What looks like a member -/

/-- A character behind which a quote stands in a member. -/
def IsGuard (c : Char) : Prop := c = '\\' ∨ c = ':' ∨ isBlank c = true

instance (c : Char) : Decidable (IsGuard c) := inferInstanceAs (Decidable (_ ∨ _))

/-- A text that ends with a guard. -/
def EndsGuarded (s : Text) : Prop := ∃ p c, s = p ++ [c] ∧ IsGuard c

/-- Every quote in a text but for its last character stands behind a guard. -/
def Guarded (s : Text) : Prop := ∀ p q, s = p ++ '"' :: q → q = [] ∨ EndsGuarded p

/-- A key in quotes. -/
def quoted (key : Text) : Text := '"' :: key ++ ['"']

/-- A key that is told by its quotes: there is none inside, and no guard stands before the last
one. -/
structure IsKey (key : Text) : Prop where
  quote_not_mem : '"' ∉ key
  unguarded : ∃ x c, key = x ++ [c] ∧ ¬IsGuard c

/-- A text that looks like a member, whatever stands behind it. -/
structure IsMember (key : Text) (skip : Text → Option Text) (m : Text) : Prop where
  parts : ∃ rest, m = quoted key ++ rest ∧ rest ≠ [] ∧ Guarded rest
  taken (r : Text) : skipMember key skip (m ++ r) = some r

/-- The rest of a string up to the quote that ends it: any other quote stands behind a backslash. -/
def IsBody (body : Text) : Prop := ∀ p q, body = p ++ '"' :: q → q = [] ∨ ∃ p', p = p' ++ ['\\']

theorem isBody_quote : IsBody ['"'] := by
  intro p q h
  have := congrArg List.length h
  simp only [List.length_append, List.length_cons, List.length_nil] at this
  exact .inl (List.length_eq_zero_iff.1 (by omega))

theorem IsBody.cons {c : Char} (h : IsBody s) (hc : c ≠ '"') : IsBody (c :: s) := by
  intro p q hpq
  cases p with
  | nil => exact absurd (List.cons.inj hpq).1 hc
  | cons d p =>
    refine (h p q (List.cons.inj hpq).2).imp_right fun ⟨p', hp⟩ => ⟨d :: p', ?_⟩
    rw [hp]
    rfl

theorem IsBody.escape (h : IsBody s) (c : Char) : IsBody ('\\' :: c :: s) := by
  intro p q hpq
  rcases p with _ | ⟨d, _ | ⟨e, p⟩⟩
  · exact absurd (List.cons.inj hpq).1 (by decide)
  · exact .inr ⟨[], by rw [(List.cons.inj hpq).1]; rfl⟩
  · refine (h p q (List.cons.inj (List.cons.inj hpq).2).2).imp_right fun ⟨p', hp⟩ =>
      ⟨d :: e :: p', ?_⟩
    rw [hp]
    rfl

/-- What `skip` takes is the rest of a string, whatever stands behind it. -/
def Skips (skip : Text → Option Text) : Prop := ∀ ⦃s r⦄, skip s = some r →
  ∃ body, s = body ++ r ∧ IsBody body ∧ ∀ r', skip (body ++ r') = some r'

theorem skips_skipPlain : Skips skipPlain := by
  intro s r h
  fun_induction skipPlain s with
  | case1 => cases h
  | case2 r =>
    cases h
    exact ⟨['"'], rfl, isBody_quote, fun _ => rfl⟩
  | case3 c s hc ih =>
    obtain ⟨body, rfl, hb, ht⟩ := ih h
    exact ⟨c :: body, rfl, hb.cons hc, fun r' => (skipPlain.eq_3 c (body ++ r') hc).trans (ht r')⟩

theorem skips_skipEscaped : Skips skipEscaped := by
  intro s r h
  fun_induction skipEscaped s with
  | case1 => cases h
  | case2 r =>
    cases h
    exact ⟨['"'], rfl, isBody_quote, fun _ => rfl⟩
  | case3 => cases h
  | case4 c s hc ih =>
    obtain ⟨body, rfl, hb, ht⟩ := ih h
    exact ⟨'\\' :: c :: body, rfl, hb.escape c, fun r' => (if_neg hc).trans (ht r')⟩
  | case5 => cases h
  | case6 c s hc he₁ he₂ ih =>
    obtain ⟨body, rfl, hb, ht⟩ := ih h
    have hback : c ≠ '\\' := by
      rintro rfl
      cases hs : body ++ r with
      | nil => exact he₂ rfl hs
      | cons d u => exact he₁ d u rfl hs
    refine ⟨c :: body, rfl, hb.cons hc, fun r' => ?_⟩
    exact (skipEscaped.eq_5 c (body ++ r') hc (fun _ _ h => absurd h hback) fun h =>
      absurd h hback).trans (ht r')

/-! ## What is taken for a member -/

theorem skipMember_append {w₁ w₂ : Text} (h₁ : ∀ c ∈ w₁, isBlank c = true)
    (h₂ : ∀ c ∈ w₂, isBlank c = true) (s : Text) :
    skipMember key skip (quoted key ++ (w₁ ++ ':' :: (w₂ ++ '"' :: s))) = skip s := by
  rw [skipMember.eq_def, quoted]
  dsimp only
  rw [if_pos (List.prefix_append _ _), List.drop_left,
    Markup.stripLeft_append h₁ (Text.stops_cons (by decide) _)]
  split
  · next r hr =>
    rw [← (List.cons.inj hr).2, Markup.stripLeft_append h₂ (Text.stops_cons (by decide) _)]
    split
    · next r hr => rw [(List.cons.inj hr).2]
    · next h => exact absurd rfl (h s)
  · next h => exact absurd rfl (h _)

theorem endsGuarded_blanks {c : Char} (hc : IsGuard c) {w : Text} (hw : ∀ c ∈ w, isBlank c = true)
    (p : Text) :
    EndsGuarded (p ++ c :: w) := by
  rcases List.eq_nil_or_concat w with rfl | ⟨w, d, rfl⟩
  · exact ⟨p, c, rfl, hc⟩
  · exact ⟨p ++ c :: w, d, by simp, .inr (.inr (hw d (by simp)))⟩

theorem guarded_of_isBody {w₁ w₂ body : Text} (h₁ : ∀ c ∈ w₁, isBlank c = true)
    (h₂ : ∀ c ∈ w₂, isBlank c = true) (hb : IsBody body) :
    Guarded (w₁ ++ ':' :: (w₂ ++ '"' :: body)) := by
  have hplain : '"' ∉ w₁ ++ ':' :: w₂ := by
    intro h
    rcases List.mem_append.1 h with h | h
    · exact absurd (h₁ _ h) (by decide)
    · exact absurd (h₂ _ ((List.mem_cons.1 h).resolve_left (by decide))) (by decide)
  intro p q h
  have h : (w₁ ++ ':' :: w₂) ++ '"' :: body = p ++ '"' :: q := by simpa using h
  rcases List.append_eq_append_iff.1 h with ⟨z, rfl, hz⟩ | ⟨z, hp, hz⟩
  · cases z with
    | nil => exact .inr (List.append_nil _ ▸ endsGuarded_blanks (.inr (.inl rfl)) h₂ w₁)
    | cons d z =>
      obtain ⟨rfl, hbody⟩ := List.cons.inj hz
      refine (hb z q hbody).imp_right fun ⟨p', hp'⟩ =>
        ⟨w₁ ++ ':' :: w₂ ++ '"' :: p', '\\', ?_, .inl rfl⟩
      rw [hp']
      simp
  · cases z with
    | nil => exact .inr (by
        rw [← List.append_nil p, ← hp]; exact endsGuarded_blanks (.inr (.inl rfl)) h₂ w₁)
    | cons d z =>
      rw [← (List.cons.inj hz).1] at hp
      exact absurd (by rw [hp]; simp) hplain

/-- What is skipped as a member is one. -/
theorem exists_isMember (hs : Skips skip) (h : skipMember key skip s = some r) :
    ∃ m, s = m ++ r ∧ IsMember key skip m := by
  rw [skipMember.eq_def] at h
  dsimp only at h
  split at h
  · next hq =>
    obtain ⟨t, rfl⟩ := hq
    rw [List.drop_left] at h
    split at h
    · next r₁ hcolon =>
      split at h
      · next r₂ hquote =>
        obtain ⟨body, rfl, hb, ht⟩ := hs h
        have hblank (u : Text) : ∀ c ∈ u.takeWhile isBlank, isBlank c = true :=
          List.all_eq_true.1 List.all_takeWhile
        have h₁ : t = t.takeWhile isBlank ++ ':' :: r₁ := by
          rw [← hcolon, Text.stripLeft, List.takeWhile_append_dropWhile]
        have h₂ : r₁ = r₁.takeWhile isBlank ++ '"' :: (body ++ r) := by
          rw [← hquote, Text.stripLeft, List.takeWhile_append_dropWhile]
        refine ⟨quoted key ++ (t.takeWhile isBlank ++ ':' :: (r₁.takeWhile isBlank ++ '"' :: body)),
          ?_, ⟨_, rfl, ?_, ?_⟩, ?_⟩
        · conv_lhs => rw [h₁, h₂]
          simp [quoted]
        · simp
        · exact guarded_of_isBody (hblank t) (hblank r₁) hb
        · intro r'
          rw [← ht r', ← @skipMember_append key skip _ _ (hblank t) (hblank r₁)]
          simp
      · cases h
    · cases h
  · cases h

namespace IsMember

/-- Two members that start at one place are the same. -/
theorem eq (h : IsMember key skip m) (h' : IsMember key skip m') (heq : m ++ r = m' ++ q) :
    m = m' := by
  have hr := h.taken r
  rw [heq, h'.taken q] at hr
  obtain rfl := Option.some.inj hr
  exact List.append_cancel_right heq

/-- A quote inside of a member that does not stand behind a guard ends its key. -/
theorem eq_quoted {c : Char} (h : IsMember key skip m) (hk : '"' ∉ key) (hc : ¬IsGuard c)
    (hq : q ≠ []) (hm : m = p ++ c :: '"' :: q) : p ++ [c] = '"' :: key := by
  obtain ⟨rest, rfl, -, hg⟩ := h.parts
  have hm : ('"' :: key) ++ '"' :: rest = (p ++ [c]) ++ '"' :: q := by simpa [quoted] using hm
  rcases List.append_eq_append_iff.1 hm with ⟨z, hp, hz⟩ | ⟨z, hp, hz⟩
  · cases z with
    | nil => rw [hp, List.append_nil]
    | cons d z =>
      obtain ⟨rfl, hrest⟩ := List.cons.inj hz
      obtain ⟨p', c', rfl, hc'⟩ := (hg z q hrest).resolve_left hq
      have hp : p ++ [c] = ('"' :: key ++ '"' :: p') ++ [c'] := by simpa using hp
      rw [(List.cons.inj (List.append_inj' hp rfl).2).1] at hc
      exact absurd hc' hc
  · cases z with
    | nil => rw [hp, List.append_nil]
    | cons d z =>
      rw [← (List.cons.inj hz).1] at hp
      cases p with
      | nil => exact absurd (by rw [(List.cons.inj hp).2]; simp) hk
      | cons e p => exact absurd (by rw [(List.cons.inj hp).2]; simp) hk

/-- A member that starts further left than a quoted key is complete where that key ends. -/
theorem within (h : IsMember key skip m) (hk : IsKey key) (hk' : IsKey key')
    (hs : a ++ quoted key' ++ r = p ++ m ++ q)
    (hp : p.length < a.length ∨ p.length = a.length ∧ key ≠ key') :
    ∃ e, a ++ quoted key' = p ++ m ++ e := by
  obtain ⟨x, c, hkey, hc⟩ := hk'.unguarded
  rcases List.append_eq_append_iff.1 hs with ⟨z, hz, -⟩ | ⟨z, hz, -⟩
  · by_cases hne : z = []
    · exact ⟨[], by rw [hz, hne, List.append_nil, List.append_nil]⟩
    -- The key would stand inside of the member.
    have hle : p.length ≤ a.length := hp.elim Nat.le_of_lt fun h => Nat.le_of_eq h.1
    have ha : a <+: p ++ m := ⟨quoted key' ++ z, by rw [hz, List.append_assoc]⟩
    obtain ⟨d, rfl⟩ := List.prefix_of_prefix_length_le (List.prefix_append p m) ha hle
    have hm : m = (d ++ '"' :: x) ++ c :: '"' :: z := by
      rw [List.append_assoc p, List.append_assoc p, List.append_right_inj] at hz
      rw [hz, quoted, hkey]
      simp
    have hfirst := h.eq_quoted hk.quote_not_mem hc hne hm
    cases d with
    | nil =>
      refine absurd hfirst fun hfirst => ?_
      rcases hp with hp | ⟨-, hne⟩
      · simp at hp
      · exact hne (by rw [hkey]; exact ((List.cons.inj hfirst).2).symm)
    | cons e d =>
      refine absurd ?_ hk.quote_not_mem
      rw [← (List.cons.inj hfirst).2]
      simp
  · exact ⟨z, hz⟩

end IsMember

/-! ## The first member -/

/-- `m` is the first member of a key in `s`, with `b` before it and `a` behind it. -/
structure IsFirstMember (key : Text) (skip : Text → Option Text) (s b m a : Text) : Prop where
  parts : s = b ++ m ++ a
  member : IsMember key skip m
  leftmost {p m' q : Text} (h : s = p ++ m' ++ q) (hm : IsMember key skip m') : b.length ≤ p.length

theorem isFirstMember_of_search (hs : Skips skip)
    (h : search (skipMember key skip) s = some (b, a)) :
    ∃ m, IsFirstMember key skip s b m a := by
  induction s generalizing b with
  | nil =>
    obtain ⟨r, hr, heq⟩ := Option.map_eq_some_iff.1 h
    cases heq
    obtain ⟨m, hm, hmember⟩ := exists_isMember hs hr
    exact ⟨m, hm, hmember, fun _ _ => Nat.zero_le _⟩
  | cons c s ih =>
    rw [search] at h
    split at h
    · next hr =>
      cases h
      obtain ⟨m, hm, hmember⟩ := exists_isMember hs hr
      exact ⟨m, hm, hmember, fun _ _ => Nat.zero_le _⟩
    · next hr =>
      obtain ⟨⟨b', a'⟩, hs', heq⟩ := Option.map_eq_some_iff.1 h
      cases heq
      obtain ⟨m, hm⟩ := ih hs'
      refine ⟨m, by rw [hm.parts]; rfl, hm.member, fun {p m' q} h hmember => ?_⟩
      cases p with
      | nil =>
        rw [h, List.nil_append, hmember.taken] at hr
        cases hr
      | cons d p => exact Nat.succ_le_succ (hm.leftmost (List.cons.inj h).2 hmember)

theorem search_of_isFirstMember (h : IsFirstMember key skip s b m a) (hs : Skips skip) :
    search (skipMember key skip) s = some (b, a) := by
  have hparts := h.parts
  rw [List.append_assoc] at hparts
  have hnone : ∀ x y, b = x ++ y → y ≠ [] → skipMember key skip (y ++ (m ++ a)) = none := by
    intro x y hxy hy
    cases hr : skipMember key skip (y ++ (m ++ a)) with
    | none => rfl
    | some r =>
      obtain ⟨m', hm, hmember⟩ := exists_isMember hs hr
      have hle := h.leftmost (p := x) (q := r)
          (by rw [hparts, hxy, List.append_assoc, hm, List.append_assoc]) hmember
      have hlength := congrArg List.length hxy
      have hpos := List.length_pos_iff.2 hy
      rw [List.length_append] at hlength
      omega
  rw [hparts, Text.search_append hnone, Text.search_of_recognize (h.member.taken a),
    Option.map_some]
  exact congrArg (fun u => some (u, a)) (List.append_nil b)

/-- There is one first member. -/
theorem IsFirstMember.unique (h : IsFirstMember key skip s b m a)
    (h' : IsFirstMember key skip s b' m' a') (hs : Skips skip) :
    m = m' := by
  have hparts := h.parts
  have heq := (search_of_isFirstMember h hs).symm.trans (search_of_isFirstMember h' hs)
  simp only [Option.some.injEq, Prod.mk.injEq] at heq
  rw [h'.parts, ← heq.1, ← heq.2] at hparts
  exact (List.append_cancel_left (List.append_cancel_right hparts)).symm

theorem replaceMember_of_isFirstMember (h : IsFirstMember key skip s b m a) (hs : Skips skip)
    (new : Text) :
    replaceMember key skip new s = b ++ new ++ a := by
  rw [replaceMember, search_of_isFirstMember h hs]

/-- The first member is replaced, if there is one. -/
theorem replaceMember_cases (hs : Skips skip) (key new s : Text) :
    (search (skipMember key skip) s = none ∧ replaceMember key skip new s = s) ∨
      ∃ b m a, IsFirstMember key skip s b m a ∧ replaceMember key skip new s = b ++ new ++ a := by
  cases h : search (skipMember key skip) s with
  | none => exact .inl ⟨rfl, by rw [replaceMember, h]⟩
  | some x =>
    obtain ⟨m, hm⟩ := isFirstMember_of_search hs (b := x.1) (a := x.2) h
    exact .inr ⟨x.1, m, x.2, hm, replaceMember_of_isFirstMember hm hs new⟩

/-- Where the first member starts depends on what stands before it and on its key only. -/
theorem IsFirstMember.of_key (h : IsFirstMember key skip s b m a) (hk : IsKey key)
    (hm : IsMember key skip m') :
    IsFirstMember key skip (b ++ m' ++ a') b m' a' := by
  refine ⟨rfl, hm, fun {p n q} hp hn => Nat.le_of_not_lt fun hlt => ?_⟩
  obtain ⟨rest, hrest, -⟩ := h.member.parts
  obtain ⟨rest', rfl, -⟩ := hm.parts
  obtain ⟨e, he⟩ :=
    hn.within hk hk (a := b) (r := rest' ++ a') (by rw [← hp]; simp only [List.append_assoc])
      (.inl hlt)
  have hs : s = p ++ n ++ (e ++ rest ++ a) := by
    rw [h.parts, hrest]
    simp only [← List.append_assoc] at he ⊢
    rw [he]
  exact Nat.not_le_of_lt hlt (h.leftmost hs hn)

/-- A text is left as it is if and only if its first member, if there is one, is the one that is put
in. -/
theorem replaceMember_eq_self_iff (hs : Skips skip) (key new s : Text) :
    replaceMember key skip new s = s ↔ ∀ b m a, IsFirstMember key skip s b m a → m = new := by
  constructor
  · intro h b m a hm
    have heq : b ++ new ++ a = b ++ m ++ a :=
      (replaceMember_of_isFirstMember hm hs new).symm.trans (h.trans hm.parts)
    exact (List.append_cancel_left (List.append_cancel_right heq)).symm
  · intro h
    rcases replaceMember_cases hs key new s with ⟨-, hnone⟩ | ⟨b, m, a, hm, hsome⟩
    · exact hnone
    · rw [hsome, ← h b m a hm, ← hm.parts]

/-- A member that has been put in is replaced by itself. -/
theorem replaceMember_replaceMember (hs : Skips skip) (hk : IsKey key) {new : Text}
    (hn : IsMember key skip new) (s : Text) :
    replaceMember key skip new (replaceMember key skip new s) = replaceMember key skip new s := by
  rcases replaceMember_cases hs key new s with ⟨-, h⟩ | ⟨b, m, a, hm, h⟩
  · rw [h, h]
  · rw [h, replaceMember_of_isFirstMember (hm.of_key hk hn) hs]

end SlideDeck.Embedded
