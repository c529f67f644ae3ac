import SlideDeck.Deck.Slug
import SlideDeck.Deck.Template
import SlideDeck.Proofs.Text.Numeral

/-!
# Where decks are

The name of a deck's directory is the prefix and the slug. A slug may hold slashes; if there is no
step up between them, the deck is below the directory of the decks (`exists_deckPath`). A slug that
is made of random bytes is a single name (`Slug.up_not_mem_generate`).
-/

namespace SlideDeck

namespace Slug

/-- A slug that is made of random bytes is a name. -/
theorem up_not_mem_generate {random : Nat → List UInt8} {count : Int} {slug : Text}
    (h : generate random count = .ok slug) : Path.up ∉ Text.split '/' slug := by
  rw [generate] at h
  split at h
  · cases h
  · obtain rfl := Except.ok.inj h
    intro hup
    have hdot : '.' ∈ ofBytes (random count.toNat) := (Text.of_mem_splitWhere hup (by decide)).1
    obtain ⟨b, -, hb⟩ := List.mem_flatMap.1 hdot
    rcases List.mem_append.1 hb with hzero | hdigit
    · exact absurd (List.eq_of_mem_replicate hzero) (by decide)
    · exact Text.not_mem_toDigits (by decide) (by decide) _ hdigit

end Slug

namespace Settings

variable {s : Settings} {archive : Path} {slug : Text}

/-- Without steps up in the slug, a deck's path leads downwards from the directory of the decks, by
a name that starts with the prefix. -/
theorem exists_deckPath (hs : s = .defaults archive) (hslug : Path.up ∉ Text.split '/' slug)
    (out : Path) :
    ∃ first rest, s.deckPath slug out = out.append ⟨[], ("deck-".toList ++ first) :: rest⟩ ∧
      Path.up ∉ ("deck-".toList ++ first) :: rest := by
  subst hs
  obtain ⟨first, rest, hsplit⟩ :=
    List.exists_cons_of_ne_nil (Text.splitWhere_ne_nil (· == '/') slug)
  have hparts : Text.split '/' ("deck-".toList ++ slug) = ("deck-".toList ++ first) :: rest :=
    Text.splitWhere_append rfl hsplit
  refine ⟨first, rest.filter Path.isPart, ?_, fun hup => ?_⟩
  · show out.append
        ⟨Path.rootOf ("deck-".toList ++ slug),
          (Text.split '/' ("deck-".toList ++ slug)).filter Path.isPart⟩ = _
    rw [hparts, List.filter_cons_of_pos (by rfl)]
    rfl
  · rcases List.mem_cons.1 hup with heq | hup
    · cases heq
    · refine hslug ?_
      show Path.up ∈ Text.splitWhere (· == '/') slug
      rw [hsplit]
      exact List.mem_cons_of_mem _ (List.mem_filter.1 hup).1

theorem up_ne_deckName (slug : Text) : Path.up ∉ ["deck-".toList ++ slug] := by
  rw [List.mem_singleton]
  exact fun heq => nomatch heq

/-- A deck whose slug is a single name is in the directory of the decks. -/
theorem deckPath_of_not_mem (hs : s = .defaults archive) (hslug : '/' ∉ slug) (out : Path) :
    s.deckPath slug out = out.append ⟨[], ["deck-".toList ++ slug]⟩ := by
  subst hs
  have hslash :
      slug.any (· == '/') = false := by
    simpa [List.any_eq_false] using fun c hc (heq : c = '/') => hslug (heq ▸ hc)
  have hwhole : Text.split '/' slug = [slug] := by
    have := Text.splitWhere_append hslash (rfl : Text.splitWhere (· == '/') [] = [[]])
    rwa [List.append_nil] at this
  have hparts : Text.split '/' ("deck-".toList ++ slug) = ["deck-".toList ++ slug] :=
    Text.splitWhere_append rfl hwhole
  show out.append
      ⟨Path.rootOf ("deck-".toList ++ slug),
        (Text.split '/' ("deck-".toList ++ slug)).filter Path.isPart⟩ = _
  rw [hparts, List.filter_cons_of_pos (by rfl)]
  rfl

end Settings

end SlideDeck
