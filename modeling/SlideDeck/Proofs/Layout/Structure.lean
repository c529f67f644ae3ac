import SlideDeck.Proofs.Layout.Grammar
import SlideDeck.Proofs.Text.Numeral

/-!
# Structure texts

A structure text tells only some layouts: a stack of one slide reads as a single slide, the numeral
of a stack must not be too long, and if there are dividers, then their marker must be what is left
of a piece between commas (`Layout.IsTold`). What is read from a structure text is such a layout
(`Layout.isTold_of_ofStructure`), and such a layout is read again from its own structure text
(`Layout.ofStructure_describe_of_isTold`), unless the marker of dividers is a numeral. So a layout
and its structure text tell each other, whatever blanks and leading zeros the layout was first read
from (`Layout.ofStructure_describe`).

A structure text that was written with the default marker and is read with another one need not tell
the layout (`Layout.ofStructure_describe_default`).
-/

namespace SlideDeck

namespace Group

variable {marker token : Text} {g : Group}

/-- A group that a token can tell. -/
def IsTold : Group → Prop
  | .single | .divider => True
  | .stack size _ => 1 < size ∧ (Text.ofNat size).length ≤ Numeral.maxDigits

/-- The numeral of a positive number is read as that many slides, unless it is the marker of
dividers. -/
theorem ofToken_ofNat {n : Nat} (pos : 0 < n) (hmarker : marker ≠ Text.ofNat n)
    (hlength : (Text.ofNat n).length ≤ Numeral.maxDigits) :
    ofToken marker (Text.ofNat n) = .ok (.ofCount n pos) := by
  rw [ofToken, Text.strip_ofNat, if_neg (Ne.symm hmarker), if_pos (Numeral.isPlain_ofNat n),
    Numeral.read, if_pos hlength, Numeral.value_ofNat]
  exact dif_pos pos

/-- A group is read from its own token. -/
theorem ofToken_token (hmarker : ∀ n, 0 < n → marker ≠ Text.ofNat n) (hg : g.IsTold)
    (hdivider : g = .divider → Text.strip marker = marker) :
    ofToken marker (g.token marker) = .ok g := by
  cases g with
  | single => exact ofToken_ofNat (n := 1) (by decide) (hmarker 1 (by decide)) (by decide)
  | divider => rw [token, ofToken, if_pos (hdivider rfl)]
  | stack size pos =>
    rw [token, ofToken_ofNat pos (hmarker size pos) hg.2, ofCount, if_neg (by have := hg.1; omega)]

/-- A group is read from its token with the default marker exactly if this token is the marker of
dividers where it should be: for dividers and for no other group. -/
theorem ofToken_token_default (hg : g.IsTold) :
    ofToken marker (g.token Layout.defaultMarker) = .ok g
    ↔ (g.token Layout.defaultMarker = marker ↔ g = .divider) := by
  have hnumeral {n : Nat} (pos : 0 < n) (hlength : (Text.ofNat n).length ≤ Numeral.maxDigits) :
      ofToken marker (Text.ofNat n) = .ok (.ofCount n pos) ↔ Text.ofNat n ≠ marker := by
    refine ⟨fun h hmarker => ?_, fun h => ofToken_ofNat pos h.symm hlength⟩
    rw [ofToken, Text.strip_ofNat, if_pos hmarker, ofCount] at h
    split at h <;> cases h
  cases g with
  | single => exact (hnumeral (n := 1) (by decide) (by decide)).trans (iff_false_right fun h => by
      cases h).symm
  | divider =>
    refine ofToken_eq_ok_iff.trans
      (Iff.trans ⟨fun h => ?_, fun hmarker => .divider hmarker⟩ (iff_true_right rfl).symm)
    cases h with
    | divider hmarker => exact hmarker
  | stack size pos =>
    have hcount : ofCount size pos = .stack size pos := if_neg (by have := hg.1; omega)
    have hstack := hnumeral pos hg.2
    rw [hcount] at hstack
    exact hstack.trans (iff_false_right fun h => by cases h).symm

/-- What is read from a token can be told, and a divider is read from its marker only. -/
theorem isTold_of_ofToken (h : ofToken marker token = .ok g) :
    g.IsTold ∧ (g = .divider → Text.strip token = marker) := by
  cases ofToken_eq_ok_iff.1 h with
  | divider hmarker => exact ⟨trivial, fun _ => hmarker⟩
  | single => exact ⟨trivial, fun h => by cases h⟩
  | stack _ hcount hmore =>
    have hplain := hcount.plain
    rw [Numeral.isPlain, Bool.and_eq_true, Bool.not_eq_true', List.isEmpty_eq_false_iff,
      List.all_eq_true] at hplain
    have hlength := Numeral.length_ofNat_value_le hplain.1 hplain.2
    exact ⟨⟨by have := hcount.pos; omega, hlength.trans hcount.length_le⟩, fun h => by cases h⟩

/-- There is no comma in the token of a group. -/
theorem comma_not_mem_token (h : g = .divider → ',' ∉ marker) : ',' ∉ g.token marker := by
  cases g with
  | single =>
    rw [Group.token]
    decide
  | divider => exact h rfl
  | stack size pos => exact Text.not_mem_ofNat (by decide) size

end Group

namespace Layout

variable {marker structureText : Text} {layout : Layout}

/-- A layout that a structure text can tell. -/
structure IsTold (marker : Text) (layout : Layout) : Prop where
  nonempty : layout ≠ []
  groups : ∀ g ∈ layout, g.IsTold
  /-- The marker can be found between two commas and blanks, if there are dividers. -/
  marker : .divider ∈ layout → ',' ∉ marker ∧ Text.strip marker = marker

theorem isTold_of_ofStructure (h : ofStructure marker structureText = .ok layout) :
    layout.IsTold marker := by
  have hgroups := Outcome.mapM_eq_ok.1 h
  have hread (g : Group) (hg : g ∈ layout) :
      ∃ piece ∈ Text.split ',' structureText, Group.ofToken marker piece = .ok g := by
    obtain ⟨i, hi, rfl⟩ := List.getElem_of_mem hg
    have hlength := hgroups.length_eq
    exact ⟨_, List.getElem_mem (by omega), hgroups.get (by omega) hi⟩
  refine ⟨?_, fun g hg => ?_, fun hdivider => ?_⟩
  · rintro rfl
    have hlength := hgroups.length_eq
    rw [List.length_nil, List.length_eq_zero_iff] at hlength
    exact Text.splitWhere_ne_nil _ _ hlength
  · obtain ⟨piece, -, hpiece⟩ := hread g hg
    exact (Group.isTold_of_ofToken hpiece).1
  · obtain ⟨piece, hmem, hpiece⟩ := hread _ hdivider
    obtain rfl := (Group.isTold_of_ofToken hpiece).2 rfl
    exact ⟨fun hcomma => Text.not_mem_of_mem_split hmem (Text.mem_of_mem_strip hcomma),
      Text.strip_strip piece⟩

/-- The pieces of a layout's structure text are the tokens of its groups. -/
theorem split_describe (hne : layout ≠ []) (hcomma : .divider ∈ layout → ',' ∉ marker) :
    Text.split ',' (layout.describe marker) = layout.map (Group.token marker) := by
  refine Text.split_join (fun piece hpiece => ?_) (by simpa using hne)
  obtain ⟨g, hg, rfl⟩ := List.mem_map.1 hpiece
  exact Group.comma_not_mem_token fun hdivider => hcomma (hdivider ▸ hg)

theorem ofStructure_describe_of_isTold (hmarker : ∀ n, 0 < n → marker ≠ Text.ofNat n)
    (h : layout.IsTold marker) :
    ofStructure marker (layout.describe marker) = .ok layout := by
  have hpieces := split_describe h.nonempty fun hdivider => (h.marker hdivider).1
  rw [ofStructure, hpieces, Outcome.mapM_eq_ok, List.forall₂_map_left_iff, List.forall₂_same]
  exact fun g hg => Group.ofToken_token hmarker (h.groups g hg) fun hdivider =>
    (h.marker (hdivider ▸ hg)).2

/-- A layout is read from its own structure text, whether it was made of groups that a structure
text can tell or read from any structure text, if the marker of dividers is no numeral. -/
theorem ofStructure_describe (hmarker : ∀ n, 0 < n → marker ≠ Text.ofNat n) :
    (',' ∉ marker → Text.strip marker = marker → ∀ layout : Layout, layout ≠ [] →
      (∀ g ∈ layout, g.IsTold) →
      ofStructure marker (layout.describe marker) = .ok layout) ∧
    ∀ (structureText : Text) (layout : Layout), ofStructure marker structureText = .ok layout →
      (∀ pos, .stack 1 pos ∉ layout) ∧ ofStructure marker (layout.describe marker) =
        .ok layout := by
  refine ⟨fun hcomma hstrip layout hne hgroups => ?_, fun structureText layout h => ?_⟩
  · exact ofStructure_describe_of_isTold hmarker ⟨hne, hgroups, fun _ => ⟨hcomma, hstrip⟩⟩
  · have htold := isTold_of_ofStructure h
    exact ⟨fun pos hone => absurd (htold.groups _ hone).1 (by decide),
      ofStructure_describe_of_isTold hmarker htold⟩

/-- With a marker of digits that is no numeral, a layout is read from a text with blanks and zeros,
and again from its own. -/
theorem ofStructure_describe_digits :
    let marker := "01".toList
    let layout : Layout := [.stack 12 (by decide), .divider, .single]
    (∀ n, 0 < n → marker ≠ Text.ofNat n) ∧ ofStructure marker " 012,01 ,001".toList = .ok layout ∧
      ofStructure marker (layout.describe marker) = .ok layout := by
  have hmarker (n : Nat) (pos : 0 < n) : "01".toList ≠ Text.ofNat n := fun h => by
    have := Text.ofNat_eq_zero_cons h.symm
    omega
  have hread : ofStructure "01".toList " 012,01 ,001".toList =
      .ok [.stack 12 (by decide), .divider, .single] := by
    rfl
  exact ⟨hmarker, hread, ((ofStructure_describe hmarker).2 _ _ hread).2⟩

/-- A layout is read from its structure text with the default marker exactly if it has a group and
if the marker of dividers is the token of its dividers and of no other of its groups. -/
theorem ofStructure_describe_default (hgroups : ∀ g ∈ layout, g.IsTold) :
    ofStructure marker (layout.describe defaultMarker) = .ok layout
      ↔ layout ≠ [] ∧ ∀ g ∈ layout, (g.token defaultMarker = marker ↔ g = .divider) := by
  have hread (hne : layout ≠ []) : ofStructure marker (layout.describe defaultMarker) = .ok layout
      ↔ ∀ g ∈ layout, (g.token defaultMarker = marker ↔ g = .divider) := by
    rw [ofStructure, split_describe hne fun _ => by decide, Outcome.mapM_eq_ok,
      List.forall₂_map_left_iff, List.forall₂_same]
    exact forall₂_congr fun g hg => Group.ofToken_token_default (hgroups g hg)
  constructor
  · intro h
    have hne := (isTold_of_ofStructure h).nonempty
    exact ⟨hne, (hread hne).1 h⟩
  · rintro ⟨hne, h⟩
    exact (hread hne).2 h

/-- Every group of a layout that is asked for can be told. -/
theorem isTold_of_read {defaultCount : Int} {request : Request}
    (h : read marker defaultCount request = .ok layout) :
    ∀ g ∈ layout, g.IsTold := by
  have hsingles (n : Nat) : ∀ g ∈ List.replicate n Group.single, g.IsTold := fun g hg => by
    rw [List.eq_of_mem_replicate hg]
    trivial
  unfold read at h
  split at h
  · cases h
  · exact (isTold_of_ofStructure h).groups
  · obtain ⟨n, -, hlayout⟩ := Outcome.bind_eq_ok.1 h
    cases hlayout
    exact hsingles n
  · cases h
    exact hsingles _

end Layout

end SlideDeck
