import SlideDeck.Config.Embedded
import SlideDeck.Proofs.Config.Assignment
import SlideDeck.Proofs.Record.Reading
import SlideDeck.Proofs.Record.Truncation
import SlideDeck.Settings.Basic

/-!
# Updating a structured configuration

An update writes the fields into the record (`writes_updateRecord`) and puts the record's text in
place of the first assignment, which leaves what stands before and behind it as it was. Reading the
new script gives the new record if and only if none of its keys and strings holds the end of an
assignment; otherwise the first end of an assignment stands inside a string, and the script is read
as raw (`read_update`).
-/

namespace SlideDeck.Embedded

open Record (Members Value)
open Text (Holds)

variable {marker script : Text} {f : DeckFields} {record deck : Members}

/-! ## The record -/

/-- `new` is `old` with the fields in its deck: the members of the deck that are there keep their
place, missing ones come last in the deck, and all else is the same. -/
def Writes (f : DeckFields) (old new : Members) : Prop :=
  ∃ before deck slugged titled counted after,
    old = before ++ (deckKey, .object deck) :: after ∧ deckKey ∉ Members.keys before ∧
    Members.Sets "slug".toList (.string f.slug) deck slugged ∧
    Members.Sets "title".toList (.string f.title) slugged titled ∧
    Members.Sets "slide_count".toList (.integer f.slideCount) titled counted ∧
    new = before ++ (deckKey, .object counted) :: after

theorem deck?_eq_some_iff : deck? record = some deck ↔
    record.get? deckKey = some (.object deck) := by
  rw [deck?]
  split
  · next d h => rw [h, Option.some.injEq, Option.some.injEq, Value.object.injEq]
  · next h => exact ⟨fun hd => (by cases hd), fun hd => absurd hd (h deck)⟩

theorem updateRecord_eq (h : deck? record = some deck) (f : DeckFields) :
    updateRecord f record = record.set deckKey (.object (setFields f deck)) := by
  rw [updateRecord, h]

theorem writes_updateRecord (h : deck? record = some deck) (f : DeckFields) :
    Writes f record (updateRecord f record) := by
  rw [updateRecord_eq h]
  have hg := deck?_eq_some_iff.1 h
  rcases Members.sets_set deckKey (.object (setFields f deck)) record
    with ⟨before, was, after, ho, hb, hn⟩ | ⟨hk, -⟩
  · obtain rfl : was = .object deck := by
      rw [ho, Members.get?_append_cons hb] at hg
      exact Option.some.inj hg
    exact ⟨before, deck, _, _, _, after, ho, hb, Members.sets_set _ _ _, Members.sets_set _ _ _,
      Members.sets_set _ _ _, hn⟩
  · exact absurd (List.mem_map_of_mem (Members.mem_of_get? hg)) hk

theorem deck?_updateRecord (h : deck? record = some deck) (f : DeckFields) :
    deck? (updateRecord f record) = some (setFields f deck) := by
  rw [deck?_eq_some_iff, updateRecord_eq h, Members.get?_set, if_pos rfl]

/-- The new record can be read if the old one can, and if the slide count can. -/
theorem fits_updateRecord {depth : Nat} (h : deck? record = some deck)
    (hr : (Value.object record).Fits depth)
    (hf : (Text.ofNat f.slideCount.natAbs).length ≤ Numeral.maxDigits) :
    (Value.object (updateRecord f record)).Fits depth := by
  have hmem := Members.mem_of_get? (deck?_eq_some_iff.1 h)
  -- The deck's own record takes up a second level.
  obtain _ | _ | depth := depth
  · exact hr.elim
  · exact (hr.2 _ hmem).elim
  have h₁ := Value.fits_object_set (hr.2 _ hmem) (Value.fits_string depth f.slug) "slug".toList
  have h₂ := Value.fits_object_set h₁ (Value.fits_string depth f.title) "title".toList
  have h₃ := Value.fits_object_set h₂ (Value.fits_integer_iff.2 hf) "slide_count".toList
  rw [updateRecord_eq h]
  exact Value.fits_object_set hr h₃ _

theorem integral_updateRecord (h : deck? record = some deck) (hr : (Value.object record).Integral)
    (f : DeckFields) : (Value.object (updateRecord f record)).Integral := by
  have hd := Value.integral_object.1 hr _ (Members.mem_of_get? (deck?_eq_some_iff.1 h))
  have h₁ := Value.integral_object_set hd (Value.integral_string f.slug) "slug".toList
  have h₂ := Value.integral_object_set h₁ (Value.integral_string f.title) "title".toList
  have h₃ := Value.integral_object_set h₂ (Value.integral_integer f.slideCount) "slide_count".toList
  rw [updateRecord_eq h]
  exact Value.integral_object_set hr h₃ _

/-! ## Reading and updating -/

section Reading

variable [Record.Nesting]

theorem result_read_eq_structured
    (h : (read marker script).result = .ok (some (.structured record))) :
    ∃ a, Assignment.find? marker script = some a ∧ Record.read a.payload = .ok (.object record) ∧
      (deck? record).isSome := by
  rw [read.eq_def] at h
  split at h
  · cases h
  · next a ha =>
    refine ⟨a, ha, ?_⟩
    split at h
    · cases h
    · cases h
    · cases h
    · next r hr =>
      split at h
      · next hd =>
        cases h
        exact ⟨hr, hd⟩
      · cases h
    · cases h

theorem result_read_of_object {a : Assignment} (ha : Assignment.find? marker script = some a)
    (hr : Record.read a.payload = .ok (.object record)) (hd : (deck? record).isSome) :
    (read marker script).result = .ok (some (.structured record)) := by
  simp only [read, ha, hr, hd, ite_true]
  rfl

theorem result_read_of_lacks {a : Assignment} {expected : Record.Expected} {left : Nat}
    (ha : Assignment.find? marker script = some a)
    (hr : Record.read a.payload = .error (.lacks expected left)) :
    (read marker script).result = .ok (some (.raw script)) := by
  simp only [read, ha, hr]
  rfl

omit [Record.Nesting] in
theorem result_update_eq_ok {a : Assignment} (ha : Assignment.find? marker script = some a)
    {script' : Text} (h : (update marker f script (.structured record)).result = .ok script') :
    (Text.ofNat f.slideCount.natAbs).length ≤ Numeral.maxDigits ∧
      script' = { a with payload := Record.render (.object (updateRecord f record)) }.render
        marker := by
  simp only [update, ha] at h
  split at h
  · next hf =>
    cases h
    exact ⟨hf, rfl⟩
  · cases h

/-! ## The new script -/

variable {a : Assignment} {new : Members}

omit [Record.Nesting] in
theorem render_eq {inside : Text} (h : Record.render (.object new) = '\x7b' :: inside ++ ['\x7d']) :
    { a with payload := Record.render (.object new) }.render marker =
      a.before ++ Assignment.lead marker ++ '\x7b' :: (inside ++ ['\x7d'] ++ ';' :: a.after) := by
  simp only [Assignment.render, h, List.append_assoc, List.cons_append, List.nil_append]

/-- A record without the end of an assignment in its texts is found again as it was written. -/
theorem find?_render (ha : Assignment.find? marker script = some a)
    (hf : (Value.object new).Fits Record.Nesting.limit) (hi : (Value.object new).Integral)
    (h : ∀ s ∈ (Value.object new).texts, ¬Holds Assignment.close s) :
    Assignment.find? marker ({ a with payload := Record.render (.object new) }.render marker) =
      some { a with payload := Record.render (.object new) } := by
  obtain ⟨inside, hp⟩ := Record.exists_render_object new
  have hn : ¬Holds Assignment.close (inside ++ ['\x7d']) := by
    intro hc
    obtain ⟨x, y, hc⟩ := hc
    refine absurd ((Record.holds_renderAt_iff hf hi 0).1 ⟨'\x7b' :: x, y, ?_⟩) (by simpa using h)
    exact hp.trans (congrArg ('\x7b' :: ·) hc)
  have hc := Text.cut_pair_of_not_holds hn a.after
  rw [render_eq hp, List.append_assoc inside, hp]
  exact Assignment.find?_of_find? ha hc

/-- A record without the end of an assignment in its texts is read again from the script into which
it is written. -/
theorem result_read_render (ha : Assignment.find? marker script = some a)
    (hf : (Value.object new).Fits Record.Nesting.limit) (hi : (Value.object new).Integral)
    (hd : (deck? new).isSome) (h : ∀ s ∈ (Value.object new).texts, ¬Holds Assignment.close s) :
    (read marker ({ a with payload := Record.render (.object new) }.render marker)).result =
      .ok (some (.structured new)) :=
  result_read_of_object (find?_render ha hf hi h) (Record.read_render hf hi) hd

/-- A record with the end of an assignment in one of its texts is cut off there, and the script is
read as raw. -/
theorem result_read_render_of_holds (ha : Assignment.find? marker script = some a)
    (hf : (Value.object new).Fits Record.Nesting.limit) (hi : (Value.object new).Integral)
    (h : ∃ s ∈ (Value.object new).texts, Holds Assignment.close s) :
    (read marker ({ a with payload := Record.render (.object new) }.render marker)).result =
      .ok (some (.raw ({ a with payload := Record.render (.object new) }.render marker))) := by
  obtain ⟨inside, hp⟩ := Record.exists_render_object new
  have hh : Holds Assignment.close (inside ++ ['\x7d']) := by
    obtain ⟨x, y, hx⟩ := Text.holds_pair_iff.1 ((Record.holds_renderAt_iff hf hi 0).2 h)
    obtain ⟨z, -, hz⟩ :=
      Text.pair_of_append_of_not_mem (p := ['\x7b']) (by decide) (hp.symm.trans hx)
    exact Text.holds_pair_iff.2 ⟨z, y, hz⟩
  obtain ⟨x, z, hx, hc⟩ := Text.cut_append_of_holds hh (';' :: a.after)
  have ha := Assignment.find?_of_find? ha hc
  have hcut : Record.render (.object new) = ('\x7b' :: x) ++ '\x7d' :: ';' :: z := by
    rw [hp, List.cons_append, hx, List.append_assoc]
    rfl
  obtain ⟨left, hr⟩ := Record.read_of_cut hf hi hcut
  rw [render_eq hp]
  exact result_read_of_lacks ha hr

/-- Updating a structured configuration of which all numbers are integers: the first assignment to
the variable that is meant is replaced by the new record, and the new script is read as this record
if and only if none of its keys and strings holds the end of an assignment; if one does, the script
is read as raw. -/
theorem read_update (settings : Settings) (given : Option Text) {slug title script' : Text}
    {count : Int} (hi : (Value.object record).Integral)
    (hr : (settings.readConfig given script).result = .ok (some (.structured record)))
    (hu : (settings.updateConfig given slug title count script (.structured record)).result =
      .ok script') :
    let marker := settings.markerOr given
    ∃ before text after new,
      Assignment.IsFirst marker script before text after ∧
      Writes ⟨settings.deckPrefix ++ slug, title, count⟩ record new ∧
      script' = before ++
        ("var ".toList ++ marker ++ " = ".toList ++ Record.render (.object new) ++ [';']) ++ after ∧
      ((settings.readConfig given script').result = .ok (some (.structured new)) ↔
        ∀ s ∈ (Value.object new).texts, ¬Holds ['\x7d', ';'] s) ∧
      ((∃ s ∈ (Value.object new).texts, Holds ['\x7d', ';'] s) →
        (settings.readConfig given script').result = .ok (some (.raw script'))) := by
  intro marker
  obtain ⟨a, ha, hp, hd⟩ := result_read_eq_structured hr
  obtain ⟨deck, hd⟩ := Option.isSome_iff_exists.1 hd
  obtain ⟨hl, rfl⟩ := result_update_eq_ok ha hu
  have hf : (Value.object (updateRecord ⟨settings.deckDirname slug, title, count⟩ record)).Fits
      Record.Nesting.limit :=
    fits_updateRecord hd (Record.fits_of_read hp) hl
  have hi := integral_updateRecord hd hi ⟨settings.deckDirname slug, title, count⟩
  have hraw := result_read_render_of_holds ha hf hi
  refine ⟨a.before, _, a.after, _, Assignment.isFirst_of_find? ha, writes_updateRecord hd _, ?_,
    ?_, hraw⟩
  · simp only [Assignment.render, Assignment.lead, List.append_assoc]
    rfl
  · refine ⟨fun h s hs hc => ?_, result_read_render ha hf hi ?_⟩
    -- A script that is read as raw is not read as a record.
    · have := (hraw ⟨s, hs, hc⟩).symm.trans h
      cases this
    · rw [deck?_updateRecord hd]
      rfl

end Reading

/-- A deck without a title, next to other numbers; the new title holds a quote and the end of an
assignment. -/
theorem read_update_end_in_title :
    let settings := { Settings.defaults .here with configMarker := ['C'] }
    let record : Members :=
      [("n".toList, .array [.integer (-12), .null]),
        (deckKey, .object [("slug".toList, .string "a".toList)])]
    let script :=
      "x();\nvar C = \x7b\"n\": [-12, null], \"deck\":\x7b\"slug\":\"a\"\x7d\x7d;\ngo();".toList
    let script' :=
      ("x();\nvar C = \x7b\n  \"n\": [\n    -12,\n    null\n  ],\n  \"deck\": \x7b\n".toList
      ++ "    \"slug\": \"deck-b\",\n    \"title\": \"\\\"\x7d;\",\n    \"slide_count\": 3\n  \x7d\n\x7d;\ngo();".toList)
    let marker := settings.markerOr (some [])
    (Value.object record).Integral ∧
    (settings.readConfig (some []) script).result = .ok (some (.structured record)) ∧
    (settings.updateConfig (some []) ['b'] ['"', '\x7d', ';'] 3 script
      (.structured record)).result = .ok script' ∧
    ∃ before text after new,
      Assignment.IsFirst marker script before text after ∧
      Writes ⟨settings.deckPrefix ++ ['b'], ['"', '\x7d', ';'], 3⟩ record new ∧
      script' = before ++
        ("var ".toList ++ marker ++ " = ".toList ++ Record.render (.object new) ++ [';']) ++ after ∧
      ((settings.readConfig (some []) script').result = .ok (some (.structured new)) ↔
        ∀ s ∈ (Value.object new).texts, ¬Holds ['\x7d', ';'] s) ∧
      ((∃ s ∈ (Value.object new).texts, Holds ['\x7d', ';'] s) →
        (settings.readConfig (some []) script').result = .ok (some (.raw script'))) :=
  ⟨by decide, rfl, rfl, read_update _ _ (by decide) rfl rfl⟩

/-- A script assigns a variable without a name first and the configured one behind it. Where the
name is empty, the configured variable is read and written, so that what replaces the first
assignment is no record. -/
theorem read_update_nameless :
    let settings := Settings.defaults .here
    let script :=
      "var  = \x7b\"deck\":\x7b\x7d\x7d; var SLConfig = \x7b\"deck\":\x7b\x7d\x7d;".toList
    let record : Members := [(deckKey, .object [])]
    let script' :=
      ("var  = \x7b\"deck\":\x7b\x7d\x7d; var SLConfig = \x7b\n  \"deck\": \x7b\n".toList
      ++ "    \"slug\": \"deck-x\",\n    \"title\": \"T\",\n    \"slide_count\": 1\n  \x7d\n\x7d;".toList)
    (Value.object record).Integral ∧
      (settings.readConfig (some []) script).result = .ok (some (.structured record)) ∧
      (settings.updateConfig (some []) ['x'] ['T'] 1 script (.structured record)).result =
        .ok script' ∧
      ¬∃ before text after new, Assignment.IsFirst [] script before text after ∧
        Writes ⟨settings.deckPrefix ++ ['x'], ['T'], 1⟩ record new ∧
        script' = before ++
          ("var ".toList ++ [] ++ " = ".toList ++ Record.render (.object new) ++ [';']) ++
          after := by
  refine ⟨by decide, rfl, rfl, ?_⟩
  rintro ⟨before, text, after, new, hfirst, -, hscript⟩
  have hfind : Assignment.find? []
      "var  = \x7b\"deck\":\x7b\x7d\x7d; var SLConfig = \x7b\"deck\":\x7b\x7d\x7d;".toList =
      some ⟨[], "\x7b\"deck\":\x7b\x7d\x7d".toList,
        " var SLConfig = \x7b\"deck\":\x7b\x7d\x7d;".toList⟩ := rfl
  have hnameless := Assignment.isFirst_of_find? hfind
  obtain rfl : before = [] :=
    List.length_eq_zero_iff.1 (Nat.le_zero.1 (hfirst.leftmost hnameless.parts hnameless.assigns))
  -- A record that is written goes on with a new line or ends behind its brace.
  have hbehind := congrArg (fun s => (s.drop 8).head?) hscript
  rcases new with _ | ⟨⟨key, value⟩, new⟩ <;> cases hbehind

end SlideDeck.Embedded
