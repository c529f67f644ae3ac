import SlideDeck.Proofs.Config.Fallback
import SlideDeck.Proofs.Config.Update
import SlideDeck.Proofs.Record.Tag

/-!
# Updates that are made again

A record that holds some fields already is not changed by writing them
(`updateRecord_updateRecord`). A script with a new record is read again and can be updated again if
no key and no string of the record holds the end of an assignment (`result_read_iff_of_update`,
`result_update_of_update`). If none of them holds a tag of some kind, such as the end of a script,
then the script holds no more such tags than before (`search_of_update`).
-/

namespace SlideDeck.Embedded

open Record (Members Value)
open Text (Holds)

variable {marker script script' : Text} {f : DeckFields} {record : Members}

/-! ## The record -/

theorem setFields_setFields (f : DeckFields) (deck : Members) :
    setFields f (setFields f deck) = setFields f deck := by
  have hs : (setFields f deck).get? "slug".toList = some (.string f.slug) := by
    rw [setFields, Members.get?_set, if_neg (by decide), Members.get?_set, if_neg (by decide),
      Members.get?_set, if_pos rfl]
  have ht : (setFields f deck).get? "title".toList = some (.string f.title) := by
    rw [setFields, Members.get?_set, if_neg (by decide), Members.get?_set, if_pos rfl]
  have hc : (setFields f deck).get? "slide_count".toList = some (.integer f.slideCount) := by
    rw [setFields, Members.get?_set, if_pos rfl]
  rw [setFields.eq_1 f (setFields f deck), Members.set_of_get? hs, Members.set_of_get? ht,
    Members.set_of_get? hc]

/-- Fields that are written already are written where they are. -/
theorem updateRecord_updateRecord (f : DeckFields) (record : Members) :
    updateRecord f (updateRecord f record) = updateRecord f record := by
  cases hd : deck? record with
  | none =>
    have hr : updateRecord f record = record := by rw [updateRecord, hd]
    rw [hr, hr]
  | some deck =>
    have hnew := deck?_updateRecord hd f
    rw [updateRecord_eq hnew, setFields_setFields, Members.set_of_get? (deck?_eq_some_iff.1 hnew)]

/-! ## The script -/

variable [Record.Nesting]

/-- What an update of a structured configuration does. -/
theorem exists_of_update (hr : (read marker script).result = .ok (some (.structured record)))
    (hu : (update marker f script (.structured record)).result = .ok script') :
    ∃ a deck, Assignment.find? marker script = some a ∧ deck? record = some deck ∧
      (Value.object (updateRecord f record)).Fits Record.Nesting.limit ∧
      (Text.ofNat f.slideCount.natAbs).length ≤ Numeral.maxDigits ∧
      script' = { a with payload := Record.render (.object (updateRecord f record)) }.render
        marker := by
  obtain ⟨a, ha, hp, hd⟩ := result_read_eq_structured hr
  obtain ⟨deck, hd⟩ := Option.isSome_iff_exists.1 hd
  obtain ⟨hl, hs⟩ := result_update_eq_ok ha hu
  exact ⟨a, deck, ha, hd, fits_updateRecord hd (Record.fits_of_read hp) hl, hl, hs⟩

/-- An updated script mentions the variable, and is not of blanks only. -/
theorem holds_of_update (hr : (read marker script).result = .ok (some (.structured record)))
    (hu : (update marker f script (.structured record)).result = .ok script') :
    Text.holds marker script' = true ∧ 'v' ∈ script' := by
  obtain ⟨a, -, -, -, -, -, rfl⟩ := exists_of_update hr hu
  exact Assignment.holds_render _

theorem result_read_iff_of_update (hi : (Value.object record).Integral)
    (hr : (read marker script).result = .ok (some (.structured record)))
    (hu : (update marker f script (.structured record)).result = .ok script') :
    (read marker script').result = .ok (some (.structured (updateRecord f record))) ↔
      ∀ s ∈ (Value.object (updateRecord f record)).texts, ¬Holds Assignment.close s := by
  obtain ⟨a, deck, ha, hd, hf, -, rfl⟩ := exists_of_update hr hu
  have hi := integral_updateRecord hd hi f
  refine ⟨fun h s hs hc => ?_, result_read_render ha hf hi (by rw [deck?_updateRecord hd]; rfl)⟩
  cases (result_read_render_of_holds ha hf hi ⟨s, hs, hc⟩).symm.trans h

/-- What an update has written, it writes again. -/
theorem result_update_of_update (hi : (Value.object record).Integral)
    (hr : (read marker script).result = .ok (some (.structured record)))
    (hu : (update marker f script (.structured record)).result = .ok script')
    (h : ∀ s ∈ (Value.object (updateRecord f record)).texts, ¬Holds Assignment.close s) :
    (update marker f script' (.structured (updateRecord f record))).result = .ok script' := by
  obtain ⟨a, deck, ha, hd, hf, hl, rfl⟩ := exists_of_update hr hu
  have hfind := find?_render ha hf (integral_updateRecord hd hi f) h
  simp only [update, hl, ite_true, hfind, updateRecord_updateRecord]
  rfl

/-! ## Scripts that are rewritten again -/

/-- A script with the fields of a deck written into its configuration, if it has one. -/
def rewrite (marker : Text) (f : DeckFields) (script : Text) : Attempt Failure Text := do
  match ← read marker script with
  | none => return script
  | some config => config.update marker f script

theorem result_rewrite_eq_ok_iff : (rewrite marker f script).result = .ok script' ↔
    ∃ config, (read marker script).result = .ok config ∧ (config = none ∧ script' = script ∨
      ∃ c, config = some c ∧ (c.update marker f script).result = .ok script') := by
  rw [rewrite, Attempt.result_bind_eq_ok]
  refine exists_congr fun config => and_congr_right fun _ => ?_
  cases config with
  | none =>
    refine ⟨fun h => .inl ⟨rfl, (Except.ok.inj h).symm⟩, ?_⟩
    rintro (⟨-, rfl⟩ | ⟨_, h, -⟩)
    · rfl
    · cases h
  | some config =>
    refine ⟨fun h => .inr ⟨config, rfl, h⟩, ?_⟩
    rintro (⟨h, -⟩ | ⟨_, h, hu⟩)
    · cases h
    · cases h
      exact hu

/-- A script is read as raw as it is. -/
theorem eq_of_read_raw {own : Text} (h : (read marker script).result = .ok (some (.raw own))) :
    own = script := by
  rw [read.eq_def] at h
  split at h
  · cases h
  · split at h
    · cases h
      rfl
    · cases h
    · cases h
    · split at h
      · cases h
      · cases h
        rfl
    · cases h
      rfl

/-- A script with a new record is left as it is if and only if no text of the record holds the end
of an assignment, or if the script is read as raw and reads as it would be written. -/
theorem rewrite_update_iff (hi : (Value.object record).Integral)
    (hr : (read marker script).result = .ok (some (.structured record)))
    (hu : (update marker f script (.structured record)).result = .ok script') :
    (rewrite marker f script').result = .ok script' ↔
      (∀ s ∈ (Value.object (updateRecord f record)).texts, ¬Holds Assignment.close s) ∨
        ∃ own, (read marker script').result = .ok (some (.raw own)) ∧ SlugIsWritten f own ∧
          TitleIsWritten f own := by
  have hread := result_read_iff_of_update hi hr hu
  rw [result_rewrite_eq_ok_iff]
  constructor
  · rintro ⟨config, hc, hcases⟩
    refine or_iff_not_imp_left.2 fun hclose => ?_
    obtain ⟨a, deck, ha, hd, hf, -, rfl⟩ := exists_of_update hr hu
    have hraw := result_read_render_of_holds ha hf (integral_updateRecord hd hi f)
        (by simpa using hclose)
    cases hc.symm.trans hraw
    rcases hcases with ⟨h, -⟩ | ⟨_, h, hagain⟩
    · cases h
    · cases h
      exact ⟨_, hraw, (updateRaw_eq_self_iff f _).1 (Except.ok.inj hagain)⟩
  · rintro (hclose | ⟨own, hraw, hwritten⟩)
    · exact ⟨_, hread.2 hclose, .inr ⟨_, rfl, result_update_of_update hi hr hu hclose⟩⟩
    · obtain rfl := eq_of_read_raw hraw
      exact ⟨_, hraw, .inr ⟨_, rfl, congrArg Except.ok ((updateRaw_eq_self_iff f _).2 hwritten)⟩⟩

/-! ## Tags in the script -/

omit [Record.Nesting] in
/-- Braces cut a script into what stands before its record, the record, and what stands behind
it. -/
theorem exists_braces {a : Assignment} (ha : Assignment.find? marker script = some a) :
    ∃ inside, script = (a.before ++ Assignment.lead marker) ++ '\x7b' ::
      (inside ++ '\x7d' :: (';' :: a.after)) := by
  obtain ⟨rest, inside, -, -, hp⟩ := Assignment.find?_eq_some_iff.1 ha
  refine ⟨inside, ?_⟩
  rw [Assignment.find?_eq_some ha, Assignment.render, hp]
  simp only [List.append_assoc, List.cons_append, List.nil_append]

/-- An updated script holds no tag of a kind if it held none before, and if no key and no string of
the new record does. -/
theorem search_of_update {recognize : Text → Option Text} (hk : Record.IsTagKind recognize)
    (hi : (Value.object record).Integral)
    (hr : (read marker script).result = .ok (some (.structured record)))
    (hu : (update marker f script (.structured record)).result = .ok script')
    (hs : Text.search recognize script = none)
    (h : ∀ s ∈ (Value.object (updateRecord f record)).texts,
      Text.search recognize (Record.string s) = none) :
    Text.search recognize script' = none := by
  obtain ⟨a, deck, ha, hd, hf, -, rfl⟩ := exists_of_update hr hu
  obtain ⟨inside, hscript⟩ := exists_braces ha
  rw [hscript, hk.search_append_cons (by decide)] at hs
  obtain ⟨hbefore, hs⟩ := hs
  have hinside := (hk.search_append_of_not_mem (t := ['\x7b']) (by decide) _).1 hs
  have hclose := ((hk.search_append_cons (by decide) _ _).1 hinside).2
  have hbehind := (hk.search_append_of_not_mem (t := ['\x7d']) (by decide) _).1 hclose
  obtain ⟨new, hnew⟩ := Record.exists_render_object (updateRecord f record)
  rw [render_eq hnew, hk.search_append_cons (by decide)]
  refine ⟨hbefore, ?_⟩
  have hopen : Record.Open recognize (Record.render (.object (updateRecord f record))) :=
    Record.Open.renderAt hk hf (integral_updateRecord hd hi f) h
  have := hopen _ hbehind
  rwa [hnew] at this

/-- An updated script that is stripped mentions the variable, if no link tag started in the script
before. -/
theorem holds_strip_of_update (hr : (read marker script).result = .ok (some (.structured record)))
    (hu : (update marker f script (.structured record)).result = .ok script')
    (hs : Markup.Stylesheet.IsLinkless script) (keep : Text) :
    Text.holds marker (Markup.Stylesheet.strip keep script') = true ∧
      'v' ∈ Markup.Stylesheet.strip keep script' := by
  obtain ⟨a, -, ha, -, -, -, rfl⟩ := exists_of_update hr hu
  obtain ⟨inside, hscript⟩ := exists_braces ha
  obtain ⟨new, hnew⟩ := Record.exists_render_object (updateRecord f record)
  -- What stands before the record stays, whatever is taken out of the rest.
  have hbefore : Markup.Stylesheet.IsLinkless (a.before ++ Assignment.lead marker) := by
    rw [hscript] at hs
    exact ((Record.isTagKind_skipOpening.search_append_cons (by decide) _ _).1 hs).1
  have hletter : ∀ c ∈ "link".toList, Text.sameLetter c '\x7b' = false :=
    Markup.Stylesheet.sameLetter_of_all (by decide)
  rw [render_eq hnew,
    Markup.Stylesheet.strip_append (Markup.Stylesheet.apart_of_isLinkless hbefore hletter _),
    Markup.Stylesheet.strip_of_isLinkless hbefore]
  generalize Markup.Stylesheet.strip keep _ = rest
  refine ⟨Text.holds_iff.2 ⟨a.before ++ "var ".toList, " = ".toList ++ rest, ?_⟩, ?_⟩
  · simp only [Assignment.lead, List.append_assoc]
  · simp [Assignment.lead]

end SlideDeck.Embedded
