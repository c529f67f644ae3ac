import SlideDeck.Config.Embedded
import SlideDeck.Proofs.Config.Assignment
import SlideDeck.Proofs.Record.Limits

/-!
# What is read from a script

A script without an assignment carries no configuration. Of a script with one, either the record is
read or the script is kept as it is (`Embedded.Reads`), even if the payload is no record at all.
There is one exception: a payload that exceeds the limits of the reader, in nesting or in the digits
of an integer, is not kept, and reading the configuration fails
(`Embedded.read_fails_iff_overruns`).
-/

namespace SlideDeck.Embedded

open Assignment (IsAssigned)
open Record (Members)

variable {marker script : Text} {a : Assignment}

section Reading

variable [Record.Nesting]

/-- Nothing is configured by a script without an assignment, and only by such a script. -/
theorem result_read_eq_none_iff : (read marker script).result = .ok none ↔
    ¬IsAssigned marker script := by
  rw [← Assignment.isSome_find?_iff, Option.isSome_iff_ne_none, not_not, read.eq_def]
  split
  · next h => exact ⟨fun _ => h, fun _ => rfl⟩
  · next a ha =>
    refine ⟨fun h => ?_, fun h => by cases ha.symm.trans h⟩
    split at h
    · cases h
    · cases h
    · cases h
    · split at h <;> cases h
    · cases h

/-- What a payload is read as: an object with a deck's own record, or nothing that can be used. -/
inductive ReadsPayload (script payload : Text) : Embedded → Prop
  | structured {record deck : Members} (hr : Record.read payload = .ok (.object record))
      (hd : deck? record = some deck) :
    ReadsPayload script payload (.structured record)
  | raw (h : ∀ record deck, Record.read payload = .ok (.object record) → deck? record ≠ some deck) :
    ReadsPayload script payload (.raw script)

/-- What a script is read as: its record, the script itself, or nothing if it assigns nothing. -/
inductive Reads (marker script : Text) : Option Embedded → Prop
  | nothing (h : ¬IsAssigned marker script) : Reads marker script none
  | assigned {a : Assignment} {e : Embedded} (ha : Assignment.find? marker script = some a)
    (he : ReadsPayload script a.payload e) : Reads marker script (some e)

theorem result_read_of_find? (ha : Assignment.find? marker script = some a) :
    (Record.Exceeds (Record.read a.payload) ∧ ∃ failure, (read marker script).result =
      .error failure) ∨
      (¬Record.Exceeds (Record.read a.payload) ∧
        ∃ e, (read marker script).result = .ok (some e) ∧ ReadsPayload script a.payload e) := by
  rw [read.eq_def, ha]
  dsimp only
  cases hr : Record.read a.payload with
  | error fault =>
    cases fault with
    | lacks expected left =>
        exact .inr ⟨Record.not_exceeds_lacks _ _, _, rfl,
          .raw fun _ _ h => by cases hr.symm.trans h⟩
    | numeralTooLong digits => exact .inl ⟨⟨_, rfl, trivial⟩, _, rfl⟩
    | nestedTooDeep => exact .inl ⟨⟨_, rfl, trivial⟩, _, rfl⟩
  | ok v =>
    refine .inr ⟨Record.not_exceeds_ok v, ?_⟩
    cases v with
    | object record =>
      dsimp only
      split
      · next hd =>
        obtain ⟨deck, hd⟩ := Option.isSome_iff_exists.1 hd
        exact ⟨_, rfl, .structured hr hd⟩
      · next hd =>
        refine ⟨_, rfl, .raw fun record' deck h hd' => hd ?_⟩
        cases hr.symm.trans h
        exact Option.isSome_iff_exists.2 ⟨deck, hd'⟩
    | _ => exact ⟨_, rfl, .raw fun _ _ h => by cases hr.symm.trans h⟩

/-- Reading a configuration fails if and only if a payload exceeds the limits of the reader.
Whatever else the script is, something is read from it: nothing only without an assignment, the
record of a payload that has one for the deck, and otherwise the script as it is. -/
theorem read_fails_iff_overruns (s : Settings) (given : Option Text) (script : Text) :
    ((∃ failure, (s.readConfig given script).result = .error failure) ↔
      ∃ a, Assignment.find? (s.markerOr given) script = some a ∧ Record.Overruns a.payload) ∧
    ((∀ a, Assignment.find? (s.markerOr given) script = some a → ¬Record.Overruns a.payload) →
      ∃ e, (s.readConfig given script).result = .ok e ∧ Reads (s.markerOr given) script e) := by
  rw [Settings.readConfig]
  generalize s.markerOr given = marker
  simp only [← Record.exceeds_read_iff]
  cases ha : Assignment.find? marker script with
  | none =>
    have hn : ¬IsAssigned marker script := by rw [← Assignment.isSome_find?_iff, ha]; decide
    have hr := result_read_eq_none_iff.2 hn
    refine ⟨⟨fun ⟨_, h⟩ => ?_, fun ⟨_, h, _⟩ => ?_⟩, fun _ => ⟨none, hr, .nothing hn⟩⟩
    · cases hr.symm.trans h
    · cases h
  | some a =>
    rcases result_read_of_find? ha with ⟨hx, hf⟩ | ⟨hx, e, hr, he⟩
    · exact ⟨⟨fun _ => ⟨a, rfl, hx⟩, fun _ => hf⟩, fun h => absurd hx (h a rfl)⟩
    · refine ⟨⟨fun ⟨_, h⟩ => ?_, fun ⟨b, h, hb⟩ => ?_⟩, fun _ => ⟨some e, hr, .assigned ha he⟩⟩
      · cases hr.symm.trans h
      · cases h
        exact absurd hb hx

end Reading

/-- The only assignment of a script that ends with it. -/
theorem find?_assignment (marker : Text) {inside : Text} (h : ';' ∉ inside) :
    Assignment.find? marker (Assignment.lead marker ++ '\x7b' :: inside ++ Assignment.close) =
      some ⟨[], '\x7b' :: inside ++ ['\x7d'], []⟩ := by
  refine Assignment.find?_eq_some_iff.2 ⟨inside ++ Assignment.close, inside, ?_, ?_, rfl⟩
  · have : Text.cut (Assignment.lead marker ++ ['\x7b'])
        (Assignment.lead marker ++ ['\x7b'] ++ (inside ++ Assignment.close)) =
        some ([], inside ++ Assignment.close) := Text.cut_self _
    simpa only [List.append_assoc, List.cons_append, List.nil_append] using this
  · refine Text.cut_pair_of_not_holds (fun hh => ?_) []
    obtain ⟨x, y, hxy⟩ := Text.holds_pair_iff.1 hh
    have hmem : ';' ∈ inside ++ ['\x7d'] := by rw [hxy]; simp
    simp [h] at hmem

/-- An integer with one digit too many, in a payload that lacks nothing. -/
theorem read_fails_at_long_numeral :
    let script := "var SLConfig = \x7b\"n\":".toList ++ List.replicate 4301 '1' ++ "\x7d;".toList
    IsAssigned "SLConfig".toList script ∧
      ∃ failure, ((Settings.defaults .here).readConfig none script).result = .error failure := by
  intro script
  have hw : Record.IsTooLong (List.replicate 4301 '1') ['\x7d'] :=
    ⟨fun c hc => List.eq_of_mem_replicate hc ▸ rfl, by rw [List.length_replicate]; decide, by
      decide, Text.stops_cons rfl [], rfl, rfl⟩
  have hplain : ';' ∉ "\"n\":".toList ++ List.replicate 4301 '1' := fun h => by
    rcases List.mem_append.1 h with h | h
    · exact absurd h (by decide)
    · exact absurd (List.eq_of_mem_replicate h) (by decide)
  have ha := find?_assignment "SLConfig".toList hplain
  refine ⟨Assignment.isSome_find?_iff.1 (Option.isSome_iff_exists.2 ⟨_, ha⟩), ?_⟩
  rcases result_read_of_find? ha with ⟨-, hf⟩ | ⟨hx, -⟩
  · exact hf
  · exact absurd (Record.exceeds_read_iff.2 (Record.overruns_of_isTooLong hw)) hx

end SlideDeck.Embedded
