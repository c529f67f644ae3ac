import SlideDeck.Proofs.Record.Truncation

/-!
# What a value is written with

A value is written with its keys and strings, and with some characters around them: marks, digits,
blanks, and the letters of the constants. What holds of the written keys and strings and of all
texts of these characters, and of two texts together if it holds of both, holds of the written value
(`renderAt_of_texts`).
-/

namespace SlideDeck.Record

variable {level depth : Nat} {v : Value} {t : Text}

/-- The characters that a value is written with, outside of its keys and strings. -/
def isOutside (c : Char) : Bool := c.isDigit || "-nultrefas[]\x7b\x7d,: \n".toList.contains c

theorem not_mem_of_all_isOutside {c : Char} (hc : isOutside c = false)
    (h : t.all isOutside = true) : c ∉ t := fun hm => by
  rw [List.all_eq_true.1 h c hm] at hc
  cases hc

theorem all_isOutside_ofInt (n : Int) : (Text.ofInt n).all isOutside = true := by
  refine List.all_eq_true.2 fun c hc => ?_
  rw [isOutside, Bool.or_eq_true]
  by_cases hd : c.isDigit = true
  · exact .inl hd
  · by_cases hm : c = '-'
    · exact .inr (hm ▸ by decide)
    · exact absurd hc (not_mem_ofInt (by simpa using hd) hm n)

theorem all_isOutside_line (level : Nat) : (line level).all isOutside = true := by
  have hspace : isOutside ' ' = true := by decide
  simp only [line, List.all_cons, List.all_replicate, hspace]
  exact Bool.and_eq_true_iff.2 ⟨by decide, by simp⟩

section

variable {holds : Text → Prop} (happend : ∀ {a b}, holds a → holds b → holds (a ++ b))
  (houtside : ∀ {t}, t.all isOutside = true → holds t)

include happend houtside

theorem renderItems_of_texts {vs : List Value} (h : ∀ v ∈ vs, holds (renderAt level v)) :
    holds (renderItems level vs) := by
  induction vs with
  | nil => exact houtside rfl
  | cons v vs ih =>
    rw [renderItems_cons]
    have hline : holds (',' :: line level) :=
      houtside (by rw [List.all_cons, all_isOutside_line]; rfl)
    exact happend (happend hline (h v (List.mem_cons_self ..)))
      (ih fun w hw => h w (List.mem_cons_of_mem _ hw))

theorem renderMembers_of_texts {ms : Members}
    (h : ∀ m ∈ ms, holds (string m.1) ∧ holds (renderAt level m.2)) :
    holds (renderMembers level ms) := by
  induction ms with
  | nil => exact houtside rfl
  | cons m ms ih =>
    obtain ⟨k, v⟩ := m
    rw [renderMembers_cons]
    have hline : holds (',' :: line level) :=
      houtside (by rw [List.all_cons, all_isOutside_line]; rfl)
    have hcolon : holds [':', ' '] := houtside rfl
    obtain ⟨hkey, hv⟩ := h _ (List.mem_cons_self ..)
    exact happend (happend (happend (happend hline hkey) hcolon) hv)
      (ih fun w hw => h w (List.mem_cons_of_mem _ hw))

/-- What holds of the keys and strings of a value as they are written holds of the value as it is
written. -/
theorem renderAt_of_texts (hf : v.Fits depth) (hi : v.Integral)
    (h : ∀ s ∈ v.texts, holds (string s)) :
    holds (renderAt level v) := by
  have hline (level : Nat) : holds (line level) := houtside (all_isOutside_line level)
  induction depth, v, hf using Value.fits_induction generalizing level with
  | null depth => exact houtside (t := "null".toList) rfl
  | bool depth b =>
    cases b with
    | false => exact houtside (t := "false".toList) rfl
    | true => exact houtside (t := "true".toList) rfl
  | integer depth n => exact houtside (all_isOutside_ofInt n)
  | real depth x => exact absurd (hi _ (List.mem_singleton.2 rfl)) (by simp [Value.isReal])
  | string depth s => exact h s (List.mem_singleton.2 rfl)
  | array depth items hf ih =>
    have hitem : ∀ w ∈ items, holds (renderAt (level + 1) w) := fun w hw =>
      ih w hw (Value.integral_array.1 hi w hw) fun s hs => h s (Value.mem_texts_array.2 ⟨w, hw, hs⟩)
    cases items with
    | nil => exact houtside (t := ['[', ']']) rfl
    | cons v vs =>
      rw [renderAt_array]
      have hopen : holds ('[' :: line (level + 1)) :=
        houtside (by rw [List.all_cons, all_isOutside_line]; rfl)
      have hitems :=
        renderItems_of_texts happend houtside fun w hw => hitem w (List.mem_cons_of_mem _ hw)
      exact happend
        (happend (happend (happend hopen (hitem v (List.mem_cons_self ..))) hitems) (hline level))
        (houtside rfl)
  | object depth members hf ih =>
    have hmember : ∀ m ∈ members, holds (string m.1) ∧ holds (renderAt (level + 1) m.2) := by
      intro m hm
      refine ⟨h _ (Value.mem_texts_object.2 ⟨m, hm, .inl rfl⟩), ?_⟩
      exact ih m hm (Value.integral_object.1 hi m hm) fun s hs =>
        h s (Value.mem_texts_object.2 ⟨m, hm, .inr hs⟩)
    rcases members with _ | ⟨⟨k, v⟩, ms⟩
    · exact houtside (t := ['\x7b', '\x7d']) rfl
    · rw [renderAt_object]
      have hopen : holds ('\x7b' :: line (level + 1)) :=
        houtside (by rw [List.all_cons, all_isOutside_line]; rfl)
      have hcolon : holds [':', ' '] := houtside rfl
      obtain ⟨hkey, hv⟩ := hmember _ (List.mem_cons_self ..)
      have hmembers :=
        renderMembers_of_texts happend houtside fun m hm => hmember m (List.mem_cons_of_mem _ hm)
      exact happend
        (happend (happend (happend (happend (happend hopen hkey) hcolon) hv) hmembers)
          (hline level))
        (houtside rfl)

end

theorem return_not_mem_escapeChar (c : Char) : '\r' ∉ escapeChar c := by
  intro h
  obtain ⟨-, rfl, hlow⟩ := eq_of_mem_escapeChar h (by decide)
  exact hlow (by simp)

theorem return_not_mem_string (s : Text) : '\r' ∉ string s := by
  have hinside : '\r' ∉ s.flatMap escapeChar := fun h => by
    obtain ⟨c, -, hc⟩ := List.mem_flatMap.1 h
    exact return_not_mem_escapeChar c hc
  simp [string, hinside]

/-- No carriage return stands in a written value. -/
theorem return_not_mem_renderAt (hf : v.Fits depth) (hi : v.Integral) :
    '\r' ∉ renderAt level v := by
  let holds (t : Text) : Prop := '\r' ∉ t
  have happend {a b : Text} (ha : holds a) (hb : holds b) :
      holds (a ++ b) := List.not_mem_append ha hb
  have houtside {t : Text} (h : t.all isOutside = true) : holds t := not_mem_of_all_isOutside rfl h
  exact renderAt_of_texts happend houtside hf hi fun s _ => return_not_mem_string s

end SlideDeck.Record
