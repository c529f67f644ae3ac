import SlideDeck.Text.Basic

/-!
# Assignments

A script may assign an object to a variable: `var NAME = `, the object from its opening brace on,
and a semicolon right behind a brace. `Assignment.find?` cuts a script around the first such
assignment; the object ends at the first brace with a semicolon behind it, wherever that stands.

`find?_eq_some` says that the parts make up the script again.
-/

namespace SlideDeck

/-- A script cut around an assignment: the payload is the object with its braces. -/
structure Assignment where
  before : Text
  payload : Text
  after : Text
  deriving DecidableEq, Repr

namespace Assignment

/-- What an assignment starts with, up to its payload. -/
def lead (marker : Text) : Text := "var ".toList ++ marker ++ " = ".toList

/-- The end of an assignment. -/
def close : Text := ['\x7d', ';']

/-- Cuts a script around the first assignment to a variable. -/
def find? (marker script : Text) : Option Assignment := do
  let (before, rest) ← Text.cut (lead marker ++ ['\x7b']) script
  let (inside, after) ← Text.cut close rest
  return ⟨before, '\x7b' :: inside ++ ['\x7d'], after⟩

/-- A script with an object assigned to a variable. -/
def render (marker : Text) (a : Assignment) : Text :=
  a.before ++ lead marker ++ a.payload ++ [';'] ++ a.after

theorem find?_eq_some {marker script : Text} {a : Assignment} (h : find? marker script = some a) :
    script = a.render marker := by
  simp only [find?, Option.bind_eq_bind, Option.bind_eq_some_iff, Option.pure_def,
    Option.some.injEq, Prod.exists] at h
  obtain ⟨before, rest, h₁, inside, after, h₂, rfl⟩ := h
  have e₁ := Text.cut_eq_some h₁
  have e₂ := Text.cut_eq_some h₂
  subst e₂
  simp [e₁, render, close]

end Assignment

end SlideDeck
