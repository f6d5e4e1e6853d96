import Mustache.Text.Basic

/-!
# Slices of a text

Offsets count the bytes of a text, but a text can only be cut between characters. A slice between
two offsets exists if both lie between characters, and the first is not after the second.

* `splitAt?`: the two parts of a text at an offset; `slice?`: the part between two offsets;
* `splitAt?_eq_some`, **`slice?_eq_some`**: a slice exists exactly where the text can be cut, and is
  what lies there.
-/

namespace Mustache.Text

/-- The text before and after an offset, if that lies between characters. -/
def splitAt? (n : Nat) (text : List Char) : Option (List Char × List Char) :=
  if utf8Length (splitBytes n text).1 = n then some (splitBytes n text) else none

/-- The text between two offsets, if both lie between characters and in this order. -/
def slice? (start stop : Nat) (text : List Char) : Option (List Char) := do
  let (front, _) ← splitAt? stop text
  let (_, part) ← splitAt? start front
  return part

variable {n start stop : Nat} {text front rest part : List Char}

theorem splitAt?_eq_some :
    splitAt? n text = some (front, rest) ↔ text = front ++ rest ∧ utf8Length front = n := by
  constructor
  · intro h
    obtain ⟨hn, h⟩ := Option.ite_none_right_eq_some.mp h
    have hjoin := splitBytes_join n text
    rw [Option.some.inj h] at hn hjoin
    exact ⟨hjoin.symm, hn⟩
  · rintro ⟨rfl, rfl⟩
    have hsplit := splitBytes_append front rest 0
    rw [Nat.add_zero, splitBytes_zero, List.append_nil] at hsplit
    rw [splitAt?, hsplit, if_pos rfl]

theorem slice?_eq_some :
    slice? start stop text = some part ↔
      ∃ front back, text = front ++ (part ++ back) ∧ utf8Length front = start ∧
        utf8Length (front ++ part) = stop := by
  simp only [slice?, Option.bind_eq_bind, Option.bind_eq_some_iff, Prod.exists,
    splitAt?_eq_some, Option.pure_def, Option.some.injEq]
  constructor
  · rintro ⟨_, back, ⟨rfl, hstop⟩, front, _, ⟨rfl, hstart⟩, rfl⟩
    exact ⟨front, back, List.append_assoc _ _ _, hstart, hstop⟩
  · rintro ⟨front, back, rfl, hstart, hstop⟩
    exact ⟨_, back, ⟨(List.append_assoc _ _ _).symm, hstop⟩, front, part, ⟨rfl, hstart⟩, rfl⟩

/-- A slice is as long as its offsets are apart. -/
theorem utf8Length_slice? (h : slice? start stop text = some part) :
    start + utf8Length part = stop := by
  obtain ⟨front, back, -, rfl, rfl⟩ := slice?_eq_some.mp h
  exact (utf8Length_append front part).symm

end Mustache.Text
