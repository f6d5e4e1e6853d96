/-!
# Text as a list of characters

Reading works on lists of characters: what is left of a text is a list, and a position is the
number of UTF-8 bytes before it.

* blanks: `isBlank` (the Unicode property `White_Space`), `isInlineBlank`, `trim`, `trimStart`,
  `trimEnd`;
* bytes: `utf8Length`, `splitBytes`, with their laws for parts of a text;
* searching: `after?` strips a literal from the front, `cut?` cuts at its first occurrence.
-/

namespace Mustache.Text

/-! ## Blanks -/

/-- The characters with the Unicode property `White_Space`. -/
def isBlank (c : Char) : Bool :=
  let n := c.toNat
  (9 ≤ n && n ≤ 13) || n == 0x20 || n == 0x85 || n == 0xA0 || n == 0x1680 ||
    (0x2000 ≤ n && n ≤ 0x200A) || n == 0x2028 || n == 0x2029 || n == 0x202F || n == 0x205F ||
    n == 0x3000

/-- The blanks that may surround a tag that stands alone on its line. -/
def isInlineBlank (c : Char) : Bool := c == ' ' || c == '\t'

/-- The text without the blanks before it. -/
def trimStart (cs : List Char) : List Char := cs.dropWhile isBlank

/-- The text without the characters of a class at its end. -/
def trimEndWhile (p : Char → Bool) (cs : List Char) : List Char :=
  (cs.reverse.dropWhile p).reverse

/-- The text without the blanks after it. -/
def trimEnd (cs : List Char) : List Char := trimEndWhile isBlank cs

/-- The text without the blanks around it. -/
def trim (cs : List Char) : List Char := trimEnd (trimStart cs)

/-! ## Bytes -/

/-- The number of bytes of the text in UTF-8. -/
def utf8Length : List Char → Nat
  | [] => 0
  | c :: cs => c.utf8Size + utf8Length cs

/-- The longest part at the front that fits in `n` bytes, and the rest. -/
def splitBytes : Nat → List Char → List Char × List Char
  | _, [] => ([], [])
  | n, c :: cs =>
    if c.utf8Size ≤ n then
      let (front, rest) := splitBytes (n - c.utf8Size) cs
      (c :: front, rest)
    else ([], c :: cs)

theorem utf8Length_append (a b : List Char) :
    utf8Length (a ++ b) = utf8Length a + utf8Length b := by
  induction a with
  | nil => simp [utf8Length]
  | cons c a ih => simp only [List.cons_append, utf8Length, ih]; omega

theorem utf8Length_eq_zero {cs : List Char} : utf8Length cs = 0 ↔ cs = [] := by
  cases cs with
  | nil => exact iff_of_true rfl rfl
  | cons c cs =>
    have hpos : 0 < utf8Length (c :: cs) := Nat.add_pos_left c.utf8Size_pos _
    exact iff_of_false (Nat.ne_of_gt hpos) (List.cons_ne_nil c cs)

theorem splitBytes_zero (text : List Char) : splitBytes 0 text = ([], text) := by
  cases text with
  | nil => rfl
  | cons c text => rw [splitBytes, if_neg (Nat.not_le.mpr c.utf8Size_pos)]

theorem splitBytes_append (front rest : List Char) (n : Nat) :
    splitBytes (utf8Length front + n) (front ++ rest) =
      (front ++ (splitBytes n rest).1, (splitBytes n rest).2) := by
  induction front with
  | nil => rw [utf8Length, Nat.zero_add]; rfl
  | cons c front ih =>
    have hle : c.utf8Size ≤ utf8Length (c :: front) + n := by
      rw [utf8Length]
      omega
    have hsub : utf8Length (c :: front) + n - c.utf8Size = utf8Length front + n := by
      rw [utf8Length]
      omega
    rw [List.cons_append, splitBytes, if_pos hle, hsub, ih]
    rfl

theorem splitBytes_join (n : Nat) (text : List Char) :
    (splitBytes n text).1 ++ (splitBytes n text).2 = text := by
  induction text generalizing n with
  | nil => rfl
  | cons c text ih =>
    rw [splitBytes]
    split
    · exact congrArg (c :: ·) (ih _)
    · rfl

/-! ## Searching -/

/-- What follows the literal `mark`, if the text starts with it. -/
def after? : (mark text : List Char) → Option (List Char)
  | [], text => some text
  | _ :: _, [] => none
  | m :: mark, c :: text => if m = c then after? mark text else none

/-- The text before and after the first occurrence of `mark`. -/
def cut? (mark : List Char) : (text : List Char) → Option (List Char × List Char)
  | [] => (after? mark []).map fun rest => ([], rest)
  | c :: text =>
    match after? mark (c :: text) with
    | some rest => some ([], rest)
    | none => (cut? mark text).map fun (front, rest) => (c :: front, rest)

/-- The pieces of a text between the occurrences of a character. -/
def pieces (mark : Char) : List Char → List (List Char)
  | [] => [[]]
  | c :: text =>
    if c = mark then [] :: pieces mark text
    else
      match pieces mark text with
      | [] => [[c]]
      | piece :: rest => (c :: piece) :: rest

/-- The last line of a text: what follows its last line feed. -/
def lastLine (cs : List Char) : List Char := (cs.reverse.takeWhile (· != '\n')).reverse

/-- Whether the text ends with a line feed. -/
def endsLine (s : String) : Bool := s.toList.getLast? == some '\n'

end Mustache.Text
