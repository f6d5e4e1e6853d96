import Mathlib.Order.Bounds.Basic
import Mathlib.Tactic.WLOG
import Mustache.Proofs.Fault

/-!
# Lines and columns

A fault is reported at the last boundary of a character that is not above its offset, by the line
and the column of that boundary and with the text of the line. Line and column say as much as the
offset: no two boundaries share them.

* `Text.utf8Length_toList`, `Text.isValid_iff`: bytes and boundaries of a text;
* **`Text.isGreatest_splitBytes`**: a text is split at the last boundary;
* `Text.trimEndWhile_spec`: what is trimmed at the end of a text;
* `Text.Spot`: a boundary with the line where it lies; `Text.eq_of_lastLine`: only one boundary has
  so many line feeds and so much of a line before it;
* **`ParseError.locate_spec`**.
-/

namespace Mustache

namespace Text

/-! ## Boundaries -/

theorem utf8Length_toList (s : String) : utf8Length s.toList = s.utf8ByteSize := by
  have hlist : ∀ cs, utf8Length cs = (String.ofList cs).utf8ByteSize := by
    intro cs
    induction cs with
    | nil => rfl
    | cons c cs ih =>
      rw [utf8Length, ih, String.ofList_cons, String.utf8ByteSize_append,
        String.utf8ByteSize_singleton]
  rw [hlist, String.ofList_toList]

/-- The boundaries of a text are the ends of what it starts with. -/
theorem isValid_iff {s : String} {n : Nat} :
    (String.Pos.Raw.mk n).IsValid s ↔
      ∃ front rest, s.toList = front ++ rest ∧ n = utf8Length front := by
  rw [String.Pos.Raw.isValid_iff_exists_append]
  constructor
  · rintro ⟨front, rest, rfl, h⟩
    refine ⟨front.toList, rest.toList, String.toList_append, ?_⟩
    rw [utf8Length_toList]
    exact congrArg String.Pos.Raw.byteIdx h
  · rintro ⟨front, rest, h, rfl⟩
    refine ⟨String.ofList front, String.ofList rest, ?_, ?_⟩
    · rw [← String.ofList_append, ← h, String.ofList_toList]
    · rw [String.rawEndPos, ← utf8Length_toList, String.toList_ofList]

theorem splitBytes_prefix (n : Nat) (text : List Char) : (splitBytes n text).1 <+: text :=
  ⟨_, splitBytes_join n text⟩

theorem utf8Length_splitBytes_le (n : Nat) (text : List Char) :
    utf8Length (splitBytes n text).1 ≤ n := by
  induction text generalizing n with
  | nil => exact Nat.zero_le n
  | cons c text ih =>
    rw [splitBytes]
    split_ifs with h
    · have hle := ih (n - c.utf8Size)
      show c.utf8Size + utf8Length (splitBytes (n - c.utf8Size) text).1 ≤ n
      omega
    · exact Nat.zero_le n

/-- **A text is split at the last boundary** that is not above an offset. -/
theorem isGreatest_splitBytes (s : String) (n : Nat) :
    IsGreatest {m | (String.Pos.Raw.mk m).IsValid s ∧ m ≤ min n s.utf8ByteSize}
      (utf8Length (splitBytes n s.toList).1) := by
  constructor
  · refine ⟨isValid_iff.mpr ⟨_, _, (splitBytes_join n s.toList).symm, rfl⟩, le_min ?_ ?_⟩
    · exact utf8Length_splitBytes_le n s.toList
    · have hjoin := congrArg utf8Length (splitBytes_join n s.toList)
      rw [utf8Length_append, utf8Length_toList] at hjoin
      omega
  · rintro m ⟨hm, hle⟩
    obtain ⟨front, rest, hs, rfl⟩ := isValid_iff.mp hm
    obtain ⟨more, rfl⟩ := Nat.exists_eq_add_of_le (hle.trans (min_le_left n _))
    rw [hs, splitBytes_append, utf8Length_append]
    exact Nat.le_add_right _ _

/-! ## Lines -/

/-- What is trimmed at the end of a text are the last characters of a class. -/
theorem trimEndWhile_spec (p : Char → Bool) (cs : List Char) :
    ∃ trimmed, cs = trimEndWhile p cs ++ trimmed ∧ (∀ c ∈ trimmed, p c = true) ∧
      ∀ c ∈ (trimEndWhile p cs).getLast?, p c = false := by
  refine ⟨(cs.reverse.takeWhile p).reverse, ?_, ?_, ?_⟩
  · rw [trimEndWhile, ← List.reverse_append, List.takeWhile_append_dropWhile, List.reverse_reverse]
  · exact fun c hc => List.mem_takeWhile_imp (List.mem_reverse.mp hc)
  · intro c hc
    rw [trimEndWhile, List.getLast?_reverse] at hc
    have hnot := List.head?_dropWhile_not p cs.reverse
    rw [hc] at hnot
    simpa using hnot

/-- A boundary in a text: the whole lines before it, its own line up to there and from there on,
and what follows that line. -/
structure Spot (text : List Char) where
  lines : List Char
  front : List Char
  back : List Char
  rest : List Char
  text_eq : text = lines ++ front ++ (back ++ rest)
  whole : Whole lines
  no_lineFeed : '\n' ∉ front ++ back
  rest_starts : ∀ c ∈ rest.head?, c = '\n'

/-- Before the boundary. -/
def Spot.before {text : List Char} (spot : Spot text) : List Char := spot.lines ++ spot.front

/-- Everywhere a text can be split there is a spot. -/
theorem exists_spot {text before after : List Char} (h : before ++ after = text) :
    ∃ spot : Spot text, spot.before = before ∧ spot.front = lastLine before ∧
      spot.back = after.takeWhile (· != '\n') := by
  obtain ⟨lines, hwhole, hbefore, hlast⟩ := exists_whole_append before
  have hafter := List.takeWhile_append_dropWhile (p := (· != '\n')) (l := after)
  refine ⟨⟨lines, lastLine before, after.takeWhile (· != '\n'), after.dropWhile (· != '\n'),
    ?_, hwhole, ?_, ?_⟩, hbefore.symm, rfl, rfl⟩
  · rw [← hbefore, hafter, h]
  · rw [List.mem_append, not_or]
    refine ⟨hlast, fun hmem => ?_⟩
    simpa using List.mem_takeWhile_imp hmem
  · intro c hc
    have hnot := List.head?_dropWhile_not (· != '\n') after
    rw [hc] at hnot
    simpa using hnot

/-- **A boundary is known by its line and column**: a text starts in only one way with so many line
feeds and so long a last line. -/
theorem eq_of_lastLine {text front front' : List Char} (h : front <+: text) (h' : front' <+: text)
    (hline : front.count '\n' = front'.count '\n')
    (hcolumn : (lastLine front).length = (lastLine front').length) : front = front' := by
  wlog hle : front.length ≤ front'.length generalizing front front'
  · exact (this h' h hline.symm hcolumn.symm (Nat.le_of_not_le hle)).symm
  obtain ⟨more, rfl⟩ := List.prefix_of_prefix_length_le h h' hle
  have hmore : '\n' ∉ more := by
    rw [List.count_append] at hline
    exact List.count_eq_zero.mp (by omega)
  rw [lastLine_append hmore, List.length_append] at hcolumn
  rw [List.eq_nil_of_length_eq_zero (l := more) (by omega), List.append_nil]

end Text

namespace ParseError

/-- **The place of a fault.** Its offset is the last boundary of a character that is not above the
offset it is reported for, nor above the end of the source. Its line counts the line feeds before
that boundary and its column the characters since the last of them, both from 1, and its text is
the line where the boundary lies without the carriage returns at its end. So faults with the same
line and column have the same offset. -/
theorem locate_spec (source : String) (fault : Fault) :
    (locate source fault).cause = fault.cause ∧
      IsGreatest {n | (String.Pos.Raw.mk n).IsValid source ∧
        n ≤ min fault.offset source.utf8ByteSize} (locate source fault).offset ∧
      (∃ spot : Text.Spot source.toList,
        (locate source fault).offset = Text.utf8Length spot.before ∧
        (locate source fault).line = spot.before.count '\n' + 1 ∧
        (locate source fault).column = spot.front.length + 1 ∧
        ∃ returns, spot.front ++ spot.back = (locate source fault).lineText.toList ++ returns ∧
          (∀ c ∈ returns, c = '\r') ∧
          ∀ c ∈ (locate source fault).lineText.toList.getLast?, c ≠ '\r') ∧
      '\n' ∉ (locate source fault).lineText.toList ∧
      ∀ other : Fault, (locate source other).line = (locate source fault).line →
        (locate source other).column = (locate source fault).column →
        (locate source other).offset = (locate source fault).offset := by
  have hjoin := Text.splitBytes_join fault.offset source.toList
  obtain ⟨spot, hbefore, hfront, hback⟩ := Text.exists_spot hjoin
  obtain ⟨returns, hline, hreturns, hlast⟩ :=
    Text.trimEndWhile_spec (· == '\r') (spot.front ++ spot.back)
  have htext : (locate source fault).lineText.toList =
      Text.trimEndWhile (· == '\r') (spot.front ++ spot.back) := by
    rw [hfront, hback, locate, String.toList_ofList]
  have hreported : '\n' ∉ (locate source fault).lineText.toList := by
    intro h
    rw [htext] at h
    exact spot.no_lineFeed (hline ▸ List.mem_append_left returns h)
  refine ⟨rfl, Text.isGreatest_splitBytes source fault.offset,
    ⟨spot, by rw [hbefore]; rfl, by rw [hbefore]; rfl, by rw [hfront]; rfl, returns, ?_⟩,
    hreported, ?_⟩
  · rw [htext]
    exact ⟨hline, by simpa using hreturns, by simpa using hlast⟩
  · intro other hsame hcolumn
    have hstarts := Text.splitBytes_prefix fault.offset source.toList
    have hother := Text.splitBytes_prefix other.offset source.toList
    exact congrArg Text.utf8Length (Text.eq_of_lastLine hother hstarts
      (Nat.add_right_cancel hsame) (Nat.add_right_cancel hcolumn))

end ParseError

end Mustache
