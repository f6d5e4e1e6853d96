import Mustache.Fault
import Mustache.Proofs.Text.Lines
import Mustache.Proofs.Text.Search

/-!
# The place of a fault

* `ParseError.offset_locate`: a fault at the end of a part of the source is reported there;
* **`ParseError.locate_append`**: behind whole lines of a source a fault is reported as in the text
  alone, so many bytes and lines further down.
-/

namespace Mustache

namespace Text

/-- The last line of a text behind whole lines is its own. -/
theorem Whole.lastLine_append {text : List Char} (h : Whole text) (more : List Char) :
    lastLine (text ++ more) = lastLine more := by
  obtain rfl | ⟨front, rfl⟩ := h
  · rfl
  · unfold lastLine
    rw [List.append_assoc, List.reverse_append, List.reverse_append, List.append_assoc,
      List.reverse_singleton, List.singleton_append, takeWhile_append_stop rfl]

end Text

namespace ParseError

/-- A fault behind a part of the source is reported there. -/
theorem offset_locate {source : String} {front rest : List Char} (h : source.toList = front ++ rest)
    (cause : Cause) : (locate source ⟨cause, Text.utf8Length front⟩).offset =
      Text.utf8Length front := by
  have hs := Text.splitBytes_append front rest 0
  rw [Nat.add_zero, Text.splitBytes_zero, List.append_nil, ← h] at hs
  simp only [locate, hs]

/-- The fault so many bytes and lines further down. -/
def later (bytes lines : Nat) (e : ParseError) : ParseError :=
  { e with offset := bytes + e.offset, line := lines + e.line }

/-- **Behind whole lines** a fault is reported as in the text alone, that much further down. -/
theorem locate_append {source : String} (h : Text.Whole source.toList) (more : String)
    (fault : Fault) :
    locate (source ++ more)
        ⟨fault.cause, Text.utf8Length source.toList + fault.offset⟩ =
      (locate more fault).later (Text.utf8Length source.toList) (source.toList.count '\n') := by
  simp only [locate, later, String.toList_append, Text.splitBytes_append, h.lastLine_append,
    Text.utf8Length_append, List.count_append, Nat.add_assoc]

end ParseError

end Mustache
