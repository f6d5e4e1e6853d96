import Mustache.Text.Hexadecimal
import Mustache.Yaml.Place

/-!
# Tags

A tag says what kind of value a node is. It is written in full between angle brackets, or as a
handle and a suffix, where the document says what the handle stands for.

* `TagName`: a tag as it is written, and `tagName?`, which reads one;
* `uri?`: the bytes of an address, in which a percent sign and two digits stand for a byte;
* `commonHandles`: the handles that need no directive;
* `Tag`: what a tag means for a value, `Tag.ofBytes?`.
-/

namespace Mustache.Yaml

/-- The characters of handles, anchors and aliases. -/
def inName (c : Char) : Bool := c.isAlphanum || c == '_' || c == '-'

/-- The characters of addresses that stand for themselves; some only where the end is clear. -/
def inUri (delimited : Bool) (c : Char) : Bool :=
  inName c || ";/?:@&=+$.!~*'()".toList.contains c || (delimited && ",[]".toList.contains c)

/-- A byte that is written as a percent sign and two digits. -/
def octet? : List Char → Option Nat
  | '%' :: a :: b :: _ => Text.hexadecimal? [a, b]
  | _ => none

/-- The number of bytes of a character by the first of them. -/
def encodedLength? (first : Nat) : Option Nat :=
  if first < 0x80 then some 1
  else if first / 0x20 = 6 then some 2
  else if first / 0x10 = 0xE then some 3
  else if first / 8 = 0x1E then some 4
  else none

/-- The bytes of a character that is written with percent signs. -/
def octets? (cs : List Char) : Option (List UInt8) := do
  let first ← octet? cs
  let length ← encodedLength? first
  let more ← (List.range (length - 1)).mapM fun i => octet? (cs.drop (3 * (i + 1)))
  if more.all fun n => n / 0x40 == 2 then some ((first :: more).map Nat.toUInt8) else none

/-- The bytes of an address of at most `count` characters. -/
def uri? (delimited : Bool) : (count : Nat) → Place → Option (List UInt8 × Place)
  | 0, p => some ([], p)
  | count + 1, p =>
    match p.rest with
    | [] => some ([], p)
    | c :: _ =>
      if c = '%' then
        (octets? p.rest).bind fun bytes =>
          (uri? delimited count (p.past (3 * bytes.length))).map fun (more, last) =>
            (bytes ++ more, last)
      else if inUri delimited c then
        (uri? delimited count (p.past 1)).map fun (more, last) => (c.toNat.toUInt8 :: more, last)
      else some ([], p)

/-- An address of at least one byte. -/
def nonEmptyUri? (delimited : Bool) (p : Place) : Option (List UInt8 × Place) :=
  (uri? delimited p.left p).filter fun (bytes, _) => !bytes.isEmpty

/-- A tag as it is written: the handle, unless the tag is written in full, and what follows it. -/
structure TagName where
  handle : Option String
  suffix : List UInt8
  deriving DecidableEq

/-- The handle of a document's own tags. -/
def primaryHandle : String := "!"

/-- The tag that says only that there is one. -/
def nonSpecific : List UInt8 := [0x21]

/-- A tag without regard to what follows it. -/
def bareTagName? (p : Place) : Option (TagName × Place) :=
  match p.rest with
  | '!' :: '<' :: _ =>
    (nonEmptyUri? true (p.past 2)).bind fun (bytes, next) =>
      if next.rest.head? = some '>' then some (⟨none, bytes⟩, next.past 1) else none
  | _ =>
    let (name, next) := (p.past 1).take inName
    if next.rest.head? = some '!' then
      (nonEmptyUri? false (next.past 1)).map fun (bytes, last) =>
        (⟨some (String.ofList ('!' :: name ++ ['!'])), bytes⟩, last)
    else
      (uri? false next.left next).map fun (bytes, last) =>
        let suffix := name.map (·.toNat.toUInt8) ++ bytes
        (if suffix.isEmpty then ⟨none, nonSpecific⟩ else ⟨some primaryHandle, suffix⟩, last)

/-- A tag, which starts with an exclamation mark, and the place after it. -/
def tagName? (inFlow : Bool) (p : Place) : Option (TagName × Place) :=
  (bareTagName? p).filter fun (_, next) =>
    atGap next.rest || (inFlow && next.rest.head? == some ',')

/-- What a tag means for a value. -/
inductive Tag where
  | null
  | bool
  | int
  | float
  /-- Any other tag: a text stays one. -/
  | other
  /-- A tag of the document's own, for which there is no value. -/
  | unknown
  deriving DecidableEq

/-- What the common tags start with. -/
def commonTags : String := "tag:yaml.org,2002:"

/-- The handles that every document has, and what they stand for. -/
def commonHandles : List (String × List UInt8) :=
  [(primaryHandle, nonSpecific), ("!!", commonTags.toUTF8.toList)]

/-- What the tag of the given bytes means, if anything. -/
def Tag.ofBytes? (bytes : List UInt8) : Option Tag :=
  match String.fromUTF8? bytes.toByteArray with
  | none => if bytes.head? = nonSpecific.head? then none else some .other
  | some name =>
    if name.startsWith primaryHandle then some .unknown
    else if name = commonTags ++ "null" then some .null
    else if name = commonTags ++ "bool" then some .bool
    else if name = commonTags ++ "int" then some .int
    else if name = commonTags ++ "float" then some .float
    else some .other

end Mustache.Yaml
