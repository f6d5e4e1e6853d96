import Mustache.Decimal.Reader
import Mustache.Yaml.Token

/-!
# Directives

A line that starts with a percent sign speaks about the document that follows: which version of
the format it is written in, or what a handle of tags stands for.

* `version?`, `handle?`: what follows the name of a directive;
* `directive?`: the directive of a line, and the next line.
-/

namespace Mustache.Yaml

/-- How many digits a number of a version has at most. -/
def maxVersionDigits : Nat := 9

/-- A number of a version. -/
def versionNumber? (p : Place) : Option (Nat × Place) :=
  let (digits, next) := p.take Char.isDigit
  if digits.isEmpty ∨ maxVersionDigits < digits.length then none
  else some (Decimal.valueOf 0 digits, next)

/-- A version: 1.1 or 1.2. -/
def version? (p : Place) : Option (Token × Place) := do
  let (major, p) ← versionNumber? p
  if p.rest.head? ≠ some '.' then none
  let (minor, p) ← versionNumber? (p.past 1)
  if major = 1 ∧ (minor = 1 ∨ minor = 2) then some (.version, p) else none

/-- A handle, which stands between exclamation marks or is a single one, and what it stands
for. -/
def handle? (p : Place) : Option (Token × Place) := do
  if p.rest.head? ≠ some '!' then none
  let (name, p) := (p.past 1).take inName
  let (name, p) ←
    if p.rest.head? = some '!' then some ('!' :: name ++ ['!'], p.past 1)
    else if name.isEmpty then some (['!'], p)
    else none
  if !p.rest.head?.any Text.isInlineBlank then none
  let (start, p) ← nonEmptyUri? true (p.skip Text.isInlineBlank)
  if atGap p.rest then some (.handle (String.ofList name) start, p) else none

/-- The directive at a place, and the line after it. -/
def directive? (p : Place) : Option (Token × Place) := do
  let (name, p) := (p.past 1).take inName
  if !atGap p.rest then none
  let next := p.skip Text.isInlineBlank
  let (token, p) ← match String.ofList name with
    | "YAML" => version? next
    | "TAG" => handle? next
    | _ => none
  return (token, ← p.lineEnd?)

end Mustache.Yaml
