import Mustache.Token

/-!
# Tokens at any depth

A section, a block, a definition and a parent hold tokens of their own. A property of single tokens
is lifted from a list of tokens to all that occurs in it.

* `Token.bodies`: the lists of tokens directly inside a token; `Token.indentation?`;
* `Token.Occurs`, `Token.Everywhere`;
* **`Token.everywhere_iff`**: a property holds everywhere if it holds of each token and everywhere
  in the bodies of each; `Token.Throughout` says that of one token.
-/

namespace Mustache.Token

/-- The lists of tokens directly inside a token. -/
def bodies : Token → List (List Token)
  | .sectionTag _ _ body => [body]
  | .invertedTag _ _ body => [body]
  | .definitionTag _ body => [body]
  | .blockTag _ default _ => [default]
  | .parentTag _ _ overrides => overrides.map Prod.snd
  | _ => []

/-- The indentation of a tag that stands for other tokens. -/
def indentation? : Token → Option String
  | .blockTag _ _ indentation => indentation
  | .partialTag _ indentation => indentation
  | .parentTag _ indentation _ => indentation
  | _ => none

/-- The token is among the tokens or in a body of one of them, at any depth. -/
inductive Occurs (t : Token) : List Token → Prop
  | here {tokens : List Token} (h : t ∈ tokens) : Occurs t tokens
  | inside {tokens body : List Token} {u : Token} (hu : u ∈ tokens) (hb : body ∈ u.bodies)
      (h : Occurs t body) : Occurs t tokens

/-- The property holds of every token, at any depth. -/
def Everywhere (p : Token → Prop) (tokens : List Token) : Prop := ∀ t, Occurs t tokens → p t

/-- The property holds of the token and of every token inside it. -/
def Throughout (p : Token → Prop) (t : Token) : Prop :=
  p t ∧ ∀ body ∈ t.bodies, Everywhere p body

variable {p : Token → Prop}

/-- **A property holds everywhere if it holds throughout each token.** -/
theorem everywhere_iff {tokens : List Token} :
    Everywhere p tokens ↔ ∀ t ∈ tokens, Throughout p t := by
  constructor
  · intro h t ht
    exact ⟨h t (.here ht), fun body hb u hu => h u (.inside ht hb hu)⟩
  · intro h t ht
    cases ht with
    | here ht => exact (h t ht).1
    | inside hu hb ht => exact (h _ hu).2 _ hb t ht

theorem everywhere_cons {t : Token} {tokens : List Token} :
    Everywhere p (t :: tokens) ↔ Throughout p t ∧ Everywhere p tokens := by
  rw [everywhere_iff, everywhere_iff, List.forall_mem_cons]

/-- A token without bodies. -/
theorem throughout_of_bodies_nil {t : Token} (hb : t.bodies = []) (ht : p t) : Throughout p t :=
  ⟨ht, fun body h => by rw [hb] at h; nomatch h⟩

/-- A token with one body. -/
theorem throughout_of_bodies_singleton {t : Token} {body : List Token} (hb : t.bodies = [body])
    (ht : p t) (h : Everywhere p body) : Throughout p t :=
  ⟨ht, fun b hb' => by rw [hb, List.mem_singleton] at hb'; rw [hb']; exact h⟩

end Mustache.Token
