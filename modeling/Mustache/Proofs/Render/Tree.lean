import Mustache.Proofs.Delimiters
import Mustache.Proofs.Render.Depth
import Mustache.Proofs.Render.Names
import Mustache.Proofs.Render.Sections

/-!
# Trees

A template may include itself. What ends it is the data: here a tree of maps, in which every node
has a name and a list of children. Around a node there are all the nodes above it, but whatever is
looked up in a node is found there.

* `NameTree`, with `outline` and `height`; `NameTree.In`: a value that holds a tree;
* `resolve_own`: what the current object has itself; `Context.Within`: contexts in templates that
  are included without indentation;
* `renderTokens_child`, **`renderTokens_outline`**: one child, and a tree within any objects;
* **`Library.render_tree`**.
-/

namespace Mustache

/-! ## Trees of names -/

/-- A name with trees below it. -/
inductive NameTree where
  | node (name : String) (children : List NameTree)

namespace NameTree

mutual

/-- The name as it is written, and the children behind it, each in parentheses. -/
def outline (write : String → String) : NameTree → String
  | node name children => write name ++ outlineAll write children

/-- Several trees, each in parentheses. -/
def outlineAll (write : String → String) : List NameTree → String
  | [] => ""
  | tree :: trees => "(" ++ outline write tree ++ ")" ++ outlineAll write trees

end

mutual

/-- The nodes on the longest way from the root. -/
def height : NameTree → Nat
  | node _ children => heightAll children + 1

/-- The greatest height. -/
def heightAll : List NameTree → Nat
  | [] => 0
  | tree :: trees => max (height tree) (heightAll trees)

end

mutual

/-- The value is a map that holds the name and the children of the tree, among other entries. -/
def In : NameTree → Value → Prop
  | node name children, .map entries =>
    entries.lookup "name" = some (.text name) ∧
      ∃ items, entries.lookup "children" = some (.sequence items) ∧ AllIn children items
  | _, _ => False

/-- The values hold the trees in order. -/
def AllIn : List NameTree → List Value → Prop
  | [], [] => True
  | tree :: trees, item :: items => In tree item ∧ AllIn trees items
  | _, _ => False

end

theorem In.exists_entries {name : String} {children : List NameTree} {v : Value}
    (h : In (node name children) v) :
    ∃ entries items, v = .map entries ∧ entries.lookup "name" = some (.text name) ∧
      entries.lookup "children" = some (.sequence items) ∧ AllIn children items := by
  cases v with
  | map entries =>
    rw [In] at h
    obtain ⟨hn, items, hc, hi⟩ := h
    exact ⟨entries, items, rfl, hn, hc, hi⟩
  | _ => simp [In] at h

end NameTree

/-! ## Contexts within the template -/

/-- What the current object has itself is found there, whatever is around it. -/
theorem resolve_own {c : Context} {entries : List (String × Value)} (hc : c.top = .map entries)
    {name : String} (hn : name ≠ "") (hd : name.toList.head? ≠ some '.')
    (hs : segments name.toList = [name]) {v : Value} (hv : entries.lookup name = some v)
    (calls : Calls) : resolve c (.plain name) calls = (.value v, calls) := by
  have hclimb : climb name (c.top :: c.below) calls = (some v, calls) := by
    rw [climb, hc, Value.child?, hv]
  rw [resolve_plain, Expression.plain, resolveName_climbing hn hd hs, hclimb]
  rfl

/-- The context is that of a template of the library, but for the objects, the position and the
blocks. -/
structure Context.Within (l : Library) (c : Context) : Prop where
  library : c.library = some l
  contentTypes : c.contentTypes = l.contentTypes
  contentType : c.contentType = l.contentTypes.defaultType
  indentation : c.indentation = none

namespace Context.Within

variable {l : Library} {c : Context}

theorem root (data : Value) (l : Library) :
    (Context.root data l.contentTypes (some l)).Within l := ⟨rfl, rfl, rfl, rfl⟩

theorem withElement (h : c.Within l) (v : Value) (p : Position) : (c.withElement v p).Within l :=
  ⟨h.library, h.contentTypes, h.contentType, h.indentation⟩

theorem withPartial (h : c.Within l) : (c.withPartial none []).Within l where
  library := h.library
  contentTypes := h.contentTypes
  contentType := congrArg ContentTypes.defaultType h.contentTypes
  indentation := by rw [Context.withPartial, h.indentation]; rfl

end Context.Within

/-! ## The template of a tree -/

/-- What stands for a child: the template once more, in parentheses. -/
def Token.childTokens : List Token := [.text "(", .partialTag ⟨"node", false⟩ none, .text ")"]

/-- The name of the current object, and its children. -/
def Token.nodeTokens (source : Source) : List Token :=
  [.variableTag (.plain "name"), .sectionTag (.plain "children") source childTokens]

theorem Token.parse_node (types : ContentTypes) :
    Token.parse types ("{{name}}" ++ Tag.standard "#children" ++ "({{>node}}){{/children}}") =
      .ok (nodeTokens ⟨"({{>node}})", .standard⟩) := by
  cbv

section

variable {l : Library} {source : Source} {types : ContentTypes}

/-- A child within its parentheses, given what the template is rendered to for it. -/
theorem renderTokens_child (hl : l.find? "node" = some ⟨Token.nodeTokens source, types⟩)
    {c : Context} (hc : c.Within l) {depth : Nat} {calls : Calls} {text : String}
    (h : renderTokens depth (Token.nodeTokens source) (c.withPartial none []) calls =
      .ok (text, calls)) :
    renderTokens (depth + 1) Token.childTokens c calls = .ok ("(" ++ text ++ ")", calls) := by
  have htarget : renderTarget (renderTokens depth) ⟨"node", false⟩ none [] c calls =
      .ok (text, calls) := by
    rw [renderTarget, renderNamed, hc.library, Option.bind_some, hl]
    dsimp only
    rw [h]
    rfl
  rw [renderTokens, Token.childTokens]
  simp only [renderAll, renderToken, htarget, hc.indentation, append_none, String.empty_append]

mutual

/-- **The template is rendered to the outline of a tree**, whatever objects are around the tree:
every node has itself what is looked up in it. -/
theorem renderTokens_outline (hl : l.find? "node" = some ⟨Token.nodeTokens source, types⟩) :
    (tree : NameTree) → {c : Context} → tree.In c.top → c.Within l → {depth : Nat} →
    2 * tree.height ≤ depth → (calls : Calls) →
    renderTokens depth (Token.nodeTokens source) c calls =
      .ok (tree.outline l.contentTypes.defaultType.escape, calls)
  | .node name children, c, hv, hc, depth, hd, calls => by
    obtain ⟨entries, items, htop, hname, hchildren, hitems⟩ := hv.exists_entries
    rw [NameTree.height] at hd
    obtain ⟨depth, rfl⟩ : ∃ d, depth = d + 2 := ⟨depth - 2, by omega⟩
    have hwrite : renderVariable c.contentType.escape (.plain "name") c calls =
        .ok (c.contentType.escape name, calls) := by
      rw [renderVariable, resolve_own htop (by decide) (by decide) (by decide) hname]
      rfl
    have hsection : renderSection (renderTokens (depth + 1)) (.plain "children") source
        Token.childTokens c calls =
          .ok (NameTree.outlineAll l.contentTypes.defaultType.escape children, calls) := by
      rw [(renderSections_of_resolve (resolve_own htop (by decide) (by decide) (by decide)
        hchildren calls) nofun _ _).1, renderPresent,
        renderElements_outline hl children hitems hc (by omega), String.empty_append]
    rw [renderTokens, Token.nodeTokens]
    simp only [renderAll, renderToken, hwrite, hsection, hc.indentation, append_none,
      String.empty_append]
    rw [hc.contentType, NameTree.outline]

/-- The elements of a list are rendered to the outlines of their trees. -/
theorem renderElements_outline (hl : l.find? "node" = some ⟨Token.nodeTokens source, types⟩) :
    (trees : List NameTree) → {items : List Value} → NameTree.AllIn trees items →
    {c : Context} → c.Within l → {depth : Nat} → 2 * NameTree.heightAll trees ≤ depth →
    {length index : Nat} → {out : String} → {calls : Calls} →
    renderElements (renderTokens (depth + 1)) Token.childTokens c length index items out calls =
      .ok (out ++ NameTree.outlineAll l.contentTypes.defaultType.escape trees, calls)
  | [], [], _, _, _, _, _, _, _, out, _ => by
    rw [renderElements, NameTree.outlineAll, String.append_empty]
  | tree :: trees, item :: items, hi, c, hc, depth, hd, length, index, out, calls => by
    rw [NameTree.AllIn] at hi
    rw [NameTree.heightAll] at hd
    have htree : renderTokens depth (Token.nodeTokens source)
        ((c.withElement item ⟨index, length⟩).withPartial none []) calls = _ :=
      renderTokens_outline hl tree hi.1 (hc.withElement item _).withPartial (by omega) calls
    rw [renderElements_cons, renderTokens_child hl (hc.withElement item _) htree, Except.bind,
      renderElements_outline hl trees hi.2 hc (by omega), hc.indentation, append_none,
      NameTree.outlineAll, String.append_assoc]

end

end

/-- **A template that includes itself for every child** is rendered to the outline of the tree that
the data holds, of any shape. Twice the height of the tree is depth enough, so rendering ends. -/
theorem Library.render_tree {types : ContentTypes} {t : Template}
    (ht : Template.compile types
      ("{{name}}" ++ Tag.standard "#children" ++ "({{>node}}){{/children}}") = .ok t)
    {l : Library} (hl : l.find? "node" = some t) {tree : NameTree} {data : Value}
    (hd : tree.In data) (calls : Calls) :
    (∀ depth, 2 * tree.height ≤ depth →
      renderTokens depth t.tokens (.root data l.contentTypes (some l)) calls =
        .ok (tree.outline l.contentTypes.defaultType.escape, calls)) ∧
      (2 * tree.height ≤ depthLimit →
        l.render? "node" data calls =
          some (.ok (tree.outline l.contentTypes.defaultType.escape, calls))) := by
  rw [Template.compile, Token.parse_node] at ht
  cases ht
  have h (depth : Nat) (hdepth : 2 * tree.height ≤ depth) :=
    renderTokens_outline hl tree (c := .root data l.contentTypes (some l)) hd (.root data l) hdepth
      calls
  refine ⟨h, fun hlimit => ?_⟩
  rw [Library.render?, hl]
  exact congrArg some (h depthLimit hlimit)

/-- A tree of three levels with a mark and nothing at all for names, and with other entries in its
maps. -/
theorem Library.render_tree_levels :
    ∃ t l, Template.compile Config.builtIn.types
        ("{{name}}" ++ Tag.standard "#children" ++ "({{>node}}){{/children}}") = .ok t ∧
      Library.find? l "node" = some t ∧
      Library.render? l "node" (.map [("name", .text "a<b"), ("weight", .int 3), ("children",
        .sequence [
          .map [("children", .sequence [.map [("name", .text "d"), ("children", .sequence [])]]),
            ("name", .text "c")],
          .map [("name", .text ""), ("children", .sequence []), ("node", .bool true)]])]) [] =
        some (.ok ("a&lt;b(c(d))()", [])) := by
  have ht : Template.compile Config.builtIn.types
      ("{{name}}" ++ Tag.standard "#children" ++ "({{>node}}){{/children}}") =
        .ok ⟨Token.nodeTokens ⟨"({{>node}})", .standard⟩, Config.builtIn.types⟩ := by
    rw [Template.compile, Token.parse_node]
    rfl
  obtain ⟨l, hl⟩ : ∃ l : Library, l = (Library.empty Config.builtIn.types).register "node"
      ⟨Token.nodeTokens ⟨"({{>node}})", .standard⟩, Config.builtIn.types⟩ := ⟨_, rfl⟩
  have hfind : l.find? "node" =
      some ⟨Token.nodeTokens ⟨"({{>node}})", .standard⟩, Config.builtIn.types⟩ := by
    rw [hl]
    rfl
  refine ⟨_, l, ht, hfind, ?_⟩
  have hd : NameTree.In (.node "a<b" [.node "c" [.node "d" []], .node "" []]) (.map [("name",
      .text "a<b"), ("weight", .int 3), ("children", .sequence [
        .map [("children", .sequence [.map [("name", .text "d"), ("children", .sequence [])]]),
          ("name", .text "c")],
        .map [("name", .text ""), ("children", .sequence []), ("node", .bool true)]])]) := by
    simp [NameTree.In, NameTree.AllIn, List.lookup]
  rw [(Library.render_tree ht hfind hd []).2 (by decide), hl]
  rfl

end Mustache
