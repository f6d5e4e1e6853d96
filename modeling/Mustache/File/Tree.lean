import Mustache.File.Error
import Mustache.File.Path

/-!
# File trees

A file tree lists the files below a directory with their bytes. A path is walked from that
directory part by part; nothing is known of what lies around it.

* `FileTree`, `Place`;
* `FileTree.walk`: where the parts of a path lead;
* `FileTree.read`: the text of a file.
-/

namespace Mustache

/-- Files by the parts of their paths. -/
abbrev FileTree := List (List String × ByteArray)

/-- Where a path leads: to a directory by its parts, to one outside of the tree that is so many
levels above it, or to a file. -/
inductive Place where
  | directory (parts : List String)
  | above (levels : Nat)
  | file (bytes : ByteArray)

namespace FileTree

/-- The tree of files that are given by their paths. -/
def ofPaths (files : List (String × ByteArray)) : FileTree :=
  files.map fun (path, bytes) => ((Path.parts path).filter fun part => !Path.isHere part, bytes)

/-- Where the name of a part leads within a directory. -/
def enter (files : FileTree) (parts : List String) : Except FileError Place :=
  match files.lookup parts with
  | some bytes => .ok (.file bytes)
  | none =>
    if files.any fun (path, _) => parts.isPrefixOf path then .ok (.directory parts)
    else .error .notFound

/-- One part further. -/
def step (files : FileTree) (place : Place) (part : String) : Except FileError Place :=
  match place with
  | .file _ => .error .notDirectory
  | .directory parts =>
    if Path.isHere part then .ok place
    else if part = ".." then
      .ok (if parts.isEmpty then .above 1 else .directory parts.dropLast)
    else files.enter (parts ++ [part])
  | .above levels =>
    if Path.isHere part then .ok place
    else if part = ".." then .ok (.above (levels + 1))
    else .error .notFound

/-- Where the parts of a path lead. -/
def walk (files : FileTree) (place : Place) (parts : List String) : Except FileError Place :=
  parts.foldlM files.step place

/-- Where a path leads; one that starts with a slash leads outside of the tree. -/
def locate (files : FileTree) (path : String) : Except FileError Place :=
  match Path.parts path with
  | "" :: [] => .error .notFound
  | "" :: parts => files.walk (.above 0) parts
  | parts => files.walk (.directory []) parts

/-- The text of a file. -/
def read (files : FileTree) (path : String) : Except FileError String :=
  match files.locate path with
  | .error e => .error e
  | .ok (.file bytes) =>
    match String.fromUTF8? bytes with
    | some text => .ok text
    | none => .error .invalidText
  | .ok _ => .error .isDirectory

end FileTree

end Mustache
