/-
**A folder in memory.**

A flat folder of files and empty subfolders, read by path as a disk would be: a path is followed name
by name, a dot stays where it is, two dots go up, and only a folder can be gone through.  Names and
paths have a greatest length; a name is measured when it is looked for, a path before anything else.
A run whose files are in such a folder is a computation, and can be looked at without a disk.
-/

import Mixin.Configuration.Error

namespace Mixin.Host

/-- What a folder holds under a name. -/
inductive Node where
  | file (content : ByteArray)
  | folder

/-- The files and subfolders of a folder. -/
structure Folder where
  nodes : List (String × Node)

namespace Folder

/-- The place that a path has led to. -/
inductive Place where
  /-- The folder itself. -/
  | root
  /-- One of its subfolders. -/
  | inside
  /-- One of its files. -/
  | file (content : ByteArray)
  /-- Somewhere that the folder says nothing about. -/
  | outside

/-- The parts of a path between slashes. -/
def parts : List Char → List (List Char)
  | [] => [[]]
  | c :: rest =>
    if c = '/' then [] :: parts rest
    else match parts rest with
      | [] => [[c]]
      | part :: more => (c :: part) :: more

/-- The greatest number of bytes in a name. -/
def maxName : Nat := 255

/-- The greatest number of bytes in a path. -/
def maxPath : Nat := 4095

/-- Looks for a name in a place that is no file. -/
def find (folder : Folder) (place : Place) (name : List Char) : Except FileFault Place :=
  if maxName < byteCount name then .error .nameTooLong
  else match place with
    | .root =>
      match folder.nodes.lookup (String.ofList name) with
      | none => .error .missing
      | some .folder => .ok .inside
      | some (.file content) => .ok (.file content)
    | _ => .error .missing

/-- The place above one that is no file. -/
def above : Place → Place
  | .inside => .root
  | _ => .outside

/-- Goes one part further; an empty part and a dot need a folder to stay in. -/
def step (folder : Folder) (place : Place) (part : List Char) : Except FileFault Place :=
  match place with
  | .file _ => .error .notDirectory
  | place =>
    if part.isEmpty ∨ part = ['.'] then .ok place
    else if part = ['.', '.'] then .ok (above place)
    else folder.find place part

/-- Follows a path from the folder, or from outside when it starts with a slash. -/
def follow (folder : Folder) (path : String) : Except FileFault Place :=
  let start := if path.startsWith "/" then Place.outside else Place.root
  if maxPath < byteCount path.toList then .error .nameTooLong
  else (parts path.toList).foldlM folder.step start

/-- Reads the file at a path. -/
def read (folder : Folder) (path : String) : Except FileFault ByteArray := do
  match ← folder.follow path with
  | .file content => .ok content
  | _ => .error .isDirectory

end Folder

end Mixin.Host
