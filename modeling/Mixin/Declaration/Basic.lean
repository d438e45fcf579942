/-
**Class declarations.**

A declaration is a class as its surroundings hand it over: an optional name, the optional parent
written in it, and a body of statements.  A statement either uses capability markers or is a member
carried along as text.
-/

import Mixin.TypeName

namespace Mixin

/-- A statement in the body of a class. -/
inductive Statement where
  /-- Uses capability markers. -/
  | use (markers : List TypeName)
  /-- Any other member, as text. -/
  | member (text : String)
deriving DecidableEq

namespace Statement

/-- The markers that a statement uses. -/
def markers : Statement → List TypeName
  | use markers => markers
  | member _ => []

/-- Statements of one marker each use these markers, in order. -/
theorem flatMap_markers_single (used : List TypeName) :
    (used.map fun marker => use [marker]).flatMap markers = used := by
  induction used with
  | nil => rfl
  | cons marker rest ih =>
    simp only [List.map_cons, List.flatMap_cons, ih, markers, List.singleton_append]

end Statement

/-- A class: its name, the parent written in it, and its body. -/
structure Declaration where
  /-- The name; an anonymous class has none. -/
  name : Option TypeName := none
  /-- The parent as written. -/
  parent : Option TypeName := none
  /-- The statements, in order. -/
  body : List Statement := []
deriving DecidableEq

namespace Declaration

/-- The anonymous class without parent and body. -/
def anonymous : Declaration := {}

/-- The class of a name, without parent and body. -/
def named (name : TypeName) : Declaration := { name := some name }

/-- The class with its written parent replaced. -/
def extending (d : Declaration) (parent : TypeName) : Declaration :=
  { d with parent := some parent }

/-- The class with one statement more. -/
def push (d : Declaration) (statement : Statement) : Declaration :=
  { d with body := d.body ++ [statement] }

/-- The class with one statement more for each marker. -/
def append (d : Declaration) (markers : List TypeName) : Declaration :=
  { d with body := d.body ++ markers.map fun marker => .use [marker] }

/-- Every marker in use, in order of the statements. -/
def uses (d : Declaration) : List TypeName :=
  d.body.flatMap Statement.markers

/-- The name of the class, or a stand-in for an anonymous one. -/
def label (d : Declaration) : String :=
  match d.name with
  | some name => name.text
  | none => "<anonymous>"

/-- Appending no marker changes nothing. -/
theorem append_nil (d : Declaration) : d.append [] = d := by
  simp only [append, List.map_nil, List.append_nil]

/-- Markers may be appended in two parts. -/
theorem append_append (d : Declaration) (markers more : List TypeName) :
    d.append (markers ++ more) = (d.append markers).append more := by
  simp only [append, List.map_append, List.append_assoc]

/-- Appended markers come into use after the old ones. -/
theorem uses_append (d : Declaration) (markers : List TypeName) :
    (d.append markers).uses = d.uses ++ markers := by
  simp only [uses, append, List.flatMap_append, Statement.flatMap_markers_single]

end Declaration

end Mixin
