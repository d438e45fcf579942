/-
**Reading a configuration document.**

A text becomes a document in two steps, each with its own error: it is read as JSON, and its shape is
checked.  What the document says is left to those who know what it means.
-/

import Mixin.Configuration.Error

namespace Mixin

/-- Checks the shape of a document and reports every violation at once. -/
def checkShape (shape : Shape) (origin : String) (document : Json) :
    Except ConfigurationError Unit :=
  match shape.violations document with
  | [] => .ok ()
  | violations => .error (.misshapen origin violations)

/-- Reads a text as a document of a shape. -/
def readDocument (shape : Shape) (text origin : String) : Except ConfigurationError Json :=
  match Json.parse text with
  | .error fault => .error (.malformed origin text fault)
  | .ok document => do
    checkShape shape origin document
    .ok document

end Mixin
