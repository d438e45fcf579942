/-
**Why a configuration is refused.**

The causes in the order in which they are looked for: the file, the JSON text, the shape of the
document, and then its names, entry by entry.
-/

import Mixin.Configuration.Shape
import Mixin.Json.Document
import Mixin.Json.Found
import Mixin.TypeName

namespace Mixin

/-- Why a file could not be read as text. -/
inductive FileFault where
  | missing
  | isDirectory
  | notDirectory
  | nameTooLong
  | notText
  | other (message : String)
deriving DecidableEq, Repr

namespace FileFault

/-- The fault in the words of the operating system. -/
def message : FileFault → String
  | missing => "No such file or directory (os error 2)"
  | isDirectory => "Is a directory (os error 21)"
  | notDirectory => "Not a directory (os error 20)"
  | nameTooLong => "File name too long (os error 36)"
  | notText => "stream did not contain valid UTF-8"
  | other message => message

end FileFault

/-- Where a value does not have the shape of a table of texts. -/
inductive Misfit where
  /-- A mapping is no object. -/
  | notBases (found : Json)
  /-- The markers of a base are no array. -/
  | notMarkers (base : String) (found : Json)
  /-- A marker of a base is no string. -/
  | notMarker (base : String) (found : Json)
  /-- A hierarchy is no object. -/
  | notClasses (found : Json)
  /-- The parent of a class is no string. -/
  | notParent (found : Json)

namespace Misfit

/-- The misfit in words. -/
def message : Misfit → String
  | notBases found => "expected an object of base types, got " ++ found.kind
  | notMarkers base found => "markers for '" ++ base ++ "' must be an array, got " ++ found.kind
  | notMarker base found => "markers for '" ++ base ++ "' must be strings, got " ++ found.kind
  | notClasses found => "invalid type: " ++ (Found.ofJson found).message ++ ", expected a map"
  | notParent found => "invalid type: " ++ (Found.ofJson found).message ++ ", expected a string"

end Misfit

/-- Why a configuration is refused. -/
inductive ConfigurationError where
  /-- The file cannot be read. -/
  | unreadable (path : String) (fault : FileFault)
  /-- The text is not JSON. -/
  | malformed (origin text : String) (fault : Fault Empty)
  /-- The document has the wrong shape. -/
  | misshapen (origin : String) (violations : List Violation)
  /-- A value has the wrong shape. -/
  | wrongShape (misfit : Misfit)
  /-- A base has no name. -/
  | emptyBase
  /-- The name of a base is misspelt. -/
  | invalidBase (error : InvalidName)
  /-- The name of a marker is misspelt. -/
  | invalidMarker (base : TypeName) (error : InvalidName)
  /-- Two entries are for one base. -/
  | duplicateBase (base : TypeName)
  /-- A name in a hierarchy is misspelt. -/
  | invalidClass (error : InvalidName)
  /-- Two entries are for one class. -/
  | duplicateClass (name : TypeName)

namespace ConfigurationError

/-- The words of the cause below an error, if it has one of its own. -/
def inner? : ConfigurationError → Option String
  | unreadable _ fault => some fault.message
  | malformed _ text fault => some (fault.message Empty.elim text)
  | _ => none

/-- The error in words. -/
def message : ConfigurationError → String
  | unreadable path fault => "I/O error reading " ++ path ++ ": " ++ fault.message
  | malformed origin text fault =>
    "invalid JSON in " ++ origin ++ ": " ++ fault.message Empty.elim text
  | misshapen origin violations =>
    origin ++ " failed schema validation:\n" ++ "\n".intercalate (violations.map Violation.message)
  | wrongShape misfit => "wrong configuration shape: " ++ misfit.message
  | emptyBase => "base type name must not be empty"
  | invalidBase error => "invalid base type " ++ error.message
  | invalidMarker base error =>
    "invalid capability marker for base type '" ++ base.text ++ "': " ++ error.message
  | duplicateBase base => "duplicate base type '" ++ base.text ++ "'"
  | invalidClass error => "invalid class hierarchy entry " ++ error.message
  | duplicateClass name => "duplicate class hierarchy entry '" ++ name.text ++ "'"

end ConfigurationError

end Mixin
