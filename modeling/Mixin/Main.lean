/-
**The command line program.**

All decisions are those of `Host.answer`; this module reads the files that a command line names and
standard input, and writes what the answer says.
-/

import Mixin.Host.Run

namespace Mixin.Program

/-- Why the operating system did not give a file.  Its codes come with either sign. -/
def fileFault : IO.Error → FileFault
  | .noFileOrDirectory _ _ _ => .missing
  | .inappropriateType _ code details =>
    if code = 21 ∨ 0 - code = 21 then .isDirectory
    else if code = 20 ∨ 0 - code = 20 then .notDirectory
    else .other details
  | .invalidArgument _ code details =>
    if code = 36 ∨ 0 - code = 36 then .nameTooLong else .other details
  | error => .other (toString error)

/-- Reads a file, or says why it cannot be read. -/
def readFile (path : String) : IO (Except FileFault ByteArray) := do
  try
    let bytes ← IO.FS.readBinFile path
    return .ok bytes
  catch error => return .error (fileFault error)

/-- Reads a stream to its end. -/
partial def readAll (stream : IO.FS.Stream) (sofar : ByteArray) : IO ByteArray := do
  let block ← stream.read 65536
  if block.isEmpty then return sofar
  readAll stream (sofar ++ block)

/-- The files and the standard input that a command line asks for. -/
def gather (words : List String) : IO (List (String × Except FileFault ByteArray) × ByteArray) := do
  match Host.Request.ofWords words with
  | .run options =>
    let paths := options.config :: options.hierarchy.toList
    let files ← paths.mapM fun path => do
      let content ← readFile path
      return (path, content)
    let input ← readAll (← IO.getStdin) ByteArray.empty
    return (files, input)
  | _ => return ([], ByteArray.empty)

/-- Runs the program on a command line and gives its exit code. -/
def run (words : List String) : IO UInt32 := do
  let (files, input) ← gather words
  let read (path : String) := (files.lookup path).getD (.error .missing)
  let answer := Host.answer read input words
  IO.print answer.output
  match answer with
  | .failed failure => IO.eprintln failure.message
  | .misuse => IO.eprint Host.Answer.usage
  | .done report =>
    for event in report.events do
      if event.level = .warn then IO.eprintln event.toJson.compact
  | _ => pure ()
  return UInt32.ofNat answer.code

end Mixin.Program

/-- Runs the program. -/
def main (words : List String) : IO UInt32 :=
  Mixin.Program.run words
