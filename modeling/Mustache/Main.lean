import Mustache.Cli.Run

/-!
# The program

The command line on the files and the input of the system.
-/

namespace Mustache

/-- The text of bytes. -/
def decodeText (bytes : ByteArray) : Except FileError String :=
  match String.fromUTF8? bytes with
  | some text => .ok text
  | none => .error .invalidText

/-- A failure of the system. -/
def systemError : IO.Error → FileError
  | .noFileOrDirectory _ _ _ => .notFound
  | .inappropriateType _ _ details =>
    if details = "Is a directory" then .isDirectory else .notDirectory
  | e => .other (toString e)

/-- The text of a file of the system. -/
def readFile (path : String) : IO (Except FileError String) := do
  try
    pure (decodeText (← IO.FS.readBinFile path))
  catch e => pure (.error (systemError e))

/-- The bytes of a stream up to its end, after bytes that have been read. -/
partial def readStream (stream : IO.FS.Stream) (read : ByteArray) : IO ByteArray := do
  let bytes ← stream.read 65536
  if bytes.isEmpty then pure read else readStream stream (read ++ bytes)

/-- The files and the input of the system. -/
def system : Host IO where
  read := readFile
  input := do
    try
      pure (decodeText (← readStream (← IO.getStdin) .empty))
    catch e => pure (.error (systemError e))
  inputIsTerminal := do (← IO.getStdin).isTty

end Mustache

/-- Runs the command line. -/
def main (arguments : List String) : IO UInt32 := do
  let outcome ← Mustache.Cli.run Mustache.system arguments
  (← IO.getStdout).putStr outcome.output
  (← IO.getStderr).putStr outcome.complaint
  pure (UInt32.ofNat outcome.code)
