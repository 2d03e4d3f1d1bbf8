import BoxedValues.CommandLine

/-!
# The program

The `main` that can be run: it reads what the options point to, prints the answer and ends with its
exit code.
-/

set_option autoImplicit false

namespace BoxedValues.CommandLine

/-- The error of a code, which is the system's number or the negative of it. -/
def reasonOfCode (code : UInt32) (words : String) : FileError :=
  .ofNumber code.toInt32.toInt.natAbs words

/-- The reason that the system gives for a failure. -/
def systemReason : IO.Error → FileError
  | .otherError code words | .resourceBusy code words | .resourceVanished code words
  | .unsupportedOperation code words | .hardwareFault code words
  | .unsatisfiedConstraints code words | .illegalOperation code words
  | .protocolError code words | .timeExpired code words
  | .interrupted _ code words | .noFileOrDirectory _ code words
  | .alreadyExists _ code words | .invalidArgument _ code words
  | .permissionDenied _ code words | .resourceExhausted _ code words
  | .inappropriateType _ code words | .noSuchThing _ code words => reasonOfCode code words
  | .unexpectedEof => ⟨0, "unexpected end of file"⟩
  | .userError words => ⟨0, words⟩

/-- The contents of a file. -/
def readFile (path : String) : IO (Except FileError Bytes) := do
  try
    return .ok (← IO.FS.readBinFile path).toList
  catch error => return .error (systemReason error)

/-- Write octets to a stream. -/
def writeBytes (stream : IO.FS.Stream) (bytes : Bytes) : IO Unit := do
  stream.write ⟨bytes.toArray⟩
  stream.flush

end BoxedValues.CommandLine

open BoxedValues

def main (arguments : List String) : IO UInt32 := do
  let options := CommandLine.Options.ofArguments arguments
  let needsFile := options.bind fun options => if options.eval.isNone then options.file else none
  let file ← match needsFile with
    | some path => CommandLine.readFile path
    | none => pure (.error .missing)
  let needsStandard := options.any fun options =>
    options.eval.isNone && options.file.isNone && !options.types
  let standard ← if needsStandard then (← IO.getStdin).readBinToEnd else pure .empty
  let outcome := CommandLine.run arguments ⟨fun _ => file, standard.toList⟩
  CommandLine.writeBytes (← IO.getStdout) outcome.output
  CommandLine.writeBytes (← IO.getStderr) outcome.errors
  return outcome.exitCode.toUInt32
