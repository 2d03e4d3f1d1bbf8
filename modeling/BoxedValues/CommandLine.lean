import BoxedValues.FileTree
import BoxedValues.Literal.Build
import BoxedValues.Machine.Invoke

/-!
# The command line

Reference model of the program's `main` and `run` and of the options `Opt`. The program prints the
values of a literal text on one line. The text comes from an option, a file or standard input; with
`--types` it prints the builtin types instead.

* `CommandLine.Options.ofArguments` reads the arguments, in place of `Opt.parse`;
* `CommandLine.answer` is `run`: it decides what is printed, given what files and standard input
  hold;
* `CommandLine.run` is `main`, with the exit codes.
-/

set_option autoImplicit false

namespace BoxedValues.CommandLine

/-! ## Options -/

/-- What the arguments ask for. -/
structure Options where
  eval : Option String
  file : Option String
  types : Bool

namespace Options

/-- No options at all. -/
def empty : Options := ⟨none, none, false⟩

/-- An option that takes a value. -/
inductive Name where
  | eval
  | file
  deriving DecidableEq

/-- The value options with their long and short names. -/
def names : List (Name × List Char × Char) :=
  [(.eval, "eval".toList, 'e'), (.file, "file".toList, 'f')]

/-- What one argument is. -/
inductive Argument where
  /-- The `--types` option. -/
  | types
  /-- The end of all options. -/
  | last
  /-- A value option with its value in the same argument, if it has one there. -/
  | option (name : Name) (value : Option String)
  /-- None of the program's options. -/
  | unknown

/-- A long option without its dashes. -/
def longArgument (text : List Char) : Argument :=
  let name := text.takeWhile (· ≠ '=')
  let value := match text.dropWhile (· ≠ '=') with
    | [] => none
    | _ :: value => some (String.ofList value)
  match names.find? fun entry => entry.2.1 == name with
  | some entry => .option entry.1 value
  | none => if name = "types".toList ∧ value.isNone then .types else .unknown

/-- A short option with what follows it: its value, perhaps after an equals sign. -/
def shortArgument (letter : Char) (text : List Char) : Argument :=
  let value := match text with
    | [] => none
    | '=' :: value => some (String.ofList value)
    | value => some (String.ofList value)
  match names.find? fun entry => entry.2.2 == letter with
  | some entry => .option entry.1 value
  | none => .unknown

/-- What an argument is. -/
def argument (text : List Char) : Argument :=
  match text with
  | ['-', '-'] => .last
  | '-' :: '-' :: name => longArgument name
  | '-' :: letter :: value => shortArgument letter value
  | _ => .unknown

/-- The options with one more value, unless the option was given before. -/
def set (options : Options) (name : Name) (value : String) : Option Options :=
  match name with
  | .eval => if options.eval.isNone then some { options with eval := some value } else none
  | .file => if options.file.isNone then some { options with file := some value } else none

/-- Whether an argument can be the value of the option before it: it does not look like an option
itself. -/
def isValue (text : String) : Bool :=
  match text.toList with
  | '-' :: _ :: _ => false
  | _ => true

/-- The options after further arguments; `none` if these cannot be understood. -/
def add (options : Options) : List String → Option Options
  | [] => some options
  | text :: rest =>
    match argument text.toList with
    | .types => if options.types then none else add { options with types := true } rest
    | .last => if rest.isEmpty then some options else none
    | .option name (some value) => (options.set name value).bind (add · rest)
    | .option name none =>
      match rest with
      | value :: rest =>
        if isValue value then (options.set name value).bind (add · rest) else none
      | [] => none
    | .unknown => none

/-- The options that arguments spell; `none` if they cannot be understood. This stands for the parser
of arguments that the program takes from a library, as far as the options of `Opt` go. The parser
adds options for help and for the version (`-h`, `--help`, `-V`, `--version`), which are left out
here: it answers them on standard output and ends the program with the exit code 0, while for this
function they are arguments that cannot be understood, with the exit code 2. Of what the parser says
about such arguments only the exit code is kept. -/
def ofArguments (arguments : List String) : Option Options := add empty arguments

end Options

/-! ## Answers -/

/-- Why a text cannot be read from where it is. -/
inductive InputError where
  /-- The system does not give the contents of a file. -/
  | file (reason : FileError)
  /-- The contents are no text. -/
  | illFormed
  deriving DecidableEq

/-- The message of an error. -/
def InputError.message : InputError → String
  | .file reason => reason.message
  | .illFormed => "stream did not contain valid UTF-8"

/-- What the program does: its exit code and its output. -/
structure Outcome where
  exitCode : UInt8
  output : Bytes
  errors : Bytes
  deriving DecidableEq

namespace Outcome

/-- Success with the given output. -/
def success (output : Bytes) : Outcome := ⟨0, output, []⟩

/-- Failure with a message and no output. -/
def failure (message : String) : Outcome :=
  ⟨1, [], Utf8.ofString ("error: " ++ message ++ "\n")⟩

/-- Refusal of the arguments. -/
def misuse (usage : String) : Outcome := ⟨2, [], Utf8.ofString usage⟩

end Outcome

/-- What the program can read. -/
structure Inputs where
  /-- The contents of the file at a path. -/
  file : String → Except FileError Bytes
  /-- Everything on standard input. -/
  standard : Bytes

/-- The text of octets that were read. -/
def decode (bytes : Bytes) : Except InputError (List Char) :=
  match Utf8.decode? bytes with
  | some text => .ok text
  | none => .error .illFormed

/-- The text that the options choose. -/
def input (options : Options) (inputs : Inputs) : Except InputError (List Char) :=
  match options.eval, options.file with
  | some text, _ => .ok text.toList
  | none, some path =>
    match inputs.file path with
    | .ok bytes => decode bytes
    | .error reason => .error (.file reason)
  | none, none => decode inputs.standard

/-- The lines that list the types of a table. -/
def typeLines (table : Table) : Bytes :=
  table.toList.flatMap fun (id, entry) => Utf8.ofString (s!"{id} " ++ entry.text ++ "\n")

/-- Read a text and print its values on a line. -/
def printValues (machine : Machine) (text : List Char) : Exec (Except ReadError Unit) := do
  match ← machine.readValues text with
  | .ok values =>
    machine.printLine values
    return .ok ()
  | .error error => return .error error

/-- The answer for a text on a machine. -/
def evaluate (machine : Machine) (state : State) (text : List Char) : Outcome :=
  match printValues machine text state with
  | .ok (.ok ()) state => .success state.sink.written
  | .ok (.error error) _ => .failure s!"parse error: {error.message}"
  | .error fault _ => .failure s!"runtime error: {fault.message}"

/-- The answer for options. -/
def answer (options : Options) (inputs : Inputs) : Outcome :=
  match Machine.standard with
  | .error error => .failure s!"runtime error: {error.message}"
  | .ok (machine, state) =>
    if options.types then .success (typeLines machine.table)
    else
      match input options inputs with
      | .error error => .failure s!"failed to read input: {error.message}"
      | .ok text => evaluate machine state text

/-- How the program is used. -/
def usage : String := "usage: [-e TEXT | --eval TEXT] [-f PATH | --file PATH] [--types]\n"

/-- The answer for arguments. -/
def run (arguments : List String) (inputs : Inputs) : Outcome :=
  match Options.ofArguments arguments with
  | some options => answer options inputs
  | none => .misuse usage

end BoxedValues.CommandLine
