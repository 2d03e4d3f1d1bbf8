import BoxedValues.Proofs.Literal.Writing
import BoxedValues.Proofs.Machine.Sending
import BoxedValues.Proofs.Numeral.Radix

/-!
# Integers that strings hold

The method that parses integers, against the positional system (`Numeral.Denotes`), and against the
two other places where integers are text: the method that prints them and the reader of literals.

* `StringMethod.integer?_eq_some_iff`: what it makes of a text, in any radix that is a machine word;
* `Machine.parsesIntegers`: **a string is parsed to a word just if its text is a numeral of it in a
  radix from 2 to 36**, to `None` otherwise, and what is printed is parsed and read back.
-/

set_option autoImplicit false

namespace BoxedValues

open Numeral

/-- The text is a numeral of the word, in a radix that has digits. -/
structure Parses (radix : Int64) (text : List Char) (number : Int64) : Prop where
  least : 2 ≤ radix.toInt
  greatest : radix.toInt ≤ 36
  denotes : Denotes radix.toInt.toNat text number.toInt

/-- The radix that a call asks for, ten if it says nothing or `None`. -/
inductive AsksFor (state : State) : List Ref → Int64 → Prop where
  | missing : AsksFor state [] 10
  | none {value : Ref} : (state.heap.get value).payload = .none → AsksFor state [value] 10
  | int {value : Ref} {radix : Int64} : (state.heap.get value).payload = .int radix →
      AsksFor state [value] radix

theorem StringMethod.integer?_eq_some_iff {given : Option Int64} {text : List Char}
    {number : Int64} :
    StringMethod.integer? given text = some number ↔ Parses (given.getD 10) text number := by
  have least : (2 : Int64).toInt = 2 := rfl
  have greatest : (36 : Int64).toInt = 36 := rfl
  rw [StringMethod.integer?, Option.ite_none_right_eq_some, toInt64?_eq_some_iff,
    Int64.le_iff_toInt_le, Int64.le_iff_toInt_le, least, greatest]
  exact ⟨fun ⟨range, denotes⟩ => ⟨range.1, range.2, denotes⟩,
    fun parses => ⟨⟨parses.least, parses.greatest⟩, parses.denotes⟩⟩

theorem AsksFor.optional {state : State} {rest : List Ref} {radix : Int64}
    (asks : AsksFor state rest radix) (value : Ref) : ∃ given : Option Int64,
      given.getD 10 = radix ∧ Arguments.optional .int (value :: rest) 1 state = .ok given state := by
  cases asks with
  | missing => exact ⟨.none, rfl, Arguments.optional_missing rfl⟩
  | none held => exact ⟨.none, rfl, Arguments.optional_none rfl held⟩
  | int held =>
    refine ⟨some radix, rfl, Arguments.optional_ok rfl ?_ (by rw [held]; rfl)⟩
    rw [held]
    exact Payload.noConfusion

/-- No call asks for a radix with more than one argument. -/
theorem AsksFor.accepts {state : State} {rest : List Ref} {radix : Int64}
    (asks : AsksFor state rest radix) :
    StringMethod.parseInt.arity.accepts (rest.length + 1) = true := by
  cases asks <;> rfl

namespace Machine

/-- Integers as text, on a machine in some state. -/
structure ParsesIntegers (machine : Machine) (state : State) : Prop where
  /-- A string of any octets is parsed to a word just if its text is a numeral of the word. -/
  exact : ∀ value rest bytes radix,
    state.heap.get value = ⟨machine.ids.string, .string bytes⟩ → AsksFor state rest radix →
      ∀ number, (machine.send StringMethod.parseInt.slot (value :: rest)).MakesNew state
        ⟨machine.ids.int, .int number⟩ ↔ Parses radix (Utf8.decodeLossy bytes) number
  /-- A text that is no numeral of a word is answered with `None`, and nothing else happens. -/
  refused : ∀ value rest bytes radix,
    state.heap.get value = ⟨machine.ids.string, .string bytes⟩ → AsksFor state rest radix →
      (∀ number, ¬Parses radix (Utf8.decodeLossy bytes) number) →
        machine.send StringMethod.parseInt.slot (value :: rest) state = .ok machine.noneValue state
  /-- The text of a word is parsed to the word, and read as the one literal of it. -/
  printed : ∀ value number, state.heap.get value = ⟨machine.ids.int, .int number⟩ →
    ∃ text after bytes, machine.textOf value state = .ok text after ∧
      after.heap.Holds text ⟨machine.ids.string, .string bytes⟩ ∧
      (machine.send StringMethod.parseInt.slot [text]).MakesNew after
        ⟨machine.ids.int, .int number⟩ ∧
      Literal.read (Utf8.decodeLossy bytes) = .ok [.int number] ∧
      ∃ copy last, machine.readValues (Utf8.decodeLossy bytes) after = .ok (.ok [copy]) last ∧
        last.heap.Holds copy ⟨machine.ids.int, .int number⟩
  /-- Every word has a numeral in each radix with digits. -/
  numerals : ∀ radix : Int64, 2 ≤ radix.toInt → radix.toInt ≤ 36 → ∀ number,
    ∃ text, Parses radix text number

variable {machine : Machine} {state : State} {value : Ref} {rest : List Ref} {radix : Int64}
  {bytes : Bytes}

/-- A call of the method, as what it makes of the text. -/
theorem send_parseInt (complete : machine.Complete)
    (held : state.heap.get value = ⟨machine.ids.string, .string bytes⟩)
    (asks : AsksFor state rest radix) : ∃ given : Option Int64, given.getD 10 = radix ∧
      machine.send StringMethod.parseInt.slot (value :: rest) state =
        (match StringMethod.integer? given (Utf8.decodeLossy bytes) with
          | some number => machine.newInt number
          | none => pure machine.noneValue : Exec Ref) state := by
  obtain ⟨given, same, looked⟩ := asks.optional value
  refine ⟨given, same, ?_⟩
  rw [send_string complete (by rw [held]) asks.accepts]
  refine (Exec.bind_ok (Arguments.receiver_ok (by rw [held]; rfl))).trans ?_
  exact Exec.bind_ok looked

theorem parseInt_makesNew (complete : machine.Complete)
    (held : state.heap.get value = ⟨machine.ids.string, .string bytes⟩)
    (asks : AsksFor state rest radix) {number : Int64}
    (parses : Parses radix (Utf8.decodeLossy bytes) number) :
    (machine.send StringMethod.parseInt.slot (value :: rest)).MakesNew state
      ⟨machine.ids.int, .int number⟩ := by
  obtain ⟨given, rfl, sent⟩ := send_parseInt complete held asks
  rw [StringMethod.integer?_eq_some_iff.2 parses] at sent
  exact (Exec.makesNew_alloc _ state).of_eq sent

theorem parseInt_refused (complete : machine.Complete)
    (held : state.heap.get value = ⟨machine.ids.string, .string bytes⟩)
    (asks : AsksFor state rest radix)
    (fails : ∀ number, ¬Parses radix (Utf8.decodeLossy bytes) number) :
    machine.send StringMethod.parseInt.slot (value :: rest) state =
      .ok machine.noneValue state := by
  obtain ⟨given, rfl, sent⟩ := send_parseInt complete held asks
  have nothing : StringMethod.integer? given (Utf8.decodeLossy bytes) = none := by
    rw [Option.eq_none_iff_forall_ne_some]
    exact fun number read => fails number (StringMethod.integer?_eq_some_iff.1 read)
  rw [sent, nothing]
  rfl

theorem parses_ofInt (number : Int64) : Parses 10 (ofInt number.toInt) number :=
  ⟨by decide, by decide, denotes_ofInt number.toInt⟩

/-- The text of a word is cut into one token of it. -/
theorem read_ofInt (number : Int64) : Literal.read (ofInt number.toInt) = .ok [.int number] := by
  have nothing : Draft.Blank [] := List.forall_mem_nil _
  have written : Draft.WritesAll [.int number] (ofInt number.toInt) := by
    have alone := Draft.WritesAll.last nothing (.int number) nothing
    rwa [List.nil_append, List.append_nil] at alone
  exact ofLexemes_eq_ok_iff.2
    ⟨_, Draft.derives_of_writesAll written, Draft.values?_phrases [.int number]⟩

/-- **Integers are parsed exactly, and parsing and reading undo printing.** A string is parsed to a
word just if its text is a numeral of it in the radix that the call asks for, and to `None` in every
other case, also if the number is none of 64 bits or the radix has no digits. -/
theorem parsesIntegers (live : machine.Live state) : machine.ParsesIntegers state := by
  have complete := live.complete
  constructor
  case refused => exact fun value rest bytes radix held asks => parseInt_refused complete held asks
  case exact =>
    intro value rest bytes radix held asks number
    refine ⟨fun made => ?_, parseInt_makesNew complete held asks⟩
    by_cases some : ∃ other, Parses radix (Utf8.decodeLossy bytes) other
    · obtain ⟨other, parses⟩ := some
      cases made.unique (parseInt_makesNew complete held asks parses)
      exact parses
    · have none := parseInt_refused complete held asks fun other parses => some ⟨other, parses⟩
      exact absurd none (made.ne_ok live.shares.none state)
  case printed =>
    intro value number held
    obtain ⟨text, after, ran, written, _, grown⟩ := textOf_int complete held
    have same : Utf8.decodeLossy (Utf8.encode (ofInt number.toInt)) = ofInt number.toInt :=
      Utf8.decodeLossy_encode _
    obtain ⟨copies, last, reading, spelled⟩ :=
      readValues_of_read (live.extends grown).shares (read_ofInt number)
    obtain ⟨copy, others, rfl, spells, rfl⟩ := spelled
    refine ⟨text, after, _, ran, written, ?_, ?_, copy, last, ?_, spells⟩
    · exact parseInt_makesNew complete written.get .missing (by rw [same]; exact parses_ofInt number)
    · rw [same, read_ofInt]
    · rw [same, reading]
  case numerals =>
    intro radix least greatest number
    have digits : 2 ≤ radix.toInt.toNat ∧ radix.toInt.toNat ≤ 36 := by omega
    obtain ⟨text, denotes⟩ := exists_denotes digits.1 digits.2 number.toInt
    exact ⟨text, least, greatest, denotes⟩

/-- On the machine with builtin types only: `-zZ`, the number 36, the least number there is, and the
numeral of the first that is too great. -/
def numeralState : State :=
  let string (text : String) : Box := ⟨bare.ids.string, .string (Utf8.ofString text)⟩
  { bareState with heap := ⟨bareState.heap.boxes ++ #[string "-zZ", ⟨bare.ids.int, .int 36⟩,
    ⟨bare.ids.int, .int Int64.minValue⟩, string "9223372036854775808"]⟩ }

theorem parsesIntegers_extremes : bare.Live numeralState ∧
    (bare.send StringMethod.parseInt.slot [⟨6⟩, ⟨7⟩]).MakesNew numeralState
      ⟨bare.ids.int, .int (-1295)⟩ ∧
    bare.send StringMethod.parseInt.slot [⟨6⟩] numeralState = .ok bare.noneValue numeralState ∧
    bare.send StringMethod.parseInt.slot [⟨9⟩] numeralState = .ok bare.noneValue numeralState ∧
    ∃ text after, bare.textOf ⟨8⟩ numeralState = .ok text after ∧
      (bare.send StringMethod.parseInt.slot [text]).MakesNew after
        ⟨bare.ids.int, .int Int64.minValue⟩ := by
  have live : bare.Live numeralState := live_bare_append _
  have parses := parsesIntegers live
  have letters : StringMethod.integer? (some 36) ['-', 'z', 'Z'] = some (-1295) := by decide +kernel
  have foreign : StringMethod.integer? none ['-', 'z', 'Z'] = none := by decide +kernel
  have beyond : StringMethod.integer? none "9223372036854775808".toList = none := by decide +kernel
  have fails {text : List Char} (h : StringMethod.integer? none text = none) (number : Int64) :
      ¬Parses 10 text number := by
    intro read
    have found : StringMethod.integer? none text = some number :=
      StringMethod.integer?_eq_some_iff.2 read
    rw [h] at found
    cases found
  obtain ⟨text, after, _, ran, _, parsed, _⟩ := parses.printed ⟨8⟩ Int64.minValue rfl
  refine ⟨live, ?_, ?_, ?_, text, after, ran, parsed⟩
  · exact (parses.exact ⟨6⟩ [⟨7⟩] _ 36 rfl (.int rfl) _).2 (StringMethod.integer?_eq_some_iff.1 letters)
  · exact parses.refused ⟨6⟩ [] _ 10 rfl .missing (fails foreign)
  · exact parses.refused ⟨9⟩ [] _ 10 rfl .missing (fails beyond)

end Machine

end BoxedValues
