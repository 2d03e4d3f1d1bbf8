import BoxedValues.Proofs.Machine.Visiting

/-!
# A line is written whole, in part, or not at all

A line of values is printed in two phases: the texts of all values are made, which may run any methods
and print other lines, and then the pieces of the line are offered to the sink, which runs no method
and is flushed at the end.

* `Sink.offerAll_eq_none_iff`, `Sink.offerAll_eq_some_iff`: the sink takes the non-empty pieces up to
  the first that it refuses;
* `Sink.offerLine_eq_none_iff`, `Sink.offerLine_eq_some_iff`: a line fails at that piece, or whole
  when it is flushed;
* `Sink.offerLines`: lines that are offered one after another, whether or not they are refused.
  Everything that returns changes the sink in this way and in no other (`frame_offerLines`);
* `Machine.printLine_whole_part_or_nothing`: **a line is written whole, as the part before the first
  refused piece, or not at all**, and after all lines that its own texts print;
* `Machine.printLine_limited_iff`: where the sink has so much room and no more, a line is printed
  exactly if it fits.
-/

set_option autoImplicit false

namespace BoxedValues

/-! ## Offering pieces -/

namespace Sink

/-- The sink takes the pieces one after another, and is then the other one. -/
inductive Takes : Sink → List Bytes → Sink → Prop where
  | nil (sink : Sink) : Takes sink [] sink
  | cons {sink next last : Sink} {piece : Bytes} {pieces : List Bytes} :
      sink.offer piece = (none, next) → Takes next pieces last → Takes sink (piece :: pieces) last

/-- The sink takes the first of the pieces and refuses the next one, for this reason. -/
def Refuses (sink : Sink) (pieces taken : List Bytes) (reason : String) (last : Sink) : Prop :=
  ∃ piece rest middle, pieces = taken ++ piece :: rest ∧ sink.Takes taken middle ∧
    middle.offer piece = (some reason, last)

/-- The sink takes all pieces of a line and is flushed. -/
def TakesLine (sink : Sink) (pieces : List Bytes) (last : Sink) : Prop :=
  ∃ full, sink.Takes pieces full ∧ full.flush = (none, last)

/-- The sink takes the first of the pieces and refuses the next one, or it takes all of them and
refuses to be flushed. -/
def RefusesLine (sink : Sink) (pieces taken : List Bytes) (reason : String) (last : Sink) : Prop :=
  sink.Refuses pieces taken reason last ∨
    taken = pieces ∧ ∃ full, sink.Takes pieces full ∧ full.flush = (some reason, last)

variable {sink next last : Sink} {piece : Bytes} {pieces taken : List Bytes} {reason : String}

/-- A line is refused at some demand, after the pieces that were taken. -/
theorem ask_of_refusesLine (h : sink.RefusesLine pieces taken reason last) :
    ∃ middle demand, sink.Takes taken middle ∧ middle.ask demand = (some reason, last) := by
  obtain ⟨piece, _, middle, _, takes, refused⟩ | ⟨rfl, full, takes, unflushed⟩ := h
  · exact ⟨middle, .take piece, takes, refused⟩
  · exact ⟨full, .flush, takes, unflushed⟩

/-! ## What is written -/

theorem written_ask (sink : Sink) (demand : Demand) : (sink.ask demand).2.written =
    sink.written ++ Reply.taken ⟨demand, (sink.ask demand).1.isNone⟩ :=
  History.written_add sink.history _

theorem written_of_taken (taken : sink.offer piece = (none, next)) :
    next.written = sink.written ++ piece := by
  have wrote := sink.written_ask (.take piece)
  rw [show sink.ask (.take piece) = (none, next) from taken] at wrote
  exact wrote

/-- A refusal leaves what was written. -/
theorem written_of_refused {demand : Demand} (refused : sink.ask demand = (some reason, next)) :
    next.written = sink.written := by
  have wrote := sink.written_ask demand
  rw [refused] at wrote
  cases demand with
  | take piece => exact wrote.trans (List.append_nil _)
  | flush => exact wrote.trans (List.append_nil _)

theorem written_flush (sink : Sink) : sink.flush.2.written = sink.written :=
  (sink.written_ask .flush).trans (List.append_nil _)

theorem written_of_takes (h : sink.Takes pieces last) :
    last.written = sink.written ++ pieces.flatten := by
  induction h with
  | nil => simp
  | cons offered _ ih => rw [ih, written_of_taken offered, List.flatten_cons, List.append_assoc]

theorem written_of_takesLine (h : sink.TakesLine pieces last) :
    last.written = sink.written ++ pieces.flatten := by
  obtain ⟨full, takes, flushed⟩ := h
  have kept := full.written_flush
  rw [flushed] at kept
  rw [kept, written_of_takes takes]

/-- Of a line that it refuses, a sink has written the pieces before the refused one, or all. -/
theorem written_of_refusesLine (h : sink.RefusesLine pieces taken reason last) :
    last.written = sink.written ++ taken.flatten := by
  obtain ⟨middle, demand, takes, refused⟩ := ask_of_refusesLine h
  rw [written_of_refused refused, written_of_takes takes]

/-! ## How pieces are gone through -/

/-- Exactly the pieces that are not empty are taken when no piece is refused. -/
theorem offerAll_eq_none_iff :
    sink.offerAll pieces = (none, last) ↔ sink.Takes (pieces.filter (!·.isEmpty)) last := by
  induction pieces generalizing sink with
  | nil =>
    constructor
    · rintro ⟨⟩
      exact .nil _
    · rintro ⟨⟩
      rfl
  | cons piece pieces ih =>
    rw [offerAll]
    by_cases empty : piece.isEmpty
    · rw [if_pos empty, List.filter_cons_of_neg (by simpa using empty), ih]
    · rw [if_neg empty, List.filter_cons_of_pos (by simpa using empty)]
      constructor
      · intro h
        rcases offered : sink.offer piece with ⟨answer, next⟩
        rw [offered] at h
        cases answer with
        | none => exact .cons offered (ih.1 h)
        | some reason => cases h
      · rintro (_ | ⟨offered, takes⟩)
        rw [offered]
        exact ih.2 takes

/-- A refusal is that of the first piece which is not taken. -/
theorem offerAll_eq_some_iff : sink.offerAll pieces = (some reason, last) ↔
    ∃ taken, sink.Refuses (pieces.filter (!·.isEmpty)) taken reason last := by
  induction pieces generalizing sink with
  | nil =>
    constructor
    · rintro ⟨⟩
    · rintro ⟨taken, piece, rest, middle, same, _⟩
      cases taken <;> cases same
  | cons piece pieces ih =>
    rw [offerAll]
    by_cases empty : piece.isEmpty
    · rw [if_pos empty, List.filter_cons_of_neg (by simpa using empty), ih]
    · rw [if_neg empty, List.filter_cons_of_pos (by simpa using empty)]
      rcases offered : sink.offer piece with ⟨answer, next⟩
      cases answer with
      | some refusal =>
        constructor
        · rintro ⟨⟩
          exact ⟨[], piece, _, sink, rfl, .nil sink, offered⟩
        · rintro ⟨taken, other, rest, middle, same, takes, refused⟩
          cases takes with
          | nil =>
            cases same
            rw [offered] at refused
            cases refused
            rfl
          | cons accepted _ =>
            obtain ⟨rfl, _⟩ := List.cons.inj same
            rw [offered] at accepted
            cases accepted
      | none =>
        refine ih.trans ⟨?_, ?_⟩
        · rintro ⟨taken, other, rest, middle, same, takes, refused⟩
          exact ⟨piece :: taken, other, rest, middle, by rw [same]; rfl, .cons offered takes, refused⟩
        · rintro ⟨taken, other, rest, middle, same, takes, refused⟩
          cases takes with
          | nil =>
            cases same
            rw [offered] at refused
            cases refused
          | @cons _ between _ first taken accepted takes =>
            obtain ⟨rfl, following⟩ := List.cons.inj same
            rw [offered] at accepted
            cases accepted
            exact ⟨taken, other, rest, middle, following, takes, refused⟩

/-! ## Offering lines -/

theorem offerLine_eq_none_iff :
    sink.offerLine pieces = (none, last) ↔ sink.TakesLine (pieces.filter (!·.isEmpty)) last := by
  simp only [TakesLine, ← offerAll_eq_none_iff]
  rw [offerLine]
  rcases offered : sink.offerAll pieces with ⟨_ | refusal, full⟩
  · constructor
    · intro flushed
      exact ⟨full, rfl, flushed⟩
    · rintro ⟨_, ⟨⟩, flushed⟩
      exact flushed
  · constructor
    · rintro ⟨⟩
    · rintro ⟨_, ⟨⟩, _⟩

/-- A sink that took all pieces has them, flushed or not. -/
theorem written_offerLine_of_taken (taken : sink.offerAll pieces = (none, next)) :
    (sink.offerLine pieces).2.written = sink.written ++ pieces.flatten := by
  have wrote := written_of_takes (offerAll_eq_none_iff.1 taken)
  rw [List.flatten_filter_not_isEmpty] at wrote
  rw [offerLine, taken, ← wrote]
  exact next.written_flush

/-- A line is refused at a piece, or when all of it was taken. -/
theorem offerLine_eq_some_iff : sink.offerLine pieces = (some reason, last) ↔
    ∃ taken, sink.RefusesLine (pieces.filter (!·.isEmpty)) taken reason last := by
  simp only [RefusesLine, exists_or, exists_eq_left, ← offerAll_eq_none_iff, ← offerAll_eq_some_iff]
  rw [offerLine]
  rcases offered : sink.offerAll pieces with ⟨_ | refusal, full⟩
  · constructor
    · intro unflushed
      exact .inr ⟨full, rfl, unflushed⟩
    · rintro (⟨⟨⟩⟩ | ⟨_, ⟨⟩, unflushed⟩)
      exact unflushed
  · constructor
    · rintro ⟨⟩
      exact .inl rfl
    · rintro (⟨⟨⟩⟩ | ⟨_, ⟨⟩, _⟩)
      rfl

/-- The sink after it was offered lines of these texts, one after another. -/
def offerLines (sink : Sink) (lines : List (List Bytes)) : Sink :=
  lines.foldl (fun sink texts => (sink.offerLine (Engine.linePieces texts)).2) sink

/-- Nothing that was written is lost. -/
theorem written_offerLine (sink : Sink) (pieces : List Bytes) :
    sink.written <+: (sink.offerLine pieces).2.written := by
  rcases ended : sink.offerLine pieces with ⟨_ | reason, last⟩
  · rw [written_of_takesLine (offerLine_eq_none_iff.1 ended)]
    exact List.prefix_append ..
  · obtain ⟨taken, refuses⟩ := offerLine_eq_some_iff.1 ended
    rw [written_of_refusesLine refuses]
    exact List.prefix_append ..

theorem written_offerLines (sink : Sink) (lines : List (List Bytes)) :
    sink.written <+: (sink.offerLines lines).written := by
  induction lines generalizing sink with
  | nil => exact List.prefix_rfl
  | cons texts lines ih => exact (sink.written_offerLine _).trans (ih _)

/-! ## The rule of a sink -/

theorem refusal_of_asked {demand : Demand} {answer : Option String}
    (asked : sink.ask demand = (answer, next)) : next.refusal = sink.refusal :=
  (congrArg (·.2.refusal) asked).symm

theorem refusal_of_takes (h : sink.Takes pieces last) : last.refusal = sink.refusal := by
  induction h with
  | nil => rfl
  | cons offered _ ih => exact ih.trans (refusal_of_asked offered)

theorem refusal_offerLine (sink : Sink) (pieces : List Bytes) :
    (sink.offerLine pieces).2.refusal = sink.refusal := by
  rcases ended : sink.offerLine pieces with ⟨_ | reason, last⟩
  · obtain ⟨full, takes, flushed⟩ := offerLine_eq_none_iff.1 ended
    exact (refusal_of_asked flushed).trans (refusal_of_takes takes)
  · obtain ⟨taken, refusesLine⟩ := offerLine_eq_some_iff.1 ended
    obtain ⟨middle, demand, takes, refused⟩ := ask_of_refusesLine refusesLine
    exact (refusal_of_asked refused).trans (refusal_of_takes takes)

/-- Lines change what a sink was asked for, and not how it answers. -/
theorem refusal_offerLines (sink : Sink) (lines : List (List Bytes)) :
    (sink.offerLines lines).refusal = sink.refusal := by
  induction lines generalizing sink with
  | nil => rfl
  | cons texts lines ih => exact (ih _).trans (sink.refusal_offerLine _)

/-! ## A sink of limited size -/

section

variable {limit : Nat} (rule : sink.refusal = (limited limit reason).refusal)

include rule

theorem offer_limited (piece : Bytes) : (sink.offer piece).1 =
    if limit < sink.written.length + piece.length then some reason else none := by
  rw [written, History.length_written]
  exact congrFun₂ rule sink.history (.take piece)

/-- A sink that has taken no more than its limit takes pieces exactly if they fit. -/
theorem takes_limited_iff (room : sink.written.length ≤ limit) :
    (∃ last, sink.Takes pieces last) ↔ sink.written.length + pieces.flatten.length ≤ limit := by
  induction pieces generalizing sink with
  | nil => exact ⟨fun _ => by simpa using room, fun _ => ⟨sink, .nil sink⟩⟩
  | cons piece pieces ih =>
    have answer := sink.offer_limited rule piece
    rw [List.flatten_cons, List.length_append]
    rcases offered : sink.offer piece with ⟨refusal, next⟩
    rw [offered] at answer
    by_cases fits : sink.written.length + piece.length ≤ limit
    · obtain rfl : refusal = none := answer.trans (if_neg (Nat.not_lt.2 fits))
      have size : next.written.length = sink.written.length + piece.length := by
        rw [written_of_taken offered, List.length_append]
      rw [← Nat.add_assoc, ← size, ← ih ((refusal_of_asked offered).trans rule) (size ▸ fits)]
      constructor
      · rintro ⟨last, _ | ⟨accepted, takes⟩⟩
        rw [offered] at accepted
        cases accepted
        exact ⟨last, takes⟩
      · rintro ⟨last, takes⟩
        exact ⟨last, .cons offered takes⟩
    · obtain rfl : refusal = some reason := answer.trans (if_pos (Nat.not_le.1 fits))
      refine ⟨?_, fun small => absurd small (by omega)⟩
      rintro ⟨last, _ | ⟨accepted, _⟩⟩
      rw [offered] at accepted
      cases accepted

theorem length_offerLine_le (room : sink.written.length ≤ limit) (pieces : List Bytes) :
    (sink.offerLine pieces).2.written.length ≤ limit := by
  rcases ended : sink.offerLine pieces with ⟨_ | refusal, last⟩
  · have takesLine := offerLine_eq_none_iff.1 ended
    rw [written_of_takesLine takesLine, List.length_append]
    obtain ⟨full, takes, _⟩ := takesLine
    exact (takes_limited_iff rule room).1 ⟨full, takes⟩
  · obtain ⟨taken, refusesLine⟩ := offerLine_eq_some_iff.1 ended
    rw [written_of_refusesLine refusesLine, List.length_append]
    obtain ⟨middle, _, takes, _⟩ := ask_of_refusesLine refusesLine
    exact (takes_limited_iff rule room).1 ⟨middle, takes⟩

/-- Whatever lines it is offered, it never has more. -/
theorem length_offerLines_le (room : sink.written.length ≤ limit) (lines : List (List Bytes)) :
    (sink.offerLines lines).written.length ≤ limit := by
  induction lines generalizing sink with
  | nil => exact room
  | cons texts lines ih =>
    exact ih ((sink.refusal_offerLine _).trans rule) (sink.length_offerLine_le rule room _)

end

end Sink

/-- Whatever returns, the sink was offered whole lines, one after another, and nothing else. -/
theorem frame_offerLines : Frame fun before after =>
    ∃ lines, after.sink = before.sink.offerLines lines where
  refl _ := ⟨[], rfl⟩
  trans := by
    rintro first second third ⟨lines, same⟩ ⟨lines', same'⟩
    refine ⟨lines ++ lines', ?_⟩
    rw [same', same, Sink.offerLines, Sink.offerLines, Sink.offerLines, List.foldl_append]
  alloc _ _ _ := ⟨[], rfl⟩
  push _ _ _ _ _ _ := ⟨[], rfl⟩
  store _ _ _ _ _ _ _ _ := ⟨[], rfl⟩
  field _ _ _ _ _ _ _ := ⟨[], rfl⟩
  write _ texts := ⟨[texts], rfl⟩
  marking _ _ _ _ _ h := h

/-! ## Printing a line -/

/-- A visit without a fault that no answer ends takes all items. -/
theorem Exec.Visits.all {α ι : Type} {step : List (ι × α) → ι → Exec α} {earlier visited : List (ι × α)}
    {items : List ι} {fault : Option Fault} {before last : State}
    (visits : Exec.Visits step (fun _ => true) earlier before items visited fault last)
    (whole : fault = none) : visited.map (·.1) = items := by
  induction visits with
  | done => rfl
  | more _ _ _ ih => rw [List.map_cons, ih whole]
  | decided _ _ stops => cases stops
  | failed => cases whole

namespace Engine

open Exec

/-- What the sink is offered of a line: its pieces but for the empty ones. -/
def offers (texts : List Bytes) : List Bytes := (linePieces texts).filter (!·.isEmpty)

theorem flatten_linePieces (texts : List Bytes) : (linePieces texts).flatten =
    (texts.intersperse (Utf8.ofString " ")).flatten ++ Utf8.ofString "\n" := by
  rw [linePieces, List.flatten_append]
  simp

theorem flatten_offers (texts : List Bytes) : (offers texts).flatten =
    (texts.intersperse (Utf8.ofString " ")).flatten ++ Utf8.ofString "\n" := by
  rw [offers, List.flatten_filter_not_isEmpty, flatten_linePieces]

/-- How a line of values is printed: the conversions of the values visited, up to a fault if one is
met, end in the state `converted`. -/
structure Prints (engine : Engine) (values : List Ref) (before : State)
    (visited : List (Ref × Bytes)) (fault : Option Fault) (converted : State) : Prop where
  /-- The texts are made in order. -/
  visits : Visits (fun _ value => do Exec.bytesOf (← engine.textOf value)) (fun _ => true) [] before
    values visited fault converted
  /-- Lines that the conversions print are offered one after another, before this one, and what they
  wrote stays. -/
  nested : (∀ reason ∈ fault, ∃ error, reason = .error error) →
    (∃ lines, converted.sink = before.sink.offerLines lines) ∧
      before.sink.written <+: converted.sink.written
  /-- A fault of a conversion is that of the line, and nothing happens after it. -/
  failed : ∀ reason ∈ fault, engine.printLine values before = .error reason converted
  /-- Otherwise all texts are made. -/
  all : fault = none → visited.map (·.1) = values
  /-- The line is printed exactly if the sink takes its pieces and is flushed. -/
  ok_iff : fault = none → ∀ after, engine.printLine values before = .ok () after ↔
    ∃ sink, converted.sink.TakesLine (offers (visited.map (·.2))) sink ∧
      after = { converted with sink }
  /-- It fails exactly if the sink refuses a piece, with the pieces before written, or refuses to be
  flushed, with all pieces written. -/
  error_iff : fault = none → ∀ reason after, engine.printLine values before = .error reason after ↔
    ∃ taken refusal sink, converted.sink.RefusesLine (offers (visited.map (·.2))) taken refusal sink ∧
      reason = .error (.outputRefused refusal) ∧ after = { converted with sink } ∧
        sink.written = converted.sink.written ++ taken.flatten
  /-- For a sink that can always be flushed, this is a matter of the pieces only. -/
  by_pieces : (∀ history, before.sink.refusal history .flush = none) → fault = none →
    ((∃ after, engine.printLine values before = .ok () after) ↔
      ∃ full, converted.sink.Takes (offers (visited.map (·.2))) full) ∧
    ((∃ reason after, engine.printLine values before = .error reason after) ↔
      ∃ taken refusal last, converted.sink.Refuses (offers (visited.map (·.2))) taken refusal last)
  /-- A printed line is written whole. -/
  written : fault = none → ∀ after, engine.printLine values before = .ok () after →
    after.sink.written = converted.sink.written ++
      (List.intersperse (Utf8.ofString " ") (visited.map (·.2))).flatten ++ Utf8.ofString "\n"

variable (engine : Engine) (values : List Ref) (before : State)

theorem printLine_of_failed {reason : Fault} {converted : State}
    (failed : engine.texts values before = .error reason converted) :
    engine.printLine values before = .error reason converted := bind_error failed

/-- After the texts are made, the pieces are offered and no method runs. -/
theorem printLine_of_texts {texts : List Bytes} {converted : State}
    (made : engine.texts values before = .ok texts converted) :
    (∀ after, engine.printLine values before = .ok () after ↔
      ∃ sink, converted.sink.TakesLine (offers texts) sink ∧ after = { converted with sink }) ∧
    ∀ reason after, engine.printLine values before = .error reason after ↔
      ∃ taken refusal sink, converted.sink.RefusesLine (offers texts) taken refusal sink ∧
        reason = .error (.outputRefused refusal) ∧ after = { converted with sink } ∧
          sink.written = converted.sink.written ++ taken.flatten := by
  have same : engine.printLine values before = write (linePieces texts) converted := bind_ok made
  rw [same]
  simp only [offers, ← Sink.offerLine_eq_none_iff]
  unfold write
  rcases ended : converted.sink.offerLine (linePieces texts) with ⟨answer, sink⟩
  cases answer with
  | none =>
    refine ⟨fun after => ⟨?_, ?_⟩, fun reason after => ⟨?_, ?_⟩⟩
    · rintro ⟨⟩
      exact ⟨sink, rfl, rfl⟩
    · rintro ⟨_, ⟨⟩, rfl⟩
      rfl
    · rintro ⟨⟩
    · rintro ⟨taken, refusal, last, refuses, _⟩
      rw [Sink.offerLine_eq_some_iff.2 ⟨taken, refuses⟩] at ended
      cases ended
  | some refusal =>
    obtain ⟨taken, refuses⟩ := Sink.offerLine_eq_some_iff.1 ended
    refine ⟨fun after => ⟨?_, ?_⟩, fun reason after => ⟨?_, ?_⟩⟩
    · rintro ⟨⟩
    · rintro ⟨_, ⟨⟩, _⟩
    · rintro ⟨⟩
      exact ⟨taken, refusal, sink, refuses, rfl, rfl, Sink.written_of_refusesLine refuses⟩
    · rintro ⟨taken, refusal, last, refuses, rfl, rfl, _⟩
      rw [Sink.offerLine_eq_some_iff.2 ⟨taken, refuses⟩] at ended
      cases ended
      rfl

/-- Where flushing always succeeds, a line fails only at a piece. -/
theorem printLine_by_pieces {texts : List Bytes} {converted : State}
    (made : engine.texts values before = .ok texts converted)
    (flushes : ∀ history, converted.sink.refusal history .flush = none) :
    ((∃ after, engine.printLine values before = .ok () after) ↔
      ∃ full, converted.sink.Takes (offers texts) full) ∧
    ((∃ reason after, engine.printLine values before = .error reason after) ↔
      ∃ taken refusal last, converted.sink.Refuses (offers texts) taken refusal last) := by
  obtain ⟨ok_iff, error_iff⟩ := engine.printLine_of_texts values before made
  have flushed {full : Sink} (takes : converted.sink.Takes (offers texts) full) :
      full.flush = (none, full.flush.2) := by
    refine Prod.ext ?_ rfl
    exact (congrFun₂ (Sink.refusal_of_takes takes) full.history .flush).trans (flushes _)
  refine ⟨⟨?printed, ?takes⟩, ?failed, ?refuses⟩
  case printed =>
    rintro ⟨after, printed⟩
    obtain ⟨_, ⟨full, takes, _⟩, _⟩ := (ok_iff after).1 printed
    exact ⟨full, takes⟩
  case takes =>
    rintro ⟨full, takes⟩
    exact ⟨_, (ok_iff _).2 ⟨_, ⟨full, takes, flushed takes⟩, rfl⟩⟩
  case failed =>
    rintro ⟨reason, after, failed⟩
    obtain ⟨taken, refusal, last, refuses | ⟨_, full, takes, unflushed⟩, _⟩ :=
      (error_iff reason after).1 failed
    · exact ⟨taken, refusal, last, refuses⟩
    · rw [flushed takes] at unflushed
      cases unflushed
  case refuses =>
    rintro ⟨taken, refusal, last, refuses⟩
    exact ⟨_, _, (error_iff _ _).2 ⟨taken, refusal, last, .inl refuses, rfl, rfl,
      Sink.written_of_refusesLine (.inl refuses)⟩⟩

/-- A line that is printed is written whole, behind what the conversions wrote. -/
theorem written_of_printed {texts : List Bytes} {converted after : State}
    (made : engine.texts values before = .ok texts converted)
    (printed : engine.printLine values before = .ok () after) :
    after.sink.written = converted.sink.written ++
      (List.intersperse (Utf8.ofString " ") texts).flatten ++ Utf8.ofString "\n" := by
  obtain ⟨sink, takes, rfl⟩ := ((engine.printLine_of_texts values before made).1 after).1 printed
  rw [Sink.written_of_takesLine takes, flatten_offers, List.append_assoc]

end Engine

namespace Machine

open Exec

variable (machine : Machine) (depth : Nat) (values : List Ref) (before : State)

/-- The conversions of a line print whole lines, one after another, and lose nothing. -/
theorem sink_of_texts {converted : State}
    (returned : ((machine.engine depth).texts values).Returns before converted) :
    (∃ lines, converted.sink = before.sink.offerLines lines) ∧
      before.sink.written <+: converted.sink.written := by
  have keeps : Keeps (fun before after => ∃ lines, after.sink = before.sink.offerLines lines)
      ((machine.engine depth).texts values) :=
    Engine.keeps_texts frame_offerLines _ (machine.keeps_invoke frame_offerLines depth) values
  obtain ⟨lines, same⟩ := keeps before converted returned
  exact ⟨⟨lines, same⟩, same ▸ before.sink.written_offerLines lines⟩

/-- **A line is written whole, as the part before the first refused piece, or not at all**, whatever
methods make the texts of its values and whatever lines these print. A sink that takes all pieces may
still refuse to be flushed: the line has then been written whole, and the refusal is an error as that
of a piece is. -/
theorem printLine_whole_part_or_nothing : ∃ visited fault converted,
    (machine.engine depth).Prints values before visited fault converted := by
  have loops : Loops [] ((machine.engine depth).texts values) values _ _ _ := Engine.loops_texts values
  obtain ⟨visited, fault, converted, visits, ran⟩ := loops before
  refine ⟨visited, fault, converted, visits, fun ordinary => ?nested, ?failed, visits.all, ?ok, ?error,
    fun flushes => ?by_pieces, ?written⟩
  case nested =>
    apply machine.sink_of_texts depth values before
    cases fault with
    | none => exact .inl ⟨_, ran⟩
    | some reason =>
      obtain ⟨error, rfl⟩ := ordinary reason rfl
      exact .inr ⟨error, ran⟩
  case failed =>
    rintro reason ⟨⟩
    exact (machine.engine depth).printLine_of_failed values before ran
  case ok =>
    rintro rfl
    exact ((machine.engine depth).printLine_of_texts values before ran).1
  case error =>
    rintro rfl
    exact ((machine.engine depth).printLine_of_texts values before ran).2
  case by_pieces =>
    rintro rfl
    obtain ⟨⟨lines, same⟩, _⟩ := machine.sink_of_texts depth values before (.inl ⟨_, ran⟩)
    refine (machine.engine depth).printLine_by_pieces values before ran fun history => ?_
    rw [same, Sink.refusal_offerLines]
    exact flushes history
  case written =>
    rintro rfl after printed
    exact (machine.engine depth).written_of_printed values before ran printed

/-- On a sink of limited size a line is printed exactly if it fits behind what its texts print. -/
theorem printLine_limited_iff {limit : Nat} {reason : String} {texts : List Bytes} {converted : State}
    (rule : before.sink.refusal = (Sink.limited limit reason).refusal)
    (room : before.sink.written.length ≤ limit)
    (made : (machine.engine depth).texts values before = .ok texts converted) :
    (∃ after, (machine.engine depth).printLine values before = .ok () after) ↔
      converted.sink.written.length + (Engine.linePieces texts).flatten.length ≤ limit := by
  obtain ⟨⟨lines, same⟩, _⟩ := machine.sink_of_texts depth values before (.inl ⟨_, made⟩)
  have later : converted.sink.refusal = (Sink.limited limit reason).refusal := by
    rw [same, Sink.refusal_offerLines, rule]
  have within : converted.sink.written.length ≤ limit := by
    rw [same]
    exact before.sink.length_offerLines_le rule room lines
  have flushes (history : History) : converted.sink.refusal history .flush = none := by
    rw [later]
    rfl
  rw [((machine.engine depth).printLine_by_pieces values before made flushes).1,
    Sink.takes_limited_iff later within, Engine.flatten_offers, Engine.flatten_linePieces]

/-- Room for five octets: the value and the space are written, and the next value is refused. -/
example :
    let state : State := { bareState with sink := .limited 5 "full" }
    ∃ after, bare.printLine [bare.boolValue true, bare.noneValue] state =
        .error (.error (.outputRefused "full")) after ∧
      after.sink.written = Utf8.ofString "true " :=
  ⟨_, rfl, rfl⟩

/-- A sink that takes everything and passes on nothing has the whole line. -/
example :
    let refusal (_ : History) : Demand → Option String
      | .take _ => none
      | .flush => some "closed"
    let state : State := { bareState with sink := ⟨refusal, .empty⟩ }
    ∃ after, bare.printLine [bare.boolValue true] state =
        .error (.error (.outputRefused "closed")) after ∧
      after.sink.written = Utf8.ofString "true\n" :=
  ⟨_, rfl, rfl⟩

/-- A value whose text is made by printing `true`: that line stands before the one with the text. -/
example :
    let herald : Entry := ⟨"Herald", [.function "toString" (.exactly 1) fun _ => do
      Program.ofExcept (← Program.request (.printLine [bare.boolValue true]))
      Program.request (.string [104])]⟩
    let heralding : Machine := { bare with table := ⟨bare.table.entries.push (some herald)⟩ }
    let state : State := { bareState with heap := (bareState.heap.alloc ⟨⟨6⟩, .record []⟩).2 }
    ∃ after, heralding.printLine [⟨6⟩, bare.noneValue] state = .ok () after ∧
      after.sink.written = Utf8.ofString "true\nh None\n" :=
  ⟨_, rfl, rfl⟩

end Machine

end BoxedValues
