import BoxedValues.Text.Utf8

/-!
# Output

The writer that lines go to, as a model of what `println` uses of it: `write_all` and `flush`. A
sink takes output piece by piece, and at the end of a line it is told to pass on what it took. It
may refuse either, and whether it does may depend on everything that it was asked before, so a sink
is its history together with its rule.
-/

set_option autoImplicit false

namespace BoxedValues

/-- What a sink is asked for. -/
inductive Demand where
  /-- To take a piece. -/
  | take (piece : Bytes)
  /-- To pass on what it took. -/
  | flush

/-- What a sink was asked for, and whether it complied. -/
structure Reply where
  demand : Demand
  granted : Bool

namespace Reply

/-- The octets that the sink got. -/
def taken (reply : Reply) : Bytes :=
  match reply.demand with
  | .take piece => if reply.granted then piece else []
  | .flush => []

end Reply

/-- What a sink was asked for so far. -/
structure History where
  /-- The replies, newest first. -/
  replies : List Reply
  /-- The number of octets that were taken. -/
  size : Nat
  size_eq : size = (replies.flatMap Reply.taken).length

namespace History

/-- The history of a sink that was asked for nothing. -/
def empty : History := ⟨[], 0, rfl⟩

/-- The history with one more reply. -/
def add (history : History) (reply : Reply) : History where
  replies := reply :: history.replies
  size := reply.taken.length + history.size
  size_eq := by rw [history.size_eq, List.flatMap_cons, List.length_append]

/-- The octets that were taken, in the order in which they were offered. -/
def written (history : History) : Bytes := history.replies.reverse.flatMap Reply.taken

theorem written_add (history : History) (reply : Reply) :
    (history.add reply).written = history.written ++ reply.taken := by
  simp [written, add]

theorem length_written (history : History) : history.written.length = history.size := by
  simp only [written, history.size_eq, List.length_flatMap, List.map_reverse, List.sum_reverse]

end History

/-- Where printed lines go. -/
structure Sink where
  /-- Why the sink refuses a demand after the given history, or `none` if it complies. -/
  refusal : History → Demand → Option String
  history : History

namespace Sink

/-- A sink that refuses nothing. -/
def unlimited : Sink := ⟨fun _ _ => none, .empty⟩

/-- The octets that the sink has taken. -/
def written (sink : Sink) : Bytes := sink.history.written

/-- A sink that refuses a piece which would bring it above so many octets. -/
def limited (limit : Nat) (reason : String) : Sink where
  refusal history
    | .take piece => if limit < history.size + piece.length then some reason else none
    | .flush => none
  history := .empty

/-- The sink after a demand, and the reason if it refused. -/
def ask (sink : Sink) (demand : Demand) : Option String × Sink :=
  let reason := sink.refusal sink.history demand
  (reason, { sink with history := sink.history.add ⟨demand, reason.isNone⟩ })

/-- The sink after it was offered a piece, and the reason if it refused. -/
def offer (sink : Sink) (piece : Bytes) : Option String × Sink := sink.ask (.take piece)

/-- The sink after it was told to pass on what it took, and the reason if it could not. -/
def flush (sink : Sink) : Option String × Sink := sink.ask .flush

/-- The sink after it was offered pieces up to the first that it refused. An empty piece is no
offer. -/
def offerAll (sink : Sink) : List Bytes → Option String × Sink
  | [] => (none, sink)
  | piece :: rest =>
    if piece.isEmpty then sink.offerAll rest
    else
      match sink.offer piece with
      | (none, sink) => sink.offerAll rest
      | (some reason, sink) => (some reason, sink)

/-- The sink after it was offered the pieces of a line. It is flushed if it took all of them. -/
def offerLine (sink : Sink) (pieces : List Bytes) : Option String × Sink :=
  match sink.offerAll pieces with
  | (none, sink) => sink.flush
  | (some reason, sink) => (some reason, sink)

end Sink

end BoxedValues
