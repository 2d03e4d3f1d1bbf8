import BoxedValues.Heap.Basic
import BoxedValues.MachineError

/-!
# Programs of registered methods

Reference model of the functions that a `Function` or a `Closure` holds, which are given the
`Runtime` and may call whatever it has. The body of a registered method is a tree of requests to the
machine that runs it: it asks, goes on with the answer, and in the end returns a value or fails.
Whatever the body does between two requests is a pure function of the answers, so a statement about
all bodies is an induction on the tree.
-/

set_option autoImplicit false

namespace BoxedValues

/-- What a program can see of a value. Spare slots of an array are out of sight. -/
inductive View where
  | none
  | bool (value : Bool)
  | int (value : Int64)
  | float (value : Double)
  | string (bytes : Bytes)
  | array (items : List Ref) (capacity : Nat)
  | record (fields : List Ref)

/-- The visible part of a payload. -/
def Payload.view : Payload → View
  | .none => .none
  | .bool value => .bool value
  | .int value => .int value
  | .float value => .float value
  | .string bytes => .string bytes
  | .array buffer => .array buffer.live buffer.capacity
  | .record fields => .record fields

/-- What a program can ask of the machine. -/
inductive Request where
  /-- The `None` value. -/
  | none
  /-- One of the two `Bool` values. -/
  | bool (value : Bool)
  /-- A new `Int`. -/
  | int (value : Int64)
  /-- A new `Float`. -/
  | float (value : Double)
  /-- A new `String`. -/
  | string (bytes : Bytes)
  /-- A new `Array` of the given elements. -/
  | array (items : List Ref)
  /-- A new `Array` of so many `None`s, with room for more. -/
  | filledArray (length capacity : Nat)
  /-- A new record. -/
  | record (type : TypeId) (fields : List Ref)
  /-- The type of a value. -/
  | typeOf (value : Ref)
  /-- The contents of a value. -/
  | view (value : Ref)
  /-- Store into a slot of an array. -/
  | set (array : Ref) (index : Nat) (item : Ref)
  /-- Append to an array. -/
  | push (array item : Ref)
  /-- Replace a field of a record; the answer is its previous value. -/
  | setField (value : Ref) (index : Nat) (item : Ref)
  /-- The text of a value, as a `String`. -/
  | text (value : Ref)
  /-- Whether two values are equal. -/
  | equal (first second : Ref)
  /-- The hash of a value. -/
  | hash (value : Ref)
  /-- Call the method in a slot of the first argument's type. -/
  | call (slot : Nat) (args : List Ref)
  /-- Call the method in a slot of a given type. -/
  | invoke (type : TypeId) (slot : Nat) (args : List Ref)
  /-- Print a line of values. -/
  | printLine (items : List Ref)

/-- What a request is answered with. Requests that run other methods can fail, and the program may
go on after that. -/
abbrev Request.Answer : Request → Type
  | .none => Ref
  | .bool _ => Ref
  | .int _ => Ref
  | .float _ => Ref
  | .string _ => Ref
  | .array _ => Ref
  | .filledArray _ _ => Ref
  | .record _ _ => Ref
  | .typeOf _ => TypeId
  | .view _ => View
  | .set _ _ _ => Unit
  | .push _ _ => Unit
  | .setField _ _ _ => Option Ref
  | .text _ => Except MachineError Ref
  | .equal _ _ => Except MachineError Bool
  | .hash _ => Except MachineError Int64
  | .call _ _ => Except MachineError Ref
  | .invoke _ _ _ => Except MachineError Ref
  | .printLine _ => Except MachineError Unit

/-- A method body that returns an `α`. -/
inductive Program (α : Type) where
  | done (result : α)
  | fail (error : MachineError)
  | ask (request : Request) (next : request.Answer → Program α)

namespace Program

/-- One program after another. -/
def bind {α β : Type} : Program α → (α → Program β) → Program β
  | .done result, next => next result
  | .fail error, _ => .fail error
  | .ask request rest, next => .ask request fun answer => (rest answer).bind next

instance : Monad Program where
  pure := done
  bind := bind

/-- A single request. -/
def request (request : Request) : Program request.Answer := .ask request .done

/-- The result of a request that can fail; its failure is the program's own. -/
def ofExcept {α : Type} : Except MachineError α → Program α
  | .ok result => .done result
  | .error error => .fail error

end Program

end BoxedValues
