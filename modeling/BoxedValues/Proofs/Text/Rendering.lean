import BoxedValues.Proofs.Heap.Folding
import BoxedValues.Proofs.Machine.Giving

/-!
# Machines render graphs

The text that a machine gives for a value of builtin types is what one walk through the graph makes
of it (`Heap.text`): scalars and strings are spelled out, arrays put the texts of their elements in
brackets, and an array within itself is `[...]`, unless it is empty.

`Machine.renders` says this of a machine that nests calls deeply enough, and `gives_textOf` of
values rendered from outside.
-/

set_option autoImplicit false

namespace BoxedValues

/-- The text of a payload that has no elements. -/
def Payload.text : Payload → Bytes
  | .none => Utf8.ofString "None"
  | .bool value => Utf8.ofString (if value then "true" else "false")
  | .int value => Utf8.encode (Numeral.ofInt value.toInt)
  | .float value => Utf8.encode value.fixedText
  | .string bytes => bytes
  | .array _ => []
  | .record _ => []

namespace Engine

/-! ## The size of a text -/

variable {engine : Engine} {texts : List Bytes}

theorem length_flatten_intersperse (separator text : Bytes) (texts : List Bytes) :
    ((text :: texts).intersperse separator).flatten.length =
      totalSize (text :: texts) + separator.length * texts.length := by
  induction texts generalizing text with
  | nil => simp [totalSize]
  | cons next texts ih =>
    have total : totalSize (text :: next :: texts) = text.length + totalSize (next :: texts) := rfl
    rw [List.intersperse_cons_cons, List.flatten_cons, List.flatten_cons, List.length_append,
      List.length_append, ih next, total, List.length_cons, Nat.mul_add]
    omega

/-- The size that is reckoned is that of what is written. -/
theorem reckonedSize?_eq (filled : texts ≠ []) :
    reckonedSize? texts = some (bracketed texts).length := by
  obtain ⟨text, rest, rfl⟩ := List.exists_cons_of_ne_nil filled
  have brackets : (Utf8.ofString "[").length = 1 ∧ (Utf8.ofString "]").length = 1 := by decide
  have comma : (Utf8.ofString ", ").length = 2 := by decide
  have inner := length_flatten_intersperse (Utf8.ofString ", ") text rest
  rw [comma] at inner
  unfold reckonedSize? bracketed
  rw [if_neg (by simp), List.length_append, List.length_append, inner, brackets.1, brackets.2]
  simp only [List.length_cons, Nat.add_sub_cancel, Option.some.injEq]
  omega

/-- So a string is made of any texts. -/
theorem newBracketed_eq (filled : texts ≠ []) :
    engine.newBracketed texts = engine.machine.newString (bracketed texts) := by
  unfold newBracketed
  rw [reckonedSize?_eq filled]
  exact if_pos rfl

end Engine

namespace Heap

/-- The walk that makes texts. -/
def textWalk : Walk Bytes where
  leaf _ payload := payload.text
  cut items := if items.isEmpty then Utf8.ofString "[]" else Utf8.ofString "[...]"
  node := Engine.bracketed

/-- The text of a value inside the given arrays. -/
def text (heap : Heap) (inside : List Ref) (value : Ref) : Bytes := heap.fold textWalk inside value

variable {heap : Heap} {inside : List Ref} {value : Ref} {buffer : Buffer}

theorem text_leaf (leaf : ∀ buffer, (heap.get value).payload ≠ .array buffer) :
    heap.text inside value = (heap.get value).payload.text := fold_leaf leaf

/-- An empty array has the same text everywhere. -/
theorem text_empty (held : (heap.get value).payload = .array buffer) (empty : buffer.live = []) :
    heap.text inside value = Utf8.ofString "[]" := by
  unfold text
  rw [fold_array held, empty]
  split
  · rfl
  · rfl

theorem text_inside (held : (heap.get value).payload = .array buffer) (filled : buffer.live ≠ [])
    (within : value ∈ inside) : heap.text inside value = Utf8.ofString "[...]" := by
  unfold text
  rw [fold_array held, if_pos within]
  exact if_neg fun empty => filled (List.isEmpty_iff.1 empty)

theorem text_outside (held : (heap.get value).payload = .array buffer) (fresh : value ∉ inside) :
    heap.text inside value =
      Engine.bracketed (buffer.live.map (heap.text (value :: inside))) := by
  unfold text
  rw [fold_array held, if_neg fresh]
  rfl

end Heap

namespace Machine

variable {machine : Machine} {base : Heap} {state : State} {value : Ref} {depth : Nat}

/-- The reference is that of a string. -/
def IsText (bytes : Bytes) (ref : Ref) (heap : Heap) : Prop :=
  (heap.get ref).payload = .string bytes

theorem gives_newString (bytes : Bytes) (state : State) :
    (machine.newString bytes).Gives state (IsText bytes) := by
  apply (Exec.gives_alloc _ state).mono
  intro ref heap held
  unfold IsText
  rw [held.get]

theorem gives_newBracketed {texts : List Bytes} (filled : texts ≠ []) (state : State) :
    ((machine.engine depth).newBracketed texts).Gives state
      (IsText (Engine.bracketed texts)) := by
  rw [Engine.newBracketed_eq filled]
  exact gives_newString _ state

/-- Texts on a machine that nests calls less than `depth` deep are those of the walk through
`base`, if that has no more boxes than `depth` allows. -/
def Renders (machine : Machine) (base : Heap) (depth : Nat) : Prop :=
  ∀ {state value}, machine.Shares state.heap → base.Carries state.heap machine.IsBuiltin value →
    unmarked base.refs state.marks.text < depth →
      ((machine.engine depth).textOf value).Gives state (IsText (base.text state.marks.text value))

section

variable (renders : machine.Renders base depth) (shares : machine.Shares state.heap)

include renders shares

theorem gives_texts (values : List Ref)
    (carries : ∀ value ∈ values, base.Carries state.heap machine.IsBuiltin value)
    (room : unmarked base.refs state.marks.text < depth) :
    ((machine.engine depth).texts values).Gives state fun texts _ =>
      texts = values.map (base.text state.marks.text) := by
  apply Exec.gives_mapM values
  intro value mem after grows
  rw [← grows.marks] at room ⊢
  apply (renders (shares.persists grows.heap.persists) ((carries value mem).extends grows.heap)
    room).bind
  intro ref later _ isText
  refine Exec.gives_bind_ok (Exec.payload_ok ref later) (Exec.gives_pure ?_)
  rw [isText]
  rfl

variable (carries : base.Carries state.heap machine.IsBuiltin value)
  (room : unmarked base.refs state.marks.text < depth + 1)

include carries room

theorem gives_arrayText {buffer : Buffer} (held : (base.get value).payload = .array buffer) :
    ((machine.engine depth).arrayText value buffer.live).Gives state
      (IsText (base.text state.marks.text value)) := by
  unfold Engine.arrayText
  by_cases empty : buffer.live = []
  · rw [Heap.text_empty held empty, empty]
    exact gives_newString _ state
  rw [if_neg fun isEmpty => empty (List.isEmpty_iff.1 isEmpty)]
  by_cases inside : value ∈ state.marks.text
  · rw [Heap.text_inside held empty inside]
    apply (Exec.gives_marking_of_mem inside).bind
    intro texts after _ none
    rw [none]
    exact gives_newString _ after
  · have smaller := unmarked_cons_lt (Heap.mem_refs_of_array held) inside
    have marked : machine.Shares { state with
        marks := Exec.textMarks.set (value :: state.marks.text) state.marks }.heap := shares
    have body := gives_texts renders marked buffer.live
      (fun item mem => carries.of_mem (by rwa [Heap.items_of_array held])) (by
        show unmarked base.refs (value :: state.marks.text) < depth
        omega)
    rw [Heap.text_outside held inside]
    apply (Exec.gives_marking Exec.lawful_textMarks inside body).bind
    intro texts after _ h
    obtain ⟨values, rfl, rfl⟩ := h
    exact gives_newBracketed (mt List.map_eq_nil_iff.1 empty) after

/-- The methods of the builtin types. -/
theorem gives_text {type : BuiltinType} (kind : (base.get value).payload.kind = .builtin type) :
    ((machine.engine depth).text type [value]).Gives state
      (IsText (base.text state.marks.text value)) := by
  have got := carries.self.1
  have scalar : (∀ buffer, (base.get value).payload ≠ .array buffer) →
      base.text state.marks.text value = (base.get value).payload.text := Heap.text_leaf
  cases held : (base.get value).payload with
  | none =>
    rw [held] at kind scalar
    cases kind
    refine Exec.gives_bind_ok (Arguments.receiver_ok (by rw [got, held]; rfl)) ?_
    refine Exec.gives_pure ?_
    rw [scalar fun _ => Payload.noConfusion]
    exact congrArg Box.payload shares.noneText.get
  | bool flag =>
    rw [held] at kind scalar
    cases kind
    refine Exec.gives_bind_ok (Arguments.receiver_ok (by rw [got, held]; rfl)) ?_
    refine Exec.gives_pure ?_
    rw [scalar fun _ => Payload.noConfusion]
    exact congrArg Box.payload (shares.boolText flag).get
  | string bytes =>
    rw [held] at kind scalar
    cases kind
    refine Exec.gives_bind_ok (Arguments.receiver_ok (by rw [got, held]; rfl)) ?_
    refine Exec.gives_of_ok (Arguments.given_zero state) ?_
    rw [scalar fun _ => Payload.noConfusion]
    unfold IsText
    rw [got, held]
    rfl
  | array buffer =>
    rw [held] at kind
    cases kind
    refine Exec.gives_bind_ok (Arguments.receiver_ok (by rw [got, held]; rfl)) ?_
    exact Exec.gives_bind_ok (Arguments.given_zero state)
      (gives_arrayText renders shares carries room held)
  | record fields =>
    rw [held] at kind
    cases kind
  | _ =>
    rw [held] at kind scalar
    cases kind
    refine Exec.gives_bind_ok (Arguments.receiver_ok (by rw [got, held]; rfl)) ?_
    rw [scalar fun _ => Payload.noConfusion]
    exact gives_newString _ state

end

/-- Texts that nest one level deeper. -/
theorem renders_succ (complete : machine.Complete) (renders : machine.Renders base depth) :
    machine.Renders base (depth + 1) := by
  intro state value shares carries room
  obtain ⟨got, type, kind, id⟩ := carries.self
  unfold Engine.textOf
  refine Exec.gives_bind_ok (entryOf_builtin complete (by rwa [got])) ?_
  rw [BuiltinType.common?_entry]
  have run : ((machine.engine (depth + 1)).invoke (.builtin (.common type .toText)) [value]).Gives
      state (IsText (base.text state.marks.text value)) := by
    rw [invoke_common rfl]
    exact gives_text renders shares carries room kind
  apply run.bind
  intro ref after _ isText
  refine Exec.gives_bind_ok (Exec.box_ok ref after) ?_
  unfold IsText at isText
  rw [isText]
  exact Exec.gives_pure isText

theorem renders (complete : machine.Complete) (base : Heap) (depth : Nat) :
    machine.Renders base depth := by
  induction depth with
  | zero => exact fun _ _ room => absurd room (Nat.not_lt_zero _)
  | succ depth ih => exact renders_succ complete ih

/-- Rendering a value returns the text that the walk makes on any heap that the value comes
from. -/
theorem gives_textOf (live : machine.Live state) (fits : base.size ≤ state.heap.size)
    (carries : base.Carries state.heap machine.IsBuiltin value) :
    (machine.textOf value).Gives state (IsText (base.text state.marks.text value)) := by
  apply gives_act
  exact renders live.complete base _ live.shares carries (machine.unmarked_refs_lt_depth fits _)

end Machine

end BoxedValues
