import BoxedValues.Proofs.Machine.Singletons

/-!
# Calls that make one box

A call from outside looks up the entry of the receiver, looks at the arguments, and as its last act
makes a box or gives one back. The rules of this module lead `Exec.MakesNew` through the steps that
come before and after that act.

* `Exec.MakesNew.bind_ok` and `Exec.Gives.bind_makesNew` are the rules for what stands around it;
* `Machine.textOf_makesNew`: the text of a number is a new string of its numeral.
-/

set_option autoImplicit false

namespace BoxedValues

namespace Exec

variable {α : Type} {action : Exec α} {maker : Exec Ref} {next : α → Exec Ref} {before : State}
  {box : Box}

/-- What is looked at first makes no difference. -/
theorem makesNew_bind {result : α} (h : action before = .ok result before)
    (rest : (next result).MakesNew before box) : (action >>= next).MakesNew before box :=
  rest.of_eq (bind_ok h)

/-- Nor does a look at the box afterwards. -/
theorem MakesNew.bind_ok {check : Ref → Exec Ref} (h : maker.MakesNew before box)
    (rest : ∀ ref after, after.heap.Holds ref box → check ref after = .ok ref after) :
    (maker >>= check).MakesNew before box := by
  obtain ⟨ref, after, ran, held, fresh, grown⟩ := h
  refine ⟨ref, after, ?_, held, fresh, grown⟩
  rw [Exec.bind_ok ran, rest ref after held]

/-- Boxes that are added on the way are none of those that were there. -/
theorem Gives.bind_makesNew {P : α → Heap → Prop} (first : action.Gives before P)
    (rest : ∀ result after, before.Grows after → P result after.heap →
      (next result).MakesNew after box) : (action >>= next).MakesNew before box := by
  obtain ⟨result, middle, ran, grows, property⟩ := first
  obtain ⟨ref, after, ranLast, held, fresh, grown⟩ := rest result middle grows property
  refine ⟨ref, after, ?_, held, ?_, grows.heap.trans grown⟩
  · rw [Exec.bind_ok ran, ranLast]
  · exact fun old other there => fresh old other (grows.heap old other there)

theorem gives_new (box : Box) (before : State) : (alloc box).Gives before fun ref heap =>
    heap.Holds ref box ∧ ∀ other, ¬before.heap.Holds ref other :=
  ⟨_, _, rfl, ⟨Heap.extends_alloc before.heap box, rfl, rfl⟩, before.heap.holds_alloc box,
    fun _ held => Nat.lt_irrefl _ held.lt⟩

/-- One run makes one box. -/
theorem MakesNew.unique {other : Box} (h : maker.MakesNew before box)
    (h' : maker.MakesNew before other) : box = other := by
  obtain ⟨ref, after, ran, held, _⟩ := h
  obtain ⟨ref', after', ran', held', _⟩ := h'
  rw [ran] at ran'
  cases ran'
  rw [← held.get, held'.get]

/-- What is there already was not made. -/
theorem MakesNew.ne_ok {old : Ref} {other : Box} (h : maker.MakesNew before box)
    (there : before.heap.Holds old other) (after : State) : maker before ≠ .ok old after := by
  obtain ⟨ref, last, ran, _, fresh, _⟩ := h
  intro same
  rw [ran] at same
  cases same
  exact fresh _ other there rfl

end Exec

namespace Machine

variable {machine : Machine} {state : State} {value : Ref}

/-- The text of a box whose type writes it as a new string. -/
theorem textOf_makesNew {type : BuiltinType} {bytes : Bytes} (complete : machine.Complete)
    (id : (state.heap.get value).typeId = machine.ids.id type)
    (written : ∀ depth, (machine.engine depth).text type [value] state =
      machine.newString bytes state) :
    (machine.textOf value).MakesNew state ⟨machine.ids.string, .string bytes⟩ := by
  obtain ⟨depth, deep⟩ := machine.exists_depth state
  have called : ((machine.engine (depth + 1)).invoke (.builtin (.common type .toText))
      [value]).MakesNew state ⟨machine.ids.string, .string bytes⟩ := by
    rw [invoke_common rfl]
    exact (Exec.makesNew_alloc _ state).of_eq (written depth)
  refine Exec.MakesNew.of_eq ?_ (act_apply machine _ state)
  rw [deep]
  refine Exec.makesNew_bind (entryOf_builtin complete id) ?_
  rw [BuiltinType.common?_entry]
  refine called.bind_ok fun ref after held => ?_
  refine (Exec.bind_ok (Exec.box_ok ref after)).trans ?_
  rw [held.get]
  rfl

theorem textOf_int {number : Int64} (complete : machine.Complete)
    (held : state.heap.get value = ⟨machine.ids.int, .int number⟩) :
    (machine.textOf value).MakesNew state
      ⟨machine.ids.string, .string (Utf8.encode (Numeral.ofInt number.toInt))⟩ := by
  have id : (state.heap.get value).typeId = machine.ids.id .int := by rw [held]; rfl
  refine textOf_makesNew complete id fun depth => ?_
  exact Exec.bind_ok (Arguments.receiver_ok (by rw [held]; rfl))

theorem textOf_float {number : Double} (complete : machine.Complete)
    (held : state.heap.get value = ⟨machine.ids.float, .float number⟩) :
    (machine.textOf value).MakesNew state
      ⟨machine.ids.string, .string (Utf8.encode number.fixedText)⟩ := by
  have id : (state.heap.get value).typeId = machine.ids.id .float := by rw [held]; rfl
  refine textOf_makesNew complete id fun depth => ?_
  exact Exec.bind_ok (Arguments.receiver_ok (by rw [held]; rfl))

end Machine

end BoxedValues
