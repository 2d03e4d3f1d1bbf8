import BoxedValues.Proofs.Machine.Classifying
import BoxedValues.Proofs.Machine.Printing
import BoxedValues.Proofs.Machine.Reporting

/-!
# Three ways to show an array

An array is shown by its text, by joining the texts of its elements, and by a line of output with
these texts. Below an array there may be scalars whose type is not that of their contents, and which
therefore have no text: each of the three ways then ends with the first error that it meets.

* `Machine.rendering` is the text of a value or the first error below it, in one walk;
* `Machine.reportsTexts`: that is what a machine reports, at any depth that suffices;
* `Machine.renderers_agree`: **the three ways agree**, in their octets and in their errors, although
  the first of them marks the array while it renders the elements and the others do not.
-/

set_option autoImplicit false

namespace BoxedValues.Machine

open Exec

variable {machine : Machine} {base : Heap} {state : State} {value : Ref} {depth : Nat}

/-! ## The text of a value or its first error -/

/-- Arrays, and scalars and strings of any builtin type or of none. -/
def Renderable (machine : Machine) (box : Box) : Prop :=
  match box.payload with
  | .array _ => box.typeId = machine.ids.array
  | .record _ => False
  | _ => (∃ type, box.typeId = machine.ids.id type) ∨
      ∃ error, machine.table.entry box.typeId = .error error

theorem Renderable.typeId {box : Box} {buffer : Buffer} (h : machine.Renderable box)
    (held : box.payload = .array buffer) : box.typeId = machine.ids.id .array := by
  rwa [Renderable, held] at h

/-- The walk that makes texts, or finds the first value without one. -/
def renderingWalk (machine : Machine) (heap : Heap) : Walk (Except MachineError Bytes) where
  leaf ref payload := (machine.resolve heap CommonMethod.toText.slot [ref]).map fun _ => payload.text
  cut items := .ok (if items.isEmpty then Utf8.ofString "[]" else Utf8.ofString "[...]")
  node texts := (texts.mapM id).map Engine.bracketed

/-- The text of a value inside the given arrays, or the first error below it. -/
def rendering (machine : Machine) (heap : Heap) (inside : List Ref) (value : Ref) :
    Except MachineError Bytes := heap.fold (machine.renderingWalk heap) inside value

theorem rendering_inside {inside : List Ref} {buffer : Buffer}
    (held : (base.get value).payload = .array buffer) (within : value ∈ inside) :
    machine.rendering base inside value = .ok
      (if buffer.live.isEmpty then Utf8.ofString "[]" else Utf8.ofString "[...]") := by
  rw [rendering, Heap.fold_array held, if_pos within]
  rfl

theorem rendering_outside {inside : List Ref} {buffer : Buffer}
    (held : (base.get value).payload = .array buffer) (fresh : value ∉ inside) :
    machine.rendering base inside value =
      (buffer.live.mapM (machine.rendering base (value :: inside))).map Engine.bracketed := by
  rw [rendering, Heap.fold_array held, if_neg fresh]
  exact congrArg (Except.map Engine.bracketed) List.mapM_map

/-- The machine reports what the walk through `base` makes of values, if `base` has no more boxes
than `depth` allows. -/
def ReportsTexts (machine : Machine) (base : Heap) (depth : Nat) : Prop :=
  ∀ {state value}, machine.Shares state.heap → base.Carries state.heap machine.Renderable value →
    unmarked base.refs state.marks.text < depth →
      ((machine.engine depth).textOf value).Reports state
        (machine.rendering base state.marks.text value) IsText

section

variable (reports : machine.ReportsTexts base depth) (shares : machine.Shares state.heap)

include reports shares

theorem reports_texts (values : List Ref)
    (carries : ∀ value ∈ values, base.Carries state.heap machine.Renderable value)
    (room : unmarked base.refs state.marks.text < depth) :
    ((machine.engine depth).texts values).Reports state
      (values.mapM (machine.rendering base state.marks.text))
      fun contents texts _ => texts = contents ∧ texts.length = values.length := by
  apply reports_mapM values
  intro value mem after grows
  rw [← grows.marks] at room ⊢
  have text := reports (shares.persists grows.heap.persists) ((carries value mem).extends grows.heap)
    room
  refine text.bind_gives fun content ref later _ isText => ?_
  refine Exec.gives_bind_ok (Exec.payload_ok ref later) (Exec.gives_pure ?_)
  rw [isText]
  rfl

variable (carries : base.Carries state.heap machine.Renderable value)
  (room : unmarked base.refs state.marks.text < depth + 1)

include carries room

theorem reports_arrayText {buffer : Buffer} (held : (base.get value).payload = .array buffer) :
    ((machine.engine depth).arrayText value buffer.live).Reports state
      (machine.rendering base state.marks.text value) IsText := by
  unfold Engine.arrayText
  by_cases inside : value ∈ state.marks.text
  · rw [rendering_inside held inside]
    by_cases empty : buffer.live.isEmpty = true
    · rw [if_pos empty, if_pos empty]
      exact gives_newString _ state
    · rw [if_neg empty, if_neg empty]
      apply (Exec.gives_marking_of_mem inside).bind
      intro texts after _ none
      rw [none]
      exact gives_newString _ after
  rw [rendering_outside held inside]
  by_cases empty : buffer.live = []
  · rw [empty]
    exact gives_newString _ state
  · rw [if_neg fun isEmpty => empty (List.isEmpty_iff.1 isEmpty)]
    have smaller := unmarked_cons_lt (Heap.mem_refs_of_array held) inside
    have marked : machine.Shares { state with
        marks := Exec.textMarks.set (value :: state.marks.text) state.marks }.heap := shares
    have body := reports_texts reports marked buffer.live
      (fun item mem => carries.of_mem (by rwa [Heap.items_of_array held])) (by
        show unmarked base.refs (value :: state.marks.text) < depth
        omega)
    refine reports_map.2 ((reports_marking Exec.lawful_textMarks inside body).bind_gives ?_)
    rintro contents result after _ ⟨texts, rfl, rfl, count⟩
    have filled : texts ≠ [] := by
      rintro rfl
      exact empty (List.length_eq_zero_iff.1 count.symm)
    exact gives_newBracketed filled after

end

/-! ## Scalars -/

theorem objection?_toText (type : BuiltinType) (heap : Heap) (value : Ref) :
    (Method.builtin (.common type .toText)).objection? heap [value] =
      if (heap.get value).payload.kind = .builtin type then none
      else some (.wrongReceiver type.name (heap.get value).typeId) := rfl

/-- The text of a value with a builtin type is made by the method of that type, if the value is of its
kind. -/
theorem resolve_toText {heap : Heap} {type : BuiltinType}
    (found : machine.table.entry (heap.get value).typeId = .ok type.entry) :
    machine.resolve heap CommonMethod.toText.slot [value] =
      if (heap.get value).payload.kind = .builtin type then .ok (.builtin (.common type .toText))
      else .error (.wrongReceiver type.name (heap.get value).typeId) := by
  have method : type.entry.method? CommonMethod.toText.slot =
      some (.builtin (.common type .toText)) := type.common?_entry .toText
  simp only [resolve, found, method, objection?_toText]
  by_cases kind : (heap.get value).payload.kind = .builtin type
  · rw [if_pos kind, if_pos kind]
  · rw [if_neg kind, if_neg kind]

/-- What a box has that is no array: the type of its kind, of another kind, or none. -/
theorem reports_leaf (complete : machine.Complete) (shares : machine.Shares state.heap)
    (carries : base.Carries state.heap machine.Renderable value)
    (leaf : ∀ buffer, (base.get value).payload ≠ .array buffer)
    (room : unmarked base.refs state.marks.text < depth + 1) :
    ((machine.engine (depth + 1)).textOf value).Reports state
      (machine.rendering base state.marks.text value) IsText := by
  obtain ⟨got, renderable⟩ := carries.self
  have outcome : machine.rendering base state.marks.text value =
      (machine.resolve base CommonMethod.toText.slot [value]).map fun _ =>
        (base.get value).payload.text := Heap.fold_leaf leaf
  have filed : (∃ type, (base.get value).typeId = machine.ids.id type) ∨
      ∃ error, machine.table.entry (base.get value).typeId = .error error := by
    unfold Renderable at renderable
    cases held : (base.get value).payload with
    | array buffer => exact absurd held (leaf buffer)
    | record fields =>
      rw [held] at renderable
      exact renderable.elim
    | _ =>
      rw [held] at renderable
      exact renderable
  rcases filed with ⟨type, id⟩ | ⟨error, unfiled⟩
  · have found : machine.table.entry (base.get value).typeId = .ok type.entry := by
      rw [id]
      exact complete type
    rw [outcome, resolve_toText found]
    by_cases kind : (base.get value).payload.kind = .builtin type
    · rw [if_pos kind]
      have builtin : base.Carries state.heap machine.IsBuiltin value :=
        carries.of_items_nil (Heap.items_of_leaf leaf) ⟨type, kind, id⟩
      have given := renders complete base (depth + 1) shares builtin room
      rwa [Heap.text_leaf leaf] at given
    · rw [if_neg kind]
      have objection : (Method.builtin (.common type .toText)).objection? state.heap [value] =
          some (.wrongReceiver type.name (base.get value).typeId) := by
        rw [objection?_toText, got, if_neg kind]
      refine Exec.fails_bind_ok (entryOf_builtin complete (by rwa [got])) ?_
      rw [type.common?_entry]
      refine Exec.FailsWith.bind ⟨state, ?_⟩
      rw [invoke_classified, objection]
  · have unopened : (machine.engine (depth + 1)).entryOf value state = .error (.error error) state :=
      entryOf_error (by rw [got]; exact unfiled)
    rw [outcome, resolve, unfiled]
    exact Exec.FailsWith.bind ⟨state, unopened⟩

/-! ## Values of any depth -/

/-- Texts and errors that nest one level deeper. -/
theorem reportsTexts_succ (complete : machine.Complete) (reports : machine.ReportsTexts base depth) :
    machine.ReportsTexts base (depth + 1) := by
  intro state value shares carries room
  by_cases array : ∃ buffer, (base.get value).payload = .array buffer
  · obtain ⟨buffer, held⟩ := array
    obtain ⟨got, renderable⟩ := carries.self
    have id : (state.heap.get value).typeId = machine.ids.id .array := by
      rw [got]
      exact renderable.typeId held
    unfold Engine.textOf
    refine reports_bind_ok (entryOf_builtin complete id) ?_
    rw [BuiltinType.common?_entry]
    have run : ((machine.engine (depth + 1)).invoke (.builtin (.common .array .toText)) [value]).Reports
        state (machine.rendering base state.marks.text value) IsText := by
      rw [invoke_common rfl]
      refine reports_bind_ok (Arguments.receiver_ok (by rw [got, held]; rfl)) ?_
      exact reports_bind_ok (Arguments.given_zero state)
        (reports_arrayText reports shares carries room held)
    refine run.bind_gives fun bytes ref after _ isText => ?_
    refine Exec.gives_bind_ok (Exec.box_ok ref after) ?_
    unfold IsText at isText
    rw [isText]
    exact Exec.gives_pure isText
  · exact reports_leaf complete shares carries (fun buffer held => array ⟨buffer, held⟩) room

theorem reportsTexts (complete : machine.Complete) (base : Heap) (depth : Nat) :
    machine.ReportsTexts base depth := by
  induction depth with
  | zero => exact fun _ _ room => absurd room (Nat.not_lt_zero _)
  | succ depth ih => exact reportsTexts_succ complete ih

/-- An array that is not met below its elements makes no difference to them. -/
theorem rendering_cons {inside : List Ref} {item : Ref}
    (within : base.Within machine.Renderable item) (apart : ¬base.Reaches item value) :
    machine.rendering base (value :: inside) item = machine.rendering base inside item := by
  have last : machine.rendering base (value :: inside) item =
      machine.rendering base (inside ++ [value]) item :=
    Heap.fold_congr within.mirrors fun ref => by simp [or_comm]
  refine last.trans (Heap.fold_append fun ref mem => ?_)
  rwa [List.mem_singleton.1 mem]

/-! ## The three ways -/

/-- The array is shown by its text, joined with commas and with spaces, and printed. -/
structure ShowsAlike (machine : Machine) (state : State) (array comma space : Ref) (items : List Ref)
    (commas spaces : Bytes) (pieces : List Bytes) : Prop where
  text : (machine.textOf array).Gives state
    (IsText (Utf8.ofString "[" ++ commas ++ Utf8.ofString "]"))
  joined : (machine.send ArrayMethod.join.slot [array, comma]).Gives state (IsText commas)
  spaced : (machine.send ArrayMethod.join.slot [array, space]).Gives state (IsText spaces)
  /-- What the sink is offered. -/
  line : pieces.flatten = spaces ++ Utf8.ofString "\n"
  printed : ∀ sink, state.sink.offerLine pieces = (none, sink) →
    ∃ after, machine.printLine items state = .ok () after ∧
      after.sink.written = state.sink.written ++ spaces ++ Utf8.ofString "\n"
  /-- A sink that takes the line has it whole, also when it cannot be flushed. -/
  written : ∀ full, state.sink.offerAll pieces = (none, full) →
    ((machine.printLine items).last state).sink.written =
      state.sink.written ++ spaces ++ Utf8.ofString "\n"
  refused : ∀ reason sink, state.sink.offerLine pieces = (some reason, sink) →
    (machine.printLine items).FailsWith state (.outputRefused reason)

/-- The array cannot be shown in any of the ways, for the same reason. -/
structure FailsAlike (machine : Machine) (state : State) (array comma space : Ref) (items : List Ref)
    (error : MachineError) : Prop where
  text : (machine.textOf array).FailsWith state error
  joined : (machine.send ArrayMethod.join.slot [array, comma]).FailsWith state error
  spaced : (machine.send ArrayMethod.join.slot [array, space]).FailsWith state error
  printed : (machine.printLine items).FailsWith state error

section

variable {array : Ref} {buffer : Buffer} (live : machine.Live state)
  (held : (state.heap.get array).payload = .array buffer)
  (within : state.heap.Within machine.Renderable array)

include live held within

/-- The texts of the elements, or the first error among them. -/
theorem reports_elements (room : unmarked state.heap.refs state.marks.text < depth) :
    ((machine.engine depth).texts buffer.live).Reports state
      (buffer.live.mapM (machine.rendering state.heap state.marks.text))
      fun contents texts _ => texts = contents :=
  Reports.mono (reports_texts (reportsTexts live.complete state.heap depth) live.shares buffer.live
    (fun item mem => within.carries.of_mem (by rwa [Heap.items_of_array held])) room)
    fun _ _ _ both => both.1

/-- The text of the array does not depend on its own mark. -/
theorem reports_bracketed (fresh : array ∉ state.marks.text)
    (apart : ∀ item ∈ buffer.live, ¬state.heap.Reaches item array) :
    (machine.textOf array).Reports state
      (buffer.live.mapM (machine.rendering state.heap state.marks.text))
      fun contents => IsText (Engine.bracketed contents) := by
  have text := reportsTexts live.complete state.heap _ live.shares within.carries
    (machine.unmarked_refs_lt_depth (Nat.le_refl _) _)
  have elements : buffer.live.mapM (machine.rendering state.heap (array :: state.marks.text)) =
      buffer.live.mapM (machine.rendering state.heap state.marks.text) := by
    rw [← Function.id_comp (machine.rendering _ _), ← List.mapM_map,
      ← Function.id_comp (machine.rendering _ state.marks.text), ← List.mapM_map]
    refine congrArg (List.mapM id) (List.map_congr_left fun item mem => ?_)
    have member : item ∈ state.heap.items array := by rwa [Heap.items_of_array held]
    exact rendering_cons (within.of_reaches (.of_item member (Heap.reaches_self _ item)))
      (apart item mem)
  rw [rendering_outside held fresh, elements] at text
  exact (reports_map.1 text).of_eq (act_apply machine _ state)

theorem reports_join {separator : Ref} {bytes : Bytes}
    (string : (state.heap.get separator).payload = .string bytes) :
    (machine.send ArrayMethod.join.slot [array, separator]).Reports state
      (buffer.live.mapM (machine.rendering state.heap state.marks.text))
      fun contents => IsText (contents.intersperse bytes).flatten := by
  have id : (state.heap.get array).typeId = machine.ids.id .array :=
    within.carries.self.2.typeId held
  have count : ArrayMethod.join.arity.accepts ([separator].length + 1) = true := rfl
  obtain ⟨depth, refs, called⟩ := send_array live.complete id count
  have room : unmarked state.heap.refs state.marks.text < depth :=
    (unmarked_le_card state.heap.refs state.marks.text).trans_lt refs
  refine Reports.of_eq ?_ called
  refine reports_bind_ok (Arguments.receiver_ok (by rw [held]; rfl)) ?_
  have given : Arguments.optional .string [array, separator] 1 state = .ok (some bytes) state :=
    Arguments.optional_ok rfl (by rw [string]; exact Payload.noConfusion) (by rw [string]; rfl)
  refine reports_bind_ok given ?_
  refine (reports_elements live held within room).bind_gives fun contents texts after _ same => ?_
  rw [same]
  exact gives_newString _ after

end

/-- A line whose texts are made is offered to the sink as it was. -/
theorem printLine_of_gives {items : List Ref} {texts : List Bytes}
    (given : ((machine.engine (machine.depth state)).texts items).Gives state
      fun made _ => made = texts) :
    (∀ sink, state.sink.offerLine (Engine.linePieces texts) = (none, sink) →
      ∃ after, machine.printLine items state = .ok () after ∧ after.sink.written =
        state.sink.written ++ (texts.intersperse (Utf8.ofString " ")).flatten ++ Utf8.ofString "\n") ∧
    (∀ full, state.sink.offerAll (Engine.linePieces texts) = (none, full) →
      ((machine.printLine items).last state).sink.written =
        state.sink.written ++ (texts.intersperse (Utf8.ofString " ")).flatten ++ Utf8.ofString "\n") ∧
    ∀ reason sink, state.sink.offerLine (Engine.linePieces texts) = (some reason, sink) →
      (machine.printLine items).FailsWith state (.outputRefused reason) := by
  obtain ⟨shown, converted, made, grows, rfl⟩ := given
  have printed : machine.printLine items state = Exec.write (Engine.linePieces shown) converted :=
    (act_apply machine _ state).trans (Exec.bind_ok made)
  refine ⟨fun sink taken => ?_, fun full taken => ?_, fun reason sink refused => ?_⟩
  · have ran : machine.printLine items state = .ok () { converted with sink } := by
      rw [printed, Exec.write, grows.sink, taken]
    refine ⟨_, ran, ?_⟩
    rw [Engine.written_of_printed _ items state made ran, grows.sink]
  · have ended : ((machine.printLine items).last state).sink =
        (state.sink.offerLine (Engine.linePieces shown)).2 := by
      rw [Exec.last, printed, Exec.write, grows.sink]
      rcases state.sink.offerLine (Engine.linePieces shown) with ⟨_ | reason, sink⟩ <;> rfl
    rw [ended, Sink.written_offerLine_of_taken taken, Engine.flatten_linePieces, List.append_assoc]
  · refine ⟨{ converted with sink }, ?_⟩
    rw [printed, Exec.write, grows.sink, refused]

/-- **An array is shown alike by its text, by joining and by printing, or in none of these ways and
for one reason**, which is the first error among its elements. The array may hold scalars and strings
that have the type of another kind or no type at all, at any depth, and cycles as long as they do not
lead back to itself. -/
theorem renderers_agree (live : machine.Live state) (array comma space : Ref) (buffer : Buffer)
    (held : (state.heap.get array).payload = .array buffer)
    (within : state.heap.Within machine.Renderable array)
    (apart : ∀ item ∈ buffer.live, ¬state.heap.Reaches item array)
    (idle : array ∉ state.marks.text)
    (commaText : (state.heap.get comma).payload = .string (Utf8.ofString ", "))
    (spaceText : (state.heap.get space).payload = .string (Utf8.ofString " ")) :
    match buffer.live.mapM (machine.rendering state.heap state.marks.text) with
    | .error error => machine.FailsAlike state array comma space buffer.live error
    | .ok texts => machine.ShowsAlike state array comma space buffer.live
        (texts.intersperse (Utf8.ofString ", ")).flatten
        (texts.intersperse (Utf8.ofString " ")).flatten (Engine.linePieces texts) := by
  have text := reports_bracketed live held within idle apart
  have joined := reports_join live held within commaText
  have spaced := reports_join live held within spaceText
  have elements : ((machine.engine (machine.depth state)).texts buffer.live).Reports state _ _ :=
    reports_elements live held within (machine.unmarked_refs_lt_depth (Nat.le_refl _) _)
  cases outcome : buffer.live.mapM (machine.rendering state.heap state.marks.text) with
  | error error =>
    rw [outcome] at text joined spaced elements
    obtain ⟨after, failed⟩ : FailsWith _ state error := elements
    refine ⟨text, joined, spaced, after, ?_⟩
    exact (act_apply machine _ state).trans (Exec.bind_error failed)
  | ok texts =>
    rw [outcome] at text joined spaced elements
    obtain ⟨printed, written, refused⟩ := printLine_of_gives elements
    exact ⟨text, joined, spaced, Engine.flatten_linePieces texts, printed, written, refused⟩

/-- On the machine with builtin types only: two separators, an integer of no type, the array of `None`
and `true`, and an array of this one and the integer. -/
def shelvedState : State :=
  let string (text : String) : Box := ⟨bare.ids.string, .string (Utf8.ofString text)⟩
  let array (items : Array Ref) : Box := ⟨bare.ids.array, .array ⟨items, 2⟩⟩
  { bareState with heap := ⟨bareState.heap.boxes ++ #[string ", ", string " ", ⟨⟨6⟩, .int 7⟩,
    array #[⟨0⟩, ⟨2⟩], array #[⟨9⟩, ⟨8⟩]]⟩ }

/-- All that the arrays reach. -/
def shelved : List Ref := [⟨0⟩, ⟨2⟩, ⟨8⟩, ⟨9⟩, ⟨10⟩]

theorem within_shelved {value : Ref} (h : value ∈ shelved) :
    shelvedState.heap.Within bare.Renderable value := by
  apply Heap.within_of_closed (S := (· ∈ shelved)) _ _ h
  · intro ref member
    simp only [shelved, List.mem_cons, List.not_mem_nil, or_false] at member
    rcases member with rfl | rfl | rfl | rfl | rfl
    · exact ⟨_, rfl, .inl ⟨.none, rfl⟩⟩
    · exact ⟨_, rfl, .inl ⟨.bool, rfl⟩⟩
    · exact ⟨_, rfl, .inr ⟨_, rfl⟩⟩
    · exact ⟨_, rfl, rfl⟩
    · exact ⟨_, rfl, rfl⟩
  · decide

/-- References lead down the shelf. -/
theorem lt_of_reaches_shelved {holder item ref : Ref} (holds : holder ∈ shelved)
    (mem : item ∈ shelvedState.heap.items holder) (reaches : shelvedState.heap.Reaches item ref) :
    ref ∈ shelved ∧ ref.index < holder.index := by
  have down : ∀ holder ∈ shelved, ∀ item ∈ shelvedState.heap.items holder,
      item ∈ shelved ∧ item.index < holder.index := by decide
  induction reaches with
  | refl => exact down holder holds item mem
  | tail _ last ih => exact ⟨(down _ ih.1 _ last).1, (down _ ih.1 _ last).2.trans ih.2⟩

theorem not_reaches_shelved (holder : Ref) (holds : holder ∈ shelved) :
    ∀ item ∈ shelvedState.heap.items holder, ¬shelvedState.heap.Reaches item holder :=
  fun _ mem reaches => Nat.lt_irrefl _ (lt_of_reaches_shelved holds mem reaches).2

theorem rendering_scalars (inside : List Ref) :
    [⟨0⟩, ⟨2⟩].mapM (bare.rendering shelvedState.heap inside) =
      .ok (["None", "true"].map Utf8.ofString) := by
  have none : bare.rendering shelvedState.heap inside ⟨0⟩ = .ok (Utf8.ofString "None") :=
    Heap.fold_leaf fun _ => Payload.noConfusion
  have bool : bare.rendering shelvedState.heap inside ⟨2⟩ = .ok (Utf8.ofString "true") :=
    Heap.fold_leaf fun _ => Payload.noConfusion
  rw [List.mapM_cons, List.mapM_cons, none, bool]
  rfl

theorem rendering_untyped :
    [⟨9⟩, ⟨8⟩].mapM (bare.rendering shelvedState.heap []) = .error (.beyondTable ⟨6⟩ 6) := by
  have held : (shelvedState.heap.get ⟨9⟩).payload = .array ⟨#[⟨0⟩, ⟨2⟩], 2⟩ := rfl
  have array : bare.rendering shelvedState.heap [] ⟨9⟩ = .ok (Utf8.ofString "[None, true]") := by
    rw [rendering_outside held (by decide)]
    exact congrArg (Except.map Engine.bracketed) (rendering_scalars [⟨9⟩])
  have int : bare.rendering shelvedState.heap [] ⟨8⟩ = .error (.beyondTable ⟨6⟩ 6) :=
    Heap.fold_leaf fun _ => Payload.noConfusion
  rw [List.mapM_cons, List.mapM_cons, array, int]
  rfl

/-- The one array is shown, and the other is not, as its last element has no type. -/
theorem renderers_agree_shelved :
    bare.ShowsAlike shelvedState ⟨9⟩ ⟨6⟩ ⟨7⟩ [⟨0⟩, ⟨2⟩] (Utf8.ofString "None, true")
      (Utf8.ofString "None true") (["None", " ", "true", "\n"].map Utf8.ofString) ∧
    bare.FailsAlike shelvedState ⟨10⟩ ⟨6⟩ ⟨7⟩ [⟨9⟩, ⟨8⟩] (.beyondTable ⟨6⟩ 6) := by
  have live : bare.Live shelvedState := live_bare_append _
  have filled := renderers_agree live ⟨9⟩ ⟨6⟩ ⟨7⟩ ⟨#[⟨0⟩, ⟨2⟩], 2⟩ rfl
    (within_shelved (by decide)) (not_reaches_shelved ⟨9⟩ (by decide)) (by decide) rfl rfl
  have mixed := renderers_agree live ⟨10⟩ ⟨6⟩ ⟨7⟩ ⟨#[⟨9⟩, ⟨8⟩], 2⟩ rfl
    (within_shelved (by decide)) (not_reaches_shelved ⟨10⟩ (by decide)) (by decide) rfl rfl
  rw [show Buffer.live ⟨#[⟨0⟩, ⟨2⟩], 2⟩ = [⟨0⟩, ⟨2⟩] from rfl, rendering_scalars] at filled
  rw [show Buffer.live ⟨#[⟨9⟩, ⟨8⟩], 2⟩ = [⟨9⟩, ⟨8⟩] from rfl, show shelvedState.marks.text = [] from rfl,
    rendering_untyped] at mixed
  exact ⟨filled, mixed⟩

end BoxedValues.Machine
