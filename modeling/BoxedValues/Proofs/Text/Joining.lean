import BoxedValues.Machine.StringLibrary
import BoxedValues.Proofs.Machine.Selecting
import BoxedValues.Proofs.Machine.Sending
import BoxedValues.Proofs.Text.Rendering
import BoxedValues.Proofs.Text.Splitting

/-!
# Pieces of strings, and strings of pieces

Splitting a string makes an array of new strings, and joining an array goes through the texts of its
elements. The two are compared through the heap.

* `gives_newTexts`: an array of texts is made of new strings, each a box of its own, and the rest of
  the heap stays as it is;
* `send_join_strings`: strings that an array holds are joined as they are;
* `join_split`: **joining the pieces of a string with the separator gives the text of the string**,
  and the pieces are those between the leftmost copies of the separator, or the characters.
-/

set_option autoImplicit false

namespace BoxedValues

/-! ## Octets of joined texts -/

theorem Utf8.encode_flatten_intersperse (separator : List Char) (texts : List (List Char)) :
    encode (texts.intersperse separator).flatten =
      ((texts.map encode).intersperse (encode separator)).flatten := by
  induction texts with
  | nil => rfl
  | cons text texts ih =>
    cases texts with
    | nil => simp
    | cons next texts =>
      rw [List.map_cons, List.map_cons, List.intersperse_cons_cons, List.intersperse_cons_cons,
        List.flatten_cons, List.flatten_cons, List.flatten_cons, List.flatten_cons, encode_append,
        encode_append, ih, List.map_cons]

namespace Machine

variable {machine : Machine} {state : State} {value separator array : Ref} {bytes : Bytes}
  {texts : List (List Char)} {refs : List Ref}

/-! ## New strings -/

/-- The reference is that of a string of the text. -/
def IsStringOf (machine : Machine) (heap : Heap) (text : List Char) (ref : Ref) : Prop :=
  heap.Holds ref ⟨machine.ids.string, .string (Utf8.encode text)⟩

/-- Strings of the texts in order, each a box of its own that was not there before. -/
structure NewStrings (machine : Machine) (before after : Heap) (texts : List (List Char))
    (refs : List Ref) : Prop where
  spelled : List.Forall₂ (machine.IsStringOf after) texts refs
  fresh : ∀ ref ∈ refs, ∀ box, ¬before.Holds ref box
  distinct : refs.Nodup

/-- A new array of new strings. -/
structure NewStringArray (machine : Machine) (before after : Heap) (texts : List (List Char))
    (array : Ref) : Prop where
  strings : ∃ buffer, after.Holds array ⟨machine.ids.array, .array buffer⟩ ∧
    machine.NewStrings before after texts buffer.live
  fresh : ∀ box, ¬before.Holds array box

variable {before middle after : Heap}

theorem NewStrings.extends (new : machine.NewStrings before middle texts refs)
    (more : middle.Extends after) : machine.NewStrings before after texts refs :=
  ⟨new.spelled.imp fun _ ref held => more ref _ held, new.fresh, new.distinct⟩

theorem gives_mapM_newText (texts : List (List Char)) (state : State) :
    (texts.mapM machine.newText).Gives state fun refs heap =>
      machine.NewStrings state.heap heap texts refs := by
  induction texts generalizing state with
  | nil => exact Exec.gives_pure ⟨.nil, nofun, .nil⟩
  | cons text texts ih =>
    have first : (machine.newText text).Gives state fun ref heap =>
        machine.IsStringOf heap text ref ∧ ∀ box, ¬state.heap.Holds ref box :=
      Exec.gives_new _ state
    rw [List.mapM_cons]
    refine first.bind fun ref middle grows ⟨spelled, fresh⟩ => ?_
    refine (ih middle).growing.bind fun refs after _ ⟨grown, new⟩ => Exec.gives_pure ?_
    constructor
    case spelled => exact .cons (grown ref _ spelled) new.spelled
    case fresh =>
      refine List.forall_mem_cons.2 ⟨fresh, fun other mem box there => ?_⟩
      exact new.fresh other mem box (grows.heap other box there)
    case distinct => exact List.nodup_cons.2 ⟨fun mem => new.fresh ref mem _ spelled, new.distinct⟩

theorem gives_newTexts (texts : List (List Char)) (state : State) :
    (machine.newTexts texts).Gives state fun array heap =>
      machine.NewStringArray state.heap heap texts array := by
  refine (gives_mapM_newText texts state).bind fun refs middle grows new => ?_
  refine (Exec.gives_new _ middle).growing.mono fun array heap ⟨grown, held, fresh⟩ => ?_
  constructor
  case strings =>
    refine ⟨_, held, ?_⟩
    rw [Buffer.live_ofItems]
    exact new.extends grown
  case fresh => exact fun box there => fresh box (grows.heap array box there)

/-! ## The methods -/

/-- Splitting makes an array of the pieces. -/
theorem gives_split {separatorBytes : Bytes} (complete : machine.Complete)
    (held : state.heap.get value = ⟨machine.ids.string, .string bytes⟩)
    (cut : (state.heap.get separator).payload = .string separatorBytes) :
    (machine.send StringMethod.split.slot [value, separator]).Gives state fun array heap =>
      machine.NewStringArray state.heap heap
        (Split.split (Utf8.decodeLossy separatorBytes) (Utf8.decodeLossy bytes)) array := by
  have sent : machine.send StringMethod.split.slot [value, separator] state =
      machine.newTexts (Split.split (Utf8.decodeLossy separatorBytes) (Utf8.decodeLossy bytes))
        state := by
    rw [send_string complete (by rw [held]) rfl]
    refine (Exec.bind_ok (Arguments.receiver_ok (by rw [held]; rfl))).trans ?_
    exact Exec.bind_ok (Arguments.required_ok rfl (by rw [cut]; rfl))
  exact (gives_newTexts _ state).of_eq sent

/-- So does taking the characters apart. -/
theorem gives_chars (complete : machine.Complete)
    (held : state.heap.get value = ⟨machine.ids.string, .string bytes⟩) :
    (machine.send StringMethod.chars.slot [value]).Gives state fun array heap =>
      machine.NewStringArray state.heap heap ((Utf8.decodeLossy bytes).map fun c => [c]) array := by
  have sent : machine.send StringMethod.chars.slot [value] state =
      machine.newTexts ((Utf8.decodeLossy bytes).map fun c => [c]) state := by
    rw [send_string complete (by rw [held]) rfl]
    exact Exec.bind_ok (Arguments.receiver_ok (by rw [held]; rfl))
  exact (gives_newTexts _ state).of_eq sent

section

variable {heap : Heap} {text : List Char} {ref : Ref}

/-- Nothing is below a string. -/
theorem IsStringOf.carries (held : machine.IsStringOf heap text ref) :
    heap.Carries heap machine.IsBuiltin ref := by
  have leaf : ∀ buffer, (heap.get ref).payload ≠ .array buffer := by
    intro buffer
    rw [held.get]
    exact Payload.noConfusion
  exact (Heap.within_of_items_nil (Heap.items_of_leaf leaf) held ⟨.string, rfl, rfl⟩).carries

/-- The text of a string is its octets. -/
theorem IsStringOf.text_eq (held : machine.IsStringOf heap text ref) (inside : List Ref) :
    heap.text inside ref = Utf8.encode text := by
  rw [Heap.text_leaf (by rw [held.get]; exact fun _ => Payload.noConfusion), held.get]
  rfl

theorem texts_strings (inside : List Ref)
    (spelled : List.Forall₂ (machine.IsStringOf heap) texts refs) :
    refs.map (heap.text inside) = texts.map Utf8.encode := by
  induction spelled with
  | nil => rfl
  | cons held _ ih => rw [List.map_cons, List.map_cons, ih, held.text_eq]

theorem carries_strings (spelled : List.Forall₂ (machine.IsStringOf heap) texts refs) :
    ∀ ref ∈ refs, heap.Carries heap machine.IsBuiltin ref := by
  induction spelled with
  | nil => exact nofun
  | cons held _ ih => exact List.forall_mem_cons.2 ⟨held.carries, ih⟩

end

/-- Strings that an array holds are joined as they are. -/
theorem send_join_strings {buffer : Buffer} (live : machine.Live state)
    (held : state.heap.Holds array ⟨machine.ids.array, .array buffer⟩)
    (spelled : List.Forall₂ (machine.IsStringOf state.heap) texts buffer.live)
    (glue : (state.heap.get separator).payload = .string bytes) :
    (machine.send ArrayMethod.join.slot [array, separator]).MakesNew state
      ⟨machine.ids.string, .string ((texts.map Utf8.encode).intersperse bytes).flatten⟩ := by
  have count : ArrayMethod.join.arity.accepts ([separator].length + 1) = true := rfl
  obtain ⟨depth, refs, called⟩ := send_array live.complete (by rw [held.get]) count
  refine Exec.MakesNew.of_eq ?_ called
  refine Exec.makesNew_bind (Arguments.receiver_ok (by rw [held.get]; rfl)) ?_
  refine Exec.makesNew_bind
    (Arguments.optional_ok rfl (by rw [glue]; exact Payload.noConfusion) (by rw [glue]; rfl)) ?_
  have made := gives_texts (renders live.complete state.heap depth) live.shares buffer.live
    (carries_strings spelled) ((unmarked_le_card state.heap.refs state.marks.text).trans_lt refs)
  refine made.bind_makesNew fun contents after _ same => ?_
  rw [same, texts_strings _ spelled]
  exact Exec.makesNew_alloc _ after

/-! ## Splitting and joining -/

/-- A string of the text is cut into the pieces, and joining them undoes it. -/
structure SplitsBack (machine : Machine) (state : State) (value separator : Ref)
    (text cut : List Char) (pieces : List (List Char)) : Prop where
  /-- Splitting makes new strings of the pieces, and joining these a new string of the text. -/
  split : ∃ array after, machine.send StringMethod.split.slot [value, separator] state =
      .ok array after ∧ state.heap.Extends after.heap ∧
    machine.NewStringArray state.heap after.heap pieces array ∧
    (machine.send ArrayMethod.join.slot [array, separator]).MakesNew after
      ⟨machine.ids.string, .string (Utf8.encode text)⟩
  /-- Without a separator the pieces are the characters, as the other method has them. -/
  characters : cut = [] → pieces = text.map fun c => [c]
  chars : cut = [] → (machine.send StringMethod.chars.slot [value]).Gives state fun array heap =>
    machine.NewStringArray state.heap heap pieces array
  /-- With one they are the parts between its leftmost copies. -/
  places : cut ≠ [] → ∃ places, LeftmostMatches cut text places ∧
    (∀ others, LeftmostMatches cut text others → others = places) ∧
    pieces = partsFrom cut.length text 0 places ∧ pieces.length = places.length + 1
  apart : cut ≠ [] → ∀ piece ∈ pieces, ¬cut <:+: piece

/-- **Splitting and joining are inverse.** Whatever octets a string holds, the pieces of its text,
joined with the separator that it was split at, are its text, also if the separator is empty. -/
theorem join_split (live : machine.Live state) (value separator : Ref) (bytes : Bytes)
    (cut : List Char) (held : state.heap.get value = ⟨machine.ids.string, .string bytes⟩)
    (glue : (state.heap.get separator).payload = .string (Utf8.encode cut)) :
    machine.SplitsBack state value separator (Utf8.decodeLossy bytes) cut
      (Split.split cut (Utf8.decodeLossy bytes)) := by
  constructor
  case split =>
    obtain ⟨array, after, ran, grows, new⟩ := gives_split live.complete held glue
    rw [Utf8.decodeLossy_encode] at new
    obtain ⟨buffer, there, strings⟩ := new.strings
    have joined := send_join_strings (live.extends grows.heap) there strings.spelled
      (grows.heap.payload glue Payload.noConfusion)
    rw [← Utf8.encode_flatten_intersperse, Split.flatten_intersperse_split] at joined
    exact ⟨array, after, ran, grows.heap, new, joined⟩
  case characters =>
    rintro rfl
    exact Split.split_nil _
  case chars =>
    rintro rfl
    rw [Split.split_nil]
    exact gives_chars live.complete held
  case places =>
    intro nonempty
    obtain ⟨places, chosen, same⟩ := Split.split_eq_partsFrom nonempty (Utf8.decodeLossy bytes)
    refine ⟨places, chosen, fun others other => other.unique nonempty chosen, same, ?_⟩
    rw [same, length_partsFrom]
  case apart => exact fun nonempty => Split.not_infix_of_mem_split nonempty

/-- On the machine with builtin types only: octets of which the fourth is ill-formed, and two
separators, the second of them empty. -/
def splittableState : State :=
  { bareState with heap := ⟨bareState.heap.boxes ++ #[
    ⟨bare.ids.string, .string [0x61, 0x61, 0x61, 0xFF, 0x61, 0x61]⟩,
    ⟨bare.ids.string, .string (Utf8.encode ['a', 'a'])⟩,
    ⟨bare.ids.string, .string (Utf8.encode [])⟩]⟩ }

/-- A separator that overlaps itself, at both ends of the text, and an empty one. -/
theorem join_split_overlapping : bare.Live splittableState ∧
    bare.SplitsBack splittableState ⟨6⟩ ⟨7⟩ "aaa\uFFFDaa".toList ['a', 'a']
      [[], ['a', '\uFFFD'], []] ∧
    bare.SplitsBack splittableState ⟨6⟩ ⟨8⟩ "aaa\uFFFDaa".toList []
      [['a'], ['a'], ['a'], ['\uFFFD'], ['a'], ['a']] := by
  have live : bare.Live splittableState := live_bare_append _
  have text : Utf8.decodeLossy [0x61, 0x61, 0x61, 0xFF, 0x61, 0x61] = "aaa\uFFFDaa".toList := by
    decide +kernel
  have pieces : Split.split ['a', 'a'] "aaa\uFFFDaa".toList = [[], ['a', '\uFFFD'], []] := by
    decide +kernel
  have cut := join_split live ⟨6⟩ ⟨7⟩ _ ['a', 'a'] rfl rfl
  have empty := join_split live ⟨6⟩ ⟨8⟩ _ [] rfl rfl
  rw [text, pieces] at cut
  rw [text] at empty
  exact ⟨live, cut, empty⟩

end Machine

end BoxedValues
