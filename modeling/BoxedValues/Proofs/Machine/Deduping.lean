import BoxedValues.Proofs.Hash.Digesting

/-!
# Arrays without duplicates

`dedupe` compares an element only with kept elements of the same hash. `firsts` is what it should
give: an element stays if it equals none of all those before it.

* `any_of_represents`: it is enough to look at what was kept, and among that at what has the hash of
  the element, if equality is an equivalence relation that hashes respect;
* `Settled` values have such an equality: nothing registered takes part, there are no cycles, and no
  comparison and no hash of them is under way;
* `gives_dedupe` is the loop, and `dedupe_keeps_firsts` the method.
-/

set_option autoImplicit false

namespace BoxedValues

/-! ## The first of equal items -/

section

variable {α : Type} (equal : α → α → Bool)

/-- The items that equal none of those before them. The ones before all are `earlier`. -/
def firsts (earlier : List α) : List α → List α
  | [] => []
  | item :: rest =>
    if earlier.any (equal · item) then firsts (earlier ++ [item]) rest
    else item :: firsts (earlier ++ [item]) rest

/-- For each of the earlier items an equal one was kept. -/
structure Represents (kept earlier : List α) : Prop where
  sub : kept ⊆ earlier
  equals : ∀ item ∈ earlier, ∃ first ∈ kept, equal first item = true

variable {equal} {kept earlier rest : List α} {item : α}

theorem represents_nil : Represents equal [] [] := ⟨fun _ mem => mem, nofun⟩

theorem firsts_congr {other : α → α → Bool}
    (same : ∀ x ∈ earlier ++ rest, ∀ y ∈ earlier ++ rest, equal x y = other x y) :
    firsts equal earlier rest = firsts other earlier rest := by
  induction rest generalizing earlier with
  | nil => rfl
  | cons item rest ih =>
    have further : firsts equal (earlier ++ [item]) rest = firsts other (earlier ++ [item]) rest :=
      ih (by simpa using same)
    have each : (earlier.any (equal · item)) = earlier.any (other · item) := by
      rw [Bool.eq_iff_iff, List.any_eq_true, List.any_eq_true]
      refine exists_congr fun x => and_congr_right fun mem => ?_
      rw [same x (List.mem_append_left _ mem) item (by simp)]
    rw [firsts, firsts, each, further]

theorem firsts_sublist (earlier rest : List α) : (firsts equal earlier rest).Sublist rest := by
  induction rest generalizing earlier with
  | nil => exact .slnil
  | cons item rest ih =>
    rw [firsts]
    split
    · exact .cons item (ih _)
    · exact .cons_cons item (ih _)

/-- No first item equals another one before it or one of the earlier items. -/
theorem pairwise_firsts (earlier rest : List α) :
    (∀ item ∈ firsts equal earlier rest, ∀ before ∈ earlier, equal before item = false) ∧
      (firsts equal earlier rest).Pairwise fun x y => equal x y = false := by
  induction rest generalizing earlier with
  | nil => exact ⟨nofun, .nil⟩
  | cons item rest ih =>
    obtain ⟨apart, pairwise⟩ := ih (earlier ++ [item])
    rw [firsts]
    split
    · exact ⟨fun first mem before early => apart first mem before (by simp [early]), pairwise⟩
    · rename_i fresh
      constructor
      · intro first mem before early
        rcases List.mem_cons.1 mem with rfl | mem
        · exact Bool.eq_false_iff.2 fun same => fresh (List.any_eq_true.2 ⟨before, early, same⟩)
        · exact apart first mem before (by simp [early])
      · exact .cons (fun first mem => apart first mem item (by simp)) pairwise

section

variable (refl : ∀ x, equal x x = true)
  (trans : ∀ x y z, equal x y = true → equal y z = true → equal x z = true)

include trans

/-- What was kept tells whether an item is new. -/
theorem Represents.any_eq (h : Represents equal kept earlier) (item : α) :
    kept.any (equal · item) = earlier.any (equal · item) := by
  rw [Bool.eq_iff_iff, List.any_eq_true, List.any_eq_true]
  constructor
  · rintro ⟨first, mem, same⟩
    exact ⟨first, h.sub mem, same⟩
  · rintro ⟨before, mem, same⟩
    obtain ⟨first, firstMem, equals⟩ := h.equals before mem
    exact ⟨first, firstMem, trans first before item equals same⟩

theorem Represents.old (h : Represents equal kept earlier)
    (found : earlier.any (equal · item) = true) : Represents equal kept (earlier ++ [item]) where
  sub := List.subset_append_of_subset_left _ h.sub
  equals other mem := by
    rcases List.mem_append.1 mem with mem | mem
    · exact h.equals other mem
    · rw [List.mem_singleton.1 mem]
      rw [← h.any_eq trans, List.any_eq_true] at found
      exact found

omit trans

include refl

theorem Represents.new (h : Represents equal kept earlier) (item : α) :
    Represents equal (kept ++ [item]) (earlier ++ [item]) where
  sub := List.append_subset.2 ⟨List.subset_append_of_subset_left _ h.sub, by simp⟩
  equals other mem := by
    rcases List.mem_append.1 mem with mem | mem
    · obtain ⟨first, firstMem, same⟩ := h.equals other mem
      exact ⟨first, List.mem_append_left _ firstMem, same⟩
    · rw [List.mem_singleton.1 mem]
      exact ⟨item, by simp, refl item⟩

include trans

/-- With what was kept, the first items stand for all items. -/
theorem Represents.firsts (h : Represents equal kept earlier) (rest : List α) :
    Represents equal (kept ++ firsts equal earlier rest) (earlier ++ rest) := by
  induction rest generalizing kept earlier with
  | nil => simpa [BoxedValues.firsts] using h
  | cons item rest ih =>
    rw [BoxedValues.firsts]
    split
    · rename_i found
      have further := ih (h.old trans found)
      rwa [List.append_assoc, List.singleton_append] at further
    · have further := ih (h.new refl item)
      rwa [List.append_assoc, List.append_assoc, List.singleton_append,
        List.singleton_append] at further

end

end

namespace Heap

variable {heap : Heap}

theorem agree_trans (a b c : Ref) (first : heap.agree [] a b = true)
    (second : heap.agree [] b c = true) : heap.agree [] a c = true := by
  rw [agree_nil_iff_bisimilar] at first second ⊢
  exact first.trans second

theorem agree_comm (a b : Ref) : heap.agree [] a b = heap.agree [] b a := by
  rw [Bool.eq_iff_iff, agree_nil_iff_bisimilar, agree_nil_iff_bisimilar]
  exact ⟨Bisimilar.symm, Bisimilar.symm⟩

/-- A value with its hash. -/
def hashed (heap : Heap) (value : Ref) : Int64 × Ref := ((heap.unfolding value).digest, value)

theorem map_snd_hashed (values : List Ref) : (values.map heap.hashed).map (·.2) = values := by
  rw [List.map_map]
  exact List.map_id values

end Heap

namespace Machine

variable {machine : Machine} {start state : State} {a b value target : Ref} {depth : Nat}

/-! ## Values at rest -/

/-- A value without cycles that is compared and hashed without a registered method, and no array of
it is being hashed or compared right now. -/
structure Settled (machine : Machine) (state : State) (value : Ref) : Prop where
  plain : state.heap.Within machine.Plain value
  acyclic : state.heap.Acyclic value
  idle : ∀ ref, state.heap.Reaches value ref →
    ref ∉ state.marks.hash ∧ ref ∉ state.marks.equality.map Prod.fst

namespace Settled

/-- Between operations nothing is being hashed or compared. -/
theorem of_none (none : state.marks = .none) (plain : state.heap.Within machine.Plain value)
    (acyclic : state.heap.Acyclic value) : machine.Settled state value :=
  ⟨plain, acyclic, fun _ _ => by rw [none]; exact ⟨nofun, nofun⟩⟩

theorem carries (h : machine.Settled start value) (grows : start.Grows state) :
    start.heap.Carries state.heap machine.Plain value := h.plain.carries.extends grows.heap

theorem grows (h : machine.Settled start value) (grows : start.Grows state) :
    machine.Settled state value where
  plain ref reaches := by
    have carries := h.carries grows
    obtain ⟨box, _, held, plain⟩ := carries ref (carries.mirrors.reaches reaches)
    exact ⟨box, held, plain⟩
  acyclic := h.acyclic.of_mirrors (h.carries grows).mirrors
  idle ref reaches := by
    rw [grows.marks]
    exact h.idle ref ((h.carries grows).mirrors.reaches reaches)

theorem agree_eq (h : machine.Settled start a) :
    start.heap.agree start.marks.equality a b = start.heap.agree [] a b := by
  have apart : ∀ pair ∈ start.marks.equality, ¬start.heap.Reaches a pair.1 :=
    fun pair mem reaches => (h.idle pair.1 reaches).2 (List.mem_map_of_mem mem)
  show start.heap.agree ([] ++ start.marks.equality) a b = _
  exact Heap.agree_append apart

theorem fold_eq (h : machine.Settled start value) :
    start.heap.fold Unfolding.walk start.marks.hash value = start.heap.unfolding value := by
  have apart : ∀ ref ∈ start.marks.hash, ¬start.heap.Reaches value ref :=
    fun ref mem reaches => (h.idle ref reaches).1 mem
  show start.heap.fold Unfolding.walk ([] ++ start.marks.hash) value = _
  exact Heap.fold_append apart

/-- Settled values that are equal have one hash. -/
theorem digest_eq (first : machine.Settled start a) (second : machine.Settled start b)
    (equal : start.heap.agree [] a b = true) :
    (start.heap.unfolding a).digest = (start.heap.unfolding b).digest := by
  have bisimilar := Heap.agree_nil_iff_bisimilar.1 equal
  have inStep := Heap.inStep_of_acyclic first.acyclic second.acyclic
  rw [(Heap.unfolding_eq_iff_inStep bisimilar).2 inStep]

end Settled

/-! ## Comparisons and hashes while more values are made -/

section

variable (complete : machine.Complete) (shares : machine.Shares state.heap)
  (grows : start.Grows state)

include complete shares grows

theorem gives_agree (deep : start.heap.pairs.card < depth) (first : machine.Settled start a)
    (second : machine.Settled start b) :
    ((machine.engine depth).areEqual a b).Gives state fun verdict _ =>
      verdict = start.heap.agree [] a b := by
  have marked := unmarked_le_card start.heap.pairs state.marks.equality
  have found := decides complete start.heap depth shares
    ((first.carries grows).mono comparable_of_plain)
    ((second.carries grows).mono comparable_of_plain) (by omega)
  rwa [grows.marks, first.agree_eq] at found

theorem gives_digest (deep : start.heap.refs.card < depth) (settled : machine.Settled start value) :
    ((machine.engine depth).hashOf value).Gives state fun hash _ =>
      hash = (start.heap.unfolding value).digest := by
  have marked := unmarked_le_card start.heap.refs state.marks.hash
  have found := digests complete start.heap depth shares
    ((settled.carries grows).mono hashable_of_plain) (by omega)
  rwa [grows.marks, settled.fold_eq] at found

theorem gives_equalsAny (deep : start.heap.pairs.card < depth) (target : Ref)
    (values : List Ref) (settled : machine.Settled start target)
    (each : ∀ value ∈ values, machine.Settled start value) :
    ((machine.engine depth).equalsAny target values).Gives state fun verdict _ =>
      verdict = values.any (start.heap.agree [] · target) := by
  induction values generalizing state with
  | nil => exact Exec.gives_pure rfl
  | cons value rest ih =>
    apply (gives_agree complete shares grows deep (each value (.head rest)) settled).bind
    intro verdict after more same
    rw [List.any_cons, ← same]
    cases verdict with
    | true => exact Exec.gives_pure rfl
    | false =>
      exact ih (shares.persists more.heap.persists) (grows.trans more)
        fun value mem => each value (.tail _ mem)

/-- The loop of `dedupe`, from what was kept of the earlier elements on. -/
theorem gives_dedupe (deep : start.heap.pairs.card < depth)
    (deep' : start.heap.refs.card < depth) {kept earlier : List Ref} (items : List Ref)
    (each : ∀ item ∈ earlier ++ items, machine.Settled start item)
    (represents : Represents (start.heap.agree []) kept earlier) :
    ((machine.engine depth).dedupe (kept.map start.heap.hashed) items).Gives state
      fun result _ => result = kept ++ firsts (start.heap.agree []) earlier items := by
  induction items generalizing state kept earlier with
  | nil =>
    refine Exec.gives_pure ?_
    rw [Heap.map_snd_hashed, firsts, List.append_nil]
  | cons item rest ih =>
    have settled := each item (by simp)
    have keptSettled : ∀ value ∈ kept, machine.Settled start value :=
      fun value mem => each value (List.mem_append_left _ (represents.sub mem))
    apply (gives_digest complete shares grows deep' settled).bind
    intro hash hashed more same
    have grown := grows.trans more
    have sharesHashed := shares.persists more.heap.persists
    have rivals : (((kept.map start.heap.hashed).filter fun entry => entry.1 == hash).map (·.2)) =
        kept.filter fun value => (start.heap.unfolding value).digest == hash := by
      rw [List.filter_map, Heap.map_snd_hashed]
      rfl
    have verdictEq : ((kept.filter fun value => (start.heap.unfolding value).digest == hash).any
          (start.heap.agree [] · item)) = earlier.any (start.heap.agree [] · item) := by
      rw [← represents.any_eq Heap.agree_trans, List.any_filter, Bool.eq_iff_iff, List.any_eq_true,
        List.any_eq_true]
      refine exists_congr fun value => and_congr_right fun mem => ?_
      rw [Bool.and_eq_true, beq_iff_eq, same]
      exact and_iff_right_of_imp fun equal => (keptSettled value mem).digest_eq settled equal
    rw [rivals]
    apply (gives_equalsAny complete sharesHashed grown deep item _ settled
      fun value mem => keptSettled value (List.mem_filter.1 mem).1).bind
    intro verdict compared further found
    rw [verdictEq] at found
    have grownCompared := grown.trans further
    have sharesCompared := sharesHashed.persists further.heap.persists
    rw [firsts, ← found]
    cases verdict with
    | true =>
      have old := represents.old Heap.agree_trans found.symm
      exact ih sharesCompared grownCompared (by simpa using each) old
    | false =>
      have new := represents.new (Heap.agree_self start.heap []) item
      have result := ih sharesCompared grownCompared (by simpa using each) new
      rw [List.map_append, List.append_assoc] at result
      rw [same]
      exact result

end

/-! ## The methods -/

/-- A method of `Array` is run by a machine that nests calls deeply enough for all values. -/
theorem runMethod_array (machine : Machine) (state : State) (method : ArrayMethod) (args : List Ref)
    (count : (Builtin.array method).arity.accepts args.length = true) :
    ∃ depth, state.heap.pairs.card < depth ∧ state.heap.refs.card < depth ∧
      machine.runMethod (.builtin (.array method)) args state =
        (machine.engine depth).runArray method args state := by
  obtain ⟨depth, deep, pairs, refs⟩ := machine.exists_spare_depth (Nat.le_refl state.heap.size)
  refine ⟨depth, pairs, refs, ?_⟩
  rw [runMethod, act_apply, deep]
  exact congrFun (invoke_builtin_succ count) state

/-- What the machine finds when it compares two values. -/
def finds (machine : Machine) (state : State) (a b : Ref) : Bool :=
  match machine.areEqual a b state with
  | .ok verdict _ => verdict
  | .error _ _ => false

/-- Settled values are compared, and what is found does not depend on what else was made. -/
theorem finds_settled (live : machine.Live state) (grows : start.Grows state)
    (first : machine.Settled start a) (second : machine.Settled start b) :
    machine.finds state a b = start.heap.agree [] a b ∧
      ∃ last, machine.areEqual a b state = .ok (machine.finds state a b) last := by
  have pairs : start.heap.pairs.card < machine.depth state :=
    machine.card_pairs_lt_depth grows.heap.size_le
  have gives : (machine.areEqual a b).Gives state fun verdict _ =>
      verdict = start.heap.agree [] a b :=
    gives_act (gives_agree live.complete live.shares grows pairs first second)
  obtain ⟨verdict, last, ran, _, same⟩ := gives
  have found : machine.finds state a b = verdict := by
    unfold finds
    rw [ran]
  rw [found]
  exact ⟨same, last, ran⟩

/-- What `dedupe` does to an array of the given items. -/
structure Dedupes (machine : Machine) (state : State) (array : Ref) (items : List Ref) (result : Ref)
    (after : State) : Prop where
  /-- The result is a new array of the first of equal elements. -/
  fresh : ∀ box, ¬state.heap.Holds result box
  holds : ∃ buffer, after.heap.Holds result ⟨machine.ids.array, .array buffer⟩ ∧
    buffer.live = firsts (machine.finds state) [] items
  /-- Every two elements can be compared. -/
  compared : ∀ x ∈ items, ∀ y ∈ items, ∃ last,
    machine.areEqual x y state = .ok (machine.finds state x y) last
  distinct : (firsts (machine.finds state) [] items).Pairwise fun x y =>
    (∃ last, machine.areEqual x y after = .ok false last) ∧
      ∃ last, machine.areEqual y x after = .ok false last
  /-- The array and the result contain the same values. -/
  contains : ∀ value, machine.Settled after value → ∃ answer last last',
    machine.runMethod (.builtin (.array .contains)) [array, value] after =
        .ok (machine.boolValue answer) last ∧
      machine.runMethod (.builtin (.array .contains)) [result, value] after =
        .ok (machine.boolValue answer) last'
  /-- All that was there is unchanged, the array too. -/
  unchanged : state.heap.Extends after.heap

/-- `contains` compares all elements with the value. -/
theorem contains_settled {buffer : Buffer} {array : Ref} (live : machine.Live state)
    (held : (state.heap.get array).payload = .array buffer)
    (each : ∀ item ∈ buffer.live, machine.Settled state item) (settled : machine.Settled state value) :
    ∃ last, machine.runMethod (.builtin (.array .contains)) [array, value] state =
      .ok (machine.boolValue (buffer.live.any (state.heap.agree [] · value))) last := by
  obtain ⟨depth, pairs, _, run⟩ :=
    machine.runMethod_array state .contains [array, value] rfl
  have gives : ((machine.engine depth).runArray .contains [array, value]).Gives state fun result _ =>
      result = machine.boolValue (buffer.live.any (state.heap.agree [] · value)) := by
    refine Exec.gives_bind_ok (Arguments.receiver_ok (by rw [held]; rfl)) ?_
    refine Exec.gives_bind_ok (Arguments.given_one state) ?_
    apply (gives_equalsAny live.complete live.shares (.refl state) pairs value buffer.live settled
      each).bind
    intro verdict after _ found
    exact Exec.gives_pure (by rw [found]; rfl)
  obtain ⟨result, last, ran, _, same⟩ := gives
  exact ⟨last, by rw [run, ran, same]⟩

theorem any_firsts (heap : Heap) (items : List Ref) (value : Ref) :
    (firsts (heap.agree []) [] items).any (heap.agree [] · value) =
      items.any (heap.agree [] · value) := by
  have represents := Represents.firsts (heap.agree_self []) Heap.agree_trans represents_nil items
  exact represents.any_eq Heap.agree_trans value

/-- The array that `dedupe` makes, and that nothing else is changed. -/
theorem dedupe_makes {buffer : Buffer} {array : Ref} (live : machine.Live state)
    (held : (state.heap.get array).payload = .array buffer)
    (each : ∀ item ∈ buffer.live, machine.Settled state item) :
    ∃ result after, machine.runMethod (.builtin (.array .dedupe)) [array] state = .ok result after ∧
      state.Grows after ∧ state.heap.size ≤ result.index ∧
        after.heap.Holds result ⟨machine.ids.array, .array (.ofItems machine.noneValue
          (firsts (state.heap.agree []) [] buffer.live))⟩ := by
  obtain ⟨depth, pairs, refs, run⟩ := machine.runMethod_array state .dedupe [array] rfl
  have nothing : Represents (state.heap.agree []) [] [] := represents_nil
  have gives : ((machine.engine depth).runArray .dedupe [array]).Gives state fun result heap =>
      state.heap.size ≤ result.index ∧ heap.Holds result ⟨machine.ids.array, .array
        (.ofItems machine.noneValue (firsts (state.heap.agree []) [] buffer.live))⟩ := by
    refine Exec.gives_bind_ok (Arguments.receiver_ok (by rw [held]; rfl)) ?_
    apply (gives_dedupe live.complete live.shares (.refl state) pairs refs buffer.live each
      nothing).bind
    rintro kept between grows rfl
    exact ⟨_, _, rfl, ⟨Heap.extends_alloc _ _, rfl, rfl⟩, grows.heap.size_le,
      between.heap.holds_alloc _⟩
  obtain ⟨result, after, ran, grows, fresh, holds⟩ := gives
  exact ⟨result, after, run.trans ran, grows, fresh, holds⟩

/-- No two first elements are equal, compared in either order. -/
theorem pairwise_compared {after : State} {items : List Ref} (live : machine.Live after)
    (grows : state.Grows after) (each : ∀ item ∈ items, machine.Settled state item) :
    (firsts (state.heap.agree []) [] items).Pairwise fun x y =>
      (∃ last, machine.areEqual x y after = .ok false last) ∧
        ∃ last, machine.areEqual y x after = .ok false last := by
  refine (pairwise_firsts [] items).2.imp_of_mem fun {x y} mem mem' different => ?_
  have settled := each x ((firsts_sublist [] items).subset mem)
  have settled' := each y ((firsts_sublist [] items).subset mem')
  obtain ⟨forth, last, ran⟩ := finds_settled live grows settled settled'
  obtain ⟨back, last', ran'⟩ := finds_settled live grows settled' settled
  rw [forth, different] at ran
  rw [back, Heap.agree_comm, different] at ran'
  exact ⟨⟨last, ran⟩, last', ran'⟩

/-- An array of the first elements of another contains what that one contains. -/
theorem contains_firsts {buffer kept : Buffer} {array result : Ref} (live : machine.Live state)
    (held : (state.heap.get array).payload = .array buffer)
    (held' : (state.heap.get result).payload = .array kept)
    (same : kept.live = firsts (state.heap.agree []) [] buffer.live)
    (each : ∀ item ∈ buffer.live, machine.Settled state item) (settled : machine.Settled state value) :
    ∃ answer last last',
      machine.runMethod (.builtin (.array .contains)) [array, value] state =
          .ok (machine.boolValue answer) last ∧
        machine.runMethod (.builtin (.array .contains)) [result, value] state =
          .ok (machine.boolValue answer) last' := by
  have keptEach : ∀ item ∈ kept.live, machine.Settled state item := by
    intro item mem
    rw [same] at mem
    exact each item ((firsts_sublist [] buffer.live).subset mem)
  obtain ⟨last, ran⟩ := contains_settled live held each settled
  obtain ⟨last', ran'⟩ := contains_settled live held' keptEach settled
  rw [same, any_firsts] at ran'
  exact ⟨_, last, last', ran, ran'⟩

/-- **`dedupe` keeps exactly the elements that equal no earlier one.** It returns a new array of
them, in their order, and changes nothing that was there. No two of them are equal, and `contains`
finds in the new array what it finds in the old one. -/
theorem dedupe_keeps_firsts {buffer : Buffer} {array : Ref} (live : machine.Live state)
    (held : (state.heap.get array).payload = .array buffer)
    (each : ∀ item ∈ buffer.live, machine.Settled state item) :
    ∃ result after, machine.runMethod (.builtin (.array .dedupe)) [array] state = .ok result after ∧
      machine.Dedupes state array buffer.live result after := by
  obtain ⟨result, after, ran, grows, fresh, holds⟩ := dedupe_makes live held each
  have liveAfter : machine.Live after := ⟨live.complete, live.shares.persists grows.heap.persists⟩
  have settled (item) (mem : item ∈ buffer.live) : machine.Settled after item :=
    (each item mem).grows grows
  have found : firsts (machine.finds state) [] buffer.live =
      firsts (state.heap.agree []) [] buffer.live :=
    firsts_congr fun x mem y mem' => (finds_settled live (.refl state) (each x mem) (each y mem')).1
  refine ⟨result, after, ran, ?_⟩
  constructor
  case fresh =>
    intro box before
    have smaller := before.lt
    omega
  case holds => exact ⟨_, holds, by rw [Buffer.live_ofItems, found]⟩
  case compared =>
    exact fun x mem y mem' => (finds_settled live (.refl state) (each x mem) (each y mem')).2
  case distinct =>
    rw [found]
    exact pairwise_compared liveAfter grows each
  case contains =>
    intro value valueSettled
    have inside : array.index < state.heap.size :=
      Heap.lt_size_of_payload (by rw [held]; exact Payload.noConfusion)
    have heldAfter : (after.heap.get array).payload = .array buffer := by
      rw [(grows.heap _ _ (Heap.holds_get inside)).get, held]
    have agrees : firsts (state.heap.agree []) [] buffer.live =
        firsts (after.heap.agree []) [] buffer.live := by
      refine firsts_congr fun x mem y mem' => ?_
      rw [← (finds_settled liveAfter grows (each x mem) (each y mem')).1]
      exact (finds_settled liveAfter (.refl after) (settled x mem) (settled y mem')).1
    exact contains_firsts liveAfter heldAfter (by rw [holds.get])
      (by rw [Buffer.live_ofItems, agrees]) settled valueSettled
  case unchanged => exact grows.heap

/-- On the machine with builtin types only, two boxes of one `Int`, and an array of both. -/
def twinState : State :=
  { bareState with heap := ⟨bareState.heap.boxes ++ #[⟨bare.ids.int, .int 1⟩, ⟨bare.ids.int, .int 1⟩,
    ⟨bare.ids.array, .array ⟨#[⟨6⟩, ⟨7⟩], 2⟩⟩]⟩ }

theorem settled_twins {item : Ref} (mem : item ∈ [(⟨6⟩ : Ref), ⟨7⟩]) :
    bare.Settled twinState item := by
  have held : twinState.heap.Holds item ⟨bare.ids.int, .int 1⟩ := by
    simp only [List.mem_cons, List.not_mem_nil, or_false] at mem
    rcases mem with rfl | rfl <;> rfl
  have leaf : twinState.heap.items item = [] :=
    Heap.items_of_leaf (by rw [held.get]; exact fun _ => Payload.noConfusion)
  refine .of_none rfl (Heap.within_of_items_nil leaf held rfl) ?_
  intro holder reaches next nextMem
  rw [reaches.eq_of_items_nil leaf, leaf] at nextMem
  cases nextMem

/-- Of two boxes of one `Int` the first is kept. -/
theorem dedupe_keeps_firsts_of_twins : ∃ result after,
    bare.runMethod (.builtin (.array .dedupe)) [⟨8⟩] twinState = .ok result after ∧
      bare.Dedupes twinState ⟨8⟩ [⟨6⟩, ⟨7⟩] result after ∧
        firsts (bare.finds twinState) [] [⟨6⟩, ⟨7⟩] = [⟨6⟩] := by
  have kept : firsts (bare.finds twinState) [] [⟨6⟩, ⟨7⟩] = [⟨6⟩] := by decide +kernel
  have held : (twinState.heap.get ⟨8⟩).payload = .array ⟨#[⟨6⟩, ⟨7⟩], 2⟩ := rfl
  obtain ⟨result, after, ran, dedupes⟩ :=
    dedupe_keeps_firsts (live_bare_append _) held fun item mem => settled_twins mem
  exact ⟨result, after, ran, dedupes, kept⟩

end Machine

end BoxedValues
