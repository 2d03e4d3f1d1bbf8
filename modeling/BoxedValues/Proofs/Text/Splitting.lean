import Mathlib.Data.List.Pairwise
import Mathlib.Data.List.Sort
import BoxedValues.Text.Split

/-!
# Where a text is cut

Splitting a text at a separator, against the places where the separator stands in it.

* `LeftmostMatches` says which places are chosen: copies of the separator that do not overlap, such
  that every copy begins within a chosen one. There is one such choice (`LeftmostMatches.unique`);
* `Split.split_eq_partsFrom`: **the pieces are the parts between these places**;
* `Split.not_infix_of_mem_split`: no piece contains the separator;
* `Split.flatten_intersperse_split`: the pieces with the separator between any two are the text.

All of these are proved along the recursion of `Split.pieces`, of which each step takes the leftmost
copy (`Split.le_of_cut?`).
-/

set_option autoImplicit false

namespace BoxedValues

/-- A copy of the separator begins at the place. -/
def OccursAt (separator text : List Char) (place : Nat) : Prop := separator <+: text.drop place

/-- The places of copies from left to right, each the first behind the end of the one before. -/
structure LeftmostMatches (separator text : List Char) (places : List Nat) : Prop where
  occurs : ∀ place ∈ places, OccursAt separator text place
  apart : places.Pairwise fun place next => place + separator.length ≤ next
  leftmost : ∀ other, OccursAt separator text other →
    ∃ place ∈ places, place ≤ other ∧ other < place + separator.length

/-- The parts of a text from the place `start` on, between copies of so many characters. -/
def partsFrom (width : Nat) (text : List Char) (start : Nat) : List Nat → List (List Char)
  | [] => [text.drop start]
  | place :: places =>
    (text.drop start).take (place - start) :: partsFrom width text (place + width) places

variable {separator text before after : List Char} {place : Nat} {places others : List Nat}

theorem length_partsFrom (width : Nat) (text : List Char) (start : Nat) (places : List Nat) :
    (partsFrom width text start places).length = places.length + 1 := by
  induction places generalizing start with
  | nil => rfl
  | cons place places ih => rw [partsFrom, List.length_cons, ih, List.length_cons]

/-- Places counted from a later point of the text. -/
theorem partsFrom_drop (width : Nat) (text : List Char) (shift start : Nat) (places : List Nat) :
    partsFrom width (text.drop shift) start places =
      partsFrom width text (start + shift) (places.map (· + shift)) := by
  induction places generalizing start with
  | nil => simp [partsFrom, List.drop_drop, Nat.add_comm]
  | cons place places ih =>
    have size : place + shift - (start + shift) = place - start := by omega
    have next : place + width + shift = place + shift + width := by omega
    simp only [partsFrom, List.map_cons, ih, List.drop_drop, size, next, Nat.add_comm shift start]

theorem occursAt_drop (shift : Nat) :
    OccursAt separator (text.drop shift) place ↔ OccursAt separator text (place + shift) := by
  rw [OccursAt, OccursAt, List.drop_drop, Nat.add_comm]

theorem occursAt_append (before separator after : List Char) :
    OccursAt separator (before ++ separator ++ after) before.length := by
  rw [OccursAt, List.append_assoc, List.drop_left]
  exact List.prefix_append separator after

namespace LeftmostMatches

theorem nil (nowhere : ∀ place, ¬OccursAt separator text place) :
    LeftmostMatches separator text [] :=
  ⟨nofun, .nil, fun other there => absurd there (nowhere other)⟩

/-- The leftmost copy, and the chosen ones behind it. -/
theorem cons (occurs : OccursAt separator text place)
    (least : ∀ other, OccursAt separator text other → place ≤ other)
    (rest : LeftmostMatches separator (text.drop (place + separator.length)) places) :
    LeftmostMatches separator text
      (place :: places.map (· + (place + separator.length))) := by
  constructor
  case occurs =>
    refine List.forall_mem_cons.2 ⟨occurs, List.forall_mem_map.2 fun next mem => ?_⟩
    exact (occursAt_drop _).1 (rest.occurs next mem)
  case apart =>
    refine List.pairwise_cons.2 ⟨List.forall_mem_map.2 fun next _ => by omega, ?_⟩
    refine List.pairwise_map.2 (rest.apart.imp fun {a b} apart => ?_)
    omega
  case leftmost =>
    intro other there
    by_cases inside : other < place + separator.length
    · exact ⟨place, .head _, least other there, inside⟩
    · have behind : OccursAt separator (text.drop (place + separator.length))
          (other - (place + separator.length)) := by
        rw [occursAt_drop, Nat.sub_add_cancel (by omega)]
        exact there
      obtain ⟨chosen, mem, low, high⟩ := rest.leftmost _ behind
      refine ⟨_, .tail _ (List.mem_map_of_mem mem), ?_, ?_⟩ <;> omega

/-- Two chosen places do not overlap. -/
theorem add_length_le (chosen : LeftmostMatches separator text places) {first second : Nat}
    (mem : first ∈ places) (mem' : second ∈ places) (lt : first < second) :
    first + separator.length ≤ second := by
  have symmetric : Std.Symm fun place next : Nat =>
      place + separator.length ≤ next ∨ next + separator.length ≤ place := ⟨fun _ _ => Or.symm⟩
  have either := (chosen.apart.imp Or.inl : places.Pairwise fun place next =>
    place + separator.length ≤ next ∨ next + separator.length ≤ place).forall mem mem' lt.ne
  omega

/-- A place is chosen if those before it are chosen alike. -/
theorem mem_of_mem (chosen : LeftmostMatches separator text places)
    (other : LeftmostMatches separator text others)
    (earlier : ∀ next < place, next ∈ others → next ∈ places) (mem : place ∈ places) :
    place ∈ others := by
  obtain ⟨near, mem', low, high⟩ := other.leftmost place (chosen.occurs place mem)
  rcases low.eq_or_lt with rfl | lt
  · exact mem'
  · have apart := chosen.add_length_le (earlier near lt mem') mem lt
    omega

/-- **The choice is unique.** -/
theorem unique (nonempty : separator ≠ []) (chosen : LeftmostMatches separator text places)
    (other : LeftmostMatches separator text others) : places = others := by
  have positive := List.length_pos_iff.2 nonempty
  have same : ∀ place, place ∈ places ↔ place ∈ others := by
    intro place
    induction place using Nat.strong_induction_on with
    | _ place ih =>
      exact ⟨chosen.mem_of_mem other fun next lt => (ih next lt).2,
        other.mem_of_mem chosen fun next lt => (ih next lt).1⟩
  have increasing {list : List Nat} (apart : list.Pairwise fun place next =>
      place + separator.length ≤ next) : list.Pairwise (· < ·) :=
    apart.imp fun {a b} le => by omega
  exact List.Pairwise.eq_of_mem_iff (increasing chosen.apart) (increasing other.apart) same

end LeftmostMatches

namespace Split

/-! ## One cut -/

theorem occursAt_zero_iff : OccursAt separator text 0 ↔ (stripStart? separator text).isSome := by
  rw [OccursAt, List.drop_zero, Option.isSome_iff_exists]
  simp only [stripStart?_eq_some_iff]
  exact ⟨fun ⟨rest, same⟩ => ⟨rest, same.symm⟩, fun ⟨rest, same⟩ => ⟨rest, same.symm⟩⟩

/-- No copy is found only where there is none. -/
theorem not_occursAt_of_cut? (h : cut? separator text = none) (place : Nat) :
    ¬OccursAt separator text place := by
  induction text generalizing place with
  | nil =>
    rw [cut?, Option.map_eq_none_iff] at h
    rw [show OccursAt separator [] place ↔ OccursAt separator [] 0 by simp [OccursAt],
      occursAt_zero_iff, h]
    exact Bool.false_ne_true
  | cons c text ih =>
    rw [cut?] at h
    split at h
    · cases h
    · rename_i apart
      rw [Option.map_eq_none_iff] at h
      cases place with
      | zero =>
        rw [occursAt_zero_iff, apart]
        exact Bool.false_ne_true
      | succ place => exact ih h place

/-- A cut is made at the leftmost copy. -/
theorem le_of_cut? (h : cut? separator text = some (before, after))
    (there : OccursAt separator text place) : before.length ≤ place := by
  induction text generalizing before place with
  | nil =>
    obtain ⟨_, _, ⟨⟩⟩ := Option.map_eq_some_iff.1 h
    exact Nat.zero_le place
  | cons c text ih =>
    rw [cut?] at h
    split at h
    · cases h
      exact Nat.zero_le place
    · rename_i apart
      obtain ⟨⟨start, rest⟩, found, ⟨⟩⟩ := Option.map_eq_some_iff.1 h
      cases place with
      | zero =>
        rw [occursAt_zero_iff, apart] at there
        cases there
      | succ place => exact Nat.succ_le_succ (ih found there)

/-! ## All cuts -/

theorem pieces_eq_partsFrom (nonempty : separator ≠ []) (text : List Char) :
    ∃ places, LeftmostMatches separator text places ∧
      pieces separator nonempty text = partsFrom separator.length text 0 places := by
  fun_induction pieces separator nonempty text with
  | case1 text uncut =>
    exact ⟨[], .nil (not_occursAt_of_cut? uncut), rfl⟩
  | case2 text before after cut ih =>
    obtain ⟨places, chosen, same⟩ := ih
    have joined := append_of_cut? cut
    have front : text.take before.length = before := by
      rw [joined, List.append_assoc, List.take_left]
    have behind : text.drop (before.length + separator.length) = after := by
      rw [joined, ← List.length_append, List.drop_left]
    rw [← behind] at chosen same
    refine ⟨_, .cons ?_ (fun _ => le_of_cut? cut) chosen, ?_⟩
    · rw [joined]
      exact occursAt_append before separator after
    · rw [partsFrom, List.drop_zero, Nat.sub_zero, front, ← behind, same, partsFrom_drop, Nat.zero_add]

theorem not_infix_of_mem_pieces (nonempty : separator ≠ []) :
    ∀ piece ∈ pieces separator nonempty text, ¬separator <:+: piece := by
  have positive := List.length_pos_iff.2 nonempty
  fun_induction pieces separator nonempty text with
  | case1 text uncut =>
    rintro piece mem ⟨front, back, same⟩
    rw [List.mem_singleton.1 mem] at same
    rw [← same] at uncut
    exact not_occursAt_of_cut? uncut _ (occursAt_append front separator back)
  | case2 text before after cut ih =>
    refine List.forall_mem_cons.2 ⟨?_, ih⟩
    rintro ⟨front, back, rfl⟩
    have early : OccursAt separator text front.length := by
      rw [append_of_cut? cut, List.append_assoc _ separator after,
        List.append_assoc _ back (separator ++ after)]
      exact occursAt_append front separator _
    have late := le_of_cut? cut early
    simp only [List.length_append] at late
    omega

theorem pieces_ne_nil (nonempty : separator ≠ []) (text : List Char) :
    pieces separator nonempty text ≠ [] := by
  fun_cases pieces separator nonempty text <;> nofun

theorem flatten_intersperse_pieces (nonempty : separator ≠ []) (text : List Char) :
    ((pieces separator nonempty text).intersperse separator).flatten = text := by
  fun_induction pieces separator nonempty text with
  | case1 text uncut => simp
  | case2 text before after cut ih =>
    obtain ⟨piece, rest, same⟩ := List.exists_cons_of_ne_nil (pieces_ne_nil nonempty after)
    rw [same] at ih ⊢
    rw [List.intersperse_cons_cons, List.flatten_cons, List.flatten_cons, ih, append_of_cut? cut,
      List.append_assoc]

/-! ## Splitting -/

/-- **The pieces are the parts between the leftmost copies of the separator.** -/
theorem split_eq_partsFrom (nonempty : separator ≠ []) (text : List Char) :
    ∃ places, LeftmostMatches separator text places ∧
      split separator text = partsFrom separator.length text 0 places := by
  rw [split, dif_neg nonempty]
  exact pieces_eq_partsFrom nonempty text

theorem not_infix_of_mem_split (nonempty : separator ≠ []) :
    ∀ piece ∈ split separator text, ¬separator <:+: piece := by
  rw [split, dif_neg nonempty]
  exact not_infix_of_mem_pieces nonempty

theorem split_nil (text : List Char) : split [] text = text.map fun c => [c] := dif_pos rfl

/-- **Joining the pieces gives the text back**, for any separator. -/
theorem flatten_intersperse_split (separator text : List Char) :
    ((split separator text).intersperse separator).flatten = text := by
  by_cases empty : separator = []
  · rw [empty, split_nil]
    induction text with
    | nil => rfl
    | cons c text ih =>
      cases text with
      | nil => rfl
      | cons d text =>
        rw [List.map_cons, List.map_cons, List.intersperse_cons_cons, List.flatten_cons,
          List.flatten_cons]
        exact congrArg (c :: ·) ih
  · rw [split, dif_neg empty]
    exact flatten_intersperse_pieces empty text

/-- A separator that overlaps itself is found from the left. -/
example : split ['a', 'a'] "aaaba".toList = [[], "aba".toList] := by decide +kernel

end Split

end BoxedValues
