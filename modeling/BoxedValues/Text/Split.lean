/-!
# Cutting text

What `string_split`, `string_lines`, `string_trim`, `string_trim_start` and `string_trim_end` do to
a text: splitting it at a separator or at its line ends, and taking copies of a pattern off its
ends.

* `Split.stripStart?` takes one pattern off the beginning;
* `Split.cut?` finds the leftmost separator, and `Split.pieces` all of them from left to right;
* `Split.lines` ends a line at a line feed, with the carriage return before it if there is one.
-/

set_option autoImplicit false

namespace BoxedValues.Split

/-! ## Patterns at the ends -/

/-- What follows `pattern` at the beginning of a text. -/
def stripStart? : List Char → List Char → Option (List Char)
  | [], text => some text
  | _ :: _, [] => none
  | p :: pattern, c :: text => if p = c then stripStart? pattern text else none

theorem stripStart?_eq_some_iff {pattern text rest : List Char} :
    stripStart? pattern text = some rest ↔ text = pattern ++ rest := by
  induction pattern generalizing text with
  | nil => simp [stripStart?]
  | cons p pattern ih =>
    cases text with
    | nil => simp [stripStart?]
    | cons c text =>
      by_cases h : p = c
      · simp [stripStart?, h, ih]
      · simp [stripStart?, h, Ne.symm h]

/-- A text without the copies of `pattern` at its beginning. The empty pattern takes nothing
off. -/
def trimStart (pattern text : List Char) : List Char :=
  if _ : pattern = [] then text
  else
    match _stripped : stripStart? pattern text with
    | some rest => trimStart pattern rest
    | none => text
termination_by text.length
decreasing_by
  rw [stripStart?_eq_some_iff] at _stripped
  cases pattern with
  | nil => contradiction
  | cons p pattern =>
    rw [_stripped]
    simp only [List.length_append, List.length_cons]
    omega

/-- A text without the copies of `pattern` at its end. -/
def trimEnd (pattern text : List Char) : List Char :=
  (trimStart pattern.reverse text.reverse).reverse

/-! ## Separators -/

/-- The text before the leftmost `separator` and the text behind it. -/
def cut? (separator : List Char) : List Char → Option (List Char × List Char)
  | [] => (stripStart? separator []).map ([], ·)
  | c :: text =>
    match stripStart? separator (c :: text) with
    | some rest => some ([], rest)
    | none => (cut? separator text).map fun (before, after) => (c :: before, after)

theorem append_of_cut? {separator text before after : List Char}
    (h : cut? separator text = some (before, after)) : text = before ++ separator ++ after := by
  induction text generalizing before with
  | nil =>
    simp only [cut?, Option.map_eq_some_iff, Prod.mk.injEq] at h
    obtain ⟨rest, hrest, rfl, rfl⟩ := h
    simpa using stripStart?_eq_some_iff.1 hrest
  | cons c text ih =>
    simp only [cut?] at h
    split at h
    · next rest hrest =>
      simp only [Option.some.injEq, Prod.mk.injEq] at h
      obtain ⟨rfl, rfl⟩ := h
      simpa using stripStart?_eq_some_iff.1 hrest
    · simp only [Option.map_eq_some_iff, Prod.mk.injEq] at h
      obtain ⟨⟨before', after'⟩, hcut, rfl, rfl⟩ := h
      simp [ih hcut]

/-- The pieces of a text between separators, cut from left to right. A separator must not be
empty. -/
def pieces (separator : List Char) (nonempty : separator ≠ []) (text : List Char) :
    List (List Char) :=
  match _cut : cut? separator text with
  | none => [text]
  | some (before, after) => before :: pieces separator nonempty after
termination_by text.length
decreasing_by
  have := List.length_pos_iff.2 nonempty
  rw [append_of_cut? _cut]
  simp only [List.length_append]
  omega

/-- The pieces of a text between separators; with an empty separator, its characters. -/
def split (separator text : List Char) : List (List Char) :=
  if h : separator = [] then text.map fun c => [c] else pieces separator h text

/-! ## Lines -/

/-- A line, given backwards, without a carriage return at its end. -/
def dropReturn : List Char → List Char
  | '\r' :: line => line
  | line => line

/-- The lines of a text that follows `line`, the current line backwards. -/
def linesFrom (line : List Char) : List Char → List (List Char)
  | [] => if line.isEmpty then [] else [line.reverse]
  | c :: text =>
    if c = '\n' then (dropReturn line).reverse :: linesFrom [] text
    else linesFrom (c :: line) text

/-- The lines of a text without their ends. What follows the last line feed is a line only if it
is not empty, and keeps a carriage return. -/
def lines (text : List Char) : List (List Char) := linesFrom [] text

end BoxedValues.Split
