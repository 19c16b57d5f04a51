import Lsw.Lib.Pieces

/-!
# Options whose Values are Lists

A program reads its arguments as options, and some options take the next argument as a value.
Such a value often is a list, parted at a separator; some programs take two separators in a row for
one that is part of an item, others have no way to write it.

`doubled` writes an item for the former, and `splitDoubled_joined` says when a list of items
is read back.  `Reads` composes along the arguments, as they are written one option after the other.
Nothing here names a particular program.
-/

namespace Lsw.Lib

variable {α : Type} [DecidableEq α] {sep : α}

/-! ## Items -/

/-- An item, with each separator twice. -/
def doubled (sep : α) (item : List α) : List α :=
  item.flatMap fun a => if a = sep then [sep, sep] else [a]

/-- The items of a list, where two separators are one that is part of an item.  `item` is what has
    been read of the first. -/
def splitDoubled (sep : α) (item : List α) : List α → List (List α)
  | [] => [item]
  | [a] => if a = sep then [item, []] else [item ++ [a]]
  | a :: b :: rest =>
    if a ≠ sep then splitDoubled sep (item ++ [a]) (b :: rest)
    else if b = sep then splitDoubled sep (item ++ [sep]) rest
    else item :: splitDoubled sep [] (b :: rest)

@[simp] theorem doubled_nil : doubled sep [] = [] := rfl

theorem doubled_append (item other : List α) :
    doubled sep (item ++ other) = doubled sep item ++ doubled sep other := by
  simp [doubled]

theorem doubled_of_not_mem {item : List α} (h : sep ∉ item) : doubled sep item = item := by
  induction item with
  | nil => rfl
  | cons a item ih =>
    obtain ⟨ha, hitem⟩ := not_or.mp (mt List.mem_cons.mpr h)
    rw [doubled, List.flatMap_cons, if_neg (Ne.symm ha), ← doubled, ih hitem]
    rfl

theorem splitDoubled_cons {a : α} (ha : a ≠ sep) (item rest : List α) :
    splitDoubled sep item (a :: rest) = splitDoubled sep (item ++ [a]) rest := by
  cases rest with
  | nil => simp [splitDoubled, ha]
  | cons b rest => simp [splitDoubled, ha]

theorem splitDoubled_double (item rest : List α) :
    splitDoubled sep item (sep :: sep :: rest) = splitDoubled sep (item ++ [sep]) rest := by
  simp [splitDoubled]

/-- A separator in front of something else ends an item. -/
theorem splitDoubled_separator {a : α} (ha : a ≠ sep) (item rest : List α) :
    splitDoubled sep item (sep :: a :: rest) = item :: splitDoubled sep [] (a :: rest) := by
  simp [splitDoubled, ha]

/-- What is written of an item is read as part of it, whatever follows. -/
theorem splitDoubled_doubled (item other rest : List α) :
    splitDoubled sep item (doubled sep other ++ rest) = splitDoubled sep (item ++ other) rest := by
  induction other generalizing item with
  | nil => simp
  | cons a other ih =>
    have hsplit : doubled sep (a :: other) = doubled sep [a] ++ doubled sep other :=
      doubled_append [a] other
    rw [hsplit, List.append_assoc]
    by_cases ha : a = sep
    · have hdouble : doubled sep [a] = [sep, sep] := by simp [doubled, ha]
      rw [hdouble, List.cons_append, List.singleton_append, splitDoubled_double, ih, ha,
        List.append_assoc, List.singleton_append]
    · have hsingle : doubled sep [a] = [a] := doubled_of_not_mem (by simpa using Ne.symm ha)
      rw [hsingle, List.singleton_append, splitDoubled_cons ha, ih, List.append_assoc,
        List.singleton_append]

/-- An item that can follow another one: the separator in front of it is on its own. -/
def follows (sep : α) (item : List α) : Bool := item.head?.any (· ≠ sep)

/-- Items are split again where single separators stand. -/
theorem splitDoubled_flatMap (item : List α) {others : List (List α)}
    (h : ∀ other ∈ others, follows sep other = true) :
    splitDoubled sep item (others.flatMap fun other => sep :: doubled sep other) =
      item :: others := by
  induction others generalizing item with
  | nil => rfl
  | cons other others ih =>
    obtain ⟨a, hhead, ha⟩ := (Option.any_eq_true _ _).mp (h other List.mem_cons_self)
    obtain ⟨tail, rfl⟩ := List.head?_eq_some_iff.mp hhead
    have hne : a ≠ sep := by simpa using ha
    have hfirst : doubled sep (a :: tail) = a :: doubled sep tail := by
      simp [doubled, hne]
    have hloop := ih (a :: tail) fun next hnext => h next (List.mem_cons_of_mem _ hnext)
    rw [List.flatMap_cons, List.cons_append, hfirst, List.cons_append,
      splitDoubled_separator hne, ← List.cons_append, ← hfirst, splitDoubled_doubled,
      List.nil_append, hloop]

/-- A list as it is written. -/
def joined (sep : α) : List (List α) → List α
  | [] => []
  | [item] => doubled sep item
  | item :: others => doubled sep item ++ sep :: joined sep others

theorem joined_cons (item : List α) (others : List (List α)) :
    joined sep (item :: others) =
      doubled sep item ++ others.flatMap fun other => sep :: doubled sep other := by
  induction others generalizing item with
  | nil => simp [joined]
  | cons other others ih =>
    have hstep : joined sep (item :: other :: others) =
        doubled sep item ++ sep :: joined sep (other :: others) := rfl
    rw [hstep, ih, List.flatMap_cons, List.cons_append]

theorem joined_singleton {item : List α} (h : sep ∉ item) : joined sep [item] = item :=
  doubled_of_not_mem h

/-- A list that can be written: there is an item, and each other one can follow. -/
def separable (sep : α) : List (List α) → Bool
  | [] => false
  | _ :: others => others.all (follows sep)

/-- A list of items that is written with doubled separators is read back. -/
theorem splitDoubled_joined {items : List (List α)} (h : separable sep items = true) :
    splitDoubled sep [] (joined sep items) = items := by
  cases items with
  | nil => cases h
  | cons item others =>
    rw [joined_cons, splitDoubled_doubled, List.nil_append,
      splitDoubled_flatMap item (List.all_eq_true.mp h)]

/-- A list is parted in the same way under other names. -/
theorem splitDoubled_map {β : Type} [DecidableEq β] {f : α → β} (hf : ∀ a, f a = f sep ↔ a = sep)
    (item s : List α) :
    splitDoubled (f sep) (item.map f) (s.map f) = (splitDoubled sep item s).map (·.map f) := by
  fun_induction splitDoubled sep item s with
  | case1 item => rfl
  | case2 item => simp [splitDoubled]
  | case3 item a ha => simp [splitDoubled, hf, ha]
  | case4 item a b rest ha ih =>
    rw [List.map_cons, splitDoubled_cons (by simpa [hf] using ha), ← ih]
    simp
  | case5 item a rest ha ih =>
    rw [not_ne_iff.mp ha, List.map_cons, List.map_cons, splitDoubled_double, ← ih]
    simp
  | case6 item a b rest ha hb ih =>
    rw [not_ne_iff.mp ha, List.map_cons, List.map_cons,
      splitDoubled_separator (by simpa [hf] using hb), List.map_cons, ← ih]
    simp

/-! ## Arguments -/

/-- How a program reads its arguments: the options without a value, the options whose value is
    taken as a whole, and how the other values are parted. -/
structure OptionGrammar (α : Type) where
  flags : List (List α)
  whole : List (List α)
  split : List α → List (List α)

/-- An option, and the items of its value. -/
abbrev OptionRead (α : Type) := List α × List (List α)

namespace OptionGrammar

variable (grammar : OptionGrammar α)

/-- The items of the value of an option. -/
def items (name value : List α) : List (List α) :=
  if name ∈ grammar.whole then [value] else grammar.split value

/-- The options that the arguments are. -/
def read : List (List α) → Option (List (OptionRead α))
  | [] => some []
  | [name] => if name ∈ grammar.flags then some [(name, [])] else none
  | name :: value :: rest =>
    if name ∈ grammar.flags then (read (value :: rest)).map ((name, []) :: ·)
    else (read rest).map ((name, grammar.items name value) :: ·)

/-- Some arguments are these options, whatever follows. -/
def Reads (grammar : OptionGrammar α) (arguments : List (List α))
    (options : List (OptionRead α)) : Prop :=
  ∀ rest, grammar.read (arguments ++ rest) = (grammar.read rest).map (options ++ ·)

variable {grammar}

theorem reads_nil : grammar.Reads [] [] := by
  intro rest
  cases hrest : grammar.read rest <;> simp [hrest]

theorem Reads.append {arguments more : List (List α)} {options others : List (OptionRead α)}
    (h : grammar.Reads arguments options) (hmore : grammar.Reads more others) :
    grammar.Reads (arguments ++ more) (options ++ others) := by
  intro rest
  rw [List.append_assoc, h, hmore, Option.map_map]
  congr 1
  funext last
  simp

theorem Reads.read {arguments : List (List α)} {options : List (OptionRead α)}
    (h : grammar.Reads arguments options) : grammar.read arguments = some options := by
  have hread := h []
  rw [List.append_nil] at hread
  rw [hread]
  simp [OptionGrammar.read]

theorem reads_flag {name : List α} (h : name ∈ grammar.flags) :
    grammar.Reads [name] [(name, [])] := by
  intro rest
  cases rest with
  | nil => simp [OptionGrammar.read, h]
  | cons value rest => simp [OptionGrammar.read, h]

theorem reads_value {name : List α} (h : name ∉ grammar.flags) (value : List α) :
    grammar.Reads [name, value] [(name, grammar.items name value)] := by
  intro rest
  simp [OptionGrammar.read, h]

end OptionGrammar

end Lsw.Lib
