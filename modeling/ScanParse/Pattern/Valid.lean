import ScanParse.Pattern.Bracket
import ScanParse.Text.Numeric

/-!
Which texts are patterns. A pattern is read sign by sign, with the groups that are open around the
place where the reading stands. Groups, repetitions, brackets and pieces side by side nest; a
pattern that nests too deep is not valid.
-/

namespace ScanParse.Pattern

open ScanParse.Text

structure Part where
  /-- How deep it nests. -/
  depth : Nat
  /-- It can be repeated. -/
  repeatable : Bool
deriving DecidableEq, Repr

/-- What has been read of one group. -/
structure Group where
  mode : Mode
  /-- The depths of the branches before the last bar. -/
  branches : List Nat
  /-- The parts behind the last bar, last first. -/
  parts : List Part
deriving Repr

namespace Group

/-- A group of which nothing has been read. -/
def empty (mode : Mode) : Group :=
  ⟨mode, [], []⟩

/-- The depth of the branch behind the last bar. -/
def branchDepth (group : Group) : Nat :=
  joinedDepth (group.parts.map Part.depth)

/-- The depth of what has been read. -/
def depth (group : Group) : Nat :=
  joinedDepth (group.branchDepth :: group.branches)

def add (group : Group) (part : Part) : Group :=
  { group with parts := part :: group.parts }

/-- A bar behind what has been read. -/
def divide (group : Group) : Group :=
  { group with branches := group.branchDepth :: group.branches, parts := [] }

/-- A sign of repetition behind what has been read. -/
def repeat? (group : Group) : Option Group :=
  match group.parts with
  | [] => none
  | part :: parts =>
      if part.repeatable then some { group with parts := ⟨part.depth + 1, true⟩ :: parts } else none

end Group

/-- What has been read of a pattern. -/
structure Reader where
  /-- The innermost group. -/
  group : Group
  /-- The groups around it, innermost first. -/
  outer : List Group
  /-- The names of groups. -/
  names : List String
deriving Repr

namespace Reader

def initial : Reader :=
  ⟨.empty .initial, [], []⟩

/-- A further part of the innermost group. -/
def add (reader : Reader) (part : Part) : Reader :=
  { reader with group := reader.group.add part }

/-- The start of a group in a mode. -/
def enter (reader : Reader) (mode : Mode) : Reader :=
  { reader with group := .empty mode, outer := reader.group :: reader.outer }

def leave? (reader : Reader) : Option Reader :=
  match reader.outer with
  | [] => none
  | group :: outer =>
      some { reader with group := group.add ⟨reader.group.depth + 1, true⟩, outer }

/-- A name that a group can have. -/
def isName : List Char → Bool
  | [] => false
  | first :: rest =>
      (first == '_' || isAlphabetic first) &&
        rest.all fun c => c == '_' || c == '.' || c == '[' || c == ']' || isAlphanumeric c

/-- The start of a group with a name, behind the sign before the name. -/
def enterNamed? (reader : Reader) (cs : List Char) : Option (Reader × List Char) :=
  let name := cs.takeWhile (· != '>')
  match cs.drop name.length with
  | [] => none
  | _ :: rest =>
      if isName name ∧ ¬ reader.names.contains (String.ofList name) then
        let names := String.ofList name :: reader.names
        some ({ reader with names }.enter reader.group.mode, rest)
      else none

/-- The start of a group with flags, or flags for the rest of the group. -/
def switch? (reader : Reader) (cs : List Char) : Option (Reader × List Char) :=
  let letters := cs.takeWhile fun c => c != ':' && c != ')'
  if Mode.areFlags letters then
    let mode := reader.group.mode.switched letters
    match cs.drop letters.length with
    | [] => none
    | ':' :: rest => some (reader.enter mode, rest)
    | _ :: rest =>
        if letters.isEmpty then none
        else
          let group := reader.group.add ⟨0, false⟩
          some ({ reader with group := { group with mode } }, rest)
  else none

def openRound? (reader : Reader) (cs : List Char) : Option (Reader × List Char) :=
  match reader.group.mode.skip cs with
  | '?' :: 'P' :: '<' :: rest => reader.enterNamed? rest
  | '?' :: '<' :: rest => reader.enterNamed? rest
  | '?' :: rest => reader.switch? rest
  | rest => some (reader.enter reader.group.mode, rest)

/-- A sign of repetition, with the question mark that may follow it. -/
def repeat? (reader : Reader) (cs : List Char) : Option (Reader × List Char) :=
  match reader.group.repeat? with
  | none => none
  | some group =>
      let rest := match cs with
        | '?' :: rest => rest
        | _ => cs
      some ({ reader with group }, rest)

def sign? (reader : Reader) (cs : List Char) : Option (Reader × List Char) :=
  match Sign.read? reader.group.mode cs with
  | none => none
  | some (sign, rest) =>
      if sign.isAllowed reader.group.mode then some (reader.add ⟨0, true⟩, rest) else none

/-- Reads on, and gives what stands behind. -/
def step? (reader : Reader) : List Char → Option (Reader × List Char)
  | [] => none
  | '(' :: rest => reader.openRound? rest
  | ')' :: rest => reader.leave?.map fun reader => (reader, rest)
  | '|' :: rest => some ({ reader with group := reader.group.divide }, rest)
  | '[' :: rest =>
      (Bracket.read? reader.group.mode rest).map fun (depth, rest) =>
        (reader.add ⟨depth, true⟩, rest)
  | '?' :: rest | '*' :: rest | '+' :: rest => reader.repeat? rest
  | '\x7b' :: _ => none
  | cs => reader.sign? cs

/-- The deepest nesting of a valid pattern. -/
def maxDepth : Nat := 250

def isComplete (reader : Reader) : Bool :=
  reader.outer.isEmpty && reader.group.depth ≤ maxDepth

theorem length_lt_of_enterNamed? {reader next : Reader} {cs rest : List Char}
    (h : reader.enterNamed? cs = some (next, rest)) : rest.length < cs.length := by
  simp only [enterNamed?] at h
  split at h
  · simp at h
  · rename_i heq
    have hdrop := congrArg List.length heq
    simp only [List.length_drop, List.length_cons] at hdrop
    split at h
    · simp only [Option.some.injEq, Prod.mk.injEq] at h
      rw [← h.2]
      omega
    · simp at h

theorem length_lt_of_switch? {reader next : Reader} {cs rest : List Char}
    (h : reader.switch? cs = some (next, rest)) : rest.length < cs.length := by
  simp only [switch?] at h
  split at h
  · split at h
    · simp at h
    · rename_i heq
      have hdrop := congrArg List.length heq
      simp only [List.length_drop, List.length_cons] at hdrop
      simp only [Option.some.injEq, Prod.mk.injEq] at h
      rw [← h.2]
      omega
    · rename_i heq
      have hdrop := congrArg List.length heq
      simp only [List.length_drop, List.length_cons] at hdrop
      split at h
      · simp at h
      · simp only [Option.some.injEq, Prod.mk.injEq] at h
        rw [← h.2]
        omega
  · simp at h

theorem length_le_of_openRound? {reader next : Reader} {cs rest : List Char}
    (h : reader.openRound? cs = some (next, rest)) : rest.length ≤ cs.length := by
  have hskip := reader.group.mode.length_skip_le cs
  unfold openRound? at h
  split at h
  · rename_i heq
    have := length_lt_of_enterNamed? h
    rw [heq] at hskip
    simp only [List.length_cons] at hskip
    omega
  · rename_i heq
    have := length_lt_of_enterNamed? h
    rw [heq] at hskip
    simp only [List.length_cons] at hskip
    omega
  · rename_i heq
    have := length_lt_of_switch? h
    rw [heq] at hskip
    simp only [List.length_cons] at hskip
    omega
  · simp only [Option.some.injEq, Prod.mk.injEq] at h
    rw [← h.2]
    exact hskip

theorem length_le_of_repeat? {reader next : Reader} {cs rest : List Char}
    (h : reader.repeat? cs = some (next, rest)) : rest.length ≤ cs.length := by
  unfold repeat? at h
  split at h
  · simp at h
  · simp only [Option.some.injEq, Prod.mk.injEq] at h
    rw [← h.2]
    split <;> simp

theorem length_lt_of_step? {reader next : Reader} {cs rest : List Char}
    (h : reader.step? cs = some (next, rest)) : rest.length < cs.length := by
  unfold step? at h
  split at h
  · simp at h
  · exact Nat.lt_succ_of_le (length_le_of_openRound? h)
  · obtain ⟨_, _, heq⟩ := Option.map_eq_some_iff.mp h
    simp only [Prod.mk.injEq] at heq
    simp [← heq.2]
  · simp only [Option.some.injEq, Prod.mk.injEq] at h
    simp [← h.2]
  · obtain ⟨⟨depth, behind⟩, hread, heq⟩ := Option.map_eq_some_iff.mp h
    simp only [Prod.mk.injEq] at heq
    exact Nat.lt_succ_of_le (heq.2 ▸ Bracket.length_le_of_read? hread)
  · exact Nat.lt_succ_of_le (length_le_of_repeat? h)
  · exact Nat.lt_succ_of_le (length_le_of_repeat? h)
  · exact Nat.lt_succ_of_le (length_le_of_repeat? h)
  · simp at h
  · unfold sign? at h
    split at h
    · simp at h
    · rename_i sign behind hread
      have := Sign.length_lt_of_read? hread
      split at h
      · simp only [Option.some.injEq, Prod.mk.injEq] at h
        exact h.2 ▸ this
      · simp at h

/-- The rest of a pattern is valid. -/
def acceptsFrom (reader : Reader) (cs : List Char) : Bool :=
  match _hskip : reader.group.mode.skip cs with
  | [] => reader.isComplete
  | c :: rest =>
      match _hstep : reader.step? (c :: rest) with
      | none => false
      | some (reader, rest) => reader.acceptsFrom rest
termination_by cs.length
decreasing_by
  have := length_lt_of_step? _hstep
  have := _hskip ▸ Mode.length_skip_le _ cs
  omega

end Reader

/-- A text is a pattern. A repetition by numbers between braces is none: fields cannot hold its
closing brace. -/
def isValid (cs : List Char) : Bool :=
  Reader.initial.acceptsFrom cs

end ScanParse.Pattern
