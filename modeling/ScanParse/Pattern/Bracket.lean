import ScanParse.Pattern.Sign

/-!
A pair of square brackets stands for one of its members: signs, ranges of characters, named
families, and further brackets. Operators join the members before them to those behind.
-/

namespace ScanParse.Pattern

/-- The depth of pieces that stand side by side: two or more of them are one level deeper. -/
def joinedDepth : List Nat → Nat
  | [] => 0
  | [depth] => depth
  | depths => depths.foldl max 0 + 1

/-- What has been read between two square brackets. -/
structure Bracket where
  /-- The brackets stand for everything but their members. -/
  negated : Bool
  /-- Only hyphens have been read; each of them is a member. -/
  fresh : Bool
  /-- The depths of the members behind the last operator. -/
  members : List Nat
  /-- The depth of what stands before the last operator. -/
  before : Option Nat
deriving Repr

namespace Bracket

def familyNames : List String :=
  ["alnum", "alpha", "ascii", "blank", "cntrl", "digit", "graph", "lower", "print", "punct",
    "space", "upper", "word", "xdigit"]

/-- The named family that stands behind a square bracket: whether it is negated, and what stands
behind it. -/
def namedFamily? : List Char → Option (Bool × List Char)
  | ':' :: rest =>
      let (negated, rest) := match rest with
        | '^' :: rest => (true, rest)
        | _ => (false, rest)
      let name := rest.takeWhile (· != ':')
      match rest.drop name.length with
      | ':' :: ']' :: rest =>
          if familyNames.contains (String.ofList name) then some (negated, rest) else none
      | _ => none
  | _ => none

/-- A named family can be a member. -/
def allowsFamily (mode : Mode) (negated : Bool) : Bool :=
  if mode.unicode then !mode.ignoresCase else !negated

/-- The brackets can be closed: bytes outside of a set are no characters. -/
def canClose (mode : Mode) (bracket : Bracket) : Bool :=
  mode.unicode || !bracket.negated

def add (bracket : Bracket) (depth : Nat) : Bracket :=
  { bracket with fresh := false, members := depth :: bracket.members }

/-- The depth of what has been read. -/
def depth (bracket : Bracket) : Nat :=
  let depth := joinedDepth bracket.members
  match bracket.before with
  | none => depth
  | some before => max before depth + 1

/-- An operator behind what has been read. -/
def operate (bracket : Bracket) : Bracket :=
  { bracket with fresh := false, members := [], before := some bracket.depth }

/-- The start of brackets, and what stands behind it. -/
def start (mode : Mode) (cs : List Char) : Bracket × List Char :=
  match mode.skip cs with
  | '^' :: rest => (⟨true, true, [], none⟩, rest)
  | rest => (⟨false, true, [], none⟩, rest)

/-- What stands behind a sign that is a member. -/
def single? (mode : Mode) (sign : Sign) (rest : List Char) : Option (List Char) :=
  if sign.isMember mode then some (mode.skip rest) else none

/-- What stands behind a range from a character to the sign at the front of a text. -/
def range? (mode : Mode) (first : Sign) (cs : List Char) : Option (List Char) :=
  match first, Sign.readMember? mode cs with
  | .literal low _, some (.literal high twoDigits, rest) =>
      if low ≤ high ∧ first.isMember mode ∧ (Sign.literal high twoDigits).isMember mode then
        some rest
      else none
  | _, _ => none

/-- What stands behind a sign or a range of characters at the front of a text. A hyphen before
another hyphen or the closing bracket makes no range. -/
def member? (mode : Mode) (cs : List Char) : Option (List Char) :=
  match Sign.readMember? mode cs with
  | none => none
  | some (first, rest) =>
      match mode.skip rest with
      | '-' :: behind =>
          let next := mode.ahead? behind
          if next = some ']' ∨ next = some '-' then single? mode first rest
          else range? mode first (mode.skip behind)
      | _ => single? mode first rest

inductive Step where
  /-- Brackets are open, given innermost first. -/
  | reading (bracket : Bracket) (outer : List Bracket) (rest : List Char)
  /-- The outermost brackets are closed, and this is their depth. -/
  | done (depth : Nat) (rest : List Char)

def Step.rest : Step → List Char
  | reading _ _ rest => rest
  | done _ rest => rest

def close? (mode : Mode) (bracket : Bracket) (outer : List Bracket) (rest : List Char) :
    Option Step :=
  if bracket.canClose mode then
    match outer with
    | [] => some (.done (bracket.depth + 1) rest)
    | next :: outer => some (.reading (next.add (bracket.depth + 1)) outer rest)
  else none

/-- Reads a named family or the start of further brackets. -/
def nested? (mode : Mode) (bracket : Bracket) (outer : List Bracket) (rest : List Char) :
    Option Step :=
  match namedFamily? rest with
  | some (negated, rest) =>
      if allowsFamily mode negated then some (.reading (bracket.add 0) outer rest) else none
  | none => some (.reading (start mode rest).1 (bracket :: outer) (start mode rest).2)

def step? (mode : Mode) (bracket : Bracket) (outer : List Bracket) : List Char → Option Step
  | [] => none
  | '-' :: rest =>
      if bracket.fresh then
        if (Sign.literal '-' false).isMember mode then
          some (.reading { bracket with members := 0 :: bracket.members } outer rest)
        else none
      else
        match rest with
        | '-' :: rest => some (.reading bracket.operate outer rest)
        | _ => (member? mode ('-' :: rest)).map (.reading (bracket.add 0) outer)
  | ']' :: rest =>
      if bracket.fresh ∧ bracket.members = [] then
        if (Sign.literal ']' false).isMember mode then
          some (.reading (bracket.add 0) outer rest)
        else none
      else close? mode bracket outer rest
  | '[' :: rest => nested? mode bracket outer rest
  | '&' :: '&' :: rest | '~' :: '~' :: rest => some (.reading bracket.operate outer rest)
  | cs => (member? mode cs).map (.reading (bracket.add 0) outer)

theorem length_le_of_namedFamily? {cs rest : List Char} {negated : Bool}
    (h : namedFamily? cs = some (negated, rest)) : rest.length ≤ cs.length := by
  unfold namedFamily? at h
  split at h
  · rename_i tail
    have hcaret : (match tail with
        | '^' :: rest => (true, rest)
        | _ => (false, tail)).2.length ≤ tail.length := by
      split <;> simp
    revert h hcaret
    generalize (match tail with
      | '^' :: rest => (true, rest)
      | _ => (false, tail)) = head
    intro h hcaret
    simp only at h
    split at h
    · rename_i behind heq
      have hdrop := congrArg List.length heq
      simp only [List.length_drop, List.length_cons] at hdrop
      split at h
      · simp only [Option.some.injEq, Prod.mk.injEq] at h
        rw [← h.2, List.length_cons]
        omega
      · simp at h
    · simp at h
  · simp at h

theorem length_start_le (mode : Mode) (cs : List Char) :
    (start mode cs).2.length ≤ cs.length := by
  have hskip := mode.length_skip_le cs
  unfold start
  split
  · rename_i rest heq
    rw [heq, List.length_cons] at hskip
    show rest.length ≤ cs.length
    omega
  · exact hskip

theorem length_lt_of_member? {mode : Mode} {cs rest : List Char}
    (h : member? mode cs = some rest) : rest.length < cs.length := by
  unfold member? at h
  split at h
  · simp at h
  · rename_i first tail hread
    have hfirst := Sign.length_lt_of_readMember? hread
    have hskip := mode.length_skip_le tail
    have hsingle (hs : single? mode first tail = some rest) : rest.length < cs.length := by
      unfold single? at hs
      split at hs
      · simp only [Option.some.injEq] at hs
        rw [← hs]
        omega
      · simp at hs
    split at h
    · rename_i behind heq
      rw [heq, List.length_cons] at hskip
      simp only at h
      split at h
      · exact hsingle h
      · unfold range? at h
        split at h
        · rename_i last hlast
          have hrange := Sign.length_lt_of_readMember? hlast
          have hbehind := mode.length_skip_le behind
          split at h
          · simp only [Option.some.injEq] at h
            rw [← h]
            omega
          · simp at h
        · simp at h
    · exact hsingle h

theorem length_lt_of_step? {mode : Mode} {bracket : Bracket} {outer : List Bracket}
    {cs : List Char} {step : Step} (h : step? mode bracket outer cs = some step) :
    step.rest.length < cs.length := by
  have hmember {before : Bracket} {cs : List Char}
      (h : (member? mode cs).map (.reading before outer) = some step) :
      step.rest.length < cs.length := by
    obtain ⟨rest, hrest, rfl⟩ := Option.map_eq_some_iff.mp h
    exact length_lt_of_member? hrest
  unfold step? at h
  split at h
  · simp at h
  · split at h
    · split at h
      · cases h
        simp [Step.rest]
      · simp at h
    · split at h
      · cases h
        simp only [Step.rest, List.length_cons]
        omega
      · exact hmember h
  · split at h
    · split at h
      · cases h
        simp [Step.rest]
      · simp at h
    · unfold close? at h
      split at h
      · split at h <;> cases h <;> simp [Step.rest]
      · simp at h
  · rename_i tail
    unfold nested? at h
    split at h
    · rename_i negated rest heq
      have := length_le_of_namedFamily? heq
      split at h
      · cases h
        simp only [Step.rest, List.length_cons]
        omega
      · simp at h
    · have := length_start_le mode tail
      cases h
      simp only [Step.rest, List.length_cons]
      omega
  · cases h
    simp only [Step.rest, List.length_cons]
    omega
  · cases h
    simp only [Step.rest, List.length_cons]
    omega
  · exact hmember h

/-- The depth of brackets that are open, and what stands behind their end; nothing if they have
none. -/
def readFrom? (mode : Mode) (bracket : Bracket) (outer : List Bracket) (cs : List Char) :
    Option (Nat × List Char) :=
  match _h : step? mode bracket outer (mode.skip cs) with
  | none => none
  | some (.done depth rest) => some (depth, rest)
  | some (.reading bracket outer rest) => readFrom? mode bracket outer rest
termination_by cs.length
decreasing_by
  have := length_lt_of_step? _h
  have := mode.length_skip_le cs
  simp only [Step.rest] at *
  omega

/-- The depth of the brackets that start before a text, and what stands behind their end. -/
def read? (mode : Mode) (cs : List Char) : Option (Nat × List Char) :=
  readFrom? mode (start mode cs).1 [] (start mode cs).2

theorem length_le_of_readFrom? {mode : Mode} {bracket : Bracket} {outer : List Bracket}
    {cs rest : List Char} {depth : Nat}
    (h : readFrom? mode bracket outer cs = some (depth, rest)) : rest.length ≤ cs.length := by
  fun_induction readFrom? mode bracket outer cs with
  | case1 => simp at h
  | case2 bracket outer cs depth' rest' hstep =>
      have := length_lt_of_step? hstep
      have := mode.length_skip_le cs
      simp only [Option.some.injEq, Prod.mk.injEq] at h
      simp only [Step.rest, h.2] at *
      omega
  | case3 bracket outer cs bracket' outer' rest' hstep ih =>
      have := length_lt_of_step? hstep
      have := mode.length_skip_le cs
      have := ih h
      simp only [Step.rest] at *
      omega

theorem length_le_of_read? {mode : Mode} {cs rest : List Char} {depth : Nat}
    (h : read? mode cs = some (depth, rest)) : rest.length ≤ cs.length :=
  Nat.le_trans (length_le_of_readFrom? h) (length_start_le mode cs)

end Bracket

end ScanParse.Pattern
