import ScanParse.Parse.Input
import ScanParse.Parse.Run

/-!
A parser reads the front of an input and gives, lazily, every way in which it can: a value and what
is left of the input. No result is a failure, and several are an ambiguity.

Starting a parser logs what happens before the first request for a result; the rest of the search
happens on request. The lemmas say what each combinator does to the list of results.
-/

namespace ScanParse

/-- A value that a parser found, and what is left of the input behind it. -/
@[ext] structure Match (τ α : Type) where
  value : α
  rest : Input τ

namespace Match

/-- Keeps the remainder of a match and changes its value. -/
def map {τ α β : Type} (f : α → β) (found : Match τ α) : Match τ β :=
  ⟨f found.value, found.rest⟩

variable {τ : Type}

/-- The match of the end of an input. -/
def ofEnd (input : Input τ) : List (Match τ Unit) :=
  if input.isEmpty then [⟨(), input⟩] else []

/-- The match of the first item of an input, if the condition holds for it. -/
def ofFirst (condition : τ → Bool) (input : Input τ) : List (Match τ τ) :=
  match input.uncons? with
  | some (item, rest) => if condition item then [⟨item, rest⟩] else []
  | none => []

/-- The matches of the first items of an input, as many as one of the lengths says. -/
def ofFronts (lengths : List Nat) (input : Input τ) : List (Match τ (List τ)) :=
  (lengths.filter (· ≤ input.size)).map fun length =>
    ⟨input.toList.take length, input.drop length⟩

end Match

/-- A search over inputs of items `τ`, for values `α`, logging events `ε`. -/
structure Parser (ε τ α : Type) where
  start : Input τ → Attempt ε (Match τ α)

namespace Parser

variable {ε τ α β γ δ : Type}

/-- All results of a parser on an input, in order. -/
def results (parser : Parser ε τ α) (input : Input τ) : List (Match τ α) :=
  (parser.start input).results

/-- The silent parser that gives the listed matches. -/
def ofMatches (found : Input τ → List (Match τ α)) : Parser ε τ α :=
  ⟨fun input => .ofList (found input)⟩

def pure (value : α) : Parser ε τ α :=
  ofMatches fun input => [⟨value, input⟩]

def fail : Parser ε τ α :=
  ofMatches fun _ => []

def eof : Parser ε τ Unit :=
  ofMatches Match.ofEnd

/-- Consumes the first item if the condition holds for it. -/
def satisfy (condition : τ → Bool) : Parser ε τ τ :=
  ofMatches (Match.ofFirst condition)

/-- Consumes the first item if it equals the pattern; the value is the item. -/
def token [BEq τ] (pattern : τ) : Parser ε τ τ :=
  satisfy (· == pattern)

/-- For every listed length, in order, that the input has, the items up to there. -/
def prefixes (lengths : List Nat) : Parser ε τ (List τ) :=
  ofMatches (Match.ofFronts lengths)

def map (f : α → β) (parser : Parser ε τ α) : Parser ε τ β :=
  ⟨fun input => (parser.start input).map (Match.map f)⟩

def replace (value : β) (parser : Parser ε τ α) : Parser ε τ β :=
  parser.map fun _ => value

def tap (event : α → ε) (parser : Parser ε τ α) : Parser ε τ α :=
  ⟨fun input => (parser.start input).tap (event ·.value)⟩

/-- Ends every search behind the first event that stops it. -/
def stopAt (stops : ε → Bool) (parser : Parser ε τ α) : Parser ε τ α :=
  ⟨fun input => (parser.start input).stopAt stops⟩

/-- A parser that is built when it is started, and logs events about that. This is what makes
recursive grammars possible. -/
def delay (events : List ε) (parser : Unit → Parser ε τ α) : Parser ε τ α :=
  ⟨fun input =>
    let attempt := (parser ()).start input
    ⟨events ++ attempt.log, attempt.run⟩⟩

/-- For every result of the first parser, every result of the second on its remainder, as a
pair. -/
def andThen (first : Parser ε τ α) (second : Parser ε τ β) : Parser ε τ (α × β) :=
  ⟨fun input => (first.start input).bind fun found =>
    (second.start found.rest).map (Match.map fun value => (found.value, value))⟩

/-- All results of the first parser, then all of the second on the same input. The second is not
started before the first has ended. -/
def orElse (first second : Parser ε τ α) : Parser ε τ α :=
  ⟨fun input => (first.start input).append fun _ => second.start input⟩

/-- Applies every function that the first parser gives to every value of the second on the
corresponding remainder. -/
def apply (function : Parser ε τ (α → β)) (argument : Parser ε τ α) : Parser ε τ β :=
  ⟨fun input => (function.start input).bind fun found =>
    (argument.start found.rest).map (Match.map found.value)⟩

/-- Both in sequence, joined by a function. -/
def map2 (f : α → β → γ) (first : Parser ε τ α) (second : Parser ε τ β) : Parser ε τ γ :=
  ((pure f).apply first).apply second

/-- Three in sequence, joined by a function. -/
def map3 (f : α → β → γ → δ) (first : Parser ε τ α) (second : Parser ε τ β)
    (third : Parser ε τ γ) : Parser ε τ δ :=
  (((pure f).apply first).apply second).apply third

/-- Both in sequence; only the second value is kept. -/
def keepRight (first : Parser ε τ α) (second : Parser ε τ β) : Parser ε τ β :=
  map2 (fun _ value => value) first second

/-- Both in sequence; only the first value is kept. -/
def keepLeft (first : Parser ε τ α) (second : Parser ε τ β) : Parser ε τ α :=
  map2 (fun value _ => value) first second

instance : HAdd (Parser ε τ α) (Parser ε τ β) (Parser ε τ (α × β)) := ⟨andThen⟩

instance : HOr (Parser ε τ α) (Parser ε τ α) (Parser ε τ α) := ⟨orElse⟩

/-- The values of the results that leave nothing. -/
def startComplete (parser : Parser ε τ α) (input : Input τ) : Attempt ε α :=
  (parser.start input).filterMap fun found =>
    if found.rest.isEmpty then some found.value else none

def first (parser : Parser ε τ α) (input : Input τ) : Taken ε α :=
  (parser.startComplete input).take 1

@[simp] theorem results_ofMatches (found : Input τ → List (Match τ α)) (input : Input τ) :
    (ofMatches found : Parser ε τ α).results input = found input := by
  simp [results, ofMatches]

@[simp] theorem results_pure (value : α) (input : Input τ) :
    (pure value : Parser ε τ α).results input = [⟨value, input⟩] := by
  simp [results, pure, ofMatches]

@[simp] theorem results_fail (input : Input τ) :
    (fail : Parser ε τ α).results input = [] := by
  simp [results, fail, ofMatches]

@[simp] theorem results_map (f : α → β) (parser : Parser ε τ α) (input : Input τ) :
    (parser.map f).results input = (parser.results input).map (Match.map f) := by
  simp [results, map]

@[simp] theorem results_tap (event : α → ε) (parser : Parser ε τ α) (input : Input τ) :
    (parser.tap event).results input = parser.results input := by
  simp [results, tap]

@[simp] theorem results_delay (events : List ε) (parser : Unit → Parser ε τ α)
    (input : Input τ) : (delay events parser).results input = (parser ()).results input := by
  simp [results, delay, Attempt.results]

@[simp] theorem results_andThen (first : Parser ε τ α) (second : Parser ε τ β)
    (input : Input τ) :
    (first.andThen second).results input =
      (first.results input).flatMap fun found =>
        (second.results found.rest).map (Match.map fun value => (found.value, value)) := by
  simp [results, andThen]

@[simp] theorem results_orElse (first second : Parser ε τ α) (input : Input τ) :
    (first.orElse second).results input = first.results input ++ second.results input := by
  simp [results, orElse]

@[simp] theorem results_apply (function : Parser ε τ (α → β)) (argument : Parser ε τ α)
    (input : Input τ) :
    (function.apply argument).results input =
      (function.results input).flatMap fun found =>
        (argument.results found.rest).map (Match.map found.value) := by
  simp [results, apply]

theorem toRun_map (f : α → β) (p : Parser ε τ α) (input : Input τ) :
    ((p.map f).start input).toRun = (p.start input).toRun.map (Match.map f) := by
  simp [map, Attempt.toRun, Attempt.map]

theorem toRun_tap (event : α → ε) (p : Parser ε τ α) (input : Input τ) :
    ((p.tap event).start input).toRun = (p.start input).toRun.tap (event ·.value) := by
  simp [tap, Attempt.toRun, Attempt.tap]

theorem toRun_delay (events : List ε) (p : Unit → Parser ε τ α) (input : Input τ) :
    ((delay events p).start input).toRun =
      .notes events fun _ => ((p ()).start input).toRun :=
  Run.notes_append ..

theorem toRun_orElse (p q : Parser ε τ α) (input : Input τ) :
    ((p.orElse q).start input).toRun =
      (p.start input).toRun.append fun _ => (q.start input).toRun := by
  simp [orElse, Attempt.toRun, Attempt.append]

theorem toRun_andThen (p : Parser ε τ α) (q : Parser ε τ β) (input : Input τ) :
    ((p.andThen q).start input).toRun =
      (p.start input).toRun.bind fun found =>
        (q.start found.rest).toRun.map (Match.map (Prod.mk found.value)) := by
  rw [andThen, Attempt.toRun_bind]
  exact congrArg _ (funext fun found => toRun_map (Prod.mk found.value) q found.rest)

theorem toRun_apply (p : Parser ε τ (α → β)) (q : Parser ε τ α) (input : Input τ) :
    ((p.apply q).start input).toRun =
      (p.start input).toRun.bind fun found =>
        (q.start found.rest).toRun.map (Match.map (id found.value)) := by
  rw [apply, Attempt.toRun_bind]
  exact congrArg _ (funext fun found => toRun_map found.value q found.rest)

end Parser

end ScanParse
