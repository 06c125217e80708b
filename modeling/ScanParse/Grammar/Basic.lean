import ScanParse.Grammar.Value
import ScanParse.Parse.Recursion
import ScanParse.Parse.Repetition
import ScanParse.Power

/-!
A parser as a value: an expression over the combinators, whose references name the rules of a
grammar. `Grammar.parser` gives the parser of an expression; the rules may be recursive, and are
unfolded as far as the input can need.
-/

namespace ScanParse

/-- An expression for a parser over items `τ` that logs events `ε`. -/
inductive Grammar (ε τ : Type) where
  | pure (value : Value τ)
  | fail
  | eof
  | satisfy (condition : τ → Bool)
  | prefixes (lengths : List Nat)
  | map (f : Value τ → Value τ) (body : Grammar ε τ)
  | replace (value : Value τ) (body : Grammar ε τ)
  | andThen (first second : Grammar ε τ)
  | orElse (first second : Grammar ε τ)
  | apply (f : Value τ → Value τ → Value τ) (first second : Grammar ε τ)
  | map2 (f : Value τ → Value τ → Value τ) (first second : Grammar ε τ)
  | map3 (f : Value τ → Value τ → Value τ → Value τ) (first second third : Grammar ε τ)
  | keepRight (first second : Grammar ε τ)
  | keepLeft (first second : Grammar ε τ)
  | many (body : Grammar ε τ)
  | many1 (body : Grammar ε τ)
  | rule (name : String)
  /-- Logs an event whenever the body is started. -/
  | probe (event : ε) (body : Grammar ε τ)
  /-- Logs an event about every value of the body. -/
  | tap (event : Value τ → ε) (body : Grammar ε τ)

namespace Grammar

variable {ε τ : Type}

/-- The expression for one item that equals the pattern. -/
def token [BEq τ] (pattern : τ) : Grammar ε τ :=
  satisfy (· == pattern)

/-- The expression for a parser that cannot be built: starting it logs an event and finds
nothing. -/
def broken (event : ε) : Grammar ε τ :=
  probe event fail

/-- The parser of an expression, where `rules` gives the parsers of the rules. -/
def parserWith (rules : String → Parser ε τ (Value τ)) : Grammar ε τ → Parser ε τ (Value τ)
  | pure value => .pure value
  | fail => .fail
  | eof => Parser.eof.map fun _ => .unit
  | satisfy condition => (Parser.satisfy condition).map .item
  | prefixes lengths => (Parser.prefixes lengths).map fun items => .list (items.map .item)
  | map f body => (body.parserWith rules).map f
  | replace value body => (body.parserWith rules).replace value
  | andThen first second =>
      ((first.parserWith rules).andThen (second.parserWith rules)).map fun values =>
        .pair values.1 values.2
  | orElse first second => (first.parserWith rules).orElse (second.parserWith rules)
  | apply f first second => ((first.parserWith rules).map f).apply (second.parserWith rules)
  | map2 f first second => .map2 f (first.parserWith rules) (second.parserWith rules)
  | map3 f first second third =>
      .map3 f (first.parserWith rules) (second.parserWith rules) (third.parserWith rules)
  | keepRight first second => (first.parserWith rules).keepRight (second.parserWith rules)
  | keepLeft first second => (first.parserWith rules).keepLeft (second.parserWith rules)
  | many body => (body.parserWith rules).many.map .list
  | many1 body => (body.parserWith rules).many1.map .list
  | rule name => rules name
  | probe event body => .delay [event] fun _ => body.parserWith rules
  | tap event body => (body.parserWith rules).tap event

/-- The rules of a grammar, by name. -/
abbrev Rules (ε τ : Type) : Type :=
  List (String × Grammar ε τ)

/-- The expression of a rule; a name without a rule stands for failure. -/
def Rules.find (rules : Rules ε τ) (name : String) : Grammar ε τ :=
  (rules.lookup name).getD fail

/-- The family of parsers that the rules describe, unfolded to the given depth. -/
def Rules.family (rules : Rules ε τ) (depth : Nat) : String → Parser ε τ (Value τ) :=
  Parser.unfold (fun family name => (rules.find name).parserWith family) depth

/-- How deep rules are unfolded on an input of the given size. A chain of references that consumes
an item at least every `rules.length` references stays within the second summand; the first leaves
room for searches that are cut off by asking for finitely many results. -/
def Rules.depth (rules : Rules ε τ) (size : Nat) : Nat :=
  twoTo 60 + (size + 1) * (rules.length + 1)

/-- The parser of an expression in the context of the rules. -/
def parser (rules : Rules ε τ) (grammar : Grammar ε τ) : Parser ε τ (Value τ) :=
  ⟨fun input => (grammar.parserWith (rules.family (rules.depth input.size))).start input⟩

end Grammar

end ScanParse
