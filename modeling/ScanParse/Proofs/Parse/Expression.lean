import Mathlib.Data.Fintype.Card
import Mathlib.Order.WellFounded
import ScanParse.Proofs.Parse.Built

/-!
Parsers as they are written down, with references to rules that may be recursive;
unlike in a `Grammar`, values may be of any type. A reference is guarded if an item
was consumed before it is followed.
-/

namespace ScanParse

/-- What is written down for a parser over items `τ` that logs events `ε`. A
reference to the rule `i` stands for a parser of values `ρ i`. -/
inductive Expression (ε τ : Type) {ι : Type} (ρ : ι → Type) : Type → Type 1
  | pure {α : Type} (value : α) : Expression ε τ ρ α
  | fail {α : Type} : Expression ε τ ρ α
  | eof : Expression ε τ ρ Unit
  | satisfy (condition : τ → Bool) : Expression ε τ ρ τ
  /-- A parser of another kind, which has to leave suffixes of its inputs. -/
  | leaf {α : Type} (p : Parser ε τ α) (h : p.KeepsSuffix) : Expression ε τ ρ α
  | map {α β : Type} (f : α → β) (body : Expression ε τ ρ α) : Expression ε τ ρ β
  | tap {α : Type} (event : α → ε) (body : Expression ε τ ρ α) : Expression ε τ ρ α
  | andThen {α β : Type} (first : Expression ε τ ρ α) (second : Expression ε τ ρ β) :
      Expression ε τ ρ (α × β)
  | apply {α β : Type} (function : Expression ε τ ρ (α → β)) (argument : Expression ε τ ρ α) :
      Expression ε τ ρ β
  | orElse {α : Type} (first second : Expression ε τ ρ α) : Expression ε τ ρ α
  | many {α : Type} (body : Expression ε τ ρ α) : Expression ε τ ρ (List α)
  | delay {α : Type} (events : List ε) (body : Expression ε τ ρ α) : Expression ε τ ρ α
  | rule (i : ι) : Expression ε τ ρ (ρ i)

namespace Expression

variable {ε τ ι α β γ : Type} {ρ : ι → Type}

def prefixes (lengths : List Nat) : Expression ε τ ρ (List τ) :=
  leaf (.prefixes lengths) (Parser.keepsSuffix_prefixes lengths)

def token [BEq τ] (pattern : τ) : Expression ε τ ρ τ :=
  satisfy (· == pattern)

def replace (value : β) (body : Expression ε τ ρ α) : Expression ε τ ρ β :=
  body.map fun _ => value

def map2 (f : α → β → γ) (first : Expression ε τ ρ α) (second : Expression ε τ ρ β) :
    Expression ε τ ρ γ :=
  ((pure f).apply first).apply second

def map3 {δ : Type} (f : α → β → γ → δ) (first : Expression ε τ ρ α)
    (second : Expression ε τ ρ β) (third : Expression ε τ ρ γ) : Expression ε τ ρ δ :=
  (((pure f).apply first).apply second).apply third

def keepRight (first : Expression ε τ ρ α) (second : Expression ε τ ρ β) : Expression ε τ ρ β :=
  map2 (fun _ value => value) first second

def keepLeft (first : Expression ε τ ρ α) (second : Expression ε τ ρ β) : Expression ε τ ρ α :=
  map2 (fun value _ => value) first second

def many1 (body : Expression ε τ ρ α) : Expression ε τ ρ (List α) :=
  map2 List.cons body body.many

/-- The parser of an expression, where the family gives the parsers of the rules. -/
def parser (family : (i : ι) → Parser ε τ (ρ i)) : {α : Type} → Expression ε τ ρ α → Parser ε τ α
  | _, pure value => .pure value
  | _, fail => .fail
  | _, eof => .eof
  | _, satisfy condition => .satisfy condition
  | _, leaf p _ => p
  | _, map f body => (body.parser family).map f
  | _, tap event body => (body.parser family).tap event
  | _, andThen first second => (first.parser family).andThen (second.parser family)
  | _, apply function argument => (function.parser family).apply (argument.parser family)
  | _, orElse first second => (first.parser family).orElse (second.parser family)
  | _, many body => (body.parser family).many
  | _, delay events body => .delay events fun _ => body.parser family
  | _, rule i => family i

section parser

variable (family : (i : ι) → Parser ε τ (ρ i))

@[simp] theorem parser_token [BEq τ] (pattern : τ) :
    (token pattern : Expression ε τ ρ τ).parser family = .token pattern := rfl

@[simp] theorem parser_replace (value : β) (body : Expression ε τ ρ α) :
    (body.replace value).parser family = (body.parser family).replace value := rfl

@[simp] theorem parser_map2 (f : α → β → γ) (first : Expression ε τ ρ α)
    (second : Expression ε τ ρ β) :
    (map2 f first second).parser family =
      .map2 f (first.parser family) (second.parser family) := rfl

@[simp] theorem parser_map3 {δ : Type} (f : α → β → γ → δ) (first : Expression ε τ ρ α)
    (second : Expression ε τ ρ β) (third : Expression ε τ ρ γ) :
    (map3 f first second third).parser family =
      .map3 f (first.parser family) (second.parser family) (third.parser family) := rfl

@[simp] theorem parser_keepRight (first : Expression ε τ ρ α) (second : Expression ε τ ρ β) :
    (first.keepRight second).parser family =
      (first.parser family).keepRight (second.parser family) := rfl

@[simp] theorem parser_keepLeft (first : Expression ε τ ρ α) (second : Expression ε τ ρ β) :
    (first.keepLeft second).parser family =
      (first.parser family).keepLeft (second.parser family) := rfl

@[simp] theorem parser_many1 (body : Expression ε τ ρ α) :
    body.many1.parser family = (body.parser family).many1 := rfl

end parser

abbrev Rules (ε τ : Type) {ι : Type} (ρ : ι → Type) : Type 1 :=
  (i : ι) → Expression ε τ ρ (ρ i)

/-- The parsers of the rules, unfolded to the given depth. -/
def Rules.family (rules : Rules ε τ ρ) (depth : Nat) : (i : ι) → Parser ε τ (ρ i) :=
  Parser.unfold (fun family i => (rules i).parser family) depth

/-- The parser of an expression, with its rules unfolded to the given depth. -/
def unfolded (rules : Rules ε τ ρ) (depth : Nat) (e : Expression ε τ ρ α) : Parser ε τ α :=
  e.parser (rules.family depth)

theorem unfolded_rule_succ (rules : Rules ε τ ρ) (depth : Nat) (i : ι) :
    (rule i).unfolded rules (depth + 1) = .delay [] fun _ => (rules i).unfolded rules depth := rfl

variable {rules : Rules ε τ ρ}

theorem built_of_family {family : (i : ι) → Parser ε τ (ρ i)}
    (hfamily : ∀ i, Parser.Built (fun _ p => p.KeepsSuffix) (family i))
    (e : Expression ε τ ρ α) :
    Parser.Built (fun _ p => p.KeepsSuffix) (e.parser family) := by
  induction e with
  | pure value => exact .pure value
  | fail => exact .fail
  | eof => exact .leaf Parser.keepsSuffix_eof
  | satisfy condition => exact .satisfy condition
  | leaf p h => exact .leaf h
  | map f body ih => exact .map f ih
  | tap event body ih => exact .tap event ih
  | andThen first second ihfirst ihsecond => exact .andThen ihfirst ihsecond
  | apply function argument ihfunction ihargument => exact .apply ihfunction ihargument
  | orElse first second ihfirst ihsecond => exact .orElse ihfirst ihsecond
  | many body ih => exact .many ih
  | delay events body ih => exact .delay events ih
  | rule i => exact hfamily i

theorem built_unfolded (depth : Nat) (e : Expression ε τ ρ α) :
    Parser.Built (fun _ p => p.KeepsSuffix) (e.unfolded rules depth) := by
  refine built_of_family ?_ e
  exact Parser.Built.unfold (fun _ hfamily i => built_of_family hfamily (rules i)) depth

theorem keepsSuffix_unfolded (depth : Nat) (e : Expression ε τ ρ α) :
    (e.unfolded rules depth).KeepsSuffix :=
  Parser.keepsSuffix_of_built (fun _ _ h => h) (built_unfolded depth e)

theorem size_le_of_mem_results {depth : Nat} {e : Expression ε τ ρ α} {input : Input τ}
    {found : Match τ α} (h : found ∈ (e.unfolded rules depth).results input) :
    found.rest.size ≤ input.size := by
  rw [Input.size_eq_length, Input.size_eq_length]
  exact (keepsSuffix_unfolded depth e input found h).length_le

theorem results_parser_mono {family other : (i : ι) → Parser ε τ (ρ i)}
    (hfamily : ∀ i input, (family i).results input ⊆ (other i).results input)
    (e : Expression ε τ ρ α) (input : Input τ) :
    (e.parser family).results input ⊆ (e.parser other).results input := by
  intro found hfound
  induction e generalizing input with
  | pure value => exact hfound
  | fail => exact hfound
  | eof => exact hfound
  | satisfy condition => exact hfound
  | leaf p h => exact hfound
  | map f body ih =>
      rw [parser, Parser.results_map, List.mem_map] at hfound ⊢
      obtain ⟨a, ha, rfl⟩ := hfound
      exact ⟨a, ih input ha, rfl⟩
  | tap event body ih =>
      rw [parser, Parser.results_tap] at hfound ⊢
      exact ih input hfound
  | andThen first second ihfirst ihsecond =>
      obtain ⟨a, ha, b, hb, rfl⟩ := Parser.mem_results_andThen_iff.mp hfound
      exact Parser.mem_results_andThen_iff.mpr
        ⟨a, ihfirst input ha, b, ihsecond a.rest hb, rfl⟩
  | apply function argument ihfunction ihargument =>
      obtain ⟨f, hf, x, hx, rfl⟩ := Parser.mem_results_apply_iff.mp hfound
      exact Parser.mem_results_apply_iff.mpr
        ⟨f, ihfunction input hf, x, ihargument f.rest hx, rfl⟩
  | orElse first second ihfirst ihsecond =>
      rw [parser, Parser.results_orElse, List.mem_append] at hfound ⊢
      exact hfound.imp (ihfirst input ·) (ihsecond input ·)
  | many body ih =>
      have hrepeats := (Parser.mem_results_many_iff.mp hfound).mono ih
      exact Parser.mem_results_many_iff.mpr hrepeats
  | delay events body ih =>
      rw [parser, Parser.results_delay] at hfound ⊢
      exact ih input hfound
  | rule i => exact hfamily i input hfound

theorem results_unfolded_mono {depth later : Nat} (hdepth : depth ≤ later)
    (e : Expression ε τ ρ α) (input : Input τ) :
    (e.unfolded rules depth).results input ⊆ (e.unfolded rules later).results input := by
  refine results_parser_mono ?_ e input
  induction depth generalizing later with
  | zero =>
      intro i input
      simp [Rules.family]
  | succ depth ih =>
      obtain ⟨later, rfl⟩ : ∃ n, later = n + 1 := ⟨later - 1, by omega⟩
      intro i input
      rw [Rules.family, Rules.family, Parser.results_unfold_succ, Parser.results_unfold_succ]
      exact results_parser_mono (ih (by omega)) (rules i) input

/-- The expression never matches without consuming an item. -/
def Consumes (rules : Rules ε τ ρ) (e : Expression ε τ ρ α) : Prop :=
  ∀ (depth : Nat) (input : Input τ), ∀ found ∈ (e.unfolded rules depth).results input,
    found.rest.size < input.size

/-- The expression refers to the rule at a place that may be reached before an item
was consumed: one that is not behind a first operand that consumes. -/
def Unguarded (rules : Rules ε τ ρ) : {α : Type} → Expression ε τ ρ α → ι → Prop
  | _, pure _, _ => False
  | _, fail, _ => False
  | _, eof, _ => False
  | _, satisfy _, _ => False
  | _, leaf _ _, _ => False
  | _, map _ body, i => body.Unguarded rules i
  | _, tap _ body, i => body.Unguarded rules i
  | _, andThen first second, i =>
      first.Unguarded rules i ∨ (¬first.Consumes rules ∧ second.Unguarded rules i)
  | _, apply function argument, i =>
      function.Unguarded rules i ∨ (¬function.Consumes rules ∧ argument.Unguarded rules i)
  | _, orElse first second, i => first.Unguarded rules i ∨ second.Unguarded rules i
  | _, many body, i => body.Unguarded rules i
  | _, delay _ body, i => body.Unguarded rules i
  | _, rule j, i => i = j

/-- No rule comes back to itself, or goes on from rule to rule without end, by
unguarded references alone. -/
def Rules.Guarded (rules : Rules ε τ ρ) : Prop :=
  WellFounded fun i j => (rules j).Unguarded rules i

/-- Finitely many rules are guarded if and only if none comes back to itself by
unguarded references alone. -/
theorem Rules.guarded_iff_of_finite [Finite ι] :
    rules.Guarded ↔
      ∀ i, ¬Relation.TransGen (fun i j => (rules j).Unguarded rules i) i i := by
  constructor
  · intro h i hcycle
    exact h.transGen.asymmetric _ _ hcycle hcycle
  · intro h
    have : Std.Irrefl (Relation.TransGen fun i j => (rules j).Unguarded rules i) := ⟨h⟩
    have hpaths : WellFounded (Relation.TransGen fun i j => (rules j).Unguarded rules i) :=
      Finite.wellFounded_of_trans_of_irrefl _
    exact Subrelation.wf (fun h => Relation.TransGen.single h) hpaths

theorem consumes_satisfy (condition : τ → Bool) :
    (satisfy condition : Expression ε τ ρ τ).Consumes rules := by
  intro depth input found hfound
  change found ∈ (Parser.satisfy condition).results input at hfound
  rw [Parser.results_satisfy, mem_firstItem_iff] at hfound
  rw [Input.size_eq_length, Input.size_eq_length, ← hfound.2]
  exact Nat.lt_succ_self _

theorem not_consumes_pure (value : α) :
    ¬(pure value : Expression ε τ ρ α).Consumes rules := by
  intro h
  exact Nat.lt_irrefl _ (h 0 (.ofList []) ⟨value, .ofList []⟩ (by simp [unfolded, parser]))

theorem consumes_apply_pure_iff (f : α → β) (e : Expression ε τ ρ α) :
    ((pure f).apply e).Consumes rules ↔ e.Consumes rules := by
  simp [Consumes, unfolded, parser, Match.map]

theorem unguarded_map2_iff (f : α → β → γ) (first : Expression ε τ ρ α)
    (second : Expression ε τ ρ β) (i : ι) :
    (map2 f first second).Unguarded rules i ↔
      first.Unguarded rules i ∨ (¬first.Consumes rules ∧ second.Unguarded rules i) := by
  simp [map2, Unguarded, not_consumes_pure, consumes_apply_pure_iff]

theorem unguarded_keepRight_iff (first : Expression ε τ ρ α) (second : Expression ε τ ρ β)
    (i : ι) :
    (first.keepRight second).Unguarded rules i ↔
      first.Unguarded rules i ∨ (¬first.Consumes rules ∧ second.Unguarded rules i) :=
  unguarded_map2_iff _ first second i

theorem unguarded_keepLeft_iff (first : Expression ε τ ρ α) (second : Expression ε τ ρ β)
    (i : ι) :
    (first.keepLeft second).Unguarded rules i ↔
      first.Unguarded rules i ∨ (¬first.Consumes rules ∧ second.Unguarded rules i) :=
  unguarded_map2_iff _ first second i

end Expression

end ScanParse
