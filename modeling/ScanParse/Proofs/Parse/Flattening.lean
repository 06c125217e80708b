import ScanParse.Proofs.Parse.Unfolding
import ScanParse.Token.Basic

namespace ScanParse

variable {ε τ α β : Type}

/-- What a value is made of: nothing, an item, two parts, or a list of parts. -/
inductive Shape where
  | unit
  | item
  | pair (first second : Shape)
  | list (element : Shape)

namespace Shape

/-- The values of a shape over items `τ`. -/
def Value (τ : Type) : Shape → Type
  | unit => Unit
  | item => τ
  | pair first second => first.Value τ × second.Value τ
  | list element => List (element.Value τ)

/-- The items of a value, from left to right. -/
def flatten {τ : Type} : (shape : Shape) → shape.Value τ → List τ
  | unit, _ => []
  | item, content => [content]
  | pair first second, parts => first.flatten parts.1 ++ second.flatten parts.2
  | list element, parts => parts.flatMap element.flatten

end Shape

namespace Parser

/-- Parsers whose values only hold what was matched. -/
inductive Verbatim : (shape : Shape) → Parser ε τ (shape.Value τ) → Prop
  | eof : Verbatim .unit .eof
  | satisfy (condition : τ → Bool) : Verbatim .item (.satisfy condition)
  | token [BEq τ] (pattern : τ) : Verbatim .item (.token pattern)
  | fail (shape : Shape) : Verbatim shape .fail
  | andThen {first second : Shape} {p : Parser ε τ (first.Value τ)}
      {q : Parser ε τ (second.Value τ)} :
      Verbatim first p → Verbatim second q → Verbatim (.pair first second) (p.andThen q)
  | orElse {shape : Shape} {p q : Parser ε τ (shape.Value τ)} :
      Verbatim shape p → Verbatim shape q → Verbatim shape (p.orElse q)
  | many {shape : Shape} {p : Parser ε τ (shape.Value τ)} :
      Verbatim shape p → Verbatim (.list shape) p.many
  | many1 {shape : Shape} {p : Parser ε τ (shape.Value τ)} :
      Verbatim shape p → Verbatim (.list shape) p.many1
  | delay {shape : Shape} (events : List ε) {p : Unit → Parser ε τ (shape.Value τ)} :
      Verbatim shape (p ()) → Verbatim shape (delay events p)
  /-- A recursive parser, by its unfoldings: it finds nothing that none of them finds. -/
  | limit {shape : Shape} {p : Parser ε τ (shape.Value τ)}
      {unfolded : Nat → Parser ε τ (shape.Value τ)} :
      (∀ depth, Verbatim shape (unfolded depth)) →
        (∀ (input : Input τ), ∀ found ∈ p.results input,
          ∃ depth, found ∈ (unfolded depth).results input) → Verbatim shape p

/-- The items of what is found, followed by what is left, are the input. -/
def Accounts (items : α → List τ) (p : Parser ε τ α) : Prop :=
  p.Ensures fun input found => items found.value ++ found.rest.toList = input.toList

theorem accounts_satisfy (condition : τ → Bool) :
    Accounts (fun item => [item]) (satisfy condition : Parser ε τ τ) := by
  intro input found hfound
  rw [results_satisfy, mem_firstItem_iff] at hfound
  exact hfound.2

theorem Accounts.andThen {first : α → List τ} {second : β → List τ} {p : Parser ε τ α}
    {q : Parser ε τ β} (hp : Accounts first p) (hq : Accounts second q) :
    Accounts (fun parts => first parts.1 ++ second parts.2) (p.andThen q) := by
  intro input found hfound
  obtain ⟨a, ha, b, hb, rfl⟩ := mem_results_andThen_iff.mp hfound
  calc
    first a.value ++ second b.value ++ b.rest.toList
      = first a.value ++ (second b.value ++ b.rest.toList) := List.append_assoc _ _ _
    _ = first a.value ++ a.rest.toList := by rw [hq a.rest b hb]
    _ = input.toList := hp input a ha

theorem flatMap_append_of_repeats {items : α → List τ} {p : Parser ε τ α}
    (hp : Accounts items p) {input rest : Input τ} {values : List α}
    (h : p.Repeats input values rest) : values.flatMap items ++ rest.toList = input.toList := by
  induction h with
  | none input => rfl
  | more hitem _ _ ih =>
      rw [List.flatMap_cons, List.append_assoc, ih]
      exact hp _ _ hitem

theorem Accounts.many {items : α → List τ} {p : Parser ε τ α} (hp : Accounts items p) :
    Accounts (List.flatMap items) p.many := by
  intro input found hfound
  exact flatMap_append_of_repeats hp (mem_results_many_iff.mp hfound)

theorem Accounts.many1 {items : α → List τ} {p : Parser ε τ α} (hp : Accounts items p) :
    Accounts (List.flatMap items) p.many1 := by
  intro input found hfound
  obtain ⟨a, ha, later, hlater, rfl⟩ := mem_results_many1_iff.mp hfound
  have hrest := hp.many a.rest later hlater
  change (a.value :: later.value).flatMap items ++ later.rest.toList = _
  rw [List.flatMap_cons, List.append_assoc, hrest]
  exact hp input a ha

theorem accounts_of_verbatim {shape : Shape} {p : Parser ε τ (shape.Value τ)}
    (h : Verbatim shape p) : Accounts shape.flatten p := by
  induction h with
  | eof =>
      intro input found hfound
      rw [(mem_results_eof_iff.mp hfound).2]
      rfl
  | satisfy condition => exact accounts_satisfy condition
  | token pattern => exact accounts_satisfy _
  | fail shape => exact ensures_fail
  | andThen _ _ ihp ihq => exact ihp.andThen ihq
  | orElse _ _ ihp ihq => exact ihp.orElse ihq
  | many _ ih => exact ih.many
  | many1 _ ih => exact ih.many1
  | delay events _ ih => exact ih.delay events
  | limit _ hfound ih => exact Ensures.limit ih hfound

end Parser

namespace Expression

variable {ι : Type} {shapes : ι → Shape}

/-- Expressions whose values only hold what was matched, over rules of which the same is said. -/
inductive Verbatim :
    (shape : Shape) → Expression ε τ (fun i => (shapes i).Value τ) (shape.Value τ) → Prop
  | eof : Verbatim .unit .eof
  | satisfy (condition : τ → Bool) : Verbatim .item (.satisfy condition)
  | fail (shape : Shape) : Verbatim shape .fail
  | andThen {first second : Shape}
      {e : Expression ε τ (fun i => (shapes i).Value τ) (first.Value τ)}
      {f : Expression ε τ (fun i => (shapes i).Value τ) (second.Value τ)} :
      Verbatim first e → Verbatim second f → Verbatim (.pair first second) (e.andThen f)
  | orElse {shape : Shape} {e f : Expression ε τ (fun i => (shapes i).Value τ) (shape.Value τ)} :
      Verbatim shape e → Verbatim shape f → Verbatim shape (e.orElse f)
  | many {shape : Shape} {e : Expression ε τ (fun i => (shapes i).Value τ) (shape.Value τ)} :
      Verbatim shape e → Verbatim (.list shape) e.many
  | many1 {shape : Shape} {e : Expression ε τ (fun i => (shapes i).Value τ) (shape.Value τ)} :
      Verbatim shape e → Verbatim (.list shape) e.many1
  | delay {shape : Shape} (events : List ε)
      {e : Expression ε τ (fun i => (shapes i).Value τ) (shape.Value τ)} :
      Verbatim shape e → Verbatim shape (.delay events e)
  | rule (i : ι) : Verbatim (shapes i) (.rule i)

theorem Verbatim.parser {family : (i : ι) → Parser ε τ ((shapes i).Value τ)}
    (hfamily : ∀ i, (family i).Verbatim (shapes i)) {shape : Shape}
    {e : Expression ε τ (fun i => (shapes i).Value τ) (shape.Value τ)} (h : Verbatim shape e) :
    Parser.Verbatim shape (e.parser family) := by
  induction h with
  | eof => exact .eof
  | satisfy condition => exact .satisfy condition
  | fail shape => exact .fail shape
  | andThen _ _ ihe ihf => exact .andThen ihe ihf
  | orElse _ _ ihe ihf => exact .orElse ihe ihf
  | many _ ih => exact .many ih
  | many1 _ ih => exact .many1 ih
  | delay events _ ih => exact .delay events ih
  | rule i => exact hfamily i

theorem Verbatim.unfolded {rules : Rules ε τ fun i => (shapes i).Value τ}
    (hrules : ∀ i, Verbatim (shapes i) (rules i)) {shape : Shape}
    {e : Expression ε τ (fun i => (shapes i).Value τ) (shape.Value τ)} (h : Verbatim shape e)
    (depth : Nat) : Parser.Verbatim shape (e.unfolded rules depth) := by
  induction depth generalizing shape with
  | zero => exact h.parser fun i => .fail (shapes i)
  | succ depth ih =>
      refine h.parser fun i => ?_
      exact .delay [] (p := fun _ => (rules i).unfolded rules depth) (ih (hrules i))

end Expression

namespace Parser

/-- Parsers built from leaves that leave suffixes leave suffixes, and where values only hold what
was matched, they and the remainder are the input. The same holds of whatever a search gives that
need not end. -/
theorem accounts_for_input :
    (∀ (α : Type) (p : Parser ε τ α), Built (fun _ leaf => leaf.KeepsSuffix) p →
      ∀ (input : Input τ), ∀ found ∈ p.results input, found.rest.toList <:+ input.toList) ∧
    (∀ (shape : Shape) (p : Parser ε τ (shape.Value τ)), Verbatim shape p →
      ∀ (input : Input τ), ∀ found ∈ p.results input,
        shape.flatten found.value ++ found.rest.toList = input.toList) ∧
    (∀ (ι : Type) (ρ : ι → Type) (rules : Expression.Rules ε τ ρ) (α : Type)
      (e : Expression ε τ ρ α) (input : Input τ) (n : Nat),
        ∀ found ∈ (Search.iterator rules α).given n (.start e input),
          found.rest.toList <:+ input.toList) ∧
    ∀ (ι : Type) (shapes : ι → Shape) (rules : Expression.Rules ε τ fun i => (shapes i).Value τ),
      (∀ i, Expression.Verbatim (shapes i) (rules i)) →
        ∀ (shape : Shape) (e : Expression ε τ (fun i => (shapes i).Value τ) (shape.Value τ)),
          Expression.Verbatim shape e → ∀ (input : Input τ) (n : Nat),
            ∀ found ∈ (Search.iterator rules (shape.Value τ)).given n (.start e input),
              shape.flatten found.value ++ found.rest.toList = input.toList := by
  refine ⟨?_, ?_, ?_, ?_⟩
  · intro α p hp
    exact keepsSuffix_of_built (fun _ _ hleaf => hleaf) hp
  · intro shape p hp
    exact accounts_of_verbatim hp
  · intro ι ρ rules α e input n found hfound
    exact e.keepsSuffix_unfolded n input found (Expression.mem_results_of_mem_given hfound)
  · intro ι shapes rules hrules shape e he input n found hfound
    exact accounts_of_verbatim (he.unfolded hrules n) input found
      (Expression.mem_results_of_mem_given hfound)

theorem accounts_for_input_indented :
    ∃ (blank name : Token) (p : Parser Unit Token (List Token × Token))
      (rules : Expression.Rules Unit Token fun _ : Unit => Token),
      p = (token (Token.ofKind .space)).many.andThen (satisfy fun _ => true) ∧
      rules = (fun _ => .orElse (.satisfy fun _ => true) (.rule ())) ∧
      blank.position.line = 7 ∧
      ⟨([blank], name), .ofList []⟩ ∈ p.results (.ofList [blank, name]) ∧
      Shape.flatten (.pair (.list .item) .item) ([blank], name) ++ [] = [blank, name] ∧
      (∀ found ∈ ((prefixes [2, 0, 1]).many.keepRight eof : Parser Unit Token Unit).results
        (.ofList [blank, name]), found.rest.toList <:+ [blank, name]) ∧
      ∀ n, ∀ found ∈
          (Search.iterator rules Token).given n (.start (.rule ()) (.ofList [blank, name])),
        [found.value] ++ found.rest.toList = [blank, name] := by
  let blank : Token := ⟨.space, ⟨⟨0, 1⟩, 7, ⟨0, 1⟩⟩⟩
  let name : Token := ⟨.identifier "x", ⟨⟨1, 2⟩, 7, ⟨1, 2⟩⟩⟩
  have hverbatim : Verbatim (ε := Unit) (.pair (.list .item) .item)
      ((token (Token.ofKind .space)).many.andThen (satisfy fun _ => true)) :=
    .andThen (.many (.token _)) (.satisfy _)
  have hfound : ⟨([blank], name), .ofList []⟩ ∈
      ((token (Token.ofKind .space)).many.andThen (satisfy fun _ => true) :
        Parser Unit Token (List Token × Token)).results (.ofList [blank, name]) := by
    refine mem_results_andThen_iff.mpr ⟨⟨[blank], .ofList [name]⟩, ?_, ⟨name, .ofList []⟩, ?_, rfl⟩
    · have hitem : ⟨blank, .ofList [name]⟩ ∈
          (token (Token.ofKind .space) : Parser Unit Token Token).results
            (.ofList [blank, name]) := List.mem_singleton.mpr rfl
      exact mem_results_many_iff.mpr (.more hitem (by decide) (.none _))
    · exact List.mem_singleton.mpr rfl
  have hrule : @Expression.Verbatim Unit Token Unit (fun _ => .item) .item
      (.orElse (.satisfy fun _ => true) (.rule ())) := .orElse (.satisfy _) (.rule ())
  refine ⟨blank, name, _, _, rfl, rfl, rfl, hfound, ?_, ?_, ?_⟩
  · exact accounts_for_input.2.1 _ _ hverbatim _ _ hfound
  · exact accounts_for_input.1 _ _ (.keepRight (.many (.leaf (keepsSuffix_prefixes _)))
      (.leaf keepsSuffix_eof)) _
  · exact accounts_for_input.2.2.2 _ _ _ (fun _ => hrule) _ _ (.rule ()) _

end Parser

end ScanParse
