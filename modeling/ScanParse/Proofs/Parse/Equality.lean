import Mathlib.Data.List.Forall2
import ScanParse.Proofs.Parse.Denotation
import ScanParse.Proofs.Scan.Regeneration

namespace ScanParse

variable {ε τ α β γ : Type}

theorem TokenKind.same_congr {a b : TokenKind} (h : a.same b = true) (pattern : TokenKind) :
    a.same pattern = b.same pattern := by
  rcases (same_iff a b).mp h with rfl | ⟨x, y, spelling, rfl, rfl⟩
  · rfl
  · cases pattern <;> rfl

/-- The inputs hold equal items, one by one. -/
def Input.Same [BEq τ] (input other : Input τ) : Prop :=
  List.Forall₂ (fun a b => (a == b) = true) input.toList other.toList

/-- The values are related, and what is left holds equal items. -/
def Match.Same [BEq τ] (same : α → α → Prop) (found other : Match τ α) : Prop :=
  same found.value other.value ∧ found.rest.Same other.rest

theorem Input.Same.size_eq [BEq τ] {input other : Input τ} (h : input.Same other) :
    input.size = other.size := by
  rw [size_eq_length, size_eq_length]
  exact h.length_eq

namespace Parser

variable [BEq τ]

/-- On equal items the parser finds related values with equal items left, in the same
order. -/
def Respects (same : α → α → Prop) (p : Parser ε τ α) : Prop :=
  ∀ input other : Input τ, input.Same other →
    List.Forall₂ (Match.Same same) (p.results input) (p.results other)

/-- Parsers put together from parts that take equals to equals. The relation says which
values count as equal: items by `==`, pairs and lists by their parts, functions if they
take equals to equals. -/
inductive Congruent : {α : Type} → (α → α → Prop) → Parser ε τ α → Prop
  | pure {α : Type} {same : α → α → Prop} (value : α) :
      same value value → Congruent same (.pure value)
  | fail {α : Type} {same : α → α → Prop} : Congruent same (.fail : Parser ε τ α)
  | eof : Congruent Eq .eof
  | satisfy (condition : τ → Bool) :
      (∀ a b, (a == b) = true → condition a = condition b) →
        Congruent (fun a b => (a == b) = true) (.satisfy condition)
  | prefixes (lengths : List Nat) :
      Congruent (List.Forall₂ fun a b => (a == b) = true) (.prefixes lengths)
  | map {α β : Type} {same : α → α → Prop} {image : β → β → Prop} (f : α → β)
      {p : Parser ε τ α} :
      (∀ a b, same a b → image (f a) (f b)) → Congruent same p → Congruent image (p.map f)
  | tap {α : Type} {same : α → α → Prop} (event : α → ε) {p : Parser ε τ α} :
      Congruent same p → Congruent same (p.tap event)
  | andThen {α β : Type} {same : α → α → Prop} {later : β → β → Prop} {p : Parser ε τ α}
      {q : Parser ε τ β} :
      Congruent same p → Congruent later q →
        Congruent (fun a b => same a.1 b.1 ∧ later a.2 b.2) (p.andThen q)
  | apply {α β : Type} {same : α → α → Prop} {image : β → β → Prop} {p : Parser ε τ (α → β)}
      {q : Parser ε τ α} :
      Congruent (fun f g => ∀ a b, same a b → image (f a) (g b)) p → Congruent same q →
        Congruent image (p.apply q)
  | orElse {α : Type} {same : α → α → Prop} {p q : Parser ε τ α} :
      Congruent same p → Congruent same q → Congruent same (p.orElse q)
  | many {α : Type} {same : α → α → Prop} {p : Parser ε τ α} :
      Congruent same p → Congruent (List.Forall₂ same) p.many
  | delay {α : Type} {same : α → α → Prop} (events : List ε) {p : Unit → Parser ε τ α} :
      Congruent same (p ()) → Congruent same (delay events p)
  /-- A recursive parser, by its unfoldings. -/
  | limit {α : Type} {same : α → α → Prop} {p : Parser ε τ α} {unfolded : Nat → Parser ε τ α} :
      (∀ depth, Congruent same (unfolded depth)) →
        Settles (fun depth => (unfolded depth).results) p.results → Congruent same p

namespace Congruent

theorem replace {same : α → α → Prop} {image : β → β → Prop} {value : β}
    (hvalue : image value value) {p : Parser ε τ α} (hp : Congruent same p) :
    Congruent image (p.replace value) :=
  map _ (fun _ _ _ => hvalue) hp

theorem map2 {same : α → α → Prop} {later : β → β → Prop} {image : γ → γ → Prop}
    (f : α → β → γ)
    (hf : ∀ a b, same a b → ∀ c d, later c d → image (f a c) (f b d)) {p : Parser ε τ α}
    {q : Parser ε τ β} (hp : Congruent same p) (hq : Congruent later q) :
    Congruent image (map2 f p q) :=
  apply (apply (pure f hf) hp) hq

theorem keepRight {same : α → α → Prop} {later : β → β → Prop} {p : Parser ε τ α}
    {q : Parser ε τ β} (hp : Congruent same p) (hq : Congruent later q) :
    Congruent later (p.keepRight q) :=
  map2 _ (fun _ _ _ _ _ hlater => hlater) hp hq

theorem keepLeft {same : α → α → Prop} {later : β → β → Prop} {p : Parser ε τ α}
    {q : Parser ε τ β} (hp : Congruent same p) (hq : Congruent later q) :
    Congruent same (p.keepLeft q) :=
  map2 _ (fun _ _ hsame _ _ _ => hsame) hp hq

theorem many1 {same : α → α → Prop} {p : Parser ε τ α} (hp : Congruent same p) :
    Congruent (List.Forall₂ same) p.many1 :=
  map2 _ (fun _ _ hsame _ _ hlater => .cons hsame hlater) hp (many hp)

end Congruent

theorem respects_satisfy {condition : τ → Bool}
    (h : ∀ a b, (a == b) = true → condition a = condition b) :
    Respects (fun a b => (a == b) = true) (satisfy condition : Parser ε τ τ) := by
  intro input other hsame
  rw [results_satisfy, results_satisfy, firstItem, firstItem]
  rw [Input.Same] at hsame
  generalize input.toList = items at hsame ⊢
  generalize other.toList = others at hsame ⊢
  cases hsame with
  | nil => exact .nil
  | cons hitem hitems =>
      dsimp only
      rw [h _ _ hitem]
      split
      · exact .cons ⟨hitem, hitems⟩ .nil
      · exact .nil

theorem respects_prefixes (lengths : List Nat) :
    Respects (List.Forall₂ fun a b => (a == b) = true)
      (prefixes lengths : Parser ε τ (List τ)) := by
  intro input other hsame
  simp only [results, prefixes, ofMatches, Match.ofFronts, Attempt.results_ofList, hsame.size_eq,
    List.forall₂_map_left_iff, List.forall₂_map_right_iff, List.forall₂_same]
  intro length _
  exact ⟨List.forall₂_take length hsame, List.forall₂_drop length hsame⟩

theorem Respects.map {same : α → α → Prop} {image : β → β → Prop} {f : α → β}
    (hf : ∀ a b, same a b → image (f a) (f b)) {p : Parser ε τ α} (hp : p.Respects same) :
    (p.map f).Respects image := by
  intro input other hsame
  rw [results_map, results_map]
  refine List.rel_map ?_ (hp input other hsame)
  rintro found twin ⟨hvalue, hrest⟩
  exact ⟨hf _ _ hvalue, hrest⟩

theorem Respects.sequence {same : α → α → Prop} {later : β → β → Prop} {image : γ → γ → Prop}
    (join : α → β → γ)
    (hjoin : ∀ a b, same a b → ∀ c d, later c d → image (join a c) (join b d))
    {p : Parser ε τ α} {q : Parser ε τ β} (hp : p.Respects same) (hq : q.Respects later)
    {input other : Input τ} (hsame : input.Same other) :
    List.Forall₂ (Match.Same image)
      ((p.results input).flatMap fun a => (q.results a.rest).map (Match.map (join a.value)))
      ((p.results other).flatMap fun a => (q.results a.rest).map (Match.map (join a.value))) := by
  refine List.rel_flatMap (hp input other hsame) ?_
  rintro a b ⟨hvalue, hrest⟩
  refine List.rel_map ?_ (hq a.rest b.rest hrest)
  rintro c d ⟨hlater, hleft⟩
  exact ⟨hjoin _ _ hvalue _ _ hlater, hleft⟩

theorem Respects.many {same : α → α → Prop} {p : Parser ε τ α} (hp : p.Respects same) :
    p.many.Respects (List.Forall₂ same) := by
  intro input other hsame
  induction hsize : input.size using Nat.strongRecOn generalizing input other with
  | _ size ih =>
      subst hsize
      rw [results_many, results_many]
      refine List.rel_append (List.rel_flatMap (hp input other hsame) ?_)
        (.cons ⟨.nil, hsame⟩ .nil)
      rintro a b ⟨hvalue, hrest⟩
      dsimp only
      rw [← hrest.size_eq, ← hsame.size_eq]
      split
      · rename_i hshort
        refine List.rel_map ?_ (ih _ hshort a.rest b.rest hrest rfl)
        rintro c d ⟨hlater, hleft⟩
        exact ⟨.cons hvalue hlater, hleft⟩
      · exact .nil

theorem Respects.limit {same : α → α → Prop} {p : Parser ε τ α} {unfolded : Nat → Parser ε τ α}
    (hunfolded : ∀ depth, (unfolded depth).Respects same)
    (hsettles : Settles (fun depth => (unfolded depth).results) p.results) :
    p.Respects same := by
  intro input other hsame
  obtain ⟨n, hn⟩ := hsettles input
  obtain ⟨m, hm⟩ := hsettles other
  rw [← hn (max n m) (Nat.le_max_left n m), ← hm (max n m) (Nat.le_max_right n m)]
  exact hunfolded (max n m) input other hsame

theorem respects_of_congruent {same : α → α → Prop} {p : Parser ε τ α}
    (h : Congruent same p) : p.Respects same := by
  induction h with
  | pure value hvalue =>
      intro input other hsame
      rw [results_pure, results_pure]
      exact .cons ⟨hvalue, hsame⟩ .nil
  | fail =>
      intro input other hsame
      rw [results_fail, results_fail]
      exact .nil
  | eof =>
      intro input other hsame
      have hnil : input.toList = [] ↔ other.toList = [] := by
        rw [← List.length_eq_zero_iff, ← List.length_eq_zero_iff, hsame.length_eq]
      simp only [results_eof, hnil]
      split
      · exact .cons ⟨rfl, hsame⟩ .nil
      · exact .nil
  | satisfy condition hcondition => exact respects_satisfy hcondition
  | prefixes lengths => exact respects_prefixes lengths
  | map f hf _ ih => exact ih.map hf
  | tap event _ ih =>
      intro input other hsame
      rw [results_tap, results_tap]
      exact ih input other hsame
  | andThen _ _ ihp ihq =>
      intro input other hsame
      rw [results_andThen, results_andThen]
      exact ihp.sequence Prod.mk (fun _ _ hfirst _ _ hsecond => ⟨hfirst, hsecond⟩) ihq hsame
  | apply _ _ ihp ihq =>
      intro input other hsame
      rw [results_apply, results_apply]
      exact ihp.sequence id (fun _ _ hf _ _ hx => hf _ _ hx) ihq hsame
  | orElse _ _ ihp ihq =>
      intro input other hsame
      rw [results_orElse, results_orElse]
      exact List.rel_append (ihp input other hsame) (ihq input other hsame)
  | many _ ih => exact ih.many
  | delay events _ ih =>
      intro input other hsame
      rw [results_delay, results_delay]
      exact ih input other hsame
  | limit _ hsettles ih => exact .limit ih hsettles

theorem congruent_token (pattern : Token) :
    Congruent (fun a b => (a == b) = true) (token pattern : Parser ε Token Token) :=
  .satisfy _ fun _ _ hsame => TokenKind.same_congr hsame pattern.kind

end Parser

theorem exists_same_of_regenerate {options : ScanOptions} {source : String}
    {tokens : List Token} (h : tokenize options source = .ok tokens) :
    ∃ again, tokenize options (Token.regenerate tokens) = .ok again ∧
      (Input.ofList tokens).Same (.ofList again) := by
  obtain ⟨lexemes, hreads, rfl⟩ := (tokenize_eq_ok_iff options source tokens).mp h
  have hseparated := separated_of_reads hreads rfl
  rw [← Scan.map_kind_place .start] at hseparated
  obtain ⟨again, hagain, hsame⟩ := (scans_back_iff_separated options _ _
    (toList_regenerate (Scan.place .start lexemes))).mpr hseparated
  have hkinds := List.forall₂_map_right_iff.mp
    (List.forall₂_map_left_iff.mp (forall₂_same_of_beq hsame))
  exact ⟨again, hagain, hkinds.flip.imp fun _ _ => TokenKind.same_symm⟩

namespace Parser

/-- Token patterns do not tell equal tokens apart. A parser whose parts do not finds, on
equal tokens, equal values with as much left, in the same order; and so it does on the
tokens of a source and on those of the text that they make. -/
theorem results_of_same :
    (∀ pattern a b : Token, (a == b) = true → (a == pattern) = (b == pattern)) ∧
    ∀ {α : Type} {same : α → α → Prop} {p : Parser ε Token α}, Congruent same p →
      (∀ tokens others : List Token,
        List.Forall₂ (fun a b => (a == b) = true) tokens others →
          List.Forall₂
            (fun found twin => same found.value twin.value ∧ found.rest.size = twin.rest.size)
            (p.results (.ofList tokens)) (p.results (.ofList others))) ∧
      ∀ (options : ScanOptions) (source : String) (tokens : List Token),
        tokenize options source = .ok tokens →
          ∃ again, tokenize options (Token.regenerate tokens) = .ok again ∧
            List.Forall₂
              (fun found twin => same found.value twin.value ∧ found.rest.size = twin.rest.size)
              (p.results (.ofList tokens)) (p.results (.ofList again)) := by
  refine ⟨fun pattern a b hsame => TokenKind.same_congr hsame pattern.kind, ?_⟩
  intro α same p hp
  have hresults : ∀ tokens others : List Token, (Input.ofList tokens).Same (.ofList others) →
      List.Forall₂
        (fun found twin => same found.value twin.value ∧ found.rest.size = twin.rest.size)
        (p.results (.ofList tokens)) (p.results (.ofList others)) := by
    intro tokens others hsame
    have hmatches := respects_of_congruent hp _ _ hsame
    exact hmatches.imp fun _ _ hfound => ⟨hfound.1, hfound.2.size_eq⟩
  refine ⟨hresults, ?_⟩
  intro options source tokens htokens
  obtain ⟨again, hagain, hsame⟩ := exists_same_of_regenerate htokens
  exact ⟨again, hagain, hresults tokens again hsame⟩

theorem results_of_same_moved :
    ∃ (p : Parser Unit Token (List Token)) (here there : Token) (tokens again : List Token),
      Congruent (List.Forall₂ fun a b => (a == b) = true) p ∧
        (here == there) = true ∧ here.position ≠ there.position ∧
        List.Forall₂
          (fun found twin => List.Forall₂ (fun a b => (a == b) = true) found.value twin.value ∧
            found.rest.size = twin.rest.size)
          (p.results (.ofList [here])) (p.results (.ofList [there])) ∧
        tokenize .standard "x    " = .ok tokens ∧
        tokenize .standard (Token.regenerate tokens) = .ok again ∧
        List.Forall₂
          (fun found twin => List.Forall₂ (fun a b => (a == b) = true) found.value twin.value ∧
            found.rest.size = twin.rest.size)
          (p.results (.ofList tokens)) (p.results (.ofList again)) := by
  let here : Token := ⟨.float (.infinity false) "1.5", ⟨⟨0, 3⟩, 0, ⟨0, 3⟩⟩⟩
  let there : Token := ⟨.float (.infinity true) "1.5", ⟨⟨9, 12⟩, 2, ⟨0, 3⟩⟩⟩
  let p : Parser Unit Token (List Token) := (satisfy fun token => !token.isWhitespace).many1
  have hreads : Scan.Reads .standard "x    ".toList [⟨.identifier "x", 1⟩, ⟨.tab, 4⟩] [] := by
    change Scan.Reads _ ("x".toList ++ ("    ".toList ++ [])) _ _
    exact .step rfl (.step rfl (.done []))
  have htokens : tokenize .standard "x    " = .ok
      [⟨.identifier "x", ⟨⟨0, 1⟩, 0, ⟨0, 1⟩⟩⟩, ⟨.tab, ⟨⟨1, 5⟩, 0, ⟨1, 5⟩⟩⟩] :=
    (tokenize_eq_ok_iff _ _ _).mpr ⟨_, hreads, rfl⟩
  have hp : Congruent (List.Forall₂ fun a b => (a == b) = true) p := by
    refine .many1 (.satisfy _ fun a b hsame => ?_)
    rcases (TokenKind.same_iff a.kind b.kind).mp hsame with hkind | ⟨_, _, _, ha, hb⟩
    · simp [Token.isWhitespace, hkind]
    · simp [Token.isWhitespace, ha, hb]
  obtain ⟨again, hagain, hresults⟩ := (results_of_same.2 hp).2 _ _ _ htokens
  have hmoved : List.Forall₂ (fun a b => (a == b) = true) [here] [there] := .cons rfl .nil
  exact ⟨p, here, there, _, again, hp, rfl, by decide, (results_of_same.2 hp).1 _ _ hmoved,
    htokens, hagain, hresults⟩

end Parser

end ScanParse
