import ScanParse.Proofs.Parse.Repetition

namespace ScanParse

variable {ε τ α β γ : Type}

/-- The first item of an input, if the condition holds for it. -/
def firstItem (condition : τ → Bool) (input : Input τ) : List (Match τ τ) :=
  match input.toList with
  | [] => []
  | item :: rest => if condition item then [⟨item, .ofList rest⟩] else []

/-- On every input, all but finitely many of the searches find what `found` says. -/
def Settles (searches : Nat → Input τ → List (Match τ α))
    (found : Input τ → List (Match τ α)) : Prop :=
  ∀ input, ∃ depth, ∀ d, depth ≤ d → searches d input = found input

theorem Settles.eq {searches : Nat → Input τ → List (Match τ α)}
    {found other : Input τ → List (Match τ α)} (hfound : Settles searches found)
    (hother : Settles searches other) : found = other := by
  funext input
  obtain ⟨n, hn⟩ := hfound input
  obtain ⟨m, hm⟩ := hother input
  rw [← hn (max n m) (Nat.le_max_left n m), hm (max n m) (Nat.le_max_right n m)]

namespace Parser

@[simp] theorem results_eof (input : Input τ) :
    (eof : Parser ε τ Unit).results input =
      if input.toList = [] then [⟨(), input⟩] else [] := by
  simp [results, eof, ofMatches, Match.ofEnd, Input.isEmpty_iff]

@[simp] theorem results_satisfy (condition : τ → Bool) (input : Input τ) :
    (satisfy condition : Parser ε τ τ).results input = firstItem condition input := by
  obtain ⟨items, rfl⟩ : ∃ items, input = .ofList items := ⟨input.toList, by simp⟩
  cases items <;> simp [results, satisfy, ofMatches, Match.ofFirst, firstItem]

theorem results_map2 (f : α → β → γ) (p : Parser ε τ α) (q : Parser ε τ β) (input : Input τ) :
    (map2 f p q).results input =
      (p.results input).flatMap fun a => (q.results a.rest).map (Match.map (f a.value)) := by
  simp [map2, Match.map, List.flatMap_map]

theorem results_keepRight (p : Parser ε τ α) (q : Parser ε τ β) (input : Input τ) :
    (p.keepRight q).results input =
      (p.results input).flatMap fun a => (q.results a.rest).map (Match.map id) :=
  results_map2 _ p q input

theorem results_keepLeft (p : Parser ε τ α) (q : Parser ε τ β) (input : Input τ) :
    (p.keepLeft q).results input =
      (p.results input).flatMap fun a => (q.results a.rest).map (Match.map fun _ => a.value) :=
  results_map2 _ p q input

/-- A parser beside the function that lists its matches, combinator by combinator. -/
inductive Denotes : {α : Type} → Parser ε τ α → (Input τ → List (Match τ α)) → Prop
  | given {α : Type} {p : Parser ε τ α} {found : Input τ → List (Match τ α)} :
      (∀ input, (p.start input).Gives (found input)) → Denotes p found
  | pure {α : Type} (value : α) : Denotes (.pure value) fun input => [⟨value, input⟩]
  | fail {α : Type} : Denotes (.fail : Parser ε τ α) fun _ => []
  | eof : Denotes .eof fun input => if input.toList = [] then [⟨(), input⟩] else []
  | satisfy (condition : τ → Bool) : Denotes (.satisfy condition) (firstItem condition)
  | map {α β : Type} (f : α → β) {p : Parser ε τ α} {found : Input τ → List (Match τ α)} :
      Denotes p found → Denotes (p.map f) fun input => (found input).map (Match.map f)
  | tap {α : Type} (event : α → ε) {p : Parser ε τ α} {found : Input τ → List (Match τ α)} :
      Denotes p found → Denotes (p.tap event) found
  | andThen {α β : Type} {p : Parser ε τ α} {q : Parser ε τ β}
      {found : Input τ → List (Match τ α)} {later : Input τ → List (Match τ β)} :
      Denotes p found → Denotes q later →
        Denotes (p.andThen q) fun input =>
          (found input).flatMap fun a => (later a.rest).map fun b => ⟨(a.value, b.value), b.rest⟩
  | apply {α β : Type} {p : Parser ε τ (α → β)} {q : Parser ε τ α}
      {found : Input τ → List (Match τ (α → β))} {later : Input τ → List (Match τ α)} :
      Denotes p found → Denotes q later →
        Denotes (p.apply q) fun input =>
          (found input).flatMap fun f => (later f.rest).map fun x => ⟨f.value x.value, x.rest⟩
  | orElse {α : Type} {p q : Parser ε τ α} {found other : Input τ → List (Match τ α)} :
      Denotes p found → Denotes q other →
        Denotes (p.orElse q) fun input => found input ++ other input
  | many {α : Type} {p : Parser ε τ α} {found : Input τ → List (Match τ α)} :
      Denotes p found → Denotes p.many (repetitions found)
  | delay {α : Type} (events : List ε) {p : Unit → Parser ε τ α}
      {found : Input τ → List (Match τ α)} :
      Denotes (p ()) found → Denotes (delay events p) found
  /-- A recursive parser and the function that its unfoldings come to. -/
  | limit {α : Type} {p : Parser ε τ α} {found : Input τ → List (Match τ α)}
      {unfolded : Nat → Parser ε τ α} {searches : Nat → Input τ → List (Match τ α)} :
      (∀ depth, Denotes (unfolded depth) (searches depth)) →
        Settles (fun depth => (unfolded depth).results) p.results →
          Settles searches found → Denotes p found

theorem Denotes.token [BEq τ] (pattern : τ) :
    Denotes (token pattern : Parser ε τ τ) (firstItem (· == pattern)) :=
  .satisfy _

theorem Denotes.replace (value : β) {p : Parser ε τ α} {found : Input τ → List (Match τ α)}
    (h : Denotes p found) :
    Denotes (p.replace value) fun input => (found input).map (Match.map fun _ => value) :=
  .map _ h

theorem results_of_denotes {p : Parser ε τ α} {found : Input τ → List (Match τ α)}
    (h : Denotes p found) : p.results = found := by
  induction h with
  | given hgives =>
      funext input
      exact start_gives_iff.mp (hgives input)
  | pure value =>
      funext input
      exact results_pure value input
  | fail =>
      funext input
      exact results_fail input
  | eof =>
      funext input
      exact results_eof input
  | satisfy condition =>
      funext input
      exact results_satisfy condition input
  | map f _ ih =>
      funext input
      rw [results_map, ih]
  | tap event _ ih =>
      funext input
      rw [results_tap, ih]
  | andThen _ _ ihp ihq =>
      funext input
      rw [results_andThen, ihp, ihq]
      rfl
  | apply _ _ ihp ihq =>
      funext input
      rw [results_apply, ihp, ihq]
      rfl
  | orElse _ _ ihp ihq =>
      funext input
      rw [results_orElse, ihp, ihq]
  | many _ ih => rw [results_many_eq_repetitions, ih]
  | delay events _ ih =>
      funext input
      rw [results_delay, ih]
  | limit _ hp hfound ih =>
      rw [funext ih] at hp
      exact hp.eq hfound

/-- Request by request, a search gives the list that its combinators denote. -/
theorem gives_of_denotes {p : Parser ε τ α} {found : Input τ → List (Match τ α)}
    (h : Denotes p found) (input : Input τ) : (p.start input).Gives (found input) := by
  rw [start_gives_iff, results_of_denotes h]

theorem gives_of_denotes_choices :
    ∃ found, Denotes (((token 'a').orElse (pure '-')).andThen
        (delay [()] fun _ => ((token 'a').replace 1).orElse (pure 0))) found ∧
      ((((token 'a').orElse (pure '-')).andThen
        (delay [()] fun _ => ((token 'a').replace 1).orElse (pure 0))).start
          (.ofList ['a', 'a'])).Gives (found (.ofList ['a', 'a'])) ∧
      found (.ofList ['a', 'a']) =
        [⟨('a', 1), .ofList []⟩, ⟨('a', 0), .ofList ['a']⟩,
          ⟨('-', 1), .ofList ['a']⟩, ⟨('-', 0), .ofList ['a', 'a']⟩] := by
  have hdenotes := Denotes.andThen (.orElse (.token 'a') (.pure '-'))
    (.delay [()] (p := fun _ => ((token 'a').replace 1).orElse (pure 0))
      (.orElse (.replace 1 (.token 'a')) (.pure 0)))
  exact ⟨_, hdenotes, gives_of_denotes hdenotes _, rfl⟩

end Parser

end ScanParse
