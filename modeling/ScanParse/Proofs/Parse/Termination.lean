import Mathlib.Order.Filter.Finite
import ScanParse.Proofs.Parse.Unfolding

namespace ScanParse.Expression

open Filter Search

variable {ε τ ι α β γ : Type} {ρ : ι → Type}

/-- The search for the expression ends, and all but finitely many unfoldings of its
parser log and give the same. -/
def Ends (rules : Rules ε τ ρ) (e : Expression ε τ ρ α) (input : Input τ) : Prop :=
  ∃ run, (start e input).Yields rules run ∧
    ∀ᶠ depth in atTop, ((e.unfolded rules depth).start input).toRun = run

variable {rules : Rules ε τ ρ} {input : Input τ}

theorem ends_iff {e : Expression ε τ ρ α} :
    e.Ends rules input ↔ ∃ run, (start e input).Yields rules run := by
  constructor
  · rintro ⟨run, hyields, -⟩
    exact ⟨run, hyields⟩
  · rintro ⟨run, hyields⟩
    exact ⟨run, hyields, yields_unfolded hyields⟩

/-- Without the condition on the rules: a rule that is nothing but a reference to
itself leads nowhere. -/
theorem not_ends_of_self_reference {i : ι} (h : rules i = rule i) :
    ¬(rule i : Expression ε τ ρ (ρ i)).Ends rules input := by
  rintro ⟨run, hyields, -⟩
  have hnever : ∀ {search : (iterator rules (ρ i)).State} {run : Run ε (Match τ (ρ i))},
      (iterator rules (ρ i)).Acts search run → start (rule i) input ≠ search := by
    intro search run hacts
    induction hacts with
    | silent hstep _ ih =>
        rintro rfl
        obtain rfl : start (rules i) input = _ := IteratorStep.silent.inj hstep
        exact ih (by rw [h])
    | ended hstep | logged hstep | found hstep =>
        rintro rfl
        cases hstep
  exact hnever hyields rfl

theorem Ends.exists_results {e : Expression ε τ ρ α} (h : e.Ends rules input) :
    ∃ found, ∀ᶠ depth in atTop, (e.unfolded rules depth).results input = found := by
  obtain ⟨run, -, hrun⟩ := h
  refine ⟨run.results, ?_⟩
  filter_upwards [hrun] with depth hdepth
  rw [Parser.results, ← Attempt.results_toRun, hdepth]

theorem Ends.exists_complete {e : Expression ε τ ρ α} (h : e.Ends rules input) :
    ∃ values, ∀ᶠ depth in atTop,
      ((e.unfolded rules depth).startComplete input).results = values := by
  obtain ⟨found, hfound⟩ := h.exists_results
  obtain ⟨depth, hdepth⟩ := hfound.exists
  refine ⟨((e.unfolded rules depth).startComplete input).results, ?_⟩
  filter_upwards [hfound] with later hlater
  rw [Parser.startComplete, Parser.startComplete, Attempt.results_filterMap,
    Attempt.results_filterMap, ← Parser.results, ← Parser.results, hlater, hdepth]

theorem exists_mem_unfolded {e : Expression ε τ ρ α} {run : Run ε (Match τ α)}
    (h : (start e input).Yields rules run) {found : Match τ α} (hfound : found ∈ run.results) :
    ∃ depth, found ∈ (e.unfolded rules depth).results input := by
  obtain ⟨depth, hdepth⟩ := (yields_unfolded h).exists
  refine ⟨depth, ?_⟩
  rwa [Parser.results, ← Attempt.results_toRun, hdepth]

theorem ends_pure (value : α) : (pure value : Expression ε τ ρ α).Ends rules input :=
  ends_iff.mpr ⟨_, yields_pure value⟩

theorem ends_fail : (fail : Expression ε τ ρ α).Ends rules input :=
  ends_iff.mpr ⟨_, yields_fail⟩

theorem ends_eof : (eof : Expression ε τ ρ Unit).Ends rules input :=
  ends_iff.mpr ⟨_, yields_eof⟩

theorem ends_satisfy (condition : τ → Bool) :
    (satisfy condition : Expression ε τ ρ τ).Ends rules input :=
  ends_iff.mpr ⟨_, yields_satisfy condition⟩

theorem ends_leaf {p : Parser ε τ α} (h : p.KeepsSuffix) :
    (leaf p h : Expression ε τ ρ α).Ends rules input :=
  ends_iff.mpr ⟨_, yields_leaf h⟩

theorem Ends.map (f : α → β) {e : Expression ε τ ρ α} (h : e.Ends rules input) :
    (map f e).Ends rules input := by
  rw [ends_iff] at h ⊢
  obtain ⟨run, hrun⟩ := h
  exact ⟨_, yields_map f hrun⟩

theorem Ends.tap (event : α → ε) {e : Expression ε τ ρ α} (h : e.Ends rules input) :
    (tap event e).Ends rules input := by
  rw [ends_iff] at h ⊢
  obtain ⟨run, hrun⟩ := h
  exact ⟨_, yields_tap event hrun⟩

theorem Ends.delay (events : List ε) {e : Expression ε τ ρ α} (h : e.Ends rules input) :
    (delay events e).Ends rules input := by
  rw [ends_iff] at h ⊢
  obtain ⟨run, hrun⟩ := h
  exact ⟨_, yields_delay events hrun⟩

theorem Ends.orElse {first second : Expression ε τ ρ α} (hfirst : first.Ends rules input)
    (hsecond : second.Ends rules input) : (first.orElse second).Ends rules input := by
  rw [ends_iff] at hfirst hsecond ⊢
  obtain ⟨run, hrun⟩ := hfirst
  obtain ⟨later, hlater⟩ := hsecond
  exact ⟨_, yields_orElse hrun hlater⟩

theorem Ends.sequence (join : α → β → γ) {first : Expression ε τ ρ α}
    {second : Expression ε τ ρ β} (hfirst : first.Ends rules input)
    (hsecond : ∀ depth, ∀ found ∈ (first.unfolded rules depth).results input,
      second.Ends rules found.rest) :
    ∃ run, (sequence join (start first input) second).Yields rules run := by
  obtain ⟨run, hrun⟩ := ends_iff.mp hfirst
  have hlater : ∀ found, ∃ later, found ∈ run.results →
      (start second found.rest).Yields rules later := by
    intro found
    by_cases hfound : found ∈ run.results
    · obtain ⟨depth, hdepth⟩ := exists_mem_unfolded hrun hfound
      obtain ⟨later, hlater⟩ := ends_iff.mp (hsecond depth found hdepth)
      exact ⟨later, fun _ => hlater⟩
    · exact ⟨.done, fun h => absurd h hfound⟩
  choose later hlater using hlater
  exact ⟨_, Yields.sequence hrun hlater⟩

theorem Ends.andThen {first : Expression ε τ ρ α} {second : Expression ε τ ρ β}
    (hfirst : first.Ends rules input)
    (hsecond : ∀ depth, ∀ found ∈ (first.unfolded rules depth).results input,
      second.Ends rules found.rest) : (first.andThen second).Ends rules input := by
  obtain ⟨run, hrun⟩ := hfirst.sequence Prod.mk hsecond
  exact ends_iff.mpr ⟨run, yields_start hrun⟩

theorem Ends.apply {function : Expression ε τ ρ (α → β)} {argument : Expression ε τ ρ α}
    (hfunction : function.Ends rules input)
    (hargument : ∀ depth, ∀ found ∈ (function.unfolded rules depth).results input,
      argument.Ends rules found.rest) : (function.apply argument).Ends rules input := by
  obtain ⟨run, hrun⟩ := hfunction.sequence id hargument
  exact ends_iff.mpr ⟨run, yields_start hrun⟩

theorem Ends.many {body : Expression ε τ ρ α}
    (h : ∀ rest : Input τ, rest.size ≤ input.size → body.Ends rules rest) :
    body.many.Ends rules input := by
  have hrun : ∀ rest : Input τ, ∃ run, rest.size ≤ input.size →
      (start body rest).Yields rules run := by
    intro rest
    by_cases hrest : rest.size ≤ input.size
    · obtain ⟨run, hrun⟩ := ends_iff.mp (h rest hrest)
      exact ⟨run, fun _ => hrun⟩
    · exact ⟨.done, fun hle => absurd hle hrest⟩
  choose run hrun using hrun
  let p : Parser ε τ α := ⟨fun rest => ⟨[], fun _ => run rest⟩⟩
  have hbody : ∀ values rest, p.Repeats input values rest →
      (start body rest).Yields rules (p.start rest).toRun :=
    fun values rest hrest => hrun rest hrest.size_le
  exact ends_iff.mpr ⟨_, yields_start (yields_level_start p hbody [] (yields_ofRun .done))⟩

theorem Ends.rule {i : ι} (h : (rules i).Ends rules input) : (rule i).Ends rules input := by
  rw [ends_iff] at h ⊢
  obtain ⟨run, hrun⟩ := h
  exact ⟨run, yields_rule hrun⟩

/-- What holds of a search as soon as it holds of the searches that it starts. -/
structure Closed (rules : Rules ε τ ρ)
    (P : {α : Type} → Expression ε τ ρ α → Input τ → Prop) : Prop where
  leaf : ∀ {α : Type} {p : Parser ε τ α} (h : p.KeepsSuffix) (input : Input τ), P (leaf p h) input
  pure : ∀ {α : Type} (value : α) (input : Input τ), P (pure value) input
  fail : ∀ {α : Type} (input : Input τ), P (fail : Expression ε τ ρ α) input
  eof : ∀ input : Input τ, P eof input
  satisfy : ∀ (condition : τ → Bool) (input : Input τ), P (satisfy condition) input
  map : ∀ {α β : Type} (f : α → β) {e : Expression ε τ ρ α} {input : Input τ},
    P e input → P (map f e) input
  tap : ∀ {α : Type} (event : α → ε) {e : Expression ε τ ρ α} {input : Input τ},
    P e input → P (tap event e) input
  delay : ∀ {α : Type} (events : List ε) {e : Expression ε τ ρ α} {input : Input τ},
    P e input → P (delay events e) input
  orElse : ∀ {α : Type} {first second : Expression ε τ ρ α} {input : Input τ},
    P first input → P second input → P (first.orElse second) input
  /-- The second operand is started behind the matches of the first. -/
  andThen : ∀ {α β : Type} {first : Expression ε τ ρ α} {second : Expression ε τ ρ β}
    {input : Input τ}, P first input →
      (∀ depth, ∀ found ∈ (first.unfolded rules depth).results input, P second found.rest) →
        P (first.andThen second) input
  apply : ∀ {α β : Type} {function : Expression ε τ ρ (α → β)} {argument : Expression ε τ ρ α}
    {input : Input τ}, P function input →
      (∀ depth, ∀ found ∈ (function.unfolded rules depth).results input, P argument found.rest) →
        P (function.apply argument) input
  many : ∀ {α : Type} {body : Expression ε τ ρ α} {input : Input τ},
    (∀ rest : Input τ, rest.size ≤ input.size → P body rest) → P body.many input

theorem Closed.of_unguarded {P : {α : Type} → Expression ε τ ρ α → Input τ → Prop}
    (h : Closed rules P) {size : Nat}
    (hshorter : ∀ {α : Type} (e : Expression ε τ ρ α) (input : Input τ),
      input.size < size → P e input)
    {e : Expression ε τ ρ α}
    (hrules : ∀ i, e.Unguarded rules i → ∀ input : Input τ, input.size ≤ size → P (rule i) input)
    {input : Input τ} (hsize : input.size ≤ size) : P e input := by
  -- Behind a first operand, the input is shorter or the references count as unguarded.
  have hbehind : ∀ {α β : Type} {first : Expression ε τ ρ α} {second : Expression ε τ ρ β}
      {input : Input τ}, input.size ≤ size →
      (¬first.Consumes rules → ∀ input : Input τ, input.size ≤ size → P second input) →
      ∀ depth, ∀ found ∈ (first.unfolded rules depth).results input, P second found.rest := by
    intro α β first second input hsize hsecond depth found hfound
    by_cases hconsumes : first.Consumes rules
    · have hshort : found.rest.size < input.size := hconsumes depth input found hfound
      exact hshorter second found.rest (by omega)
    · have hle : found.rest.size ≤ input.size := size_le_of_mem_results hfound
      exact hsecond hconsumes found.rest (by omega)
  induction e generalizing input with
  | leaf p hp => exact h.leaf hp input
  | pure value => exact h.pure value input
  | fail => exact h.fail input
  | eof => exact h.eof input
  | satisfy condition => exact h.satisfy condition input
  | map f body ih => exact h.map f (ih hrules hsize)
  | tap event body ih => exact h.tap event (ih hrules hsize)
  | andThen first second ihfirst ihsecond =>
      have hfirst := ihfirst (fun i hi => hrules i (.inl hi)) hsize
      refine h.andThen hfirst (hbehind hsize ?_)
      intro hconsumes input hinput
      exact ihsecond (fun i hi => hrules i (.inr ⟨hconsumes, hi⟩)) hinput
  | apply function argument ihfunction ihargument =>
      have hfunction := ihfunction (fun i hi => hrules i (.inl hi)) hsize
      refine h.apply hfunction (hbehind hsize ?_)
      intro hconsumes input hinput
      exact ihargument (fun i hi => hrules i (.inr ⟨hconsumes, hi⟩)) hinput
  | orElse first second ihfirst ihsecond =>
      have hfirst := ihfirst (fun i hi => hrules i (.inl hi)) hsize
      exact h.orElse hfirst (ihsecond (fun i hi => hrules i (.inr hi)) hsize)
  | many body ih => exact h.many fun rest hrest => ih hrules (by omega)
  | delay events body ih => exact h.delay events (ih hrules hsize)
  | rule i => exact hrules i rfl input hsize

theorem closed_ends (rules : Rules ε τ ρ) : Closed rules fun e input => e.Ends rules input where
  leaf h _ := ends_leaf h
  pure value _ := ends_pure value
  fail _ := ends_fail
  eof _ := ends_eof
  satisfy condition _ := ends_satisfy condition
  map f _ _ h := h.map f
  tap event _ _ h := h.tap event
  delay events _ _ h := h.delay events
  orElse hfirst hsecond := hfirst.orElse hsecond
  andThen hfirst hsecond := hfirst.andThen hsecond
  apply hfunction hargument := hfunction.apply hargument
  many h := Ends.many h

theorem ends_of_guarded (hguarded : rules.Guarded) (e : Expression ε τ ρ α) (input : Input τ) :
    e.Ends rules input := by
  induction hsize : input.size using Nat.strongRecOn generalizing α input with
  | _ size ih =>
      subst hsize
      have hshorter : ∀ {α : Type} (e : Expression ε τ ρ α) (shorter : Input τ),
          shorter.size < input.size → e.Ends rules shorter :=
        fun e shorter hlt => ih _ hlt e shorter rfl
      have hrule : ∀ i, ∀ other : Input τ, other.size ≤ input.size →
          (rule i : Expression ε τ ρ (ρ i)).Ends rules other := by
        intro i
        induction i using hguarded.induction with
        | _ i ihrule =>
            intro other hother
            exact .rule ((closed_ends rules).of_unguarded hshorter ihrule hother)
      exact (closed_ends rules).of_unguarded hshorter (fun i _ => hrule i) (Nat.le_refl _)

/-- With guarded rules, an expression consumes if and only if every match that its search
gives does. -/
theorem consumes_iff (hguarded : rules.Guarded) (e : Expression ε τ ρ α) :
    e.Consumes rules ↔
      ∀ (input : Input τ) (run : Run ε (Match τ α)), (start e input).Yields rules run →
        ∀ found ∈ run.results, found.rest.size < input.size := by
  constructor
  · intro hconsumes input run hrun found hfound
    obtain ⟨depth, hdepth⟩ := exists_mem_unfolded hrun hfound
    exact hconsumes depth input found hdepth
  · intro h depth input found hfound
    obtain ⟨run, hrun, hunfolded⟩ := ends_of_guarded hguarded e input
    obtain ⟨later, hlater, hdepth⟩ := (hunfolded.and (eventually_ge_atTop depth)).exists
    refine h input run hrun found ?_
    rw [← hlater, Attempt.results_toRun]
    exact results_unfolded_mono hdepth e input hfound

/-- Every search ends: for expressions without rules, and for expressions with
guarded rules. -/
theorem search_ends :
    (∀ {σ : Empty → Type} (rules : Rules ε τ σ) (e : Expression ε τ σ α) (input : Input τ),
      e.Ends rules input) ∧
    ∀ {ι : Type} {ρ : ι → Type} (rules : Rules ε τ ρ), rules.Guarded →
      ∀ (e : Expression ε τ ρ α) (input : Input τ), e.Ends rules input := by
  constructor
  · intro σ rules e input
    have hguarded : rules.Guarded := ⟨fun i => i.elim⟩
    exact ends_of_guarded hguarded e input
  · intro ι ρ rules hguarded e input
    exact ends_of_guarded hguarded e input

/-- A value is the letter `a` or brackets around a list of lists of values. The
repetition of the inner lists may match nothing any number of times. -/
def groups : Rules Unit Char (fun i : Bool => cond i Nat (List (List Nat)))
  | true =>
      (((token '(').keepRight ((rule false).keepLeft (token ')'))).map fun depths =>
        depths.flatten.foldl max 0 + 1).orElse ((token 'a').replace (0 : Nat))
  | false => many (many (rule true))

theorem guarded_groups : groups.Guarded := by
  have hrank : ∀ i j, (groups j).Unguarded groups i → (cond i 0 1 : Nat) < cond j 0 1 := by
    intro i j h
    cases j with
    | true =>
        simp [groups, Unguarded, token, replace, unguarded_keepRight_iff, consumes_satisfy] at h
    | false =>
        obtain rfl : i = true := h
        exact Nat.zero_lt_one
  exact Subrelation.wf (fun h => hrank _ _ h) (measure fun i : Bool => (cond i 0 1 : Nat)).wf

theorem search_ends_groups :
    groups.Guarded ∧
      (rule true : Expression Unit Char _ Nat).Ends groups
        (.ofList ['(', 'a', '(', 'a', 'a', ')', ')']) :=
  ⟨guarded_groups, search_ends.2 groups guarded_groups _ _⟩

end ScanParse.Expression
