import ScanParse.Proofs.Parse.Expression
import ScanParse.Proofs.Parse.Iterator

namespace ScanParse

/-- A search in progress, for matches of values `α`: a tree of the searches that it has started and
not ended. -/
inductive Search (ε τ : Type) {ι : Type} (ρ : ι → Type) : Type → Type 1
  | start {α : Type} (e : Expression ε τ ρ α) (input : Input τ) : Search ε τ ρ α
  | done {α : Type} : Search ε τ ρ α
  | given {α : Type} (found : Match τ α) (rest : Search ε τ ρ α) : Search ε τ ρ α
  | noted {α : Type} (events : List ε) (rest : Search ε τ ρ α) : Search ε τ ρ α
  | map {α β : Type} (f : α → β) (search : Search ε τ ρ α) : Search ε τ ρ β
  | tap {α : Type} (event : α → ε) (search : Search ε τ ρ α) : Search ε τ ρ α
  /-- Between two matches of the first operand of a sequence. -/
  | sequence {α β γ : Type} (join : α → β → γ) (first : Search ε τ ρ α)
      (second : Expression ε τ ρ β) : Search ε τ ρ γ
  /-- Within the second operand, behind a match of the first with this value. -/
  | within {α β γ : Type} (join : α → β → γ) (value : α) (inner : Search ε τ ρ β)
      (first : Search ε τ ρ α) (second : Expression ε τ ρ β) : Search ε τ ρ γ
  | choice {α : Type} (first : Search ε τ ρ α) (second : Expression ε τ ρ α)
      (input : Input τ) : Search ε τ ρ α
  /-- The deepest level of a repetition: the matches of the next item that were not
  tried yet, the items matched so far, last first, and the levels below. -/
  | level {α : Type} (body : Expression ε τ ρ α) (input : Input τ) (untried : Search ε τ ρ α)
      (matched : List α) (below : Search ε τ ρ (List α)) : Search ε τ ρ (List α)

namespace Search

variable {ε τ ι α β γ : Type} {ρ : ι → Type}

/-- The search that logs and gives what a run says. -/
def ofRun : Run ε (Match τ α) → Search ε τ ρ α
  | .done => done
  | .note event rest => noted [event] (ofRun (rest ()))
  | .result found rest => given found (ofRun (rest ()))

def opened (rules : Expression.Rules ε τ ρ) (input : Input τ) :
    {α : Type} → Expression ε τ ρ α → Search ε τ ρ α
  | _, .pure value => ofRun (.ofList [⟨value, input⟩])
  | _, .fail => ofRun (.ofList [])
  | _, .eof => ofRun (.ofList (Match.ofEnd input))
  | _, .satisfy condition => ofRun (.ofList (Match.ofFirst condition input))
  | _, .leaf p _ => ofRun (p.start input).toRun
  | _, .map f body => .map f (.start body input)
  | _, .tap event body => .tap event (.start body input)
  | _, .andThen first second => .sequence Prod.mk (.start first input) second
  | _, .apply function argument => .sequence id (.start function input) argument
  | _, .orElse first second => .choice (.start first input) second input
  | _, .many body => .level body input (.start body input) [] .done
  | _, .delay events body => .noted events (.start body input)
  | _, .rule i => .start (rules i) input

/-- One step of a search. Nothing bounds the number of steps: that a search ends is to be proved. -/
def step (rules : Expression.Rules ε τ ρ) :
    {α : Type} → Search ε τ ρ α → IteratorStep ε (Match τ α) (Search ε τ ρ α)
  | _, start e input => .silent (opened rules input e)
  | _, done => .ended done
  | _, given found rest => .found found rest
  | _, noted [] rest => .silent rest
  | _, noted (event :: events) rest => .logged event (noted events rest)
  | _, map f search =>
      (search.step rules).within (map f) (fun left => .ended (map f left)) fun found next =>
        .found (found.map f) (map f next)
  | _, tap event search =>
      (search.step rules).within (tap event) (fun left => .ended (tap event left)) fun found next =>
        .logged (event found.value) (given found (tap event next))
  | _, sequence join first second =>
      (first.step rules).within (sequence join · second) (fun _ => .ended done) fun found next =>
        .silent (within join found.value (start second found.rest) next second)
  | _, within join value inner first second =>
      (inner.step rules).within (within join value · first second)
        (fun _ => .silent (sequence join first second)) fun found next =>
          .found (found.map (join value)) (within join value next first second)
  | _, choice first second input =>
      (first.step rules).within (choice · second input) (fun _ => .silent (start second input))
        fun found next => .found found (choice next second input)
  | _, level body input untried matched below =>
      (untried.step rules).within (level body input · matched below)
        (fun _ => .found ⟨matched.reverse, input⟩ below) fun found next =>
          if found.rest.size < input.size then
            .silent (level body found.rest (start body found.rest) (found.value :: matched)
              (level body input next matched below))
          else .silent (level body input next matched below)

/-- The searches for matches of values `α`, with these rules. -/
abbrev iterator (rules : Expression.Rules ε τ ρ) (α : Type) : Iterator.{1} ε (Match τ α) where
  State := Search ε τ ρ α
  step := step rules

/-- Step by step, the search logs and gives what the run says, and it ends where the run ends. -/
abbrev Yields (rules : Expression.Rules ε τ ρ) (search : Search ε τ ρ α)
    (run : Run ε (Match τ α)) : Prop :=
  (iterator rules α).Acts search run

variable {rules : Expression.Rules ε τ ρ}

theorem final_iterator : (iterator rules α).Final := by
  intro search left h
  induction search with
  | start e input => cases h
  | done =>
      cases h
      rfl
  | given found rest => cases h
  | noted events rest => cases events <;> cases h
  | map f search ih =>
      obtain ⟨inner, hinner, hleft⟩ :=
        IteratorStep.exists_of_within_eq_ended h fun _ _ => nofun
      cases hleft
      change (inner.step rules).within _ _ _ = _
      rw [show inner.step rules = .ended inner from ih hinner]
      rfl
  | tap event search ih =>
      obtain ⟨inner, hinner, hleft⟩ :=
        IteratorStep.exists_of_within_eq_ended h fun _ _ => nofun
      cases hleft
      change (inner.step rules).within _ _ _ = _
      rw [show inner.step rules = .ended inner from ih hinner]
      rfl
  | sequence join first second _ =>
      obtain ⟨inner, -, hleft⟩ := IteratorStep.exists_of_within_eq_ended h fun _ _ => nofun
      cases hleft
      rfl
  | within join value inner first second _ _ =>
      obtain ⟨inner, -, hleft⟩ := IteratorStep.exists_of_within_eq_ended h fun _ _ => nofun
      cases hleft
  | choice first second input _ =>
      obtain ⟨inner, -, hleft⟩ := IteratorStep.exists_of_within_eq_ended h fun _ _ => nofun
      cases hleft
  | level body input untried matched below _ _ =>
      obtain ⟨inner, -, hleft⟩ :=
        IteratorStep.exists_of_within_eq_ended h fun _ _ => by split <;> nofun
      cases hleft

theorem yields_ofRun (run : Run ε (Match τ α)) :
    (ofRun run : Search ε τ ρ α).Yields rules run := by
  induction run with
  | done => exact .ended rfl
  | note event rest ih => exact .logged rfl (.silent rfl (ih ()))
  | result found rest ih => exact .found rfl (ih ())

theorem Yields.noted (events : List ε) {search : Search ε τ ρ α} {run : Run ε (Match τ α)}
    (h : search.Yields rules run) :
    (noted events search).Yields rules (.notes events fun _ => run) := by
  induction events with
  | nil => exact .silent rfl h
  | cons event events ih => exact .logged rfl ih

theorem Yields.within {join : α → β → γ} {value : α} {inner : Search ε τ ρ β}
    {first : Search ε τ ρ α} {second : Expression ε τ ρ β} {run : Run ε (Match τ β)}
    {later : Run ε (Match τ γ)} (h : inner.Yields rules run)
    (hfirst : (sequence join first second).Yields rules later) :
    (within join value inner first second).Yields rules
      ((run.map (Match.map (join value))).append fun _ => later) := by
  refine h.through (iterator rules γ) (Search.within join value · first second) (fun _ => rfl) ?_
  intro whole left hstep
  exact .silent hstep hfirst

theorem Yields.sequence {join : α → β → γ} {first : Search ε τ ρ α} {second : Expression ε τ ρ β}
    {run : Run ε (Match τ α)} {later : Match τ α → Run ε (Match τ β)} (h : first.Yields rules run)
    (hsecond : ∀ found ∈ run.results, (start second found.rest).Yields rules (later found)) :
    (sequence join first second).Yields rules
      (run.bind fun found => (later found).map (Match.map (join found.value))) := by
  refine h.nested (iterator rules γ) (Search.sequence join · second) (fun _ => rfl) ?_
  intro found hfound next rest hnext
  exact (hsecond found hfound).within hnext

section Repetition

open Repetition

/-- If the search for the body ends wherever a repetition gets to, then so does a level that is
entered, whatever the levels below, and gives way to them. -/
theorem yields_level_start (p : Parser ε τ α) {body : Expression ε τ ρ α} {input : Input τ}
    (hbody : ∀ values rest, p.Repeats input values rest →
      (start body rest).Yields rules (p.start rest).toRun)
    (matched : List α) {below : Search ε τ ρ (List α)} {later : Run ε (Match τ (List α))}
    (hbelow : below.Yields rules later) :
    (level body input (start body input) matched below).Yields rules
      (((p.many.start input).toRun.map (prepend matched.reverse)).append fun _ => later) := by
  induction hsize : input.size using Nat.strongRecOn
    generalizing input matched below later with
  | _ size ih =>
      subst hsize
      have hhere := hbody [] input (.none input)
      have hlevel := hhere.level p (iterator rules (List α))
        (Search.level body input · matched below) (fun _ => rfl) hbelow <| by
          intro item hitem hshort next rest hnext
          rw [Attempt.results_toRun] at hitem
          refine ih _ hshort ?_ (item.value :: matched) hnext rfl
          intro values rest hrest
          exact hbody _ rest (.more hitem hshort hrest)
      simpa [Parser.toRun_many, prepend_mk, Run.map, Run.append] using hlevel

end Repetition

end Search

namespace Expression

open Search

variable {ε τ ι α β γ : Type} {ρ : ι → Type} {rules : Rules ε τ ρ} {input : Input τ}

theorem yields_start {e : Expression ε τ ρ α} {run : Run ε (Match τ α)}
    (h : (opened rules input e).Yields rules run) : (start e input).Yields rules run :=
  .silent rfl h

section

variable {body first second : Expression ε τ ρ α} {run later : Run ε (Match τ α)}

theorem yields_pure (value : α) :
    (start (pure value) input).Yields rules ((Parser.pure value).start input).toRun :=
  yields_start (yields_ofRun (.ofList [⟨value, input⟩]))

theorem yields_fail :
    (start (fail : Expression ε τ ρ α) input).Yields rules (Parser.fail.start input).toRun :=
  yields_start (yields_ofRun (.ofList []))

theorem yields_eof : (start eof input).Yields rules (Parser.eof.start input).toRun :=
  yields_start (yields_ofRun (.ofList (Match.ofEnd input)))

theorem yields_satisfy (condition : τ → Bool) :
    (start (satisfy condition) input).Yields rules
      ((Parser.satisfy condition).start input).toRun :=
  yields_start (yields_ofRun (.ofList (Match.ofFirst condition input)))

theorem yields_leaf {p : Parser ε τ α} (h : p.KeepsSuffix) :
    (start (leaf p h) input).Yields rules (p.start input).toRun :=
  yields_start (yields_ofRun (p.start input).toRun)

theorem yields_map (f : α → β) (h : (start body input).Yields rules run) :
    (start (map f body) input).Yields rules (run.map (Match.map f)) :=
  yields_start (h.mapped (iterator rules β) (Search.map f) fun _ => rfl)

theorem yields_tap (event : α → ε) (h : (start body input).Yields rules run) :
    (start (tap event body) input).Yields rules (run.tap (event ·.value)) :=
  yields_start (h.tapped (iterator rules α) (Search.tap event) (fun _ => rfl) fun _ _ => rfl)

theorem yields_delay (events : List ε) (h : (start body input).Yields rules run) :
    (start (delay events body) input).Yields rules (.notes events fun _ => run) :=
  yields_start (h.noted events)

theorem yields_orElse (h : (start first input).Yields rules run)
    (hsecond : (start second input).Yields rules later) :
    (start (orElse first second) input).Yields rules (run.append fun _ => later) :=
  yields_start (h.followed (iterator rules α) (Search.choice · second input) (fun _ => rfl)
    fun hstep => .silent hstep hsecond)

theorem yields_rule {i : ι} {run : Run ε (Match τ (ρ i))}
    (h : (start (rules i) input).Yields rules run) : (start (rule i) input).Yields rules run :=
  yields_start h

end

end Expression

end ScanParse
