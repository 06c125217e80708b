import Mathlib.Order.Filter.AtTopBot.Basic
import ScanParse.Proofs.Parse.Asking
import ScanParse.Proofs.Parse.Stepping

namespace ScanParse

universe u v

namespace IteratorStep

variable {ε α β : Type} {σ : Type u} {υ : Type v}

/-- A step beside a run: both log, give and end alike, and what is left of both is related. -/
def Follows (R : σ → Run ε α → Prop) (run : Run ε α) : IteratorStep ε α σ → Prop
  | ended left => run = .done ∧ R left .done
  | logged event next => ∃ rest, run = .note event (fun _ => rest) ∧ R next rest
  | silent next => R next run
  | found value next => ∃ rest, run = .result value (fun _ => rest) ∧ R next rest

theorem Follows.within {R : σ → Run ε α → Prop} {R' : υ → Run ε β → Prop} {run : Run ε α}
    {step : IteratorStep ε α σ} (h : step.Follows R run) {context : σ → υ}
    (join : Run ε α → Run ε β) {atEnd : σ → IteratorStep ε β υ}
    {atValue : α → σ → IteratorStep ε β υ}
    (hcontext : ∀ {next rest}, R next rest → R' (context next) (join rest))
    (hnote : ∀ event rest, join (.note event rest) = .note event fun _ => join (rest ()))
    (hend : ∀ {left}, R left .done → (atEnd left).Follows R' (join .done))
    (hvalue : ∀ {value next rest}, R next rest →
      (atValue value next).Follows R' (join (.result value fun _ => rest))) :
    (step.within context atEnd atValue).Follows R' (join run) := by
  cases step with
  | ended left =>
      obtain ⟨rfl, hleft⟩ := h
      exact hend hleft
  | logged event next =>
      obtain ⟨rest, rfl, hrest⟩ := h
      exact ⟨join rest, hnote event _, hcontext hrest⟩
  | silent next => exact hcontext h
  | found value next =>
      obtain ⟨rest, rfl, hrest⟩ := h
      exact hvalue hrest

end IteratorStep

def Run.trace {ε α : Type} : Run ε α → List (ε ⊕ α)
  | done => []
  | note event rest => .inl event :: (rest ()).trace
  | result value rest => .inr value :: (rest ()).trace

theorem Run.filterMap_trace {ε α : Type} (run : Run ε α) :
    run.trace.filterMap Sum.getRight? = run.results := by
  induction run with
  | done => rfl
  | note event rest ih => exact ih ()
  | result value rest ih => exact congrArg (value :: ·) (ih ())

namespace Search

variable {ε τ ι α β γ : Type} {ρ : ι → Type} {rules : Expression.Rules ε τ ρ}

open Repetition in
/-- The run is that of the search, with the rules unfolded at least so deep wherever an expression
has still to be started. -/
inductive Deep (rules : Expression.Rules ε τ ρ) (n : Nat) :
    {α : Type} → Search ε τ ρ α → Run ε (Match τ α) → Prop
  | start {α : Type} (e : Expression ε τ ρ α) (input : Input τ) {depth : Nat} :
      n ≤ depth → Deep rules n (start e input) ((e.unfolded rules depth).start input).toRun
  | done {α : Type} : Deep rules n (done : Search ε τ ρ α) .done
  | given {α : Type} (found : Match τ α) {rest : Search ε τ ρ α} {run : Run ε (Match τ α)} :
      Deep rules n rest run → Deep rules n (given found rest) (.result found fun _ => run)
  | noted {α : Type} (events : List ε) {rest : Search ε τ ρ α} {run : Run ε (Match τ α)} :
      Deep rules n rest run → Deep rules n (noted events rest) (.notes events fun _ => run)
  | map {α β : Type} (f : α → β) {search : Search ε τ ρ α} {run : Run ε (Match τ α)} :
      Deep rules n search run → Deep rules n (map f search) (run.map (Match.map f))
  | tap {α : Type} (event : α → ε) {search : Search ε τ ρ α} {run : Run ε (Match τ α)} :
      Deep rules n search run → Deep rules n (tap event search) (run.tap (event ·.value))
  | sequence {α β γ : Type} (join : α → β → γ) {first : Search ε τ ρ α}
      (second : Expression ε τ ρ β) {run : Run ε (Match τ α)} {depth : Nat} :
      n ≤ depth → Deep rules n first run →
        Deep rules n (sequence join first second) (run.bind fun found =>
          ((second.unfolded rules depth).start found.rest).toRun.map
            (Match.map (join found.value)))
  | within {α β γ : Type} (join : α → β → γ) (value : α) {inner : Search ε τ ρ β}
      {first : Search ε τ ρ α} {second : Expression ε τ ρ β} {run : Run ε (Match τ β)}
      {later : Run ε (Match τ γ)} :
      Deep rules n inner run → Deep rules n (.sequence join first second) later →
        Deep rules n (within join value inner first second)
          ((run.map (Match.map (join value))).append fun _ => later)
  | choice {α : Type} {first : Search ε τ ρ α} (second : Expression ε τ ρ α) (input : Input τ)
      {run : Run ε (Match τ α)} {depth : Nat} :
      n ≤ depth → Deep rules n first run →
        Deep rules n (choice first second input)
          (run.append fun _ => ((second.unfolded rules depth).start input).toRun)
  | level {α : Type} (body : Expression ε τ ρ α) (input : Input τ) {untried : Search ε τ ρ α}
      (matched : List α) {below : Search ε τ ρ (List α)} {run : Run ε (Match τ α)}
      {later : Run ε (Match τ (List α))} {depth : Nat} :
      n ≤ depth → Deep rules n untried run → Deep rules n below later →
        Deep rules n (level body input untried matched below)
          (((run.bind (further (body.unfolded rules depth) input)).map
            (prepend matched.reverse)).append fun _ =>
              .result ⟨matched.reverse, input⟩ fun _ => later)

namespace Deep

theorem mono {n m : Nat} (hle : n ≤ m) {search : Search ε τ ρ α} {run : Run ε (Match τ α)}
    (h : Deep rules m search run) : Deep rules n search run := by
  induction h with
  | start e input hdepth => exact .start e input (by omega)
  | done => exact .done
  | given found _ ih => exact .given found ih
  | noted events _ ih => exact .noted events ih
  | map f _ ih => exact .map f ih
  | tap event _ ih => exact .tap event ih
  | sequence join second hdepth _ ih => exact .sequence join second (by omega) ih
  | within join value _ _ ihinner ihfirst => exact .within join value ihinner ihfirst
  | choice second input hdepth _ ih => exact .choice second input (by omega) ih
  | level body input matched hdepth _ _ ihuntried ihbelow =>
      exact .level body input matched (by omega) ihuntried ihbelow

theorem ofRun (n : Nat) (run : Run ε (Match τ α)) : Deep rules n (Search.ofRun run) run := by
  induction run with
  | done => exact .done
  | note event rest ih => exact .noted [event] (ih ())
  | result found rest ih => exact .given found (ih ())

theorem entered {n depth : Nat} (hdepth : n ≤ depth) (body : Expression ε τ ρ α) (input : Input τ)
    (matched : List α) {below : Search ε τ ρ (List α)} {later : Run ε (Match τ (List α))}
    (hbelow : Deep rules n below later) :
    Deep rules n (.level body input (.start body input) matched below)
      ((((body.unfolded rules depth).many.start input).toRun.map
        (Repetition.prepend matched.reverse)).append fun _ => later) := by
  have hlevel := Deep.level body input matched hdepth (.start body input hdepth) hbelow
  simpa [Parser.toRun_many, Repetition.prepend_mk, Run.map, Run.append] using hlevel

theorem opened {n depth : Nat} (hdepth : n + 1 ≤ depth) (input : Input τ)
    (e : Expression ε τ ρ α) :
    Deep rules n (Search.opened rules input e) ((e.unfolded rules depth).start input).toRun := by
  have hle : n ≤ depth := Nat.le_of_succ_le hdepth
  cases e with
  | pure value => exact ofRun n (.ofList [⟨value, input⟩])
  | fail => exact ofRun n (.ofList [])
  | eof => exact ofRun n (.ofList (Match.ofEnd input))
  | satisfy condition => exact ofRun n (.ofList (Match.ofFirst condition input))
  | leaf p h => exact ofRun n (p.start input).toRun
  | map f body =>
      rw [Expression.unfolded, Expression.parser, Parser.toRun_map]
      refine .map f ?_
      exact .start body input hle
  | tap event body =>
      rw [Expression.unfolded, Expression.parser, Parser.toRun_tap]
      refine .tap event ?_
      exact .start body input hle
  | andThen first second =>
      rw [Expression.unfolded, Expression.parser, Parser.toRun_andThen]
      refine .sequence Prod.mk second hle ?_
      exact .start first input hle
  | apply function argument =>
      rw [Expression.unfolded, Expression.parser, Parser.toRun_apply]
      refine .sequence id argument hle ?_
      exact .start function input hle
  | orElse first second =>
      rw [Expression.unfolded, Expression.parser, Parser.toRun_orElse]
      refine .choice second input hle ?_
      exact .start first input hle
  | many body =>
      have hlevel : Deep rules n (.level body input (.start body input) [] .done) _ :=
        entered hle body input [] .done
      simp only [List.reverse_nil, Repetition.prepend_nil, Run.map_id, Run.append_done] at hlevel
      exact hlevel
  | delay events body =>
      rw [Expression.unfolded, Expression.parser, Parser.toRun_delay]
      refine .noted events ?_
      exact .start body input hle
  | rule i =>
      -- The only reference that is looked up in this step.
      obtain ⟨depth, rfl⟩ : ∃ d, depth = d + 1 := ⟨depth - 1, by omega⟩
      rw [Expression.unfolded_rule_succ, Parser.toRun_delay]
      change Deep rules n (.start (rules i) input) _
      exact .start (rules i) input (Nat.le_of_succ_le_succ hdepth)

/-- One step of a search looks up one reference at most. -/
theorem step {n : Nat} {search : Search ε τ ρ α} {run : Run ε (Match τ α)}
    (h : Deep rules (n + 1) search run) : (search.step rules).Follows (Deep rules n) run := by
  induction h with
  | start e input hdepth => exact opened hdepth input e
  | done => exact ⟨rfl, .done⟩
  | given found h _ => exact ⟨_, rfl, h.mono n.le_succ⟩
  | noted events h _ =>
      cases events with
      | nil => exact h.mono n.le_succ
      | cons event events => exact ⟨_, rfl, .noted events (h.mono n.le_succ)⟩
  | map f _ ih =>
      refine ih.within (Run.map (Match.map f)) (fun hnext => .map f hnext) (fun _ _ => rfl) ?_ ?_
      · intro left hleft
        exact ⟨rfl, .map f hleft⟩
      · intro found next rest hnext
        exact ⟨_, rfl, .map f hnext⟩
  | tap event _ ih =>
      refine ih.within (Run.tap (event ·.value)) (fun hnext => .tap event hnext)
        (fun _ _ => rfl) ?_ ?_
      · intro left hleft
        exact ⟨rfl, .tap event hleft⟩
      · intro found next rest hnext
        exact ⟨_, rfl, .given found (.tap event hnext)⟩
  | @sequence _ _ _ join _ second _ depth hdepth _ ih =>
      have hle : n ≤ depth := Nat.le_of_succ_le hdepth
      refine ih.within (Run.bind · fun found =>
        ((second.unfolded rules depth).start found.rest).toRun.map (Match.map (join found.value)))
        (fun hnext => .sequence join second hle hnext) (fun _ _ => rfl) ?_ ?_
      · intro left _
        exact ⟨rfl, .done⟩
      · intro found next rest hnext
        rw [Run.bind_result]
        exact Deep.within join found.value (.start second found.rest hle)
          (.sequence join second hle hnext)
  | @within _ _ _ join value _ _ _ _ later _ hfirst ih _ =>
      have hfirst := hfirst.mono n.le_succ
      refine ih.within (fun run => (run.map (Match.map (join value))).append fun _ => later)
        (fun hnext => .within join value hnext hfirst) (fun _ _ => rfl) ?_ ?_
      · intro left _
        exact hfirst
      · intro found next rest hnext
        exact ⟨_, rfl, .within join value hnext hfirst⟩
  | @choice _ _ second input _ depth hdepth _ ih =>
      have hle : n ≤ depth := Nat.le_of_succ_le hdepth
      refine ih.within (Run.append · fun _ => ((second.unfolded rules depth).start input).toRun)
        (fun hnext => .choice second input hle hnext) (fun _ _ => rfl) ?_ ?_
      · intro left _
        exact Deep.start second input hle
      · intro found next rest hnext
        exact ⟨_, rfl, .choice second input hle hnext⟩
  | @level _ body input _ matched _ _ later depth hdepth _ hbelow ih _ =>
      have hle : n ≤ depth := Nat.le_of_succ_le hdepth
      have hbelow := hbelow.mono n.le_succ
      refine ih.within (fun run =>
        ((run.bind (Repetition.further (body.unfolded rules depth) input)).map
          (Repetition.prepend matched.reverse)).append fun _ =>
            .result ⟨matched.reverse, input⟩ fun _ => later)
        (fun hnext => .level body input matched hle hnext hbelow) (fun _ _ => rfl) ?_ ?_
      · intro left _
        exact ⟨_, rfl, hbelow⟩
      · intro item next rest hnext
        have hagain := Deep.level body input matched hle hnext hbelow
        rw [Run.bind_result, Repetition.further]
        split
        · have hdeeper := entered hle body item.rest (item.value :: matched) hagain
          change Deep rules n _ _
          simpa [Repetition.prepend_prepend] using hdeeper
        · exact hagain

theorem follows {n : Nat} {search : Search ε τ ρ α} {run : Run ε (Match τ α)}
    {outcome : IteratorStep ε (Match τ α) (Search ε τ ρ α)} (h : Deep rules (n + 1) search run)
    (hstep : (iterator rules α).step search = outcome) : outcome.Follows (Deep rules n) run :=
  hstep ▸ h.step

theorem trace {n : Nat} {search : (iterator rules α).State} {run : Run ε (Match τ α)}
    (h : Deep rules n search run) : (iterator rules α).trace n search <+: run.trace := by
  induction n generalizing search run with
  | zero => exact List.nil_prefix
  | succ n ih =>
      rw [Iterator.trace]
      cases hstep : (iterator rules α).step search with
      | ended left => exact List.nil_prefix
      | logged event next =>
          obtain ⟨rest, rfl, hrest⟩ := h.follows hstep
          exact List.cons_prefix_cons.mpr ⟨rfl, ih hrest⟩
      | silent next => exact ih (h.follows hstep)
      | found value next =>
          obtain ⟨rest, rfl, hrest⟩ := h.follows hstep
          exact List.cons_prefix_cons.mpr ⟨rfl, ih hrest⟩

theorem reply {search next : (iterator rules α).State} {log : List ε} {answer : Option (Match τ α)}
    (h : (iterator rules α).Reply search log answer next) :
    ∃ cost, ∀ n run, Deep rules (n + cost) search run →
      run.pull.log = log ∧ run.pull.answer = answer ∧ Deep rules n next (run.pull.rest ()) := by
  induction h with
  | ended hstep =>
      refine ⟨1, ?_⟩
      intro n run hdeep
      have hfollows := hdeep.follows hstep
      obtain ⟨rfl, hleft⟩ := hfollows
      exact ⟨rfl, rfl, hleft⟩
  | logged hstep _ ih =>
      obtain ⟨cost, ih⟩ := ih
      refine ⟨cost + 1, ?_⟩
      intro n run hdeep
      have hfollows := hdeep.follows hstep
      obtain ⟨rest, rfl, hrest⟩ := hfollows
      rw [Run.pull_note]
      obtain ⟨hlog, hanswer, hnext⟩ := ih n rest hrest
      exact ⟨congrArg _ hlog, hanswer, hnext⟩
  | silent hstep _ ih =>
      obtain ⟨cost, ih⟩ := ih
      refine ⟨cost + 1, ?_⟩
      intro n run hdeep
      have hfollows := hdeep.follows hstep
      exact ih n run hfollows
  | found hstep =>
      refine ⟨1, ?_⟩
      intro n run hdeep
      have hfollows := hdeep.follows hstep
      obtain ⟨rest, rfl, hrest⟩ := hfollows
      exact ⟨rfl, rfl, hrest⟩

theorem replies {search left : (iterator rules α).State}
    {answers : List (List ε × Option (Match τ α))}
    (h : (iterator rules α).Asked search answers left) :
    ∃ cost, ∀ run, Deep rules cost search run → run.replies answers.length = answers := by
  induction h with
  | nothing => exact ⟨0, fun _ _ => rfl⟩
  | request hreply _ ih =>
      obtain ⟨cost, hcost⟩ := reply hreply
      obtain ⟨later, hlater⟩ := ih
      refine ⟨later + cost, ?_⟩
      intro run hdeep
      obtain ⟨rfl, rfl, hnext⟩ := hcost later run hdeep
      exact congrArg _ (hlater _ hnext)

theorem eq_of_yields {search : (iterator rules α).State} {run : Run ε (Match τ α)}
    (h : Yields rules search run) :
    ∃ cost, ∀ other, Deep rules cost search other → other = run := by
  induction h with
  | ended hstep =>
      refine ⟨1, ?_⟩
      intro other hdeep
      have hfollows := hdeep.follows hstep
      exact hfollows.1
  | logged hstep _ ih | found hstep _ ih =>
      obtain ⟨cost, ih⟩ := ih
      refine ⟨cost + 1, ?_⟩
      intro other hdeep
      have hfollows := hdeep.follows hstep
      obtain ⟨rest, rfl, hrest⟩ := hfollows
      rw [ih rest hrest]
  | silent hstep _ ih =>
      obtain ⟨cost, ih⟩ := ih
      refine ⟨cost + 1, ?_⟩
      intro other hdeep
      have hfollows := hdeep.follows hstep
      exact ih other hfollows

end Deep

end Search

namespace Expression

open Filter Search

variable {ε τ ι α : Type} {ρ : ι → Type} {rules : Rules ε τ ρ} {e : Expression ε τ ρ α}
  {input : Input τ}

/-- What the first steps of a search log and give, endless or not, is what every unfolding logs and
gives first that is at least as deep as there are steps. -/
theorem trace_unfolded {n depth : Nat} (h : n ≤ depth) :
    (iterator rules α).trace n (start e input) <+:
      ((e.unfolded rules depth).start input).toRun.trace :=
  (Deep.start e input h).trace

theorem mem_results_of_mem_given {n : Nat} {found : Match τ α}
    (h : found ∈ (iterator rules α).given n (start e input)) :
    found ∈ (e.unfolded rules n).results input := by
  rw [Parser.results, ← Attempt.results_toRun, ← Run.filterMap_trace]
  have hbegins : (iterator rules α).trace n (start e input) <+:
      ((e.unfolded rules n).start input).toRun.trace :=
    trace_unfolded n.le_refl
  exact (hbegins.filterMap Sum.getRight?).subset h

/-- The first requests to a search, endless or not, are answered as those to the deep unfoldings
are. -/
theorem replies_unfolded {left : (iterator rules α).State}
    {answers : List (List ε × Option (Match τ α))}
    (h : (iterator rules α).Asked (start e input) answers left) :
    ∀ᶠ depth in atTop,
      ((e.unfolded rules depth).start input).toRun.replies answers.length = answers := by
  obtain ⟨cost, hcost⟩ := Deep.replies h
  filter_upwards [eventually_ge_atTop cost] with depth hdepth
  exact hcost _ (.start e input hdepth)

theorem yields_unfolded {run : Run ε (Match τ α)} (h : (start e input).Yields rules run) :
    ∀ᶠ depth in atTop, ((e.unfolded rules depth).start input).toRun = run := by
  obtain ⟨cost, hcost⟩ := Deep.eq_of_yields h
  filter_upwards [eventually_ge_atTop cost] with depth hdepth
  exact hcost _ (.start e input hdepth)

end Expression

end ScanParse
