import ScanParse.Proofs.Parse.Isolation
import ScanParse.Proofs.Parse.Ownership
import ScanParse.Proofs.Parse.Requests

namespace ScanParse

variable {ε τ ι α β κ : Type} {ρ : ι → Type}

namespace Run

theorem pull_filterMap_of_none {run : Run ε κ} (f : κ → Option β) (h : run.pull.answer = none) :
    (run.filterMap f).pull.log = run.pull.log ∧ (run.filterMap f).pull.answer = none := by
  induction run with
  | done => exact ⟨rfl, rfl⟩
  | note event rest ih =>
      simp only [pull_note, filterMap] at h ⊢
      exact ⟨congrArg _ (ih () h).1, (ih () h).2⟩
  | result value rest => simp at h

theorem pull_filterMap_of_some {run : Run ε κ} {f : κ → Option β} {value : κ} {image : β}
    (h : run.pull.answer = some value) (hf : f value = some image) :
    (run.filterMap f).pull.log = run.pull.log ∧ (run.filterMap f).pull.answer = some image := by
  induction run with
  | done => simp at h
  | note event rest ih =>
      simp only [pull_note, filterMap] at h ⊢
      exact ⟨congrArg _ (ih () h).1, (ih () h).2⟩
  | result value rest =>
      obtain rfl := Option.some.inj h
      simp [filterMap, hf]

theorem pull_filterMap_of_passed {run : Run ε κ} {f : κ → Option β} {value : κ}
    (h : run.pull.answer = some value) (hf : f value = none) :
    (run.filterMap f).pull.log = run.pull.log ++ ((run.pull.rest ()).filterMap f).pull.log ∧
      (run.filterMap f).pull.answer = ((run.pull.rest ()).filterMap f).pull.answer := by
  induction run with
  | done => simp at h
  | note event rest ih =>
      simp only [pull_note, filterMap] at h ⊢
      exact ⟨congrArg _ (ih () h).1, (ih () h).2⟩
  | result value rest =>
      obtain rfl := Option.some.inj h
      simp [filterMap, hf]

end Run

open Store

/-- The iterator at the address acts as the run says, and has the cells for itself. -/
def Owned (rules : Expression.Rules ε τ ρ) (store : Store ε τ ρ) (a : Nat) (cells : List Nat)
    (run : Run ε κ) : Prop :=
  ∃ (it : Iterator.{0} ε κ) (state : it.State),
    Holds rules store it state a cells ∧ it.Final ∧ it.Acts state run

namespace Owned

variable {rules : Expression.Rules ε τ ρ} {store next : Store ε τ ρ} {a : Nat}
  {cells others : List Nat} {run : Run ε κ}

theorem beside {aside : List Nat} (h : Owned rules store a aside run)
    (hmoves : Moves store cells next others) (hapart : cells.Disjoint aside) :
    Owned rules next a aside run ∧ others.Disjoint aside := by
  obtain ⟨it, state, hholds, hfinal, hacts⟩ := h
  obtain ⟨hnext, hothers⟩ := hholds.beside hmoves hapart
  exact ⟨⟨it, state, hnext, hfinal, hacts⟩, hothers⟩

theorem reply (h : Owned rules store a cells run) :
    ∃ next others, Reply rules a store run.pull.log run.pull.answer next ∧
      Owned rules next a others (run.pull.rest ()) ∧ Moves store cells next others := by
  obtain ⟨it, state, hholds, hfinal, hacts⟩ := h
  obtain ⟨left, hreply, hlater⟩ := hacts.exists_reply hfinal
  obtain ⟨next, hanswer, others, hothers, hmoves⟩ := hholds.reply hreply
  exact ⟨next, others, hanswer, ⟨it, left, hothers, hfinal, hlater⟩, hmoves⟩

theorem drained (h : Owned rules store a cells run) :
    ∃ next others, Drained rules a store run.log run.results next ∧
      Owned rules next a others (.done : Run ε κ) ∧ Moves store cells next others := by
  generalize hvalues : run.results = values
  have hgives : run.Gives values := Run.gives_iff.mpr hvalues
  clear hvalues
  induction hgives generalizing store cells with
  | @ended run hnone =>
      obtain ⟨next, others, hreply, hnext, hmoves⟩ := h.reply
      rw [Run.pull_of_none hnone] at hreply hnext
      exact ⟨next, others, .ended hreply, hnext, hmoves⟩
  | @next run value values hsome _ ih =>
      obtain ⟨next, others, hreply, hnext, hmoves⟩ := h.reply
      rw [hsome] at hreply
      obtain ⟨last, later, hdrained, hlast, hlater⟩ := ih hnext
      rw [Run.log_of_pull]
      exact ⟨last, later, .found hreply hdrained, hlast, hmoves.trans hlater⟩

theorem first (f : κ → Option β) (h : Owned rules store a cells run) :
    ∃ next others,
      First rules a f store (run.filterMap f).pull.log (run.filterMap f).pull.answer next ∧
        Moves store cells next others := by
  generalize hvalues : run.results = values
  have hgives : run.Gives values := Run.gives_iff.mpr hvalues
  clear hvalues
  induction hgives generalizing store cells with
  | @ended run hnone =>
      obtain ⟨next, others, hreply, -, hmoves⟩ := h.reply
      obtain ⟨hlog, hanswer⟩ := Run.pull_filterMap_of_none f hnone
      rw [hnone] at hreply
      rw [hlog, hanswer]
      exact ⟨next, others, .ended hreply, hmoves⟩
  | @next run value values hsome _ ih =>
      obtain ⟨next, others, hreply, hnext, hmoves⟩ := h.reply
      rw [hsome] at hreply
      cases hf : f value with
      | some image =>
          obtain ⟨hlog, hanswer⟩ := Run.pull_filterMap_of_some hsome hf
          rw [hlog, hanswer]
          exact ⟨next, others, .found hreply hf, hmoves⟩
      | none =>
          obtain ⟨hlog, hanswer⟩ := Run.pull_filterMap_of_passed hsome hf
          obtain ⟨last, later, hfirst, hlater⟩ := ih hnext
          rw [hlog, hanswer]
          exact ⟨last, later, .passed hreply hf hfirst, hmoves.trans hlater⟩

end Owned

/-- The input that a request starts a search on. -/
def Session.Step.input? : Step → Option Nat
  | .openInput i | .first i | .complete i => some i
  | .next _ | .rest _ => none

def Session.Step.asked? : Step → Option Nat
  | .next k | .rest k => some k
  | .openInput _ | .first _ | .complete _ => none

/-- What a session has in memory: the iterators, and the addresses of those that were handed out. -/
structure Memory (ε τ : Type) {ι : Type} (ρ : ι → Type) : Type 1 where
  store : Store ε τ ρ
  cursors : List Nat

namespace Memory

open Session

/-- How a request to a parser is served. Searches for complete results are started anew, and are not
handed out. -/
inductive Serves (rules : Expression.Rules ε τ ρ) (depth : Nat) (e : Expression ε τ ρ α)
    (inputs : Array (Input τ)) (memory : Memory ε τ ρ) :
    Step → Answer τ α → List ε → Memory ε τ ρ → Prop
  | opened {i : Nat} {input : Input τ} {made : Made ε τ ρ} :
      inputs[i]? = some input → e.make depth (rules.make depth) input memory.store = made →
        Serves rules depth e inputs memory (.openInput i) (.opened memory.cursors.length) made.log
          ⟨made.store, memory.cursors ++ [made.address]⟩
  | next {k a : Nat} {log : List ε} {answer : Option (Match τ α)} {left : Store ε τ ρ} :
      memory.cursors[k]? = some a → Reply rules a memory.store log answer left →
        Serves rules depth e inputs memory (.next k) (.next answer) log ⟨left, memory.cursors⟩
  | rest {k a : Nat} {log : List ε} {found : List (Match τ α)} {left : Store ε τ ρ} :
      memory.cursors[k]? = some a → Drained rules a memory.store log found left →
        Serves rules depth e inputs memory (.rest k) (.rest found) log ⟨left, memory.cursors⟩
  | first {i : Nat} {input : Input τ} {made : Made ε τ ρ} {log : List ε} {answer : Option α}
      {left : Store ε τ ρ} :
      inputs[i]? = some input → e.make depth (rules.make depth) input memory.store = made →
        First rules made.address (Match.complete? : Match τ α → Option α) made.store log answer
            left →
          Serves rules depth e inputs memory (.first i) (.first answer) (made.log ++ log)
            ⟨left, memory.cursors⟩
  | complete {i : Nat} {input : Input τ} {made : Made ε τ ρ} {log : List ε}
      {found : List (Match τ α)} {left : Store ε τ ρ} :
      inputs[i]? = some input → e.make depth (rules.make depth) input memory.store = made →
        Drained rules made.address made.store log found left →
          Serves rules depth e inputs memory (.complete i)
            (.complete (found.filterMap Match.complete?)) (made.log ++ log) ⟨left, memory.cursors⟩
  | noInput {i : Nat} {request : Step} :
      request.input? = some i → inputs[i]? = none →
        Serves rules depth e inputs memory request .missing [] memory
  | noCursor {k : Nat} {request : Step} :
      request.asked? = some k → memory.cursors[k]? = none →
        Serves rules depth e inputs memory request .missing [] memory

/-- The answers to a sequence of requests, each with what it logged. -/
inductive Answers (rules : Expression.Rules ε τ ρ) (depth : Nat) (e : Expression ε τ ρ α)
    (inputs : Array (Input τ)) :
    Memory ε τ ρ → List Step → List (Answer τ α × List ε) → Prop
  | nothing {memory : Memory ε τ ρ} : Answers rules depth e inputs memory [] []
  | request {memory next : Memory ε τ ρ} {request : Step} {requests : List Step}
      {answer : Answer τ α} {log : List ε} {answers : List (Answer τ α × List ε)} :
      Serves rules depth e inputs memory request answer log next →
        Answers rules depth e inputs next requests answers →
          Answers rules depth e inputs memory (request :: requests) ((answer, log) :: answers)

variable {rules : Expression.Rules ε τ ρ} {depth : Nat} {e : Expression ε τ ρ α}
  {inputs : Array (Input τ)} {memory next other : Memory ε τ ρ} {request : Step}
  {answer found : Answer τ α} {log later : List ε}

theorem Serves.eq (h : Serves rules depth e inputs memory request answer log next)
    (hother : Serves rules depth e inputs memory request found later other) :
    answer = found ∧ log = later ∧ next = other := by
  cases h with
  | opened hinput hmade =>
      cases hother with
      | opened hagain hsame =>
          obtain rfl := Option.some.inj (hinput.symm.trans hagain)
          subst hmade hsame
          exact ⟨rfl, rfl, rfl⟩
      | noInput hi hnone =>
          obtain rfl := Option.some.inj hi
          cases hinput.symm.trans hnone
      | noCursor hk => cases hk
  | next hcursor hreply =>
      cases hother with
      | next hagain hsame =>
          obtain rfl := Option.some.inj (hcursor.symm.trans hagain)
          obtain ⟨rfl, rfl, rfl⟩ := hreply.eq hsame
          exact ⟨rfl, rfl, rfl⟩
      | noInput hi => cases hi
      | noCursor hk hnone =>
          obtain rfl := Option.some.inj hk
          cases hcursor.symm.trans hnone
  | rest hcursor hdrained =>
      cases hother with
      | rest hagain hsame =>
          obtain rfl := Option.some.inj (hcursor.symm.trans hagain)
          obtain ⟨rfl, rfl, rfl⟩ := hdrained.eq hsame
          exact ⟨rfl, rfl, rfl⟩
      | noInput hi => cases hi
      | noCursor hk hnone =>
          obtain rfl := Option.some.inj hk
          cases hcursor.symm.trans hnone
  | first hinput hmade hfirst =>
      cases hother with
      | first hagain hsame hother =>
          obtain rfl := Option.some.inj (hinput.symm.trans hagain)
          subst hmade hsame
          obtain ⟨rfl, rfl, rfl⟩ := hfirst.eq hother
          exact ⟨rfl, rfl, rfl⟩
      | noInput hi hnone =>
          obtain rfl := Option.some.inj hi
          cases hinput.symm.trans hnone
      | noCursor hk => cases hk
  | complete hinput hmade hdrained =>
      cases hother with
      | complete hagain hsame hother =>
          obtain rfl := Option.some.inj (hinput.symm.trans hagain)
          subst hmade hsame
          obtain ⟨rfl, rfl, rfl⟩ := hdrained.eq hother
          exact ⟨rfl, rfl, rfl⟩
      | noInput hi hnone =>
          obtain rfl := Option.some.inj hi
          cases hinput.symm.trans hnone
      | noCursor hk => cases hk
  | noInput hi hnone =>
      cases hother with
      | opened hinput | first hinput | complete hinput =>
          obtain rfl := Option.some.inj hi
          cases hinput.symm.trans hnone
      | next | rest => cases hi
      | noInput | noCursor => exact ⟨rfl, rfl, rfl⟩
  | noCursor hk hnone =>
      cases hother with
      | next hcursor | rest hcursor =>
          obtain rfl := Option.some.inj hk
          cases hcursor.symm.trans hnone
      | opened | first | complete => cases hk
      | noInput | noCursor => exact ⟨rfl, rfl, rfl⟩

theorem Answers.eq {requests : List Step} {answers others : List (Answer τ α × List ε)}
    (h : Answers rules depth e inputs memory requests answers)
    (hother : Answers rules depth e inputs memory requests others) : answers = others := by
  induction h generalizing others with
  | nothing =>
      cases hother
      rfl
  | request hserves _ ih =>
      cases hother with
      | request hagain hlater =>
          obtain ⟨rfl, rfl, rfl⟩ := hserves.eq hagain
          rw [ih hlater]

/-- The searches that were handed out lie in memory, each with cells of its own. -/
structure Represents (rules : Expression.Rules ε τ ρ) (memory : Memory ε τ ρ)
    (runs : Array (Unit → Run ε (Match τ α))) (cells : Nat → List Nat) : Prop where
  length_eq : memory.cursors.length = runs.size
  owned : ∀ k a run, memory.cursors[k]? = some a → runs[k]? = some run →
    Owned rules memory.store a (cells k) (run ())
  apart : ∀ j k, j < runs.size → k < runs.size → j ≠ k → (cells j).Disjoint (cells k)

namespace Represents

variable {runs : Array (Unit → Run ε (Match τ α))} {cells : Nat → List Nat} {k a : Nat}
  {store : Store ε τ ρ} {others : List Nat} {run : Unit → Run ε (Match τ α)}

theorem exists_cursor (h : Represents rules memory runs cells) (hrun : runs[k]? = some run) :
    ∃ a, memory.cursors[k]? = some a ∧ Owned rules memory.store a (cells k) (run ()) := by
  have hk : k < memory.cursors.length := by
    rw [h.length_eq]
    exact (Array.getElem?_eq_some_iff.mp hrun).1
  have hcursor := List.getElem?_eq_getElem hk
  exact ⟨_, hcursor, h.owned k _ run hcursor hrun⟩

theorem owned_of_lt (h : Represents rules memory runs cells) (hk : k < runs.size) :
    ∃ (a : Nat) (run : Run ε (Match τ α)), Owned rules memory.store a (cells k) run := by
  obtain ⟨a, -, howned⟩ := h.exists_cursor (Array.getElem?_eq_getElem hk)
  exact ⟨a, _, howned⟩

theorem apart_update (h : Represents rules memory runs cells) {size : Nat}
    (hsize : ∀ j < size, j ≠ k → j < runs.size)
    (hothers : ∀ j < runs.size, j ≠ k → others.Disjoint (cells j)) (i j : Nat) (hi : i < size)
    (hj : j < size) (hne : i ≠ j) :
    (Function.update cells k others i).Disjoint (Function.update cells k others j) := by
  by_cases hik : i = k
  · subst hik
    rw [Function.update_self, Function.update_of_ne hne.symm]
    exact hothers j (hsize j hj hne.symm) hne.symm
  · by_cases hjk : j = k
    · subst hjk
      rw [Function.update_self, Function.update_of_ne hne]
      exact (hothers i (hsize i hi hne) hne).symm
    · rw [Function.update_of_ne hik, Function.update_of_ne hjk]
      exact h.apart i j (hsize i hi hik) (hsize j hj hjk) hne

theorem aside (h : Represents rules memory runs cells)
    (hmoves : Moves memory.store [] store others) :
    Represents rules ⟨store, memory.cursors⟩ runs cells where
  length_eq := h.length_eq
  owned k a run hcursor hrun := ((h.owned k a run hcursor hrun).beside hmoves (by simp)).1
  apart := h.apart

theorem moved (h : Represents rules memory runs cells) (hcursor : memory.cursors[k]? = some a)
    (hmoves : Moves memory.store (cells k) store others)
    (hnext : Owned rules store a others (run ())) :
    ∃ cells, Represents rules ⟨store, memory.cursors⟩ (runs.setIfInBounds k run) cells := by
  have hk : k < runs.size := h.length_eq ▸ (List.getElem?_eq_some_iff.mp hcursor).1
  have hothers : ∀ j < runs.size, j ≠ k → others.Disjoint (cells j) := by
    intro j hj hne
    obtain ⟨b, other, howned⟩ := h.owned_of_lt hj
    exact (howned.beside hmoves (h.apart k j hk hj hne.symm)).2
  refine ⟨Function.update cells k others, ?_, ?_, ?_⟩
  · rw [h.length_eq, Array.size_setIfInBounds]
  · intro j b other hb hother
    by_cases hj : j = k
    · subst hj
      obtain rfl := Option.some.inj (hcursor.symm.trans hb)
      rw [Array.getElem?_setIfInBounds_self_of_lt hk] at hother
      obtain rfl := Option.some.inj hother
      rwa [Function.update_self]
    · rw [Array.getElem?_setIfInBounds_ne (Ne.symm hj)] at hother
      rw [Function.update_of_ne hj]
      have hlt : j < runs.size := (Array.getElem?_eq_some_iff.mp hother).1
      exact ((h.owned j b other hb hother).beside hmoves (h.apart k j hk hlt (Ne.symm hj))).1
  · rw [Array.size_setIfInBounds]
    exact h.apart_update (fun j hj _ => hj) hothers

end Represents

/-- If two searches shared an iterator, one would go on where the other one stopped. -/
theorem answers_of_shared {j k a : Nat} {cells : List Nat} {run : Run ε (Match τ α)}
    (howned : Owned rules memory.store a cells run) (hj : memory.cursors[j]? = some a)
    (hk : memory.cursors[k]? = some a) :
    Answers rules depth e inputs memory [.next j, .next k]
      [(.next run.pull.answer, run.pull.log),
        (.next (run.pull.rest ()).pull.answer, (run.pull.rest ()).pull.log)] := by
  obtain ⟨store, others, hreply, hnext, -⟩ := howned.reply
  obtain ⟨last, later, hagain, -, -⟩ := hnext.reply
  exact .request (.next hj hreply) (.request (.next hk hagain) .nothing)

def fresh : Memory ε τ ρ :=
  ⟨[], []⟩

end Memory

end ScanParse
