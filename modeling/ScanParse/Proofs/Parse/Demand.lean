import Mathlib.Order.Bounds.Basic
import ScanParse.Proofs.Parse.Requests

/-!
Choices and sequences ask their parts no more than a request needs. A choice is its first parser
until that has ended; a sequence asks its first parser for a match only when the search behind the
last one has ended. The statements are about the requests made so far, and by
`Expression.replies_unfolded` these are answered in an endless search as in a deep unfolding.
-/

namespace ScanParse

variable {ε τ α β γ : Type}

namespace Run

/-- Asked to its end, a run logs and gives these rounds, one for each result, and logs
`last` before it says that there is no other. -/
inductive Rounds : Run ε α → List (List ε × α) → List ε → Prop
  | ended {run : Run ε α} : run.pull.answer = none → Rounds run [] run.pull.log
  | next {run : Run ε α} {value : α} {rounds : List (List ε × α)} {last : List ε} :
      run.pull.answer = some value → Rounds (run.pull.rest ()) rounds last →
        Rounds run ((run.pull.log, value) :: rounds) last

variable {run : Run ε α} {rounds : List (List ε × α)} {last : List ε}

theorem exists_rounds (run : Run ε α) : ∃ rounds last, run.Rounds rounds last := by
  have hgives := gives_results run
  generalize run.results = values at hgives
  induction hgives with
  | ended hnone => exact ⟨_, _, .ended hnone⟩
  | next hsome _ ih =>
      obtain ⟨rounds, last, hrounds⟩ := ih
      exact ⟨_, _, .next hsome hrounds⟩

theorem Rounds.map_snd (h : run.Rounds rounds last) : rounds.map Prod.snd = run.results := by
  induction h with
  | ended hnone => exact (results_of_pull_none hnone).symm
  | next hsome _ ih => rw [results_of_pull_some hsome, List.map_cons, ih]

/-- What a round logs with the search behind its result. -/
def roundLog (f : α → Run ε β) (round : List ε × α) : List ε :=
  round.1 ++ (f round.2).log

def roundResults (f : α → Run ε β) (rounds : List (List ε × α)) : List β :=
  rounds.flatMap fun round => (f round.2).results

theorem Rounds.log_bind (h : run.Rounds rounds last) (f : α → Run ε β) :
    (run.bind f).log = rounds.flatMap (roundLog f) ++ last := by
  induction h with
  | @ended run hnone =>
      rw [log_of_pull, pull_bind_of_none hnone]
      exact List.append_nil run.pull.log
  | @next run value rounds last hsome _ ih =>
      rw [log_of_pull, pull_bind_of_some hsome, List.append_assoc, ← log_of_pull, log_append, ih]
      simp [roundLog]

theorem Rounds.asked_bind (h : run.Rounds rounds last) (f : α → Run ε β) {count : Nat}
    (hpos : 0 < count) (hle : count ≤ (run.bind f).results.length) :
    ∃ before log value after, rounds = before ++ (log, value) :: after ∧
      (roundResults f before).length < count ∧
      count ≤ (roundResults f before).length + (f value).results.length ∧
      (run.bind f).asked count =
        ⟨before.flatMap (roundLog f) ++ log ++
            ((f value).asked (count - (roundResults f before).length)).log,
          fun _ => (((f value).asked (count - (roundResults f before).length)).run ()).append
            fun _ => ((run.asked (before.length + 1)).run ()).bind f⟩ := by
  induction h generalizing count with
  | @ended run hnone =>
      rw [results_bind, results_of_pull_none hnone] at hle
      exact absurd hle (Nat.not_le_of_lt hpos)
  | @next run value rounds last hsome _ ih =>
      obtain ⟨count, rfl⟩ : ∃ n, count = n + 1 := ⟨count - 1, by omega⟩
      by_cases hhere : count + 1 ≤ (f value).results.length
      · exact ⟨[], run.pull.log, value, rounds, rfl, hpos, by simpa [roundResults],
          asked_bind_of_le hsome hhere⟩
      · obtain ⟨more, hmore⟩ : ∃ more, count + 1 = (f value).results.length + (more + 1) :=
          ⟨count - (f value).results.length, by omega⟩
        have hlater : more + 1 ≤ ((run.pull.rest ()).bind f).results.length := by
          rw [results_bind, results_of_pull_some hsome, List.flatMap_cons, List.length_append,
            ← results_bind] at hle
          omega
        obtain ⟨before, log, found, after, hrounds, hlt, hcount, hbefore⟩ :=
          ih (Nat.succ_pos more) hlater
        have hlength : (roundResults f ((run.pull.log, value) :: before)).length =
            (f value).results.length + (roundResults f before).length := by
          rw [roundResults, List.flatMap_cons, List.length_append]
          rfl
        have hcut : count + 1 - (roundResults f ((run.pull.log, value) :: before)).length =
            more + 1 - (roundResults f before).length := by omega
        refine ⟨(run.pull.log, value) :: before, log, found, after, ?_, ?_, ?_, ?_⟩
        · rw [hrounds, List.cons_append]
        · omega
        · omega
        · rw [hcut, hmore, asked_bind_of_gt hsome, hbefore]
          simp [Attempt.behind, roundLog, asked]

end Run

namespace Parser

/-- The second parser of a choice is not started before the first one has shown its end. -/
theorem orElse_waits (p q : Parser ε τ α) (input : Input τ) :
    (p ||| q) = p.orElse q ∧
      (∀ count ≤ (p.results input).length,
        ((p.orElse q).start input).take count = (p.start input).take count ∧
        ((p.orElse q).start input).asked count =
          ((p.start input).asked count).append fun _ => q.start input) ∧
      (∀ count, ((p.orElse q).start input).take ((p.results input).length + (count + 1)) =
        ⟨p.results input ++ ((q.start input).take (count + 1)).results,
          ((q.start input).take (count + 1)).ended,
          (p.start input).toRun.log ++ ((q.start input).take (count + 1)).log⟩) ∧
      ((p.orElse q).start input).toRun.drain =
        ⟨p.results input ++ q.results input, true,
          (p.start input).toRun.log ++ (q.start input).toRun.log⟩ := by
  refine ⟨rfl, ?_, ?_, ?_⟩
  · intro count hcount
    exact ⟨Attempt.take_append_of_le hcount _, Attempt.asked_append_of_le hcount _⟩
  · exact Attempt.take_append_of_gt _ _
  · rw [Run.drain_eq, toRun_orElse, Run.results_append, Run.log_append, Attempt.results_toRun,
      Attempt.results_toRun]
    rfl

theorem orElse_waits_started :
    1 ≤ ((token 'a' : Parser Unit Char Char).results (.ofList ['a'])).length ∧
      (((token 'a').orElse (delay [()] fun _ => token 'a')).start (.ofList ['a'])).take 1 =
        ((token 'a').start (.ofList ['a'])).take 1 ∧
      (((token 'a').orElse (delay [()] fun _ => token 'a')).start (.ofList ['a'])).take 2 =
        ⟨[⟨'a', .ofList []⟩, ⟨'a', .ofList []⟩], false, [()]⟩ :=
  ⟨by decide, ((orElse_waits _ _ _).2.1 1 (by decide)).1, (orElse_waits _ _ _).2.2.1 0⟩

/-- The search of the second parser behind a match of the first one, with the values joined. -/
def following (join : α → β → γ) (q : Parser ε τ β) (found : Match τ α) : Attempt ε (Match τ γ) :=
  (q.start found.rest).map (Match.map (join found.value))

/-- Both parsers in sequence, with their values joined. -/
def sequence (join : α → β → γ) (p : Parser ε τ α) (q : Parser ε τ β) : Parser ε τ γ :=
  ⟨fun input => (p.start input).bind (following join q)⟩

/-- How many matches of the second parser follow the first `count` matches of the first. -/
def continuations (p : Parser ε τ α) (q : Parser ε τ β) (input : Input τ) (count : Nat) : Nat :=
  (((p.results input).take count).flatMap fun found => q.results found.rest).length

/-- What a request to the first parser logs, and then all that the second one logs behind
the match. -/
def fullRound (q : Parser ε τ β) (round : List ε × Match τ α) : List ε :=
  round.1 ++ (q.start round.2.rest).toRun.log

/-- The search `both` is a sequence that asks its parts on demand. Where the first of them
runs alone it logs and gives `rounds`, and logs `last` at its end. -/
structure OnDemand (join : α → β → γ) (p : Parser ε τ α) (q : Parser ε τ β)
    (both : Parser ε τ γ) (input : Input τ) (rounds : List (List ε × Match τ α))
    (last : List ε) : Prop where
  alone : ((p.start input).run ()).Rounds rounds last
  /-- Behind `count` results the first parser was asked for the least number of matches that
  are followed by as many, and the second one runs on the last of them. -/
  partway : ∀ count, 0 < count → count ≤ (both.results input).length →
    ∃ before log found after, rounds = before ++ (log, found) :: after ∧
      IsLeast {n | count ≤ continuations p q input n} (before.length + 1) ∧
      let first := (p.start input).asked (before.length + 1)
      let second := (q.start found.rest).asked (count - continuations p q input before.length)
      (both.start input).asked count =
        ⟨(p.start input).log ++ before.flatMap (fullRound q) ++ log ++ second.log,
          fun _ => ((second.run ()).map (Match.map (join found.value))).append fun _ =>
            (first.run ()).bind fun later => (following join q later).toRun⟩
  full : (both.start input).toRun.log =
    (p.start input).log ++ rounds.flatMap (fullRound q) ++ last

section OnDemand

variable {p : Parser ε τ α} {q : Parser ε τ β} {input : Input τ} {n : Nat}

theorem continuations_succ {found : Match τ α} (h : (p.results input)[n]? = some found) :
    continuations p q input (n + 1) =
      continuations p q input n + (q.results found.rest).length := by
  rw [continuations, continuations, List.take_add_one, h, List.flatMap_append,
    List.length_append, Option.toList_some, List.flatMap_singleton]

theorem continuations_mono {m : Nat} (h : n ≤ m) :
    continuations p q input n ≤ continuations p q input m := by
  obtain ⟨more, rfl⟩ := Nat.exists_eq_add_of_le h
  rw [continuations, continuations, List.take_add, List.flatMap_append, List.length_append]
  exact Nat.le_add_right _ _

theorem isLeast_continuations {count : Nat} (hlt : continuations p q input n < count)
    (hle : count ≤ continuations p q input (n + 1)) :
    IsLeast {m | count ≤ continuations p q input m} (n + 1) := by
  refine ⟨hle, ?_⟩
  intro m hm
  by_contra hless
  have hmono : continuations p q input m ≤ continuations p q input n :=
    continuations_mono (Nat.le_of_lt_succ (Nat.lt_of_not_le hless))
  exact absurd (Nat.le_trans hm hmono) (Nat.not_le_of_lt hlt)

theorem length_results_following (join : α → β → γ) (q : Parser ε τ β) (found : Match τ α) :
    (following join q found).toRun.results.length = (q.results found.rest).length := by
  rw [Attempt.results_toRun, following, Attempt.results_map, List.length_map]
  rfl

theorem roundLog_following (join : α → β → γ) :
    (Run.roundLog fun found => (following join q found).toRun) = fullRound q := by
  funext round
  rw [Run.roundLog, fullRound, Attempt.log_toRun, Attempt.log_toRun, following, Attempt.map,
    Run.log_map]

theorem length_roundResults_following {rounds before after : List (List ε × Match τ α)}
    {last : List ε} (h : ((p.start input).run ()).Rounds rounds last)
    (hrounds : rounds = before ++ after) (join : α → β → γ) :
    (Run.roundResults (fun found => (following join q found).toRun) before).length =
      continuations p q input before.length := by
  have hbefore : (p.results input).take before.length = before.map Prod.snd := by
    have hresults : p.results input = rounds.map Prod.snd := h.map_snd.symm
    rw [hresults, hrounds, List.map_append, List.take_left' (List.length_map ..)]
  rw [continuations, hbefore, Run.roundResults, List.flatMap_map, List.length_flatMap,
    List.length_flatMap]
  simp only [length_results_following]

end OnDemand

theorem exists_onDemand (join : α → β → γ) (p : Parser ε τ α) (q : Parser ε τ β)
    (input : Input τ) :
    ∃ rounds last, OnDemand join p q (sequence join p q) input rounds last := by
  obtain ⟨rounds, last, hrounds⟩ := Run.exists_rounds ((p.start input).run ())
  refine ⟨rounds, last, hrounds, ?_, ?_⟩
  · intro count hpos hle
    obtain ⟨before, log, found, after, hsplit, hlt, hcount, hasked⟩ :=
      hrounds.asked_bind (fun found => (following join q found).toRun) hpos hle
    have hfound : (p.results input)[before.length]? = some found := by
      have hresults : p.results input = rounds.map Prod.snd := hrounds.map_snd.symm
      rw [hresults, hsplit]
      simp
    rw [length_roundResults_following hrounds hsplit] at hlt hcount hasked
    rw [length_results_following, ← continuations_succ hfound] at hcount
    refine ⟨before, log, found, after, hsplit, isLeast_continuations hlt hcount, ?_⟩
    obtain ⟨rest, hrest⟩ : ∃ rest, count - continuations p q input before.length = rest + 1 :=
      ⟨count - continuations p q input before.length - 1, by omega⟩
    rw [hrest, Attempt.asked_toRun, following, Attempt.asked_map, roundLog_following] at hasked
    rw [hrest]
    change ((((p.start input).run ()).bind _).asked count).behind (p.start input).log = _
    rw [hasked]
    simp [Attempt.behind, Attempt.map, Attempt.asked]
  · rw [Attempt.log_toRun, List.append_assoc, ← roundLog_following join, ← hrounds.log_bind]
    rfl

/-- Pairs and applications ask the second parser's searches to their ends before the first
parser is asked again, and ask no parser for more than is needed. -/
theorem sequences_on_demand (p : Parser ε τ α) (q : Parser ε τ β)
    (functions : Parser ε τ (β → γ)) (input : Input τ) :
    (∃ rounds last, OnDemand Prod.mk p q (p.andThen q) input rounds last) ∧
      ∃ rounds last, OnDemand id functions q (functions.apply q) input rounds last :=
  ⟨exists_onDemand Prod.mk p q input, exists_onDemand id functions q input⟩

theorem sequences_on_demand_second :
    1 ≤ ((((prefixes [0, 1, 2]).tap List.length).andThen
        (delay [9] fun _ => token 'b')).results (.ofList ['a', 'b', 'b'])).length ∧
      ((((prefixes [0, 1, 2]).tap List.length).andThen
        (delay [9] fun _ => token 'b')).start (.ofList ['a', 'b', 'b'])).take 1 =
          ⟨[⟨(['a'], 'b'), .ofList ['b']⟩], false, [0, 9, 1, 9]⟩ ∧
      ∃ rounds last, OnDemand Prod.mk ((prefixes [0, 1, 2]).tap List.length)
        (delay [9] fun _ => token 'b') (((prefixes [0, 1, 2]).tap List.length).andThen
          (delay [9] fun _ => token 'b')) (.ofList ['a', 'b', 'b']) rounds last :=
  ⟨by decide, rfl, (sequences_on_demand _ _ (pure id) _).1⟩

end Parser

end ScanParse
