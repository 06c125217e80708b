import ScanParse.Proofs.Parse.Built

/-!
What the next item decides. A search may go on in many ways, but often the item behind
a match rules all of them out but one: a parser is decided by a class of items if at
most one of its matches is not followed by an item of the class. Sequences, choices and
repetitions of decided parsers are decided, as long as what may follow is told apart by
its first item.
-/

namespace ScanParse

variable {ε τ α β γ : Type}

/-- The first item is one of the class. -/
def Input.beginsWith (c : τ → Bool) (input : Input τ) : Bool :=
  input.toList.head?.any c

/-- The match is not followed by an item of the class. -/
def Match.closedTo (c : τ → Bool) (found : Match τ α) : Bool :=
  !found.rest.beginsWith c

theorem flatMap_filter_of_nil {keep : α → Bool} {next : α → List β} {as : List α}
    (h : ∀ a ∈ as, keep a = false → next a = []) :
    (as.filter keep).flatMap next = as.flatMap next := by
  induction as with
  | nil => rfl
  | cons a as ih =>
      have htail := ih fun b hb => h b (List.mem_cons_of_mem a hb)
      cases hkeep : keep a with
      | false =>
          rw [List.filter_cons_of_neg (by simp [hkeep]), htail, List.flatMap_cons,
            h a List.mem_cons_self hkeep, List.nil_append]
      | true =>
          rw [List.filter_cons_of_pos hkeep, List.flatMap_cons, List.flatMap_cons, htail]

theorem Input.beginsWith_mono {c d : τ → Bool} (hcd : ∀ item, c item = true → d item = true)
    {input : Input τ} (h : input.beginsWith c = true) : input.beginsWith d = true := by
  rw [beginsWith, Option.any_eq_true] at h ⊢
  obtain ⟨item, hitem, hc⟩ := h
  exact ⟨item, hitem, hcd item hc⟩

theorem Input.beginsWith_of_disjoint {c d : τ → Bool}
    (hcd : ∀ item, c item = true → d item = false) {input : Input τ}
    (h : input.beginsWith c = true) : input.beginsWith d = false := by
  rw [beginsWith, Option.any_eq_true] at h
  obtain ⟨item, hitem, hc⟩ := h
  rw [beginsWith, hitem]
  exact hcd item hc

theorem Match.filter_closedTo_map (c : τ → Bool) (f : α → β) (found : List (Match τ α)) :
    (found.map (Match.map f)).filter (Match.closedTo c) =
      (found.filter (Match.closedTo c)).map (Match.map f) := by
  rw [List.filter_map]
  rfl

theorem length_flatMap_le_one {as : List α} {next : α → List β} (has : as.length ≤ 1)
    (hnext : ∀ a, (next a).length ≤ 1) : (as.flatMap next).length ≤ 1 := by
  rcases as with _ | ⟨a, _ | ⟨b, as⟩⟩
  · exact Nat.zero_le 1
  · simpa using hnext a
  · simp at has

namespace Parser

/-- Nothing is found in front of an item outside of the class. -/
def Needs (c : τ → Bool) (p : Parser ε τ α) : Prop :=
  ∀ input : Input τ, input.beginsWith c = false → p.results input = []

/-- At most one match is not followed by an item of the class. -/
def Decided (c : τ → Bool) (p : Parser ε τ α) : Prop :=
  ∀ input : Input τ, ((p.results input).filter (Match.closedTo c)).length ≤ 1

section Needs

variable {c d : τ → Bool}

theorem needs_satisfy (c : τ → Bool) : Needs c (satisfy c : Parser ε τ τ) := by
  intro input h
  rw [results_satisfy, firstItem]
  rw [Input.beginsWith] at h
  split
  · rfl
  · rename_i item rest hitems
    rw [hitems] at h
    exact if_neg (by simpa using h)

theorem needs_fail : Needs c (fail : Parser ε τ α) := fun input _ => results_fail input

theorem Needs.map (f : α → β) {p : Parser ε τ α} (hp : p.Needs c) : (p.map f).Needs c := by
  intro input h
  rw [results_map, hp input h, List.map_nil]

theorem Needs.andThen {p : Parser ε τ α} (hp : p.Needs c) (q : Parser ε τ β) :
    (p.andThen q).Needs c := by
  intro input h
  rw [results_andThen, hp input h, List.flatMap_nil]

theorem Needs.keepRight {p : Parser ε τ α} (hp : p.Needs c) (q : Parser ε τ β) :
    (p.keepRight q).Needs c := by
  intro input h
  rw [results_keepRight, hp input h, List.flatMap_nil]

theorem Needs.keepLeft {p : Parser ε τ α} (hp : p.Needs c) (q : Parser ε τ β) :
    (p.keepLeft q).Needs c := by
  intro input h
  rw [results_keepLeft, hp input h, List.flatMap_nil]

theorem Needs.mono {p : Parser ε τ α} (hp : p.Needs c)
    (hcd : ∀ item, c item = true → d item = true) : p.Needs d := by
  intro input h
  refine hp input (Bool.eq_false_iff.mpr fun hc => ?_)
  simp [Input.beginsWith_mono hcd hc] at h

theorem Needs.orElse {p q : Parser ε τ α} (hp : p.Needs c) (hq : q.Needs c) :
    (p.orElse q).Needs c := by
  intro input h
  rw [results_orElse, hp input h, hq input h, List.append_nil]

end Needs

section Decided

variable {c d : τ → Bool}

theorem Decided.of_length {p : Parser ε τ α} (h : ∀ input, (p.results input).length ≤ 1) :
    p.Decided c :=
  fun input => Nat.le_trans (List.length_filter_le _ _) (h input)

theorem length_results_satisfy_le (condition : τ → Bool) (input : Input τ) :
    ((satisfy condition : Parser ε τ τ).results input).length ≤ 1 := by
  rw [results_satisfy, firstItem]
  split
  · exact Nat.zero_le 1
  · split
    · exact Nat.le_refl 1
    · exact Nat.zero_le 1

theorem Decided.map (f : α → β) {p : Parser ε τ α} (hp : p.Decided c) : (p.map f).Decided c := by
  intro input
  rw [results_map, Match.filter_closedTo_map, List.length_map]
  exact hp input

theorem Decided.sequence (join : α → β → γ) {p : Parser ε τ α} {q : Parser ε τ β}
    (hp : p.Decided c) (hq : q.Decided d)
    (hnone : ∀ rest : Input τ, rest.beginsWith c = true →
      (q.results rest).filter (Match.closedTo d) = []) (input : Input τ) :
    (((p.results input).flatMap fun a =>
      (q.results a.rest).map (Match.map (join a.value))).filter (Match.closedTo d)).length ≤ 1 := by
  have hskip : ∀ a ∈ p.results input, a.closedTo c = false →
      ((q.results a.rest).map (Match.map (join a.value))).filter (Match.closedTo d) = [] := by
    intro a _ ha
    rw [Match.filter_closedTo_map, hnone a.rest (by simpa [Match.closedTo] using ha), List.map_nil]
  rw [List.filter_flatMap, ← flatMap_filter_of_nil hskip]
  refine length_flatMap_le_one (hp input) fun a => ?_
  rw [Match.filter_closedTo_map, List.length_map]
  exact hq a.rest

theorem Decided.andThen {p : Parser ε τ α} {q : Parser ε τ β} (hp : p.Decided c)
    (hq : q.Decided d)
    (hnone : ∀ rest : Input τ, rest.beginsWith c = true →
      (q.results rest).filter (Match.closedTo d) = []) : (p.andThen q).Decided d := by
  intro input
  rw [results_andThen]
  exact hp.sequence Prod.mk hq hnone input

theorem Decided.keepRight {p : Parser ε τ α} {q : Parser ε τ β} (hp : p.Decided c)
    (hq : q.Decided d)
    (hnone : ∀ rest : Input τ, rest.beginsWith c = true →
      (q.results rest).filter (Match.closedTo d) = []) : (p.keepRight q).Decided d := by
  intro input
  rw [results_keepRight]
  exact hp.sequence (fun _ value => value) hq hnone input

theorem Decided.keepLeft {p : Parser ε τ α} {q : Parser ε τ β} (hp : p.Decided c)
    (hq : q.Decided d)
    (hnone : ∀ rest : Input τ, rest.beginsWith c = true →
      (q.results rest).filter (Match.closedTo d) = []) : (p.keepLeft q).Decided d := by
  intro input
  rw [results_keepLeft]
  exact hp.sequence (fun value _ => value) hq hnone input

/-- A parser that needs other items finds nothing where the one before it may go on. -/
theorem Needs.nothing {q : Parser ε τ β} (hq : q.Needs c)
    (hcd : ∀ item, d item = true → c item = false) (e : τ → Bool) (rest : Input τ)
    (hrest : rest.beginsWith d = true) : (q.results rest).filter (Match.closedTo e) = [] := by
  rw [hq rest (Input.beginsWith_of_disjoint hcd hrest), List.filter_nil]

theorem Decided.orElse {p q : Parser ε τ α} {b : τ → Bool} (hp : p.Decided d) (hq : q.Decided d)
    (hpneeds : p.Needs b) (hqneeds : q.Needs c) (hbc : ∀ item, b item = true → c item = false) :
    (p.orElse q).Decided d := by
  intro input
  rw [results_orElse]
  cases h : input.beginsWith b with
  | false =>
      rw [hpneeds input h, List.nil_append]
      exact hq input
  | true =>
      rw [hqneeds input (Input.beginsWith_of_disjoint hbc h), List.append_nil]
      exact hp input

theorem results_many_of_nil {p : Parser ε τ α} {input : Input τ} (h : p.results input = []) :
    p.many.results input = [⟨[], input⟩] := by
  rw [results_many, h]
  rfl

theorem Needs.nothing_many {p : Parser ε τ α} (hp : p.Needs c)
    (hcd : ∀ item, d item = true → c item = false) {e : τ → Bool}
    (hde : ∀ item, d item = true → e item = true) (rest : Input τ)
    (hrest : rest.beginsWith d = true) :
    (p.many.results rest).filter (Match.closedTo e) = [] := by
  rw [results_many_of_nil (hp rest (Input.beginsWith_of_disjoint hcd hrest))]
  simp [Match.closedTo, Input.beginsWith_mono hde hrest]

theorem Decided.many {p : Parser ε τ α} (hp : p.Decided d) (hneeds : p.Needs c)
    (hcd : ∀ item, d item = true → c item = false) :
    p.many.Decided fun item => c item || d item := by
  intro input
  induction hsize : input.size using Nat.strongRecOn generalizing input with
  | _ size ih =>
      subst hsize
      cases h : input.beginsWith c with
      | false =>
          rw [results_many_of_nil (hneeds input h)]
          exact List.length_filter_le _ _
      | true =>
          have hopen : input.beginsWith (fun item => c item || d item) = true :=
            Input.beginsWith_mono (by simp +contextual) h
          have hlast : [(⟨[], input⟩ : Match τ (List α))].filter
              (Match.closedTo fun item => c item || d item) = [] := by
            simp [Match.closedTo, hopen]
          have hskip : ∀ a ∈ p.results input, a.closedTo d = false →
              (if a.rest.size < input.size then
                (p.many.results a.rest).map (Match.map (a.value :: ·))
              else []).filter (Match.closedTo fun item => c item || d item) = [] := by
            intro a _ ha
            have hrest : a.rest.beginsWith d = true := by simpa [Match.closedTo] using ha
            split
            · rw [Match.filter_closedTo_map,
                hneeds.nothing_many hcd (by simp +contextual) a.rest hrest, List.map_nil]
            · rfl
          rw [results_many, List.filter_append, hlast, List.append_nil, List.filter_flatMap,
            ← flatMap_filter_of_nil hskip]
          refine length_flatMap_le_one (hp input) fun a => ?_
          split
          · rename_i hshort
            rw [Match.filter_closedTo_map, List.length_map]
            exact ih _ hshort a.rest rfl
          · exact Nat.zero_le 1

end Decided

end Parser

end ScanParse
