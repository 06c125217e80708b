import Mathlib.Data.Finset.Card
import ScanParse.Proofs.Parse.Termination

namespace ScanParse.Expression

open Search Relation

variable {ε τ ι α β γ : Type} {ρ : ι → Type} {rules : Rules ε τ ρ} {input : Input τ} {n : Nat}

/-- The search ends, and every unfolding that is at least so deep logs and gives the same. -/
def EndsBy (rules : Rules ε τ ρ) (n : Nat) (e : Expression ε τ ρ α) (input : Input τ) : Prop :=
  ∀ depth, n ≤ depth → (start e input).Yields rules ((e.unfolded rules depth).start input).toRun

theorem EndsBy.mono {m : Nat} {e : Expression ε τ ρ α} (h : e.EndsBy rules n input) (hle : n ≤ m) :
    e.EndsBy rules m input :=
  fun depth hdepth => h depth (Nat.le_trans hle hdepth)

theorem EndsBy.rule {i : ι} (h : (rules i).EndsBy rules n input) :
    (rule i).EndsBy rules (n + 1) input := by
  intro depth hdepth
  obtain ⟨depth, rfl⟩ : ∃ d, depth = d + 1 := ⟨depth - 1, by omega⟩
  exact yields_rule (h depth (Nat.le_of_succ_le_succ hdepth))

theorem endsBy_rule_of_fail {i : ι} (h : rules i = fail) (n : Nat) :
    (rule i).EndsBy rules n input := by
  intro depth _
  have hfail : (start (rules i) input).Yields rules .done := by
    rw [h]
    exact yields_fail
  cases depth with
  | zero => exact yields_rule hfail
  | succ depth =>
      rw [unfolded_rule_succ, h]
      exact yields_rule hfail

theorem yields_sequence {join : α → β → γ} {first : Expression ε τ ρ α}
    {second : Expression ε τ ρ β} {depth : Nat}
    (hfirst : (start first input).Yields rules ((first.unfolded rules depth).start input).toRun)
    (hsecond : ∀ found ∈ (first.unfolded rules depth).results input,
      (start second found.rest).Yields rules
        ((second.unfolded rules depth).start found.rest).toRun) :
    (sequence join (start first input) second).Yields rules
      (((first.unfolded rules depth).start input).toRun.bind fun found =>
        ((second.unfolded rules depth).start found.rest).toRun.map
          (Match.map (join found.value))) := by
  refine Yields.sequence hfirst ?_
  intro found hfound
  rw [Attempt.results_toRun] at hfound
  exact hsecond found hfound

theorem closed_endsBy (rules : Rules ε τ ρ) (n : Nat) :
    Closed rules fun e input => e.EndsBy rules n input where
  leaf h _ _ _ := yields_leaf h
  pure value _ _ _ := yields_pure value
  fail _ _ _ := yields_fail
  eof _ _ _ := yields_eof
  satisfy condition _ _ _ := yields_satisfy condition
  map f _ _ h depth hdepth := by
    rw [unfolded, parser, Parser.toRun_map]
    exact yields_map f (h depth hdepth)
  tap event _ _ h depth hdepth := by
    rw [unfolded, parser, Parser.toRun_tap]
    exact yields_tap event (h depth hdepth)
  delay events _ _ h depth hdepth := by
    rw [unfolded, parser, Parser.toRun_delay]
    exact yields_delay events (h depth hdepth)
  orElse hfirst hsecond depth hdepth := by
    rw [unfolded, parser, Parser.toRun_orElse]
    exact yields_orElse (hfirst depth hdepth) (hsecond depth hdepth)
  andThen hfirst hsecond depth hdepth := by
    rw [unfolded, parser, Parser.toRun_andThen]
    exact yields_start (yields_sequence (hfirst depth hdepth) fun found hfound =>
      hsecond depth found hfound depth hdepth)
  apply hfunction hargument depth hdepth := by
    rw [unfolded, parser, Parser.toRun_apply]
    exact yields_start (yields_sequence (hfunction depth hdepth) fun found hfound =>
      hargument depth found hfound depth hdepth)
  many {α body input} h depth hdepth := by
    have hlevel := yields_level_start (body.unfolded rules depth)
      (fun values rest hrest => h rest hrest.size_le depth hdepth) [] (yields_ofRun .done)
    rw [List.reverse_nil, Repetition.prepend_nil, Run.map_id, Run.append_done] at hlevel
    exact yields_start hlevel

section Finite

variable {names : Finset ι}

open scoped Classical in
/-- The names a rule refers to unguarded, itself included, directly or through others. -/
noncomputable def reached (rules : Rules ε τ ρ) (names : Finset ι) (i : ι) : Finset ι :=
  names.filter fun j => ReflTransGen (fun j i => (rules i).Unguarded rules j) j i

open scoped Classical in
theorem mem_reached {i j : ι} :
    j ∈ reached rules names i ↔
      j ∈ names ∧ ReflTransGen (fun j i => (rules i).Unguarded rules j) j i := by
  unfold reached
  exact Finset.mem_filter

theorem card_reached_le (i : ι) : (reached rules names i).card ≤ names.card :=
  Finset.card_le_card fun _ hj => (mem_reached.mp hj).1

theorem card_reached_pos {i : ι} (hi : i ∈ names) : 0 < (reached rules names i).card :=
  Finset.card_pos.mpr ⟨i, mem_reached.mpr ⟨hi, .refl⟩⟩

theorem card_reached_lt (hguarded : rules.Guarded) {i j : ι} (hi : i ∈ names)
    (h : (rules i).Unguarded rules j) :
    (reached rules names j).card < (reached rules names i).card := by
  refine Finset.card_lt_card (Finset.ssubset_iff_of_subset ?_ |>.mpr ⟨i, ?_, ?_⟩)
  · intro k hk
    obtain ⟨hmem, hk⟩ := mem_reached.mp hk
    exact mem_reached.mpr ⟨hmem, hk.tail h⟩
  · exact mem_reached.mpr ⟨hi, .refl⟩
  · intro hi
    have hcycle : TransGen (fun j i => (rules i).Unguarded rules j) i i :=
      TransGen.tail' (mem_reached.mp hi).2 h
    exact hguarded.transGen.asymmetric _ _ hcycle hcycle

theorem endsBy_rule (hguarded : rules.Guarded) (hnames : ∀ i ∉ names, rules i = fail) {size : Nat}
    (hshorter : ∀ {α : Type} (e : Expression ε τ ρ α) (input : Input τ),
      input.size < size → e.EndsBy rules n input)
    (i : ι) {input : Input τ} (hsize : input.size ≤ size) :
    (rule i).EndsBy rules (n + (reached rules names i).card) input := by
  induction i using hguarded.induction generalizing input with
  | _ i ih =>
      by_cases hi : i ∈ names
      · have hpos : 0 < (reached rules names i).card := card_reached_pos hi
        obtain ⟨r, hr⟩ := Nat.exists_eq_succ_of_ne_zero hpos.ne'
        rw [hr]
        refine EndsBy.rule ((closed_endsBy rules (n + r)).of_unguarded ?_ ?_ hsize)
        · intro α e input hlt
          exact (hshorter e input hlt).mono (Nat.le_add_right n r)
        · intro j hj input hle
          have hlt := card_reached_lt hguarded hi hj
          exact (ih j hj hle).mono (by omega)
      · exact endsBy_rule_of_fail (hnames i hi) _

/-- With finitely many guarded rules, it suffices to unfold each of them once for every item, and
once more. -/
theorem endsBy_of_finite (hguarded : rules.Guarded) (hnames : ∀ i ∉ names, rules i = fail)
    (e : Expression ε τ ρ α) (input : Input τ) :
    e.EndsBy rules ((input.size + 1) * names.card) input := by
  induction hsize : input.size using Nat.strongRecOn generalizing α input with
  | _ size ih =>
      subst hsize
      have hshorter : ∀ {α : Type} (e : Expression ε τ ρ α) (shorter : Input τ),
          shorter.size < input.size → e.EndsBy rules (input.size * names.card) shorter :=
        fun e shorter hlt => (ih _ hlt e shorter rfl).mono (Nat.mul_le_mul_right _ hlt)
      rw [Nat.succ_mul]
      refine (closed_endsBy rules _).of_unguarded ?_ ?_ (Nat.le_refl _)
      · intro α e shorter hlt
        exact (hshorter e shorter hlt).mono (Nat.le_add_right _ _)
      · intro i _ other hle
        exact (endsBy_rule hguarded hnames hshorter i hle).mono
          (Nat.add_le_add_left (card_reached_le i) _)

end Finite

end ScanParse.Expression
