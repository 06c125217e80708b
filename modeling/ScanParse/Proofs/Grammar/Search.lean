import ScanParse.Grammar.Basic
import ScanParse.Proofs.Parse.Depth

namespace ScanParse

variable {ε τ : Type}

namespace Run

variable {α : Type} {stops : ε → Bool}

theorem exists_trace_stopAt {run : Run ε α} {event : ε} (hevent : event ∈ run.log)
    (hstops : stops event = true) :
    ∃ before last after,
      run.trace = before ++ .inl last :: after ∧
      (run.stopAt stops).trace = before ++ [.inl last] ∧
      stops last = true ∧ ∀ earlier, .inl earlier ∈ before → stops earlier = false := by
  induction run with
  | done => simp [log] at hevent
  | note first rest ih =>
      cases hfirst : stops first with
      | true =>
          refine ⟨[], first, (rest ()).trace, rfl, ?_, hfirst, by simp⟩
          simp [stopAt, hfirst, trace]
      | false =>
          have hlater : event ∈ (rest ()).log := by
            obtain rfl | hlater := List.mem_cons.mp hevent
            · simp [hfirst] at hstops
            · exact hlater
          obtain ⟨before, last, after, hrun, hstopped, hlast, hbefore⟩ := ih () hlater
          refine ⟨.inl first :: before, last, after, ?_, ?_, hlast, ?_⟩
          · simp [trace, hrun]
          · simp [stopAt, hfirst, trace, hstopped]
          · simp only [List.mem_cons, Sum.inl.injEq]
            rintro earlier (rfl | hearlier)
            · exact hfirst
            · exact hbefore earlier hearlier
  | result value rest ih =>
      obtain ⟨before, last, after, hrun, hstopped, hlast, hbefore⟩ := ih () hevent
      refine ⟨.inr value :: before, last, after, ?_, ?_, hlast, ?_⟩
      · simp [trace, hrun]
      · simp [stopAt, trace, hstopped]
      · intro earlier hearlier
        exact hbefore earlier (List.mem_of_ne_of_mem Sum.inl_ne_inr hearlier)

end Run

theorem Parser.start_stopAt_of_silent {α : Type} {stops : ε → Bool} {p : Parser ε τ α}
    {input : Input τ} (h : ∀ event ∈ (p.start input).toRun.log, stops event = false) :
    (p.stopAt stops).start input = p.start input := by
  rw [Attempt.toRun, Run.log_notes] at h
  have hlog : (p.start input).log.any stops = false :=
    List.any_eq_false.mpr fun event hevent => by
      simp [h event (List.mem_append_left _ hevent)]
  have hrun : ((p.start input).run ()).stopAt stops = (p.start input).run () :=
    Run.stopAt_eq_self fun event hevent => h event (List.mem_append_right _ hevent)
  simp only [stopAt, Attempt.stopAt, hlog, hrun, Bool.false_eq_true, if_false]

namespace Grammar

open Search

/-- The grammar with its joined and repeated parts made of pairs, lists and functions. -/
def expression : Grammar ε τ → Expression ε τ (fun _ : String => Value τ) (Value τ)
  | pure value => .pure value
  | fail => .fail
  | eof => Expression.eof.map fun _ => .unit
  | satisfy condition => (Expression.satisfy condition).map .item
  | prefixes lengths => (Expression.prefixes lengths).map fun items => .list (items.map .item)
  | map f body => body.expression.map f
  | replace value body => body.expression.replace value
  | andThen first second =>
      (first.expression.andThen second.expression).map fun values => .pair values.1 values.2
  | orElse first second => first.expression.orElse second.expression
  | apply f first second => (first.expression.map f).apply second.expression
  | map2 f first second => .map2 f first.expression second.expression
  | map3 f first second third => .map3 f first.expression second.expression third.expression
  | keepRight first second => first.expression.keepRight second.expression
  | keepLeft first second => first.expression.keepLeft second.expression
  | many body => body.expression.many.map .list
  | many1 body => body.expression.many1.map .list
  | rule name => .rule name
  | probe event body => .delay [event] body.expression
  | tap event body => body.expression.tap event

def Rules.expressions (rules : Rules ε τ) : Expression.Rules ε τ fun _ : String => Value τ :=
  fun name => (rules.find name).expression

theorem parser_expression (family : String → Parser ε τ (Value τ)) (g : Grammar ε τ) :
    g.expression.parser family = g.parserWith family := by
  induction g with
  | pure | fail | eof | satisfy | prefixes | rule => rfl
  | map _ _ ih | tap _ _ ih | probe _ _ ih | many _ ih =>
      simp only [expression, Expression.parser, parserWith, ih]
  | replace _ _ ih => simp only [expression, Expression.parser_replace, parserWith, ih]
  | many1 _ ih =>
      simp only [expression, Expression.parser, Expression.parser_many1, parserWith, ih]
  | andThen _ _ ihfirst ihsecond | orElse _ _ ihfirst ihsecond | apply _ _ _ ihfirst ihsecond =>
      simp only [expression, Expression.parser, parserWith, ihfirst, ihsecond]
  | map2 _ _ _ ihfirst ihsecond =>
      simp only [expression, Expression.parser_map2, parserWith, ihfirst, ihsecond]
  | keepRight _ _ ihfirst ihsecond =>
      simp only [expression, Expression.parser_keepRight, parserWith, ihfirst, ihsecond]
  | keepLeft _ _ ihfirst ihsecond =>
      simp only [expression, Expression.parser_keepLeft, parserWith, ihfirst, ihsecond]
  | map3 _ _ _ _ ihfirst ihsecond ihthird =>
      simp only [expression, Expression.parser_map3, parserWith, ihfirst, ihsecond, ihthird]

variable (rules : Rules ε τ) (g : Grammar ε τ) (input : Input τ)

theorem family_expressions (depth : Nat) : rules.expressions.family depth = rules.family depth := by
  unfold Expression.Rules.family Rules.family
  congr 1
  funext family name
  exact parser_expression family (rules.find name)

theorem parser_start :
    (g.parser rules).start input =
      (g.expression.unfolded rules.expressions (rules.depth input.size)).start input := by
  rw [Expression.unfolded, family_expressions, parser_expression]
  rfl

theorem Rules.expressions_eq_fail {rules : Rules ε τ} {name : String}
    (h : name ∉ rules.map Prod.fst) : rules.expressions name = .fail := by
  have hlookup : rules.lookup name = none := by
    rw [List.lookup_eq_none_iff]
    intro p hp
    rw [bne_iff_ne]
    rintro rfl
    exact h (List.mem_map_of_mem hp)
  rw [Rules.expressions, Rules.find, hlookup]
  rfl

theorem Rules.mul_card_le_depth (rules : Rules ε τ) (size : Nat) :
    (size + 1) * (rules.map Prod.fst).toFinset.card ≤ rules.depth size := by
  have hcard : (rules.map Prod.fst).toFinset.card ≤ rules.length + 1 :=
    calc (rules.map Prod.fst).toFinset.card ≤ (rules.map Prod.fst).length :=
          List.toFinset_card_le _
      _ = rules.length := List.length_map _
      _ ≤ rules.length + 1 := Nat.le_succ _
  exact Nat.le_add_left_of_le (Nat.mul_le_mul_left _ hcard)

theorem parser_built : Parser.Built (fun _ p => p.KeepsSuffix) (g.parser rules) := by
  have hunfolded : ∀ depth, Parser.Built (fun _ p => p.KeepsSuffix)
      (g.expression.unfolded rules.expressions depth) :=
    fun depth => Expression.built_unfolded depth g.expression
  refine .limit hunfolded ?_
  intro input found hfound
  rw [Parser.results, parser_start] at hfound
  exact ⟨rules.depth input.size, hfound⟩

/-- Whatever the rules are, the parser of a grammar begins like the search, which it may leave
after 2⁶⁰ steps and not before. -/
theorem parser_trace {n : Nat} (h : n ≤ twoTo 60) :
    (iterator rules.expressions (Value τ)).trace n (start g.expression input) <+:
      ((g.parser rules).start input).toRun.trace := by
  rw [parser_start]
  exact Expression.trace_unfolded (Nat.le_trans h (Nat.le_add_right _ _))

section Guarded

variable {rules : Rules ε τ} (hguarded : rules.expressions.Guarded)

include hguarded

theorem endsBy_depth : g.expression.EndsBy rules.expressions (rules.depth input.size) input := by
  have hnames : ∀ name ∉ (rules.map Prod.fst).toFinset, rules.expressions name = .fail := by
    intro name hname
    rw [List.mem_toFinset] at hname
    exact Rules.expressions_eq_fail hname
  exact (Expression.endsBy_of_finite hguarded hnames g.expression input).mono
    (rules.mul_card_le_depth input.size)

/-- Where the rules are guarded, the search ends, and the parser of the grammar leaves nothing of
it out. -/
theorem parser_yields :
    (start g.expression input).Yields rules.expressions
      ((g.parser rules).start input).toRun := by
  rw [parser_start]
  exact endsBy_depth g input hguarded _ (Nat.le_refl _)

theorem exists_parser_asked (count : Nat) :
    ∃ left, (iterator rules.expressions (Value τ)).Asked (start g.expression input)
      (((g.parser rules).start input).toRun.replies count) left :=
  (parser_yields g input hguarded).exists_asked final_iterator count

theorem parser_settles :
    Settles (fun depth => (g.expression.unfolded rules.expressions depth).results)
      (g.parser rules).results := by
  intro input
  refine ⟨rules.depth input.size, ?_⟩
  intro depth hdepth
  have hrun : ((g.expression.unfolded rules.expressions depth).start input).toRun =
      ((g.parser rules).start input).toRun :=
    (endsBy_depth g input hguarded depth hdepth).eq (parser_yields g input hguarded)
  simp only [Parser.results, ← Attempt.results_toRun, hrun]

end Guarded

theorem parser_start_broken (event : ε) :
    ((broken event).parser rules).start input = ⟨[event], fun _ => .done⟩ := rfl

theorem toRun_stopAt_broken_orElse {stops : ε → Bool} {event : ε} (h : stops event = true) :
    (((((broken event).orElse g).parser rules).stopAt stops).start input).toRun =
      .note event fun _ => .done := by
  simp [parser, parserWith, broken, Parser.orElse, Parser.stopAt, Parser.delay, Parser.fail,
    Parser.ofMatches, Attempt.ofList, Attempt.append, Attempt.stopAt, Attempt.toRun, Run.notes, h]

end Grammar

end ScanParse
