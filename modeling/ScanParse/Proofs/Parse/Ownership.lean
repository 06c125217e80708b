import ScanParse.Proofs.Parse.Asking
import ScanParse.Proofs.Parse.Store

namespace ScanParse

universe u v

namespace IteratorStep

variable {ε α β : Type} {σ : Type u} {υ : Type v}

/-- Two steps beside each other: they log, give and end alike, and what they leave is related. -/
def Alike (R : σ → υ → Prop) : IteratorStep ε α σ → IteratorStep ε α υ → Prop
  | ended left, ended other => R left other
  | logged event next, logged event' other => event = event' ∧ R next other
  | silent next, silent other => R next other
  | found value next, found value' other => value = value' ∧ R next other
  | _, _ => False

theorem Alike.within {σ' : Type u} {υ' : Type v} {R : σ → υ → Prop} {R' : σ' → υ' → Prop}
    {step : IteratorStep ε α σ} {other : IteratorStep ε α υ} (h : step.Alike R other)
    {context : σ → σ'} {context' : υ → υ'} {atEnd : σ → IteratorStep ε β σ'}
    {atEnd' : υ → IteratorStep ε β υ'} {atValue : α → σ → IteratorStep ε β σ'}
    {atValue' : α → υ → IteratorStep ε β υ'}
    (hcontext : ∀ {next next'}, R next next' → R' (context next) (context' next'))
    (hend : ∀ {left left'}, R left left' → (atEnd left).Alike R' (atEnd' left'))
    (hvalue : ∀ {value next next'}, R next next' →
      (atValue value next).Alike R' (atValue' value next')) :
    (step.within context atEnd atValue).Alike R' (other.within context' atEnd' atValue') := by
  cases step <;> cases other <;> simp only [Alike] at h
  · exact hend h
  · obtain ⟨rfl, h⟩ := h
    exact ⟨rfl, hcontext h⟩
  · exact hcontext h
  · obtain ⟨rfl, h⟩ := h
    exact hvalue h

section

variable {R : σ → υ → Prop} {step : IteratorStep ε α σ} {next' : υ}

theorem Alike.exists_ended (h : step.Alike R (.ended next')) :
    ∃ left, step = .ended left ∧ R left next' := by
  cases step with
  | ended left => exact ⟨left, rfl, h⟩
  | logged | silent | found => exact h.elim

theorem Alike.exists_logged {event : ε} (h : step.Alike R (.logged event next')) :
    ∃ next, step = .logged event next ∧ R next next' := by
  cases step with
  | logged event next => exact ⟨next, by rw [h.1], h.2⟩
  | ended | silent | found => exact h.elim

theorem Alike.exists_silent (h : step.Alike R (.silent next')) :
    ∃ next, step = .silent next ∧ R next next' := by
  cases step with
  | silent next => exact ⟨next, rfl, h⟩
  | ended | logged | found => exact h.elim

theorem Alike.exists_found {value : α} (h : step.Alike R (.found value next')) :
    ∃ next, step = .found value next ∧ R next next' := by
  cases step with
  | found value next => exact ⟨next, by rw [h.1], h.2⟩
  | ended | logged | silent => exact h.elim

end

end IteratorStep

variable {ε τ ι α β κ : Type} {ρ : ι → Type}

/-- A level of a repetition: where it began, how far it got, where that lies, and which cells belong
to it. -/
structure Level (search : Input τ → Started ε (Match τ α)) where
  input : Input τ
  state : (search input).iterator.State
  address : Nat
  cells : List Nat

/-- The iterator lies in the store, in this state, at the address. The cells are those that belong
to it: it has them for itself, and so has each of the iterators within it. -/
inductive Holds (rules : Expression.Rules ε τ ρ) (store : Store ε τ ρ) :
    {κ : Type} → (it : Iterator.{0} ε κ) → it.State → Nat → List Nat → Prop
  | run {κ : Type} {a : Nat} (left : Run ε κ) :
      store[a]? = some ⟨κ, .run left⟩ → Holds rules store (.ofRun ε κ) left a [a]
  | map {β κ : Type} {a inner : Nat} {cells : List Nat} (f : β → κ) {it : Iterator ε β}
      {state : it.State} :
      store[a]? = some ⟨κ, .map f inner⟩ → Holds rules store it state inner cells → a ∉ cells →
        Holds rules store (it.map f) state a (a :: cells)
  | tap {κ : Type} {a inner : Nat} {cells : List Nat} (event : κ → ε) (held : Option κ)
      {it : Iterator ε κ} {state : it.State} :
      store[a]? = some ⟨κ, .tap event held inner⟩ → Holds rules store it state inner cells →
        a ∉ cells → Holds rules store (it.tap event) (held, state) a (a :: cells)
  | spent {β α : Type} {a : Nat} (depth : Nat) (call : β → Expression ε τ ρ α × Input τ)
      (it : Iterator ε β) :
      store[a]? = some ⟨Match τ α, .flatMap depth call none none⟩ →
        Holds rules store
          (it.flatMap fun value => (call value).1.started (rules.started depth) (call value).2)
          (none, none) a [a]
  | between {β α : Type} {a outer : Nat} {cells : List Nat} (depth : Nat)
      (call : β → Expression ε τ ρ α × Input τ) {it : Iterator ε β} {state : it.State} :
      store[a]? = some ⟨Match τ α, .flatMap depth call (some outer) none⟩ →
        Holds rules store it state outer cells → a ∉ cells →
          Holds rules store
            (it.flatMap fun value => (call value).1.started (rules.started depth) (call value).2)
            (some state, none) a (a :: cells)
  | inside {β α : Type} {a outer inner : Nat} {cells others : List Nat} (depth : Nat)
      (call : β → Expression ε τ ρ α × Input τ) {it : Iterator ε β} {state : it.State} (value : β)
      (queued : List ε)
      {front : ((call value).1.started (rules.started depth) (call value).2).iterator.State} :
      store[a]? = some ⟨Match τ α, .flatMap depth call (some outer) (some (value, queued, inner))⟩ →
        Holds rules store it state outer cells →
          Holds rules store ((call value).1.started (rules.started depth) (call value).2).iterator
            front inner others → a ∉ cells → a ∉ others → cells.Disjoint others →
              Holds rules store
                (it.flatMap fun value =>
                  (call value).1.started (rules.started depth) (call value).2)
                (some state, some ⟨value, queued, front⟩) a (a :: (cells ++ others))
  | first {κ : Type} {a first second : Nat} {cells others : List Nat} {it later : Iterator ε κ}
      {state : it.State} {other : later.State} :
      store[a]? = some ⟨κ, .chain (some first) second⟩ → Holds rules store it state first cells →
        Holds rules store later other second others → a ∉ cells → a ∉ others →
          cells.Disjoint others →
            Holds rules store (it.chain later) (some state, other) a (a :: (cells ++ others))
  | second {κ : Type} {a second : Nat} {others : List Nat} (it : Iterator ε κ)
      {later : Iterator ε κ} {other : later.State} :
      store[a]? = some ⟨κ, .chain none second⟩ → Holds rules store later other second others →
        a ∉ others → Holds rules store (it.chain later) (none, other) a (a :: others)
  | repetitions {α : Type} {a : Nat} (depth : Nat) (body : Expression ε τ ρ α) (queued : List ε)
      (levels : List (Level (body.started (rules.started depth)))) (matched : List α) :
      store[a]? = some ⟨Match τ (List α), .repetitions depth body queued
        (levels.map fun level => (level.input, level.address)) matched⟩ →
        (∀ level ∈ levels, Holds rules store
          (body.started (rules.started depth) level.input).iterator level.state level.address
            level.cells) →
          (∀ level ∈ levels, a ∉ level.cells) →
            levels.Pairwise (fun level other => level.cells.Disjoint other.cells) →
              Holds rules store (.repetitions (body.started (rules.started depth)))
                ⟨queued, levels.map fun level => ⟨level.input, level.state⟩, matched⟩ a
                (a :: levels.flatMap Level.cells)

namespace Holds

variable {rules : Expression.Rules ε τ ρ} {store next : Store ε τ ρ} {it : Iterator.{0} ε κ}
  {state : it.State} {a : Nat} {cells : List Nat}

theorem lt_length (h : Holds rules store it state a cells) : ∀ x ∈ cells, x < store.length := by
  have hcell : ∀ {x : Nat} {cell}, store[x]? = some cell → x < store.length :=
    fun hread => (List.getElem?_eq_some_iff.mp hread).1
  induction h with
  | run left hread => simpa using hcell hread
  | spent depth call it hread => simpa using hcell hread
  | map f hread _ _ ih => exact List.forall_mem_cons.mpr ⟨hcell hread, ih⟩
  | tap event held hread _ _ ih => exact List.forall_mem_cons.mpr ⟨hcell hread, ih⟩
  | between depth call hread _ _ ih => exact List.forall_mem_cons.mpr ⟨hcell hread, ih⟩
  | inside depth call value queued hread _ _ _ _ _ ihouter ihinner =>
      exact List.forall_mem_cons.mpr ⟨hcell hread, List.forall_mem_append.mpr ⟨ihouter, ihinner⟩⟩
  | first hread _ _ _ _ _ ihfirst ihsecond =>
      exact List.forall_mem_cons.mpr ⟨hcell hread, List.forall_mem_append.mpr ⟨ihfirst, ihsecond⟩⟩
  | second it hread _ _ ih => exact List.forall_mem_cons.mpr ⟨hcell hread, ih⟩
  | repetitions depth body queued levels matched hread _ _ _ ih =>
      refine List.forall_mem_cons.mpr ⟨hcell hread, ?_⟩
      intro x hx
      obtain ⟨level, hlevel, hmem⟩ := List.mem_flatMap.mp hx
      exact ih level hlevel x hmem

theorem frame (h : Holds rules store it state a cells)
    (hkept : ∀ x ∈ cells, next[x]? = store[x]?) : Holds rules next it state a cells := by
  induction h with
  | run left hread => exact .run left ((hkept _ List.mem_cons_self).trans hread)
  | spent depth call it hread =>
      exact .spent depth call it ((hkept _ List.mem_cons_self).trans hread)
  | map f hread _ ha ih =>
      rw [List.forall_mem_cons] at hkept
      exact .map f (hkept.1.trans hread) (ih hkept.2) ha
  | tap event held hread _ ha ih =>
      rw [List.forall_mem_cons] at hkept
      exact .tap event held (hkept.1.trans hread) (ih hkept.2) ha
  | between depth call hread _ ha ih =>
      rw [List.forall_mem_cons] at hkept
      exact .between depth call (hkept.1.trans hread) (ih hkept.2) ha
  | inside depth call value queued hread _ _ ha hb hdisjoint ihouter ihinner =>
      rw [List.forall_mem_cons, List.forall_mem_append] at hkept
      exact .inside depth call value queued (hkept.1.trans hread) (ihouter hkept.2.1)
        (ihinner hkept.2.2) ha hb hdisjoint
  | first hread _ _ ha hb hdisjoint ihfirst ihsecond =>
      rw [List.forall_mem_cons, List.forall_mem_append] at hkept
      exact .first (hkept.1.trans hread) (ihfirst hkept.2.1) (ihsecond hkept.2.2) ha hb hdisjoint
  | second it hread _ ha ih =>
      rw [List.forall_mem_cons] at hkept
      exact .second it (hkept.1.trans hread) (ih hkept.2) ha
  | repetitions depth body queued levels matched hread _ ha hdisjoint ih =>
      rw [List.forall_mem_cons] at hkept
      refine .repetitions depth body queued levels matched (hkept.1.trans hread) ?_ ha hdisjoint
      intro level hlevel
      exact ih level hlevel fun x hx => hkept.2 x (List.mem_flatMap.mpr ⟨level, hlevel, hx⟩)

theorem of_isPrefix (h : Holds rules store it state a cells) (hkept : store <+: next) :
    Holds rules next it state a cells := by
  obtain ⟨more, rfl⟩ := hkept
  exact h.frame fun x hx => List.getElem?_append_left (h.lt_length x hx)

theorem length_not_mem (h : Holds rules store it state a cells) : store.length ∉ cells :=
  fun hmem => Nat.lt_irrefl _ (h.lt_length _ hmem)

end Holds

/-- A search was started in the store as it is started elsewhere. All of its cells are new, and the
others are as they were. -/
structure Begins (rules : Expression.Rules ε τ ρ) (store : Store ε τ ρ) (made : Store.Made ε τ ρ)
    (started : Started ε κ) : Prop where
  log : made.log = started.log
  kept : store <+: made.store
  holds : ∃ cells, Holds rules made.store started.iterator started.state made.address cells ∧
    ∀ x ∈ cells, store.length ≤ x

namespace Begins

variable {rules : Expression.Rules ε τ ρ} {store : Store ε τ ρ} {made : Store.Made ε τ ρ}

theorem make_run (log : List ε) (run : Run ε κ) :
    Begins rules store (store.make log (.run run)) ⟨log, .ofRun ε κ, run⟩ where
  log := rfl
  kept := List.prefix_append store _
  holds := ⟨[store.length], .run run List.getElem?_concat_length, by simp⟩

theorem around {started : Started ε β} (h : Begins rules store made started)
    {cell : Nat → Cell ε τ ρ κ} {it : Iterator ε κ} {state : it.State}
    (hholds : ∀ {next : Store ε τ ρ} {a : Nat} {cells : List Nat},
      next[a]? = some ⟨κ, cell made.address⟩ →
        Holds rules next started.iterator started.state made.address cells → a ∉ cells →
          Holds rules next it state a (a :: cells)) :
    Begins rules store (made.around cell) ⟨started.log, it, state⟩ where
  log := h.log
  kept := h.kept.trans (List.prefix_append made.store _)
  holds := by
    obtain ⟨cells, hcells, hnew⟩ := h.holds
    refine ⟨made.store.length :: cells, ?_, ?_⟩
    · exact hholds List.getElem?_concat_length (hcells.of_isPrefix (List.prefix_append _ _))
        hcells.length_not_mem
    · exact List.forall_mem_cons.mpr ⟨h.kept.length_le, hnew⟩

theorem orElse {started : Started ε (Match τ α)} (h : Begins rules store made started)
    (depth : Nat) (second : Expression ε τ ρ α) (input : Input τ) :
    Begins rules store
      ((((made.store.make made.log (.run (.ofList [()]))).around fun once =>
        .flatMap depth (fun _ : Unit => (second, input)) (some once) none).around fun other =>
          (.chain (some made.address) other : Cell ε τ ρ (Match τ α))))
      (started.append fun _ => second.started (rules.started depth) input) := by
  obtain ⟨cells, hcells, hnew⟩ := h.holds
  have hlater : Begins rules made.store
      ((made.store.make made.log (.run (.ofList [()]))).around fun once =>
        .flatMap depth (fun _ : Unit => (second, input)) (some once) none)
      ⟨made.log,
        (Iterator.ofRun ε Unit).flatMap fun _ => second.started (rules.started depth) input,
        (some (.ofList [()]), none)⟩ :=
    (make_run made.log (.ofList [()])).around (.between depth fun _ => (second, input))
  obtain ⟨others, hothers, hbehind⟩ := hlater.holds
  have hapart : cells.Disjoint others := fun x hx hother =>
    Nat.lt_irrefl x (Nat.lt_of_lt_of_le (hcells.lt_length x hx) (hbehind x hother))
  have hfirst := hcells.of_isPrefix hlater.kept
  refine ⟨h.log, (h.kept.trans hlater.kept).trans (List.prefix_append _ _), ?_⟩
  refine ⟨_ :: (cells ++ others), .first List.getElem?_concat_length
    (hfirst.of_isPrefix (List.prefix_append _ _)) (hothers.of_isPrefix (List.prefix_append _ _))
    hfirst.length_not_mem hothers.length_not_mem hapart, ?_⟩
  have hle : store.length ≤ made.store.length := h.kept.length_le
  refine List.forall_mem_cons.mpr ⟨?_, List.forall_mem_append.mpr ⟨hnew, ?_⟩⟩
  · exact (h.kept.trans hlater.kept).length_le
  · exact fun x hx => Nat.le_trans hle (hbehind x hx)

theorem many {depth : Nat} {body : Expression ε τ ρ α} {input : Input τ}
    (h : Begins rules store made (body.started (rules.started depth) input)) :
    Begins rules store
      (made.around fun inner => .repetitions depth body [] [(input, inner)] [])
      (.many (body.started (rules.started depth)) input) := by
  refine h.around ?_
  intro next a cells hread hcells ha
  have hlevel := Holds.repetitions depth body [] [⟨input, _, made.address, cells⟩] [] hread
    (by simpa using hcells) (by simpa using ha) (List.pairwise_singleton _ _)
  simpa using hlevel

end Begins

namespace Expression

variable {rules : Rules ε τ ρ}

theorem begins_make {depth : Nat}
    (hfamily : ∀ (i : ι) (input : Input τ) (store : Store ε τ ρ),
      Begins rules store (rules.make depth i input store) (rules.started depth i input))
    (e : Expression ε τ ρ α) (input : Input τ) (store : Store ε τ ρ) :
    Begins rules store (e.make depth (rules.make depth) input store)
      (e.started (rules.started depth) input) := by
  induction e generalizing input store with
  | pure value => exact .make_run [] _
  | fail => exact .make_run [] _
  | eof => exact .make_run [] _
  | satisfy condition => exact .make_run [] _
  | leaf p h => exact .make_run _ _
  | map f body ih => exact (ih input store).around (.map (Match.map f))
  | tap event body ih => exact (ih input store).around (.tap _ none)
  | andThen first second ihfirst _ =>
      exact (ihfirst input store).around (.between depth (behind Prod.mk second))
  | apply function argument ihfunction _ =>
      exact (ihfunction input store).around (.between depth (behind (fun f => f) argument))
  | orElse first second ihfirst _ => exact (ihfirst input store).orElse depth second input
  | many body ih => exact (ih input store).many
  | delay events body ih =>
      obtain ⟨hlog, hkept, hholds⟩ := ih input store
      exact ⟨congrArg (events ++ ·) hlog, hkept, hholds⟩
  | rule i => exact hfamily i input store

theorem begins (rules : Rules ε τ ρ) (depth : Nat) (e : Expression ε τ ρ α) (input : Input τ)
    (store : Store ε τ ρ) :
    Begins rules store (e.make depth (rules.make depth) input store)
      (e.started (rules.started depth) input) := by
  induction depth generalizing α input store with
  | zero => exact begins_make (fun _ _ _ => .make_run [] .done) e input store
  | succ depth ih => exact begins_make (fun i input store => ih (rules i) input store) e input store

end Expression

namespace Store

variable {store : Store ε τ ρ} {a : Nat}

theorem getElem?_write_self (h : a < store.length) (cell : Cell ε τ ρ κ) :
    (store.write a cell)[a]? = some ⟨κ, cell⟩ :=
  List.getElem?_set_self h

theorem getElem?_write_of_ne {x : Nat} (h : x ≠ a) (cell : Cell ε τ ρ κ) :
    (store.write a cell)[x]? = store[x]? :=
  List.getElem?_set_ne h.symm

/-- The owner of some cells may have changed them, and may have got new ones; it left all others as
they were. -/
structure Moves (store : Store ε τ ρ) (cells : List Nat) (next : Store ε τ ρ)
    (others : List Nat) : Prop where
  kept : ∀ x < store.length, x ∉ cells → next[x]? = store[x]?
  new : ∀ x ∈ others, x ∈ cells ∨ store.length ≤ x
  length_le : store.length ≤ next.length

namespace Moves

variable {next last : Store ε τ ρ} {cells others later : List Nat}

theorem refl (store : Store ε τ ρ) (cells : List Nat) : Moves store cells store cells :=
  ⟨fun _ _ _ => rfl, fun _ hx => .inl hx, Nat.le_refl _⟩

theorem not_mem (h : Moves store cells next others) {x : Nat} (hx : x < store.length)
    (hmem : x ∉ cells) : x ∉ others := by
  intro hother
  rcases h.new x hother with hcell | hnew
  · exact hmem hcell
  · exact Nat.not_lt_of_le hnew hx

theorem trans (h : Moves store cells next others) (hlater : Moves next others last later) :
    Moves store cells last later where
  kept x hx hmem := by
    rw [hlater.kept x (Nat.lt_of_lt_of_le hx h.length_le) (h.not_mem hx hmem)]
    exact h.kept x hx hmem
  new x hx := by
    rcases hlater.new x hx with hother | hnew
    · exact h.new x hother
    · exact .inr (Nat.le_trans h.length_le hnew)
  length_le := Nat.le_trans h.length_le hlater.length_le

theorem mono (h : Moves store cells next others) {whole parts : List Nat} (hcells : cells ⊆ whole)
    (hparts : ∀ x ∈ parts, x ∈ others ∨ x ∈ whole) : Moves store whole next parts where
  kept x hx hmem := h.kept x hx fun hcell => hmem (hcells hcell)
  new x hx := by
    rcases hparts x hx with hother | hwhole
    · exact (h.new x hother).imp (hcells ·) id
    · exact .inl hwhole
  length_le := h.length_le

theorem cons (h : Moves store cells next others) (a : Nat) :
    Moves store (a :: cells) next (a :: others) := by
  refine h.mono (List.subset_cons_self a cells) ?_
  intro x hx
  rcases List.mem_cons.mp hx with rfl | hx
  · exact .inr List.mem_cons_self
  · exact .inl hx

theorem write (h : Moves store cells next others) (ha : a ∈ cells) (cell : Cell ε τ ρ κ) :
    Moves store cells (next.write a cell) others where
  kept x hx hmem := by
    rw [getElem?_write_of_ne (ne_of_mem_of_not_mem ha hmem).symm]
    exact h.kept x hx hmem
  new := h.new
  length_le := by
    rw [Store.write, List.length_set]
    exact h.length_le

end Moves

end Store

open Store

section step

variable {rules : Expression.Rules ε τ ρ} {store next : Store ε τ ρ} {it : Iterator.{0} ε κ}
  {state : it.State} {a : Nat} {cells others : List Nat}

theorem Holds.write {b : Nat} (h : Holds rules store it state b cells) (ha : a ∉ cells)
    (cell : Cell ε τ ρ β) : Holds rules (store.write a cell) it state b cells :=
  h.frame fun _ hx => getElem?_write_of_ne (ne_of_mem_of_not_mem hx ha) cell

/-- What an iterator leaves that had these cells in that store: it still lies at its address. -/
def Continues (rules : Expression.Rules ε τ ρ) (store : Store ε τ ρ) (cells : List Nat)
    (it : Iterator.{0} ε κ) (a : Nat) (next : Store ε τ ρ) (state : it.State) : Prop :=
  ∃ others, Holds rules next it state a others ∧ Moves store cells next others

theorem getElem?_of_isPrefix {cell : (κ : Type) × Cell ε τ ρ κ} (hread : store[a]? = some cell)
    (hkept : store <+: next) : next[a]? = some cell := by
  obtain ⟨more, rfl⟩ := hkept
  exact (List.getElem?_append_left (List.getElem?_eq_some_iff.mp hread).1).trans hread

theorem Begins.moves {made : Made ε τ ρ} {started : Started ε κ}
    (h : Begins rules store made started) (hcells : ∀ x ∈ cells, x < store.length) :
    ∃ front, Holds rules made.store started.iterator started.state made.address front ∧
      (∀ x < store.length, x ∉ front) ∧ cells.Disjoint front ∧
        Moves store cells made.store (cells ++ front) := by
  obtain ⟨-, hkept, front, hfront, hnew⟩ := h
  have hold : ∀ x < store.length, x ∉ front :=
    fun x hx hmem => Nat.not_lt_of_le (hnew x hmem) hx
  refine ⟨front, hfront, hold, fun x hx hmem => hold x (hcells x hx) hmem, ?_, ?_, hkept.length_le⟩
  · intro x hx _
    have hread := List.getElem?_eq_getElem hx
    exact getElem?_of_isPrefix hread hkept ▸ hread.symm
  · intro x hx
    exact (List.mem_append.mp hx).imp id (hnew x)

/-- What lies beside the cells that an iterator changes stays as it is, and apart. -/
theorem Holds.beside {aside : List Nat} (h : Holds rules store it state a aside)
    (hmoves : Moves store cells next others) (hapart : cells.Disjoint aside) :
    Holds rules next it state a aside ∧ others.Disjoint aside := by
  have hmem : ∀ x ∈ aside, x ∉ cells := fun x hx hcell => hapart hcell hx
  constructor
  · exact h.frame fun x hx => hmoves.kept x (h.lt_length x hx) (hmem x hx)
  · exact fun x hother hx => hmoves.not_mem (h.lt_length x hx) (hmem x hx) hother

theorem Continues.around {cell : (κ : Type) × Cell ε τ ρ κ} {b : Nat}
    (h : Continues rules store cells it b next state) (hread : store[a]? = some cell)
    (ha : a ∉ cells) :
    ∃ others, next[a]? = some cell ∧ Holds rules next it state b others ∧ a ∉ others ∧
      Moves store cells next others := by
  obtain ⟨others, hholds, hmoves⟩ := h
  have hlt : a < store.length := (List.getElem?_eq_some_iff.mp hread).1
  exact ⟨others, (hmoves.kept a hlt ha).trans hread, hholds, hmoves.not_mem hlt ha, hmoves⟩

theorem getElem?_write {cell : (κ : Type) × Cell ε τ ρ κ} (hread : store[a]? = some cell)
    (other : Cell ε τ ρ β) : (store.write a other)[a]? = some ⟨β, other⟩ :=
  getElem?_write_self (List.getElem?_eq_some_iff.mp hread).1 other

/-- The iterator at the address makes the step that is made elsewhere from the state. -/
def Simulates (rules : Expression.Rules ε τ ρ) (store : Store ε τ ρ) (it : Iterator.{0} ε κ)
    (state : it.State) (a : Nat) (cells : List Nat) : Prop :=
  ∃ outcome, Steps rules store a outcome ∧
    outcome.Alike (Continues rules store cells it a) (it.step state)

namespace Simulates

theorem run (left : Run ε κ) (hread : store[a]? = some ⟨κ, .run left⟩) :
    Simulates rules store (.ofRun ε κ) left a [a] := by
  have hlt : a < store.length := (List.getElem?_eq_some_iff.mp hread).1
  have hnext : ∀ next : Run ε κ,
      Continues rules store [a] (.ofRun ε κ) a (store.write a (.run next)) next := by
    intro next
    exact ⟨[a], .run next (getElem?_write_self hlt _), (Moves.refl store [a]).write (by simp) _⟩
  refine ⟨_, .now hread rfl, ?_⟩
  cases left with
  | done => exact hnext .done
  | note event rest => exact ⟨rfl, hnext (rest ())⟩
  | result value rest => exact ⟨rfl, hnext (rest ())⟩

variable {inner : Nat}

theorem map (f : κ → β) (h : Simulates rules store it state inner cells)
    (hread : store[a]? = some ⟨β, .map f inner⟩) (ha : a ∉ cells) :
    Simulates rules store (it.map f) state a (a :: cells) := by
  obtain ⟨outcome, hstep, halike⟩ := h
  have hagain : ∀ {next state}, Continues rules store cells it inner next state →
      Continues rules store (a :: cells) (it.map f) a next state := by
    intro next state hnext
    obtain ⟨others, hread, hinner, ha, hmoves⟩ := hnext.around hread ha
    exact ⟨a :: others, .map f hread hinner ha, hmoves.cons a⟩
  exact ⟨_, .ask hread rfl hstep, halike.within hagain hagain fun hnext => ⟨rfl, hagain hnext⟩⟩

theorem tap (event : κ → ε) (held : Option κ) (h : Simulates rules store it state inner cells)
    (hinner : Holds rules store it state inner cells)
    (hread : store[a]? = some ⟨κ, .tap event held inner⟩) (ha : a ∉ cells) :
    Simulates rules store (it.tap event) (held, state) a (a :: cells) := by
  cases held with
  | some value =>
      refine ⟨_, .now hread rfl, rfl, a :: cells, ?_, (Moves.refl _ _).write (by simp) _⟩
      exact .tap event none (getElem?_write hread _) (hinner.write ha _) ha
  | none =>
      obtain ⟨outcome, hstep, halike⟩ := h
      have hagain : ∀ {next state}, Continues rules store cells it inner next state →
          Continues rules store (a :: cells) (it.tap event) a next (none, state) := by
        intro next state hnext
        obtain ⟨others, hread, hinner, ha, hmoves⟩ := hnext.around hread ha
        exact ⟨a :: others, .tap event none hread hinner ha, hmoves.cons a⟩
      refine ⟨_, .ask hread rfl hstep, halike.within hagain hagain ?_⟩
      intro value next state hnext
      obtain ⟨others, hread, hinner, ha, hmoves⟩ := hnext.around hread ha
      refine ⟨rfl, a :: others, ?_, (hmoves.cons a).write (by simp) _⟩
      exact .tap event (some value) (getElem?_write hread _) (hinner.write ha _) ha

theorem between {α : Type} (depth : Nat) (call : κ → Expression ε τ ρ α × Input τ)
    (h : Simulates rules store it state inner cells)
    (hread : store[a]? = some ⟨Match τ α, .flatMap depth call (some inner) none⟩) (ha : a ∉ cells) :
    Simulates rules store
      (it.flatMap fun value => (call value).1.started (rules.started depth) (call value).2)
      (some state, none) a (a :: cells) := by
  obtain ⟨outcome, hstep, halike⟩ := h
  refine ⟨_, .ask hread rfl hstep, halike.within ?_ ?_ ?_⟩
  · intro next state hnext
    obtain ⟨others, hread, hinner, ha, hmoves⟩ := hnext.around hread ha
    exact ⟨a :: others, .between depth call hread hinner ha, hmoves.cons a⟩
  · intro next state hnext
    obtain ⟨others, hread, -, -, hmoves⟩ := hnext.around hread ha
    refine ⟨[a], .spent depth call it (getElem?_write hread _), ?_⟩
    exact ((hmoves.cons a).write (by simp) _).mono (List.Subset.refl _) (by simp)
  · intro value next state hnext
    obtain ⟨others, hread, houter, ha, hmoves⟩ := hnext.around hread ha
    have hbegins := Expression.begins rules depth (call value).1 (call value).2 next
    obtain ⟨front, hfront, hold, hapart, hmade⟩ := hbegins.moves houter.lt_length
    have hlt : a < next.length := (List.getElem?_eq_some_iff.mp hread).1
    refine ⟨a :: (others ++ front), ?_, ((hmoves.trans hmade).cons a).write (by simp) _⟩
    rw [← hbegins.log]
    exact .inside depth call value _ (getElem?_write (getElem?_of_isPrefix hread hbegins.kept) _)
      ((houter.of_isPrefix hbegins.kept).write ha _) (hfront.write (hold a hlt) _) ha (hold a hlt)
      hapart

theorem inside {α : Type} (depth : Nat) (call : κ → Expression ε τ ρ α × Input τ) {outer : Nat}
    (value : κ) (queued : List ε)
    {front : ((call value).1.started (rules.started depth) (call value).2).iterator.State}
    (h : Simulates rules store
      ((call value).1.started (rules.started depth) (call value).2).iterator front inner others)
    (hread : store[a]? =
      some ⟨Match τ α, .flatMap depth call (some outer) (some (value, queued, inner))⟩)
    (houter : Holds rules store it state outer cells)
    (hfront : Holds rules store
      ((call value).1.started (rules.started depth) (call value).2).iterator front inner others)
    (ha : a ∉ cells) (hb : a ∉ others) (hapart : cells.Disjoint others) :
    Simulates rules store
      (it.flatMap fun value => (call value).1.started (rules.started depth) (call value).2)
      (some state, some ⟨value, queued, front⟩) a (a :: (cells ++ others)) := by
  cases queued with
  | cons event queued =>
      refine ⟨_, .now hread rfl, rfl, a :: (cells ++ others), ?_,
        (Moves.refl _ _).write (by simp) _⟩
      exact .inside depth call value queued (getElem?_write hread _) (houter.write ha _)
        (hfront.write hb _) ha hb hapart
  | nil =>
      obtain ⟨outcome, hstep, halike⟩ := h
      have hagain : ∀ {next front},
          Continues rules store others
            ((call value).1.started (rules.started depth) (call value).2).iterator inner next
            front →
          Continues rules store (a :: (cells ++ others))
            (it.flatMap fun value => (call value).1.started (rules.started depth) (call value).2) a
            next (some state, some ⟨value, [], front⟩) := by
        intro next front hnext
        obtain ⟨later, hread, hfront, hb, hmoves⟩ := hnext.around hread hb
        obtain ⟨houter, hapart⟩ := houter.beside hmoves hapart.symm
        refine ⟨a :: (cells ++ later), ?_, ?_⟩
        · exact .inside depth call value [] hread houter hfront ha hb hapart.symm
        · exact hmoves.mono (by simp) (by simp; tauto)
      refine ⟨_, .ask hread rfl hstep, halike.within hagain ?_ fun hnext => ⟨rfl, hagain hnext⟩⟩
      intro next front hnext
      obtain ⟨later, hread, hfront, hb, hmoves⟩ := hnext.around hread hb
      obtain ⟨houter, hapart⟩ := houter.beside hmoves hapart.symm
      refine ⟨a :: cells, .between depth call (getElem?_write hread _) (houter.write ha _) ha, ?_⟩
      exact (hmoves.mono (by simp) (by simp; tauto)).write (by simp) _

theorem first {first second : Nat} {later : Iterator ε κ} {other : later.State}
    (h : Simulates rules store it state first cells)
    (hread : store[a]? = some ⟨κ, .chain (some first) second⟩)
    (hsecond : Holds rules store later other second others) (ha : a ∉ cells) (hb : a ∉ others)
    (hapart : cells.Disjoint others) :
    Simulates rules store (it.chain later) (some state, other) a (a :: (cells ++ others)) := by
  obtain ⟨outcome, hstep, halike⟩ := h
  have hagain : ∀ {next state}, Continues rules store cells it first next state →
      Continues rules store (a :: (cells ++ others)) (it.chain later) a next
        (some state, other) := by
    intro next state hnext
    obtain ⟨inner, hread, hfirst, ha, hmoves⟩ := hnext.around hread ha
    obtain ⟨hsecond, hapart⟩ := hsecond.beside hmoves hapart
    refine ⟨a :: (inner ++ others), .first hread hfirst hsecond ha hb hapart, ?_⟩
    exact hmoves.mono (by simp) (by simp; tauto)
  refine ⟨_, .ask hread rfl hstep, halike.within hagain ?_ fun hnext => ⟨rfl, hagain hnext⟩⟩
  intro next state hnext
  obtain ⟨inner, hread, -, -, hmoves⟩ := hnext.around hread ha
  obtain ⟨hsecond, -⟩ := hsecond.beside hmoves hapart
  refine ⟨a :: others, .second it (getElem?_write hread _) (hsecond.write hb _) hb, ?_⟩
  exact (hmoves.mono (by simp) (by simp; tauto)).write (by simp) _

theorem second {second : Nat} (before : Iterator.{0} ε κ)
    (h : Simulates rules store it state second cells)
    (hread : store[a]? = some ⟨κ, .chain none second⟩) (ha : a ∉ cells) :
    Simulates rules store (before.chain it) (none, state) a (a :: cells) := by
  obtain ⟨outcome, hstep, halike⟩ := h
  have hagain : ∀ {next state}, Continues rules store cells it second next state →
      Continues rules store (a :: cells) (before.chain it) a next (none, state) := by
    intro next state hnext
    obtain ⟨others, hread, hsecond, ha, hmoves⟩ := hnext.around hread ha
    exact ⟨a :: others, .second before hread hsecond ha, hmoves.cons a⟩
  exact ⟨_, .ask hread rfl hstep, halike.within hagain hagain fun hnext => ⟨rfl, hagain hnext⟩⟩

end Simulates

/-- The levels of a repetition lie in the store, each with cells of its own. -/
structure Lie {search : Input τ → Started ε (Match τ α)} (rules : Expression.Rules ε τ ρ)
    (store : Store ε τ ρ) (a : Nat) (levels : List (Level search)) : Prop where
  holds : ∀ level ∈ levels,
    Holds rules store (search level.input).iterator level.state level.address level.cells
  not_mem : ∀ level ∈ levels, a ∉ level.cells
  apart : levels.Pairwise fun level other => level.cells.Disjoint other.cells

namespace Lie

variable {search : Input τ → Started ε (Match τ α)} {levels : List (Level search)}

theorem lt_length (h : Lie rules store a levels) :
    ∀ x ∈ levels.flatMap Level.cells, x < store.length := by
  intro x hx
  obtain ⟨level, hlevel, hmem⟩ := List.mem_flatMap.mp hx
  exact (h.holds level hlevel).lt_length x hmem

theorem write (h : Lie rules store a levels) (cell : Cell ε τ ρ κ) :
    Lie rules (store.write a cell) a levels where
  holds level hlevel := (h.holds level hlevel).write (h.not_mem level hlevel) cell
  not_mem := h.not_mem
  apart := h.apart

theorem of_isPrefix (h : Lie rules store a levels) (hkept : store <+: next) :
    Lie rules next a levels where
  holds level hlevel := (h.holds level hlevel).of_isPrefix hkept
  not_mem := h.not_mem
  apart := h.apart

theorem tail {level : Level search} (h : Lie rules store a (level :: levels)) :
    Lie rules store a levels where
  holds other hother := h.holds other (List.mem_cons_of_mem level hother)
  not_mem other hother := h.not_mem other (List.mem_cons_of_mem level hother)
  apart := (List.pairwise_cons.mp h.apart).2

theorem cons {l : Level search} (h : Lie rules store a levels)
    (hlevel : Holds rules store (search l.input).iterator l.state l.address l.cells)
    (ha : a ∉ l.cells) (hapart : (levels.flatMap Level.cells).Disjoint l.cells) :
    Lie rules store a (l :: levels) where
  holds := List.forall_mem_cons.mpr ⟨hlevel, h.holds⟩
  not_mem := List.forall_mem_cons.mpr ⟨ha, h.not_mem⟩
  apart := by
    refine List.pairwise_cons.mpr ⟨?_, h.apart⟩
    intro other hother x hx hmem
    exact hapart (List.mem_flatMap.mpr ⟨other, hother, hmem⟩) hx

theorem again {level : Level search} {cell : (κ : Type) × Cell ε τ ρ κ}
    {state : (search level.input).iterator.State} (h : Lie rules store a (level :: levels))
    (hnext : Continues rules store level.cells (search level.input).iterator level.address next
      state)
    (hread : store[a]? = some cell) :
    ∃ others, next[a]? = some cell ∧
      Lie rules next a (⟨level.input, state, level.address, others⟩ :: levels) ∧
      Moves store (a :: (level :: levels).flatMap Level.cells) next
        (a :: (others ++ levels.flatMap Level.cells)) := by
  obtain ⟨others, hread, htop, ha, hmoves⟩ :=
    hnext.around hread (h.not_mem level List.mem_cons_self)
  have hbeside : ∀ other ∈ levels, _ := fun other hother =>
    (h.tail.holds other hother).beside hmoves ((List.pairwise_cons.mp h.apart).1 other hother)
  refine ⟨others, hread, ⟨?_, ?_, ?_⟩, ?_⟩
  · exact List.forall_mem_cons.mpr ⟨htop, fun other hother => (hbeside other hother).1⟩
  · exact List.forall_mem_cons.mpr ⟨ha, h.tail.not_mem⟩
  · exact List.pairwise_cons.mpr ⟨fun other hother => (hbeside other hother).2, h.tail.apart⟩
  · refine hmoves.mono ?_ ?_
    · intro x hx
      simp [hx]
    · intro x hx
      rw [List.flatMap_cons]
      simp only [List.mem_cons, List.mem_append] at hx ⊢
      tauto

theorem repetitions {depth : Nat} {body : Expression ε τ ρ α}
    {levels : List (Level (body.started (rules.started depth)))} (queued : List ε)
    (matched : List α) (h : Lie rules store a levels)
    (hread : store[a]? = some ⟨Match τ (List α), .repetitions depth body queued
      (levels.map fun level => (level.input, level.address)) matched⟩) :
    Holds rules store (.repetitions (body.started (rules.started depth)))
      ⟨queued, levels.map fun level => ⟨level.input, level.state⟩, matched⟩ a
      (a :: levels.flatMap Level.cells) :=
  .repetitions depth body queued levels matched hread h.holds h.not_mem h.apart

end Lie

theorem Simulates.repetitions {depth : Nat} {body : Expression ε τ ρ α} (queued : List ε)
    {levels : List (Level (body.started (rules.started depth)))} (matched : List α)
    (h : ∀ level ∈ levels, Simulates rules store
      (body.started (rules.started depth) level.input).iterator level.state level.address
      level.cells)
    (hread : store[a]? = some ⟨Match τ (List α), .repetitions depth body queued
      (levels.map fun level => (level.input, level.address)) matched⟩)
    (hlie : Lie rules store a levels) :
    Simulates rules store (.repetitions (body.started (rules.started depth)))
      ⟨queued, levels.map fun level => ⟨level.input, level.state⟩, matched⟩ a
      (a :: levels.flatMap Level.cells) := by
  cases queued with
  | cons event queued =>
      have hnext := (hlie.write _).repetitions queued matched (getElem?_write hread _)
      refine ⟨_, .now hread rfl, rfl, _, hnext, ?_⟩
      exact (Moves.refl _ _).write (by simp) _
  | nil =>
      cases levels with
      | nil => exact ⟨_, .now hread rfl, _, hlie.repetitions _ _ hread, .refl _ _⟩
      | cons level levels =>
          obtain ⟨outcome, hstep, halike⟩ := h level List.mem_cons_self
          refine ⟨_, .ask hread rfl hstep, halike.within ?_ ?_ ?_⟩
          · intro next state hnext
            obtain ⟨others, hread, hlie, hmoves⟩ := hlie.again hnext hread
            have hagain := hlie.repetitions _ _ hread
            exact ⟨_, hagain, hmoves⟩
          · intro next state hnext
            obtain ⟨others, hread, hlie, hmoves⟩ := hlie.again hnext hread
            refine ⟨rfl, _, (hlie.tail.write _).repetitions _ _ (getElem?_write hread _), ?_⟩
            refine (hmoves.mono (List.Subset.refl _) ?_).write (by simp) _
            intro x hx
            exact .inl (by simp at hx ⊢; tauto)
          · intro item next state hnext
            obtain ⟨others, hread, hlie, hmoves⟩ := hlie.again hnext hread
            dsimp only
            split
            · have hbegins := Expression.begins rules depth body item.rest next
              obtain ⟨front, hfront, hold, hapart, hmade⟩ := hbegins.moves hlie.lt_length
              have hlt : a < next.length := (List.getElem?_eq_some_iff.mp hread).1
              have hdeeper := (hlie.of_isPrefix hbegins.kept).cons
                (l := ⟨item.rest, _, _, front⟩) hfront (hold a hlt) hapart
              have hpushed := (hdeeper.write _).repetitions
                (body.make depth (rules.make depth) item.rest next).log (item.value :: matched)
                (getElem?_write (getElem?_of_isPrefix hread hbegins.kept) _)
              rw [← hbegins.log]
              refine ⟨_, hpushed, ((hmoves.trans (hmade.cons a)).mono (List.Subset.refl _) ?_).write
                (by simp) _⟩
              intro x hx
              rw [List.flatMap_cons] at hx
              simp only [List.mem_cons, List.mem_append] at hx ⊢
              tauto
            · have hagain := hlie.repetitions _ _ hread
              exact ⟨_, hagain, hmoves⟩

/-- An iterator in a store makes the steps that it makes elsewhere. -/
theorem Holds.simulates (h : Holds rules store it state a cells) :
    Simulates rules store it state a cells := by
  induction h with
  | run left hread => exact .run left hread
  | spent depth call it hread => exact ⟨_, .now hread rfl, _, .spent depth call it hread, .refl _ _⟩
  | map f hread _ ha ih => exact ih.map f hread ha
  | tap event held hread hinner ha ih => exact ih.tap event held hinner hread ha
  | between depth call hread _ ha ih => exact ih.between depth call hread ha
  | inside depth call value queued hread houter hfront ha hb hapart _ ih =>
      exact ih.inside depth call value queued hread houter hfront ha hb hapart
  | first hread _ hsecond ha hb hapart ih _ => exact ih.first hread hsecond ha hb hapart
  | second it hread _ ha ih => exact ih.second it hread ha
  | repetitions depth body queued levels matched hread hlevels ha hapart ih =>
      exact .repetitions queued matched ih hread ⟨hlevels, ha, hapart⟩

theorem Holds.reply {left : it.State} {log : List ε} {answer : Option κ}
    (h : Holds rules store it state a cells) (hreply : it.Reply state log answer left) :
    ∃ next, Reply rules a store log answer next ∧ Continues rules store cells it a next left := by
  induction hreply generalizing store cells with
  | ended hstep =>
      obtain ⟨outcome, hsteps, halike⟩ := h.simulates
      rw [hstep] at halike
      obtain ⟨next, rfl, hnext⟩ := halike.exists_ended
      exact ⟨next, .ended hsteps, hnext⟩
  | logged hstep _ ih =>
      obtain ⟨outcome, hsteps, halike⟩ := h.simulates
      rw [hstep] at halike
      obtain ⟨next, rfl, others, hothers, hmoves⟩ := halike.exists_logged
      obtain ⟨last, hreply, later, hlater, hlast⟩ := ih hothers
      exact ⟨last, .logged hsteps hreply, later, hlater, hmoves.trans hlast⟩
  | silent hstep _ ih =>
      obtain ⟨outcome, hsteps, halike⟩ := h.simulates
      rw [hstep] at halike
      obtain ⟨next, rfl, others, hothers, hmoves⟩ := halike.exists_silent
      obtain ⟨last, hreply, later, hlater, hlast⟩ := ih hothers
      exact ⟨last, .silent hsteps hreply, later, hlater, hmoves.trans hlast⟩
  | found hstep =>
      obtain ⟨outcome, hsteps, halike⟩ := h.simulates
      rw [hstep] at halike
      obtain ⟨next, rfl, hnext⟩ := halike.exists_found
      exact ⟨next, .found hsteps, hnext⟩

end step

end ScanParse
