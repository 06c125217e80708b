import ScanParse.Parse.Session
import ScanParse.Proofs.Parse.Started

namespace ScanParse

variable {ε τ ι α β γ κ : Type} {ρ : ι → Type}

/-- An iterator over items `κ`, as it lies in a store: the iterators within it are named by their
addresses, and the parsers that it is still to start are written down. -/
inductive Cell (ε τ : Type) {ι : Type} (ρ : ι → Type) : Type → Type 1
  | run {κ : Type} (left : Run ε κ) : Cell ε τ ρ κ
  | map {β κ : Type} (f : β → κ) (inner : Nat) : Cell ε τ ρ κ
  | tap {κ : Type} (event : κ → ε) (held : Option κ) (inner : Nat) : Cell ε τ ρ κ
  | flatMap {β α : Type} (depth : Nat) (call : β → Expression ε τ ρ α × Input τ)
      (outer : Option Nat) (front : Option (β × List ε × Nat)) : Cell ε τ ρ (Match τ α)
  | chain {κ : Type} (first : Option Nat) (second : Nat) : Cell ε τ ρ κ
  | repetitions {α : Type} (depth : Nat) (body : Expression ε τ ρ α) (queued : List ε)
      (pending : List (Input τ × Nat)) (matched : List α) : Cell ε τ ρ (Match τ (List α))

/-- The iterators that were made so far, by their addresses. -/
abbrev Store (ε τ : Type) {ι : Type} (ρ : ι → Type) : Type 1 :=
  List ((κ : Type) × Cell ε τ ρ κ)

namespace Store

def write (store : Store ε τ ρ) (a : Nat) (cell : Cell ε τ ρ κ) : Store ε τ ρ :=
  store.set a ⟨κ, cell⟩

/-- What the start of a search comes to: the events logged at once, the address of the iterator,
and the store with it. -/
structure Made (ε τ : Type) {ι : Type} (ρ : ι → Type) : Type 1 where
  log : List ε
  address : Nat
  store : Store ε τ ρ

def make (store : Store ε τ ρ) (log : List ε) (cell : Cell ε τ ρ κ) : Made ε τ ρ :=
  ⟨log, store.length, store ++ [⟨κ, cell⟩]⟩

/-- Makes an iterator around one that was made. -/
def Made.around (made : Made ε τ ρ) (cell : Nat → Cell ε τ ρ κ) : Made ε τ ρ :=
  made.store.make made.log (cell made.address)

end Store

namespace Expression

open Store

/-- What is started behind a match of the first operand of a sequence, and where. -/
def behind (join : α → β → γ) (second : Expression ε τ ρ β) (found : Match τ α) :
    Expression ε τ ρ γ × Input τ :=
  (second.map (join found.value), found.rest)

/-- Starts the search of an expression on an input. Every iterator of it gets an address that was
not in use; the family starts the searches of the rules. -/
def make (depth : Nat) (family : (i : ι) → Input τ → Store ε τ ρ → Made ε τ ρ) :
    {α : Type} → Expression ε τ ρ α → Input τ → Store ε τ ρ → Made ε τ ρ
  | _, pure value, input, store => store.make [] (.run (.ofList [(⟨value, input⟩ : Match τ _)]))
  | α, fail, _, store => store.make [] (.run (.done : Run ε (Match τ α)))
  | _, eof, input, store => store.make [] (.run (.ofList (Match.ofEnd input)))
  | _, satisfy condition, input, store =>
      store.make [] (.run (.ofList (Match.ofFirst condition input)))
  | _, leaf p _, input, store => store.make (p.start input).log (.run ((p.start input).run ()))
  | _, map f body, input, store =>
      (body.make depth family input store).around (.map (Match.map f : Match τ _ → _))
  | α, tap event body, input, store =>
      (body.make depth family input store).around
        (.tap (fun found : Match τ α => event found.value) none)
  | _, andThen (α := α) first second, input, store =>
      (first.make depth family input store).around fun outer =>
        .flatMap depth (behind (α := α) Prod.mk second) (some outer) none
  | β, apply (α := α) function argument, input, store =>
      (function.make depth family input store).around fun outer =>
        .flatMap depth (behind (fun f : α → β => f) argument) (some outer) none
  | α, orElse first second, input, store =>
      let made := first.make depth family input store
      let later := (made.store.make made.log (.run (.ofList [()]))).around fun once =>
        .flatMap depth (fun _ : Unit => (second, input)) (some once) none
      later.around fun other => (.chain (some made.address) other : Cell ε τ ρ (Match τ α))
  | _, many body, input, store =>
      (body.make depth family input store).around fun inner =>
        .repetitions depth body [] [(input, inner)] []
  | _, delay events body, input, store =>
      let made := body.make depth family input store
      { made with log := events ++ made.log }
  | _, rule i, input, store => family i input store

/-- Starts the search of a rule, unfolded to the given depth. -/
def Rules.make (rules : Rules ε τ ρ) :
    Nat → (i : ι) → Input τ → Store ε τ ρ → Made ε τ ρ
  | 0, i, _, store => store.make [] (.run (.done : Run ε (Match τ (ρ i))))
  | depth + 1, i, input, store => (rules i).make depth (rules.make depth) input store

end Expression

/-- What an iterator in a store does: it makes a step at once, or the step of another iterator leads
to one. -/
inductive Act (ε τ : Type) {ι : Type} (ρ : ι → Type) (κ : Type) : Type 1
  | now (outcome : IteratorStep ε κ (Store ε τ ρ))
  | ask {β : Type} (inner : Nat)
      (answer : IteratorStep ε β (Store ε τ ρ) → IteratorStep ε κ (Store ε τ ρ))

/-- What the iterator at an address does, if this is how it lies there. -/
def Cell.act (rules : Expression.Rules ε τ ρ) (store : Store ε τ ρ) (a : Nat) :
    {κ : Type} → Cell ε τ ρ κ → Act ε τ ρ κ
  | κ, run left =>
      .now (((Iterator.ofRun ε κ).step left).within (store.write a <| run ·)
        (.ended <| store.write a <| run ·) fun value next =>
          .found value (store.write a (run next)))
  | _, map f inner =>
      .ask inner fun outcome => outcome.within id .ended fun value next => .found (f value) next
  | _, tap event (some value) inner => .now (.found value (store.write a (tap event none inner)))
  | _, tap event none inner =>
      .ask inner fun outcome => outcome.within id .ended fun value next =>
        .logged (event value) (next.write a (tap event (some value) inner))
  | _, flatMap depth call outer (some (value, event :: queued, inner)) =>
      .now (.logged event (store.write a (flatMap depth call outer (some (value, queued, inner)))))
  | _, flatMap depth call outer (some (_, [], inner)) =>
      .ask inner fun outcome => outcome.within id
        (fun left => .silent (left.write a (flatMap depth call outer none))) .found
  | _, flatMap depth call (some outer) none =>
      .ask outer fun outcome => outcome.within id
        (fun left => .ended (left.write a (flatMap depth call none none))) fun value next =>
          let made := (call value).1.make depth (rules.make depth) (call value).2 next
          .silent (made.store.write a
            (flatMap depth call (some outer) (some (value, made.log, made.address))))
  | _, flatMap _ _ none none => .now (.ended store)
  | κ, chain (some first) second =>
      .ask first fun outcome => outcome.within id
        (fun left => .silent (left.write a (chain none second : Cell ε τ ρ κ))) .found
  | _, chain none second => .ask second fun outcome => outcome.within id .ended .found
  | _, repetitions depth body (event :: queued) pending matched =>
      .now (.logged event (store.write a (repetitions depth body queued pending matched)))
  | _, repetitions _ _ [] [] _ => .now (.ended store)
  | _, repetitions depth body [] ((input, inner) :: pending) matched =>
      .ask inner fun outcome => outcome.within id
        (fun left => .found ⟨matched.reverse, input⟩
          (left.write a (repetitions depth body [] pending matched.tail)))
          fun (item : Match τ _) next =>
            if item.rest.size < input.size then
              let made := body.make depth (rules.make depth) item.rest next
              .silent (made.store.write a (repetitions depth body made.log
                ((item.rest, made.address) :: (input, inner) :: pending) (item.value :: matched)))
            else .silent next

namespace Store

variable {rules : Expression.Rules ε τ ρ}

/-- One step of the iterator at an address. -/
inductive Steps (rules : Expression.Rules ε τ ρ) (store : Store ε τ ρ) :
    {κ : Type} → Nat → IteratorStep ε κ (Store ε τ ρ) → Prop
  | now {κ : Type} {a : Nat} {cell : Cell ε τ ρ κ} {outcome : IteratorStep ε κ (Store ε τ ρ)} :
      store[a]? = some ⟨κ, cell⟩ → cell.act rules store a = .now outcome →
        Steps rules store a outcome
  | ask {κ β : Type} {a inner : Nat} {cell : Cell ε τ ρ κ}
      {answer : IteratorStep ε β (Store ε τ ρ) → IteratorStep ε κ (Store ε τ ρ)}
      {outcome : IteratorStep ε β (Store ε τ ρ)} :
      store[a]? = some ⟨κ, cell⟩ → cell.act rules store a = .ask inner answer →
        Steps rules store inner outcome → Steps rules store a (answer outcome)

/-- A request: the iterator takes steps up to its next result, or to its end. -/
inductive Reply (rules : Expression.Rules ε τ ρ) (a : Nat) :
    Store ε τ ρ → List ε → Option κ → Store ε τ ρ → Prop
  | ended {store left : Store ε τ ρ} :
      Steps rules store a (.ended left : IteratorStep ε κ _) → Reply rules a store [] none left
  | logged {store next left : Store ε τ ρ} {event : ε} {log : List ε} {answer : Option κ} :
      Steps rules store a (.logged event next : IteratorStep ε κ _) →
        Reply rules a next log answer left → Reply rules a store (event :: log) answer left
  | silent {store next left : Store ε τ ρ} {log : List ε} {answer : Option κ} :
      Steps rules store a (.silent next : IteratorStep ε κ _) →
        Reply rules a next log answer left → Reply rules a store log answer left
  | found {store left : Store ε τ ρ} {value : κ} :
      Steps rules store a (.found value left) → Reply rules a store [] (some value) left

inductive Drained (rules : Expression.Rules ε τ ρ) (a : Nat) :
    Store ε τ ρ → List ε → List κ → Store ε τ ρ → Prop
  | ended {store left : Store ε τ ρ} {log : List ε} :
      Reply rules a store log (none : Option κ) left → Drained rules a store log [] left
  | found {store next left : Store ε τ ρ} {log later : List ε} {value : κ} {values : List κ} :
      Reply rules a store log (some value) next → Drained rules a next later values left →
        Drained rules a store (log ++ later) (value :: values) left

/-- Requests up to the first result to which a function gives a value, or to the end. -/
inductive First (rules : Expression.Rules ε τ ρ) (a : Nat) (f : κ → Option β) :
    Store ε τ ρ → List ε → Option β → Store ε τ ρ → Prop
  | ended {store left : Store ε τ ρ} {log : List ε} :
      Reply rules a store log (none : Option κ) left → First rules a f store log none left
  | found {store left : Store ε τ ρ} {log : List ε} {value : κ} {image : β} :
      Reply rules a store log (some value) left → f value = some image →
        First rules a f store log (some image) left
  | passed {store next left : Store ε τ ρ} {log later : List ε} {value : κ} {answer : Option β} :
      Reply rules a store log (some value) next → f value = none →
        First rules a f next later answer left → First rules a f store (log ++ later) answer left

theorem Steps.eq {store : Store ε τ ρ} {a : Nat} {outcome other : IteratorStep ε κ (Store ε τ ρ)}
    (h : Steps rules store a outcome) (hother : Steps rules store a other) : outcome = other := by
  induction h with
  | now hread hact =>
      cases hother with
      | now hagain hsame =>
          obtain rfl : _ = _ := by simpa [hread] using hagain
          exact Act.now.inj (hact.symm.trans hsame)
      | ask hagain hsame =>
          obtain rfl : _ = _ := by simpa [hread] using hagain
          cases hact.symm.trans hsame
  | ask hread hact _ ih =>
      cases hother with
      | now hagain hsame =>
          obtain rfl : _ = _ := by simpa [hread] using hagain
          cases hact.symm.trans hsame
      | ask hagain hsame hstep =>
          obtain rfl : _ = _ := by simpa [hread] using hagain
          cases hact.symm.trans hsame
          rw [ih hstep]

variable {a : Nat} {store left other : Store ε τ ρ} {log later : List ε}

theorem Reply.eq {answer found : Option κ} (h : Reply rules a store log answer left)
    (hother : Reply rules a store later found other) :
    log = later ∧ answer = found ∧ left = other := by
  induction h generalizing later with
  | ended hstep =>
      cases hother with
      | ended hagain =>
          cases hstep.eq hagain
          exact ⟨rfl, rfl, rfl⟩
      | logged hagain | silent hagain | found hagain => cases hstep.eq hagain
  | logged hstep _ ih =>
      cases hother with
      | logged hagain hreply =>
          cases hstep.eq hagain
          obtain ⟨rfl, rfl, rfl⟩ := ih hreply
          exact ⟨rfl, rfl, rfl⟩
      | ended hagain | silent hagain | found hagain => cases hstep.eq hagain
  | silent hstep _ ih =>
      cases hother with
      | silent hagain hreply =>
          cases hstep.eq hagain
          exact ih hreply
      | ended hagain | logged hagain | found hagain => cases hstep.eq hagain
  | found hstep =>
      cases hother with
      | found hagain =>
          cases hstep.eq hagain
          exact ⟨rfl, rfl, rfl⟩
      | ended hagain | logged hagain | silent hagain => cases hstep.eq hagain

theorem Drained.eq {values found : List κ} (h : Drained rules a store log values left)
    (hother : Drained rules a store later found other) :
    log = later ∧ values = found ∧ left = other := by
  induction h generalizing later found with
  | ended hreply =>
      cases hother with
      | ended hagain =>
          obtain ⟨rfl, -, rfl⟩ := hreply.eq hagain
          exact ⟨rfl, rfl, rfl⟩
      | found hagain => cases (hreply.eq hagain).2.1
  | found hreply _ ih =>
      cases hother with
      | ended hagain => cases (hreply.eq hagain).2.1
      | found hagain hlater =>
          obtain ⟨rfl, hvalue, rfl⟩ := hreply.eq hagain
          obtain rfl := Option.some.inj hvalue
          obtain ⟨rfl, rfl, rfl⟩ := ih hlater
          exact ⟨rfl, rfl, rfl⟩

theorem First.eq {f : κ → Option β} {answer found : Option β}
    (h : First rules a f store log answer left) (hother : First rules a f store later found other) :
    log = later ∧ answer = found ∧ left = other := by
  induction h generalizing later with
  | ended hreply =>
      cases hother with
      | ended hagain =>
          obtain ⟨rfl, -, rfl⟩ := hreply.eq hagain
          exact ⟨rfl, rfl, rfl⟩
      | found hagain | passed hagain => cases (hreply.eq hagain).2.1
  | found hreply hf =>
      cases hother with
      | ended hagain => cases (hreply.eq hagain).2.1
      | found hagain hsame =>
          obtain ⟨rfl, hvalue, rfl⟩ := hreply.eq hagain
          obtain rfl := Option.some.inj hvalue
          exact ⟨rfl, hf.symm.trans hsame, rfl⟩
      | passed hagain hnone =>
          obtain rfl := Option.some.inj (hreply.eq hagain).2.1
          cases hf.symm.trans hnone
  | passed hreply hf _ ih =>
      cases hother with
      | ended hagain => cases (hreply.eq hagain).2.1
      | found hagain hsome =>
          obtain rfl := Option.some.inj (hreply.eq hagain).2.1
          cases hf.symm.trans hsome
      | passed hagain _ hlater =>
          obtain ⟨rfl, hvalue, rfl⟩ := hreply.eq hagain
          obtain ⟨rfl, rfl, rfl⟩ := ih hlater
          exact ⟨rfl, rfl, rfl⟩

end Store

end ScanParse
