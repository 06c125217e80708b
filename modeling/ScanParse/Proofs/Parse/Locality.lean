import ScanParse.Proofs.Parse.Asking
import ScanParse.Proofs.Parse.Termination

namespace ScanParse

variable {ε τ ι α β : Type} {ρ : ι → Type}

/-- The input with more items behind it. -/
def Input.extend (input : Input τ) (more : List τ) : Input τ :=
  .ofList (input.toList ++ more)

@[simp] theorem Input.toList_extend (input : Input τ) (more : List τ) :
    (input.extend more).toList = input.toList ++ more := rfl

@[simp] theorem Input.size_extend (input : Input τ) (more : List τ) :
    (input.extend more).size = input.size + more.length := by
  simp [Input.size_eq_length]

namespace Match

/-- The match with more items behind what it leaves. -/
def extend (more : List τ) (found : Match τ α) : Match τ α :=
  ⟨found.value, found.rest.extend more⟩

/-- The match leaves at least as many items as these. -/
def spares (more : List τ) (found : Match τ α) : Bool :=
  more.length ≤ found.rest.size

theorem spares_extend (more : List τ) (found : Match τ α) :
    (found.extend more).spares more = true := by
  simp [spares, extend]

theorem spares_eq_false_iff {more : List τ} {found : Match τ α} :
    found.spares more = false ↔ found.rest.size < more.length := by
  simp [spares]

theorem filter_ofFirst_extend (condition : τ → Bool) (input : Input τ) (more : List τ) :
    (ofFirst condition (input.extend more)).filter (spares more) =
      (ofFirst condition input).map (extend more) := by
  obtain ⟨items, rfl⟩ : ∃ items, input = .ofList items := ⟨input.toList, by simp⟩
  cases items with
  | nil =>
      cases more with
      | nil => rfl
      | cons item more =>
          change (if condition item then [_] else []).filter _ = []
          split
          · exact List.filter_cons_of_neg (by simp [spares])
          · rfl
  | cons item items =>
      change (if condition item then [_] else []).filter _ =
        (if condition item then [_] else []).map _
      split
      · exact List.filter_cons_of_pos (spares_extend more ⟨item, .ofList items⟩)
      · rfl

end Match

namespace Expression

/-- Nowhere in the expression is the end of the input asked for. -/
def IgnoresEnd : {α : Type} → Expression ε τ ρ α → Prop
  | _, pure _ => True
  | _, fail => True
  | _, eof => False
  | _, satisfy _ => True
  | _, leaf _ _ => False
  | _, map _ body => body.IgnoresEnd
  | _, tap _ body => body.IgnoresEnd
  | _, andThen first second => first.IgnoresEnd ∧ second.IgnoresEnd
  | _, apply function argument => function.IgnoresEnd ∧ argument.IgnoresEnd
  | _, orElse first second => first.IgnoresEnd ∧ second.IgnoresEnd
  | _, many body => body.IgnoresEnd
  | _, delay _ body => body.IgnoresEnd
  | _, rule _ => True

end Expression

namespace Search

variable {rules : Expression.Rules ε τ ρ} {more : List τ}

/-- Every input in the search is shorter than these items, and stays so. -/
inductive Spent (more : List τ) : {α : Type} → Search ε τ ρ α → Prop
  | start {α : Type} (e : Expression ε τ ρ α) {input : Input τ} :
      input.size < more.length → Spent more (start e input)
  | done {α : Type} : Spent more (done : Search ε τ ρ α)
  | given {α : Type} {found : Match τ α} {rest : Search ε τ ρ α} :
      found.rest.size < more.length → Spent more rest → Spent more (given found rest)
  | noted {α : Type} (events : List ε) {rest : Search ε τ ρ α} :
      Spent more rest → Spent more (noted events rest)
  | map {α β : Type} (f : α → β) {search : Search ε τ ρ α} :
      Spent more search → Spent more (map f search)
  | tap {α : Type} (event : α → ε) {search : Search ε τ ρ α} :
      Spent more search → Spent more (tap event search)
  | sequence {α β γ : Type} (join : α → β → γ) {first : Search ε τ ρ α}
      (second : Expression ε τ ρ β) : Spent more first → Spent more (sequence join first second)
  | within {α β γ : Type} (join : α → β → γ) (value : α) {inner : Search ε τ ρ β}
      {first : Search ε τ ρ α} (second : Expression ε τ ρ β) :
      Spent more inner → Spent more first → Spent more (within join value inner first second)
  | choice {α : Type} {first : Search ε τ ρ α} (second : Expression ε τ ρ α) {input : Input τ} :
      input.size < more.length → Spent more first → Spent more (choice first second input)
  | level {α : Type} (body : Expression ε τ ρ α) {input : Input τ} {untried : Search ε τ ρ α}
      (matched : List α) {below : Search ε τ ρ (List α)} :
      input.size < more.length → Spent more untried → Spent more below →
        Spent more (level body input untried matched below)

namespace Spent

theorem ofRun {run : Run ε (Match τ α)} (h : ∀ found ∈ run.results, found.rest.size < more.length) :
    Spent more (ofRun run : Search ε τ ρ α) := by
  induction run with
  | done => exact .done
  | note event rest ih => exact .noted [event] (ih () h)
  | result found rest ih =>
      rw [Run.results, List.forall_mem_cons] at h
      exact .given h.1 (ih () h.2)

theorem opened {e : Expression ε τ ρ α} {input : Input τ} (hsize : input.size < more.length) :
    Spent more (opened rules input e) := by
  have hleaf : ∀ {β : Type} {l : Expression ε τ ρ β} {run : Run ε (Match τ β)},
      ((l.unfolded rules 0).start input).toRun = run →
        Spent more (Search.ofRun run : Search ε τ ρ β) := by
    rintro β l _ rfl
    refine ofRun fun found hfound => ?_
    rw [Attempt.results_toRun] at hfound
    exact Nat.lt_of_le_of_lt (Expression.size_le_of_mem_results hfound) hsize
  cases e with
  | pure value => exact hleaf (l := .pure value) rfl
  | fail => exact .done
  | eof => exact hleaf (l := .eof) rfl
  | satisfy condition => exact hleaf (l := .satisfy condition) rfl
  | leaf p h => exact hleaf (l := .leaf p h) rfl
  | map f body => exact .map f (.start body hsize)
  | tap event body => exact .tap event (.start body hsize)
  | andThen first second => exact .sequence Prod.mk second (.start first hsize)
  | apply function argument => exact .sequence id argument (.start function hsize)
  | orElse first second => exact .choice second hsize (.start first hsize)
  | many body => exact .level body [] hsize (.start body hsize) .done
  | delay events body => exact .noted events (.start body hsize)
  | rule i => exact .start (rules i) hsize

theorem step {search : Search ε τ ρ α} (h : Spent more search) :
    (search.step rules).Keeps (Spent more) fun found => found.rest.size < more.length := by
  induction h with
  | start e hsize => exact opened hsize
  | done => exact .done
  | given hfound hrest _ => exact ⟨hfound, hrest⟩
  | noted events hrest _ =>
      cases events with
      | nil => exact hrest
      | cons event events => exact .noted events hrest
  | map f _ ih => exact ih.within (.map f ·) (.map f ·) fun hfound hnext => ⟨hfound, .map f hnext⟩
  | tap event _ ih =>
      exact ih.within (.tap event ·) (.tap event ·) fun hfound hnext =>
        .given hfound (.tap event hnext)
  | sequence join second _ ih =>
      exact ih.within (.sequence join second ·) (fun _ => .done) fun hfound hnext =>
        Spent.within join _ second (.start second hfound) hnext
  | within join value second _ hfirst ih _ =>
      exact ih.within (.within join value second · hfirst)
        (fun _ => Spent.sequence join second hfirst)
        fun hfound hnext => ⟨hfound, .within join value second hnext hfirst⟩
  | choice second hsize _ ih =>
      exact ih.within (.choice second hsize ·) (fun _ => Spent.start second hsize)
        fun hfound hnext => ⟨hfound, .choice second hsize hnext⟩
  | level body matched hsize _ hbelow ih _ =>
      refine ih.within (.level body matched hsize · hbelow) (fun _ => ⟨hsize, hbelow⟩) ?_
      intro found next hfound hnext
      have hagain := Spent.level body matched hsize hnext hbelow
      split
      · exact Spent.level body _ hfound (.start body hfound) hagain
      · exact hagain

end Spent

/-- A search beside one with more items behind its input, which may go on where this one stops:
with the same matches to give, and among them others that leave fewer items than the new ones. -/
inductive Longer (more : List τ) : {α : Type} → Search ε τ ρ α → Search ε τ ρ α → Prop
  | start {α : Type} {e : Expression ε τ ρ α} (input : Input τ) :
      e.IgnoresEnd → Longer more (start e input) (start e (input.extend more))
  | done {α : Type} : Longer more (done : Search ε τ ρ α) done
  | given {α : Type} (found : Match τ α) {short long : Search ε τ ρ α} :
      Longer more short long → Longer more (given found short) (given (found.extend more) long)
  | givenMore {α : Type} {found : Match τ α} {short long : Search ε τ ρ α} :
      found.rest.size < more.length → Longer more short long → Longer more short (given found long)
  | noted {α : Type} (events : List ε) {short long : Search ε τ ρ α} :
      Longer more short long → Longer more (noted events short) (noted events long)
  | map {α β : Type} (f : α → β) {short long : Search ε τ ρ α} :
      Longer more short long → Longer more (map f short) (map f long)
  | tap {α : Type} (event : α → ε) {short long : Search ε τ ρ α} :
      Longer more short long → Longer more (tap event short) (tap event long)
  | sequence {α β γ : Type} (join : α → β → γ) {short long : Search ε τ ρ α}
      {second : Expression ε τ ρ β} : second.IgnoresEnd → Longer more short long →
        Longer more (sequence join short second) (sequence join long second)
  | within {α β γ : Type} (join : α → β → γ) (value : α) {inner outer : Search ε τ ρ β}
      {short long : Search ε τ ρ α} {second : Expression ε τ ρ β} :
      second.IgnoresEnd → Longer more inner outer → Longer more short long →
        Longer more (within join value inner short second) (within join value outer long second)
  | withinMore {α β γ : Type} (join : α → β → γ) (value : α) {inner : Search ε τ ρ β}
      {short long : Search ε τ ρ α} {second : Expression ε τ ρ β} :
      second.IgnoresEnd → Spent more inner → Longer more short long →
        Longer more (sequence join short second) (within join value inner long second)
  | choice {α : Type} {short long : Search ε τ ρ α} {second : Expression ε τ ρ α}
      (input : Input τ) : second.IgnoresEnd → Longer more short long →
        Longer more (choice short second input) (choice long second (input.extend more))
  | level {α : Type} {body : Expression ε τ ρ α} (input : Input τ) (matched : List α)
      {short long : Search ε τ ρ α} {below under : Search ε τ ρ (List α)} :
      body.IgnoresEnd → Longer more short long → Longer more below under →
        Longer more (level body input short matched below)
          (level body (input.extend more) long matched under)
  | levelMore {α : Type} (body : Expression ε τ ρ α) {input : Input τ} (matched : List α)
      {untried : Search ε τ ρ α} {short long : Search ε τ ρ (List α)} :
      input.size < more.length → Spent more untried → Longer more short long →
        Longer more short (level body input untried matched long)

/-- One step of the longer search: the shorter one makes the same step, or the step belongs to
matches that only the longer one gives. -/
inductive Covered (rules : Expression.Rules ε τ ρ) (more : List τ) (short : Search ε τ ρ α) :
    IteratorStep ε (Match τ α) (Search ε τ ρ α) → Prop
  | ended {left other : Search ε τ ρ α} :
      short.step rules = .ended left → Longer more left other →
        Covered rules more short (.ended other)
  | logged {event : ε} {next other : Search ε τ ρ α} :
      short.step rules = .logged event next → Longer more next other →
        Covered rules more short (.logged event other)
  | silent {next other : Search ε τ ρ α} :
      short.step rules = .silent next → Longer more next other →
        Covered rules more short (.silent other)
  | found {found : Match τ α} {next other : Search ε τ ρ α} :
      short.step rules = .found found next → Longer more next other →
        Covered rules more short (.found (found.extend more) other)
  | loggedMore {event : ε} {other : Search ε τ ρ α} :
      Longer more short other → Covered rules more short (.logged event other)
  | silentMore {other : Search ε τ ρ α} :
      Longer more short other → Covered rules more short (.silent other)
  | foundMore {found : Match τ α} {other : Search ε τ ρ α} :
      found.rest.size < more.length → Longer more short other →
        Covered rules more short (.found found other)

theorem Covered.within {short : Search ε τ ρ α} {step : IteratorStep ε (Match τ α) (Search ε τ ρ α)}
    (h : Covered rules more short step) {context outer : Search ε τ ρ α → Search ε τ ρ β}
    {atEnd atOther : Search ε τ ρ α → IteratorStep ε (Match τ β) (Search ε τ ρ β)}
    {atMatch atLonger : Match τ α → Search ε τ ρ α → IteratorStep ε (Match τ β) (Search ε τ ρ β)}
    (hstep : (context short).step rules = (short.step rules).within context atEnd atMatch)
    (hcontext : ∀ {next other}, Longer more next other → Longer more (context next) (outer other))
    (hend : ∀ {left other}, (context short).step rules = atEnd left → Longer more left other →
      Covered rules more (context short) (atOther other))
    (hmatch : ∀ {found next other}, (context short).step rules = atMatch found next →
      Longer more next other →
        Covered rules more (context short) (atLonger (found.extend more) other))
    (hmore : ∀ {found other}, found.rest.size < more.length → Longer more short other →
      Covered rules more (context short) (atLonger found other)) :
    Covered rules more (context short) (step.within outer atOther atLonger) := by
  cases h with
  | ended hshort hleft =>
      rw [hshort] at hstep
      exact hend hstep hleft
  | logged hshort hnext =>
      rw [hshort] at hstep
      exact .logged hstep (hcontext hnext)
  | silent hshort hnext =>
      rw [hshort] at hstep
      exact .silent hstep (hcontext hnext)
  | found hshort hnext =>
      rw [hshort] at hstep
      exact hmatch hstep hnext
  | loggedMore hnext => exact .loggedMore (hcontext hnext)
  | silentMore hnext => exact .silentMore (hcontext hnext)
  | foundMore hfound hnext => exact hmore hfound hnext

theorem Covered.ofKeeps {short : Search ε τ ρ β}
    {step : IteratorStep ε (Match τ α) (Search ε τ ρ α)}
    (h : step.Keeps (Spent more) fun found => found.rest.size < more.length)
    {context : Search ε τ ρ α → Search ε τ ρ β}
    {atEnd : Search ε τ ρ α → IteratorStep ε (Match τ β) (Search ε τ ρ β)}
    {atMatch : Match τ α → Search ε τ ρ α → IteratorStep ε (Match τ β) (Search ε τ ρ β)}
    (hcontext : ∀ {next}, Spent more next → Longer more short (context next))
    (hend : ∀ left, Covered rules more short (atEnd left))
    (hmatch : ∀ {found next}, found.rest.size < more.length → Spent more next →
      Covered rules more short (atMatch found next)) :
    Covered rules more short (step.within context atEnd atMatch) := by
  cases step with
  | ended left => exact hend left
  | logged event next => exact .loggedMore (hcontext h)
  | silent next => exact .silentMore (hcontext h)
  | found found next => exact hmatch h.1 h.2

namespace Longer

theorem ofList {short long : List (Match τ α)}
    (h : long.filter (Match.spares more) = short.map (Match.extend more)) :
    Longer more (ofRun (.ofList short) : Search ε τ ρ α) (ofRun (.ofList long)) := by
  induction long generalizing short with
  | nil =>
      obtain rfl : short = [] := List.map_eq_nil_iff.mp h.symm
      exact .done
  | cons found long ih =>
      cases hspares : found.spares more with
      | false =>
          rw [List.filter_cons_of_neg (by simp [hspares])] at h
          exact .givenMore (Match.spares_eq_false_iff.mp hspares) (ih h)
      | true =>
          rw [List.filter_cons_of_pos hspares] at h
          cases short with
          | nil => cases h
          | cons first short =>
              rw [List.map_cons, List.cons.injEq] at h
              obtain ⟨rfl, h⟩ := h
              exact .given first (ih h)

theorem opened (hrules : ∀ i, (rules i).IgnoresEnd) {e : Expression ε τ ρ α} (he : e.IgnoresEnd)
    (input : Input τ) :
    Longer more (opened rules input e) (opened rules (input.extend more) e) := by
  cases e with
  | pure value => exact .given ⟨value, input⟩ .done
  | fail => exact .done
  | eof => exact he.elim
  | satisfy condition => exact ofList (Match.filter_ofFirst_extend condition input more)
  | leaf p h => exact he.elim
  | map f body => exact .map f (.start input he)
  | tap event body => exact .tap event (.start input he)
  | andThen first second => exact .sequence Prod.mk he.2 (.start input he.1)
  | apply function argument => exact .sequence id he.2 (.start input he.1)
  | orElse first second => exact .choice input he.2 (.start input he.1)
  | many body => exact .level input [] he (.start input he) .done
  | delay events body => exact .noted events (.start input he)
  | rule i => exact .start input (hrules i)

theorem step (hrules : ∀ i, (rules i).IgnoresEnd) {short long : Search ε τ ρ α}
    (h : Longer more short long) : Covered rules more short (long.step rules) := by
  induction h with
  | start input he => exact .silent rfl (opened hrules he input)
  | done => exact .ended rfl .done
  | given found h _ => exact .found rfl h
  | givenMore hfound h _ => exact .foundMore hfound h
  | noted events h _ =>
      cases events with
      | nil => exact .silent rfl h
      | cons event events => exact .logged rfl (.noted events h)
  | map f _ ih =>
      refine ih.within rfl (.map f ·) ?_ ?_ ?_
      · intro left other hstep hleft
        exact .ended hstep (.map f hleft)
      · intro found next other hstep hnext
        exact .found hstep (.map f hnext)
      · intro found other hfound hnext
        exact .foundMore hfound (.map f hnext)
  | tap event _ ih =>
      refine ih.within rfl (.tap event ·) ?_ ?_ ?_
      · intro left other hstep hleft
        exact .ended hstep (.tap event hleft)
      · intro found next other hstep hnext
        exact .logged hstep (.given found (.tap event hnext))
      · intro found other hfound hnext
        exact .loggedMore (.givenMore hfound (.tap event hnext))
  | sequence join hsecond _ ih =>
      refine ih.within rfl (.sequence join hsecond ·) ?_ ?_ ?_
      · intro left other hstep _
        exact .ended hstep .done
      · intro found next other hstep hnext
        exact .silent hstep (.within join found.value hsecond (.start found.rest hsecond) hnext)
      · intro found other hfound hnext
        exact .silentMore (.withinMore join found.value hsecond (.start _ hfound) hnext)
  | within join value hsecond _ hfirst ih _ =>
      refine ih.within rfl (.within join value hsecond · hfirst) ?_ ?_ ?_
      · intro left other hstep _
        exact .silent hstep (.sequence join hsecond hfirst)
      · intro found next other hstep hnext
        exact .found hstep (.within join value hsecond hnext hfirst)
      · intro found other hfound hnext
        exact .foundMore hfound (.within join value hsecond hnext hfirst)
  | withinMore join value hsecond hinner hfirst _ =>
      refine Covered.ofKeeps hinner.step (.withinMore join value hsecond · hfirst) ?_ ?_
      · intro left
        exact .silentMore (.sequence join hsecond hfirst)
      · intro found next hfound hnext
        exact .foundMore hfound (.withinMore join value hsecond hnext hfirst)
  | choice input hsecond _ ih =>
      refine ih.within rfl (.choice input hsecond ·) ?_ ?_ ?_
      · intro left other hstep _
        exact .silent hstep (.start input hsecond)
      · intro found next other hstep hnext
        exact .found hstep (.choice input hsecond hnext)
      · intro found other hfound hnext
        exact .foundMore hfound (.choice input hsecond hnext)
  | @level _ body input matched _ _ _ _ hbody _ hbelow ih _ =>
      refine ih.within rfl (.level input matched hbody · hbelow) ?_ ?_ ?_
      · intro left other hstep _
        exact .found hstep hbelow
      · intro item next other hstep hnext
        have hagain := Longer.level input matched hbody hnext hbelow
        have hsizes : (item.extend more).rest.size < (input.extend more).size ↔
            item.rest.size < input.size := by
          simp [Match.extend]
        simp only [hsizes]
        split at hstep
        · rename_i hshort
          rw [if_pos hshort]
          exact .silent hstep (.level item.rest _ hbody (.start item.rest hbody) hagain)
        · rename_i hlong
          rw [if_neg hlong]
          exact .silent hstep hagain
      · intro item other hitem hnext
        have hagain := Longer.level input matched hbody hnext hbelow
        split
        · exact .silentMore (.levelMore body _ hitem (.start body hitem) hagain)
        · exact .silentMore hagain
  | levelMore body matched hsize huntried hbelow _ =>
      refine Covered.ofKeeps huntried.step (.levelMore body matched hsize · hbelow) ?_ ?_
      · intro left
        exact .foundMore hsize hbelow
      · intro item next hitem hnext
        have hagain := Longer.levelMore body matched hsize hnext hbelow
        split
        · exact .silentMore (.levelMore body _ hitem (.start body hitem) hagain)
        · exact .silentMore hagain

end Longer

section

variable {short long : (iterator rules α).State}

theorem Longer.covered (hrules : ∀ i, (rules i).IgnoresEnd) (h : Longer more short long)
    {outcome : IteratorStep ε (Match τ α) (Search ε τ ρ α)}
    (hstep : (iterator rules α).step long = outcome) : Covered rules more short outcome :=
  hstep ▸ h.step hrules

/-- What the longer search gives, but for the matches that leave too little, the shorter one
gives first. -/
theorem Longer.given_filter (hrules : ∀ i, (rules i).IgnoresEnd) (h : Longer more short long)
    (n : Nat) :
    ∃ m ≤ n, ((iterator rules α).given n long).filter (Match.spares more) =
      ((iterator rules α).given m short).map (Match.extend more) := by
  induction n generalizing short long with
  | zero => exact ⟨0, Nat.le_refl 0, rfl⟩
  | succ n ih =>
      cases hlong : (iterator rules α).step long with
      | ended other => exact ⟨0, Nat.zero_le _, by rw [Iterator.given_of_ended hlong]; rfl⟩
      | logged event other =>
          rw [Iterator.given_of_logged hlong]
          cases h.covered hrules hlong with
          | logged hshort hnext =>
              obtain ⟨m, hm, hgiven⟩ := ih hnext
              refine ⟨m + 1, Nat.succ_le_succ hm, ?_⟩
              rw [hgiven, Iterator.given_of_logged hshort]
          | loggedMore hnext =>
              obtain ⟨m, hm, hgiven⟩ := ih hnext
              exact ⟨m, Nat.le_succ_of_le hm, hgiven⟩
      | silent other =>
          rw [Iterator.given_of_silent hlong]
          cases h.covered hrules hlong with
          | silent hshort hnext =>
              obtain ⟨m, hm, hgiven⟩ := ih hnext
              refine ⟨m + 1, Nat.succ_le_succ hm, ?_⟩
              rw [hgiven, Iterator.given_of_silent hshort]
          | silentMore hnext =>
              obtain ⟨m, hm, hgiven⟩ := ih hnext
              exact ⟨m, Nat.le_succ_of_le hm, hgiven⟩
      | found found other =>
          rw [Iterator.given_of_found hlong]
          cases h.covered hrules hlong with
          | @found first _ _ hshort hnext =>
              obtain ⟨m, hm, hgiven⟩ := ih hnext
              refine ⟨m + 1, Nat.succ_le_succ hm, ?_⟩
              rw [Iterator.given_of_found hshort, List.map_cons,
                List.filter_cons_of_pos (Match.spares_extend more first), hgiven]
          | foundMore hfound hnext =>
              obtain ⟨m, hm, hgiven⟩ := ih hnext
              refine ⟨m, Nat.le_succ_of_le hm, ?_⟩
              rw [List.filter_cons_of_neg (by simp [Match.spares_eq_false_iff.mpr hfound]), hgiven]

/-- Where the longer search ends, so does the shorter one. -/
theorem Longer.exists_yields (hrules : ∀ i, (rules i).IgnoresEnd) {run : Run ε (Match τ α)}
    (hrun : long.Yields rules run) (h : Longer more short long) :
    ∃ shorter, short.Yields rules shorter ∧
      run.results.filter (Match.spares more) = shorter.results.map (Match.extend more) := by
  induction hrun generalizing short with
  | ended hlong =>
      cases h.covered hrules hlong with
      | ended hshort _ => exact ⟨.done, .ended hshort, rfl⟩
  | logged hlong _ ih =>
      cases h.covered hrules hlong with
      | logged hshort hnext =>
          obtain ⟨shorter, hshorter, hresults⟩ := ih hnext
          exact ⟨_, .logged hshort hshorter, hresults⟩
      | loggedMore hnext => exact ih hnext
  | silent hlong _ ih =>
      cases h.covered hrules hlong with
      | silent hshort hnext =>
          obtain ⟨shorter, hshorter, hresults⟩ := ih hnext
          exact ⟨shorter, .silent hshort hshorter, hresults⟩
      | silentMore hnext => exact ih hnext
  | @found _ _ _ run hlong _ ih =>
      cases h.covered hrules hlong with
      | @found first _ _ hshort hnext =>
          obtain ⟨shorter, hshorter, hresults⟩ := ih hnext
          refine ⟨_, .found hshort hshorter, ?_⟩
          rw [Run.results, Run.results, List.map_cons,
            List.filter_cons_of_pos (Match.spares_extend more first), hresults]
      | foundMore hfound hnext =>
          obtain ⟨shorter, hshorter, hresults⟩ := ih hnext
          refine ⟨shorter, hshorter, ?_⟩
          rw [Run.results,
            List.filter_cons_of_neg (by simp [Match.spares_eq_false_iff.mpr hfound]), hresults]

end

end Search

namespace Expression

open Filter Search

variable {rules : Rules ε τ ρ}

/-- The rule gives `1` again and again. -/
def ones : Rules Unit Char (fun _ : Unit => Nat) := fun _ => (pure 1).orElse (rule ())

/-- Such ones behind a `b`, or else `0`. -/
def onesBehind : Expression Unit Char (fun _ : Unit => Nat) Nat :=
  (((token 'b').andThen (rule ())).map Prod.snd).orElse (pure 0)

/-- What the search for ones comes to, again and again. -/
inductive GivesOnes : Search Unit Char (fun _ : Unit => Nat) Nat → Prop
  | asked : GivesOnes (start (rule ()) (.ofList []))
  | opened : GivesOnes (start (ones ()) (.ofList []))
  | started : GivesOnes (choice (start (pure 1) (.ofList [])) (rule ()) (.ofList []))
  | held : GivesOnes (choice (Search.ofRun (.ofList [⟨1, .ofList []⟩])) (rule ()) (.ofList []))
  | given : GivesOnes (choice done (rule ()) (.ofList []))

theorem eq_one_of_givesOnes {inner : Search Unit Char (fun _ : Unit => Nat) Nat}
    (h : GivesOnes inner) (first : Search Unit Char (fun _ : Unit => Nat) Char)
    (second : Expression Unit Char (fun _ : Unit => Nat) Nat) (input : Input Char) (n : Nat) :
    ∀ found ∈ (iterator ones Nat).given n
      (choice (.map Prod.snd (within Prod.mk 'b' inner first (rule ()))) second input),
      found = ⟨1, .ofList []⟩ := by
  refine Iterator.forall_mem_given (P := fun search => ∃ inner, GivesOnes inner ∧
    search = choice (.map Prod.snd (within Prod.mk 'b' inner first (rule ()))) second input)
    ?_ n ⟨inner, h, rfl⟩
  rintro _ ⟨inner, h, rfl⟩
  cases h with
  | asked => exact ⟨_, .opened, rfl⟩
  | opened => exact ⟨_, .started, rfl⟩
  | started => exact ⟨_, .held, rfl⟩
  | held => exact ⟨rfl, _, .given, rfl⟩
  | given => exact ⟨_, .asked, rfl⟩

/-- In front of a `b`, the search gives ones without end, and never comes to the match that it gives
on the empty input. -/
theorem not_mem_given_onesBehind :
    (∀ i, (ones i).IgnoresEnd) ∧ onesBehind.IgnoresEnd ∧
      (start onesBehind (.ofList [])).Yields ones (.result ⟨0, .ofList []⟩ fun _ => .done) ∧
      ∀ n, ((⟨0, .ofList []⟩ : Match Char Nat).extend ['b']) ∉
        (iterator ones Nat).given n (start onesBehind ((Input.ofList []).extend ['b'])) := by
  refine ⟨fun _ => ⟨trivial, trivial⟩, ⟨⟨trivial, trivial⟩, trivial⟩, ?_, ?_⟩
  · refine .silent rfl (.silent rfl (.silent rfl (.silent rfl ?_)))
    exact .silent rfl (.silent rfl (.found rfl (.ended rfl)))
  · intro n h
    obtain ⟨n, h⟩ := Iterator.exists_mem_given_of_silent rfl h
    obtain ⟨n, h⟩ := Iterator.exists_mem_given_of_silent rfl h
    obtain ⟨n, h⟩ := Iterator.exists_mem_given_of_silent rfl h
    obtain ⟨n, h⟩ := Iterator.exists_mem_given_of_silent rfl h
    obtain ⟨n, h⟩ := Iterator.exists_mem_given_of_silent rfl h
    cases eq_one_of_givesOnes .asked _ _ _ n _ h

/-- With more items behind the input, the search gives the same matches in the same order, and among
them others that leave fewer items than the new ones. It may be endless where the search on the
input alone is not: then it gives the first ones, or none. -/
theorem results_extend (hrules : ∀ i, (rules i).IgnoresEnd) {e : Expression ε τ ρ α}
    (he : e.IgnoresEnd) (input : Input τ) (more : List τ) :
    (∀ n, ∃ m ≤ n, ((iterator rules α).given n (start e (input.extend more))).filter
        (Match.spares more) =
      ((iterator rules α).given m (start e input)).map (Match.extend more)) ∧
    (e.Ends rules (input.extend more) → e.Ends rules input ∧
      ∀ᶠ depth in atTop,
        ((e.unfolded rules depth).results (input.extend more)).filter (Match.spares more) =
          ((e.unfolded rules depth).results input).map (Match.extend more)) := by
  have hlonger : Longer more (start e input) (start e (input.extend more)) := .start input he
  refine ⟨hlonger.given_filter hrules, ?_⟩
  rintro ⟨run, hrun, hlong⟩
  obtain ⟨shorter, hshorter, hresults⟩ := hlonger.exists_yields hrules hrun
  have hshort := yields_unfolded hshorter
  refine ⟨⟨shorter, hshorter, hshort⟩, ?_⟩
  filter_upwards [hlong, hshort] with depth hdepth hother
  simp only [Parser.results, ← Attempt.results_toRun, hdepth, hother, hresults]

theorem ignoresEnd_groups : ∀ i, (groups i).IgnoresEnd
  | true => ⟨⟨⟨trivial, trivial⟩, ⟨trivial, trivial⟩, trivial⟩, trivial⟩
  | false => trivial

theorem results_extend_groups :
    (∀ i, (groups i).IgnoresEnd) ∧
      (rule false).Ends groups ((Input.ofList ['a']).extend ['a']) ∧
      ∀ᶠ depth in atTop,
        (((rule false).unfolded groups depth).results ((Input.ofList ['a']).extend ['a'])).filter
            (Match.spares ['a']) =
          (((rule false).unfolded groups depth).results (.ofList ['a'])).map
            (Match.extend ['a']) := by
  have hends := ends_of_guarded guarded_groups (rule false) ((Input.ofList ['a']).extend ['a'])
  have hextend := results_extend ignoresEnd_groups (e := rule false) trivial (.ofList ['a']) ['a']
  exact ⟨ignoresEnd_groups, hends, (hextend.2 hends).2⟩

end Expression

end ScanParse
