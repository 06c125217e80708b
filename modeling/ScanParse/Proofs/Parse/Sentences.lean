import ScanParse.Proofs.Parse.Arithmetic

namespace ScanParse.Arithmetic

open Filter ScanParse.Expression

variable {ε α β γ : Type}

section Soundness

/-- What is found and the content of the tokens taken for it are related. -/
def Sound (P : List TokenKind → α → Prop) (p : Parser ε Token α) : Prop :=
  p.Ensures fun input found =>
    ∃ taken, input.toList = taken ++ found.rest.toList ∧ P (content taken) found.value

variable {P : List TokenKind → α → Prop} {Q : List TokenKind → β → Prop}
  {R : List TokenKind → γ → Prop}

theorem Sound.mono {P' : List TokenKind → α → Prop} {p : Parser ε Token α} (hp : Sound P p)
    (h : ∀ kinds value, P kinds value → P' kinds value) : Sound P' p := by
  intro input found hfound
  obtain ⟨taken, htaken, hvalue⟩ := hp input found hfound
  exact ⟨taken, htaken, h _ _ hvalue⟩

theorem Sound.map {f : α → β} {p : Parser ε Token α} (hp : Sound P p)
    (h : ∀ kinds value, P kinds value → Q kinds (f value)) : Sound Q (p.map f) := by
  intro input found hfound
  rw [Parser.results_map, List.mem_map] at hfound
  obtain ⟨a, ha, rfl⟩ := hfound
  obtain ⟨taken, htaken, hvalue⟩ := hp input a ha
  exact ⟨taken, htaken, h _ _ hvalue⟩

theorem Sound.sequence {p : Parser ε Token α} {q : Parser ε Token β} (hp : Sound P p)
    (hq : Sound Q q) {join : α → β → γ}
    (hjoin : ∀ left right a b, P left a → Q right b → R (left ++ right) (join a b))
    {input : Input Token} {a : Match Token α} (ha : a ∈ p.results input) {b : Match Token β}
    (hb : b ∈ q.results a.rest) :
    ∃ taken, input.toList = taken ++ b.rest.toList ∧
      R (content taken) (join a.value b.value) := by
  obtain ⟨left, hleft, hP⟩ := hp input a ha
  obtain ⟨right, hright, hQ⟩ := hq a.rest b hb
  refine ⟨left ++ right, by rw [hleft, hright, List.append_assoc], ?_⟩
  rw [content_append]
  exact hjoin _ _ _ _ hP hQ

theorem Sound.map2 {f : α → β → γ} {p : Parser ε Token α} {q : Parser ε Token β}
    (hp : Sound P p) (hq : Sound Q q)
    (h : ∀ left right a b, P left a → Q right b → R (left ++ right) (f a b)) :
    Sound R (Parser.map2 f p q) := by
  intro input found hfound
  obtain ⟨a, ha, b, hb, rfl⟩ := Parser.mem_results_map2_iff.mp hfound
  exact hp.sequence hq h ha hb

theorem Sound.andThen {R : List TokenKind → α × β → Prop} {p : Parser ε Token α}
    {q : Parser ε Token β} (hp : Sound P p) (hq : Sound Q q)
    (h : ∀ left right a b, P left a → Q right b → R (left ++ right) (a, b)) :
    Sound R (p.andThen q) := by
  intro input found hfound
  obtain ⟨a, ha, b, hb, rfl⟩ := Parser.mem_results_andThen_iff.mp hfound
  exact hp.sequence hq h ha hb

theorem Sound.many {R : List TokenKind → List α → Prop} {p : Parser ε Token α} (hp : Sound P p)
    (hnil : R [] [])
    (hcons : ∀ left right a values, P left a → R right values →
      R (left ++ right) (a :: values)) : Sound R p.many := by
  intro input found hfound
  replace hfound := Parser.mem_results_many_iff.mp hfound
  generalize found.value = values, found.rest = rest at hfound ⊢
  induction hfound with
  | none input => exact ⟨[], rfl, hnil⟩
  | @more input rest item values hitem _ _ ih =>
      obtain ⟨left, hleft, hP⟩ := hp input item hitem
      obtain ⟨right, hright, hR⟩ := ih
      refine ⟨left ++ right, by rw [hleft, hright, List.append_assoc], ?_⟩
      rw [content_append]
      exact hcons _ _ _ _ hP hR

theorem Sound.orElse {p q : Parser ε Token α} (hp : Sound P p) (hq : Sound P q) :
    Sound P (p.orElse q) :=
  Parser.Ensures.orElse hp hq

theorem sound_satisfy (condition : Token → Bool) :
    Sound (fun kinds token => condition token = true ∧ kinds = content [token])
      (Parser.satisfy condition : Parser ε Token Token) := by
  intro input found hfound
  rw [Parser.results_satisfy, mem_firstItem_iff] at hfound
  exact ⟨[found.value], hfound.2.symm, hfound.1, rfl⟩

variable {family : Unit → Parser ε Token Tree}

theorem sound_blanks :
    Sound (fun kinds _ => kinds = []) ((blanks : Part ε _).parser family) := by
  refine (sound_satisfy Token.isWhitespace).many rfl ?_
  rintro _ _ token _ ⟨hblank, rfl⟩ rfl
  rw [content_of_blank (by simpa using hblank), List.append_nil]

theorem sound_lexeme {body : Part ε α} (h : Sound P (body.parser family)) :
    Sound P ((lexeme body).parser family) := by
  refine h.map2 sound_blanks ?_
  rintro left _ a _ hleft rfl
  rwa [List.append_nil]

theorem sound_exactly {kind : TokenKind} (hnumber : kind.isNumber = false)
    (hblank : (Token.ofKind kind).isWhitespace = false) :
    Sound (fun kinds _ => kinds = [kind]) ((exactly kind : Part ε Token).parser family) := by
  refine (sound_lexeme (sound_satisfy _)).mono ?_
  rintro _ ⟨found, position⟩ ⟨htoken, rfl⟩
  obtain rfl : found = kind := kind_of_beq hnumber htoken
  have hsolid : Token.isWhitespace ⟨found, position⟩ = false := hblank
  exact content_cons_of_solid hsolid []

theorem sound_number :
    Sound (Sentence .factor) ((number : Part ε Tree).parser family) := by
  refine (sound_lexeme (sound_satisfy isInteger)).map ?_
  rintro _ ⟨kind, position⟩ ⟨h, rfl⟩
  cases kind with
  | int value => exact .number value
  | _ => simp [isInteger] at h

theorem sound_operators (a b : Operator) :
    Sound (fun kinds op => (op = a ∨ op = b) ∧ kinds = [op.kind])
      (((operator a).orElse (operator b) : Part ε Operator).parser family) := by
  have hone : ∀ op : Operator, Sound (fun kinds found => found = op ∧ kinds = [op.kind])
      ((operator op : Part ε Operator).parser family) := by
    intro op
    have hexactly : Sound (fun kinds _ => kinds = [op.kind])
        ((exactly op.kind : Part ε Token).parser family) := by
      cases op <;> exact sound_exactly rfl rfl
    exact hexactly.map fun _ _ hkinds => ⟨rfl, hkinds⟩
  refine ((hone a).mono ?_).orElse ((hone b).mono ?_)
  · rintro kinds op ⟨rfl, rfl⟩
    exact ⟨.inl rfl, rfl⟩
  · rintro kinds op ⟨rfl, rfl⟩
    exact ⟨.inr rfl, rfl⟩

theorem sound_chain {operand : Part ε Tree} {operators : Part ε Operator} {ops : Operator → Prop}
    {P R : List TokenKind → Tree → Prop} (hoperand : Sound P (operand.parser family))
    (hoperators : Sound (fun kinds op => ops op ∧ kinds = [op.kind]) (operators.parser family))
    (hfirst : ∀ kinds tree, P kinds tree → R kinds tree)
    (hmore : ∀ op left right l r, ops op → R left l → P right r →
      R (left ++ op.kind :: right) (.binary op l r)) :
    Sound R ((chain operand operators).parser family) := by
  have hstep : Sound (fun kinds step => ∃ right, ops step.1 ∧ P right step.2 ∧
      kinds = step.1.kind :: right) ((operators.andThen operand).parser family) := by
    refine hoperators.andThen hoperand ?_
    rintro _ right op r ⟨hop, rfl⟩ hright
    exact ⟨right, hop, hright, rfl⟩
  have hsteps : Sound (fun kinds steps => ∀ left l, R left l → R (left ++ kinds) (fold l steps))
      ((operators.andThen operand).many.parser family) := by
    refine hstep.many ?_ ?_
    · intro left l hleft
      rwa [List.append_nil]
    · rintro _ behind ⟨op, r⟩ steps ⟨right, hop, hright, rfl⟩ hbehind left l hleft
      rw [← List.append_assoc]
      exact hbehind _ _ (hmore _ _ _ _ _ hop hleft hright)
  have hparts : Sound (fun kinds parts => R kinds (fold parts.1 parts.2))
      ((operand.andThen (operators.andThen operand).many).parser family) := by
    refine hoperand.andThen hsteps ?_
    intro left right l steps hleft hright
    exact hright left l (hfirst _ _ hleft)
  exact hparts.map fun _ _ h => h

theorem sound_factor (hfamily : Sound (Sentence .sum) (family ())) :
    Sound (Sentence .factor) ((factor : Part ε Tree).parser family) := by
  have hopen : Sound (fun kinds _ => kinds = [.openParen])
      ((exactly .openParen : Part ε Token).parser family) := sound_exactly rfl rfl
  have hclose : Sound (fun kinds _ => kinds = [.closeParen])
      ((exactly .closeParen : Part ε Token).parser family) := sound_exactly rfl rfl
  have hinner : Sound (fun kinds tree => ∃ inner, Sentence .sum inner tree ∧
      kinds = .openParen :: inner)
      (((exactly .openParen).keepRight (rule ()) : Part ε Tree).parser family) := by
    refine hopen.map2 hfamily ?_
    rintro _ inner _ tree rfl hinner
    exact ⟨inner, hinner, rfl⟩
  refine sound_number.orElse (hinner.map2 hclose ?_)
  rintro _ _ tree _ ⟨inner, hinner, rfl⟩ rfl
  exact .parentheses hinner

theorem sound_sum (hfamily : Sound (Sentence .sum) (family ())) :
    Sound (Sentence .sum) ((sum : Part ε Tree).parser family) := by
  have hterm : Sound (Sentence .term) ((term : Part ε Tree).parser family) := by
    refine sound_chain (sound_factor hfamily) (sound_operators _ _) ?_ ?_
    · intro kinds tree h
      exact .factor h
    · intro op left right l r hop hleft hright
      exact .product hop hleft hright
  refine sound_chain hterm (sound_operators _ _) ?_ ?_
  · intro kinds tree h
    exact .term h
  · intro op left right l r hop hleft hright
    exact .sum hop hleft hright

theorem sound_rule (depth : Nat) :
    Sound (Sentence .sum) ((rules : Rules ε Token _).family depth ()) := by
  induction depth with
  | zero => exact Parser.ensures_fail
  | succ depth ih =>
      intro input found hfound
      rw [Rules.family, Parser.results_unfold_succ] at hfound
      exact sound_sum ih input found hfound

theorem sound_program (depth : Nat) {input : Input Token} {found : Match Token Tree}
    (h : found ∈ ((program : Part ε Tree).unfolded rules depth).results input) :
    Sentence .sum (content input.toList) found.value := by
  obtain ⟨a, ha, b, hb, rfl⟩ := Parser.mem_results_map2_iff.mp h
  have hsum : Sound (Sentence .sum)
      ((blanks.keepRight sum : Part ε Tree).unfolded rules depth) := by
    refine sound_blanks.map2 (sound_sum (sound_rule depth)) ?_
    rintro _ right _ tree rfl hright
    exact hright
  obtain ⟨taken, htaken, hsentence⟩ := hsum input a ha
  obtain ⟨hempty, -⟩ := Parser.mem_results_eof_iff.mp hb
  rw [hempty, List.append_nil] at htaken
  rwa [htaken]

end Soundness

section Completeness

/-- From some depth on, the value is found behind the tokens taken for it, whatever
follows. -/
def Finds (e : Part ε α) (taken : List Token) (value : α) : Prop :=
  ∀ᶠ depth in atTop, ∀ rest : Input Token,
    ⟨value, rest⟩ ∈ (e.unfolded rules depth).results (.ofList (taken ++ rest.toList))

theorem Finds.map (f : α → β) {e : Part ε α} {taken : List Token} {value : α}
    (h : Finds e taken value) : Finds (e.map f) taken (f value) := by
  filter_upwards [h] with depth hdepth
  intro rest
  rw [unfolded, parser, Parser.results_map, List.mem_map]
  exact ⟨⟨value, rest⟩, hdepth rest, rfl⟩

theorem Finds.sequence {first : Part ε α} {second : Part ε β} {left right : List Token} {a : α}
    {b : β} (hfirst : Finds first left a) (hsecond : Finds second right b) :
    ∀ᶠ depth in atTop, ∀ rest : Input Token,
      ⟨a, .ofList (right ++ rest.toList)⟩ ∈
          (first.unfolded rules depth).results (.ofList (left ++ right ++ rest.toList)) ∧
        ⟨b, rest⟩ ∈ (second.unfolded rules depth).results (.ofList (right ++ rest.toList)) := by
  filter_upwards [hfirst, hsecond] with depth hleft hright
  intro rest
  rw [List.append_assoc]
  exact ⟨hleft (.ofList (right ++ rest.toList)), hright rest⟩

theorem Finds.map2 (f : α → β → γ) {first : Part ε α} {second : Part ε β}
    {left right : List Token} {a : α} {b : β} (hfirst : Finds first left a)
    (hsecond : Finds second right b) : Finds (map2 f first second) (left ++ right) (f a b) := by
  filter_upwards [hfirst.sequence hsecond] with depth hdepth
  intro rest
  obtain ⟨ha, hb⟩ := hdepth rest
  exact Parser.mem_results_map2_iff.mpr ⟨_, ha, _, hb, rfl⟩

theorem Finds.andThen {first : Part ε α} {second : Part ε β} {left right : List Token} {a : α}
    {b : β} (hfirst : Finds first left a) (hsecond : Finds second right b) :
    Finds (first.andThen second) (left ++ right) (a, b) := by
  filter_upwards [hfirst.sequence hsecond] with depth hdepth
  intro rest
  obtain ⟨ha, hb⟩ := hdepth rest
  exact Parser.mem_results_andThen_iff.mpr ⟨_, ha, _, hb, rfl⟩

theorem Finds.orElse_left {first : Part ε α} {taken : List Token} {value : α}
    (h : Finds first taken value) (second : Part ε α) :
    Finds (first.orElse second) taken value := by
  filter_upwards [h] with depth hdepth
  intro rest
  rw [unfolded, parser, Parser.results_orElse, List.mem_append]
  exact .inl (hdepth rest)

theorem Finds.orElse_right {second : Part ε α} {taken : List Token} {value : α}
    (first : Part ε α) (h : Finds second taken value) :
    Finds (first.orElse second) taken value := by
  filter_upwards [h] with depth hdepth
  intro rest
  rw [unfolded, parser, Parser.results_orElse, List.mem_append]
  exact .inr (hdepth rest)

theorem Finds.rule {taken : List Token} {tree : Tree} (h : Finds (ε := ε) sum taken tree) :
    Finds (ε := ε) (rule ()) taken tree := by
  obtain ⟨depth, hdepth⟩ := eventually_atTop.mp h
  refine eventually_atTop.mpr ⟨depth + 1, ?_⟩
  intro later hlater rest
  obtain ⟨later, rfl⟩ : ∃ n, later = n + 1 := ⟨later - 1, by omega⟩
  rw [unfolded_rule_succ, Parser.results_delay]
  exact hdepth later (by omega) rest

theorem finds_satisfy {condition : Token → Bool} {token : Token} (h : condition token = true) :
    Finds (ε := ε) (satisfy condition) [token] token := by
  refine .of_forall fun depth rest => ?_
  rw [unfolded, parser, Parser.results_satisfy, mem_firstItem_iff]
  exact ⟨h, rfl⟩

theorem finds_blanks {tokens : List Token} (h : ∀ token ∈ tokens, token.isWhitespace = true) :
    Finds (ε := ε) blanks tokens tokens := by
  refine .of_forall fun depth rest => Parser.mem_results_many_of_repeats ?_
  induction tokens with
  | nil =>
      rw [List.nil_append, Input.ofList_toList]
      exact .none rest
  | cons token tokens ih =>
      have hitem : (⟨token, .ofList (tokens ++ rest.toList)⟩ : Match Token Token) ∈
          (Parser.satisfy Token.isWhitespace : Parser ε Token Token).results
            (.ofList (token :: tokens ++ rest.toList)) := by
        rw [Parser.results_satisfy, mem_firstItem_iff]
        exact ⟨h token List.mem_cons_self, rfl⟩
      refine .more hitem (Nat.lt_succ_self _) (ih ?_)
      intro other hother
      exact h other (List.mem_cons_of_mem _ hother)

theorem finds_lexeme {condition : Token → Bool} {token : Token} (h : condition token = true)
    {tokens : List Token} (hblanks : ∀ blank ∈ tokens, blank.isWhitespace = true) :
    Finds (ε := ε) (lexeme (satisfy condition)) (token :: tokens) token :=
  (finds_satisfy h).map2 _ (finds_blanks hblanks)

theorem finds_exactly {token : Token} {tokens : List Token}
    (hblanks : ∀ blank ∈ tokens, blank.isWhitespace = true) :
    Finds (ε := ε) (exactly token.kind) (token :: tokens) token :=
  finds_lexeme ((TokenKind.same_iff _ _).mpr (.inl rfl)) hblanks

variable {operand : Part ε Tree} {operators : Part ε Operator}

theorem mem_results_chain_iff {family : Unit → Parser ε Token Tree} {input : Input Token}
    {found : Match Token Tree} :
    found ∈ ((chain operand operators).parser family).results input ↔
      ∃ first ∈ (operand.parser family).results input, ∃ steps,
        ((operators.andThen operand).parser family).Repeats first.rest steps found.rest ∧
          fold first.value steps = found.value := by
  rw [chain, parser, Parser.results_map, List.mem_map]
  constructor
  · rintro ⟨parts, hparts, rfl⟩
    obtain ⟨first, hfirst, steps, hsteps, rfl⟩ := Parser.mem_results_andThen_iff.mp hparts
    exact ⟨first, hfirst, steps.value, Parser.mem_results_many_iff.mp hsteps, rfl⟩
  · rintro ⟨first, hfirst, steps, hsteps, hfold⟩
    refine ⟨⟨(first.value, steps), found.rest⟩, ?_, Match.ext hfold rfl⟩
    exact Parser.mem_results_andThen_iff.mpr
      ⟨first, hfirst, ⟨steps, found.rest⟩, Parser.mem_results_many_of_repeats hsteps, rfl⟩

theorem Finds.single {taken : List Token} {tree : Tree} (h : Finds operand taken tree) :
    Finds (chain operand operators) taken tree := by
  filter_upwards [h] with depth hdepth
  intro rest
  exact mem_results_chain_iff.mpr ⟨⟨tree, rest⟩, hdepth rest, [], .none rest, rfl⟩

theorem Finds.snoc {left middle right : List Token} {op : Operator} {l r : Tree}
    (hleft : Finds (chain operand operators) left l) (hmiddle : Finds operators middle op)
    (hright : Finds operand right r) (hnil : middle ≠ []) :
    Finds (chain operand operators) (left ++ (middle ++ right)) (.binary op l r) := by
  filter_upwards [hleft, hmiddle.andThen hright] with depth hchain hstep
  intro rest
  obtain ⟨first, hfirst, steps, hsteps, hfold⟩ :=
    mem_results_chain_iff.mp (hchain (.ofList (middle ++ right ++ rest.toList)))
  rw [List.append_assoc left]
  refine mem_results_chain_iff.mpr ⟨first, hfirst, steps ++ [(op, r)], ?_, ?_⟩
  · refine hsteps.snoc (hstep rest) ?_
    have hlength := List.length_pos_of_ne_nil hnil
    change rest.size < _
    rw [Input.size_eq_length, Input.size_ofList, List.length_append, List.length_append]
    omega
  · rw [fold, List.foldl_append]
    exact congrArg (Tree.binary op · r) hfold

theorem finds_operators {a b op : Operator} (hop : op = a ∨ op = b) {token : Token}
    (htoken : token.kind = op.kind) {tokens : List Token}
    (hblanks : ∀ blank ∈ tokens, blank.isWhitespace = true) :
    Finds (ε := ε) ((operator a).orElse (operator b)) (token :: tokens) op := by
  have hone : Finds (ε := ε) (operator op) (token :: tokens) op := by
    rw [operator, ← htoken]
    exact (finds_exactly hblanks).map fun _ => op
  rcases hop with rfl | rfl
  · exact hone.orElse_left _
  · exact .orElse_right _ hone

theorem finds_binary {a b op : Operator} {left right : List TokenKind} {l r : Tree}
    (hop : op = a ∨ op = b) (hnil : left ≠ [])
    (hleft : ∀ taken, content taken = left → Solid taken →
      Finds (chain operand ((operator a).orElse (operator b))) taken l)
    (hright : ∀ taken, content taken = right → Solid taken → Finds operand taken r)
    {taken : List Token} (htaken : content taken = left ++ op.kind :: right)
    (hsolid : Solid taken) :
    Finds (chain operand ((operator a).orElse (operator b))) taken (.binary op l r) := by
  obtain ⟨before, behind, rfl, hbefore, hbehind, hbehindSolid⟩ := exists_split htaken
  obtain ⟨token, tokens, rest, rfl, hkind, hblanks, hrest, hrestSolid⟩ :=
    exists_cons hbehind hbehindSolid
  have hbeforeSolid : Solid before := hsolid.left (hbefore ▸ hnil)
  rw [← List.cons_append]
  exact (hleft before hbefore hbeforeSolid).snoc (finds_operators hop hkind hblanks)
    (hright rest hrest hrestSolid) (List.cons_ne_nil _ _)

theorem sentence_ne_nil {level : Level} {kinds : List TokenKind} {tree : Tree}
    (h : Sentence level kinds tree) : kinds ≠ [] := by
  induction h with
  | factor _ ih | term _ ih => exact ih
  | _ => simp

/-- The part of the grammar for a level. -/
def Level.part : Level → Part ε Tree
  | sum => Arithmetic.sum
  | term => Arithmetic.term
  | factor => Arithmetic.factor

theorem finds_sentence {level : Level} {kinds : List TokenKind} {tree : Tree}
    (h : Sentence level kinds tree) {taken : List Token} (htaken : content taken = kinds)
    (hsolid : Solid taken) : Finds (ε := ε) level.part taken tree := by
  induction h generalizing taken with
  | number value =>
      obtain ⟨token, tokens, rest, rfl, hkind, hblanks, hrest, hsolid⟩ := exists_cons htaken hsolid
      obtain rfl := hsolid.eq_nil hrest
      rw [List.append_nil]
      refine .orElse_left ?_ _
      have hinteger : isInteger token = true := by rw [isInteger, hkind]
      have hnumber := (finds_lexeme (ε := ε) hinteger hblanks).map leaf
      rwa [leaf, hkind] at hnumber
  | @parentheses kinds tree hinner ih =>
      obtain ⟨opening, openBlanks, rest, rfl, hopen, hopenBlanks, hrest, hsolid⟩ :=
        exists_cons htaken hsolid
      obtain ⟨inner, behind, rfl, hinnerContent, hbehind, hbehindSolid⟩ := exists_split hrest
      obtain ⟨closing, closeBlanks, rest, rfl, hclose, hcloseBlanks, hrest, hrestSolid⟩ :=
        exists_cons hbehind hbehindSolid
      obtain rfl := hrestSolid.eq_nil hrest
      have hsum := ih hinnerContent (hsolid.left (hinnerContent ▸ sentence_ne_nil hinner))
      have hopening : Finds (ε := ε) (exactly .openParen) (opening :: openBlanks) opening :=
        hopen ▸ finds_exactly hopenBlanks
      have hclosing : Finds (ε := ε) (exactly .closeParen) (closing :: closeBlanks) closing :=
        hclose ▸ finds_exactly hcloseBlanks
      have hfound := (hopening.map2 (fun _ value => value) (Finds.rule hsum)).map2
        (fun value _ => value) hclosing
      rw [List.append_nil, ← List.cons_append, ← List.append_assoc]
      exact .orElse_right _ hfound
  | factor _ ih => exact (ih htaken hsolid).single
  | product hop hl _ ihleft ihright =>
      exact finds_binary hop (sentence_ne_nil hl) (fun _ => ihleft) (fun _ => ihright) htaken
        hsolid
  | term _ ih => exact (ih htaken hsolid).single
  | sum hop hl _ ihleft ihright =>
      exact finds_binary hop (sentence_ne_nil hl) (fun _ => ihleft) (fun _ => ihright) htaken
        hsolid

theorem mem_results_program {tokens : List Token} {tree : Tree}
    (h : Sentence .sum (content tokens) tree) :
    ∀ᶠ depth in atTop, ⟨tree, .ofList []⟩ ∈
      ((program : Part ε Tree).unfolded rules depth).results (.ofList tokens) := by
  obtain ⟨front, rest, rfl, hfront, hrest, hsolid⟩ := exists_blanks tokens
  have hfound : Finds (ε := ε) (blanks.keepRight sum) (front ++ rest) tree :=
    (finds_blanks hfront).map2 _ (finds_sentence h hrest hsolid)
  filter_upwards [hfound] with depth hdepth
  have hsum := hdepth (.ofList [])
  rw [Input.toList_ofList, List.append_nil] at hsum
  exact Parser.mem_results_map2_iff.mpr
    ⟨_, hsum, ⟨(), .ofList []⟩, Parser.mem_results_eof_iff.mpr ⟨rfl, rfl⟩, rfl⟩

end Completeness

section Guarded

theorem consumes_exactly (kind : TokenKind) :
    (exactly kind : Part ε Token).Consumes rules := by
  intro depth input found hfound
  obtain ⟨a, ha, b, hb, rfl⟩ := Parser.mem_results_map2_iff.mp hfound
  have hfirst : a.rest.size < input.size := consumes_satisfy _ depth input a ha
  have hblanks : b.rest.size ≤ a.rest.size := by
    change b ∈ (unfolded rules depth blanks).results a.rest at hb
    exact size_le_of_mem_results hb
  exact Nat.lt_of_le_of_lt hblanks hfirst

theorem not_unguarded_lexeme (condition : Token → Bool) (i : Unit) :
    ¬(lexeme (satisfy condition) : Part ε Token).Unguarded rules i := by
  simp [lexeme, blanks, unguarded_keepLeft_iff, Unguarded]

theorem not_unguarded_chain {operand : Part ε Tree} {operators : Part ε Operator} {i : Unit}
    (hoperand : ¬operand.Unguarded rules i) (hoperators : ¬operators.Unguarded rules i) :
    ¬(chain operand operators).Unguarded rules i := by
  simp [chain, Unguarded, hoperand, hoperators]

theorem guarded_rules : (rules : Rules ε Token _).Guarded := by
  have hoperators : ∀ (a b : Operator) (i : Unit),
      ¬((operator a).orElse (operator b) : Part ε Operator).Unguarded rules i := by
    intro a b i
    rintro (h | h)
    · exact not_unguarded_lexeme _ i h
    · exact not_unguarded_lexeme _ i h
  have hfactor : ∀ i, ¬(factor : Part ε Tree).Unguarded rules i := by
    rintro i (h | h)
    · exact not_unguarded_lexeme _ i h
    · rw [unguarded_keepLeft_iff, unguarded_keepRight_iff] at h
      rcases h with (h | ⟨hopen, -⟩) | ⟨-, h⟩
      · exact not_unguarded_lexeme _ i h
      · exact hopen (consumes_exactly _)
      · exact not_unguarded_lexeme _ i h
  refine ⟨fun j => ⟨j, fun i h => ?_⟩⟩
  exact absurd h
    (not_unguarded_chain (not_unguarded_chain (hfactor i) (hoperators _ _ i)) (hoperators _ _ i))

end Guarded

/-- The search for all of the tokens ends. It has found one tree if they are a sentence
apart from blanks, the one of the sentence, and nothing otherwise. -/
theorem search_finds_sentence (tokens : List Token) :
    (program : Part ε Tree).Ends rules (.ofList tokens) ∧
      ∃ trees : List Tree,
        (∀ᶠ depth in atTop,
          (((program : Part ε Tree).unfolded rules depth).startComplete
            (.ofList tokens)).results = trees) ∧
        trees.length ≤ 1 ∧ ∀ tree, tree ∈ trees ↔ Sentence .sum (content tokens) tree := by
  have hends : (program : Part ε Tree).Ends rules (.ofList tokens) :=
    ends_of_guarded guarded_rules program _
  obtain ⟨trees, htrees⟩ := hends.exists_complete
  obtain ⟨depth, hdepth⟩ := htrees.exists
  refine ⟨hends, trees, htrees, ?_, ?_⟩
  · rw [← hdepth]
    exact (Parser.length_results_startComplete_le _ _).trans (length_results_program_le depth _)
  · intro tree
    constructor
    · intro htree
      rw [← hdepth, Parser.mem_results_startComplete_iff] at htree
      exact sound_program depth htree
    · intro hsentence
      obtain ⟨later, hlater, hfound⟩ := (htrees.and (mem_results_program hsentence)).exists
      rwa [← hlater, Parser.mem_results_startComplete_iff]

end ScanParse.Arithmetic
