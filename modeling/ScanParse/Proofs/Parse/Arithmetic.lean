import ScanParse.Proofs.Lexical.Head
import ScanParse.Proofs.Parse.Lookahead
import ScanParse.Proofs.Parse.Termination

/-!
Arithmetic over tokens: sums of products of numbers and parentheses, with blanks
anywhere between. Blanks and operands may be cut in many ways, but only one search
reaches the end of the tokens, and it finds the tree that the grammar gives them.
-/

namespace ScanParse.Arithmetic

open Filter ScanParse.Expression

variable {ε α β : Type}

inductive Operator where
  | add
  | subtract
  | multiply
  | divide
deriving DecidableEq

def Operator.kind : Operator → TokenKind
  | add => .symbol "+"
  | subtract => .symbol "-"
  | multiply => .symbol "*"
  | divide => .symbol "/"

inductive Tree where
  | number (value : Int64)
  | binary (operator : Operator) (left right : Tree)

/-- A part of the grammar; it may refer to the only rule, that for sums. -/
abbrev Part (ε α : Type) : Type 1 :=
  Expression ε Token (fun _ : Unit => Tree) α

def blanks : Part ε (List Token) :=
  many (satisfy Token.isWhitespace)

def lexeme (body : Part ε α) : Part ε α :=
  body.keepLeft blanks

def exactly (kind : TokenKind) : Part ε Token :=
  lexeme (token (Token.ofKind kind))

def isInteger (token : Token) : Bool :=
  match token.kind with
  | .int _ => true
  | _ => false

/-- The tree of an integer; nothing else is given to it. -/
def leaf (token : Token) : Tree :=
  match token.kind with
  | .int value => .number value
  | _ => .number 0

def number : Part ε Tree :=
  (lexeme (satisfy isInteger)).map leaf

def operator (op : Operator) : Part ε Operator :=
  (exactly op.kind).replace op

/-- The tree that leans to the left. -/
def fold (first : Tree) (steps : List (Operator × Tree)) : Tree :=
  steps.foldl (fun left step => .binary step.1 left step.2) first

def chain (operand : Part ε Tree) (operators : Part ε Operator) : Part ε Tree :=
  (operand.andThen (operators.andThen operand).many).map fun parts => fold parts.1 parts.2

def factor : Part ε Tree :=
  number.orElse (((exactly .openParen).keepRight (rule ())).keepLeft (exactly .closeParen))

def term : Part ε Tree :=
  chain factor ((operator .multiply).orElse (operator .divide))

def sum : Part ε Tree :=
  chain term ((operator .add).orElse (operator .subtract))

def rules : Rules ε Token (fun _ : Unit => Tree) :=
  fun _ => sum

def program : Part ε Tree :=
  (blanks.keepRight sum).keepLeft eof

inductive Level where
  | sum
  | term
  | factor

/-- The sentences of each level, without blanks, and their trees: operators of one level
associate to the left, and those of terms bind tighter. -/
inductive Sentence : Level → List TokenKind → Tree → Prop
  | number (value : Int64) : Sentence .factor [.int value] (.number value)
  | parentheses {kinds : List TokenKind} {tree : Tree} :
      Sentence .sum kinds tree → Sentence .factor (.openParen :: (kinds ++ [.closeParen])) tree
  | factor {kinds : List TokenKind} {tree : Tree} :
      Sentence .factor kinds tree → Sentence .term kinds tree
  | product {op : Operator} {left right : List TokenKind} {l r : Tree} :
      op = .multiply ∨ op = .divide → Sentence .term left l → Sentence .factor right r →
        Sentence .term (left ++ op.kind :: right) (.binary op l r)
  | term {kinds : List TokenKind} {tree : Tree} :
      Sentence .term kinds tree → Sentence .sum kinds tree
  | sum {op : Operator} {left right : List TokenKind} {l r : Tree} :
      op = .add ∨ op = .subtract → Sentence .sum left l → Sentence .term right r →
        Sentence .sum (left ++ op.kind :: right) (.binary op l r)

/-- The kinds of the tokens that are no blanks. -/
def content (tokens : List Token) : List TokenKind :=
  (tokens.filter fun token => !token.isWhitespace).map (·.kind)

section Content

@[simp] theorem content_append (left right : List Token) :
    content (left ++ right) = content left ++ content right := by
  simp [content]

theorem content_of_blank {tokens : List Token}
    (h : ∀ token ∈ tokens, token.isWhitespace = true) : content tokens = [] := by
  rw [content, List.filter_eq_nil_iff.mpr, List.map_nil]
  intro token htoken
  simp [h token htoken]

theorem content_cons_of_solid {token : Token} (h : token.isWhitespace = false)
    (tokens : List Token) : content (token :: tokens) = token.kind :: content tokens := by
  simp [content, h]

/-- The tokens do not begin with a blank. -/
def Solid (tokens : List Token) : Prop :=
  ∀ token ∈ tokens.head?, token.isWhitespace = false

theorem exists_blanks (tokens : List Token) :
    ∃ blanks rest, tokens = blanks ++ rest ∧ (∀ token ∈ blanks, token.isWhitespace = true) ∧
      content rest = content tokens ∧ Solid rest := by
  induction tokens with
  | nil => exact ⟨[], [], rfl, by simp, rfl, by simp [Solid]⟩
  | cons token tokens ih =>
      cases h : token.isWhitespace with
      | false => exact ⟨[], token :: tokens, rfl, by simp, rfl, by simpa [Solid] using h⟩
      | true =>
          obtain ⟨blanks, rest, rfl, hblanks, hrest, hsolid⟩ := ih
          refine ⟨token :: blanks, rest, rfl, ?_, ?_, hsolid⟩
          · rintro other hother
            rcases List.mem_cons.mp hother with rfl | hother
            · exact h
            · exact hblanks other hother
          · rw [hrest]
            simp [content, h]

theorem exists_split {tokens : List Token} {left right : List TokenKind}
    (h : content tokens = left ++ right) :
    ∃ before behind, tokens = before ++ behind ∧ content before = left ∧
      content behind = right ∧ Solid behind := by
  obtain ⟨l, r, hfilter, rfl, rfl⟩ := List.map_eq_append_iff.mp h
  obtain ⟨before, behind, rfl, rfl, rfl⟩ := List.filter_eq_append_iff.mp hfilter
  obtain ⟨blanks, rest, rfl, hblanks, hrest, hsolid⟩ := exists_blanks behind
  refine ⟨before ++ blanks, rest, by simp, ?_, hrest, hsolid⟩
  rw [content_append, content_of_blank hblanks, List.append_nil]
  rfl

theorem Solid.left {left right : List Token} (h : Solid (left ++ right))
    (hleft : content left ≠ []) : Solid left := by
  cases left with
  | nil => exact absurd rfl hleft
  | cons token left => simpa [Solid] using h

theorem Solid.eq_nil {tokens : List Token} (h : Solid tokens) (hcontent : content tokens = []) :
    tokens = [] := by
  cases tokens with
  | nil => rfl
  | cons token tokens =>
      have htoken : token.isWhitespace = false := by simpa [Solid] using h
      simp [content_cons_of_solid htoken] at hcontent

theorem exists_cons {tokens : List Token} {kind : TokenKind} {kinds : List TokenKind}
    (h : content tokens = kind :: kinds) (hsolid : Solid tokens) :
    ∃ token blanks rest, tokens = token :: (blanks ++ rest) ∧ token.kind = kind ∧
      (∀ blank ∈ blanks, blank.isWhitespace = true) ∧ content rest = kinds ∧ Solid rest := by
  cases tokens with
  | nil => simp [content] at h
  | cons token tokens =>
      have htoken : token.isWhitespace = false := by simpa [Solid] using hsolid
      rw [content_cons_of_solid htoken, List.cons.injEq] at h
      obtain ⟨blanks, rest, rfl, hblanks, hrest, hsolid⟩ := exists_blanks tokens
      exact ⟨token, blanks, rest, rfl, h.1, hblanks, hrest.trans h.2, hsolid⟩

end Content

section Lookahead

/-- The token is written like one of the operators. -/
def isOperator (ops : List Operator) (token : Token) : Bool :=
  ops.any fun op => token == Token.ofKind op.kind

def isOpening (token : Token) : Bool :=
  isInteger token || token == Token.ofKind .openParen

theorem beq_ofKind (token : Token) (kind : TokenKind) :
    (token == Token.ofKind kind) = token.kind.same kind := rfl

theorem kind_of_beq {token : Token} {kind : TokenKind} (hkind : kind.isNumber = false)
    (h : (token == Token.ofKind kind) = true) : token.kind = kind := by
  rcases (TokenKind.same_iff token.kind kind).mp h with hsame | ⟨_, _, _, -, rfl⟩
  · exact hsame
  · simp [TokenKind.isNumber] at hkind

theorem kind_of_isWhitespace {token : Token} (h : token.isWhitespace = true) :
    token.kind = .tab ∨ token.kind = .space := by
  obtain ⟨kind, position⟩ := token
  cases kind <;> simp [Token.isWhitespace] at h ⊢

theorem kind_of_isOperator {ops : List Operator} {token : Token}
    (h : isOperator ops token = true) : ∃ op ∈ ops, token.kind = op.kind := by
  obtain ⟨op, hop, hbeq⟩ := List.any_eq_true.mp h
  have hkind : op.kind.isNumber = false := by cases op <;> rfl
  exact ⟨op, hop, kind_of_beq hkind hbeq⟩

theorem kind_injective : Function.Injective Operator.kind := by
  intro a b h
  cases a <;> cases b <;> first | rfl | simp [Operator.kind] at h

theorem isOperator_of_isWhitespace (ops : List Operator) {token : Token}
    (h : token.isWhitespace = true) : isOperator ops token = false := by
  by_contra hops
  obtain ⟨op, -, hop⟩ := kind_of_isOperator (by simpa using hops)
  rcases kind_of_isWhitespace h with hkind | hkind
  · cases op <;> simp [hkind, Operator.kind] at hop
  · cases op <;> simp [hkind, Operator.kind] at hop

theorem isOperator_of_isOperator {ops others : List Operator} (hops : ∀ op ∈ ops, op ∉ others)
    {token : Token} (h : isOperator ops token = true) : isOperator others token = false := by
  by_contra hothers
  obtain ⟨op, hop, hkind⟩ := kind_of_isOperator h
  obtain ⟨other, hother, hsame⟩ := kind_of_isOperator (by simpa using hothers)
  obtain rfl : op = other := kind_injective (hkind.symm.trans hsame)
  exact hops op hop hother

theorem isOpening_of_isWhitespace {token : Token} (h : token.isWhitespace = true) :
    isOpening token = false := by
  rcases kind_of_isWhitespace h with hkind | hkind
  · simp [isOpening, isInteger, beq_ofKind, hkind, TokenKind.same]
  · simp [isOpening, isInteger, beq_ofKind, hkind, TokenKind.same]

theorem beq_openParen_of_isInteger {token : Token} (h : isInteger token = true) :
    (token == Token.ofKind .openParen) = false := by
  obtain ⟨kind, position⟩ := token
  cases kind <;> first | rfl | simp [isInteger] at h

theorem beq_closeParen_of_isWhitespace {token : Token} (h : token.isWhitespace = true) :
    (token == Token.ofKind .closeParen) = false := by
  rcases kind_of_isWhitespace h with hkind | hkind
  · rw [beq_ofKind, hkind]
    rfl
  · rw [beq_ofKind, hkind]
    rfl

theorem beq_closeParen_of_isOperator {ops : List Operator} {token : Token}
    (h : isOperator ops token = true) : (token == Token.ofKind .closeParen) = false := by
  obtain ⟨op, -, hkind⟩ := kind_of_isOperator h
  rw [beq_ofKind, hkind]
  cases op <;> rfl

variable (family : Unit → Parser ε Token Tree)

theorem decided_blanks : (blanks.parser family).Decided Token.isWhitespace := by
  have hone : (Parser.satisfy Token.isWhitespace : Parser ε Token Token).Decided
      fun _ => false := .of_length (Parser.length_results_satisfy_le _)
  have hmany := hone.many (Parser.needs_satisfy _) (by simp)
  simp only [Bool.or_false] at hmany
  exact hmany

variable {family}

theorem decided_lexeme {body : Part ε α}
    (h : ∀ input, ((body.parser family).results input).length ≤ 1) :
    ((lexeme body).parser family).Decided Token.isWhitespace := by
  have hbody : (body.parser family).Decided fun _ => false := .of_length h
  refine hbody.keepLeft (decided_blanks family) ?_
  intro rest hrest
  simp [Input.beginsWith] at hrest

theorem decided_exactly (kind : TokenKind) :
    ((exactly kind : Part ε Token).parser family).Decided Token.isWhitespace :=
  decided_lexeme (Parser.length_results_satisfy_le _)

theorem needs_exactly (kind : TokenKind) :
    ((exactly kind : Part ε Token).parser family).Needs (· == Token.ofKind kind) :=
  (Parser.needs_satisfy _).keepLeft _

theorem decided_number : ((number : Part ε Tree).parser family).Decided Token.isWhitespace :=
  (decided_lexeme (Parser.length_results_satisfy_le _)).map leaf

theorem needs_number : ((number : Part ε Tree).parser family).Needs isInteger :=
  ((Parser.needs_satisfy _).keepLeft _).map leaf

theorem needs_operator (op : Operator) :
    ((operator op : Part ε Operator).parser family).Needs (isOperator [op]) := by
  refine Parser.Needs.mono ((needs_exactly op.kind).map fun _ => op) ?_
  intro token h
  simpa [isOperator] using h

theorem needs_operators (a b : Operator) :
    (((operator a).orElse (operator b) : Part ε Operator).parser family).Needs
      (isOperator [a, b]) := by
  refine Parser.Needs.orElse ((needs_operator a).mono ?_) ((needs_operator b).mono ?_)
  · intro token h
    simp_all [isOperator]
  · intro token h
    simp_all [isOperator]

theorem decided_operators {a b : Operator} (hab : a ≠ b) :
    (((operator a).orElse (operator b) : Part ε Operator).parser family).Decided
      Token.isWhitespace := by
  refine Parser.Decided.orElse ((decided_exactly a.kind).map fun _ => a)
    ((decided_exactly b.kind).map fun _ => b) (needs_operator a) (needs_operator b) ?_
  intro token h
  exact isOperator_of_isOperator (by simpa using hab) h

theorem decided_chain {operand : Part ε Tree} {operators : Part ε Operator}
    {b c d : Token → Bool} (hoperand : (operand.parser family).Decided d)
    (hopening : (operand.parser family).Needs b)
    (hoperators : (operators.parser family).Decided Token.isWhitespace)
    (hneeds : (operators.parser family).Needs c)
    (hblank : ∀ token, Token.isWhitespace token = true → b token = false)
    (hcd : ∀ token, d token = true → c token = false) :
    ((chain operand operators).parser family).Decided fun token => c token || d token := by
  have hstep : ((operators.andThen operand).parser family).Decided d :=
    hoperators.andThen hoperand (hopening.nothing hblank d)
  have hstepNeeds : ((operators.andThen operand).parser family).Needs c := hneeds.andThen _
  have hparts := hoperand.andThen (hstep.many hstepNeeds hcd)
    (hstepNeeds.nothing_many hcd (by simp +contextual))
  exact hparts.map fun parts => fold parts.1 parts.2

theorem needs_chain {operand : Part ε Tree} (operators : Part ε Operator) {b : Token → Bool}
    (h : (operand.parser family).Needs b) :
    ((chain operand operators).parser family).Needs b := by
  have hparts := h.andThen ((operators.andThen operand).many.parser family)
  exact hparts.map fun parts => fold parts.1 parts.2

/-- What may go on behind a sum: blanks and operators. -/
def goesOn (token : Token) : Bool :=
  isOperator [.add, .subtract] token ||
    (isOperator [.multiply, .divide] token || token.isWhitespace)

theorem beq_closeParen_of_goesOn {token : Token} (h : goesOn token = true) :
    (token == Token.ofKind .closeParen) = false := by
  rw [goesOn, Bool.or_eq_true, Bool.or_eq_true] at h
  rcases h with h | h | h
  · exact beq_closeParen_of_isOperator h
  · exact beq_closeParen_of_isOperator h
  · exact beq_closeParen_of_isWhitespace h

theorem needs_factor : ((factor : Part ε Tree).parser family).Needs isOpening := by
  refine Parser.Needs.orElse (needs_number.mono ?_)
    ((((needs_exactly .openParen).keepRight _).keepLeft _).mono ?_)
  · intro token h
    simp [isOpening, h]
  · intro token h
    simp [isOpening, h]

theorem decided_factor (hneeds : (family ()).Needs isOpening)
    (hdecided : (family ()).Decided goesOn) :
    ((factor : Part ε Tree).parser family).Decided Token.isWhitespace := by
  have hinner : (((exactly .openParen).keepRight (rule ()) : Part ε Tree).parser family).Decided
      goesOn :=
    (decided_exactly .openParen).keepRight hdecided
      (hneeds.nothing (fun _ => isOpening_of_isWhitespace) _)
  have hclose : ((exactly .closeParen : Part ε Token).parser family).Needs
      (· == Token.ofKind .closeParen) := needs_exactly .closeParen
  have hparentheses := hinner.keepLeft (decided_exactly .closeParen)
    (hclose.nothing (fun _ => beq_closeParen_of_goesOn) _)
  exact decided_number.orElse hparentheses needs_number
    (((needs_exactly .openParen).keepRight _).keepLeft _) fun _ => beq_openParen_of_isInteger

theorem needs_sum : ((sum : Part ε Tree).parser family).Needs isOpening :=
  needs_chain _ (needs_chain _ needs_factor)

theorem decided_sum (hneeds : (family ()).Needs isOpening)
    (hdecided : (family ()).Decided goesOn) :
    ((sum : Part ε Tree).parser family).Decided goesOn := by
  have hterm : ((term : Part ε Tree).parser family).Decided
      fun token => isOperator [.multiply, .divide] token || token.isWhitespace :=
    decided_chain (decided_factor hneeds hdecided) needs_factor (decided_operators (by decide))
      (needs_operators _ _) (fun _ => isOpening_of_isWhitespace)
      (fun _ => isOperator_of_isWhitespace _)
  refine decided_chain hterm (needs_chain _ needs_factor) (decided_operators (by decide))
    (needs_operators _ _) (fun _ => isOpening_of_isWhitespace) ?_
  intro token h
  rcases Bool.or_eq_true_iff.mp h with h | h
  · exact isOperator_of_isOperator (by decide) h
  · exact isOperator_of_isWhitespace _ h

theorem decided_rule (depth : Nat) :
    ((rules : Rules ε Token _).family depth ()).Needs isOpening ∧
      ((rules : Rules ε Token _).family depth ()).Decided goesOn := by
  induction depth with
  | zero => exact ⟨Parser.needs_fail, .of_length fun input => by simp [Rules.family]⟩
  | succ depth ih =>
      constructor
      · intro input h
        rw [Rules.family, Parser.results_unfold_succ]
        exact needs_sum input h
      · intro input
        rw [Rules.family, Parser.results_unfold_succ]
        exact decided_sum ih.1 ih.2 input

theorem length_results_program_le (depth : Nat) (input : Input Token) :
    (((program : Part ε Tree).unfolded rules depth).results input).length ≤ 1 := by
  obtain ⟨hneeds, hdecided⟩ := decided_rule (ε := ε) depth
  have hsum := (decided_blanks (rules.family depth)).keepRight (decided_sum hneeds hdecided)
    (needs_sum.nothing (fun _ => isOpening_of_isWhitespace) goesOn)
  have hend : (Parser.eof : Parser ε Token Unit).Decided fun _ => false :=
    .of_length fun input => by rw [Parser.results_eof]; split <;> simp
  have hprogram := hsum.keepLeft hend <| by
    intro rest hrest
    rw [Parser.results_eof, if_neg, List.filter_nil]
    intro hnil
    simp [Input.beginsWith, hnil] at hrest
  have hlength := hprogram input
  rwa [List.filter_eq_self.mpr] at hlength
  intro found _
  simp [Match.closedTo, Input.beginsWith]

end Lookahead

end ScanParse.Arithmetic
