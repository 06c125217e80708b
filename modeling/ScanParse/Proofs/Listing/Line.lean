import ScanParse.Listing
import ScanParse.Proofs.Lexical.Canonical

namespace ScanParse

open Lexeme Text

namespace Text

theorem append_inj_of_stops {p : Char → Bool} {run other rest tail : List Char}
    (hrun : ∀ c ∈ run, p c = true) (hother : ∀ c ∈ other, p c = true) (hrest : Stops p rest)
    (htail : Stops p tail) (h : run ++ rest = other ++ tail) : run = other ∧ rest = tail := by
  obtain rfl : run = other := by
    rw [← takeWhile_append_of_stops hrun hrest, h, takeWhile_append_of_stops hother htail]
  exact ⟨rfl, List.append_cancel_left h⟩

theorem toList_padRight (width : Nat) (content : String) :
    (padRight width content).toList =
      content.toList ++ List.replicate (width - content.length) ' ' := by
  rw [padRight, spaces, String.toList_append, String.toList_ofList]

end Text

theorem toDigits_append_inj {m n : Nat} {rest tail : List Char}
    (hrest : Stops Char.isDigit rest) (htail : Stops Char.isDigit tail)
    (h : Nat.toDigits 10 m ++ rest = Nat.toDigits 10 n ++ tail) : m = n ∧ rest = tail := by
  obtain ⟨hdigits, hrest⟩ := append_inj_of_stops (isDigits_toDigits m).2
    (isDigits_toDigits n).2 hrest htail h
  refine ⟨?_, hrest⟩
  rw [← digitsValue_toDigits m, hdigits, digitsValue_toDigits]

theorem newline_notMem_toDigits (n : Nat) : '\n' ∉ Nat.toDigits 10 n :=
  fun hmem => by simpa using (isDigits_toDigits n).2 _ hmem

section Position

theorem Span.toList_toText (span : Span) :
    span.toText.toList =
      Nat.toDigits 10 span.start ++ ('.' :: '.' :: Nat.toDigits 10 span.stop) := by
  simp [Span.toText]

theorem Span.append_inj {a b : Span} {rest tail : List Char} (hrest : Stops Char.isDigit rest)
    (htail : Stops Char.isDigit tail)
    (h : a.toText.toList ++ rest = b.toText.toList ++ tail) : a = b ∧ rest = tail := by
  obtain ⟨start, stop⟩ := a
  obtain ⟨other, last⟩ := b
  simp only [Span.toList_toText, List.append_assoc, List.cons_append] at h
  obtain ⟨rfl, hstop⟩ := toDigits_append_inj (by simp) (by simp) h
  simp only [List.cons.injEq, true_and] at hstop
  obtain ⟨rfl, hrest⟩ := toDigits_append_inj hrest htail hstop
  exact ⟨rfl, hrest⟩

theorem Position.toList_details (position : Position) :
    position.details.toList =
      "range: ".toList ++ (position.range.toText.toList ++ ("; line: ".toList ++
        (Nat.toDigits 10 position.line ++ ("; columns: ".toList ++
          position.columns.toText.toList)))) := by
  simp [Position.details]

theorem Position.details_injective : Function.Injective Position.details := by
  intro a b h
  obtain ⟨range, line, columns⟩ := a
  obtain ⟨other, number, places⟩ := b
  rw [← String.toList_inj, toList_details, toList_details] at h
  obtain ⟨rfl, hline⟩ := Span.append_inj (by simp) (by simp) (List.append_cancel_left h)
  obtain ⟨rfl, hcolumns⟩ :=
    toDigits_append_inj (by simp) (by simp) (List.append_cancel_left hline)
  have hends := List.append_cancel_left hcolumns
  obtain ⟨rfl, -⟩ := Span.append_inj (stops_nil _) (stops_nil _) (congrArg (· ++ []) hends)
  rfl

theorem Position.newline_notMem_details (position : Position) :
    '\n' ∉ position.details.toList := by
  simp [toList_details, Span.toList_toText, newline_notMem_toDigits]

end Position

section Number

open Binary64

theorem isDigit_of_mem_significant {decimal : Decimal} {c : Char}
    (h : c ∈ decimal.significant.1) : c.isDigit = true := by
  simp only [Decimal.significant] at h
  split at h
  · obtain rfl : c = '0' := by simpa using h
    decide
  · rw [List.mem_reverse] at h
    have hmem := (List.dropWhile_suffix _).subset h
    exact (isDigits_toDigits _).2 c (List.mem_reverse.mp hmem)

theorem newline_notMem_arrange {digits : List Char} (h : '\n' ∉ digits) (leading : Int) :
    '\n' ∉ (Layout.listed.arrange digits leading).toList := by
  have htake : ∀ count, '\n' ∉ digits.take count := fun count hmem => h (List.mem_of_mem_take hmem)
  have hdrop : ∀ count, '\n' ∉ digits.drop count := fun count hmem => h (List.mem_of_mem_drop hmem)
  unfold Layout.arrange
  split
  · simp [h]
  · dsimp only
    split
    · simp [h, Layout.listed]
    · simp [htake, hdrop]

theorem newline_notMem_write (value : Binary64) :
    '\n' ∉ (Layout.listed.write value).toList := by
  have hfinite : ∀ significand exponent,
      '\n' ∉ (Layout.listed.finite significand exponent).toList := by
    intro significand exponent
    exact newline_notMem_arrange (fun hmem => by simpa using isDigit_of_mem_significant hmem) _
  have hsign : '\n' ∉ (if value.negative then "-" else "").toList := by split <;> simp
  unfold Layout.write
  dsimp only
  cases value.magnitude <;> simp [hsign, hfinite]

end Number

section Payload

variable {options : ScanOptions} {kind : TokenKind} {text : List Char}

/-- The text of a token that its name does not tell. -/
def TokenKind.word (kind : TokenKind) : List Char :=
  if kind.isFixed then [] else kind.toText.toList

theorem isWordCharacter_of_mem_word (h : Spelling options kind text) {c : Char}
    (hc : c ∈ kind.word) : isWordCharacter c = true := by
  unfold TokenKind.word at hc
  split at hc
  · simp at hc
  · rename_i hkind
    exact (spelling_toText h).isWordCharacter (by simpa using hkind) c hc

theorem exists_payload_eq (kind : TokenKind) :
    ∃ rest, (Listing.payload kind).toList = kind.word ++ rest ∧ Stops (· != ' ') rest ∧
      '\n' ∉ rest := by
  cases kind with
  | float value spelling =>
      refine ⟨' ' :: '(' :: ((Binary64.Layout.listed.write value).toList ++ [')']), ?_, by simp,
        by simp [newline_notMem_write]⟩
      simp [Listing.payload, TokenKind.word, TokenKind.isFixed, TokenKind.toText]
  | int value => exact ⟨[], (List.append_nil _).symm, stops_nil _, by simp⟩
  | identifier name => exact ⟨[], (List.append_nil _).symm, stops_nil _, by simp⟩
  | symbol characters => exact ⟨[], (List.append_nil _).symm, stops_nil _, by simp⟩
  | _ => exact ⟨[], rfl, stops_nil _, by simp⟩

theorem newline_notMem_payload (h : Spelling options kind text) :
    '\n' ∉ (Listing.payload kind).toList := by
  obtain ⟨rest, hpayload, -, hrest⟩ := exists_payload_eq kind
  rw [hpayload, List.mem_append, not_or]
  exact ⟨fun hmem => ne_of_class (isWordCharacter_of_mem_word h hmem) (by decide) rfl, hrest⟩

theorem eq_of_toText_int {other : ScanOptions} {a b : Int64} {atext btext : List Char}
    (ha : Spelling options (.int a) atext) (hb : Spelling other (.int b) btext)
    (h : (TokenKind.int a).toText = (TokenKind.int b).toText) : a = b := by
  cases ha with
  | fixed hfixed => simp [TokenKind.isFixed] at hfixed
  | int _ hvalue =>
      cases hb with
      | fixed hfixed => simp [TokenKind.isFixed] at hfixed
      | int _ hother =>
          rw [← String.toList_inj, toList_toText_int hvalue, toList_toText_int hother] at h
          rw [← digitsValue_toDigits (digitsValue atext), h, digitsValue_toDigits]

/-- Tokens are told apart by the names of their kinds and their words. -/
theorem same_of_word_eq {other : ScanOptions} {a b : TokenKind} {atext btext : List Char}
    (ha : Spelling options a atext) (hb : Spelling other b btext) (hname : a.name = b.name)
    (hword : a.word = b.word) : a.same b = true := by
  have htext : a.isFixed = false → b.isFixed = false → a.toText = b.toText := by
    intro hafixed hbfixed
    simpa [TokenKind.word, hafixed, hbfixed, String.toList_inj] using hword
  have hint : ∀ x y, a = .int x → b = .int y → x = y := by
    rintro x y rfl rfl
    exact eq_of_toText_int ha hb (htext rfl rfl)
  cases a <;> cases b <;> simp [TokenKind.name] at hname
  case float.float => exact beq_iff_eq.mpr (htext rfl rfl)
  case int.int => exact beq_iff_eq.mpr (hint _ _ rfl rfl)
  case identifier.identifier => exact beq_iff_eq.mpr (htext rfl rfl)
  case symbol.symbol => exact beq_iff_eq.mpr (htext rfl rfl)
  all_goals rfl

end Payload

section Line

/-- The listing of all the tokens, without colours. -/
def Listing.plain (tokens : List Token) (positions : Bool) : Listing :=
  ⟨tokens, positions, false, false⟩

/-- What stands in a line behind the payload. -/
def Listing.place (positions : Bool) (token : Token) : List Char :=
  if positions then
    List.replicate (16 - (payload token.kind).length) ' ' ++ ' ' :: token.position.details.toList
  else []

variable {options other : ScanOptions} {a b : Token} {atext btext : List Char}

theorem TokenKind.name_front (kind : TokenKind) :
    (∀ c ∈ kind.name.toList, (c != ' ') = true) ∧ '\n' ∉ kind.name.toList ∧
      kind.name.length < 24 := by
  have hall : (kind.name.toList.all fun c => c != ' ' && c != '\n') = true := by
    cases kind <;> simp only [TokenKind.name] <;> rfl
  have hclass : ∀ c ∈ kind.name.toList, (c != ' ') = true ∧ (c != '\n') = true := by
    simpa only [List.all_eq_true, Bool.and_eq_true] using hall
  refine ⟨fun c hc => (hclass c hc).1, ?_, ?_⟩
  · intro hmem
    exact absurd rfl (bne_iff_ne.mp (hclass _ hmem).2)
  · cases kind <;> simp only [TokenKind.name] <;> decide

theorem Listing.toList_line (tokens : List Token) (positions : Bool) (token : Token) :
    ((plain tokens positions).line token).toList =
      token.kind.name.toList ++ (List.replicate (24 - token.kind.name.length) ' ' ++
        ((payload token.kind).toList ++ place positions token)) := by
  cases positions <;> simp [line, plain, place, styledField, toList_padRight]

theorem Listing.exists_word (positions : Bool) (token : Token) :
    ∃ rest, (payload token.kind).toList ++ place positions token = token.kind.word ++ rest ∧
      Stops (· != ' ') rest := by
  obtain ⟨rest, hpayload, hrest, -⟩ := exists_payload_eq token.kind
  refine ⟨rest ++ place positions token, by rw [hpayload, List.append_assoc], ?_⟩
  cases rest with
  | cons c rest =>
      rw [stops_cons] at hrest
      rwa [List.cons_append, stops_cons]
  | nil =>
      rw [List.nil_append, place]
      split
      · cases 16 - (payload token.kind).length <;> simp [List.replicate_succ]
      · exact stops_nil _

theorem Listing.same_of_line_eq {tokens others : List Token} {positions places : Bool}
    (ha : Spelling options a.kind atext) (hb : Spelling other b.kind btext)
    (h : (plain tokens positions).line a = (plain others places).line b) :
    a.kind.same b.kind = true := by
  have hspace : ∀ (token : Token) (rest : List Char),
      Stops (· != ' ') (List.replicate (24 - token.kind.name.length) ' ' ++ rest) := by
    intro token rest
    obtain ⟨count, hcount⟩ := Nat.exists_eq_add_of_lt token.kind.name_front.2.2
    simp [hcount, List.replicate_succ, Nat.add_assoc]
  have hclass : ∀ {options : ScanOptions} {kind : TokenKind} {text : List Char},
      Spelling options kind text → ∀ c ∈ kind.word, (c != ' ') = true := by
    intro options kind text hspelling c hc
    exact bne_iff_ne.mpr (ne_of_class (isWordCharacter_of_mem_word hspelling hc) (by decide))
  rw [← String.toList_inj, toList_line, toList_line] at h
  obtain ⟨hname, hpadded⟩ := append_inj_of_stops a.kind.name_front.1 b.kind.name_front.1
    (hspace a _) (hspace b _) h
  rw [String.toList_inj] at hname
  rw [hname] at hpadded
  obtain ⟨arest, hapayload, harest⟩ := exists_word positions a
  obtain ⟨brest, hbpayload, hbrest⟩ := exists_word places b
  have hpayloads := List.append_cancel_left hpadded
  rw [hapayload, hbpayload] at hpayloads
  obtain ⟨hword, -⟩ :=
    append_inj_of_stops (hclass ha) (hclass hb) harest hbrest hpayloads
  exact same_of_word_eq ha hb hname hword

theorem Listing.position_eq_of_line_eq {tokens others : List Token} (hkind : a.kind = b.kind)
    (h : (plain tokens true).line a = (plain others true).line b) : a.position = b.position := by
  rw [← String.toList_inj, toList_line, toList_line, hkind] at h
  have hplace := List.append_cancel_left (List.append_cancel_left (List.append_cancel_left h))
  simp only [place, if_true, hkind, List.append_cancel_left_eq, List.cons.injEq, true_and,
    String.toList_inj] at hplace
  exact Position.details_injective hplace

theorem Listing.newline_notMem_line (tokens : List Token) (positions : Bool)
    (h : Spelling options a.kind atext) : '\n' ∉ ((plain tokens positions).line a).toList := by
  have hplace : '\n' ∉ place positions a := by
    unfold place
    split <;> simp [Position.newline_notMem_details]
  simp [toList_line, a.kind.name_front.2.1, newline_notMem_payload h, hplace]

theorem Listing.line_ne_empty (tokens : List Token) (positions : Bool) (token : Token) :
    (plain tokens positions).line token ≠ "" := by
  intro hempty
  have hlist := toList_line tokens positions token
  have hname := token.kind.name_front.2.2
  rw [hempty, String.toList_empty, eq_comm, List.append_eq_nil_iff, List.append_eq_nil_iff,
    List.replicate_eq_nil_iff] at hlist
  omega

end Line

end ScanParse
