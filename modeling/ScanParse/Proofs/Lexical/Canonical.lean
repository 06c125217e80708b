import ScanParse.Proofs.Lexical.Spelling

namespace ScanParse.Lexeme

open ScanParse.Text

theorem digitsValue_toDigits (n : Nat) : digitsValue (Nat.toDigits 10 n) = n := by
  have hvalue := Nat.ofDigitChars_ten_toDigits (n := n)
  rwa [Nat.ofDigitChars_eq_foldl] at hvalue

theorem isDigits_toDigits (n : Nat) : IsDigits (Nat.toDigits 10 n) :=
  ⟨Nat.toDigits_ne_nil, fun _ => Nat.isDigit_of_mem_toDigits (by decide) (by decide)⟩

theorem toInt_ofNat {n : Nat} (h : n ≤ maxInt) : (Int64.ofNat n).toInt = n := by
  have hmax : maxInt = 2 ^ 63 - 1 := rfl
  exact Int64.toInt_ofNat_of_lt (by omega)

theorem toList_toText_int {n : Nat} (h : n ≤ maxInt) :
    (TokenKind.int (Int64.ofNat n)).toText.toList = Nat.toDigits 10 n := by
  rw [TokenKind.toText, toInt_ofNat h]
  exact Nat.toList_repr

theorem spelling_toDigits {options : ScanOptions} {n : Nat} (h : n ≤ maxInt) :
    Spelling options (.int (Int64.ofNat n)) (Nat.toDigits 10 n) := by
  have hspelling : digitsValue (Nat.toDigits 10 n) ≤ maxInt →
      Spelling options (.int (Int64.ofNat (digitsValue (Nat.toDigits 10 n))))
        (Nat.toDigits 10 n) := .int (isDigits_toDigits n)
  rw [digitsValue_toDigits] at hspelling
  exact hspelling h

theorem spelling_toText {options : ScanOptions} {kind : TokenKind} {text : List Char}
    (h : Spelling options kind text) : Spelling options kind kind.toText.toList := by
  cases h with
  | fixed hfixed => exact .fixed hfixed
  | fourSpaces => exact .fixed rfl
  | lineEnd => exact .fixed rfl
  | identifier hfirst hrest =>
      rw [TokenKind.toText, String.toList_ofList]
      exact .identifier hfirst hrest
  | symbol hne hcharacters hunmarked =>
      rw [TokenKind.toText, String.toList_ofList]
      exact .symbol hne hcharacters hunmarked
  | int hdigits hvalue =>
      rw [toList_toText_int hvalue]
      exact spelling_toDigits hvalue
  | float hnumeral hpast =>
      rw [TokenKind.toText, String.toList_ofList]
      exact .float hnumeral hpast

section Rewriting

/-- The digits without the zeros in front; the last digit always stays. -/
def withoutLeadingZeros : List Char → List Char
  | '0' :: digit :: digits => withoutLeadingZeros (digit :: digits)
  | digits => digits

/-- What is written for a token that has the given text in a source: four spaces become
a tab, a line feed stays of a line end, and integers lose their leading zeros. -/
def rewritten : TokenKind → List Char → List Char
  | .tab, [' ', ' ', ' ', ' '] => ['\t']
  | .newline, ['\r', '\n'] => ['\n']
  | .int _, digits => withoutLeadingZeros digits
  | _, text => text

theorem length_withoutLeadingZeros_le (digits : List Char) :
    (withoutLeadingZeros digits).length ≤ digits.length := by
  fun_induction withoutLeadingZeros digits with
  | case1 digit digits ih => exact Nat.le_succ_of_le ih
  | case2 digits => exact Nat.le_refl _

theorem length_rewritten_le (kind : TokenKind) (text : List Char) :
    (rewritten kind text).length ≤ text.length := by
  unfold rewritten
  split
  · decide
  · decide
  · exact length_withoutLeadingZeros_le text
  · exact Nat.le_refl _

theorem digitChar_of_isDigit {c : Char} (h : c.isDigit = true) :
    Nat.digitChar (c.toNat - '0'.toNat) = c ∧ c.toNat - '0'.toNat < 10 := by
  obtain ⟨hlow, hhigh⟩ := Char.isDigit_iff_toNat.mp h
  have hzero : '0'.toNat = 48 := rfl
  have hnine : '9'.toNat = 57 := rfl
  have hlt : c.toNat - '0'.toNat < 10 := by omega
  refine ⟨Char.toNat_inj.mp ?_, hlt⟩
  rw [Nat.toNat_digitChar_of_lt_ten hlt]
  omega

theorem toDigits_append {n : Nat} (hn : 0 < n) {digits : List Char}
    (hdigits : ∀ c ∈ digits, c.isDigit = true) :
    Nat.toDigits 10 n ++ digits =
      Nat.toDigits 10
        (digits.foldl (fun value digit => 10 * value + (digit.toNat - '0'.toNat)) n) := by
  induction digits generalizing n with
  | nil => exact List.append_nil _
  | cons c digits ih =>
      obtain ⟨hchar, hlt⟩ := digitChar_of_isDigit (hdigits c List.mem_cons_self)
      have hmore := ih (n := 10 * n + (c.toNat - '0'.toNat)) (by omega)
        fun d hd => hdigits d (List.mem_cons_of_mem c hd)
      rw [List.foldl_cons, ← hmore, ← Nat.toDigits_append_toDigits (by decide) hn hlt,
        Nat.toDigits_of_lt_base hlt, hchar, List.append_assoc, List.singleton_append]

theorem toDigits_digitsValue_cons {first : Char} {digits : List Char}
    (hfirst : first.isDigit = true) (hdigits : ∀ c ∈ digits, c.isDigit = true)
    (hzero : first = '0' → digits = []) :
    Nat.toDigits 10 (digitsValue (first :: digits)) = first :: digits := by
  obtain ⟨hchar, hlt⟩ := digitChar_of_isDigit hfirst
  have hvalue : digitsValue [first] = first.toNat - '0'.toNat := Nat.zero_add _
  have hone : Nat.toDigits 10 (digitsValue [first]) = [first] := by
    rw [hvalue, Nat.toDigits_of_lt_base hlt, hchar]
  by_cases hnil : digits = []
  · rw [hnil, hone]
  · have hpos : 0 < digitsValue [first] := by
      refine Nat.pos_of_ne_zero fun hvalue => hnil (hzero ?_)
      rw [hvalue, Nat.toDigits_zero] at hone
      exact (List.singleton_inj.mp hone).symm
    exact (toDigits_append hpos hdigits).symm.trans (congrArg (· ++ digits) hone)

theorem toDigits_digitsValue {digits : List Char} (h : IsDigits digits) :
    Nat.toDigits 10 (digitsValue digits) = withoutLeadingZeros digits := by
  fun_induction withoutLeadingZeros digits with
  | case1 digit digits ih => exact ih ⟨List.cons_ne_nil _ _, fun c hc => h.2 c (by simp [hc])⟩
  | case2 digits hfront =>
      obtain ⟨first, rest, rfl, hfirst⟩ := exists_cons_of_isDigits h
      refine toDigits_digitsValue_cons hfirst (fun c hc => h.2 c (by simp [hc])) ?_
      rintro rfl
      cases rest with
      | nil => rfl
      | cons digit rest => exact (hfront digit rest rfl).elim

theorem toText_eq_rewritten {options : ScanOptions} {kind : TokenKind} {text : List Char}
    (h : Spelling options kind text) : kind.toText.toList = rewritten kind text := by
  cases h with
  | fixed hfixed => cases kind <;> first | rfl | simp [TokenKind.isFixed] at hfixed
  | fourSpaces => rfl
  | lineEnd => rfl
  | identifier => exact String.toList_ofList
  | symbol => exact String.toList_ofList
  | int hdigits hvalue => rw [toList_toText_int hvalue, toDigits_digitsValue hdigits, rewritten]
  | float => exact String.toList_ofList

end Rewriting

section Payloads

variable {options : ScanOptions}

theorem spelling_int_iff (value : Int64) :
    Spelling options (.int value) (TokenKind.int value).toText.toList ↔ 0 ≤ value := by
  constructor
  · intro h
    generalize (TokenKind.int value).toText.toList = text at h
    cases h with
    | fixed hfixed => simp [TokenKind.isFixed] at hfixed
    | int _ hvalue =>
        rw [Int64.le_iff_toInt_le, toInt_ofNat hvalue]
        exact Int.natCast_nonneg _
  · intro h
    have hnonneg : 0 ≤ value.toInt := Int64.le_iff_toInt_le.mp h
    have hlt := Int64.toInt_lt value
    have hmax : maxInt = 2 ^ 63 - 1 := rfl
    have hle : value.toInt.toNat ≤ maxInt := by omega
    have hvalue : value = Int64.ofNat value.toInt.toNat := by
      rw [← Int64.toInt_inj, toInt_ofNat hle, Int.toNat_of_nonneg hnonneg]
    rw [hvalue]
    exact spelling_toText (spelling_toDigits hle)

theorem spelling_identifier_iff (name : String) :
    Spelling .standard (.identifier name) (TokenKind.identifier name).toText.toList ↔
      name ≠ "" ∧ ∀ c ∈ name.toList, isAlphabetic c = true := by
  rw [← String.toList_eq_nil_iff.ne]
  constructor
  · intro h
    refine ⟨h.ne_nil, ?_⟩
    generalize (TokenKind.identifier name).toText.toList = text at h
    cases h with
    | fixed hfixed => simp [TokenKind.isFixed] at hfixed
    | identifier hfirst hrest =>
        intro c hc
        rw [String.toList_ofList] at hc
        rcases List.mem_cons.mp hc with rfl | hc
        · exact hfirst
        · simpa using hrest c hc
  · rintro ⟨hne, hletters⟩
    obtain ⟨first, rest, hname⟩ := List.exists_cons_of_ne_nil hne
    have hspelling : Spelling .standard (.identifier (String.ofList (first :: rest)))
        (first :: rest) := by
      rw [hname] at hletters
      refine .identifier (hletters first (by simp)) ?_
      intro c hc
      simp [hletters c (by simp [hc])]
    rwa [← hname, String.ofList_toList] at hspelling

theorem spelling_symbol_iff (characters : String) :
    Spelling options (.symbol characters) (TokenKind.symbol characters).toText.toList ↔
      characters ≠ "" ∧ (∀ c ∈ characters.toList, isSymbolCharacter c = true) ∧
        Unmarked characters.toList := by
  rw [← String.toList_eq_nil_iff.ne]
  constructor
  · intro h
    generalize (TokenKind.symbol characters).toText.toList = text at h
    cases h with
    | fixed hfixed => simp [TokenKind.isFixed] at hfixed
    | symbol hne hcharacters hunmarked =>
        rw [String.toList_ofList]
        exact ⟨hne, hcharacters, hunmarked⟩
  · rintro ⟨hne, hcharacters, hunmarked⟩
    have hspelling : Spelling options (.symbol (String.ofList characters.toList))
        characters.toList := .symbol hne hcharacters hunmarked
    rwa [String.ofList_toList] at hspelling

theorem spelling_float_iff (value : Binary64) (spelling : String) :
    Spelling options (.float value spelling) (TokenKind.float value spelling).toText.toList ↔
      IsNumeral spelling.toList ∧ PastInt spelling.toList := by
  constructor
  · intro h
    generalize (TokenKind.float value spelling).toText.toList = text at h
    cases h with
    | fixed hfixed => simp [TokenKind.isFixed] at hfixed
    | float hnumeral hpast =>
        rw [String.toList_ofList]
        exact ⟨hnumeral, hpast⟩
  · rintro ⟨hnumeral, hpast⟩
    have hspelling : Spelling options (.float value (String.ofList spelling.toList))
        spelling.toList := .float hnumeral hpast
    rwa [String.ofList_toList] at hspelling

end Payloads

end ScanParse.Lexeme
