import ScanParse.Proofs.Lexical.Numeral
import ScanParse.Proofs.Lexical.Symbol

/-!
The texts that each kind of token may have in a source, and the texts that may
follow it there. Both are stated without the reading functions.
-/

namespace ScanParse

/-- A kind of token that carries no text of its own. -/
def TokenKind.isFixed : TokenKind → Bool
  | .float _ _ => false
  | .int _ => false
  | .identifier _ => false
  | .symbol _ => false
  | _ => true

theorem TokenKind.same_iff (a b : TokenKind) :
    a.same b = true ↔
      a = b ∨ ∃ x y spelling, a = .float x spelling ∧ b = .float y spelling := by
  cases a <;> cases b <;> simp [TokenKind.same]

theorem TokenKind.same_symm {a b : TokenKind} (h : a.same b = true) : b.same a = true := by
  rcases (TokenKind.same_iff a b).mp h with rfl | ⟨x, y, spelling, rfl, rfl⟩
  · exact h
  · simp [TokenKind.same]

namespace Lexeme

open ScanParse.Text

/-- The digits at the front make no integer: they are out of range, or a point
follows them. -/
def PastInt (cs : List Char) : Prop :=
  maxInt < digitsValue (digitRun cs) ∨ (cs.drop (digitRun cs).length).head? = some '.'

/-- The texts of each kind of token. -/
inductive Spelling (options : ScanOptions) : TokenKind → List Char → Prop
  | fixed {kind : TokenKind} :
      kind.isFixed = true → Spelling options kind kind.toText.toList
  | fourSpaces : Spelling options .tab [' ', ' ', ' ', ' ']
  | lineEnd : Spelling options .newline ['\r', '\n']
  | identifier {first : Char} {rest : List Char} :
      isAlphabetic first = true → (∀ c ∈ rest, continuesIdentifier options c = true) →
        Spelling options (.identifier (String.ofList (first :: rest))) (first :: rest)
  | symbol {run : List Char} :
      run ≠ [] → (∀ c ∈ run, isSymbolCharacter c = true) → Unmarked run →
        Spelling options (.symbol (String.ofList run)) run
  | int {digits : List Char} :
      IsDigits digits → digitsValue digits ≤ maxInt →
        Spelling options (.int (Int64.ofNat (digitsValue digits))) digits
  | float {value : Binary64} {cs : List Char} :
      IsNumeral cs → PastInt cs → Spelling options (.float value (String.ofList cs)) cs

/-- An exponent letter stands in the text. -/
def HasExponent (cs : List Char) : Prop :=
  'e' ∈ cs ∨ 'E' ∈ cs

/-- The text that follows a token does not prolong it. -/
def Apart (options : ScanOptions) : TokenKind → List Char → Prop
  | .space, rest => ¬ [' ', ' ', ' '] <+: rest
  | .identifier _, rest => Stops (continuesIdentifier options) rest
  | .symbol characters, rest =>
      (∀ c ∈ characters.toList.getLast?, commentMarker? (c :: rest) = none) ∧
        (commentMarker? rest = none → Stops isSymbolCharacter rest)
  | .int _, rest => Stops Char.isDigit rest ∧ Stops (· == '.') rest
  | .float _ spelling, rest =>
      Stops Char.isDigit rest ∧
        ('.' ∉ spelling.toList → ¬ HasExponent spelling.toList → Stops (· == '.') rest) ∧
        (¬ HasExponent spelling.toList → ¬ StartsExponent rest)
  | _, _ => True

theorem spelling_of_same {options : ScanOptions} {a b : TokenKind} {text : List Char}
    (h : a.same b = true) (hb : Spelling options b text) : Spelling options a text := by
  rcases (TokenKind.same_iff a b).mp h with rfl | ⟨x, y, spelling, rfl, rfl⟩
  · exact hb
  · cases hb with
    | fixed hfixed => simp [TokenKind.isFixed] at hfixed
    | float hnumeral hpast => exact .float hnumeral hpast

theorem apart_of_same {options : ScanOptions} {a b : TokenKind} {rest : List Char}
    (h : a.same b = true) (hb : Apart options b rest) : Apart options a rest := by
  rcases (TokenKind.same_iff a b).mp h with rfl | ⟨x, y, spelling, rfl, rfl⟩
  · exact hb
  · exact hb

theorem toText_of_same {a b : TokenKind} (h : a.same b = true) : a.toText = b.toText := by
  rcases (TokenKind.same_iff a b).mp h with rfl | ⟨x, y, spelling, rfl, rfl⟩
  · rfl
  · rfl

theorem Spelling.ne_nil {options : ScanOptions} {kind : TokenKind} {text : List Char}
    (h : Spelling options kind text) : text ≠ [] := by
  cases h with
  | fixed hfixed => cases kind <;> simp [TokenKind.isFixed, TokenKind.toText] at hfixed ⊢
  | symbol hne => exact hne
  | int hdigits => exact hdigits.1
  | float hnumeral =>
      obtain ⟨whole, fraction, exponent, rfl, hwhole, -, -⟩ := hnumeral
      simp [hwhole.1]
  | _ => simp

/-- A character of identifiers, numbers or symbols. -/
def isWordCharacter (c : Char) : Bool :=
  isAlphabetic c || c.isDigit || isSymbolCharacter c

theorem isWordCharacter_of_isDigit {c : Char} (h : c.isDigit = true) :
    isWordCharacter c = true := by
  simp [isWordCharacter, h]

theorem isWordCharacter_of_isNumeral {cs : List Char} (h : IsNumeral cs) :
    ∀ c ∈ cs, isWordCharacter c = true := by
  obtain ⟨whole, fraction, exponent, rfl, hwhole, hfraction, hexponent⟩ := h
  intro c hc
  rcases List.mem_append.mp hc with hc | hc
  · exact isWordCharacter_of_isDigit (hwhole.2 c hc)
  rcases List.mem_append.mp hc with hc | hc
  · rcases hfraction with rfl | ⟨digits, rfl, hdigits⟩
    · simp at hc
    · rcases List.mem_cons.mp hc with rfl | hc
      · decide
      · exact isWordCharacter_of_isDigit (hdigits c hc)
  · rcases hexponent with rfl | ⟨letter, sign, digits, rfl, hletter, hsign, hdigits⟩
    · simp at hc
    rcases List.mem_cons.mp hc with rfl | hc
    · rcases hletter with rfl | rfl <;> decide
    rcases List.mem_append.mp hc with hc | hc
    · rcases hsign with rfl | rfl | rfl
      · simp at hc
      · obtain rfl : c = '+' := by simpa using hc
        decide
      · obtain rfl : c = '-' := by simpa using hc
        decide
    · exact isWordCharacter_of_isDigit (hdigits.2 c hc)

theorem Spelling.isWordCharacter {options : ScanOptions} {kind : TokenKind}
    {text : List Char} (h : Spelling options kind text) (hkind : kind.isFixed = false) :
    ∀ c ∈ text, isWordCharacter c = true := by
  intro c hc
  cases h with
  | fixed hfixed => simp [hkind] at hfixed
  | fourSpaces => simp [TokenKind.isFixed] at hkind
  | lineEnd => simp [TokenKind.isFixed] at hkind
  | identifier hfirst hrest =>
      rcases List.mem_cons.mp hc with rfl | hc
      · simp [Lexeme.isWordCharacter, hfirst]
      · have hcontinues := hrest c hc
        simp only [continuesIdentifier, Bool.or_eq_true, Bool.and_eq_true] at hcontinues
        rcases hcontinues with halphabetic | ⟨-, hdigit⟩
        · simp [Lexeme.isWordCharacter, halphabetic]
        · exact isWordCharacter_of_isDigit hdigit
  | symbol _ hcharacters => simp [Lexeme.isWordCharacter, hcharacters c hc]
  | int hdigits => exact isWordCharacter_of_isDigit (hdigits.2 c hc)
  | float hnumeral => exact isWordCharacter_of_isNumeral hnumeral c hc

theorem Spelling.newline_notMem {options : ScanOptions} {kind : TokenKind}
    {text : List Char} (h : Spelling options kind text) (hkind : kind ≠ .newline) :
    '\n' ∉ text := by
  cases hfixed : kind.isFixed with
  | false =>
      intro hmem
      exact ne_of_class (h.isWordCharacter hfixed _ hmem) (by decide) rfl
  | true =>
      cases h with
      | fixed hfixed => cases kind <;> simp [TokenKind.toText, TokenKind.isFixed] at *
      | fourSpaces => simp
      | lineEnd => exact absurd rfl hkind
      | _ => simp [TokenKind.isFixed] at hfixed

section Numerals

variable {whole fraction exponent : List Char}

theorem hasExponent_iff (hwhole : IsDigits whole)
    (hfraction : fraction = [] ∨ IsFraction fraction)
    (hexponent : exponent = [] ∨ IsExponent exponent) :
    HasExponent (whole ++ (fraction ++ exponent)) ↔ exponent ≠ [] := by
  have hnone : ∀ letter, letter.isDigit = false → letter ≠ '.' →
      letter ∉ whole ∧ letter ∉ fraction := by
    intro letter hletter hpoint
    refine ⟨fun hmem => by simp [hwhole.2 letter hmem] at hletter, ?_⟩
    rcases hfraction with rfl | ⟨digits, rfl, hdigits⟩
    · simp
    · intro hmem
      rcases List.mem_cons.mp hmem with hmem | hmem
      · exact hpoint hmem
      · simp [hdigits letter hmem] at hletter
  have hlower := hnone 'e' (by decide) (by decide)
  have hupper := hnone 'E' (by decide) (by decide)
  simp only [HasExponent, List.mem_append, hlower, hupper, false_or]
  rcases hexponent with rfl | ⟨letter, sign, digits, rfl, hletter, -, -⟩
  · simp
  · rcases hletter with rfl | rfl <;> simp

theorem mem_point_iff (hwhole : IsDigits whole)
    (hfraction : fraction = [] ∨ IsFraction fraction)
    (hexponent : exponent = [] ∨ IsExponent exponent) :
    '.' ∈ whole ++ (fraction ++ exponent) ↔ fraction ≠ [] := by
  have hnone : '.' ∉ whole := fun hmem => by simpa using hwhole.2 '.' hmem
  have hpower : '.' ∉ exponent := by
    rcases hexponent with rfl | ⟨letter, sign, digits, rfl, hletter, hsign, hdigits⟩
    · simp
    · have htail : '.' ∉ digits := fun hmem => by simpa using hdigits.2 '.' hmem
      rcases hletter with rfl | rfl <;> rcases hsign with rfl | rfl | rfl <;> simp [htail]
  simp only [List.mem_append, hnone, hpower, false_or, or_false]
  rcases hfraction with rfl | ⟨digits, rfl, -⟩
  · simp
  · simp

theorem longestNumeral_iff (hwhole : IsDigits whole)
    (hfraction : fraction = [] ∨ IsFraction fraction)
    (hexponent : exponent = [] ∨ IsExponent exponent) (options : ScanOptions)
    (value : Binary64) (rest : List Char) :
    LongestNumeral whole fraction exponent rest ↔
      Apart options (.float value (String.ofList (whole ++ (fraction ++ exponent)))) rest := by
  simp only [Apart, String.toList_ofList, hasExponent_iff hwhole hfraction hexponent,
    mem_point_iff hwhole hfraction hexponent, ne_eq, not_not]
  constructor
  · exact fun h => ⟨h.digit_stops, h.point_stops, h.exponent_stops⟩
  · rintro ⟨hdigit, hpoint, hstarts⟩
    exact ⟨hwhole, hfraction, hexponent, hdigit, hpoint, hstarts⟩

end Numerals

end Lexeme

end ScanParse
