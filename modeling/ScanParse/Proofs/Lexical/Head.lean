import ScanParse.Proofs.Lexical.Canonical

namespace ScanParse

namespace TokenKind

def isNumber : TokenKind → Bool
  | .float _ _ => true
  | .int _ => true
  | _ => false

def isCommentMarker : TokenKind → Bool
  | .lineComment => true
  | .multilineCommentStart => true
  | .multilineCommentEnd => true
  | _ => false

end TokenKind

namespace Lexeme

open ScanParse.Text

variable {options : ScanOptions} {kind : TokenKind} {text : List Char} {c : Char}

theorem head_of_isFixed (hfixed : kind.isFixed = true)
    (hhead : kind.toText.toList.head? = some c) :
    isAlphabetic c = false ∧ c.isDigit = false ∧
      (isSymbolCharacter c = true → kind.isCommentMarker = true) ∧
        (c = ' ' → kind.same .space = true) := by
  cases kind with
  | float => simp [TokenKind.isFixed] at hfixed
  | int => simp [TokenKind.isFixed] at hfixed
  | identifier => simp [TokenKind.isFixed] at hfixed
  | symbol => simp [TokenKind.isFixed] at hfixed
  | _ =>
      cases hhead
      decide

theorem head_of_isCommentMarker (hmarker : kind.isCommentMarker = true)
    (hhead : kind.toText.toList.head? = some c) : c = '/' ∨ c = '*' := by
  cases kind with
  | lineComment => exact .inl (Option.some.inj hhead).symm
  | multilineCommentStart => exact .inl (Option.some.inj hhead).symm
  | multilineCommentEnd => exact .inr (Option.some.inj hhead).symm
  | _ => simp [TokenKind.isCommentMarker] at hmarker

theorem mem_markers_of_isCommentMarker (hmarker : kind.isCommentMarker = true) :
    kind.toText.toList ∈ markers := by
  cases kind with
  | lineComment => decide
  | multilineCommentStart => decide
  | multilineCommentEnd => decide
  | _ => simp [TokenKind.isCommentMarker] at hmarker

theorem isDigit_of_isNumeral {cs : List Char} (h : IsNumeral cs) (hhead : cs.head? = some c) :
    c.isDigit = true := by
  obtain ⟨whole, fraction, exponent, rfl, hwhole, -, -⟩ := h
  obtain ⟨d, digits, rfl, hd⟩ := exists_cons_of_isDigits hwhole
  obtain rfl : d = c := by simpa using hhead
  exact hd

theorem head_of_spelling (h : Spelling options kind text) (hkind : kind.isFixed = false)
    (hhead : text.head? = some c) :
    (isAlphabetic c = true ∧ ∃ name, kind = .identifier name) ∨
      (isSymbolCharacter c = true ∧ ∃ characters, kind = .symbol characters) ∨
        (c.isDigit = true ∧ kind.isNumber = true) := by
  cases h with
  | fixed hfixed => simp [hkind] at hfixed
  | fourSpaces => simp [TokenKind.isFixed] at hkind
  | lineEnd => simp [TokenKind.isFixed] at hkind
  | identifier hfirst =>
      cases hhead
      exact .inl ⟨hfirst, _, rfl⟩
  | symbol _ hcharacters =>
      exact .inr (.inl ⟨hcharacters c (List.mem_of_mem_head? hhead), _, rfl⟩)
  | int hdigits =>
      exact .inr (.inr ⟨hdigits.2 c (List.mem_of_mem_head? hhead), rfl⟩)
  | float hnumeral => exact .inr (.inr ⟨isDigit_of_isNumeral hnumeral hhead, rfl⟩)

theorem isNumber_iff_of_spelling (h : Spelling options kind text) (hhead : text.head? = some c) :
    kind.isNumber = true ↔ c.isDigit = true := by
  cases hkind : kind.isFixed with
  | true =>
      have hnumber : kind.isNumber = false := by
        cases kind <;> first | rfl | simp [TokenKind.isFixed] at hkind
      have hdigit : c.isDigit = false := by
        cases h with
        | fixed => exact (head_of_isFixed hkind hhead).2.1
        | fourSpaces | lineEnd =>
            cases hhead
            rfl
        | _ => simp [TokenKind.isFixed] at hkind
      rw [hnumber, hdigit]
  | false =>
      rcases head_of_spelling h hkind hhead with ⟨hletter, _, rfl⟩ | ⟨hsymbol, _, rfl⟩ |
        ⟨hdigit, hnumber⟩
      · refine iff_of_false (by simp [TokenKind.isNumber]) fun hdigit => ?_
        simp [isAlphabetic_of_isDigit hdigit] at hletter
      · refine iff_of_false (by simp [TokenKind.isNumber]) fun hdigit => ?_
        simp [isSymbolCharacter_of_isDigit hdigit] at hsymbol
      · exact iff_of_true hnumber hdigit

theorem identifier_of_head (h : Spelling options kind text) (hhead : text.head? = some c)
    (hc : isAlphabetic c = true) : ∃ name, kind = .identifier name := by
  cases hkind : kind.isFixed with
  | true =>
      cases h with
      | fixed =>
          obtain ⟨hletter, -, -, -⟩ := head_of_isFixed hkind hhead
          simp [hc] at hletter
      | fourSpaces | lineEnd =>
          cases hhead
          exact absurd hc (by decide)
      | _ => simp [TokenKind.isFixed] at hkind
  | false =>
      rcases head_of_spelling h hkind hhead with ⟨-, hname⟩ | ⟨hsymbol, -⟩ | ⟨hdigit, -⟩
      · exact hname
      · simp [isSymbolCharacter_of_isAlphabetic hc] at hsymbol
      · simp [isAlphabetic_of_isDigit hdigit] at hc

theorem symbol_or_marker_of_head (h : Spelling options kind text) (hhead : text.head? = some c)
    (hc : isSymbolCharacter c = true) :
    (∃ characters, kind = .symbol characters) ∨ kind.isCommentMarker = true := by
  cases hkind : kind.isFixed with
  | true =>
      cases h with
      | fixed =>
          obtain ⟨-, -, hmarker, -⟩ := head_of_isFixed hkind hhead
          exact .inr (hmarker hc)
      | fourSpaces | lineEnd =>
          cases hhead
          exact absurd hc (by decide)
      | _ => simp [TokenKind.isFixed] at hkind
  | false =>
      rcases head_of_spelling h hkind hhead with ⟨hletter, -⟩ | ⟨-, hsymbol⟩ | ⟨hdigit, -⟩
      · simp [isSymbolCharacter_of_isAlphabetic hletter] at hc
      · exact .inl hsymbol
      · simp [isSymbolCharacter_of_isDigit hdigit] at hc

section Classes

variable (h : Spelling options kind kind.toText.toList)
  (hhead : kind.toText.toList.head? = some c)

include h hhead

theorem isNumber_of_head (hc : c.isDigit = true) : kind.isNumber = true :=
  (isNumber_iff_of_spelling h hhead).mpr hc

theorem space_of_head (hc : c = ' ') : kind = .space := by
  cases hkind : kind.isFixed with
  | true =>
      obtain ⟨-, -, -, hspace⟩ := head_of_isFixed hkind hhead
      rcases (TokenKind.same_iff _ _).mp (hspace hc) with rfl | ⟨_, _, _, -, hfloat⟩
      · rfl
      · simp at hfloat
  | false =>
      have hword := h.isWordCharacter hkind c (List.mem_of_mem_head? hhead)
      exact absurd hc (ne_of_class hword (by decide))

end Classes

theorem exists_digit_of_isNumber (h : Spelling options kind kind.toText.toList)
    (hnumber : kind.isNumber = true) :
    ∃ c text, kind.toText.toList = c :: text ∧ c.isDigit = true := by
  obtain ⟨c, text, htext⟩ := List.exists_cons_of_ne_nil h.ne_nil
  have hhead : kind.toText.toList.head? = some c := by
    rw [htext]
    rfl
  exact ⟨c, text, htext, (isNumber_iff_of_spelling h hhead).mp hnumber⟩

end Lexeme

end ScanParse
