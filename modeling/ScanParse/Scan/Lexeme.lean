import ScanParse.Binary64.Read
import ScanParse.Text.Alphabetic
import ScanParse.Token.Basic

/-!
What token stands at the front of a text, and how many characters it takes. Fixed spellings come
first, then identifiers, symbols, integers and floats.
-/

namespace ScanParse

/-- A choice of the language that is scanned. -/
structure ScanOptions where
  /-- Identifiers may go on with digits after their first letter. -/
  identifierDigits : Bool
deriving DecidableEq, Repr

def ScanOptions.standard : ScanOptions :=
  ⟨false⟩

/-- A token at the front of a text, with the number of its characters. -/
structure Lexeme where
  kind : TokenKind
  width : Nat

namespace Lexeme

open ScanParse.Text

def symbolCharacters : List Char :=
  ['<', '>', '.', ',', ':', ';', '-', '!', '@', '#', '$', '%', '^', '&', '*', '~', '=', '+', '/',
    '?', '|']

def isSymbolCharacter (c : Char) : Bool :=
  symbolCharacters.contains c

/-- The comment marker at the front of a text. -/
def commentMarker? : List Char → Option TokenKind
  | '/' :: '/' :: _ => some .lineComment
  | '/' :: '*' :: _ => some .multilineCommentStart
  | '*' :: '/' :: _ => some .multilineCommentEnd
  | _ => none

/-- The token with a fixed spelling at the front of a text. Four spaces are a tab, and a carriage
return counts only together with a line feed. -/
def fixed? : List Char → Option Lexeme
  | ' ' :: ' ' :: ' ' :: ' ' :: _ => some ⟨.tab, 4⟩
  | '\r' :: '\n' :: _ => some ⟨.newline, 2⟩
  | ' ' :: _ => some ⟨.space, 1⟩
  | '\t' :: _ => some ⟨.tab, 1⟩
  | '\n' :: _ => some ⟨.newline, 1⟩
  | '(' :: _ => some ⟨.openParen, 1⟩
  | ')' :: _ => some ⟨.closeParen, 1⟩
  | '[' :: _ => some ⟨.openBracket, 1⟩
  | ']' :: _ => some ⟨.closeBracket, 1⟩
  | '\x7b' :: _ => some ⟨.openBrace, 1⟩
  | '\x7d' :: _ => some ⟨.closeBrace, 1⟩
  | cs => (commentMarker? cs).map (⟨·, 2⟩)

/-- The longest identifier at the front of a text. -/
def identifierRun (options : ScanOptions) : List Char → List Char
  | [] => []
  | first :: rest =>
      if isAlphabetic first then
        first :: rest.takeWhile fun c => isAlphabetic c || (options.identifierDigits && c.isDigit)
      else []

/-- The longest run of symbol characters at the front of a text with no comment marker in it. -/
def symbolRun : List Char → List Char
  | [] => []
  | c :: rest =>
      if isSymbolCharacter c ∧ (commentMarker? (c :: rest)).isNone then c :: symbolRun rest else []

/-- The lexeme that a non-empty run of characters makes. -/
def ofRun (make : String → TokenKind) (run : List Char) : Option Lexeme :=
  if run.isEmpty then none else some ⟨make (String.ofList run), run.length⟩

/-- The identifier at the front of a text. -/
def identifier? (options : ScanOptions) (cs : List Char) : Option Lexeme :=
  ofRun .identifier (identifierRun options cs)

/-- The symbol at the front of a text. -/
def symbol? (cs : List Char) : Option Lexeme :=
  ofRun .symbol (symbolRun cs)

def maxInt : Nat :=
  twoTo 63 - 1

/-- The integer at the front of a text: all digits there, if they denote an integer in range and no
point follows. -/
def int? (cs : List Char) : Option Lexeme :=
  let digits := digitRun cs
  let value := digitsValue digits
  if digits.isEmpty ∨ maxInt < value ∨ (cs.drop digits.length).head? = some '.' then none
  else some ⟨.int (Int64.ofNat value), digits.length⟩

/-- The float at the front of a text: the longest numeral that begins with a digit. -/
def float? (cs : List Char) : Option Lexeme :=
  if (digitRun cs).isEmpty then none
  else
    (Numeral.read? cs).map fun numeral =>
      ⟨.float (.ofNumeral false numeral) (String.ofList (cs.take numeral.width)), numeral.width⟩

/-- The token at the front of a text. -/
def read? (options : ScanOptions) (cs : List Char) : Option Lexeme :=
  fixed? cs <|> identifier? options cs <|> symbol? cs <|> int? cs <|> float? cs

theorem width_of_ofRun {make : String → TokenKind} {run : List Char} {lexeme : Lexeme}
    (h : ofRun make run = some lexeme) : lexeme.width = run.length ∧ 0 < run.length := by
  unfold ofRun at h
  split at h
  · simp at h
  · rename_i hrun
    obtain rfl : _ = lexeme := by simpa using h
    exact ⟨rfl, List.length_pos_iff.2 (by simpa using hrun)⟩

theorem length_identifierRun_le (options : ScanOptions) (cs : List Char) :
    (identifierRun options cs).length ≤ cs.length := by
  unfold identifierRun
  split
  · exact Nat.le_refl _
  · split
    · exact Nat.succ_le_succ (List.takeWhile_prefix _).length_le
    · exact Nat.zero_le _

theorem length_symbolRun_le (cs : List Char) : (symbolRun cs).length ≤ cs.length := by
  induction cs with
  | nil => exact Nat.le_refl _
  | cons c rest ih =>
      unfold symbolRun
      split
      · exact Nat.succ_le_succ ih
      · exact Nat.zero_le _

theorem width_of_commentMarker? {cs : List Char} {kind : TokenKind}
    (h : commentMarker? cs = some kind) : 2 ≤ cs.length := by
  unfold commentMarker? at h
  split at h
  · simp
  · simp
  · simp
  · simp at h

theorem width_of_fixed? {cs : List Char} {lexeme : Lexeme} (h : fixed? cs = some lexeme) :
    0 < lexeme.width ∧ lexeme.width ≤ cs.length := by
  unfold fixed? at h
  split at h
  case h_12 =>
    obtain ⟨kind, hkind, rfl⟩ := Option.map_eq_some_iff.1 h
    exact ⟨Nat.zero_lt_two, width_of_commentMarker? hkind⟩
  all_goals
    cases h
    simp

theorem width_of_int? {cs : List Char} {lexeme : Lexeme} (h : int? cs = some lexeme) :
    0 < lexeme.width ∧ lexeme.width ≤ cs.length := by
  simp only [int?] at h
  split at h
  · simp at h
  · rename_i hdigits
    obtain rfl : _ = lexeme := by simpa using h
    have hne : digitRun cs ≠ [] := fun hnil => hdigits (.inl (by simp [hnil]))
    exact ⟨List.length_pos_iff.2 hne, length_digitRun_le cs⟩

theorem width_of_float? {cs : List Char} {lexeme : Lexeme} (h : float? cs = some lexeme) :
    0 < lexeme.width ∧ lexeme.width ≤ cs.length := by
  simp only [float?] at h
  split at h
  · simp at h
  · rename_i hdigits
    obtain ⟨numeral, hread, rfl⟩ := Option.map_eq_some_iff.1 h
    have hpos : 0 < (digitRun cs).length := List.length_pos_iff.2 (by simpa using hdigits)
    exact ⟨Nat.lt_of_lt_of_le hpos (Numeral.length_digitRun_le_width hread),
      Numeral.width_le hread⟩

theorem width_of_read? {options : ScanOptions} {cs : List Char} {lexeme : Lexeme}
    (h : read? options cs = some lexeme) : 0 < lexeme.width ∧ lexeme.width ≤ cs.length := by
  simp only [read?, Option.orElse_eq_orElse, Option.orElse_eq_or, Option.or_eq_some_iff] at h
  rcases h with h | ⟨-, h | ⟨-, h | ⟨-, h | ⟨-, h⟩⟩⟩⟩
  · exact width_of_fixed? h
  · obtain ⟨hwidth, hpos⟩ := width_of_ofRun h
    rw [hwidth]
    exact ⟨hpos, length_identifierRun_le options cs⟩
  · obtain ⟨hwidth, hpos⟩ := width_of_ofRun h
    rw [hwidth]
    exact ⟨hpos, length_symbolRun_le cs⟩
  · exact width_of_int? h
  · exact width_of_float? h

end Lexeme

end ScanParse
