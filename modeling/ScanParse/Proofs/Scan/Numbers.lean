import ScanParse.Proofs.Lexical.Head
import ScanParse.Proofs.Scan.Cutting
import ScanParse.Proofs.Scan.Rewriting

namespace ScanParse

open Lexeme Scan Text

/-- The text and the kind of the number at the front: an integer in range with no point
behind it, otherwise the longest numeral. -/
def IsNumberAt (cs : List Char) (kind : TokenKind) (text : List Char) : Prop :=
  if digitsValue (digitRun cs) ≤ 9223372036854775807 ∧
      (cs.drop (digitRun cs).length).head? ≠ some '.' then
    text = digitRun cs ∧
      ∃ value : Int64, kind = .int value ∧ value.toInt = digitsValue (digitRun cs)
  else IsLongestPrefix IsNumeral text cs ∧ ∃ value, kind = .float value (String.ofList text)

theorem not_pastInt_iff (cs : List Char) :
    ¬PastInt cs ↔ digitsValue (digitRun cs) ≤ 9223372036854775807 ∧
      (cs.drop (digitRun cs).length).head? ≠ some '.' := by
  rw [PastInt, not_or, Nat.not_lt]
  rfl

theorem isNumberAt_of_read? {options : ScanOptions} {kind : TokenKind} {text tail : List Char}
    (h : read? options (text ++ tail) = some ⟨kind, text.length⟩)
    (hnumber : kind.isNumber = true) : IsNumberAt (text ++ tail) kind text := by
  obtain ⟨hspelling, hapart⟩ := spelling_and_apart_of_read? h
  cases hspelling with
  | fixed hfixed => cases kind <;> simp [TokenKind.isFixed, TokenKind.isNumber] at hfixed hnumber
  | fourSpaces | lineEnd | identifier | symbol => simp [TokenKind.isNumber] at hnumber
  | int hdigits hvalue =>
      have hrun : digitRun (text ++ tail) = text := digitRun_append hdigits.2 hapart.1
      have hint : ¬PastInt (text ++ tail) := by
        rw [PastInt, hrun, List.drop_left, not_or]
        refine ⟨Nat.not_lt.mpr hvalue, fun hpoint => ?_⟩
        simpa using hapart.2 '.' hpoint
      rw [IsNumberAt, if_pos ((not_pastInt_iff _).mp hint), hrun]
      exact ⟨rfl, _, rfl, toInt_ofNat hvalue⟩
  | @float value _ hnumeral hpast =>
      obtain ⟨whole, fraction, exponent, rfl, hwhole, hfraction, hexponent⟩ := hnumeral
      have hlongest : LongestNumeral whole fraction exponent tail :=
        (longestNumeral_iff hwhole hfraction hexponent options value tail).mpr hapart
      rw [List.append_assoc, List.append_assoc, IsNumberAt, if_neg]
      · exact ⟨isLongestPrefix_of_longestNumeral hlongest, value, rfl⟩
      · rw [← not_pastInt_iff, not_not]
        exact (pastInt_append_iff hlongest).mpr hpast

theorem isNumber_iff_of_read? {options : ScanOptions} {kind : TokenKind} {text tail : List Char}
    (h : read? options (text ++ tail) = some ⟨kind, text.length⟩) :
    kind.isNumber = true ↔ digitRun (text ++ tail) ≠ [] := by
  have hspelling := (spelling_and_apart_of_read? h).1
  obtain ⟨c, rest, rfl⟩ := List.exists_cons_of_ne_nil hspelling.ne_nil
  rw [isNumber_iff_of_spelling hspelling (c := c) rfl, List.cons_append]
  cases hdigit : c.isDigit with
  | true => simp [digitRun, hdigit]
  | false => simp [digitRun_eq_nil hdigit]

theorem exists_number_of_digits (options : ScanOptions) {cs : List Char}
    (h : digitRun cs ≠ []) :
    ∃ kind text, text <+: cs ∧ read? options cs = some ⟨kind, text.length⟩ ∧
      IsNumberAt cs kind text := by
  have hdigit : ∀ c next, c.isDigit = true → ¬ IsBad c next := by
    rintro c next hc ⟨-, hnot, -⟩
    simp [hc] at hnot
  obtain ⟨kind, text, tail, rfl, hread⟩ := exists_read?_of_takeWhile hdigit options h
  have hnumber := (isNumber_iff_of_read? hread).mpr h
  exact ⟨kind, text, List.prefix_append text tail, hread, isNumberAt_of_read? hread hnumber⟩

/-- At digits a number is read, whatever follows. The numbers of a scan are the tokens
that stand at digits, and each is the number there; at no digit does a scan fail. -/
theorem scan_numbers (options : ScanOptions) (source : String) :
    (∀ cs : List Char, digitRun cs ≠ [] →
      ∃ kind text, text <+: cs ∧ read? options cs = some ⟨kind, text.length⟩ ∧
        IsNumberAt cs kind text) ∧
      (∀ token ∈ (ofSource options source).recognized,
        let rest := source.toList.drop token.position.range.start
        (token.kind.isNumber = true ↔ digitRun rest ≠ []) ∧
          (digitRun rest ≠ [] → IsNumberAt rest token.kind (token.sourceText source.toList))) ∧
      ∀ failure, tokenize options source = .error failure →
        digitRun (source.toList.drop failure.offset) = [] := by
  refine ⟨fun cs => exists_number_of_digits options, ?_, ?_⟩
  · intro token htoken
    obtain ⟨lexemes, rest, hreads, hend⟩ := exists_reads options source.toList
    rw [recognized_of_reads hreads hend] at htoken
    obtain ⟨tail, hdrop, hread⟩ := read?_of_mem_place hreads htoken
    have hnumber := isNumber_iff_of_read? hread
    simp only [hdrop]
    exact ⟨hnumber, fun hdigits => isNumberAt_of_read? hread (hnumber.mpr hdigits)⟩
  · intro failure hfailure
    obtain ⟨lexemes, c, rest, hreads, hstuck, rfl⟩ :=
      (tokenize_eq_error_iff options source failure).mp hfailure
    obtain ⟨consumed, hsource, hafter⟩ := Cursor.after_start_of_reads hreads
    have hdrop : source.toList.drop ((Cursor.start.after lexemes).failure c).offset =
        c :: rest := by
      rw [hafter, hsource]
      exact List.drop_left
    rw [hdrop]
    exact digitRun_eq_nil ((read?_eq_none_iff options c rest).mp hstuck).2.1

theorem scan_numbers_out_of_range :
    ∃ token ∈ (ofSource .standard "1e5 9223372036854775808e5").recognized,
      token.position.range.start = 4 ∧
        IsNumberAt "9223372036854775808e5".toList token.kind "9223372036854775808e5".toList := by
  have hreads : Reads .standard "1e5 9223372036854775808e5".toList
      [⟨.int 1, 1⟩, ⟨.identifier "e", 1⟩, ⟨.int 5, 1⟩, ⟨.space, 1⟩,
        ⟨.float (.ofNumeral false ⟨"9223372036854775808".toList, [], 5, 21⟩)
          "9223372036854775808e5", 21⟩] [] := by
    change Reads _ ("1".toList ++ ("e".toList ++ ("5".toList ++ (" ".toList ++
      ("9223372036854775808e5".toList ++ []))))) _ _
    exact .step rfl (.step rfl (.step rfl (.step rfl (.step rfl (.done [])))))
  have htoken : (⟨.float (.ofNumeral false ⟨"9223372036854775808".toList, [], 5, 21⟩)
      "9223372036854775808e5", ⟨⟨4, 25⟩, 0, ⟨4, 25⟩⟩⟩ : Token) ∈
        (ofSource .standard "1e5 9223372036854775808e5").recognized := by
    rw [recognized_of_reads hreads (.inl rfl)]
    simp [place, Cursor.position, Cursor.advance, Cursor.start]
  exact ⟨_, htoken, rfl, ((scan_numbers .standard _).2.1 _ htoken).2 (by decide)⟩

end ScanParse
