import ScanParse.Proofs.Report.Place
import ScanParse.Proofs.Scan.Acceptance

/-!
Reports of failed scans. A scan counts line feeds, while a report cuts its source at
every character that ends a line. Both find the same place, since in front of the
failure every line end is a line feed, alone or behind a carriage return: any other
one would itself be the failure.
-/

namespace ScanParse

open Lexeme Report Text

/-- Of the characters that end a line, tokens begin only with a line feed, and with a
carriage return in front of one. -/
theorem eq_newline_or_return_of_endsLine {c : Char} {next : Option Char}
    (h : endsLine c = true) (hgood : ¬ IsBad c next) :
    c = '\n' ∨ c = '\r' ∧ next = some '\n' := by
  by_cases hreturn : c = '\r' ∧ next = some '\n'
  · exact .inr hreturn
  · left
    by_contra hnewline
    have hmem : c ∈ ['\r', '\x0b', '\x0c', '\u0085', '\u2028', '\u2029'] := by
      simpa [endsLine, hnewline, or_assoc] using h
    have hothers : (['\r', '\x0b', '\x0c', '\u0085', '\u2028', '\u2029'].all fun d =>
        !isAlphabetic d && !d.isDigit && !isSymbolCharacter d && !separators.contains d) =
          true := by
      decide +kernel
    have hc := List.all_eq_true.mp hothers c hmem
    simp only [Bool.and_eq_true, Bool.not_eq_true', List.contains_eq_mem,
      decide_eq_false_iff_not] at hc
    obtain ⟨⟨⟨halphabetic, hdigit⟩, hsymbol⟩, hseparator⟩ := hc
    exact hgood ⟨halphabetic, hdigit, hsymbol, hseparator, hreturn⟩

theorem feedsOnly_of_isFirstBad {source : List Char} {failure : Unrecognized}
    (h : IsFirstBad source failure) : FeedsOnly (source.take failure.offset) := by
  intro index c hc hend
  obtain ⟨hlt, -⟩ := List.getElem?_eq_some_iff.mp hc
  have hindex : index < failure.offset :=
    Nat.lt_of_lt_of_le hlt (List.length_take_le _ _)
  rw [List.getElem?_take_of_lt hindex] at hc
  have hgood : ¬ IsBad c source[index + 1]? := fun hbad => h.first index hindex ⟨c, hc, hbad⟩
  rcases eq_newline_or_return_of_endsLine hend hgood with hfeed | ⟨hreturn, hnext⟩
  · exact .inl hfeed
  · refine .inr ⟨hreturn, ?_⟩
    by_cases hwithin : index + 1 < failure.offset
    · rw [List.getElem?_take_of_lt hwithin, hnext]
    · have hoffset : index + 1 = failure.offset := by omega
      rw [hoffset, h.found] at hnext
      have hbad := h.bad
      rw [Option.some.inj hnext] at hbad
      exact absurd hbad (not_isBad_of_mem_separators (by decide) _)

theorem exists_line (before : List Char) :
    ∃ passed current, before = passed ++ current ∧ lineStart before = passed.length ∧
      EndsInFeed passed ∧ '\n' ∉ current := by
  induction before using List.reverseRecOn with
  | nil => exact ⟨[], [], rfl, rfl, by simp [EndsInFeed], by simp⟩
  | append_singleton text c ih =>
      by_cases hc : c = '\n'
      · subst hc
        refine ⟨text ++ ['\n'], [], by simp, ?_, by simp [EndsInFeed], by simp⟩
        rw [lineStart_concat_newline, List.length_append]
        rfl
      · obtain ⟨passed, current, rfl, hstart, hlast, hfree⟩ := ih
        have hnot : '\n' ∉ [c] := by simpa using Ne.symm hc
        refine ⟨passed, current ++ [c], List.append_assoc _ _ _, ?_, hlast, ?_⟩
        · rw [lineStart_append _ hnot, hstart]
        · simp [hfree, Ne.symm hc]

/-- Behind a text in which only line feeds end lines, a character stands in the line
and in the column that a scan counts. -/
theorem exists_hasPlace {front : List Char} (h : FeedsOnly front) (c : Char) (rest : List Char) :
    ∃ text, HasPlace (front ++ c :: rest) front.length (front.count '\n')
      (front.length - lineStart front) text := by
  obtain ⟨passed, current, rfl, hstart, hlast, hfree⟩ := exists_line front
  obtain ⟨line, lines, hrest⟩ := exists_splitLines_cons c rest
  have hcurrent := splitLines_append_of_forall (h.append_right.endsLine_eq_false hfree) hrest
  have hlines : splitLines (passed ++ current ++ c :: rest) =
      splitLines passed ++ (current ++ c :: line) :: lines := by
    rw [List.append_assoc, splitLines_append hlast, hcurrent]
  have hplace : HasPlace _ _ _ current.length _ := .of_splitLines hlines (by simp)
  rw [flatten_splitLines, length_splitLines (h.append_left hlast) hlast] at hplace
  refine ⟨current ++ c :: line, ?_⟩
  rw [hstart, List.length_append, List.count_append, List.count_eq_zero_of_not_mem hfree,
    Nat.add_sub_cancel_left]
  exact hplace

theorem exists_hasPlace_of_isFirstBad {source : List Char} {failure : Unrecognized}
    (h : IsFirstBad source failure) :
    ∃ text, HasPlace source failure.offset failure.line failure.column text := by
  obtain ⟨rest, hdrop, -⟩ := h.exists_drop_eq
  obtain ⟨hlt, -⟩ := List.getElem?_eq_some_iff.mp h.found
  have hlength : (source.take failure.offset).length = failure.offset :=
    List.length_take_of_le (Nat.le_of_lt hlt)
  have hcolumn : failure.offset - lineStart (source.take failure.offset) = failure.column :=
    Nat.sub_eq_of_eq_add' h.column.symm
  have hplace := exists_hasPlace (feedsOnly_of_isFirstBad h) failure.found rest
  rwa [← hdrop, List.take_append_drop, hlength, ← h.line, hcolumn] at hplace

/-- The report and the message of a failed scan name the same line and the same column, counted
from one, whatever renders the report. The line holds the character there, and the report shows
the line, short of the blanks at its end. -/
theorem report_of_tokenize {options : ScanOptions} {source : String} {failure : Unrecognized}
    (h : tokenize options source = .error failure) (file : String) :
    ∃ text, HasPlace source.toList failure.offset failure.line failure.column text ∧
      text[failure.column]? = some failure.found ∧
      (ofFailure file source failure).Shows ⟨failure.line, failure.column, trimmed text⟩ ∧
      (isBlank failure.found = false → (trimmed text)[failure.column]? = some failure.found) ∧
      failure.message = "unrecognized item " ++ quotedChar failure.found ++ " at line " ++
        toString (failure.line + 1) ++ ", column " ++ toString (failure.column + 1) ∧
      ∀ render, Renders render →
        Names (render (ofFailure file source failure)) file
          ⟨failure.line, failure.column, trimmed text⟩ := by
  have hbad := isFirstBad_of_tokenize h
  obtain ⟨text, hplace⟩ := exists_hasPlace_of_isFirstBad hbad
  have hfound : text[failure.column]? = some failure.found :=
    hplace.getElem?_eq.trans hbad.found
  have hoffset : failure.offset < source.length := by
    rw [← String.length_toList]
    exact hplace.offset_lt
  refine ⟨text, hplace, hfound, ?_, trimmed_getElem? hfound, rfl, ?_⟩
  · exact shows_of_place hplace.placeAmong_eq hoffset
  · intro render hrender
    exact hrender (ofFailure file source failure) _ _ _ hplace

/-- A line separator ends a line of the report and none of the scan, so it is the failure
itself, in the line that it ends. -/
theorem report_of_tokenize_separator :
    tokenize .standard "a\r\n b \u2028" = .error ⟨'\u2028', 6, 1, 3⟩ ∧
      ∃ below, (ofFailure "in.txt" "a\r\n b \u2028" ⟨'\u2028', 6, 1, 3⟩).toText false =
        "Error: unrecognized item\n   ╭─[in.txt:2:4]\n   │\n 2 │  b\n" ++ below := by
  have hreads : Scan.Reads .standard "a\r\n b \u2028".toList
      [⟨.identifier "a", 1⟩, ⟨.newline, 2⟩, ⟨.space, 1⟩, ⟨.identifier "b", 1⟩, ⟨.space, 1⟩]
      ['\u2028'] := by
    change Scan.Reads _ ("a".toList ++ ("\r\n".toList ++ (" ".toList ++ ("b".toList ++
      (" ".toList ++ ['\u2028']))))) _ _
    exact .step rfl (.step rfl (.step rfl (.step rfl (.step rfl (.done _)))))
  have hstuck : read? .standard ['\u2028'] = none :=
    (read?_eq_none_iff .standard _ []).mpr ⟨by decide +kernel, rfl, rfl, by decide, by decide⟩
  have hfailure : tokenize .standard "a\r\n b \u2028" = .error ⟨'\u2028', 6, 1, 3⟩ :=
    (tokenize_eq_error_iff _ _ _).mpr ⟨_, _, _, hreads, hstuck, rfl⟩
  obtain ⟨text, hplace, -, hshows, -⟩ := report_of_tokenize hfailure "in.txt"
  have htext : some " b \u2028".toList = some text := hplace.held
  obtain rfl := Option.some.inj htext
  obtain ⟨below, hplain⟩ := hshows.plain
  exact ⟨hfailure, below, hplain.trans (congrArg (· ++ below) (by decide +kernel))⟩

end ScanParse
