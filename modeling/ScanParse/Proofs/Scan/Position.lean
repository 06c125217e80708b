import Mathlib.Data.List.DropRight
import ScanParse.Proofs.Scan.Reading

/-!
Positions of tokens. Behind any part of a source the cursor holds its length,
its number of line feeds and the index just behind the last of them; hence the
tokens cover the source without gaps, and no position is ever refused.
-/

namespace ScanParse.Text

/-- The index just behind the last line feed of a text, or zero. -/
def lineStart (before : List Char) : Nat :=
  (before.rdropWhile (· ≠ '\n')).length

theorem lineStart_le (before : List Char) : lineStart before ≤ before.length :=
  (List.rdropWhile_prefix _ before).length_le

@[simp] theorem lineStart_concat_newline (before : List Char) :
    lineStart (before ++ ['\n']) = before.length + 1 := by
  rw [lineStart, List.rdropWhile_concat_neg _ _ _ (by simp), List.length_append]
  rfl

theorem lineStart_append {text : List Char} (before : List Char) (h : '\n' ∉ text) :
    lineStart (before ++ text) = lineStart before := by
  induction text using List.reverseRecOn with
  | nil => rw [List.append_nil]
  | append_singleton text c ih =>
      have hc : c ≠ '\n' := by
        rintro rfl
        simp at h
      have htext : '\n' ∉ text := fun hmem => h (by simp [hmem])
      rw [← List.append_assoc, lineStart, List.rdropWhile_concat_pos _ _ _ (by simpa using hc)]
      exact ih htext

end ScanParse.Text

namespace ScanParse

open Lexeme

namespace Cursor

/-- Where a scan stands once it has passed the given text. -/
def behind (before : List Char) : Cursor :=
  ⟨before.length, before.count '\n', Text.lineStart before⟩

theorem advance_of_ne_newline {kind : TokenKind} (h : kind ≠ .newline) (cursor : Cursor)
    (width : Nat) :
    cursor.advance ⟨kind, width⟩ = ⟨cursor.offset + width, cursor.line, cursor.lineStart⟩ := by
  unfold advance
  split
  · rename_i hnewline
    exact absurd hnewline h
  · rfl

theorem offset_advance (cursor : Cursor) (lexeme : Lexeme) :
    (cursor.advance lexeme).offset = cursor.offset + lexeme.width := by
  unfold advance
  split <;> rfl

theorem advance_behind {options : ScanOptions} {kind : TokenKind} {text : List Char}
    (before : List Char) (h : Spelling options kind text) :
    (behind before).advance ⟨kind, text.length⟩ = behind (before ++ text) := by
  by_cases hkind : kind = .newline
  · obtain ⟨text, rfl, hfree⟩ : ∃ start, text = start ++ ['\n'] ∧ '\n' ∉ start := by
      subst hkind
      cases h with
      | fixed => exact ⟨[], rfl, by simp⟩
      | lineEnd => exact ⟨['\r'], rfl, by simp⟩
    subst hkind
    rw [← List.append_assoc, behind, behind, Text.lineStart_concat_newline]
    simp [advance, List.count_eq_zero_of_not_mem hfree, Nat.add_assoc]
  · have hfree := h.newline_notMem hkind
    rw [advance_of_ne_newline hkind, behind, behind, Text.lineStart_append before hfree,
      List.count_append, List.count_eq_zero_of_not_mem hfree, List.length_append,
      Nat.add_zero]

theorem start_eq_behind : start = behind [] := rfl

theorem after_of_reads {options : ScanOptions} {cs rest : List Char}
    {lexemes : List Lexeme} (h : Scan.Reads options cs lexemes rest) :
    ∃ consumed, cs = consumed ++ rest ∧
      ∀ before, (behind before).after lexemes = behind (before ++ consumed) := by
  induction h with
  | done cs => exact ⟨[], rfl, fun before => by simp [after]⟩
  | @step text tail rest kind lexemes hread htail ih =>
      obtain ⟨consumed, rfl, hafter⟩ := ih
      refine ⟨text ++ consumed, by simp, ?_⟩
      intro before
      have hadvance := advance_behind before (spelling_and_apart_of_read? hread).1
      rw [after, List.foldl_cons, hadvance, ← List.append_assoc]
      exact hafter (before ++ text)

theorem after_start_of_reads {options : ScanOptions} {source rest : List Char}
    {lexemes : List Lexeme} (h : Scan.Reads options source lexemes rest) :
    ∃ consumed, source = consumed ++ rest ∧ start.after lexemes = behind consumed := by
  obtain ⟨consumed, hsource, hafter⟩ := after_of_reads h
  exact ⟨consumed, hsource, hafter []⟩

theorem after_behind {options : ScanOptions} {cs text rest : List Char}
    {lexemes : List Lexeme} (h : Scan.Reads options cs lexemes rest) (hcs : cs = text ++ rest)
    (before : List Char) : (behind before).after lexemes = behind (before ++ text) := by
  obtain ⟨consumed, hconsumed, hafter⟩ := after_of_reads h
  obtain rfl : text = consumed := List.append_cancel_right (hcs.symm.trans hconsumed)
  exact hafter before

theorem after_of_reads_all {options : ScanOptions} {source : List Char}
    {lexemes : List Lexeme} (h : Scan.Reads options source lexemes []) :
    start.after lexemes = behind source :=
  after_behind h (List.append_nil source).symm []

end Cursor

namespace Scan

theorem exists_read_of_mem_place {options : ScanOptions} {cs rest : List Char}
    {lexemes : List Lexeme} (h : Reads options cs lexemes rest) (before : List Char)
    {token : Token} (htoken : token ∈ place (.behind before) lexemes) :
    ∃ passed text tail, before ++ cs = passed ++ (text ++ tail) ∧
      read? options (text ++ tail) = some ⟨token.kind, text.length⟩ ∧
        token.position = (Cursor.behind passed).position ⟨token.kind, text.length⟩ := by
  induction h generalizing before with
  | done cs => simp [place] at htoken
  | @step text tail rest kind lexemes hread htail ih =>
      have hspelling := (spelling_and_apart_of_read? hread).1
      rw [place, Cursor.advance_behind before hspelling] at htoken
      rcases List.mem_cons.mp htoken with rfl | htoken
      · exact ⟨before, text, tail, rfl, hread, rfl⟩
      · obtain ⟨passed, found, remaining, hcs, hfound, hposition⟩ := ih (before ++ text) htoken
        exact ⟨passed, found, remaining, by rw [← hcs, List.append_assoc], hfound, hposition⟩

theorem exists_text_of_mem_place {options : ScanOptions} {cs rest : List Char}
    {lexemes : List Lexeme} (h : Reads options cs lexemes rest) (before : List Char)
    {token : Token} (htoken : token ∈ place (.behind before) lexemes) :
    ∃ passed text tail, before ++ cs = passed ++ (text ++ tail) ∧
      Spelling options token.kind text ∧
        token.position = (Cursor.behind passed).position ⟨token.kind, text.length⟩ := by
  obtain ⟨passed, text, tail, hcs, hread, hposition⟩ := exists_read_of_mem_place h before htoken
  exact ⟨passed, text, tail, hcs, (spelling_and_apart_of_read? hread).1, hposition⟩

end Scan

/-- The ranges of the tokens are not empty, and each starts where the one
before it stops; the first starts at `start` and the last stops at `stop`. -/
def Tiles (start : Nat) : List Token → Nat → Prop
  | [], stop => start = stop
  | token :: tokens, stop =>
      token.position.range.start = start ∧ start < token.position.range.stop ∧
        Tiles token.position.range.stop tokens stop

theorem tiles_le {start stop : Nat} {tokens : List Token} (h : Tiles start tokens stop) :
    start ≤ stop := by
  induction tokens generalizing start with
  | nil => exact Nat.le_of_eq h
  | cons token tokens ih =>
      obtain ⟨-, hstop, htokens⟩ := h
      exact Nat.le_trans (Nat.le_of_lt hstop) (ih htokens)

theorem eq_nil_iff_of_tiles {start stop : Nat} {tokens : List Token}
    (h : Tiles start tokens stop) : tokens = [] ↔ start = stop := by
  rcases tokens with _ | ⟨token, tokens⟩
  · exact iff_of_true rfl h
  · obtain ⟨-, hstop, htokens⟩ := h
    have hle := tiles_le htokens
    simp only [reduceCtorEq, false_iff]
    omega

theorem tiles_place {options : ScanOptions} {cs rest : List Char}
    {lexemes : List Lexeme} (h : Scan.Reads options cs lexemes rest) (cursor : Cursor) :
    Tiles cursor.offset (Scan.place cursor lexemes) (cursor.after lexemes).offset := by
  induction h generalizing cursor with
  | done cs => rfl
  | @step text tail rest kind lexemes hread htail ih =>
      have hpos : 0 < text.length := (width_of_read? hread).1
      refine ⟨rfl, ?_, ?_⟩
      · change cursor.offset < cursor.offset + text.length
        omega
      · have htiles := ih (cursor.advance ⟨kind, text.length⟩)
        rwa [Cursor.offset_advance] at htiles

theorem tiles_behind {options : ScanOptions} {cs text rest : List Char}
    {lexemes : List Lexeme} (h : Scan.Reads options cs lexemes rest) (hcs : cs = text ++ rest)
    (before : List Char) :
    Tiles before.length (Scan.place (.behind before) lexemes) (before.length + text.length) := by
  have htiles := tiles_place h (.behind before)
  rw [Cursor.after_behind h hcs before] at htiles
  rwa [← List.length_append]

theorem tiles_of_reads {options : ScanOptions} {source : List Char} {lexemes : List Lexeme}
    (h : Scan.Reads options source lexemes []) :
    Tiles 0 (Scan.place .start lexemes) source.length := by
  have htiles := tiles_behind h (List.append_nil source).symm []
  rwa [List.length_nil, Nat.zero_add] at htiles

/-- A position agrees with the source: its line counts the line feeds before
it, and its columns count from the start of that line. -/
def Position.Agrees (position : Position) (source : List Char) : Prop :=
  position.line = (source.take position.range.start).count '\n' ∧
    Text.lineStart (source.take position.range.start) + position.columns.start =
      position.range.start ∧
    Text.lineStart (source.take position.range.start) + position.columns.stop =
      position.range.stop

theorem agrees_position_behind (passed text tail : List Char) (kind : TokenKind) :
    ((Cursor.behind passed).position ⟨kind, text.length⟩).Agrees
      (passed ++ (text ++ tail)) := by
  have hle := Text.lineStart_le passed
  simp only [Position.Agrees, Cursor.position, Cursor.behind, List.take_left, true_and]
  omega

/-- What can go wrong where a position is made: an offset lies in front of its
line, or the two ranges differ in length. -/
inductive PositionFault where
  | beforeLine
  | mismatch (mismatch : Position.LengthMismatch)

namespace Cursor

/-- The column of an offset that has to lie in the line of the cursor. -/
def checkedColumn (cursor : Cursor) (offset : Nat) : Except PositionFault Nat :=
  if cursor.lineStart ≤ offset then .ok (offset - cursor.lineStart) else .error .beforeLine

/-- The position of a lexeme, with every step checked. -/
def checkedPosition (cursor : Cursor) (lexeme : Lexeme) : Except PositionFault Position := do
  let startColumn ← cursor.checkedColumn cursor.offset
  let stopColumn ← cursor.checkedColumn (cursor.offset + lexeme.width)
  (Position.make ⟨cursor.offset, cursor.offset + lexeme.width⟩ cursor.line
    ⟨startColumn, stopColumn⟩).mapError .mismatch

/-- The failure at a character, with its column checked. -/
def checkedFailure (cursor : Cursor) (found : Char) : Except PositionFault Unrecognized := do
  let column ← cursor.checkedColumn cursor.offset
  return ⟨found, cursor.offset, cursor.line, column⟩

end Cursor

namespace Scan

/-- The scan of a text at a cursor with every position checked. -/
def checkedFrom (options : ScanOptions) (cursor : Cursor) (tokens : List Token)
    (events : List ScanEvent) : List Char → Except PositionFault Scan
  | [] =>
      return ⟨.ok tokens.reverse,
        (.finished tokens.length (cursor.line + 1) :: events).reverse⟩
  | c :: rest =>
      match _h : read? options (c :: rest) with
      | none => do
          let failure ← cursor.checkedFailure c
          return ⟨.error failure, (.aborted failure tokens.length :: events).reverse⟩
      | some lexeme => do
          let position ← cursor.checkedPosition lexeme
          let token : Token := ⟨lexeme.kind, position⟩
          checkedFrom options (cursor.advance lexeme) (token :: tokens)
            (.recognized token :: events) ((c :: rest).drop lexeme.width)
termination_by cs => cs.length
decreasing_by
  have := (width_of_read? _h).1
  simp only [List.length_drop, List.length_cons]
  omega

/-- The scan of a source with every position checked. -/
def checked (options : ScanOptions) (source : String) : Except PositionFault Scan :=
  checkedFrom options .start [] [] source.toList

end Scan

namespace Cursor

variable {cursor : Cursor}

theorem lineStart_le_advance (h : cursor.lineStart ≤ cursor.offset) (lexeme : Lexeme) :
    (cursor.advance lexeme).lineStart ≤ (cursor.advance lexeme).offset := by
  unfold advance
  split
  · exact Nat.le_refl _
  · exact Nat.le_add_right_of_le h

theorem checkedFailure_eq (h : cursor.lineStart ≤ cursor.offset) (found : Char) :
    cursor.checkedFailure found = .ok (cursor.failure found) := by
  rw [checkedFailure, checkedColumn, if_pos h]
  rfl

theorem checkedPosition_eq (h : cursor.lineStart ≤ cursor.offset) (lexeme : Lexeme) :
    cursor.checkedPosition lexeme = .ok (cursor.position lexeme) := by
  have hstop : cursor.lineStart ≤ cursor.offset + lexeme.width := Nat.le_add_right_of_le h
  have hlength : Span.length ⟨cursor.offset, cursor.offset + lexeme.width⟩ =
      Span.length ⟨cursor.offset - cursor.lineStart,
        cursor.offset + lexeme.width - cursor.lineStart⟩ := by
    simp only [Span.length]
    omega
  rw [checkedPosition, checkedColumn, checkedColumn, if_pos h, if_pos hstop]
  change (Position.make _ _ _).mapError _ = _
  rw [Position.make, if_pos hlength]
  rfl

end Cursor

theorem checkedFrom_eq (options : ScanOptions) (cursor : Cursor) (tokens : List Token)
    (events : List ScanEvent) (cs : List Char) (h : cursor.lineStart ≤ cursor.offset) :
    Scan.checkedFrom options cursor tokens events cs =
      .ok (Scan.scanFrom options cursor tokens events cs) := by
  -- No line begins behind the cursor: this alone keeps the columns from failing.
  fun_induction Scan.scanFrom options cursor tokens events cs with
  | case1 cursor tokens events => rw [Scan.checkedFrom]; rfl
  | case2 cursor tokens events c rest hnone failure =>
      rw [Scan.checkedFrom]
      split
      · rw [Cursor.checkedFailure_eq h]
        rfl
      · rename_i hsome
        simp [hnone] at hsome
  | case3 cursor tokens events c rest lexeme hsome token ih =>
      rw [Scan.checkedFrom]
      split
      · rename_i hnone
        simp [hsome] at hnone
      · rename_i found hfound
        obtain rfl : lexeme = found := by simpa [hsome] using hfound
        rw [Cursor.checkedPosition_eq h]
        exact ih (Cursor.lineStart_le_advance h lexeme)

/-- The tokens of a source cover it without gaps and stand where their
positions say; and on no source does a check of a position fail. -/
theorem tokenize_tiles (options : ScanOptions) (source : String) :
    (∀ tokens, tokenize options source = .ok tokens →
      Tiles 0 tokens source.toList.length ∧ (tokens = [] ↔ source = "") ∧
        ∀ token ∈ tokens, token.position.Agrees source.toList) ∧
      Scan.checked options source = .ok (Scan.ofSource options source) := by
  refine ⟨?_, checkedFrom_eq options .start [] [] source.toList (Nat.le_refl 0)⟩
  intro tokens htokens
  obtain ⟨lexemes, hreads, rfl⟩ := (tokenize_eq_ok_iff options source tokens).mp htokens
  have htiles := tiles_place hreads .start
  obtain ⟨consumed, hconsumed, hafter⟩ := Cursor.after_of_reads hreads
  have hstop : (Cursor.start.after lexemes).offset = source.toList.length := by
    rw [Cursor.start_eq_behind, hafter, hconsumed]
    simp [Cursor.behind]
  rw [hstop] at htiles
  change Tiles 0 _ _ at htiles
  refine ⟨htiles, ?_, ?_⟩
  · rw [eq_nil_iff_of_tiles htiles, eq_comm, List.length_eq_zero_iff,
      String.toList_eq_nil_iff]
  · intro token htoken
    obtain ⟨passed, text, tail, hsource, -, hposition⟩ :=
      Scan.exists_text_of_mem_place hreads [] htoken
    rw [hposition, ← List.nil_append source.toList, hsource]
    exact agrees_position_behind passed text tail token.kind

theorem tokenize_tiles_indented :
    ∃ tokens, tokenize .standard "a\r\n  007" = .ok tokens ∧
      Tiles 0 tokens "a\r\n  007".toList.length ∧
        ∀ token ∈ tokens, token.position.Agrees "a\r\n  007".toList := by
  have hreads : Scan.Reads .standard "a\r\n  007".toList
      [⟨.identifier "a", 1⟩, ⟨.newline, 2⟩, ⟨.space, 1⟩, ⟨.space, 1⟩, ⟨.int 7, 3⟩] [] := by
    change Scan.Reads _ ("a".toList ++ ("\r\n".toList ++ (" ".toList ++ (" ".toList ++
      ("007".toList ++ []))))) _ _
    exact .step rfl (.step rfl (.step rfl (.step rfl (.step rfl (.done [])))))
  have htokens : tokenize .standard "a\r\n  007" = .ok
      [⟨.identifier "a", ⟨⟨0, 1⟩, 0, ⟨0, 1⟩⟩⟩, ⟨.newline, ⟨⟨1, 3⟩, 0, ⟨1, 3⟩⟩⟩,
        ⟨.space, ⟨⟨3, 4⟩, 1, ⟨0, 1⟩⟩⟩, ⟨.space, ⟨⟨4, 5⟩, 1, ⟨1, 2⟩⟩⟩,
        ⟨.int 7, ⟨⟨5, 8⟩, 1, ⟨2, 5⟩⟩⟩] :=
    (tokenize_eq_ok_iff _ _ _).mpr ⟨_, hreads, rfl⟩
  obtain ⟨htiles, -, hagrees⟩ := (tokenize_tiles .standard "a\r\n  007").1 _ htokens
  exact ⟨_, htokens, htiles, hagrees⟩

end ScanParse
