import ScanParse.Proofs.Scan.Cutting

namespace ScanParse

open Lexeme

/-- A position so many characters and so many lines further down. -/
def Position.lower (offset lines : Nat) (position : Position) : Position :=
  ⟨⟨position.range.start + offset, position.range.stop + offset⟩, position.line + lines,
    position.columns⟩

def Token.lower (offset lines : Nat) (token : Token) : Token :=
  ⟨token.kind, token.position.lower offset lines⟩

def Unrecognized.lower (offset lines : Nat) (failure : Unrecognized) : Unrecognized :=
  ⟨failure.found, failure.offset + offset, failure.line + lines, failure.column⟩

section Shift

variable (before : List Char)

theorem Cursor.columnOn_behind_newline (line : Nat) :
    (behind (before ++ ['\n'])).columnOn line = 0 := by
  simp [columnOn, behind]

theorem Position.shift_behind_newline (position : Position) :
    position.shift (.behind (before ++ ['\n'])) =
      position.lower (before.length + 1) (before.count '\n' + 1) := by
  rw [shift, Cursor.columnOn_behind_newline]
  simp [lower, Cursor.behind]

theorem Token.shift_behind_newline :
    Token.shift (.behind (before ++ ['\n'])) =
      Token.lower (before.length + 1) (before.count '\n' + 1) := by
  funext token
  rw [shift, Position.shift_behind_newline]
  rfl

theorem Unrecognized.shift_behind_newline (failure : Unrecognized) :
    failure.shift (.behind (before ++ ['\n'])) =
      failure.lower (before.length + 1) (before.count '\n' + 1) := by
  rw [shift, Cursor.columnOn_behind_newline]
  simp [lower, Cursor.behind]

end Shift

namespace Scan

variable {options : ScanOptions} {cs mid rest : List Char} {first second lexemes : List Lexeme}

theorem Reads.trans (hfirst : Reads options cs first mid)
    (hsecond : Reads options mid second rest) : Reads options cs (first ++ second) rest := by
  induction hfirst with
  | done cs => exact hsecond
  | step hread _ ih => exact .step hread (ih hsecond)

theorem reads_append_newline (h : Reads options cs lexemes rest) (more : List Char) :
    Reads options (cs ++ '\n' :: more) lexemes (rest ++ '\n' :: more) := by
  induction h with
  | done cs => exact .done _
  | @step text tail rest kind lexemes hread _ ih =>
      have hapart := (spelling_and_apart_of_read? hread).2
      rw [List.append_assoc]
      exact .step (read?_of_apart hread (apart_append_newline hapart more)) ih

theorem read?_append_newline {c : Char} {tail : List Char} (h : read? options (c :: tail) = none)
    (hlast : tail = [] → c ≠ '\r') (more : List Char) :
    read? options (c :: (tail ++ '\n' :: more)) = none := by
  rw [read?_eq_none_iff] at h ⊢
  rcases tail with _ | ⟨d, tail⟩
  · obtain ⟨halphabetic, hdigit, hsymbol, hseparator, -⟩ := h
    exact ⟨halphabetic, hdigit, hsymbol, hseparator, fun hreturn => hlast rfl hreturn.1⟩
  · exact h

end Scan

def Token.breakBehind (before : List Char) : Token :=
  ⟨.newline, ⟨⟨before.length, before.length + 1⟩, before.count '\n',
    ⟨before.length - Text.lineStart before, before.length + 1 - Text.lineStart before⟩⟩⟩

namespace Scan

section Lines

variable {options : ScanOptions} {a b rest : List Char} {first second : List Lexeme}
  (hfirst : Reads options a first []) (hsecond : Reads options b second rest)

include hfirst

theorem after_newline :
    (Cursor.start.after first).advance ⟨.newline, 1⟩ = .behind (a ++ ['\n']) := by
  have hnewline : Spelling options .newline ['\n'] := .fixed rfl
  rw [Cursor.after_of_reads_all hfirst]
  exact Cursor.advance_behind a hnewline

include hsecond

theorem reads_lines :
    Reads options (a ++ '\n' :: b) (first ++ ⟨.newline, 1⟩ :: second) rest := by
  have hbreak : Reads options (['\n'] ++ b) (⟨.newline, ['\n'].length⟩ :: second) rest :=
    .step rfl hsecond
  exact (reads_append_newline hfirst b).trans hbreak

theorem place_lines :
    place .start (first ++ ⟨.newline, 1⟩ :: second) =
      place .start first ++ Token.breakBehind a ::
        (place .start second).map (Token.lower (a.length + 1) (a.count '\n' + 1)) := by
  have hlower := place_behind_append hsecond (a ++ ['\n']) []
  rw [List.append_nil, Token.shift_behind_newline] at hlower
  rw [place_append, place, after_newline hfirst, hlower, Cursor.after_of_reads_all hfirst]
  rfl

theorem failure_lines (found : Char) :
    (Cursor.start.after (first ++ ⟨.newline, 1⟩ :: second)).failure found =
      ((Cursor.start.after second).failure found).lower (a.length + 1) (a.count '\n' + 1) := by
  obtain ⟨passed, -, hpassed⟩ := Cursor.after_of_reads hsecond
  have hback : Cursor.start.after second = .behind passed := hpassed []
  have hwhole : Cursor.start.after (first ++ ⟨.newline, 1⟩ :: second) =
      .behind (a ++ ['\n'] ++ passed) := by
    rw [Cursor.after, List.foldl_append, List.foldl_cons]
    exact (congrArg (Cursor.after · second) (after_newline hfirst)).trans (hpassed _)
  rw [hwhole, hback, Cursor.failure_behind_append, Unrecognized.shift_behind_newline]

end Lines

end Scan

open Scan

/-- Two sources with a line break between them scan as each by itself: a failure of
the first is the failure of both, and otherwise all of the second is further down,
in the same columns. -/
theorem tokenize_append_newline (options : ScanOptions) (a b : String)
    (ha : a.toList.getLast? ≠ some '\r') :
    tokenize options (a ++ "\n" ++ b) =
      match tokenize options a, tokenize options b with
      | .error failure, _ => .error failure
      | .ok _, .error failure =>
          .error (failure.lower (a.toList.length + 1) (a.toList.count '\n' + 1))
      | .ok first, .ok second =>
          .ok (first ++ Token.breakBehind a.toList ::
            second.map (Token.lower (a.toList.length + 1) (a.toList.count '\n' + 1))) := by
  have hsource : (a ++ "\n" ++ b).toList = a.toList ++ '\n' :: b.toList := by
    simp
  obtain ⟨first, restA, hfirst, hend⟩ := exists_reads options a.toList
  obtain ⟨second, restB, hsecond, hendB⟩ := exists_reads options b.toList
  rcases hend with rfl | ⟨c, tail, rfl, hstuck⟩
  · have hwhole := reads_lines hfirst hsecond
    rw [← hsource] at hwhole
    rw [(tokenize_eq_ok_iff _ _ _).mpr ⟨_, hfirst, rfl⟩]
    rcases hendB with rfl | ⟨c, tail, rfl, hstuck⟩
    · rw [(tokenize_eq_ok_iff _ _ _).mpr ⟨_, hwhole, rfl⟩,
        (tokenize_eq_ok_iff _ _ _).mpr ⟨_, hsecond, rfl⟩, place_lines hfirst hsecond]
    · rw [(tokenize_eq_error_iff _ _ _).mpr ⟨_, c, tail, hwhole, hstuck, rfl⟩,
        (tokenize_eq_error_iff _ _ _).mpr ⟨_, c, tail, hsecond, hstuck, rfl⟩,
        failure_lines hfirst hsecond]
  · have hwhole := reads_append_newline hfirst b.toList
    rw [← hsource] at hwhole
    have hlast : tail = [] → c ≠ '\r' := by
      rintro rfl rfl
      obtain ⟨consumed, hconsumed, -⟩ := Cursor.after_of_reads hfirst
      exact ha (by rw [hconsumed, List.getLast?_concat])
    rw [(tokenize_eq_error_iff _ _ _).mpr
        ⟨_, c, _, hwhole, read?_append_newline hstuck hlast b.toList, rfl⟩,
      (tokenize_eq_error_iff _ _ _).mpr ⟨_, c, tail, hfirst, hstuck, rfl⟩]

theorem tokenize_append_newline_exponent :
    "1".toList.getLast? ≠ some '\r' ∧
      tokenize .standard "1" = .ok [⟨.int 1, ⟨⟨0, 1⟩, 0, ⟨0, 1⟩⟩⟩] ∧
      tokenize .standard "e5" =
        .ok [⟨.identifier "e", ⟨⟨0, 1⟩, 0, ⟨0, 1⟩⟩⟩, ⟨.int 5, ⟨⟨1, 2⟩, 0, ⟨1, 2⟩⟩⟩] ∧
      tokenize .standard ("1" ++ "\n" ++ "e5") =
        .ok [⟨.int 1, ⟨⟨0, 1⟩, 0, ⟨0, 1⟩⟩⟩, ⟨.newline, ⟨⟨1, 2⟩, 0, ⟨1, 2⟩⟩⟩,
          ⟨.identifier "e", ⟨⟨2, 3⟩, 1, ⟨0, 1⟩⟩⟩, ⟨.int 5, ⟨⟨3, 4⟩, 1, ⟨1, 2⟩⟩⟩] := by
  have hlast : "1".toList.getLast? ≠ some '\r' := by decide
  have hone : Reads .standard "1".toList [⟨.int 1, 1⟩] [] := by
    change Reads _ ("1".toList ++ []) _ _
    exact .step rfl (.done [])
  have hfive : Reads .standard "e5".toList [⟨.identifier "e", 1⟩, ⟨.int 5, 1⟩] [] := by
    change Reads _ ("e".toList ++ ("5".toList ++ [])) _ _
    exact .step rfl (.step rfl (.done []))
  have hfirst : tokenize .standard "1" = .ok [⟨.int 1, ⟨⟨0, 1⟩, 0, ⟨0, 1⟩⟩⟩] :=
    (tokenize_eq_ok_iff _ _ _).mpr ⟨_, hone, rfl⟩
  have hsecond : tokenize .standard "e5" =
      .ok [⟨.identifier "e", ⟨⟨0, 1⟩, 0, ⟨0, 1⟩⟩⟩, ⟨.int 5, ⟨⟨1, 2⟩, 0, ⟨1, 2⟩⟩⟩] :=
    (tokenize_eq_ok_iff _ _ _).mpr ⟨_, hfive, rfl⟩
  refine ⟨hlast, hfirst, hsecond, ?_⟩
  rw [tokenize_append_newline .standard "1" "e5" hlast, hfirst, hsecond]
  rfl

end ScanParse
