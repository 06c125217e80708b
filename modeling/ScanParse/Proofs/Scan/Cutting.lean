import ScanParse.Proofs.Lexical.Context
import ScanParse.Proofs.Scan.Position

/-!
Scanning the two parts of a source that is cut between tokens. What follows a token
may decide where it ends, but no token is prolonged by the front of the next one
alone; hence the front part has the tokens before the cut, and the back part those
behind it, seen from the cut.
-/

namespace ScanParse

open Lexeme Text

theorem Text.lineStart_append_of_mem {text : List Char} (before : List Char)
    (h : '\n' ∈ text) : lineStart (before ++ text) = before.length + lineStart text := by
  induction text using List.reverseRecOn with
  | nil => simp at h
  | append_singleton text c ih =>
      rw [← List.append_assoc]
      by_cases hc : c = '\n'
      · subst c
        rw [lineStart_concat_newline, lineStart_concat_newline, List.length_append,
          Nat.add_assoc]
      · have hlast : '\n' ∉ [c] := by simpa using fun heq => hc heq.symm
        have htext : '\n' ∈ text := by simpa [eq_comm, hc] using h
        rw [lineStart_append _ hlast, lineStart_append _ hlast, ih htext]

namespace Cursor

/-- How far columns of a line move when the text in front of the cut is put back:
only the line of the cut itself is longer then. -/
def columnOn (cut : Cursor) (line : Nat) : Nat :=
  if line = 0 then cut.offset - cut.lineStart else 0

end Cursor

/-- A position behind a cut, as a position in the whole source. -/
def Position.shift (cut : Cursor) (position : Position) : Position :=
  ⟨⟨position.range.start + cut.offset, position.range.stop + cut.offset⟩,
    position.line + cut.line,
    ⟨position.columns.start + cut.columnOn position.line,
      position.columns.stop + cut.columnOn position.line⟩⟩

def Token.shift (cut : Cursor) (token : Token) : Token :=
  ⟨token.kind, token.position.shift cut⟩

def Unrecognized.shift (cut : Cursor) (failure : Unrecognized) : Unrecognized :=
  ⟨failure.found, failure.offset + cut.offset, failure.line + cut.line,
    failure.column + cut.columnOn failure.line⟩

namespace Cursor

theorem lineStart_behind_append (before passed : List Char) :
    (behind (before ++ passed)).lineStart + (behind before).columnOn (behind passed).line =
      before.length + (behind passed).lineStart := by
  by_cases hmem : '\n' ∈ passed
  · have hline : (behind passed).line ≠ 0 := fun hzero => List.count_eq_zero.mp hzero hmem
    rw [columnOn, if_neg hline]
    exact Text.lineStart_append_of_mem before hmem
  · have hline : (behind passed).line = 0 := List.count_eq_zero.mpr hmem
    have hstart : Text.lineStart passed = 0 := Text.lineStart_append [] hmem
    have hsame := Text.lineStart_append before hmem
    have hle := Text.lineStart_le before
    rw [columnOn, if_pos hline]
    simp only [behind]
    omega

theorem position_behind_append (before passed : List Char) (lexeme : Lexeme) :
    (behind (before ++ passed)).position lexeme =
      ((behind passed).position lexeme).shift (behind before) := by
  have hstart := lineStart_behind_append before passed
  have hle := Text.lineStart_le passed
  simp only [behind] at hstart
  simp only [position, Position.shift, behind, List.length_append, List.count_append,
    Position.mk.injEq, Span.mk.injEq]
  omega

theorem failure_behind_append (before passed : List Char) (found : Char) :
    (behind (before ++ passed)).failure found =
      ((behind passed).failure found).shift (behind before) := by
  have hstart := lineStart_behind_append before passed
  have hle := Text.lineStart_le passed
  simp only [behind] at hstart
  simp only [failure, Unrecognized.shift, behind, List.length_append, List.count_append,
    Unrecognized.mk.injEq, true_and]
  omega

end Cursor

namespace Scan

theorem place_behind_append {options : ScanOptions} {cs rest : List Char}
    {lexemes : List Lexeme} (h : Reads options cs lexemes rest) (before passed : List Char) :
    place (.behind (before ++ passed)) lexemes =
      (place (.behind passed) lexemes).map (Token.shift (.behind before)) := by
  induction h generalizing passed with
  | done cs => rfl
  | @step text tail rest kind lexemes hread _ ih =>
      have hspelling := (spelling_and_apart_of_read? hread).1
      rw [place, place, List.map_cons, Cursor.advance_behind _ hspelling,
        Cursor.advance_behind _ hspelling, Cursor.position_behind_append, List.append_assoc, ih]
      rfl

theorem place_append (cursor : Cursor) (first second : List Lexeme) :
    place cursor (first ++ second) = place cursor first ++ place (cursor.after first) second := by
  induction first generalizing cursor with
  | nil => rfl
  | cons lexeme first ih =>
      rw [List.cons_append, place, place, ih]
      rfl

theorem exists_reads_of_append {options : ScanOptions} {cs rest : List Char}
    {first second : List Lexeme} (h : Reads options cs (first ++ second) rest) :
    ∃ mid, Reads options cs first mid ∧ Reads options mid second rest := by
  induction first generalizing cs with
  | nil => exact ⟨cs, .done cs, h⟩
  | cons lexeme first ih =>
      cases h with
      | step hread htail =>
          obtain ⟨mid, hfirst, hsecond⟩ := ih htail
          exact ⟨mid, .step hread hfirst, hsecond⟩

theorem commentMarker?_of_reads {options : ScanOptions} {cs consumed rest : List Char}
    {lexemes : List Lexeme} (h : Reads options cs lexemes rest) (hcs : cs = consumed ++ rest)
    (hne : consumed ≠ []) (hnone : commentMarker? consumed = none) :
    commentMarker? (consumed ++ rest) = none := by
  rcases consumed with _ | ⟨c, _ | ⟨d, consumed⟩⟩
  · exact absurd rfl hne
  · cases hmarker : commentMarker? ([c] ++ rest) with
    | none => rfl
    | some marker =>
        cases h with
        | done => simp at hcs
        | @step text tail _ kind lexemes hread htail =>
            obtain ⟨later, rfl, -⟩ := Cursor.after_of_reads htail
            rw [hcs, read?_of_commentMarker? hmarker] at hread
            have hlength := congrArg List.length hcs
            have hwidth : 2 = text.length := by simpa using congrArg (·.map (·.width)) hread
            simp only [List.length_append, List.length_singleton] at hlength
            omega
  · rw [commentMarker?_eq_none_iff] at hnone
    rwa [List.cons_append, List.cons_append, commentMarker?_eq_none_iff]

theorem reads_consumed {options : ScanOptions} {cs consumed rest : List Char}
    {lexemes : List Lexeme} (h : Reads options cs lexemes rest) (hcs : cs = consumed ++ rest) :
    Reads options consumed lexemes [] := by
  induction h generalizing consumed with
  | done cs =>
      obtain rfl : consumed = [] := by simpa using hcs
      exact .done []
  | @step text tail rest kind lexemes hread htail ih =>
      obtain ⟨later, rfl, -⟩ := Cursor.after_of_reads htail
      obtain rfl : consumed = text ++ later := by
        rw [← List.append_assoc] at hcs
        exact (List.append_cancel_right hcs).symm
      have hapart := (spelling_and_apart_of_read? hread).2
      have hlater : Apart options kind later :=
        apart_of_append hapart (commentMarker?_of_reads htail rfl)
      exact .step (read?_of_apart hread hlater) (ih rfl)

theorem exists_split_of_mem_place {cursor : Cursor} {lexemes : List Lexeme} {token : Token}
    {o : Nat} (h : token ∈ place cursor lexemes)
    (ho : o = token.position.range.start ∨ o = token.position.range.stop) :
    ∃ first second, lexemes = first ++ second ∧ (cursor.after first).offset = o := by
  induction lexemes generalizing cursor with
  | nil => simp [place] at h
  | cons lexeme lexemes ih =>
      rcases List.mem_cons.mp h with rfl | h
      · rcases ho with rfl | rfl
        · exact ⟨[], lexeme :: lexemes, rfl, rfl⟩
        · exact ⟨[lexeme], lexemes, rfl, cursor.offset_advance lexeme⟩
      · obtain ⟨first, second, rfl, hoffset⟩ := ih h
        exact ⟨lexeme :: first, second, rfl, hoffset⟩

/-- The tokens that a scan recognized, whether or not it failed behind them. -/
def recognized (scan : Scan) : List Token :=
  scan.events.filterMap fun event =>
    match event with
    | .recognized token => some token
    | _ => none

/-- A token of the scan starts or stops at the offset. -/
def HasBoundary (scan : Scan) (o : Nat) : Prop :=
  ∃ token ∈ scan.recognized,
    o = token.position.range.start ∨ o = token.position.range.stop

theorem recognized_of_reads {options : ScanOptions} {source : String} {rest : List Char}
    {lexemes : List Lexeme} (h : Reads options source.toList lexemes rest)
    (hend : rest = [] ∨ ∃ c tail, rest = c :: tail ∧ read? options (c :: tail) = none) :
    (ofSource options source).recognized = place .start lexemes := by
  have hmap : ∀ tokens : List Token, (tokens.map ScanEvent.recognized).filterMap
      (fun event => match event with | .recognized token => some token | _ => none) = tokens := by
    intro tokens
    rw [List.filterMap_map]
    exact List.filterMap_some
  rcases hend with rfl | ⟨c, tail, rfl, hstuck⟩
  · rw [ofSource_of_reads h, recognized, List.filterMap_append, hmap]
    simp
  · rw [ofSource_of_stuck h hstuck, recognized, List.filterMap_append, hmap]
    simp

end Scan

theorem range_of_tiles {start stop : Nat} {tokens : List Token} (h : Tiles start tokens stop) :
    ∀ token ∈ tokens,
      start ≤ token.position.range.start ∧ token.position.range.stop ≤ stop := by
  induction tokens generalizing start with
  | nil => simp
  | cons token tokens ih =>
      obtain ⟨hstart, hstop, htokens⟩ := h
      intro other hother
      rcases List.mem_cons.mp hother with rfl | hother
      · exact ⟨Nat.le_of_eq hstart.symm, tiles_le htokens⟩
      · have hrange := ih htokens other hother
        omega

open Scan

/-- Where a token starts or stops, a source can be cut. The front part scans to the
tokens in front of the cut; and what the scan of the whole source comes to behind the
cut, tokens or a failure, is what the scan of the back part comes to, seen from the
cut. -/
theorem scan_cut {options : ScanOptions} {source : String} {o : Nat}
    (h : (ofSource options source).HasBoundary o) :
    let cut := Cursor.behind (source.toList.take o)
    let front := String.ofList (source.toList.take o)
    let back := String.ofList (source.toList.drop o)
    ∃ before after,
      (ofSource options source).recognized = before ++ after ∧
      (∀ token ∈ before, token.position.range.stop ≤ o) ∧
      (∀ token ∈ after, o ≤ token.position.range.start) ∧
      tokenize options front = .ok before ∧
      after = (ofSource options back).recognized.map (Token.shift cut) ∧
      tokenize options source =
        match tokenize options back with
        | .ok tokens => .ok (before ++ tokens.map (Token.shift cut))
        | .error failure => .error (failure.shift cut) := by
  obtain ⟨token, htoken, ho⟩ := h
  obtain ⟨lexemes, rest, hreads, hend⟩ := exists_reads options source.toList
  rw [recognized_of_reads hreads hend] at htoken
  obtain ⟨first, second, rfl, hoffset⟩ := exists_split_of_mem_place htoken ho
  obtain ⟨mid, hfirst, hsecond⟩ := exists_reads_of_append hreads
  obtain ⟨consumed, hsource, hafter⟩ := Cursor.after_of_reads hfirst
  have hcut : Cursor.start.after first = Cursor.behind consumed := hafter []
  obtain rfl : consumed.length = o := by
    rw [← hoffset, hcut]
    rfl
  have htake : source.toList.take consumed.length = consumed := by
    rw [hsource]
    exact List.take_left
  have hdrop : source.toList.drop consumed.length = mid := by
    rw [hsource]
    exact List.drop_left
  have hfront : Reads options (String.ofList consumed).toList first [] := by
    rw [String.toList_ofList]
    exact reads_consumed hfirst hsource
  have hback : Reads options (String.ofList mid).toList second rest := by
    rwa [String.toList_ofList]
  have hshift : place (.behind consumed) second =
      (place .start second).map (Token.shift (.behind consumed)) := by
    have hmoved := place_behind_append hsecond consumed []
    rwa [List.append_nil, ← Cursor.start_eq_behind] at hmoved
  simp only [htake, hdrop]
  refine ⟨place .start first, place (.behind consumed) second, ?_, ?_, ?_, ?_, ?_, ?_⟩
  · rw [recognized_of_reads hreads hend, place_append, hcut]
  · have htiles := tiles_place hfirst .start
    rw [hcut] at htiles
    exact fun token htoken => (range_of_tiles htiles token htoken).2
  · have htiles := tiles_place hsecond (.behind consumed)
    exact fun token htoken => (range_of_tiles htiles token htoken).1
  · exact (tokenize_eq_ok_iff _ _ _).mpr ⟨first, hfront, rfl⟩
  · rw [recognized_of_reads hback hend, hshift]
  · rcases hend with rfl | ⟨c, tail, rfl, hstuck⟩
    · rw [(tokenize_eq_ok_iff _ _ _).mpr ⟨_, hreads, rfl⟩,
        (tokenize_eq_ok_iff _ _ _).mpr ⟨_, hback, rfl⟩, place_append, hcut, hshift]
    · rw [(tokenize_eq_error_iff _ _ _).mpr ⟨_, c, tail, hreads, hstuck, rfl⟩,
        (tokenize_eq_error_iff _ _ _).mpr ⟨_, c, tail, hback, hstuck, rfl⟩]
      obtain ⟨passed, -, hpassed⟩ := Cursor.after_of_reads hsecond
      have hstop : Cursor.start.after (first ++ second) = .behind (consumed ++ passed) := by
        rw [Cursor.after, List.foldl_append]
        exact (congrArg (Cursor.after · second) hcut).trans (hpassed consumed)
      have hstopBack : Cursor.start.after second = .behind passed := hpassed []
      simp only [hstop, hstopBack, Cursor.failure_behind_append]

theorem scan_cut_marker :
    (ofSource .standard "3e+\n +//\r").HasBoundary 6 ∧
      ∃ before after, (ofSource .standard "3e+\n +//\r").recognized = before ++ after ∧
        (∀ token ∈ before, token.position.range.stop ≤ 6) ∧
        (∀ token ∈ after, 6 ≤ token.position.range.start) ∧
        tokenize .standard "3e+\n +" = .ok before ∧
        tokenize .standard "//\r" = .error ⟨'\r', 2, 0, 2⟩ ∧
        tokenize .standard "3e+\n +//\r" = .error ⟨'\r', 8, 1, 4⟩ := by
  have hreads : Reads .standard "3e+\n +//\r".toList
      [⟨.int 3, 1⟩, ⟨.identifier "e", 1⟩, ⟨.symbol "+", 1⟩, ⟨.newline, 1⟩, ⟨.space, 1⟩,
        ⟨.symbol "+", 1⟩, ⟨.lineComment, 2⟩] ['\r'] := by
    change Reads _ ("3".toList ++ ("e".toList ++ ("+".toList ++ ("\n".toList ++ (" ".toList ++
      ("+".toList ++ ("//".toList ++ ['\r']))))))) _ _
    exact .step rfl (.step rfl (.step rfl (.step rfl (.step rfl (.step rfl
      (.step rfl (.done _)))))))
  have hback : Reads .standard "//\r".toList [⟨.lineComment, 2⟩] ['\r'] := by
    change Reads _ ("//".toList ++ ['\r']) _ _
    exact .step rfl (.done _)
  have hfailure : tokenize .standard "//\r" = .error ⟨'\r', 2, 0, 2⟩ :=
    (tokenize_eq_error_iff _ _ _).mpr ⟨_, '\r', [], hback, rfl, rfl⟩
  have hboundary : (ofSource .standard "3e+\n +//\r").HasBoundary 6 := by
    rw [HasBoundary, recognized_of_reads hreads (.inr ⟨'\r', [], rfl, rfl⟩)]
    exact ⟨⟨.lineComment, ⟨⟨6, 8⟩, 1, ⟨2, 4⟩⟩⟩, by simp [place, Cursor.position, Cursor.advance,
      Cursor.start], .inl rfl⟩
  obtain ⟨before, after, htokens, hbefore, hafter, hfront, -, hwhole⟩ := scan_cut hboundary
  refine ⟨hboundary, before, after, htokens, hbefore, hafter, hfront, hfailure, ?_⟩
  change _ = match tokenize .standard "//\r" with
    | .ok tokens => _
    | .error failure => _ at hwhole
  rw [hfailure] at hwhole
  exact hwhole

end ScanParse
