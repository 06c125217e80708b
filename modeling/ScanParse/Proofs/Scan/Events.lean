import ScanParse.Proofs.Scan.Cutting

namespace ScanParse

open Lexeme Scan

/-- The records of a scan that matter at least so much. -/
def Scan.logged (least : Severity) (scan : Scan) : List LogRecord :=
  (scan.events.map ScanEvent.logRecord).filter fun record =>
    least.rank ≤ record.severity.rank

/-- The record of a token: the name of its kind, and its range. -/
def Token.traceRecord (token : Token) : LogRecord :=
  ⟨.trace, "lexcomb::lexer", "token",
    [("kind", .quoted token.kind.name), ("position", .plain token.position.range.toText)]⟩

namespace Scan

theorem logged_trace (scan : Scan) :
    scan.logged .trace = scan.events.map ScanEvent.logRecord := by
  refine List.filter_eq_self.mpr fun record _ => ?_
  exact decide_eq_true (Nat.zero_le _)

theorem map_logRecord_recognized (tokens : List Token) :
    (tokens.map ScanEvent.recognized).map ScanEvent.logRecord =
      tokens.map Token.traceRecord := by
  rw [List.map_map]
  rfl

variable {options : ScanOptions} {source : String} {lexemes : List Lexeme}

theorem logged_of_reads (h : Reads options source.toList lexemes []) :
    (ofSource options source).logged .trace =
      (place .start lexemes).map Token.traceRecord ++
        [(ScanEvent.finished (place .start lexemes).length
          (1 + source.toList.count '\n')).logRecord] := by
  rw [logged_trace, ofSource_of_reads h, List.map_append, map_logRecord_recognized,
    Cursor.after_of_reads_all h, Nat.add_comm 1]
  rfl

theorem logged_of_stuck {c : Char} {rest : List Char}
    (h : Reads options source.toList lexemes (c :: rest))
    (hstuck : read? options (c :: rest) = none) :
    (ofSource options source).logged .trace =
      (place .start lexemes).map Token.traceRecord ++
        [(ScanEvent.aborted ((Cursor.start.after lexemes).failure c)
          (place .start lexemes).length).logRecord] := by
  rw [logged_trace, ofSource_of_stuck h hstuck, List.map_append, map_logRecord_recognized]
  rfl

/-- The part of a source in front of a failure. -/
def front (source : String) (failure : Unrecognized) : String :=
  String.ofList (source.toList.take failure.offset)

theorem reads_front {c : Char} {rest : List Char}
    (h : Reads options source.toList lexemes (c :: rest)) :
    Reads options (front source ((Cursor.start.after lexemes).failure c)).toList lexemes [] := by
  obtain ⟨consumed, hsource, hafter⟩ := Cursor.after_start_of_reads h
  have hfront : source.toList.take ((Cursor.start.after lexemes).failure c).offset =
      consumed := by
    rw [hafter, hsource]
    exact List.take_left
  rw [front, String.toList_ofList, hfront]
  exact reads_consumed h hsource

end Scan

/-- A scan logs each token in turn, and at last its end: with the number of tokens and of
lines, or with its failure and the number of tokens before it. These tokens, and so their
records, are those of the scan of the source up to the failure, which succeeds. -/
theorem scan_logs (options : ScanOptions) (source : String) :
    match tokenize options source with
    | .ok tokens =>
        (ofSource options source).logged .trace = tokens.map Token.traceRecord ++
          [⟨.debug, "lexcomb::lexer", "tokenizing finished",
            [("count", .number tokens.length),
              ("lines", .number (1 + source.toList.count '\n'))]⟩]
    | .error failure =>
        ∃ tokens, tokenize options (front source failure) = .ok tokens ∧
          (ofSource options source).logged .trace = tokens.map Token.traceRecord ++
            [⟨.debug, "lexcomb::lexer", "tokenizing aborted",
              [("err", .plain failure.message), ("scanned", .number tokens.length)]⟩] ∧
          ((ofSource options source).logged .trace).dropLast =
            ((ofSource options (front source failure)).logged .trace).dropLast := by
  cases h : tokenize options source with
  | ok tokens =>
      obtain ⟨lexemes, hreads, rfl⟩ := (tokenize_eq_ok_iff _ _ _).mp h
      exact logged_of_reads hreads
  | error failure =>
      obtain ⟨lexemes, c, rest, hreads, hstuck, rfl⟩ := (tokenize_eq_error_iff _ _ _).mp h
      have hfront := reads_front hreads
      refine ⟨_, (tokenize_eq_ok_iff _ _ _).mpr ⟨lexemes, hfront, rfl⟩,
        logged_of_stuck hreads hstuck, ?_⟩
      rw [logged_of_stuck hreads hstuck, logged_of_reads hfront, List.dropLast_concat,
        List.dropLast_concat]

/-- A carriage return alone is a failure, and the last record counts the tokens in front of it. -/
example :
    (ofSource .standard "x\n\r").logged .trace =
      [⟨.trace, "lexcomb::lexer", "token",
          [("kind", .quoted "identifier"), ("position", .plain "0..1")]⟩,
        ⟨.trace, "lexcomb::lexer", "token",
          [("kind", .quoted "newline"), ("position", .plain "1..2")]⟩,
        ⟨.debug, "lexcomb::lexer", "tokenizing aborted",
          [("err", .plain "unrecognized item '\\r' at line 2, column 1"),
            ("scanned", .number 2)]⟩] := by
  decide +kernel

end ScanParse
