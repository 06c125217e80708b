import ScanParse.Proofs.Lexical.Head
import ScanParse.Proofs.Scan.Acceptance

namespace ScanParse

open Lexeme Scan Text

/-- The language in which digits may follow the first letter of an identifier. -/
def ScanOptions.extended : ScanOptions :=
  ⟨true⟩

/-- The kind is no identifier with a digit. -/
def TokenKind.IsDigitless (kind : TokenKind) : Prop :=
  ∀ name, kind = .identifier name → ∀ c ∈ name.toList, c.isDigit = false

/-- Whether and where a scan fails does not depend on the options. -/
theorem tokenize_eq_error_of_eq_error {options : ScanOptions} (other : ScanOptions)
    {source : String} {failure : Unrecognized} (h : tokenize options source = .error failure) :
    tokenize other source = .error failure := by
  have hfirst := isFirstBad_of_tokenize h
  cases hother : tokenize other source with
  | ok tokens => exact absurd hfirst.badAt (not_badAt_of_tokenize hother _)
  | error found => rw [(isFirstBad_of_tokenize hother).unique hfirst]

theorem digitless_of_spelling {kind : TokenKind} {text : List Char}
    (h : Spelling .standard kind text) : kind.IsDigitless := by
  rintro name rfl c hc
  have hname := (spelling_identifier_iff name).mp (spelling_toText h)
  by_contra hdigit
  have hletter := hname.2 c hc
  rw [isAlphabetic_of_isDigit (by simpa using hdigit)] at hletter
  exact Bool.false_ne_true hletter

section Reading

variable {options : ScanOptions} {kind : TokenKind} {text tail : List Char}

theorem read?_eq_of_not_isAlphabetic {c : Char} (h : isAlphabetic c = false)
    (options other : ScanOptions) (rest : List Char) :
    read? options (c :: rest) = read? other (c :: rest) := by
  simp only [read?, identifier?_eq_none h]

theorem read?_standard_of_identifier {name : String}
    (h : read? options (text ++ tail) = some ⟨.identifier name, text.length⟩)
    (hname : ∀ c ∈ name.toList, c.isDigit = false) :
    read? .standard (text ++ tail) = some ⟨.identifier name, text.length⟩ := by
  obtain ⟨hspelling, hapart⟩ := spelling_and_apart_of_read? h
  have hstandard : Spelling .standard (.identifier name) text := by
    cases hspelling with
    | fixed hfixed => simp [TokenKind.isFixed] at hfixed
    | identifier hfirst hrest =>
        rw [String.toList_ofList] at hname
        refine .identifier hfirst fun c hc => ?_
        have hcontinues := hrest c hc
        rw [continuesIdentifier, hname c (List.mem_cons_of_mem _ hc)] at hcontinues
        simpa using hcontinues
  have hstops : Apart .standard (.identifier name) tail := by
    intro c hc
    have hstop := hapart c hc
    simp only [continuesIdentifier, Bool.or_eq_false_iff] at hstop
    rw [continuesIdentifier_standard, hstop.1]
  obtain ⟨same, hread, hsame⟩ := read?_of_spelling hstandard hstops
  rcases (TokenKind.same_iff _ _).mp hsame with rfl | ⟨_, _, _, -, hfloat⟩
  · exact hread
  · simp at hfloat

theorem read?_standard_of_digitless
    (h : read? options (text ++ tail) = some ⟨kind, text.length⟩) (hkind : kind.IsDigitless) :
    read? .standard (text ++ tail) = some ⟨kind, text.length⟩ := by
  have hspelling := (spelling_and_apart_of_read? h).1
  obtain ⟨c, run, htext⟩ := List.exists_cons_of_ne_nil hspelling.ne_nil
  cases hletter : isAlphabetic c with
  | true =>
      obtain ⟨name, rfl⟩ := identifier_of_head hspelling (by rw [htext]; rfl) hletter
      exact read?_standard_of_identifier h (hkind name rfl)
  | false =>
      rw [htext, List.cons_append] at h ⊢
      rw [read?_eq_of_not_isAlphabetic hletter .standard options, h]

theorem reads_standard_of_digitless {cs rest : List Char} {lexemes : List Lexeme}
    (h : Reads options cs lexemes rest)
    (hlexemes : ∀ lexeme ∈ lexemes, lexeme.kind.IsDigitless) :
    Reads .standard cs lexemes rest := by
  induction h with
  | done cs => exact .done cs
  | step hread _ ih =>
      have hfirst := hlexemes _ List.mem_cons_self
      exact .step (read?_standard_of_digitless hread hfirst)
        (ih fun lexeme hlexeme => hlexemes lexeme (List.mem_cons_of_mem _ hlexeme))

end Reading

/-- With digits in identifiers and without, a source fails alike or scans in both ways;
the tokens are then the same exactly if no identifier of the first scan has a digit. -/
theorem tokenize_extended (source : String) :
    match tokenize .extended source, tokenize .standard source with
    | .error failure, .error other => failure = other
    | .ok tokens, .ok plain =>
        tokens = plain ↔
          ∀ token ∈ tokens, ∀ name, token.kind = .identifier name →
            ∀ c ∈ name.toList, c.isDigit = false
    | _, _ => False := by
  cases hextended : tokenize .extended source with
  | error failure =>
      rw [tokenize_eq_error_of_eq_error .standard hextended]
  | ok tokens =>
      cases hplain : tokenize .standard source with
      | error failure =>
          rw [tokenize_eq_error_of_eq_error .extended hplain] at hextended
          simp at hextended
      | ok plain =>
          obtain ⟨lexemes, hreads, rfl⟩ := (tokenize_eq_ok_iff _ _ _).mp hextended
          constructor
          · rintro rfl token htoken
            obtain ⟨others, hothers, hsame⟩ := (tokenize_eq_ok_iff _ _ _).mp hplain
            rw [← hsame] at htoken
            obtain ⟨_, text, _, -, hspelling, -⟩ := exists_text_of_mem_place hothers [] htoken
            exact digitless_of_spelling hspelling
          · intro hdigitless
            have hlexemes : ∀ lexeme ∈ lexemes, lexeme.kind.IsDigitless := by
              intro lexeme hlexeme
              have hkind : lexeme.kind ∈ (place .start lexemes).map (·.kind) := by
                rw [map_kind_place]
                exact List.mem_map_of_mem hlexeme
              obtain ⟨token, htoken, hsame⟩ := List.mem_map.mp hkind
              rw [← hsame]
              exact hdigitless token htoken
            have hstandard := reads_standard_of_digitless hreads hlexemes
            rw [(tokenize_eq_ok_iff _ _ _).mpr ⟨lexemes, hstandard, rfl⟩] at hplain
            exact Except.ok.inj hplain

/-- Behind the digit the scans drift apart, and the dot is read in two ways. -/
example :
    (tokenize .extended "a1.5").toOption.map (·.map Token.toText) = some ["a1", ".", "5"] ∧
      (tokenize .standard "a1.5").toOption.map (·.map Token.toText) = some ["a", "1.5"] := by
  decide +kernel

end ScanParse
