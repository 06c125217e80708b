import ScanParse.Proofs.Lexical.Reading
import ScanParse.Scan.Basic

/-!
Scans as sequences of lexemes. A scan reads lexemes off the front of its source
until nothing is left or none can be read; its outcome and its events follow
from these lexemes alone.
-/

namespace ScanParse

open Lexeme

def Cursor.after (cursor : Cursor) (lexemes : List Lexeme) : Cursor :=
  lexemes.foldl Cursor.advance cursor

namespace Scan

/-- The lexemes are read off the front of a text one after the other, and leave
`rest`. -/
inductive Reads (options : ScanOptions) : List Char → List Lexeme → List Char → Prop
  | done (cs : List Char) : Reads options cs [] cs
  | step {text tail rest : List Char} {kind : TokenKind} {lexemes : List Lexeme} :
      read? options (text ++ tail) = some ⟨kind, text.length⟩ →
        Reads options tail lexemes rest →
          Reads options (text ++ tail) (⟨kind, text.length⟩ :: lexemes) rest

theorem Reads.exists_of_cons {options : ScanOptions} {cs rest : List Char} {lexeme : Lexeme}
    {lexemes : List Lexeme} (h : Reads options cs (lexeme :: lexemes) rest) :
    ∃ text tail, cs = text ++ tail ∧ lexeme.width = text.length ∧
      Spelling options lexeme.kind text ∧ Apart options lexeme.kind tail ∧
        Reads options tail lexemes rest := by
  cases h with
  | @step text tail _ _ _ hread htail =>
      obtain ⟨hspelling, hapart⟩ := spelling_and_apart_of_read? hread
      exact ⟨text, tail, rfl, rfl, hspelling, hapart, htail⟩

theorem Reads.exists_later {options : ScanOptions} {cs rest : List Char}
    {first lexemes : List Lexeme} (hfirst : Reads options cs first rest)
    (h : Reads options cs lexemes []) :
    ∃ later, lexemes = first ++ later ∧ Reads options rest later [] := by
  induction hfirst generalizing lexemes with
  | done cs => exact ⟨lexemes, rfl, h⟩
  | @step text tail rest kind first hread _ ih =>
      generalize hcs : text ++ tail = cs at h hread
      cases h with
      | done =>
          have hwidth := width_of_read? hread
          simp only [List.length_nil] at hwidth
          omega
      | @step found behind _ same _ hfound hbehind =>
          obtain ⟨rfl, hwidth⟩ : same = kind ∧ found.length = text.length := by
            simpa [hfound] using hread
          obtain ⟨rfl, rfl⟩ := List.append_inj hcs hwidth.symm
          obtain ⟨later, rfl, hlater⟩ := ih hbehind
          exact ⟨later, rfl, hlater⟩

/-- The tokens that a sequence of lexemes makes where it stands. -/
def place : Cursor → List Lexeme → List Token
  | _, [] => []
  | cursor, lexeme :: lexemes =>
      ⟨lexeme.kind, cursor.position lexeme⟩ :: place (cursor.advance lexeme) lexemes

theorem map_kind_place (cursor : Cursor) (lexemes : List Lexeme) :
    (place cursor lexemes).map (·.kind) = lexemes.map (·.kind) := by
  induction lexemes generalizing cursor with
  | nil => rfl
  | cons lexeme lexemes ih => simp [place, ih]

theorem scanFrom_of_reads {options : ScanOptions} {cs rest : List Char}
    {lexemes : List Lexeme} (h : Reads options cs lexemes rest) (cursor : Cursor)
    (tokens : List Token) (events : List ScanEvent) :
    scanFrom options cursor tokens events cs =
      scanFrom options (cursor.after lexemes) ((place cursor lexemes).reverse ++ tokens)
        (((place cursor lexemes).map ScanEvent.recognized).reverse ++ events) rest := by
  induction h generalizing cursor tokens events with
  | done cs => rfl
  | @step text tail rest kind lexemes hread htail ih =>
      have hdrop : (text ++ tail).drop text.length = tail := List.drop_left
      generalize text ++ tail = cs at hread hdrop
      rcases cs with _ | ⟨c, cs⟩
      · have hwidth := width_of_read? hread
        simp only [List.length_nil] at hwidth
        omega
      · rw [scanFrom]
        split
        · rename_i hnone
          simp [hread] at hnone
        · rename_i found hfound
          obtain rfl : ⟨kind, text.length⟩ = found := by simpa [hread] using hfound
          rw [hdrop, ih]
          simp [place, Cursor.after]

theorem ofSource_of_reads {options : ScanOptions} {source : String}
    {lexemes : List Lexeme} (h : Reads options source.toList lexemes []) :
    ofSource options source =
      ⟨.ok (place .start lexemes),
        (place .start lexemes).map .recognized ++
          [.finished (place .start lexemes).length ((Cursor.start.after lexemes).line + 1)]⟩ := by
  rw [ofSource, scanFrom_of_reads h, scanFrom]
  simp

theorem ofSource_of_stuck {options : ScanOptions} {source : String}
    {lexemes : List Lexeme} {c : Char} {rest : List Char}
    (h : Reads options source.toList lexemes (c :: rest))
    (hstuck : read? options (c :: rest) = none) :
    ofSource options source =
      ⟨.error ((Cursor.start.after lexemes).failure c),
        (place .start lexemes).map .recognized ++
          [.aborted ((Cursor.start.after lexemes).failure c)
            (place .start lexemes).length]⟩ := by
  rw [ofSource, scanFrom_of_reads h, scanFrom]
  split
  · simp
  · rename_i hread
    simp [hstuck] at hread

theorem exists_reads (options : ScanOptions) (cs : List Char) :
    ∃ lexemes rest, Reads options cs lexemes rest ∧
      (rest = [] ∨ ∃ c tail, rest = c :: tail ∧ read? options (c :: tail) = none) := by
  -- A lexeme may take many characters, so the induction is on what is left.
  induction hlength : cs.length using Nat.strong_induction_on generalizing cs with
  | _ length ih =>
      rcases cs with _ | ⟨c, tail⟩
      · exact ⟨[], [], .done [], .inl rfl⟩
      · cases hread : read? options (c :: tail) with
        | none => exact ⟨[], c :: tail, .done _, .inr ⟨c, tail, rfl, hread⟩⟩
        | some lexeme =>
            obtain ⟨kind, width⟩ := lexeme
            obtain ⟨text, rest, hcs, hwidth, hspelling, -⟩ := spelling_of_read? hread
            change width = text.length at hwidth
            rw [hcs] at hread hlength ⊢
            subst hwidth
            have hshorter : rest.length < length := by
              have hpos := List.length_pos_iff.mpr hspelling.ne_nil
              rw [List.length_append] at hlength
              omega
            obtain ⟨lexemes, last, hrest, hend⟩ := ih _ hshorter rest rfl
            exact ⟨_, last, .step hread hrest, hend⟩

end Scan

open Scan

theorem tokenize_eq_ok_iff (options : ScanOptions) (source : String)
    (tokens : List Token) :
    tokenize options source = .ok tokens ↔
      ∃ lexemes, Reads options source.toList lexemes [] ∧ place .start lexemes = tokens := by
  constructor
  · intro h
    obtain ⟨lexemes, rest, hreads, rfl | ⟨c, tail, rfl, hstuck⟩⟩ :=
      exists_reads options source.toList
    · rw [tokenize, ofSource_of_reads hreads] at h
      exact ⟨lexemes, hreads, by simpa using h⟩
    · rw [tokenize, ofSource_of_stuck hreads hstuck] at h
      simp at h
  · rintro ⟨lexemes, hreads, rfl⟩
    rw [tokenize, ofSource_of_reads hreads]

theorem tokenize_eq_error_iff (options : ScanOptions) (source : String)
    (failure : Unrecognized) :
    tokenize options source = .error failure ↔
      ∃ lexemes c rest, Reads options source.toList lexemes (c :: rest) ∧
        read? options (c :: rest) = none ∧
          (Cursor.start.after lexemes).failure c = failure := by
  constructor
  · intro h
    obtain ⟨lexemes, rest, hreads, rfl | ⟨c, tail, rfl, hstuck⟩⟩ :=
      exists_reads options source.toList
    · rw [tokenize, ofSource_of_reads hreads] at h
      simp at h
    · rw [tokenize, ofSource_of_stuck hreads hstuck] at h
      exact ⟨lexemes, c, tail, hreads, hstuck, by simpa using h⟩
  · rintro ⟨lexemes, c, rest, hreads, hstuck, rfl⟩
    rw [tokenize, ofSource_of_stuck hreads hstuck]

end ScanParse
