import ScanParse.Proofs.Scan.Position

namespace ScanParse

open Lexeme Scan

/-- The character at the index is one with which no token begins. -/
def BadAt (source : List Char) (index : Nat) : Prop :=
  ∃ c, source[index]? = some c ∧ IsBad c source[index + 1]?

theorem badAt_append_iff (passed rest : List Char) (index : Nat) :
    BadAt (passed ++ rest) (passed.length + index) ↔ BadAt rest index := by
  simp [BadAt, List.getElem?_append_right, Nat.add_assoc]

theorem not_isBad_of_isWordCharacter {c : Char} (h : isWordCharacter c = true)
    (next : Option Char) : ¬ IsBad c next := by
  rintro ⟨halphabetic, hdigit, hsymbol, -⟩
  simp [isWordCharacter, halphabetic, hdigit, hsymbol] at h

theorem not_isBad_of_mem_separators {c : Char} (h : c ∈ separators) (next : Option Char) :
    ¬ IsBad c next :=
  fun hbad => hbad.2.2.2.1 h

theorem not_badAt_of_forall {text : List Char}
    (h : ∀ c ∈ text, ∀ next, ¬ IsBad c next) (rest : List Char) {index : Nat}
    (hindex : index < text.length) : ¬ BadAt (text ++ rest) index := by
  rintro ⟨c, hc, hbad⟩
  rw [List.getElem?_append_left hindex] at hc
  exact h c (List.mem_of_getElem? hc) _ hbad

theorem class_of_isFixed {kind : TokenKind} (h : kind.isFixed = true) {c : Char}
    (hc : c ∈ kind.toText.toList) : isWordCharacter c = true ∨ c ∈ separators := by
  have hall : (kind.toText.toList.all
      fun c => isWordCharacter c || separators.contains c) = true := by
    cases kind <;> simp [TokenKind.isFixed] at h <;> decide
  simpa using List.all_eq_true.mp hall c hc

theorem not_badAt_of_spelling {options : ScanOptions} {kind : TokenKind}
    {text : List Char} (h : Spelling options kind text) (rest : List Char) {index : Nat}
    (hindex : index < text.length) : ¬ BadAt (text ++ rest) index := by
  cases hkind : kind.isFixed with
  | false =>
      refine not_badAt_of_forall (fun c hc => ?_) rest hindex
      exact not_isBad_of_isWordCharacter (h.isWordCharacter hkind c hc)
  | true =>
      cases h with
      | fixed =>
          refine not_badAt_of_forall (fun c hc => ?_) rest hindex
          rcases class_of_isFixed hkind hc with hword | hseparator
          · exact not_isBad_of_isWordCharacter hword
          · exact not_isBad_of_mem_separators hseparator
      | fourSpaces =>
          refine not_badAt_of_forall (fun c hc => not_isBad_of_mem_separators ?_) rest hindex
          obtain rfl : c = ' ' := by simpa using hc
          decide
      | lineEnd =>
          rcases index with _ | _ | index
          · rintro ⟨c, hc, hbad⟩
            obtain rfl : '\r' = c := by simpa using hc
            exact hbad.2.2.2.2 ⟨rfl, rfl⟩
          · rintro ⟨c, hc, hbad⟩
            obtain rfl : '\n' = c := by simpa using hc
            exact not_isBad_of_mem_separators (by decide) _ hbad
          · simp only [List.length_cons, List.length_nil] at hindex
            omega
      | _ => simp [TokenKind.isFixed] at hkind

theorem not_badAt_of_reads {options : ScanOptions} {cs rest : List Char}
    {lexemes : List Lexeme} (h : Reads options cs lexemes rest) {index : Nat}
    (hindex : index + rest.length < cs.length) : ¬ BadAt cs index := by
  induction h generalizing index with
  | done cs => omega
  | @step text tail rest kind lexemes hread htail ih =>
      by_cases hwithin : index < text.length
      · exact not_badAt_of_spelling (spelling_and_apart_of_read? hread).1 tail hwithin
      · obtain ⟨later, rfl⟩ := Nat.exists_eq_add_of_le (Nat.le_of_not_lt hwithin)
        rw [List.length_append] at hindex
        rw [badAt_append_iff]
        exact ih (by omega)

/-- The failure names the first bad character of the source, with its index, its
line, and its index in that line. -/
structure IsFirstBad (source : List Char) (failure : Unrecognized) : Prop where
  found : source[failure.offset]? = some failure.found
  bad : IsBad failure.found source[failure.offset + 1]?
  first : ∀ index < failure.offset, ¬ BadAt source index
  line : failure.line = (source.take failure.offset).count '\n'
  column : Text.lineStart (source.take failure.offset) + failure.column = failure.offset

theorem IsFirstBad.badAt {source : List Char} {failure : Unrecognized}
    (h : IsFirstBad source failure) : BadAt source failure.offset :=
  ⟨failure.found, h.found, h.bad⟩

theorem IsFirstBad.exists_drop_eq {source : List Char} {failure : Unrecognized}
    (h : IsFirstBad source failure) :
    ∃ rest, source.drop failure.offset = failure.found :: rest ∧
      IsBad failure.found rest.head? := by
  obtain ⟨hlt, hfound⟩ := List.getElem?_eq_some_iff.mp h.found
  refine ⟨source.drop (failure.offset + 1), ?_, ?_⟩
  · rw [List.drop_eq_getElem_cons hlt, hfound]
  · rw [List.head?_drop]
    exact h.bad

theorem IsFirstBad.unique {source : List Char} {a b : Unrecognized}
    (ha : IsFirstBad source a) (hb : IsFirstBad source b) : a = b := by
  have hoffset : a.offset = b.offset := by
    rcases Nat.lt_trichotomy a.offset b.offset with hlt | heq | hlt
    · exact absurd ha.badAt (hb.first _ hlt)
    · exact heq
    · exact absurd hb.badAt (ha.first _ hlt)
  obtain ⟨foundA, offset, lineA, columnA⟩ := a
  obtain ⟨foundB, offsetB, lineB, columnB⟩ := b
  obtain rfl : offset = offsetB := hoffset
  have hfound : foundA = foundB := by
    simpa using ha.found.symm.trans hb.found
  have hline : lineA = lineB := ha.line.trans hb.line.symm
  have hcolumn : columnA = columnB :=
    Nat.add_left_cancel (ha.column.trans hb.column.symm)
  rw [hfound, hline, hcolumn]

theorem isFirstBad_of_stuck {options : ScanOptions} {source rest : List Char} {c : Char}
    {lexemes : List Lexeme} (h : Reads options source lexemes (c :: rest))
    (hstuck : read? options (c :: rest) = none) :
    IsFirstBad source ((Cursor.start.after lexemes).failure c) := by
  have hbad := (read?_eq_none_iff options c rest).mp hstuck
  have hgood : ∀ index, index + (c :: rest).length < source.length → ¬ BadAt source index :=
    fun _ => not_badAt_of_reads h
  obtain ⟨consumed, rfl, hafter⟩ := Cursor.after_start_of_reads h
  have hle := Text.lineStart_le consumed
  rw [hafter]
  constructor
  · simp [Cursor.failure, Cursor.behind]
  · rw [List.head?_eq_getElem?] at hbad
    simpa [Cursor.failure, Cursor.behind, List.getElem?_append_right] using hbad
  · intro index hindex
    apply hgood
    rw [List.length_append]
    exact Nat.add_lt_add_right hindex _
  · simp [Cursor.failure, Cursor.behind]
  · simp only [Cursor.failure, Cursor.behind, List.take_left]
    omega

theorem isFirstBad_of_tokenize {options : ScanOptions} {source : String}
    {failure : Unrecognized} (h : tokenize options source = .error failure) :
    IsFirstBad source.toList failure := by
  obtain ⟨lexemes, c, rest, hreads, hstuck, rfl⟩ :=
    (tokenize_eq_error_iff options source failure).mp h
  exact isFirstBad_of_stuck hreads hstuck

theorem not_badAt_of_tokenize {options : ScanOptions} {source : String}
    {tokens : List Token} (h : tokenize options source = .ok tokens) (index : Nat) :
    ¬ BadAt source.toList index := by
  obtain ⟨lexemes, hreads, -⟩ := (tokenize_eq_ok_iff options source tokens).mp h
  by_cases hindex : index < source.toList.length
  · exact not_badAt_of_reads hreads (by simpa using hindex)
  · rintro ⟨c, hc, -⟩
    rw [List.getElem?_eq_none (Nat.le_of_not_lt hindex)] at hc
    simp at hc

/-- A source scans exactly if none of its characters is bad, and a scan fails
exactly with the first bad character, wherever it stands. -/
theorem tokenize_accepts_iff (options : ScanOptions) (source : String) :
    ((∃ tokens, tokenize options source = .ok tokens) ↔
        ∀ index, ¬ BadAt source.toList index) ∧
      ∀ failure, tokenize options source = .error failure ↔
        IsFirstBad source.toList failure := by
  constructor
  · constructor
    · rintro ⟨tokens, htokens⟩
      exact not_badAt_of_tokenize htokens
    · intro hgood
      cases h : tokenize options source with
      | ok tokens => exact ⟨tokens, rfl⟩
      | error failure => exact absurd (isFirstBad_of_tokenize h).badAt (hgood _)
  · intro failure
    constructor
    · exact isFirstBad_of_tokenize
    · intro hfirst
      cases h : tokenize options source with
      | ok tokens => exact absurd hfirst.badAt (not_badAt_of_tokenize h _)
      | error reported => rw [(isFirstBad_of_tokenize h).unique hfirst]

end ScanParse
