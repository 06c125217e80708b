import ScanParse.Proofs.Scan.Acceptance
import ScanParse.Proofs.Scan.Cutting
import ScanParse.Proofs.Scan.Printable
import ScanParse.Proofs.Scan.Rewriting

namespace ScanParse

open Lexeme Scan Text

/-- The text and the kind of the token at the front, which has to be a symbol character:
a comment marker with which the run of these characters begins, otherwise the symbol in
front of the first marker of the run, or the whole run if it has none. -/
def IsSymbolAt (cs : List Char) (kind : TokenKind) (text : List Char) : Prop :=
  let run := cs.takeWhile isSymbolCharacter
  (MarkerAt run 0 →
    kind.isCommentMarker = true ∧ text = kind.toText.toList ∧ text <+: run) ∧
  (∀ m, 0 < m → IsFirstMarker run m →
    kind = .symbol (String.ofList text) ∧ text = run.take m) ∧
  ((∀ m, ¬ MarkerAt run m) → kind = .symbol (String.ofList text) ∧ text = run)

theorem isSymbolAt_of_isCommentMarker {kind : TokenKind} (h : kind.isCommentMarker = true)
    (tail : List Char) : IsSymbolAt (kind.toText.toList ++ tail) kind kind.toText.toList := by
  have hmem := mem_markers_of_isCommentMarker h
  have hfront : kind.toText.toList <+:
      (kind.toText.toList ++ tail).takeWhile isSymbolCharacter := by
    rw [List.takeWhile_append_of_pos (isSymbolCharacter_of_mem_markers hmem)]
    exact List.prefix_append _ _
  have hmarker : MarkerAt ((kind.toText.toList ++ tail).takeWhile isSymbolCharacter) 0 :=
    ⟨_, hmem, hfront⟩
  refine ⟨fun _ => ⟨h, rfl, hfront⟩, ?_, fun hnone => absurd hmarker (hnone 0)⟩
  intro m hm hfirst
  exact absurd hmarker (hfirst.2 0 hm)

theorem isSymbolAt_of_longestSymbol {run rest : List Char} (h : LongestSymbol run rest)
    (hne : run ≠ []) : IsSymbolAt (run ++ rest) (.symbol (String.ofList run)) run := by
  refine ⟨?_, ?_, ?_⟩
  · exact fun hmarker => absurd hmarker (h.not_markerAt (List.length_pos_iff.mpr hne))
  · intro m _ hfirst
    refine ⟨rfl, ?_⟩
    rw [← h.length_eq_of_isFirstMarker hfirst, h.takeWhile_eq, List.take_left]
  · intro hnone
    have hmarker : commentMarker? rest = none := by
      by_contra hmarker
      exact hnone _ (h.markerAt_length hmarker)
    exact ⟨rfl, (h.takeWhile_eq_self hmarker).symm⟩

theorem longestSymbol_of_apart {options : ScanOptions} {characters : String}
    {text tail : List Char} (h : Spelling options (.symbol characters) text)
    (hapart : Apart options (.symbol characters) tail) :
    characters = String.ofList text ∧ text ≠ [] ∧ LongestSymbol text tail := by
  cases h with
  | fixed hfixed => simp [TokenKind.isFixed] at hfixed
  | symbol hne hcharacters hunmarked =>
      exact ⟨rfl, hne, hcharacters, hunmarked, by simpa using hapart.1, hapart.2⟩

theorem isSymbolAt_of_read? {options : ScanOptions} {kind : TokenKind} {text tail : List Char}
    (h : read? options (text ++ tail) = some ⟨kind, text.length⟩)
    (hrun : (text ++ tail).takeWhile isSymbolCharacter ≠ []) :
    IsSymbolAt (text ++ tail) kind text := by
  obtain ⟨hspelling, hapart⟩ := spelling_and_apart_of_read? h
  obtain ⟨c, run, htext⟩ := List.exists_cons_of_ne_nil hspelling.ne_nil
  have hc : isSymbolCharacter c = true := by
    by_contra hc
    simp [htext, hc] at hrun
  rcases symbol_or_marker_of_head hspelling (c := c) (by rw [htext]; rfl) hc with
    ⟨characters, rfl⟩ | hmarker
  · obtain ⟨rfl, hne, hlongest⟩ := longestSymbol_of_apart hspelling hapart
    exact isSymbolAt_of_longestSymbol hlongest hne
  · cases hspelling with
    | fixed => exact isSymbolAt_of_isCommentMarker hmarker tail
    | _ => simp [TokenKind.isCommentMarker] at hmarker

theorem exists_symbol_of_characters (options : ScanOptions) {cs : List Char}
    (h : cs.takeWhile isSymbolCharacter ≠ []) :
    ∃ kind text, text <+: cs ∧ read? options cs = some ⟨kind, text.length⟩ ∧
      IsSymbolAt cs kind text := by
  have hsymbol : ∀ c next, isSymbolCharacter c = true → ¬ IsBad c next := by
    rintro c next hc ⟨-, -, hnot, -⟩
    simp [hc] at hnot
  obtain ⟨kind, text, tail, rfl, hread⟩ := exists_read?_of_takeWhile hsymbol options h
  exact ⟨kind, text, List.prefix_append text tail, hread, isSymbolAt_of_read? hread h⟩

section Tokens

variable {options : ScanOptions} {source rest : List Char} {lexemes : List Lexeme}

theorem unmarked_of_mem_place (h : Reads options source lexemes rest) {token : Token}
    (htoken : token ∈ place .start lexemes) {characters : String}
    (hkind : token.kind = .symbol characters) :
    Unmarked characters.toList ∧
      ∀ last ∈ characters.toList.getLast?, ∀ next ∈ source[token.position.range.stop]?,
        [last, next] ∉ markers := by
  obtain ⟨passed, text, tail, hsource, hread, hposition⟩ := exists_read_of_mem_place h [] htoken
  rw [hkind] at hread
  obtain ⟨hspelling, hapart⟩ := spelling_and_apart_of_read? hread
  obtain ⟨rfl, -, hlongest⟩ := longestSymbol_of_apart hspelling hapart
  rw [String.toList_ofList]
  refine ⟨hlongest.unmarked, fun last hlast next hnext => ?_⟩
  have hhead : tail.head? = some next := by
    have hstop : token.position.range.stop = passed.length + text.length := by
      rw [hposition]
      rfl
    rw [List.nil_append] at hsource
    rw [hstop, hsource, ← List.append_assoc, ← List.length_append,
      List.getElem?_append_right (Nat.le_refl _), Nat.sub_self] at hnext
    rw [List.head?_eq_getElem?]
    exact hnext
  obtain ⟨more, rfl⟩ := List.head?_eq_some_iff.mp hhead
  have hmarker := hlongest.last_unmarked last hlast
  rwa [commentMarker?_eq_none_iff] at hmarker

theorem not_adjacent_symbols (h : Reads options source lexemes rest) (a b : String) :
    ¬ [.symbol a, .symbol b] <:+: lexemes.map (·.kind) := by
  obtain ⟨consumed, hsource, -⟩ := Cursor.after_of_reads h
  have hseparated := separated_of_reads (reads_consumed h hsource) rfl
  intro hwindow
  obtain ⟨later, hlater⟩ := separated_of_infix hseparated hwindow
  exact not_separated_symbols hlater

end Tokens

/-- At symbol characters a comment marker or a symbol is read, whatever follows; so it is
in a scan, and at no symbol character does a scan fail. Its symbols hold no comment marker,
make none with the character behind them, and do not stand side by side. -/
theorem scan_symbols (options : ScanOptions) (source : String) :
    (∀ cs : List Char, cs.takeWhile isSymbolCharacter ≠ [] →
      ∃ kind text, text <+: cs ∧ read? options cs = some ⟨kind, text.length⟩ ∧
        IsSymbolAt cs kind text) ∧
      (∀ token ∈ (ofSource options source).recognized,
        let rest := source.toList.drop token.position.range.start
        rest.takeWhile isSymbolCharacter ≠ [] →
          IsSymbolAt rest token.kind (token.sourceText source.toList)) ∧
      (∀ failure, tokenize options source = .error failure →
        (source.toList.drop failure.offset).takeWhile isSymbolCharacter = []) ∧
      (∀ token ∈ (ofSource options source).recognized, ∀ characters,
        token.kind = .symbol characters →
          Unmarked characters.toList ∧
            ∀ last ∈ characters.toList.getLast?,
              ∀ next ∈ source.toList[token.position.range.stop]?, [last, next] ∉ markers) ∧
      ∀ a b, ¬ [.symbol a, .symbol b] <:+: (ofSource options source).recognized.map (·.kind) := by
  obtain ⟨lexemes, rest, hreads, hend⟩ := exists_reads options source.toList
  rw [recognized_of_reads hreads hend]
  refine ⟨fun cs => exists_symbol_of_characters options, ?_, ?_, ?_, ?_⟩
  · intro token htoken
    obtain ⟨tail, hdrop, hread⟩ := read?_of_mem_place hreads htoken
    simp only [hdrop]
    exact isSymbolAt_of_read? hread
  · intro failure hfailure
    obtain ⟨tail, hdrop, -, -, hsymbol, -⟩ := (isFirstBad_of_tokenize hfailure).exists_drop_eq
    rw [hdrop]
    exact takeWhile_eq_nil_of_stops ((stops_cons _ _ _).mpr hsymbol)
  · exact fun token htoken characters hkind => unmarked_of_mem_place hreads htoken hkind
  · rw [map_kind_place]
    exact not_adjacent_symbols hreads

theorem scan_symbols_overlapping :
    ∃ token ∈ (ofSource .standard "x+**/*").recognized,
      token.position.range.start = 1 ∧ token.kind = .symbol "+*" ∧
        "+**/*".toList.takeWhile isSymbolCharacter ≠ [] ∧
        IsSymbolAt "+**/*".toList token.kind "+*".toList := by
  have hreads : Reads .standard "x+**/*".toList
      [⟨.identifier "x", 1⟩, ⟨.symbol "+*", 2⟩, ⟨.multilineCommentEnd, 2⟩, ⟨.symbol "*", 1⟩]
      [] := by
    change Reads _ ("x".toList ++ ("+*".toList ++ ("*/".toList ++ ("*".toList ++ [])))) _ _
    exact .step rfl (.step rfl (.step rfl (.step rfl (.done []))))
  have htoken : (⟨.symbol "+*", ⟨⟨1, 3⟩, 0, ⟨1, 3⟩⟩⟩ : Token) ∈
      (ofSource .standard "x+**/*").recognized := by
    rw [recognized_of_reads hreads (.inl rfl)]
    simp [place, Cursor.position, Cursor.advance, Cursor.start]
  have hrun : "+**/*".toList.takeWhile isSymbolCharacter ≠ [] := by decide
  exact ⟨_, htoken, rfl, rfl, hrun, (scan_symbols .standard "x+**/*").2.1 _ htoken hrun⟩

end ScanParse
