import Mathlib.Data.List.DropRight
import ScanParse.Report

namespace ScanParse.Report

open ScanParse.Text

theorem flatten_splitLines (cs : List Char) : (splitLines cs).flatten = cs := by
  fun_induction splitLines cs with
  | case1 => rfl
  | case2 rest ih => rw [List.flatten_cons, ih]; rfl
  | case3 c rest _ _ ih => rw [List.flatten_cons, ih]; rfl
  | case4 c rest _ _ hnil ih =>
      rw [hnil] at ih
      rw [← ih]
      rfl
  | case5 c rest _ _ line lines hlines ih =>
      rw [hlines] at ih
      rw [← ih]
      rfl

theorem eq_nil_of_splitLines {cs : List Char} (h : splitLines cs = []) : cs = [] := by
  rw [← flatten_splitLines cs, h]
  rfl

theorem splitLines_of_endsLine {c : Char} {cs : List Char} (h : endsLine c = true)
    (hfeed : c = '\r' → cs.head? ≠ some '\n') : splitLines (c :: cs) = [c] :: splitLines cs := by
  rw [splitLines, if_pos h]
  rintro rest rfl rfl
  exact hfeed rfl rfl

theorem splitLines_of_not_endsLine {c : Char} {cs : List Char} (h : endsLine c = false) :
    splitLines (c :: cs) = (c :: (splitLines cs).headD []) :: (splitLines cs).tail := by
  rw [splitLines, if_neg (by simp [h])]
  · cases splitLines cs <;> rfl
  · rintro rest rfl
    simp [endsLine] at h

theorem exists_splitLines_cons (c : Char) (cs : List Char) :
    ∃ line lines, splitLines (c :: cs) = (c :: line) :: lines := by
  cases hc : endsLine c with
  | false => exact ⟨_, _, splitLines_of_not_endsLine hc⟩
  | true =>
      by_cases hfeed : c = '\r' → cs.head? ≠ some '\n'
      · exact ⟨_, _, splitLines_of_endsLine hc hfeed⟩
      · simp only [not_forall, ne_eq, not_not] at hfeed
        obtain ⟨rfl, hhead⟩ := hfeed
        obtain ⟨rest, rfl⟩ := List.head?_eq_some_iff.mp hhead
        exact ⟨['\n'], splitLines rest, rfl⟩

theorem splitLines_append_of_forall {text rest line : List Char} {lines : List (List Char)}
    (htext : ∀ c ∈ text, endsLine c = false) (hrest : splitLines rest = line :: lines) :
    splitLines (text ++ rest) = (text ++ line) :: lines := by
  induction text with
  | nil => exact hrest
  | cons c text ih =>
      have hlines := ih fun d hd => htext d (List.mem_cons_of_mem c hd)
      rw [List.cons_append, splitLines_of_not_endsLine (htext c List.mem_cons_self), hlines]
      rfl

/-- The text ends in a line feed, if it is not empty. -/
def EndsInFeed (cs : List Char) : Prop :=
  ∀ c ∈ cs.getLast?, c = '\n'

theorem EndsInFeed.of_cons {c : Char} {cs : List Char} (h : EndsInFeed (c :: cs)) :
    EndsInFeed cs := by
  cases cs with
  | nil => simp [EndsInFeed]
  | cons d cs => rwa [EndsInFeed, List.getLast?_cons_cons] at h

theorem EndsInFeed.eq_newline {c : Char} (h : EndsInFeed [c]) : c = '\n' :=
  h c rfl

theorem splitLines_append {front : List Char} (h : EndsInFeed front) (rest : List Char) :
    splitLines (front ++ rest) = splitLines front ++ splitLines rest := by
  fun_induction splitLines front with
  | case1 => rfl
  | case2 front ih =>
      change ['\r', '\n'] :: splitLines (front ++ rest) = _
      rw [ih h.of_cons.of_cons]
      rfl
  | case3 c front hfeed hc ih =>
      have hhead : c = '\r' → (front ++ rest).head? ≠ some '\n' := by
        rintro rfl
        cases front with
        | nil => exact absurd h.eq_newline (by decide)
        | cons d front =>
            intro hd
            obtain rfl : d = '\n' := by simpa using hd
            exact hfeed front rfl rfl
      rw [List.cons_append, splitLines_of_endsLine hc hhead, ih h.of_cons]
      rfl
  | case4 c front _ hc hnil ih =>
      obtain rfl := eq_nil_of_splitLines hnil
      rw [h.eq_newline] at hc
      exact absurd rfl hc
  | case5 c front _ hc line lines hlines ih =>
      rw [List.cons_append, splitLines_of_not_endsLine (by simpa using hc), ih h.of_cons, hlines]
      rfl

/-- No line ends but in a line feed, alone or behind a carriage return. -/
def FeedsOnly (cs : List Char) : Prop :=
  ∀ index c, cs[index]? = some c → endsLine c = true →
    c = '\n' ∨ c = '\r' ∧ cs[index + 1]? = some '\n'

theorem FeedsOnly.head {c : Char} {cs : List Char} (h : FeedsOnly (c :: cs))
    (hc : endsLine c = true) : c = '\n' ∨ c = '\r' ∧ cs.head? = some '\n' := by
  have hhead := h 0 c rfl hc
  rwa [List.getElem?_cons_succ, ← List.head?_eq_getElem?] at hhead

theorem FeedsOnly.of_cons {c : Char} {cs : List Char} (h : FeedsOnly (c :: cs)) :
    FeedsOnly cs := by
  intro index d hd hend
  exact h (index + 1) d hd hend

theorem FeedsOnly.append_right {front rest : List Char} (h : FeedsOnly (front ++ rest)) :
    FeedsOnly rest := by
  induction front with
  | nil => exact h
  | cons c front ih => exact ih h.of_cons

theorem FeedsOnly.append_left {front rest : List Char} (h : FeedsOnly (front ++ rest))
    (hlast : EndsInFeed front) : FeedsOnly front := by
  intro index c hc hend
  obtain ⟨hlt, -⟩ := List.getElem?_eq_some_iff.mp hc
  rcases h index c (by rwa [List.getElem?_append_left hlt]) hend with hfeed | ⟨rfl, hnext⟩
  · exact .inl hfeed
  by_cases hwithin : index + 1 < front.length
  · rw [List.getElem?_append_left hwithin] at hnext
    exact .inr ⟨rfl, hnext⟩
  · have hindex : front.length - 1 = index := by omega
    have hreturn : '\r' = '\n' := hlast _ (by rw [List.getLast?_eq_getElem?, hindex, hc]; rfl)
    exact absurd hreturn (by decide)

theorem FeedsOnly.endsLine_eq_false {cs : List Char} (h : FeedsOnly cs) (hfree : '\n' ∉ cs) :
    ∀ c ∈ cs, endsLine c = false := by
  intro c hc
  obtain ⟨index, hindex⟩ := List.getElem?_of_mem hc
  by_contra hend
  rcases h index c hindex (by simpa using hend) with rfl | ⟨-, hnext⟩
  · exact hfree hc
  · exact hfree (List.mem_of_getElem? hnext)

theorem length_splitLines {cs : List Char} (h : FeedsOnly cs) (hlast : EndsInFeed cs) :
    (splitLines cs).length = cs.count '\n' := by
  fun_induction splitLines cs with
  | case1 => rfl
  | case2 rest ih =>
      rw [List.length_cons, ih h.of_cons.of_cons hlast.of_cons.of_cons]
      simp
  | case3 c rest hfeed hc ih =>
      rw [List.length_cons, ih h.of_cons hlast.of_cons]
      rcases h.head hc with rfl | ⟨rfl, hhead⟩
      · rw [List.count_cons_self]
      · obtain ⟨more, rfl⟩ := List.head?_eq_some_iff.mp hhead
        exact absurd rfl (hfeed more rfl)
  | case4 c rest _ hc hnil ih =>
      obtain rfl := eq_nil_of_splitLines hnil
      rw [hlast.eq_newline] at hc
      exact absurd rfl hc
  | case5 c rest _ hc line lines hlines ih =>
      have hne : c ≠ '\n' := by
        rintro rfl
        exact hc rfl
      rw [hlines] at ih
      rw [List.count_cons_of_ne hne]
      exact ih h.of_cons hlast.of_cons

/-- Among the lines of the source, the one of the index `line` holds the character
at the offset, and holds it at the column. -/
structure HasPlace (source : List Char) (offset line column : Nat) (text : List Char) : Prop where
  held : (splitLines source)[line]? = some text
  within : column < text.length
  start : ((splitLines source).take line).flatten.length + column = offset

theorem HasPlace.of_splitLines {source text : List Char} {before after : List (List Char)}
    {column : Nat} (h : splitLines source = before ++ text :: after)
    (hcolumn : column < text.length) :
    HasPlace source (before.flatten.length + column) before.length column text := by
  refine ⟨?_, hcolumn, ?_⟩
  · rw [h, List.getElem?_append_right (Nat.le_refl _), Nat.sub_self]
    rfl
  · rw [h, List.take_left]

theorem placeAmong_append (first : Nat) (before : List (List Char)) {line : List Char}
    (after : List (List Char)) {column : Nat} (h : column < line.length) :
    placeAmong first (before.flatten.length + column) (before ++ line :: after) =
      some ⟨first + before.length, column, trimmed line⟩ := by
  induction before generalizing first with
  | nil => simp [placeAmong, h]
  | cons head before ih =>
      have hlater : ¬ ((head :: before).flatten.length + column < head.length ∨
          ((before ++ line :: after).isEmpty ∧
            (head :: before).flatten.length + column = head.length)) := by
        simp only [List.flatten_cons, List.length_append, List.isEmpty_iff,
          List.append_eq_nil_iff, reduceCtorEq, and_false, false_and, or_false]
        omega
      have hoffset : (head :: before).flatten.length + column - head.length =
          before.flatten.length + column := by
        simp only [List.flatten_cons, List.length_append]
        omega
      rw [List.cons_append, placeAmong, if_neg hlater, hoffset, ih (first + 1),
        List.length_cons, Nat.add_assoc, Nat.add_comm 1]

namespace HasPlace

variable {source text : List Char} {offset line column : Nat}
  (h : HasPlace source offset line column text)

include h

theorem exists_splitLines_eq :
    ∃ before after, splitLines source = before ++ text :: after ∧ before.length = line ∧
      before.flatten.length + column = offset := by
  obtain ⟨hlt, htext⟩ := List.getElem?_eq_some_iff.mp h.held
  refine ⟨(splitLines source).take line, (splitLines source).drop (line + 1), ?_, ?_, h.start⟩
  · rw [← htext, ← List.drop_eq_getElem_cons hlt, List.take_append_drop]
  · rw [List.length_take, Nat.min_eq_left (Nat.le_of_lt hlt)]

theorem getElem?_eq : text[column]? = source[offset]? := by
  obtain ⟨before, after, hlines, -, hoffset⟩ := h.exists_splitLines_eq
  rw [← flatten_splitLines source, hlines, ← hoffset, List.flatten_append, List.flatten_cons,
    List.getElem?_append_right (Nat.le_add_right _ _), Nat.add_sub_cancel_left,
    List.getElem?_append_left h.within]

theorem offset_lt : offset < source.length := by
  have hcolumn := h.within
  have hchar := h.getElem?_eq
  rw [List.getElem?_eq_getElem hcolumn] at hchar
  exact (List.getElem?_eq_some_iff.mp hchar.symm).1

theorem placeAmong_eq :
    placeAmong 0 offset (splitLines source) = some ⟨line, column, trimmed text⟩ := by
  obtain ⟨before, after, hlines, hline, hoffset⟩ := h.exists_splitLines_eq
  rw [hlines, ← hoffset, placeAmong_append 0 before after h.within, Nat.zero_add, hline]

end HasPlace

theorem trimmed_eq_rdropWhile (line : List Char) : trimmed line = line.rdropWhile isBlank := rfl

theorem exists_blanks_eq (line : List Char) :
    ∃ cut, line = trimmed line ++ cut ∧ ∀ c ∈ cut, isBlank c = true := by
  refine ⟨line.rtakeWhile isBlank, ?_, fun c hc => List.mem_rtakeWhile_imp hc⟩
  rw [trimmed_eq_rdropWhile, List.rdropWhile_append_rtakeWhile]

theorem trimmed_getElem? {text : List Char} {column : Nat} {c : Char}
    (h : text[column]? = some c) (hc : isBlank c = false) : (trimmed text)[column]? = some c := by
  obtain ⟨cut, htext, hcut⟩ := exists_blanks_eq text
  by_cases hcolumn : column < (trimmed text).length
  · rw [htext, List.getElem?_append_left hcolumn] at h
    exact h
  · rw [htext, List.getElem?_append_right (Nat.le_of_not_lt hcolumn)] at h
    rw [hcut c (List.mem_of_getElem? h)] at hc
    cases hc

theorem mark_mem_textPieces {place : Place} {c : Char} (h : place.text[place.column]? = some c)
    (hc : isBlank c = false) : mark c.toString ∈ place.textPieces := by
  have hmem : (c, place.column) ∈ place.text.zipIdx := List.mem_zipIdx_iff_getElem?.mpr h
  refine List.mem_flatMap.mpr ⟨(c, place.column), hmem, ?_⟩
  simp [hc, mark]

theorem toList_textOf (pieces : List Piece) :
    (Piece.textOf false pieces).toList = pieces.flatMap fun piece => piece.content.toList := by
  rw [Piece.textOf, String.toList_join, List.flatMap_map]
  rfl

/-- A line as it is seen: every blank is as many spaces as it takes cells. -/
def shown (line : List Char) : String :=
  String.ofList (line.zipIdx.flatMap fun (c, column) =>
    if isBlank c then List.replicate (cellsAt column c) ' ' else [c])

theorem textOf_textPieces (place : Place) :
    Piece.textOf false place.textPieces = shown place.text := by
  rw [← String.toList_inj, toList_textOf, shown, String.toList_ofList, Place.textPieces,
    List.flatMap_assoc]
  congr 1
  funext ⟨c, column⟩
  dsimp only
  split
  · simp [List.flatMap_replicate]
  · rw [List.flatMap_singleton, Char.toString_eq_singleton, String.toList_singleton]

def titleLine : List Piece :=
  [⟨[.red], "Error:"⟩, bare " unrecognized item"]

/-- The line of a report that names the place in the file. -/
def locationLine (file : String) (line column : Nat) : List Piece :=
  [blanks ((toString line).length + 2), frame "╭", frame "─", frame "[",
    bare (file ++ ":" ++ toString line ++ ":" ++ toString column), frame "]"]

/-- The line of a report above the line of the source. -/
def gapLine (line : Nat) : List Piece :=
  [blanks ((toString line).length + 2), frame "│"]

/-- The line of a report that shows the line of the source, behind its number. -/
def sourceLine (line : Nat) (place : Place) : List Piece :=
  [blanks 1, frame (toString line ++ " │"), blanks 1] ++ place.textPieces

theorem textOf_titleLine : Piece.textOf false titleLine = "Error: unrecognized item" := rfl

theorem textOf_gapLine (line : Nat) :
    Piece.textOf false (gapLine line) = spaces ((toString line).length + 2) ++ "│" := by
  rw [← String.toList_inj, toList_textOf]
  simp [gapLine, blanks, frame, bare]

theorem textOf_locationLine (file : String) (line column : Nat) :
    Piece.textOf false (locationLine file line column) =
      spaces ((toString line).length + 2) ++ "╭─[" ++ file ++ ":" ++ toString line ++ ":" ++
        toString column ++ "]" := by
  rw [← String.toList_inj, toList_textOf]
  simp [locationLine, blanks, frame, bare]

theorem textOf_sourceLine (line : Nat) (place : Place) :
    Piece.textOf false (sourceLine line place) =
      " " ++ toString line ++ " │ " ++ shown place.text := by
  rw [← textOf_textPieces, ← String.toList_inj, toList_textOf, String.toList_append, toList_textOf]
  simp [sourceLine, blanks, frame, bare, spaces]

/-- The report names the file and the place, counted from one, and shows the line of the
place behind its number, with the character marked; `plain` is the text without styles. -/
structure Shows (report : Report) (place : Place) : Prop where
  lines : ∃ below, report.lines =
    titleLine :: locationLine report.file (place.line + 1) (place.column + 1) ::
      gapLine (place.line + 1) :: sourceLine (place.line + 1) place :: below
  plain : ∃ below, report.toText false =
    "Error: unrecognized item\n" ++
    spaces ((toString (place.line + 1)).length + 2) ++ "╭─[" ++ report.file ++ ":" ++
      toString (place.line + 1) ++ ":" ++ toString (place.column + 1) ++ "]\n" ++
    spaces ((toString (place.line + 1)).length + 2) ++ "│\n" ++
    " " ++ toString (place.line + 1) ++ " │ " ++ shown place.text ++ "\n" ++ below
  marked : ∀ c, place.text[place.column]? = some c → isBlank c = false →
    mark c.toString ∈ sourceLine (place.line + 1) place

/-- The output names the place in the file, counted from one, and shows its line below. -/
def Names (output file : String) (place : Place) : Prop :=
  ∃ above between below, output =
    above ++ "[" ++ file ++ ":" ++ toString (place.line + 1) ++ ":" ++
      toString (place.column + 1) ++ "]" ++ between ++ shown place.text ++ below

/-- What is assumed of a renderer: it finds the place of an offset among the lines of the source. -/
def Renders (render : Report → String) : Prop :=
  ∀ (report : Report) (line column : Nat) (text : List Char),
    HasPlace report.source.toList report.offset line column text →
      Names (render report) report.file ⟨line, column, trimmed text⟩

variable {report : Report} {place : Place}

theorem Shows.names (h : report.Shows place) : Names (report.toText false) report.file place := by
  obtain ⟨below, hplain⟩ := h.plain
  let number := toString (place.line + 1)
  refine ⟨"Error: unrecognized item\n" ++ spaces (number.length + 2) ++ "╭─",
    "\n" ++ spaces (number.length + 2) ++ "│\n" ++ " " ++ number ++ " │ ", "\n" ++ below, ?_⟩
  rw [hplain, ← String.toList_inj]
  simp [number]

theorem exists_lines_eq (hplace : report.place? = some place)
    (hoffset : report.offset < report.source.length) :
    ∃ below, report.lines =
      titleLine :: locationLine report.file (place.line + 1) (place.column + 1) ::
        gapLine (place.line + 1) :: sourceLine (place.line + 1) place :: below := by
  have hend : (report.offset == report.source.length) = false := by
    rw [beq_eq_false_iff_ne]
    exact Nat.ne_of_lt hoffset
  simp only [lines, hplace, hend]
  exact ⟨_, rfl⟩

theorem shows_of_place (hplace : report.place? = some place)
    (hoffset : report.offset < report.source.length) : report.Shows place := by
  obtain ⟨below, hlines⟩ := exists_lines_eq hplace hoffset
  refine ⟨⟨below, hlines⟩, ?_, ?_⟩
  · refine ⟨String.join (below.map fun pieces => Piece.textOf false pieces ++ "\n"), ?_⟩
    rw [toText, hlines, List.map_cons, List.map_cons, List.map_cons, List.map_cons,
      String.join_cons, String.join_cons, String.join_cons, String.join_cons,
      textOf_titleLine, textOf_locationLine, textOf_gapLine, textOf_sourceLine]
    simp [← String.toList_inj]
  · intro c hc hblank
    exact List.mem_append_right _ (mark_mem_textPieces hc hblank)

theorem renders_toText : Renders (toText false) := by
  intro report line column text hplace
  have hoffset : report.offset < report.source.length := by
    rw [← String.length_toList]
    exact hplace.offset_lt
  exact (shows_of_place hplace.placeAmong_eq hoffset).names

end ScanParse.Report
