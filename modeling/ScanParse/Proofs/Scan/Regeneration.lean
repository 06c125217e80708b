import Mathlib.Data.List.Forall2
import ScanParse.Proofs.Lexical.Canonical
import ScanParse.Proofs.Scan.Reading

/-!
Writing tokens back as text. A list of tokens is separated if each spells itself
and none is prolonged by the text of those behind it: exactly then its text scans
to it again. The tokens of a scan are separated, although their text is not the
source: where the two differ, no boundary depends on the difference.
-/

namespace ScanParse

open Lexeme Scan Text

/-- The text of a list of kinds. -/
def written (kinds : List TokenKind) : List Char :=
  kinds.flatMap (·.toText.toList)

@[simp] theorem written_nil : written [] = [] := rfl

@[simp] theorem written_cons (kind : TokenKind) (kinds : List TokenKind) :
    written (kind :: kinds) = kind.toText.toList ++ written kinds := by
  simp [written]

theorem toList_regenerate (tokens : List Token) :
    (Token.regenerate tokens).toList = written (tokens.map (·.kind)) := by
  simp only [Token.regenerate, String.toList_join, written, List.flatMap_map]
  rfl

/-- Every token spells itself, and the text behind it does not prolong it. -/
def Separated (options : ScanOptions) : List TokenKind → Prop
  | [] => True
  | kind :: kinds =>
      Spelling options kind kind.toText.toList ∧ Apart options kind (written kinds) ∧
        Separated options kinds

theorem exists_reads_of_separated {options : ScanOptions} {kinds : List TokenKind}
    (h : Separated options kinds) :
    ∃ lexemes, Reads options (written kinds) lexemes [] ∧
      List.Forall₂ (fun a b => a.same b = true) (lexemes.map (·.kind)) kinds := by
  induction kinds with
  | nil => exact ⟨[], .done [], .nil⟩
  | cons kind kinds ih =>
      obtain ⟨hspelling, hapart, hkinds⟩ := h
      obtain ⟨lexemes, hreads, hsame⟩ := ih hkinds
      obtain ⟨found, hread, hfound⟩ := read?_of_spelling hspelling hapart
      rw [written_cons]
      exact ⟨_, .step hread hreads, .cons hfound hsame⟩

theorem beq_of_forall₂_same {a b : List TokenKind}
    (h : List.Forall₂ (fun a b => a.same b = true) a b) : (a == b) = true := by
  induction h with
  | nil => rfl
  | cons hsame _ ih =>
      rw [List.cons_beq_cons, Bool.and_eq_true]
      exact ⟨hsame, ih⟩

theorem forall₂_same_of_beq {a b : List TokenKind} (h : (a == b) = true) :
    List.Forall₂ (fun a b => a.same b = true) a b := by
  induction a generalizing b with
  | nil =>
      cases b with
      | nil => exact .nil
      | cons => simp at h
  | cons kind kinds ih =>
      cases b with
      | nil => simp at h
      | cons other others =>
          rw [List.cons_beq_cons, Bool.and_eq_true] at h
          exact .cons h.1 (ih h.2)

theorem written_of_same {a b : List TokenKind}
    (h : List.Forall₂ (fun a b => a.same b = true) a b) : written a = written b := by
  induction h with
  | nil => rfl
  | cons hsame _ ih => rw [written_cons, written_cons, toText_of_same hsame, ih]

theorem separated_of_same {options : ScanOptions} {a b : List TokenKind}
    (h : List.Forall₂ (fun a b => a.same b = true) a b) (hb : Separated options b) :
    Separated options a := by
  induction h with
  | nil => exact hb
  | cons hsame hrest ih =>
      obtain ⟨hspelling, hapart, hkinds⟩ := hb
      refine ⟨?_, ?_, ih hkinds⟩
      · rw [toText_of_same hsame]
        exact spelling_of_same hsame hspelling
      · rw [written_of_same hrest]
        exact apart_of_same hsame hapart

/-- The second text is the first one with some tabs, line ends and numbers
rewritten. A number is compared by its first digit only, and with it ends what
is said of the texts. -/
inductive Alike : List Char → List Char → Prop
  | nil : Alike [] []
  | digit {c d : Char} {s t : List Char} :
      c.isDigit = true → d.isDigit = true → Alike (c :: s) (d :: t)
  | tab {s t : List Char} : Alike (' ' :: ' ' :: ' ' :: ' ' :: s) ('\t' :: t)
  | newline {s t : List Char} : Alike ('\r' :: '\n' :: s) ('\n' :: t)
  | cons {s t : List Char} (c : Char) : Alike s t → Alike (c :: s) (c :: t)

namespace Alike

theorem append_left (text : List Char) {s t : List Char} (h : Alike s t) :
    Alike (text ++ s) (text ++ t) := by
  induction text with
  | nil => exact h
  | cons c text ih => exact .cons c ih

theorem stops {p : Char → Bool} {s t : List Char} (h : Alike s t)
    (hdigit : ∀ c d : Char, c.isDigit = true → d.isDigit = true → p c = p d)
    (htab : p '\t' = false) (hnewline : p '\n' = false) (hs : Stops p s) : Stops p t := by
  cases h with
  | nil => exact hs
  | digit hc hd =>
      rw [stops_cons] at hs ⊢
      rw [← hs]
      exact hdigit _ _ hd hc
  | tab => rwa [stops_cons]
  | newline => rwa [stops_cons]
  | cons c _ =>
      rw [stops_cons] at hs ⊢
      exact hs

theorem exists_cons {c : Char} {s t : List Char} (h : Alike s (c :: t))
    (hdigit : c.isDigit = false) (htab : c ≠ '\t') (hnewline : c ≠ '\n') :
    ∃ tail, s = c :: tail ∧ Alike tail t := by
  cases h with
  | digit _ hd => simp [hdigit] at hd
  | tab => exact absurd rfl htab
  | newline => exact absurd rfl hnewline
  | cons _ htail => exact ⟨_, rfl, htail⟩

theorem exists_digit {d : Char} {s t : List Char} (h : Alike s (d :: t))
    (hdigit : d.isDigit = true) : ∃ c tail, s = c :: tail ∧ c.isDigit = true := by
  cases h with
  | digit hc _ => exact ⟨_, _, rfl, hc⟩
  | tab => simp at hdigit
  | newline => simp at hdigit
  | cons _ _ => exact ⟨d, _, rfl, hdigit⟩

theorem pair_notMem_markers {p : Char → Bool} {c d : Char} (hd : p d = true)
    (hslash : p '/' = false) (hstar : p '*' = false) : [c, d] ∉ markers := by
  have hne := ne_of_class hd hslash
  have hne' := ne_of_class hd hstar
  simp [markers, hne, hne']

theorem commentMarker?_eq_none_iff {s t : List Char} (h : Alike s t) :
    commentMarker? s = none ↔ commentMarker? t = none := by
  cases h with
  | nil => rfl
  | digit hc hd =>
      rw [commentMarker?_of_ne (ne_of_class (p := Char.isDigit) hc (by decide))
          (ne_of_class (p := Char.isDigit) hc (by decide)),
        commentMarker?_of_ne (ne_of_class (p := Char.isDigit) hd (by decide))
          (ne_of_class (p := Char.isDigit) hd (by decide))]
  | tab => exact iff_of_true rfl rfl
  | newline => exact iff_of_true rfl rfl
  | cons c htail =>
      cases htail with
      | nil => rfl
      | digit hd he =>
          rw [Lexeme.commentMarker?_eq_none_iff, Lexeme.commentMarker?_eq_none_iff]
          exact iff_of_true (pair_notMem_markers (p := Char.isDigit) hd (by decide) (by decide))
            (pair_notMem_markers (p := Char.isDigit) he (by decide) (by decide))
      | tab =>
          rw [Lexeme.commentMarker?_eq_none_iff, Lexeme.commentMarker?_eq_none_iff]
          exact iff_of_true (by simp [markers]) (by simp [markers])
      | newline =>
          rw [Lexeme.commentMarker?_eq_none_iff, Lexeme.commentMarker?_eq_none_iff]
          exact iff_of_true (by simp [markers]) (by simp [markers])
      | cons d _ =>
          rw [Lexeme.commentMarker?_eq_none_iff, Lexeme.commentMarker?_eq_none_iff]

theorem startsExponent {s t : List Char} (h : Alike s t) (ht : StartsExponent t) :
    StartsExponent s := by
  obtain ⟨_, rest, rfl, letter, sign, digits, rfl, hletter, hsign, hdigits⟩ := ht
  obtain ⟨d, digits, rfl, hd⟩ := exists_cons_of_isDigits hdigits
  obtain ⟨s, rfl, hs⟩ : ∃ tail, s = letter :: tail ∧
      Alike tail (sign ++ (d :: digits) ++ rest) := by
    rw [List.cons_append] at h
    rcases hletter with rfl | rfl
    · exact h.exists_cons (by decide) (by decide) (by decide)
    · exact h.exists_cons (by decide) (by decide) (by decide)
  obtain ⟨c, tail, rfl, hc⟩ : ∃ c tail, s = sign ++ (c :: tail) ∧ c.isDigit = true := by
    rcases hsign with rfl | rfl | rfl
    · exact hs.exists_digit hd
    · obtain ⟨_, rfl, hdigit⟩ := hs.exists_cons (by decide) (by decide) (by decide)
      obtain ⟨c, tail, rfl, hc⟩ := hdigit.exists_digit hd
      exact ⟨c, tail, rfl, hc⟩
    · obtain ⟨_, rfl, hdigit⟩ := hs.exists_cons (by decide) (by decide) (by decide)
      obtain ⟨c, tail, rfl, hc⟩ := hdigit.exists_digit hd
      exact ⟨c, tail, rfl, hc⟩
  exact ⟨letter :: (sign ++ [c]), tail, by simp, letter, sign, [c], rfl, hletter, hsign,
    by simp, by simpa using hc⟩

theorem spaces {s t : List Char} (h : Alike s t) (ht : [' ', ' ', ' '] <+: t) :
    [' ', ' ', ' '] <+: s := by
  obtain ⟨rest, rfl⟩ := ht
  obtain ⟨_, rfl, htwo⟩ := h.exists_cons (by decide) (by decide) (by decide)
  obtain ⟨_, rfl, hone⟩ := htwo.exists_cons (by decide) (by decide) (by decide)
  obtain ⟨tail, rfl, -⟩ := hone.exists_cons (by decide) (by decide) (by decide)
  exact ⟨tail, rfl⟩

end Alike

theorem stops_digit_of_alike {s t : List Char} (h : Alike s t)
    (hs : Stops Char.isDigit s) : Stops Char.isDigit t :=
  h.stops (fun _ _ hc hd => hc.trans hd.symm) (by decide) (by decide) hs

theorem stops_point_of_alike {s t : List Char} (h : Alike s t)
    (hs : Stops (· == '.') s) : Stops (· == '.') t := by
  refine h.stops (fun c d hc hd => ?_) (by decide) (by decide) hs
  have hc := ne_of_class (p := Char.isDigit) (d := '.') hc (by decide)
  have hd := ne_of_class (p := Char.isDigit) (d := '.') hd (by decide)
  simp [hc, hd]

theorem apart_of_alike {options : ScanOptions} {kind : TokenKind} {s t : List Char}
    (h : Alike s t) (hs : Apart options kind s) : Apart options kind t := by
  cases kind with
  | float value spelling =>
      obtain ⟨hdigit, hpoint, hexponent⟩ := hs
      exact ⟨stops_digit_of_alike h hdigit,
        fun hfraction hpower => stops_point_of_alike h (hpoint hfraction hpower),
        fun hpower ht => hexponent hpower (h.startsExponent ht)⟩
  | int value => exact ⟨stops_digit_of_alike h hs.1, stops_point_of_alike h hs.2⟩
  | identifier name =>
      refine h.stops (fun c d hc hd => ?_) ?_ ?_ hs
      · simp [continuesIdentifier, isAlphabetic_of_isDigit hc, isAlphabetic_of_isDigit hd, hc, hd]
      · simp [continuesIdentifier, show isAlphabetic '\t' = false by decide]
      · simp [continuesIdentifier, show isAlphabetic '\n' = false by decide]
  | symbol characters =>
      refine ⟨fun c hc => ?_, fun hmarker => ?_⟩
      · exact (Alike.cons c h).commentMarker?_eq_none_iff.mp (hs.1 c hc)
      · refine h.stops (fun c d hc hd => ?_) (by decide) (by decide)
          (hs.2 (h.commentMarker?_eq_none_iff.mpr hmarker))
        rw [isSymbolCharacter_of_isDigit hc, isSymbolCharacter_of_isDigit hd]
  | space => exact fun ht => hs (h.spaces ht)
  | _ => trivial

theorem alike_of_spelling {options : ScanOptions} {kind : TokenKind}
    {text s t : List Char} (hspelling : Spelling options kind text) (h : Alike s t) :
    Alike (text ++ s) (kind.toText.toList ++ t) := by
  cases hspelling with
  | fixed => exact h.append_left _
  | fourSpaces => exact .tab
  | lineEnd => exact .newline
  | int hdigits hvalue =>
      rw [toList_toText_int hvalue]
      obtain ⟨c, tail, htext, hc⟩ := exists_cons_of_isDigits hdigits
      obtain ⟨d, digits, hwritten, hd⟩ :=
        exists_cons_of_isDigits (isDigits_toDigits (digitsValue text))
      rw [htext, List.cons_append, ← htext, hwritten]
      exact .digit hc hd
  | _ =>
      rw [TokenKind.toText, String.toList_ofList]
      exact h.append_left _

theorem alike_of_reads {options : ScanOptions} {cs rest : List Char}
    {lexemes : List Lexeme} (h : Reads options cs lexemes rest) (hrest : rest = []) :
    Alike cs (written (lexemes.map (·.kind))) := by
  induction h with
  | done cs =>
      rw [hrest]
      exact .nil
  | step hread htail ih =>
      rw [List.map_cons, written_cons]
      exact alike_of_spelling (spelling_and_apart_of_read? hread).1 (ih hrest)

theorem separated_of_reads {options : ScanOptions} {cs rest : List Char}
    {lexemes : List Lexeme} (h : Reads options cs lexemes rest) (hrest : rest = []) :
    Separated options (lexemes.map (·.kind)) := by
  induction h with
  | done cs => trivial
  | step hread htail ih =>
      obtain ⟨hspelling, hapart⟩ := spelling_and_apart_of_read? hread
      exact ⟨spelling_toText hspelling, apart_of_alike (alike_of_reads htail hrest) hapart,
        ih hrest⟩

/-- A list of kinds scans back from its text exactly if it is separated. -/
theorem scans_back_iff_separated (options : ScanOptions) (kinds : List TokenKind)
    (source : String) (hsource : source.toList = written kinds) :
    (∃ tokens, tokenize options source = .ok tokens ∧
        (tokens.map (·.kind) == kinds) = true) ↔ Separated options kinds := by
  constructor
  · rintro ⟨tokens, htokens, hsame⟩
    obtain ⟨lexemes, hreads, rfl⟩ := (tokenize_eq_ok_iff options source tokens).mp htokens
    rw [map_kind_place] at hsame
    have hflip := (forall₂_same_of_beq hsame).flip.imp fun _ _ => TokenKind.same_symm
    exact separated_of_same hflip (separated_of_reads hreads rfl)
  · intro hseparated
    obtain ⟨lexemes, hreads, hsame⟩ := exists_reads_of_separated hseparated
    rw [← hsource] at hreads
    refine ⟨_, (tokenize_eq_ok_iff options source _).mpr ⟨lexemes, hreads, rfl⟩, ?_⟩
    rw [map_kind_place]
    exact beq_of_forall₂_same hsame

theorem beq_of_map_kind {a b : List Token}
    (h : (a.map (·.kind) == b.map (·.kind)) = true) : (a == b) = true := by
  induction a generalizing b with
  | nil =>
      cases b with
      | nil => rfl
      | cons => simp at h
  | cons token tokens ih =>
      cases b with
      | nil => simp at h
      | cons other others =>
          rw [List.map_cons, List.map_cons, List.cons_beq_cons, Bool.and_eq_true] at h
          rw [List.cons_beq_cons, Bool.and_eq_true]
          exact ⟨h.1, ih h.2⟩

/-- The text of the tokens of a scan scans to the same tokens under the same
options, and so it is its own regeneration. -/
theorem tokenize_regenerate {options : ScanOptions} {source : String}
    {tokens : List Token} (h : tokenize options source = .ok tokens) :
    ∃ again, tokenize options (Token.regenerate tokens) = .ok again ∧
      (again == tokens) = true ∧ Token.regenerate again = Token.regenerate tokens := by
  obtain ⟨lexemes, hreads, rfl⟩ := (tokenize_eq_ok_iff options source tokens).mp h
  have hseparated := separated_of_reads hreads rfl
  rw [← map_kind_place .start] at hseparated
  obtain ⟨again, hagain, hsame⟩ := (scans_back_iff_separated options _ _
    (toList_regenerate (place .start lexemes))).mpr hseparated
  refine ⟨again, hagain, beq_of_map_kind hsame, ?_⟩
  rw [← String.toList_inj, toList_regenerate, toList_regenerate]
  exact written_of_same (forall₂_same_of_beq hsame)

theorem tokenize_regenerate_rewritten :
    ∃ tokens again, tokenize .standard "x\r\n    007" = .ok tokens ∧
      Token.regenerate tokens = "x\n\t7" ∧
        tokenize .standard (Token.regenerate tokens) = .ok again ∧
          (again == tokens) = true := by
  have hreads : Reads .standard "x\r\n    007".toList
      [⟨.identifier "x", 1⟩, ⟨.newline, 2⟩, ⟨.tab, 4⟩, ⟨.int 7, 3⟩] [] := by
    change Reads _ ("x".toList ++ ("\r\n".toList ++ ("    ".toList ++
      ("007".toList ++ [])))) _ _
    exact .step rfl (.step rfl (.step rfl (.step rfl (.done []))))
  have htokens : tokenize .standard "x\r\n    007" = .ok
      [⟨.identifier "x", ⟨⟨0, 1⟩, 0, ⟨0, 1⟩⟩⟩, ⟨.newline, ⟨⟨1, 3⟩, 0, ⟨1, 3⟩⟩⟩,
        ⟨.tab, ⟨⟨3, 7⟩, 1, ⟨0, 4⟩⟩⟩, ⟨.int 7, ⟨⟨7, 10⟩, 1, ⟨4, 7⟩⟩⟩] :=
    (tokenize_eq_ok_iff _ _ _).mpr ⟨_, hreads, rfl⟩
  obtain ⟨again, hagain, hsame, -⟩ := tokenize_regenerate htokens
  exact ⟨_, again, htokens, by decide, hagain, hsame⟩

end ScanParse
