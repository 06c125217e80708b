import ScanParse.Proofs.Listing.Line
import ScanParse.Proofs.Scan.Position
import ScanParse.Proofs.Scan.Regeneration

namespace ScanParse

open Lexeme Scan Text

variable {options other : ScanOptions}

theorem Lexeme.exists_numeral_of_read? {value : Binary64} {spelling : String}
    {text tail : List Char}
    (h : read? options (text ++ tail) = some ⟨.float value spelling, text.length⟩) :
    ∃ numeral, Numeral.read? spelling.toList = some numeral ∧
      value = .ofNumeral false numeral := by
  obtain ⟨hspelling, hapart⟩ := spelling_and_apart_of_read? h
  cases hspelling with
  | fixed hfixed => simp [TokenKind.isFixed] at hfixed
  | float hnumeral hpast =>
      obtain ⟨whole, fraction, exponent, rfl, hwhole, hfraction, hexponent⟩ := hnumeral
      have hlongest :=
        (longestNumeral_iff hwhole hfraction hexponent options value tail).mpr hapart
      obtain ⟨numeral, hnumeral, hread⟩ := @read?_of_longestNumeral options _ _ _ _ hlongest hpast
      refine ⟨numeral, by rw [String.toList_ofList, hnumeral], ?_⟩
      rw [List.append_assoc, List.append_assoc, hread] at h
      simpa [eq_comm] using h

theorem Lexeme.eq_of_same_of_read? {a b : TokenKind} {atext atail btext btail : List Char}
    (ha : read? options (atext ++ atail) = some ⟨a, atext.length⟩)
    (hb : read? other (btext ++ btail) = some ⟨b, btext.length⟩) (h : a.same b = true) :
    a = b := by
  rcases (TokenKind.same_iff a b).mp h with rfl | ⟨x, y, spelling, rfl, rfl⟩
  · rfl
  · obtain ⟨numeral, hnumeral, rfl⟩ := exists_numeral_of_read? ha
    obtain ⟨again, hagain, rfl⟩ := exists_numeral_of_read? hb
    obtain rfl : numeral = again := Option.some.inj (hnumeral.symm.trans hagain)
    rfl

def TokenKind.IsRead (kind : TokenKind) : Prop :=
  ∃ options text tail, read? options (text ++ tail) = some ⟨kind, text.length⟩

theorem isRead_of_tokenize {source : String} {tokens : List Token}
    (h : tokenize options source = .ok tokens) {token : Token} (htoken : token ∈ tokens) :
    token.kind.IsRead := by
  obtain ⟨lexemes, hreads, rfl⟩ := (tokenize_eq_ok_iff options source tokens).mp h
  obtain ⟨passed, text, tail, -, hread, -⟩ := exists_read_of_mem_place hreads [] htoken
  exact ⟨options, text, tail, hread⟩

theorem map_eq_of_map_eq {α β γ δ : Type} {f : α → γ} {g : β → γ} {u : α → δ} {v : β → δ}
    {xs : List α} {ys : List β} (hagree : ∀ x ∈ xs, ∀ y ∈ ys, f x = g y → u x = v y)
    (h : xs.map f = ys.map g) : xs.map u = ys.map v := by
  induction xs generalizing ys with
  | nil =>
      obtain rfl : ys = [] := List.map_eq_nil_iff.mp h.symm
      rfl
  | cons x xs ih =>
      cases ys with
      | nil => simp at h
      | cons y ys =>
          obtain ⟨hhead, htail⟩ := List.cons.inj h
          rw [List.map_cons, List.map_cons,
            hagree x List.mem_cons_self y List.mem_cons_self hhead,
            ih (fun x hx y hy => hagree x (.tail _ hx) y (.tail _ hy)) htail]

namespace Listing

variable {tokens others : List Token} {positions places : Bool}

theorem toText_plain (tokens : List Token) (positions : Bool) :
    (plain tokens positions).toText =
      "\n".intercalate (tokens.map (plain tokens positions).line) := by
  have hvisible : (plain tokens positions).visible = tokens := by simp [visible, plain]
  rw [toText, hvisible]

theorem splitOn_toText (hread : ∀ token ∈ tokens, token.kind.IsRead) (hne : tokens ≠ [])
    (positions : Bool) :
    (plain tokens positions).toText.toList.splitOn '\n' =
      tokens.map fun token => ((plain tokens positions).line token).toList := by
  rw [toText_plain, String.toList_intercalate, List.map_map]
  refine List.splitOn_intercalate '\n' ?_ (by simpa using hne)
  intro line hline
  obtain ⟨token, htoken, rfl⟩ := List.mem_map.mp hline
  obtain ⟨options, text, tail, hkind⟩ := hread token htoken
  exact newline_notMem_line tokens positions (spelling_and_apart_of_read? hkind).1

theorem toText_eq_empty_iff : (plain tokens positions).toText = "" ↔ tokens = [] := by
  rw [toText_plain]
  cases tokens with
  | nil => exact iff_of_true rfl rfl
  | cons token tokens =>
      cases tokens with
      | nil => simpa using line_ne_empty [token] positions token
      | cons next tokens => simp [String.intercalate_cons_cons]

theorem map_line_eq (hread : ∀ token ∈ tokens, token.kind.IsRead)
    (hother : ∀ token ∈ others, token.kind.IsRead)
    (h : (plain tokens positions).toText = (plain others places).toText) :
    tokens.map (plain tokens positions).line = others.map (plain others places).line := by
  have hempty : tokens = [] ↔ others = [] := calc
    tokens = [] ↔ (plain tokens positions).toText = "" := toText_eq_empty_iff.symm
    _ ↔ (plain others places).toText = "" := by rw [h]
    _ ↔ others = [] := toText_eq_empty_iff
  by_cases hne : tokens = []
  · rw [hne, hempty.mp hne]
    rfl
  · have hlines := splitOn_toText hread hne positions
    rw [h, splitOn_toText hother (hempty.not.mp hne) places] at hlines
    exact map_eq_of_map_eq (fun _ _ _ _ => String.toList_inj.mp) hlines.symm

theorem kind_eq_of_line_eq {a b : Token} (ha : a.kind.IsRead) (hb : b.kind.IsRead)
    (h : (plain tokens positions).line a = (plain others places).line b) : a.kind = b.kind := by
  obtain ⟨options, atext, atail, haread⟩ := ha
  obtain ⟨other, btext, btail, hbread⟩ := hb
  exact eq_of_same_of_read? haread hbread
    (same_of_line_eq (spelling_and_apart_of_read? haread).1
      (spelling_and_apart_of_read? hbread).1 h)

end Listing

/-- The lines of a listing are those of the tokens, one for each, and a listing belongs to one
list of tokens only; if it shows positions, to one list of tokens at these positions. -/
theorem listing_determines_tokens {source : String} {tokens : List Token}
    (hscan : tokenize options source = .ok tokens) (positions : Bool) :
    (tokens = [] → (Listing.plain tokens positions).toText = "") ∧
      (tokens ≠ [] → (Listing.plain tokens positions).toText.toList.splitOn '\n' =
        tokens.map fun token => ((Listing.plain tokens positions).line token).toList) ∧
      ∀ {other : ScanOptions} {text : String} {others : List Token} (places : Bool),
        tokenize other text = .ok others →
          (Listing.plain tokens positions).toText = (Listing.plain others places).toText →
            (tokens == others) = true ∧
              (positions = true → places = true →
                tokens.map (·.position) = others.map (·.position)) := by
  have hread : ∀ token ∈ tokens, token.kind.IsRead := fun _ => isRead_of_tokenize hscan
  refine ⟨Listing.toText_eq_empty_iff.mpr,
    fun hne => Listing.splitOn_toText hread hne positions, ?_⟩
  intro other text others places hother htext
  have hlater : ∀ token ∈ others, token.kind.IsRead := fun _ => isRead_of_tokenize hother
  have hlines := Listing.map_line_eq hread hlater htext
  constructor
  · have hkinds : tokens.map (·.kind) = others.map (·.kind) :=
      map_eq_of_map_eq
        (fun a ha b hb => Listing.kind_eq_of_line_eq (hread a ha) (hlater b hb)) hlines
    refine beq_of_map_kind ?_
    rw [hkinds]
    exact beq_of_forall₂_same (List.forall₂_same.mpr fun kind _ =>
      (TokenKind.same_iff kind kind).mpr (.inl rfl))
  · rintro rfl rfl
    refine map_eq_of_map_eq ?_ hlines
    intro a ha b hb hline
    exact Listing.position_eq_of_line_eq
      (Listing.kind_eq_of_line_eq (hread a ha) (hlater b hb) hline) hline

theorem listing_determines_tokens_indented :
    ∃ tokens others, tokenize .standard "a    1.50" = .ok tokens ∧
      tokenize .standard "a\t1.50" = .ok others ∧ tokens ≠ [] ∧
        (Listing.plain tokens false).toText = (Listing.plain others false).toText ∧
          (tokens == others) = true ∧
            (Listing.plain tokens true).toText ≠ (Listing.plain others true).toText := by
  let number : TokenKind := .float (.ofNumeral false ⟨['1'], ['5', '0'], 0, 4⟩) "1.50"
  have hspaces : Reads .standard "a    1.50".toList
      [⟨.identifier "a", 1⟩, ⟨.tab, 4⟩, ⟨number, 4⟩] [] := by
    change Reads _ ("a".toList ++ ("    ".toList ++ ("1.50".toList ++ []))) _ _
    exact .step rfl (.step rfl (.step rfl (.done [])))
  have htab : Reads .standard "a\t1.50".toList
      [⟨.identifier "a", 1⟩, ⟨.tab, 1⟩, ⟨number, 4⟩] [] := by
    change Reads _ ("a".toList ++ ("\t".toList ++ ("1.50".toList ++ []))) _ _
    exact .step rfl (.step rfl (.step rfl (.done [])))
  have htokens := (tokenize_eq_ok_iff _ _ _).mpr ⟨_, hspaces, rfl⟩
  have hothers := (tokenize_eq_ok_iff _ _ _).mpr ⟨_, htab, rfl⟩
  have htext : (Listing.plain (place .start [⟨.identifier "a", 1⟩, ⟨.tab, 4⟩, ⟨number, 4⟩])
      false).toText = (Listing.plain (place .start [⟨.identifier "a", 1⟩, ⟨.tab, 1⟩, ⟨number, 4⟩])
        false).toText := by
    rw [Listing.toText_plain, Listing.toText_plain]
    simp [place, Listing.line, Listing.plain]
  refine ⟨_, _, htokens, hothers, List.cons_ne_nil _ _, htext,
    ((listing_determines_tokens htokens false).2.2 false hothers htext).1, ?_⟩
  intro hpositions
  have hsame := ((listing_determines_tokens htokens true).2.2 true hothers hpositions).2 rfl rfl
  simp [place, Cursor.position, Cursor.advance, Cursor.start] at hsame

end ScanParse
