import Mathlib.Data.List.Forall2
import Rulebook.Proofs.Tiling

set_option autoImplicit false

/-!
Texts in quotes. Between two quotes each character of a text is written as itself or behind a backslash, and whatever
is written in such a way is read as this text. Reading fails at an escape that stands for nothing and at the end of the
input, if these come before the closing quote.
-/

namespace Rulebook

namespace TextLiteral

/-- What may stand behind a backslash, with the characters that this stands for. -/
def escapes : List (Char × Char) :=
  [('"', '"'), ('\x27', '\x27'), ('\\', '\\'), ('n', '\n'), ('t', '\t'), ('r', '\r')]

/-- The ways to write a character between two quotes: as itself, or behind a backslash. -/
inductive PieceFor (quote c : Char) : List Char → Prop
  | plain : c ≠ quote → c ≠ '\\' → PieceFor quote c [c]
  | escaped {e : Char} : (e, c) ∈ escapes → PieceFor quote c ['\\', e]

/-- A text and the way in which it is written, character by character. -/
def Encodes (quote : Char) (s body : List Char) : Prop :=
  ∃ ps, List.Forall₂ (PieceFor quote) s ps ∧ body = ps.flatten

/-- The pieces in which a text is read: a backslash together with the character behind it, and any other character
by itself. -/
def pieces : List Char → List (List Char)
  | [] => []
  | '\\' :: c :: rest => ['\\', c] :: pieces rest
  | c :: rest => [c] :: pieces rest

/-- The end of the text or an unknown escape comes before the closing quote. -/
def Unclosed (quote : Char) (ps : List (List Char)) : Prop :=
  [quote] ∉ ps ∨ ∃ c, (∀ d, (c, d) ∉ escapes) ∧ ['\\', c] ∈ ps.takeWhile (· ≠ [quote])

section

variable {quote c d e : Char} {position : Nat} {s cs body rest : List Char} {ps : List (List Char)}

theorem unescape?_eq_some_iff : unescape? e = some c ↔ (e, c) ∈ escapes := by
  unfold unescape?
  split <;> simp_all [escapes, eq_comm]

theorem unescape?_eq_none_iff : unescape? e = none ↔ ∀ d, (e, d) ∉ escapes := by
  simp only [Option.eq_none_iff_forall_ne_some, ne_eq, unescape?_eq_some_iff]

/-! ### Encodings -/

theorem encodes_nil (quote : Char) : Encodes quote [] [] := ⟨[], .nil, rfl⟩

theorem Encodes.cons {x : List Char} (hx : PieceFor quote c x) (h : Encodes quote s body) :
    Encodes quote (c :: s) (x ++ body) := by
  obtain ⟨ps, hs, rfl⟩ := h
  exact ⟨x :: ps, .cons hx hs, rfl⟩

/-- Every text can be written in quotes. -/
theorem exists_encodes (hquote : quote = '"' ∨ quote = '\x27') (s : List Char) : ∃ body, Encodes quote s body := by
  induction s with
  | nil => exact ⟨[], encodes_nil quote⟩
  | cons c s ih =>
    obtain ⟨body, hbody⟩ := ih
    by_cases hplain : c ≠ quote ∧ c ≠ '\\'
    · exact ⟨_, hbody.cons (.plain hplain.1 hplain.2)⟩
    · have hself : (c, c) ∈ escapes := by
        rcases Decidable.not_and_iff_not_or_not.mp hplain with hc | hc
        · obtain rfl := Decidable.not_not.mp hc
          rcases hquote with rfl | rfl <;> simp [escapes]
        · obtain rfl := Decidable.not_not.mp hc
          simp [escapes]
      exact ⟨_, hbody.cons (.escaped hself)⟩

theorem Encodes.written (h : Encodes quote s body) : Written quote (body ++ [quote]) s := by
  obtain ⟨ps, hs, rfl⟩ := h
  induction hs with
  | nil => exact .close
  | cons hx _ ih =>
    cases hx with
    | plain hc hslash => exact .plain hc hslash ih
    | escaped he => exact .escape (unescape?_eq_some_iff.mpr he) ih

theorem Written.exists_encodes (h : Written quote cs s) :
    ∃ body, cs = body ++ [quote] ∧ Encodes quote s body := by
  induction h with
  | close => exact ⟨[], rfl, encodes_nil quote⟩
  | escape he _ ih =>
    obtain ⟨body, rfl, hbody⟩ := ih
    exact ⟨_, rfl, hbody.cons (.escaped (unescape?_eq_some_iff.mp he))⟩
  | plain hc hslash _ ih =>
    obtain ⟨body, rfl, hbody⟩ := ih
    exact ⟨_, rfl, hbody.cons (.plain hc hslash)⟩

/-! ### Closing quotes -/

theorem pieces_cons (hc : c ≠ '\\') (rest : List Char) : pieces (c :: rest) = [c] :: pieces rest :=
  pieces.eq_3 c rest fun _ _ h => absurd h hc

/-- Other pieces than the closing quote and unknown escapes do not decide it. -/
theorem unclosed_cons {p : List Char} (hclose : p ≠ [quote]) (hknown : ∀ c, p = ['\\', c] → ∃ d, (c, d) ∈ escapes) :
    Unclosed quote (p :: ps) ↔ Unclosed quote ps := by
  have hunknown : ∀ c, (∀ d, (c, d) ∉ escapes) → ['\\', c] ≠ p := by
    rintro c hc rfl
    obtain ⟨d, hd⟩ := hknown c rfl
    exact hc d hd
  unfold Unclosed
  rw [List.takeWhile_cons, if_pos (by simpa using hclose), List.mem_cons, not_or]
  constructor
  · rintro (⟨-, h⟩ | ⟨c, hc, hmem⟩)
    · exact .inl h
    · exact .inr ⟨c, hc, (List.mem_cons.mp hmem).resolve_left (hunknown c hc)⟩
  · rintro (h | ⟨c, hc, hmem⟩)
    · exact .inl ⟨fun heq => hclose heq.symm, h⟩
    · exact .inr ⟨c, hc, List.mem_cons_of_mem _ hmem⟩

theorem unclosed_of_unknown (hc : ∀ d, (c, d) ∉ escapes) : Unclosed quote (['\\', c] :: ps) := by
  refine .inr ⟨c, hc, ?_⟩
  rw [List.takeWhile_cons, if_pos (by simp)]
  exact List.mem_cons_self

theorem not_unclosed_of_close : ¬ Unclosed quote ([quote] :: ps) := by
  rintro (h | ⟨c, -, hmem⟩)
  · exact h List.mem_cons_self
  · rw [List.takeWhile_cons, if_neg (by simp)] at hmem
    cases hmem

/-- A text cannot be read exactly if it is not closed. -/
theorem scan_eq_error_iff (hquote : quote ≠ '\\') (start position : Nat) (cs : List Char) :
    (∃ f, scan quote start position cs = .error f) ↔ Unclosed quote (pieces cs) := by
  induction position, cs using scan.induct quote with
  | case1 position => exact iff_of_true ⟨_, scan.eq_1 ..⟩ (.inl List.not_mem_nil)
  | case2 position => exact iff_of_true ⟨_, scan.eq_2 ..⟩ (.inl (by simpa [pieces] using hquote))
  | case3 position c rest hc =>
    refine iff_of_true ⟨⟨position, .invalidEscape c⟩, ?_⟩ (unclosed_of_unknown (unescape?_eq_none_iff.mp hc))
    rw [scan.eq_3, hc]
  | case4 position c rest d hc ih =>
    have hknown : ∀ e, ['\\', c] = ['\\', e] → ∃ d, (e, d) ∈ escapes := by
      rintro e heq
      cases heq
      exact ⟨d, unescape?_eq_some_iff.mp hc⟩
    rw [pieces, unclosed_cons (by simp) hknown, ← ih, scan.eq_3, hc]
    exact exists_congr fun f => ⟨map_eq_error.mp, map_eq_error.mpr⟩
  | case5 position rest hend hescape =>
    rw [pieces_cons hquote, scan_cons hquote, if_pos rfl]
    exact iff_of_false (by simp) not_unclosed_of_close
  | case6 position c rest hend hescape hc ih =>
    have hslash : c ≠ '\\' := fun hslash => by
      cases rest with
      | nil => exact hend hslash rfl
      | cons d ds => exact hescape d ds hslash rfl
    rw [pieces_cons hslash, unclosed_cons (by simpa using hc) (by simp), ← ih, scan_cons hslash, if_neg hc]
    exact exists_congr fun f => ⟨map_eq_error.mp, map_eq_error.mpr⟩

end

end TextLiteral

namespace Token

open TextLiteral

/-- What is written between two quotes, with the quotes. -/
def enclosed (quote : Char) (body : List Char) : String := String.ofList (quote :: (body ++ [quote]))

section

variable {quote c : Char} {k : TokenKind} {position : Nat} {s a b body rest : List Char} {text : String}
  {f : SyntaxFault} {ls : List Listed}

theorem isBlank_quote (hquote : quote = '"' ∨ quote = '\x27') : Text.isBlank quote = false := by
  rcases hquote with rfl | rfl <;> decide

theorem Lexeme.of_quote (hquote : quote = '"' ∨ quote = '\x27') (h : Lexeme quote a k b) :
    ∃ s, Written quote a s ∧ k = .text (String.ofList s) := by
  cases h with
  | number hl _ htext _ =>
    have hdigit := hl.isDigit htext
    rcases hquote with rfl | rfl <;> cases hdigit
  | text _ hbody => exact ⟨_, hbody, rfl⟩
  | word hc _ _ => exact absurd hquote (isDigit_eq_false_of_isWordStart hc).2
  | operator hop => exact absurd hquote (plain_of_operates hop).2.2.1

theorem lexeme_quote_eq_error_iff (hquote : quote = '"' ∨ quote = '\x27') :
    lexeme position quote rest = .error (.fault f) ↔
      TextLiteral.scan quote position (position + 1) rest = .error f := by
  have hdigit : quote.isDigit = false := by rcases hquote with rfl | rfl <;> rfl
  rw [lexeme, if_neg (by simp [hdigit]), if_pos hquote]
  cases TextLiteral.scan quote position (position + 1) rest <;> simp

theorem listing_of_encodes (hquote : quote = '"' ∨ quote = '\x27') (h : Encodes quote s body) :
    listing (enclosed quote body) =
      .ok [.token ⟨.text (String.ofList s), enclosed quote body, 0⟩, .textEnd (enclosed quote body).length] := by
  have hscans : Scans 0 (quote :: (body ++ [quote] ++ [])) _ := .token (.text hquote h.written) (.done _)
  rw [List.append_nil] at hscans
  refine listing_eq_ok_iff.mpr ⟨[⟨.text (String.ofList s), enclosed quote body, 0⟩], ?_, rfl⟩
  rwa [scan_eq_ok_iff, enclosed, String.toList_ofList]

theorem listing_of_quote (hquote : quote = '"' ∨ quote = '\x27') (htext : text.toList = quote :: rest)
    (h : listing text = .ok ls) :
    ∃ s body more, Encodes quote s body ∧
      ls = .token ⟨.text (String.ofList s), enclosed quote body, 0⟩ :: more := by
  obtain ⟨ts, hscan, rfl⟩ := listing_eq_ok_iff.mp h
  have hscans := scan_eq_ok_iff.mp hscan
  rw [htext] at hscans
  cases hscans with
  | blank hblank _ =>
    rw [isBlank_quote hquote] at hblank
    cases hblank
  | token hlexeme _ =>
    obtain ⟨s, hwritten, rfl⟩ := hlexeme.of_quote hquote
    obtain ⟨body, rfl, hbody⟩ := hwritten.exists_encodes
    exact ⟨s, body, _, hbody, rfl⟩

/-- A text whose first token is refused is refused for the same reason. -/
theorem listing_of_lexeme_error (htext : text.toList = c :: rest) (hc : Text.isBlank c = false)
    (h : lexeme 0 c rest = .error (.fault f)) : listing text = .error (.fault ⟨f, text⟩) := by
  rw [listing, scan, htext, scanFrom, if_neg (by simp [hc]), h]
  rfl

end

/-- Every text can be written in quotes, and however it is written, this is one token with the text as its value. What
starts with a quote and can be listed starts with such a token. It is refused in its first token exactly if, read piece
by piece, it ends or has an unknown escape before the closing quote. -/
theorem listing_quoted {quote : Char} (hquote : quote = '"' ∨ quote = '\x27') :
    (∀ s, ∃ body, Encodes quote s body) ∧
    (∀ s body, Encodes quote s body →
      listing (enclosed quote body) =
        .ok [.token ⟨.text (String.ofList s), enclosed quote body, 0⟩, .textEnd (enclosed quote body).length]) ∧
    (∀ text rest ls, text.toList = quote :: rest → listing text = .ok ls →
      ∃ s body more, Encodes quote s body ∧
        ls = .token ⟨.text (String.ofList s), enclosed quote body, 0⟩ :: more) ∧
    ∀ text rest, text.toList = quote :: rest →
      ((∃ f, lexeme 0 quote rest = .error (.fault f) ∧ listing text = .error (.fault ⟨f, text⟩)) ↔
        Unclosed quote (pieces rest)) := by
  have hslash : quote ≠ '\\' := by rcases hquote with rfl | rfl <;> decide
  refine ⟨exists_encodes hquote, fun _ _ => listing_of_encodes hquote, fun _ _ _ => listing_of_quote hquote,
    fun text rest htext => ?_⟩
  rw [← scan_eq_error_iff hslash 0 1]
  constructor
  · rintro ⟨f, hlexeme, -⟩
    exact ⟨f, (lexeme_quote_eq_error_iff hquote).mp hlexeme⟩
  · rintro ⟨f, hscan⟩
    have hlexeme := (lexeme_quote_eq_error_iff hquote).mpr hscan
    exact ⟨f, hlexeme, listing_of_lexeme_error htext (isBlank_quote hquote) hlexeme⟩

/-- An apostrophe behind a backslash between apostrophes, and an unknown escape behind an escaped backslash. -/
theorem listing_quoted_apostrophes :
    Encodes '\x27' ['a', '\x27', '"'] ['a', '\\', '\x27', '"'] ∧
      listing (enclosed '\x27' ['a', '\\', '\x27', '"']) =
        .ok [.token ⟨.text "a'\"", enclosed '\x27' ['a', '\\', '\x27', '"'], 0⟩, .textEnd 6] ∧
      Unclosed '\x27' (pieces ['\\', '\\', '\\', 'q', '\x27']) ∧
      ∃ f, lexeme 0 '\x27' ['\\', '\\', '\\', 'q', '\x27'] = .error (.fault f) ∧
        listing "'\\\\\\q'" = .error (.fault ⟨f, "'\\\\\\q'"⟩) := by
  obtain ⟨-, hread, -, hrefused⟩ := @listing_quoted '\x27' (.inr rfl)
  have hapostrophe : PieceFor '\x27' '\x27' ['\\', '\x27'] := .escaped (by simp [escapes])
  have hencodes : Encodes '\x27' ['a', '\x27', '"'] ['a', '\\', '\x27', '"'] :=
    .cons (.plain (by decide) (by decide)) (.cons hapostrophe (.cons (.plain (by decide) (by decide)) (encodes_nil _)))
  have hunclosed : Unclosed '\x27' (pieces ['\\', '\\', '\\', 'q', '\x27']) :=
    .inr ⟨'q', by simp [escapes], by decide⟩
  exact ⟨hencodes, hread _ _ hencodes, hunclosed, (hrefused _ _ rfl).mpr hunclosed⟩

end Token

end Rulebook
