import Rulebook.Proofs.Lexemes

set_option autoImplicit false

/-!
Scanning piece by piece. A piece of text is scanned by itself when what follows keeps apart from it: words,
whole numbers, texts in quotes and operators each give their token, whatever stands behind it.
-/

namespace Rulebook.Token

open Text

theorem apart_cons {c : Char} (h : c ∈ [' ', '(', ')', '[', ']', ',']) (rest : List Char) :
    Apart (c :: rest) := by
  simp only [List.mem_cons, List.not_mem_nil, or_false] at h
  rcases h with rfl | rfl | rfl | rfl | rfl | rfl <;> exact ⟨rfl, by simp⟩

theorem apart_dot {c : Char} (h : c.isDigit = false) (rest : List Char) : Apart ('.' :: c :: rest) := by
  have hdot : isWordChar '.' = false := by decide
  exact ⟨by simp [runsOn, hdot, h], by simp⟩

/-- Scanning gives tokens that meet a condition, and then goes on with `rest`. -/
def ScansTo (C : List Token → Prop) (cs rest : List Char) : Prop :=
  ∀ position, ∃ position' ts, C ts ∧ scanFrom position cs = (scanFrom position' rest).map (ts ++ ·)

/-- One token of this kind with this text. -/
def IsToken (k : TokenKind) (text : String) (ts : List Token) : Prop :=
  ∃ position, ts = [⟨k, text, position⟩]

section

variable {C D : List Token → Prop} {cs mid rest : List Char}

/-- Two pieces of text, one behind the other. -/
theorem ScansTo.seq (h : ScansTo C cs mid) (h' : ScansTo D mid rest) :
    ScansTo (fun ts => ∃ us, C us ∧ ∃ vs, D vs ∧ us ++ vs = ts) cs rest := by
  intro position
  obtain ⟨position', us, hus, hscan⟩ := h position
  obtain ⟨position'', vs, hvs, hscan'⟩ := h' position'
  refine ⟨position'', us ++ vs, ⟨us, hus, vs, hvs, rfl⟩, ?_⟩
  rw [hscan, hscan']
  cases scanFrom position'' rest <;> simp [Except.map]

theorem ScansTo.mono (h : ScansTo C cs rest) (hD : ∀ ts, C ts → D ts) : ScansTo D cs rest := by
  intro position
  obtain ⟨position', ts, hts, hscan⟩ := h position
  exact ⟨position', ts, hD ts hts, hscan⟩

theorem scansTo_nil (h : C []) (cs : List Char) : ScansTo C cs cs := by
  intro position
  refine ⟨position, [], h, ?_⟩
  cases scanFrom position cs <;> simp [Except.map]

theorem ScansTo.blank {c : Char} (hc : isBlank c = true) (h : ScansTo C cs rest) :
    ScansTo C (c :: cs) rest := by
  intro position
  obtain ⟨position', ts, hts, hscan⟩ := h (position + 1)
  refine ⟨position', ts, hts, ?_⟩
  rw [scanFrom, if_pos hc, hscan]

theorem ScansTo.blank_before (h : ScansTo C cs rest) : ScansTo C (' ' :: cs) rest :=
  h.blank (by decide)

theorem ScansTo.blank_behind (h : ScansTo C cs (' ' :: rest)) : ScansTo C cs rest := by
  have hblank : isBlank ' ' = true := by decide
  intro position
  obtain ⟨position', ts, hts, hscan⟩ := h position
  refine ⟨position' + 1, ts, hts, ?_⟩
  rw [hscan, scanFrom, if_pos hblank]

end

section

variable {c : Char} {cs rest : List Char} {k : TokenKind}

/-- A token as it is written is scanned as this token. -/
theorem Lexeme.scansTo {a : List Char} (h : Lexeme c a k rest) :
    ScansTo (IsToken k (String.ofList (c :: a))) (c :: (a ++ rest)) rest := by
  intro position
  refine ⟨position + a.length + 1, _, ⟨position, rfl⟩, ?_⟩
  rw [scanFrom, if_neg (by simp [h.isBlank_eq_false]), h.lexeme_eq]
  have hdrop : (a ++ rest).drop a.length = rest := List.drop_left
  have htake : (a ++ rest).take a.length = a := List.take_left
  simp only [bind, Except.bind, hdrop, htake]
  cases scanFrom (position + a.length + 1) rest <;> rfl

theorem scansTo_operator (cs : List Char) (h : (c :: cs, k) ∈ operators) (hrest : Apart rest) :
    ScansTo (IsToken k (String.ofList (c :: cs))) (c :: (cs ++ rest)) rest :=
  (Lexeme.operator (operates_of_ne h hrest.2)).scansTo

/-- The signs that are operators whatever stands behind them. -/
inductive Mark : Char → TokenKind → Prop
  | openParen : Mark '(' .openParen
  | closeParen : Mark ')' .closeParen
  | openBracket : Mark '[' .openBracket
  | closeBracket : Mark ']' .closeBracket
  | comma : Mark ',' .comma
  | dot : Mark '.' .dot
  | minus : Mark '-' .minus

theorem Mark.scansTo (h : Mark c k) (rest : List Char) :
    ScansTo (IsToken k (String.ofList [c])) (c :: rest) rest := by
  have hoperates : Operates [c] k rest := by
    cases h <;> exact ⟨by simp [operators], by simp [operators]⟩
  exact (Lexeme.operator hoperates).scansTo

/-! ### Whole numbers -/

theorem scansTo_digits {n : Nat} (hn : (Number.int n).isWritable = true) (hrest : Apart rest) :
    ScansTo (IsToken (.int n) (toString n)) ((toString n).toList ++ rest) rest := by
  have hdigits : ∀ d ∈ Nat.toDigits 10 n, d.isDigit = true := fun d hd =>
    Nat.isDigit_of_mem_toDigits (by decide) (by decide) hd
  have hvalue : NumberLiteral.digitsValue (Nat.toDigits 10 n) = n := Nat.ofDigitChars_ten_toDigits
  have hlength : (Nat.toDigits 10 n).length ≤ mostDigits :=
    (Nat.length_toDigits_le_iff (by decide) (by decide)).mpr (Number.isWritable_int_iff.mp hn)
  rw [Nat.toString_eq_ofList_toDigits, String.toList_ofList]
  generalize htext : Nat.toDigits 10 n = digits at hdigits hvalue hlength
  cases digits with
  | nil => exact absurd htext Nat.toDigits_ne_nil
  | cons c cs =>
    have hwritten : NumberLiteral.Written ⟨c :: cs, [], []⟩ := ⟨⟨by simp, hdigits⟩, .none, .none⟩
    have hlong : NumberLiteral.isLong ⟨c :: cs, [], []⟩ = false := by
      simpa [NumberLiteral.isLong] using fun _ => hlength
    have hlexeme : Lexeme c cs _ rest :=
      .number hwritten hlong (by simp [NumberLiteral.text]) hrest.1
    rw [← hvalue]
    exact hlexeme.scansTo

/-! ### Texts in quotes -/

/-- A character of a text in double quotes. -/
def escaped (c : Char) : List Char := if c = '"' ∨ c = '\\' then ['\\', c] else [c]

def quotedText (s : String) : String := String.ofList ('"' :: (s.toList.flatMap escaped ++ ['"']))

theorem written_escaped (s : List Char) :
    TextLiteral.Written '"' (s.flatMap escaped ++ ['"']) s := by
  induction s with
  | nil => exact .close
  | cons c cs ih =>
    rw [List.flatMap_cons, List.append_assoc, escaped]
    by_cases hspecial : c = '"' ∨ c = '\\'
    · have hunescape : TextLiteral.unescape? c = some c := by
        rcases hspecial with rfl | rfl <;> rfl
      rw [if_pos hspecial]
      exact .escape hunescape ih
    · obtain ⟨hquote, hbackslash⟩ := not_or.mp hspecial
      rw [if_neg hspecial]
      exact .plain hquote hbackslash ih

theorem scansTo_quotedText (s : String) (rest : List Char) :
    ScansTo (IsToken (.text s) (quotedText s)) ((quotedText s).toList ++ rest) rest := by
  have hlexeme : Lexeme '"' _ _ rest := .text (.inl rfl) (written_escaped s.toList)
  rw [String.ofList_toList] at hlexeme
  rw [quotedText, String.toList_ofList]
  exact hlexeme.scansTo

/-! ### Tokens that were scanned -/

/-- The text of a token of this kind, which gives the same token again wherever it is kept apart. -/
structure Spells (k : TokenKind) (text : String) : Prop where
  scansTo : ∀ {rest}, Apart rest → ScansTo (IsToken k text) (text.toList ++ rest) rest
  noDigit : ∃ c cs, text.toList = c :: cs ∧ c.isDigit = false

theorem Lexeme.spells {a b : List Char} (h : Lexeme c a k b) (hk : k.namesMember = true) :
    Spells k (String.ofList (c :: a)) := by
  have hdigit : c.isDigit = false := by
    cases h with
    | number => rw [NumberLiteral.namesMember_kind] at hk; cases hk
    | text => cases hk
    | word hc => exact (isDigit_eq_false_of_isWordStart hc).1
    | operator h => exact (plain_of_operates h).2.1
  refine ⟨fun {rest} hrest => ?_, c, a, by simp, hdigit⟩
  rw [String.toList_ofList]
  exact (h.behind (hrest.endsAlike b)).scansTo

theorem spells_word (c : Char) (cs : List Char) (hc : isWordStart c = true)
    (hcs : cs.all isWordChar = true) : Spells (wordKind (c :: cs)) (String.ofList (c :: cs)) :=
  (Lexeme.word hc (List.all_eq_true.mp hcs) (b := []) rfl).spells (namesMember_wordKind _)

theorem Lexeme.isWritable {a b : List Char} (h : Lexeme c a k b) {n : Nat} (hn : k = .int n) :
    (Number.int n).isWritable = true := by
  cases h with
  | number hwritten hlong => exact hwritten.isWritable hlong hn
  | text => cases hn
  | word =>
    have hmember := namesMember_wordKind (c :: a)
    rw [hn] at hmember
    cases hmember
  | operator h =>
    subst hn
    simp [Operates, operators] at h

/-- What a text was scanned for can be written again: names, and integers. -/
structure Respelled (t : Token) : Prop where
  member : t.kind.namesMember = true → Spells t.kind t.text
  whole : ∀ {n}, t.kind = .int n → (Number.int n).isWritable = true

theorem respelled_of_scan {text : String} {ts : List Token} (h : scan text = .ok ts) :
    ∀ t ∈ ts, t.Respelled :=
  (scan_eq_ok_iff.mp h).forall_mem fun hlexeme => ⟨hlexeme.spells, hlexeme.isWritable⟩

end

end Rulebook.Token
