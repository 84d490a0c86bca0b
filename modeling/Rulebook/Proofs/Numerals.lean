import Rulebook.Proofs.Tiling

set_option autoImplicit false

/-!
Numbers in a text. Where a token starts with a digit, the longest number that stands there is taken as one token,
unless a word or a second fraction follows it at once; then the text is refused at the first digit. An integer of
too many digits is not taken, and the text is not read.
-/

namespace Rulebook

namespace NumberLiteral

/-- The longest number at the start of a text. -/
structure Longest (l : NumberLiteral) (cs : List Char) : Prop where
  written : l.Written
  begins : l.text <+: cs
  longest : ∀ l' : NumberLiteral, l'.Written → l'.text <+: cs → l'.text.length ≤ l.text.length

section

variable {cs fraction exponent behind : List Char} {l l' : NumberLiteral}

/-! ### Parts of a number are scanned at least as far as they are written -/

theorem digits_isPrefix (h : Digits cs) (behind : List Char) : cs <+: (cs ++ behind).takeWhile Char.isDigit := by
  rw [List.takeWhile_append_of_pos h.2]
  exact List.prefix_append cs _

theorem isPrefix_scanFraction (h : Fraction fraction) (behind : List Char) :
    fraction <+: scanFraction (fraction ++ behind) := by
  cases h with
  | none => exact List.nil_prefix
  | @some digits hdigits =>
    have hprefix := digits_isPrefix hdigits behind
    have hne : (digits ++ behind).takeWhile Char.isDigit ≠ [] := hprefix.ne_nil hdigits.1
    rw [List.cons_append, scanFraction, if_neg (by simpa using hne), List.prefix_cons_inj]
    exact hprefix

theorem isPrefix_scanExponent (h : Exponent exponent) (behind : List Char) :
    exponent <+: scanExponent (exponent ++ behind) := by
  cases h with
  | none => exact List.nil_prefix
  | @some e sign digits he hsign hdigits =>
    have hprefix := digits_isPrefix hdigits behind
    have hne : (digits ++ behind).takeWhile Char.isDigit ≠ [] := hprefix.ne_nil hdigits.1
    rw [List.cons_append, scanExponent, scanSign_append hsign hdigits, List.append_assoc, List.drop_left,
      if_pos ⟨he, hne⟩, List.cons_append, List.prefix_cons_inj, List.prefix_append_right_inj]
    exact hprefix

/-- An exponent ends the fraction before it. -/
theorem scanFraction_before_exponent (hfraction : Fraction fraction) (hexponent : Exponent exponent)
    (hne : exponent ≠ []) (behind : List Char) :
    scanFraction (fraction ++ (exponent ++ behind)) = fraction := by
  cases hexponent with
  | none => exact absurd rfl hne
  | @some e sign digits he hsign hdigits =>
    have hstop : NoDigit (e :: (sign ++ digits) ++ behind) := by
      rcases he with rfl | rfl <;> exact noDigit_cons rfl _
    cases hfraction with
    | none => rcases he with rfl | rfl <;> rfl
    | @some places hplaces =>
      rw [List.cons_append, scanFraction, takeWhile_digits hplaces.2 hstop]
      exact if_neg (by simpa using hplaces.1)

/-- What is scanned behind the whole part is no shorter than a fraction and an exponent that are written there. -/
theorem length_le_scanParts (hfraction : Fraction fraction) (hexponent : Exponent exponent) (behind : List Char)
    (hcs : cs = fraction ++ (exponent ++ behind)) :
    (fraction ++ exponent).length ≤
      (scanFraction cs ++ scanExponent (cs.drop (scanFraction cs).length)).length := by
  rw [List.length_append, List.length_append]
  by_cases hne : exponent = []
  · have hle := (isPrefix_scanFraction hfraction (exponent ++ behind)).length_le
    rw [← hcs] at hle
    rw [hne, List.length_nil, Nat.add_zero]
    exact Nat.le_add_right_of_le hle
  · have hle := (isPrefix_scanExponent hexponent behind).length_le
    rw [hcs, scanFraction_before_exponent hfraction hexponent hne, List.drop_left]
    exact Nat.add_le_add_left hle _

theorem text_scan (cs : List Char) :
    let rest := cs.drop (cs.takeWhile Char.isDigit).length
    (scan cs).text = cs.takeWhile Char.isDigit ++
      (scanFraction rest ++ scanExponent (rest.drop (scanFraction rest).length)) :=
  List.append_assoc ..

/-- No digit stands behind the whole part, or nothing more of the number does. -/
theorem noDigit_or_bare (hfraction : Fraction fraction) (hexponent : Exponent exponent) (behind : List Char) :
    NoDigit (fraction ++ (exponent ++ behind)) ∨ fraction = [] ∧ exponent = [] := by
  cases hfraction with
  | some _ => exact .inl (noDigit_cons rfl _)
  | none =>
    cases hexponent with
    | some he _ _ => rcases he with rfl | rfl <;> exact .inl (noDigit_cons rfl _)
    | none => exact .inr ⟨rfl, rfl⟩

theorem length_le_scan (hl : l.Written) (behind : List Char) :
    l.text.length ≤ (scan (l.text ++ behind)).text.length := by
  have hbehind : l.text ++ behind = l.whole ++ (l.fraction ++ (l.exponent ++ behind)) := by simp [text]
  have hlength : l.text.length = l.whole.length + (l.fraction ++ l.exponent).length := by
    rw [text, List.append_assoc, List.length_append]
  rw [hbehind, text_scan, List.length_append, hlength]
  rcases noDigit_or_bare hl.fraction hl.exponent behind with hstop | ⟨hfraction, hexponent⟩
  · have hparts := length_le_scanParts hl.fraction hl.exponent behind rfl
    rw [takeWhile_digits hl.whole.2 hstop, List.drop_left]
    exact Nat.add_le_add_left hparts _
  · have hle := (digits_isPrefix hl.whole (l.fraction ++ (l.exponent ++ behind))).length_le
    have hnil : (l.fraction ++ l.exponent).length = 0 := by rw [hfraction, hexponent]; rfl
    rw [hnil]
    exact Nat.le_add_right_of_le hle

/-! ### The longest number -/

/-- What is scanned at a digit is the longest number. -/
theorem longest_scan {c : Char} (hc : c.isDigit = true) (rest : List Char) :
    Longest (scan (c :: rest)) (c :: rest) := by
  obtain ⟨hwritten, behind, hbehind⟩ := written_scan hc rest
  refine ⟨hwritten, ⟨behind, hbehind.symm⟩, ?_⟩
  rintro l' hl' ⟨behind', hbehind'⟩
  rw [← hbehind']
  exact length_le_scan hl' behind'

theorem Longest.unique (h : Longest l cs) (h' : Longest l' cs) : l = l' := by
  have hlength : l.text.length = l'.text.length :=
    Nat.le_antisymm (h'.longest l h.written h.begins) (h.longest l' h'.written h'.begins)
  have htext : l.text = l'.text :=
    (List.prefix_of_prefix_length_le h.begins h'.begins (Nat.le_of_eq hlength)).eq_of_length hlength
  -- a number is scanned from its text, part by part
  have hscan : scan (l.text ++ []) = l := scan_append h.written rfl
  rw [htext, scan_append h'.written rfl] at hscan
  exact hscan.symm

theorem isWhole_iff : l.isWhole = true ↔ l.fraction = [] ∧ l.exponent = [] := by
  rw [isWhole, Bool.and_eq_true, List.isEmpty_iff, List.isEmpty_iff]

end

end NumberLiteral

namespace Token

open Text

/-! ### Places where tokens start -/

/-- Scanning a text comes to a position, with these tokens before it and these characters left. -/
inductive Reaches (cs : List Char) : List Token → Nat → List Char → Prop
  | start : Reaches cs [] 0 cs
  | blank {ts : List Token} {position : Nat} {c : Char} {rest : List Char} :
      Reaches cs ts position (c :: rest) → isBlank c = true → Reaches cs ts (position + 1) rest
  | token {ts : List Token} {position n : Nat} {c : Char} {k : TokenKind} {rest : List Char} :
      Reaches cs ts position (c :: rest) → isBlank c = false → lexeme position c rest = .ok (k, n) →
      Reaches cs (ts ++ [⟨k, String.ofList (c :: rest.take n), position⟩]) (position + n + 1) (rest.drop n)

section

variable {text : String} {ts : List Token} {position : Nat} {c : Char} {cs rest behind : List Char}

/-- Scanning goes on from the place that it came to. -/
theorem Reaches.scanFrom_eq (h : Reaches cs ts position rest) :
    scanFrom 0 cs = (scanFrom position rest).map (ts ++ ·) := by
  induction h with
  | start => cases scanFrom 0 cs <;> rfl
  | blank _ hc ih => rw [ih, scanFrom, if_pos hc]
  | token _ hc hlexeme ih =>
    rw [ih, scanFrom, if_neg (by simp [hc]), hlexeme]
    simp only [bind, Except.bind]
    cases scanFrom _ _ with
    | error f => rfl
    | ok us => simp [Except.map, pure, Except.pure]

theorem Reaches.listing_of_error (h : Reaches text.toList ts position (c :: rest)) (hc : isBlank c = false)
    {unread : Unread SyntaxFault} (hunread : lexeme position c rest = .error unread) :
    listing text = .error (unread.map fun f => ⟨f, text⟩) := by
  rw [listing, scan, h.scanFrom_eq, scanFrom, if_neg (by simp [hc]), hunread]
  rfl

/-- The tokens before a place are listed first. -/
theorem Reaches.isPrefix_listing (h : Reaches text.toList ts position rest) {ls : List Listed}
    (hls : listing text = .ok ls) : ts.map .token <+: ls := by
  obtain ⟨us, hscan, rfl⟩ := listing_eq_ok_iff.mp hls
  rw [scan, mapError_eq_ok, h.scanFrom_eq] at hscan
  obtain ⟨vs, -, rfl⟩ := map_eq_ok.mp hscan
  rw [List.map_append, List.append_assoc]
  exact List.prefix_append _ _

/-! ### Numbers -/

/-- A letter, a digit or an underscore is next, or a point with a digit. -/
def GoesOn (behind : List Char) : Prop :=
  (∃ d more, behind = d :: more ∧ isWordChar d = true) ∨
    ∃ d more, behind = '.' :: d :: more ∧ d.isDigit = true

theorem runsOn_iff : runsOn behind = true ↔ GoesOn behind := by
  cases behind with
  | nil => simp [runsOn, GoesOn]
  | cons d more =>
    cases more with
    | nil => simp [runsOn, GoesOn]
    | cons e more =>
      simp only [runsOn, GoesOn, List.head?_cons, Option.any_some, Bool.or_eq_true, Bool.and_eq_true, beq_iff_eq,
        List.cons.injEq]
      grind

/-- The token of a number at a position. It stands for the integer that the digits denote if neither a fraction nor an
exponent is written, and for a binary64 number otherwise. -/
structure OfNumber (l : NumberLiteral) (position : Nat) (t : Token) : Prop where
  text : t.text.toList = l.text
  position : t.position = position
  int : l.fraction = [] ∧ l.exponent = [] → (Listed.token t).value = .int (Nat.ofDigitChars 10 l.text 0)
  float : ¬(l.fraction = [] ∧ l.exponent = []) → ∃ x, (Listed.token t).value = .number (.float x)

theorem ofNumber_kind (l : NumberLiteral) (position : Nat) :
    OfNumber l position ⟨l.kind, String.ofList l.text, position⟩ where
  text := String.toList_ofList
  position := rfl
  int h := by
    have htext : l.text = l.whole := by rw [NumberLiteral.text, h.1, h.2, List.append_nil, List.append_nil]
    have hkind : l.kind = .int (NumberLiteral.digitsValue l.whole) := if_pos (NumberLiteral.isWhole_iff.mpr h)
    simp only [Listed.value, hkind, htext]
    rfl
  float h := by
    have hkind : l.kind = .float (Double.ofDecimal false l.decimal) :=
      if_neg (mt NumberLiteral.isWhole_iff.mp h)
    simp only [Listed.value, hkind]
    exact ⟨_, rfl⟩

theorem lexeme_of_goesOn (hc : c.isDigit = true) {l : NumberLiteral} (hl : l.Longest (c :: rest))
    (hbehind : c :: rest = l.text ++ behind) (h : GoesOn behind) :
    lexeme position c rest =
      .error (.fault ⟨position, .invalidNumber (String.ofList (l.text ++ behind.take 1))⟩) := by
  have hscan : NumberLiteral.scan (c :: rest) = l := (NumberLiteral.longest_scan hc rest).unique hl
  have hdrop : (c :: rest).drop l.text.length = behind := by rw [hbehind, List.drop_left]
  rw [lexeme, if_pos hc, number]
  simp only [hscan, hdrop, if_pos (runsOn_iff.mpr h)]

theorem lexeme_of_not_goesOn (hc : c.isDigit = true) {l : NumberLiteral} (hl : l.Longest (c :: rest))
    (hbehind : c :: rest = l.text ++ behind) (h : ¬GoesOn behind) :
    lexeme position c rest = if l.isLong then .error .digits else .ok (l.kind, l.text.length - 1) := by
  have hscan : NumberLiteral.scan (c :: rest) = l := (NumberLiteral.longest_scan hc rest).unique hl
  have hdrop : (c :: rest).drop l.text.length = behind := by rw [hbehind, List.drop_left]
  rw [lexeme, if_pos hc, number]
  simp only [hscan, hdrop, if_neg (mt runsOn_iff.mp h)]
  rfl

theorem Reaches.number (h : Reaches text.toList ts position (c :: rest)) (hc : c.isDigit = true) {l : NumberLiteral}
    (hl : l.Longest (c :: rest)) (hlong : l.isLong = false) (hbehind : c :: rest = l.text ++ behind)
    (hstop : ¬GoesOn behind) :
    Reaches text.toList (ts ++ [⟨l.kind, String.ofList l.text, position⟩]) (position + l.text.length) behind := by
  have hblank := isBlank_eq_false_of_isWordChar (isWordChar_of_isDigit hc)
  obtain ⟨d, a, htext⟩ := List.exists_cons_of_ne_nil (l := l.text) (by simp [NumberLiteral.text, hl.written.whole.1])
  have hlexeme : lexeme position c rest = .ok (l.kind, l.text.length - 1) := by
    rw [lexeme_of_not_goesOn hc hl hbehind hstop, hlong]
    rfl
  have hreaches := h.token hblank hlexeme
  rw [htext, List.cons_append] at hbehind
  obtain ⟨rfl, rfl⟩ := List.cons.inj hbehind
  rw [htext, List.length_cons] at hreaches ⊢
  rwa [Nat.add_sub_cancel, List.take_left, List.drop_left] at hreaches

/-- Where scanning comes to a digit, there is a longest number. If it goes on with a letter, a digit, an underscore or
another fraction, the text is refused at this place; else the token here is the longest number, and scanning goes on
behind it. Only an integer of too many digits is not taken: the text is not read, and nothing is said of the place. -/
theorem longest_number_taken (h : Reaches text.toList ts position (c :: rest)) (hc : c.isDigit = true) :
    (∃ l : NumberLiteral, l.Longest (c :: rest)) ∧
    ∀ (l : NumberLiteral) (behind : List Char), l.Longest (c :: rest) → c :: rest = l.text ++ behind →
      (GoesOn behind → ∃ reason, listing text = .error (.fault ⟨⟨position, reason⟩, text⟩) ∧
        reason.message = "Invalid numeric literal '" ++ String.ofList (l.text ++ behind.take 1) ++ "'") ∧
      (¬GoesOn behind → l.isLong = false → ∃ t, OfNumber l position t ∧
        Reaches text.toList (ts ++ [t]) (position + l.text.length) behind ∧
        ∀ ls, listing text = .ok ls → (ts ++ [t]).map .token <+: ls) ∧
      (¬GoesOn behind → l.isLong = true → listing text = .error .digits) := by
  have hblank := isBlank_eq_false_of_isWordChar (isWordChar_of_isDigit hc)
  refine ⟨⟨_, NumberLiteral.longest_scan hc rest⟩, fun l behind hl hbehind =>
    ⟨fun hgoes => ?_, fun hstop hlong => ?_, fun hstop hlong => ?_⟩⟩
  · exact ⟨_, h.listing_of_error hblank (lexeme_of_goesOn hc hl hbehind hgoes), rfl⟩
  · have hreaches := h.number hc hl hlong hbehind hstop
    exact ⟨_, ofNumber_kind l position, hreaches, fun ls => hreaches.isPrefix_listing⟩
  · have hlexeme : lexeme position c rest = .error .digits := by
      rw [lexeme_of_not_goesOn hc hl hbehind hstop, if_pos hlong]
    exact h.listing_of_error hblank hlexeme

end

/-- An `e` behind a fraction that no digit follows, and a method behind an integer. -/
theorem longest_number_taken_behindStar :
    Reaches "3*1.5e+x".toList [⟨.int 3, "3", 0⟩, ⟨.star, "*", 1⟩] 2 "1.5e+x".toList ∧
      (∃ reason, listing "3*1.5e+x" = .error (.fault ⟨⟨2, reason⟩, "3*1.5e+x"⟩) ∧
        reason.message = "Invalid numeric literal '1.5e'") ∧
      Reaches "12.trim".toList [] 0 "12.trim".toList ∧
      ∃ t, t.text = "12" ∧ (Listed.token t).value = .int 12 ∧ Reaches "12.trim".toList [t] 2 ".trim".toList := by
  have hthree : lexeme 0 '3' "*1.5e+x".toList = .ok (.int 3, 0) := rfl
  have hstar : lexeme 1 '*' "1.5e+x".toList = .ok (.star, 0) := rfl
  have hreaches : Reaches "3*1.5e+x".toList [⟨.int 3, "3", 0⟩, ⟨.star, "*", 1⟩] 2 "1.5e+x".toList :=
    (Reaches.start.token rfl hthree).token rfl hstar
  have hstart : Reaches "12.trim".toList [] 0 "12.trim".toList := .start
  have hlong : NumberLiteral.Longest ⟨['1'], ['.', '5'], []⟩ "1.5e+x".toList :=
    NumberLiteral.longest_scan (c := '1') rfl ".5e+x".toList
  have hshort : NumberLiteral.Longest ⟨['1', '2'], [], []⟩ "12.trim".toList :=
    NumberLiteral.longest_scan (c := '1') rfl "2.trim".toList
  obtain ⟨-, hrefused⟩ := longest_number_taken hreaches rfl
  obtain ⟨-, htaken⟩ := longest_number_taken hstart rfl
  have hshortTaken := (htaken _ ".trim".toList hshort rfl).2.1 (mt runsOn_iff.mpr (by decide)) (by decide)
  obtain ⟨t, ht, hbehind, -⟩ := hshortTaken
  refine ⟨hreaches, ?_, hstart, t, ?_, ht.int ⟨rfl, rfl⟩, hbehind⟩
  · exact (hrefused _ "e+x".toList hlong rfl).1 (.inl ⟨'e', _, rfl, by decide⟩)
  · exact String.toList_inj.mp ht.text

/-- Not every number that nothing goes on with is taken. -/
theorem not_always_taken :
    ¬ ∀ (text : String) (ts : List Token) (position : Nat) (c : Char) (rest : List Char),
      Reaches text.toList ts position (c :: rest) → c.isDigit = true →
      ∀ (l : NumberLiteral) (behind : List Char), l.Longest (c :: rest) → c :: rest = l.text ++ behind →
        ¬GoesOn behind → ∃ t, OfNumber l position t ∧
          Reaches text.toList (ts ++ [t]) (position + l.text.length) behind := by
  intro h
  obtain ⟨c, rest, htext⟩ := List.exists_cons_of_length_eq_add_one length_longInteger
  have hdigits := isDigit_longInteger
  have hoverruns := overruns_longInteger.scanFrom_eq 0
  rw [htext] at hdigits hoverruns
  have hc : c.isDigit = true := hdigits c List.mem_cons_self
  have hwritten : NumberLiteral.Written ⟨c :: rest, [], []⟩ :=
    ⟨⟨List.cons_ne_nil c rest, hdigits⟩, .none, .none⟩
  have hscan : NumberLiteral.scan (c :: rest) = ⟨c :: rest, [], []⟩ := by
    have hend : Token.runsOn [] = false := rfl
    simpa [NumberLiteral.text] using NumberLiteral.scan_append hwritten hend
  have hlongest := NumberLiteral.longest_scan hc rest
  rw [hscan] at hlongest
  obtain ⟨t, -, hreaches⟩ := h longInteger [] 0 c rest (htext ▸ .start) hc _ [] hlongest
    (by simp [NumberLiteral.text]) (by simp [GoesOn])
  have htaken := hreaches.scanFrom_eq
  rw [htext, hoverruns, scanFrom] at htaken
  cases htaken

end Token

end Rulebook
