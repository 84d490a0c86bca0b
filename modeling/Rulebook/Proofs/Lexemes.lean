import Rulebook.Proofs.Literals

set_option autoImplicit false

/-!
The forms of tokens. What is taken from a text as one token is the written form of a number, of a text in
quotes, of a word or of an operator. Where it ends depends only on how the text behind it begins. An integer
of too many digits is no token, and a text is not read where one is met.
-/

namespace Rulebook.Token

open Text

/-! ### First characters -/

section

variable {c : Char}

theorem isBlank_eq_false_of_isWordChar (h : isWordChar c = true) : isBlank c = false := by
  apply Bool.eq_false_iff.mpr
  intro hblank
  rw [isWordChar_eq_false_of_isBlank hblank] at h
  cases h

theorem le_toNat_of_isWordStart (h : isWordStart c = true) : 0x41 ≤ c.toNat := by
  by_cases hlt : c.toNat < 0x41
  · have hletter : isLetter c = false := by
      unfold isLetter letterRanges
      rw [Ranges.contains, if_pos hlt]
    rw [isWordStart, hletter, Bool.false_or, beq_iff_eq] at h
    subst h
    exact absurd hlt (by decide)
  · exact Nat.le_of_not_lt hlt

/-- A word starts with no digit and with no quote. -/
theorem isDigit_eq_false_of_isWordStart (h : isWordStart c = true) :
    c.isDigit = false ∧ ¬ (c = '"' ∨ c = '\x27') := by
  have hle := le_toNat_of_isWordStart h
  constructor
  · apply Bool.eq_false_iff.mpr
    intro hdigit
    have hval : c.toNat ≤ 57 := by simpa [UInt32.le_iff_toNat_le] using (Bool.and_eq_true_iff.mp hdigit).2
    omega
  · rintro (rfl | rfl) <;> exact absurd hle (by decide)

end

/-! ### Operators -/

/-- The operators as they are written. -/
def operators : List (List Char × TokenKind) :=
  [(['&', '&'], .and), (['|', '|'], .or), (['=', '='], .eq), (['!', '='], .ne), (['>', '='], .ge),
    (['<', '='], .le), (['>'], .gt), (['<'], .lt), (['!'], .not), (['+'], .plus), (['-'], .minus),
    (['*'], .star), (['/'], .slash), (['%'], .percent), (['('], .openParen), ([')'], .closeParen),
    (['['], .openBracket), ([']'], .closeBracket), ([','], .comma), (['.'], .dot)]

/-- An operator, and no longer one begins with it here. -/
def Operates (sign : List Char) (k : TokenKind) (behind : List Char) : Prop :=
  (sign, k) ∈ operators ∧ ∀ d ∈ behind.head?, ∀ k', (sign ++ [d], k') ∉ operators

section

variable {c : Char} {k : TokenKind} {n : Nat} {a b rest : List Char}

/-- No operator starts like a blank, a number, a text or a word. -/
theorem operators_plain : operators.all (fun o => o.1.head?.all fun c =>
    !(isBlank c || c.isDigit || c == '"' || c == '\x27' || isWordStart c)) = true := by
  decide +kernel

/-- Only these operators can be made longer, and only by an equals sign. -/
theorem longer_operators : operators.all (fun o => operators.all fun o' => o'.1.dropLast != o.1 ||
    ([['>'], ['<'], ['!']].contains o.1 && o'.1.getLast? == some '=')) = true := by
  decide +kernel

theorem eq_of_longer {d : Char} {k' : TokenKind} {sign : List Char} (h : (sign, k) ∈ operators)
    (h' : (sign ++ [d], k') ∈ operators) : sign ∈ [['>'], ['<'], ['!']] ∧ d = '=' := by
  have hlonger := List.all_eq_true.mp (List.all_eq_true.mp longer_operators _ h) _ h'
  simpa using hlonger

theorem operates_of_ne {sign : List Char} (h : (sign, k) ∈ operators) (hrest : rest.head? ≠ some '=') :
    Operates sign k rest := by
  refine ⟨h, fun d hd k' hlonger => ?_⟩
  obtain ⟨-, rfl⟩ := eq_of_longer h hlonger
  exact hrest hd

theorem operates_of_notMem {sign : List Char} (h : (sign, k) ∈ operators)
    (hsign : sign ∉ [['>'], ['<'], ['!']]) (rest : List Char) : Operates sign k rest :=
  ⟨h, fun _ _ _ hlonger => hsign (eq_of_longer h hlonger).1⟩

theorem operates_of_operator? (h : operator? c rest = some (k, n)) :
    ∃ a b, rest = a ++ b ∧ a.length = n ∧ Operates (c :: a) k b := by
  unfold operator? at h
  split at h <;> cases h
  -- first the operators of two characters, then those that an equals sign would make longer
  iterate 6 exact ⟨[_], _, rfl, rfl, operates_of_notMem (by simp [operators]) (by simp) _⟩
  iterate 3
    next hne =>
      refine ⟨[], rest, rfl, rfl, operates_of_ne (by simp [operators]) fun heq => ?_⟩
      obtain ⟨tail, htail⟩ := List.head?_eq_some_iff.mp heq
      exact hne tail htail
  iterate 11 exact ⟨[], rest, rfl, rfl, operates_of_notMem (by simp [operators]) (by simp) _⟩

theorem operator?_of_operates (h : Operates (c :: a) k b) :
    operator? c (a ++ b) = some (k, a.length) := by
  obtain ⟨hmem, hlonger⟩ := h
  have hne : ∀ k', (c :: a ++ ['='], k') ∈ operators → ∀ tail, b = '=' :: tail → False := by
    rintro k' hmem' tail rfl
    exact hlonger '=' rfl k' hmem'
  simp only [operators, List.mem_cons, List.not_mem_nil, or_false, Prod.mk.injEq, List.cons.injEq] at hmem
  rcases hmem with h | h | h | h | h | h | h | h | h | h | h | h | h | h | h | h | h | h | h | h <;>
    obtain ⟨⟨rfl, rfl⟩, rfl⟩ := h
  any_goals rfl
  · exact operator?.eq_7 b (hne .ge (by simp [operators]))
  · exact operator?.eq_8 b (hne .le (by simp [operators]))
  · exact operator?.eq_9 b (hne .ne (by simp [operators]))

theorem plain_of_operates (h : Operates (c :: a) k b) :
    isBlank c = false ∧ c.isDigit = false ∧ ¬ (c = '"' ∨ c = '\x27') ∧ isWordStart c = false := by
  have hplain := List.all_eq_true.mp operators_plain _ h.1
  simpa [and_assoc] using hplain

end

/-! ### Words -/

theorem namesMember_wordKind (cs : List Char) : (wordKind cs).namesMember = true := by
  unfold wordKind
  split <;> rfl

/-! ### Forms -/

/-- A token that starts with a character: the other characters of it, its kind, and what stands behind it. -/
inductive Lexeme : Char → List Char → TokenKind → List Char → Prop
  | number {c : Char} {a b : List Char} {l : NumberLiteral} : l.Written → l.isLong = false →
      l.text = c :: a → runsOn b = false → Lexeme c a l.kind b
  | text {quote : Char} {body s b : List Char} : quote = '"' ∨ quote = '\x27' →
      TextLiteral.Written quote body s → Lexeme quote body (.text (String.ofList s)) b
  | word {c : Char} {a b : List Char} : isWordStart c = true → (∀ d ∈ a, isWordChar d = true) →
      b.takeWhile isWordChar = [] → Lexeme c a (wordKind (c :: a)) b
  | operator {c : Char} {k : TokenKind} {a b : List Char} : Operates (c :: a) k b → Lexeme c a k b

section

variable {c : Char} {k : TokenKind} {position n : Nat} {a b b' rest : List Char}

theorem Lexeme.isBlank_eq_false (h : Lexeme c a k b) : isBlank c = false := by
  cases h with
  | number hl _ htext _ =>
    exact isBlank_eq_false_of_isWordChar (isWordChar_of_isDigit (hl.isDigit htext))
  | text hquote _ => rcases hquote with rfl | rfl <;> decide
  | word hc _ _ => exact isBlank_eq_false_of_isWordChar (isWordChar_of_isWordStart hc)
  | operator h => exact (plain_of_operates h).1

/-- A number that nothing goes on with is a token unless it has too many digits. -/
theorem lexeme_number {l : NumberLiteral} (hl : l.Written) (htext : l.text = c :: a)
    (hrest : runsOn b = false) (position : Nat) :
    lexeme position c (a ++ b) = if l.isLong then .error .digits else .ok (l.kind, a.length) := by
  have hscan := NumberLiteral.scan_append hl hrest
  rw [htext, List.cons_append] at hscan
  have hdrop : (c :: (a ++ b)).drop (c :: a).length = b := List.drop_left
  rw [lexeme, if_pos (hl.isDigit htext), Token.number, hscan, htext]
  simp only [hdrop, hrest, Bool.false_eq_true, if_false]
  rfl

theorem Lexeme.lexeme_eq (h : Lexeme c a k b) (position : Nat) :
    lexeme position c (a ++ b) = .ok (k, a.length) := by
  cases h with
  | number hl hlong htext hrest => rw [lexeme_number hl htext hrest, hlong, if_neg Bool.false_ne_true]
  | text hquote hbody =>
    have hdigit : c.isDigit = false := by rcases hquote with rfl | rfl <;> rfl
    have hslash : c ≠ '\\' := by rcases hquote with rfl | rfl <;> decide
    rw [lexeme, if_neg (by simp [hdigit]), if_pos hquote, TextLiteral.scan_of_written hslash hbody]
  | word hc ha hb =>
    obtain ⟨hdigit, hquote⟩ := isDigit_eq_false_of_isWordStart hc
    have htail : (a ++ b).takeWhile isWordChar = a := by
      rw [List.takeWhile_append_of_pos ha, hb, List.append_nil]
    rw [lexeme, if_neg (by simp [hdigit]), if_neg hquote, if_pos hc]
    simp only [htail]
  | operator h =>
    obtain ⟨-, hdigit, hquote, hword⟩ := plain_of_operates h
    rw [lexeme, if_neg (by simp [hdigit]), if_neg hquote, if_neg (by simp [hword]),
      operator?_of_operates h]

theorem takeWhile_dropWhile (cs : List Char) :
    (cs.dropWhile isWordChar).takeWhile isWordChar = [] := by
  have hhead := List.head?_dropWhile_not isWordChar cs
  cases hdrop : cs.dropWhile isWordChar with
  | nil => rfl
  | cons d ds =>
    rw [hdrop] at hhead
    rw [List.takeWhile_cons, show isWordChar d = false from hhead]
    rfl

/-- What starts with a digit starts with a number, and something goes on with it or nothing does. -/
theorem exists_written (hc : c.isDigit = true) (rest : List Char) :
    ∃ l a b, NumberLiteral.Written l ∧ l.text = c :: a ∧ rest = a ++ b ∧
      (runsOn b = true → ∀ position, number position (c :: rest) =
        .error (.fault ⟨position, .invalidNumber (String.ofList (l.text ++ b.take 1))⟩)) := by
  obtain ⟨hl, b, hb⟩ := NumberLiteral.written_scan hc rest
  have hne : (NumberLiteral.scan (c :: rest)).text ≠ [] := by simp [NumberLiteral.text, hl.whole.1]
  obtain ⟨d, a, htext⟩ := List.exists_cons_of_ne_nil hne
  have hcons : c :: rest = d :: (a ++ b) := by rw [hb, htext, List.cons_append]
  obtain ⟨rfl, rfl⟩ := List.cons.inj hcons
  refine ⟨_, a, b, hl, htext, rfl, fun hrest position => ?_⟩
  have hdrop : (c :: (a ++ b)).drop (c :: a).length = b := List.drop_left
  rw [number]
  simp only [htext, hdrop, hrest, if_true]

theorem exists_number (hc : c.isDigit = true) (h : lexeme position c rest = .ok (k, n)) :
    ∃ a b, rest = a ++ b ∧ a.length = n ∧ Lexeme c a k b := by
  obtain ⟨l, a, b, hl, htext, rfl, hfault⟩ := exists_written hc rest
  cases hrest : runsOn b with
  | true =>
    rw [lexeme, if_pos hc, hfault hrest] at h
    cases h
  | false =>
    rw [lexeme_number hl htext hrest] at h
    split at h
    · cases h
    · next hlong =>
      cases h
      exact ⟨a, b, rfl, rfl, .number hl (Bool.eq_false_iff.mpr hlong) htext hrest⟩

theorem exists_lexeme (h : lexeme position c rest = .ok (k, n)) :
    ∃ a b, rest = a ++ b ∧ a.length = n ∧ Lexeme c a k b := by
  by_cases hdigit : c.isDigit = true
  · exact exists_number hdigit h
  · rw [lexeme, if_neg hdigit] at h
    split at h
    · next hquote =>
      split at h
      · next s m hscan =>
        cases h
        obtain ⟨body, b, rfl, rfl, hbody⟩ := TextLiteral.written_of_scan hscan
        exact ⟨body, b, rfl, rfl, .text hquote hbody⟩
      · cases h
    · split at h
      · next hword =>
        cases h
        refine ⟨_, rest.dropWhile isWordChar, List.takeWhile_append_dropWhile.symm, rfl, ?_⟩
        exact .word hword (List.all_eq_true.mp List.all_takeWhile) (takeWhile_dropWhile rest)
      · split at h
        · next found hop =>
          cases h
          obtain ⟨a, b, rfl, rfl, hoperates⟩ := operates_of_operator? hop
          exact ⟨a, b, rfl, rfl, .operator hoperates⟩
        · cases h

/-- An integer of too many digits is no token. -/
theorem exists_long (h : lexeme position c rest = .error .digits) :
    ∃ l a b, NumberLiteral.Written l ∧ l.isLong = true ∧ l.text = c :: a ∧ runsOn b = false ∧
      rest = a ++ b := by
  by_cases hdigit : c.isDigit = true
  · obtain ⟨l, a, b, hl, htext, rfl, hfault⟩ := exists_written hdigit rest
    cases hrest : runsOn b with
    | true =>
      rw [lexeme, if_pos hdigit, hfault hrest] at h
      cases h
    | false =>
      rw [lexeme_number hl htext hrest] at h
      split at h
      · next hlong => exact ⟨l, a, b, hl, hlong, htext, hrest, rfl⟩
      · cases h
  · rw [lexeme, if_neg hdigit] at h
    split at h
    · split at h <;> cases h
    · split at h
      · cases h
      · split at h <;> cases h

/-! ### What stands behind a token -/

/-- What ends in front of the first text ends in front of the second one as well. -/
structure EndsAlike (b b' : List Char) : Prop where
  word : b.takeWhile isWordChar = [] → b'.takeWhile isWordChar = []
  number : runsOn b = false → runsOn b' = false
  operator : b'.head? = some '=' → b.head? = some '='

theorem Lexeme.behind (h : Lexeme c a k b) (hb : EndsAlike b b') : Lexeme c a k b' := by
  cases h with
  | number hl hlong htext hrest => exact .number hl hlong htext (hb.number hrest)
  | text hquote hbody => exact .text hquote hbody
  | word hc ha hrest => exact .word hc ha (hb.word hrest)
  | operator h =>
    refine .operator ⟨h.1, fun d hd k' hlonger => ?_⟩
    obtain ⟨-, rfl⟩ := eq_of_longer h.1 hlonger
    exact h.2 _ (hb.operator hd) k' hlonger

/-- Nothing here goes on with the word, the number or the operator that may stand before it. -/
def Apart (cs : List Char) : Prop := runsOn cs = false ∧ cs.head? ≠ some '='

theorem apart_nil : Apart [] := ⟨rfl, by simp⟩

theorem Apart.takeWhile_isWordChar {cs : List Char} (h : Apart cs) : cs.takeWhile isWordChar = [] := by
  cases cs with
  | nil => rfl
  | cons c rest =>
    have hrun := h.1
    rw [runsOn, Bool.or_eq_false_iff] at hrun
    rw [List.takeWhile_cons, hrun.1]
    rfl

theorem Apart.endsAlike (h : Apart b') (b : List Char) : EndsAlike b b' where
  word _ := h.takeWhile_isWordChar
  number _ := h.1
  operator heq := absurd heq h.2

/-- A text ends what stands before it in the same way if something is written behind the text. -/
theorem Apart.endsAlike_append {more : List Char} (h : Apart more) (b : List Char) :
    EndsAlike b (b ++ more) := by
  cases b with
  | nil => exact h.endsAlike []
  | cons d ds =>
    refine ⟨fun hword => ?_, fun hnumber => ?_, fun heq => heq⟩
    · rw [List.cons_append, List.takeWhile_cons]
      rw [List.takeWhile_cons] at hword
      split at hword
      · cases hword
      · next hd => rw [if_neg hd]
    · rw [runsOn, Bool.or_eq_false_iff] at hnumber
      rw [List.cons_append, runsOn, hnumber.1, Bool.false_or]
      cases ds with
      | nil =>
        have hmore := NumberLiteral.noDigit_of_runsOn h.1
        cases more with
        | nil => simp
        | cons e es => simp [hmore e rfl]
      | cons e es => exact hnumber.2

end

/-! ### Whole texts -/

/-- A text from a position on is blanks and tokens. -/
inductive Scans : Nat → List Char → List Token → Prop
  | done (position : Nat) : Scans position [] []
  | blank {position : Nat} {c : Char} {cs : List Char} {ts : List Token} : isBlank c = true →
      Scans (position + 1) cs ts → Scans position (c :: cs) ts
  | token {position : Nat} {c : Char} {k : TokenKind} {a b : List Char} {ts : List Token} :
      Lexeme c a k b → Scans (position + a.length + 1) b ts →
      Scans position (c :: (a ++ b)) (⟨k, String.ofList (c :: a), position⟩ :: ts)

section

variable {position : Nat} {cs : List Char} {ts : List Token}

theorem Scans.scanFrom_eq (h : Scans position cs ts) : scanFrom position cs = .ok ts := by
  induction h with
  | done => rw [scanFrom]
  | blank hc _ ih => rw [scanFrom, if_pos hc, ih]
  | @token position c k a b ts hlexeme _ ih =>
    rw [scanFrom, if_neg (by simp [hlexeme.isBlank_eq_false]), hlexeme.lexeme_eq]
    have hdrop : (a ++ b).drop a.length = b := List.drop_left
    have htake : (a ++ b).take a.length = a := List.take_left
    simp only [bind, Except.bind, hdrop, htake, ih]
    rfl

theorem scans_of_scanFrom (h : scanFrom position cs = .ok ts) : Scans position cs ts := by
  induction position, cs using scanFrom.induct generalizing ts with
  | case1 position =>
    rw [scanFrom] at h
    cases h
    exact .done position
  | case2 position c rest hblank ih =>
    rw [scanFrom, if_pos hblank] at h
    exact .blank hblank (ih h)
  | case3 position c rest hblank ih =>
    rw [scanFrom, if_neg hblank] at h
    obtain ⟨⟨k, n⟩, hlexeme, h⟩ := bind_eq_ok.mp h
    obtain ⟨us, hscan, h⟩ := bind_eq_ok.mp h
    cases h
    obtain ⟨a, b, rfl, rfl, hform⟩ := exists_lexeme hlexeme
    have htail := ih a.length hscan
    rw [List.drop_left] at htail
    rw [List.take_left]
    exact .token hform htail

theorem scanFrom_eq_ok_iff : scanFrom position cs = .ok ts ↔ Scans position cs ts :=
  ⟨scans_of_scanFrom, Scans.scanFrom_eq⟩

/-- Behind blanks and tokens the text has an integer of too many digits. -/
inductive Overruns : List Char → Prop
  | here {c : Char} {a b : List Char} {l : NumberLiteral} : l.Written → l.isLong = true →
      l.text = c :: a → runsOn b = false → Overruns (c :: (a ++ b))
  | blank {c : Char} {cs : List Char} : isBlank c = true → Overruns cs → Overruns (c :: cs)
  | token {c : Char} {k : TokenKind} {a b : List Char} : Lexeme c a k b → Overruns b →
      Overruns (c :: (a ++ b))

theorem overruns_of_digits (hdigits : ∀ c ∈ cs, c.isDigit = true) (hlong : mostDigits < cs.length) :
    Overruns cs := by
  cases cs with
  | nil => exact absurd hlong (Nat.not_lt_zero _)
  | cons c cs =>
    have hoverruns := Overruns.here (b := []) (l := ⟨c :: cs, [], []⟩)
      ⟨⟨List.cons_ne_nil _ _, hdigits⟩, .none, .none⟩ (decide_eq_true hlong)
      (by rw [NumberLiteral.text, List.append_nil, List.append_nil]) rfl
    rwa [List.append_nil] at hoverruns

theorem Overruns.ne_nil (h : Overruns cs) : cs ≠ [] := by
  cases h <;> simp

theorem Overruns.scanFrom_eq (h : Overruns cs) (position : Nat) :
    scanFrom position cs = .error .digits := by
  induction h generalizing position with
  | @here c a b l hl hlong htext hrest =>
    have hblank : isBlank c = false :=
      isBlank_eq_false_of_isWordChar (isWordChar_of_isDigit (hl.isDigit htext))
    rw [scanFrom, if_neg (by simp [hblank]), lexeme_number hl htext hrest, if_pos hlong]
    rfl
  | blank hc _ ih => rw [scanFrom, if_pos hc, ih]
  | @token c k a b hlexeme _ ih =>
    have hdrop : (a ++ b).drop a.length = b := List.drop_left
    rw [scanFrom, if_neg (by simp [hlexeme.isBlank_eq_false]), hlexeme.lexeme_eq]
    simp only [bind, Except.bind, hdrop, ih]

theorem overruns_of_scanFrom (h : scanFrom position cs = .error .digits) : Overruns cs := by
  induction position, cs using scanFrom.induct with
  | case1 position =>
    rw [scanFrom] at h
    cases h
  | case2 position c rest hblank ih =>
    rw [scanFrom, if_pos hblank] at h
    exact .blank hblank (ih h)
  | case3 position c rest hblank ih =>
    rw [scanFrom, if_neg hblank] at h
    rcases bind_eq_error.mp h with h | ⟨⟨k, n⟩, hlexeme, h⟩
    · obtain ⟨l, a, b, hl, hlong, htext, hrest, rfl⟩ := exists_long h
      exact .here hl hlong htext hrest
    · rcases bind_eq_error.mp h with h | ⟨ts, -, h⟩
      · obtain ⟨a, b, rfl, rfl, hform⟩ := exists_lexeme hlexeme
        have htail := ih a.length h
        rw [List.drop_left] at htail
        exact .token hform htail
      · cases h

/-- A text is given up exactly if an integer of too many digits is met before any fault. -/
theorem scanFrom_eq_digits_iff : scanFrom position cs = .error .digits ↔ Overruns cs :=
  ⟨overruns_of_scanFrom, fun h => h.scanFrom_eq position⟩

/-- More digits in a row than an integer may have. -/
theorem Overruns.exists_digits (h : Overruns cs) :
    ∃ before digits after, cs = before ++ digits ++ after ∧ (∀ d ∈ digits, d.isDigit = true) ∧
      mostDigits < digits.length := by
  induction h with
  | @here c a b l hl hlong htext _ =>
    rw [NumberLiteral.isLong, Bool.and_eq_true, decide_eq_true_eq] at hlong
    refine ⟨[], l.whole, l.fraction ++ l.exponent ++ b, ?_, hl.whole.2, hlong.2⟩
    rw [← List.cons_append, ← htext, NumberLiteral.text]
    simp
  | @blank c cs _ _ ih =>
    obtain ⟨before, digits, after, rfl, hdigits⟩ := ih
    exact ⟨c :: before, digits, after, rfl, hdigits⟩
  | @token c k a b _ _ ih =>
    obtain ⟨before, digits, after, rfl, hdigits⟩ := ih
    exact ⟨c :: a ++ before, digits, after, by simp, hdigits⟩

/-- What holds of every form of a token holds of the tokens of a text. -/
theorem Scans.forall_mem {Q : Token → Prop} (h : Scans position cs ts)
    (hQ : ∀ {position c k a b}, Lexeme c a k b → Q ⟨k, String.ofList (c :: a), position⟩) :
    ∀ t ∈ ts, Q t := by
  induction h with
  | done => exact fun t ht => absurd ht List.not_mem_nil
  | blank _ _ ih => exact ih
  | token hlexeme _ ih => exact List.forall_mem_cons.mpr ⟨hQ hlexeme, ih⟩

/-- A token whose text is the written form of its kind. -/
def Formed (t : Token) : Prop := ∃ c a b, t.text.toList = c :: a ∧ Lexeme c a t.kind b

theorem Scans.formed (h : Scans position cs ts) : ∀ t ∈ ts, t.Formed :=
  h.forall_mem fun hlexeme => ⟨_, _, _, String.toList_ofList, hlexeme⟩

/-- Blanks in front of a text. -/
theorem Scans.gap {gap : List Char} (hgap : ∀ c ∈ gap, isBlank c = true)
    (h : Scans (position + gap.length) cs ts) : Scans position (gap ++ cs) ts := by
  induction gap generalizing position with
  | nil => exact h
  | cons c gap ih =>
    obtain ⟨hc, hmore⟩ := List.forall_mem_cons.mp hgap
    refine .blank hc (ih hmore ?_)
    rwa [Nat.add_assoc, Nat.add_comm 1]

theorem scan_eq_ok_iff {text : String} : scan text = .ok ts ↔ Scans 0 text.toList ts := by
  rw [scan, mapError_eq_ok, scanFrom_eq_ok_iff]

theorem scan_eq_fault_iff {text : String} {e : ParseError} : scan text = .error (.fault e) ↔
    ∃ fault, scanFrom 0 text.toList = .error (.fault fault) ∧ e = ⟨fault, text⟩ := by
  rw [scan, mapError_eq_error]
  constructor
  · rintro ⟨unread, h, heq⟩
    cases unread <;> cases heq
    exact ⟨_, h, rfl⟩
  · rintro ⟨fault, h, rfl⟩
    exact ⟨_, h, rfl⟩

theorem scan_eq_digits_iff {text : String} : scan text = .error .digits ↔ Overruns text.toList := by
  rw [scan, mapError_eq_error, ← @scanFrom_eq_digits_iff 0]
  constructor
  · rintro ⟨unread, h, heq⟩
    cases unread <;> cases heq
    exact h
  · exact fun h => ⟨_, h, rfl⟩

end

/-- One digit more than an integer may have. -/
def longInteger : String := String.ofList (List.replicate (mostDigits + 1) '1')

theorem isDigit_longInteger : ∀ c ∈ longInteger.toList, c.isDigit = true := by
  rw [longInteger, String.toList_ofList]
  intro c hc
  rw [List.eq_of_mem_replicate hc]
  rfl

theorem length_longInteger : longInteger.toList.length = mostDigits + 1 := by
  rw [longInteger, String.toList_ofList, List.length_replicate]

theorem overruns_longInteger : Overruns longInteger.toList :=
  overruns_of_digits isDigit_longInteger (by rw [length_longInteger]; exact Nat.lt_succ_self _)

end Rulebook.Token
