import Mathlib.Algebra.Group.Nat.Defs
import Rulebook.Proofs.Values
import Rulebook.Token.Scan

set_option autoImplicit false

/-!
The written forms of number and text literals. A literal is scanned from its written form and from nothing else,
whatever stands behind it, provided that it does not go on with the literal.
-/

namespace Rulebook

open Text

namespace NumberLiteral

/-- At least one digit, and nothing else. -/
def Digits (cs : List Char) : Prop := cs ≠ [] ∧ ∀ c ∈ cs, c.isDigit = true

/-- No digit stands first. -/
def NoDigit (cs : List Char) : Prop := ∀ c ∈ cs.head?, c.isDigit = false

inductive Fraction : List Char → Prop
  | none : Fraction []
  | some {digits : List Char} : Digits digits → Fraction ('.' :: digits)

inductive Exponent : List Char → Prop
  | none : Exponent []
  | some {e : Char} {sign digits : List Char} : e = 'e' ∨ e = 'E' → sign ∈ [[], ['+'], ['-']] →
      Digits digits → Exponent (e :: (sign ++ digits))

/-- The parts are written as those of a number. -/
structure Written (l : NumberLiteral) : Prop where
  whole : Digits l.whole
  fraction : Fraction l.fraction
  exponent : Exponent l.exponent

theorem Written.isDigit {l : NumberLiteral} (hl : l.Written) {c : Char} {cs : List Char}
    (htext : l.text = c :: cs) : c.isDigit = true := by
  obtain ⟨d, ds, hwhole⟩ := List.exists_cons_of_ne_nil hl.whole.1
  have hc : d = c := by
    rw [text, hwhole] at htext
    exact (List.cons.inj htext).1
  exact hl.whole.2 c (by rw [hwhole, hc]; exact List.mem_cons_self)

/-! ### Digits -/

section

variable {cs rest : List Char}

theorem takeWhile_digits (hcs : ∀ c ∈ cs, c.isDigit = true) (hrest : NoDigit rest) :
    (cs ++ rest).takeWhile Char.isDigit = cs := by
  have hstop : rest.takeWhile Char.isDigit = [] := by
    cases rest with
    | nil => rfl
    | cons c rest =>
      have hc : c.isDigit = false := hrest c rfl
      rw [List.takeWhile_cons, hc]
      rfl
  rw [List.takeWhile_append_of_pos hcs, hstop, List.append_nil]

theorem digits_takeWhile (h : cs.takeWhile Char.isDigit ≠ []) : Digits (cs.takeWhile Char.isDigit) :=
  ⟨h, List.all_eq_true.mp List.all_takeWhile⟩

theorem exists_takeWhile (cs : List Char) : ∃ rest, cs = cs.takeWhile Char.isDigit ++ rest :=
  ⟨cs.dropWhile Char.isDigit, List.takeWhile_append_dropWhile.symm⟩

theorem noDigit_cons {c : Char} (hc : c.isDigit = false) (rest : List Char) : NoDigit (c :: rest) := by
  intro d hd
  cases hd
  exact hc

end

/-! ### What is scanned was written -/

section

variable (cs : List Char)

theorem fraction_scanFraction : Fraction (scanFraction cs) ∧ ∃ rest, cs = scanFraction cs ++ rest := by
  unfold scanFraction
  split
  · next rest =>
    dsimp only
    split
    · exact ⟨.none, _, rfl⟩
    · next hdigits =>
      obtain ⟨rest', hrest'⟩ := exists_takeWhile rest
      have hne : rest.takeWhile Char.isDigit ≠ [] := by simpa using hdigits
      refine ⟨.some (digits_takeWhile hne), rest', ?_⟩
      rw [List.cons_append, ← hrest']
  · exact ⟨.none, _, rfl⟩

theorem mem_scanSign : scanSign cs ∈ [[], ['+'], ['-']] ∧ ∃ rest, cs = scanSign cs ++ rest := by
  unfold scanSign
  split
  · exact ⟨by simp, _, rfl⟩
  · exact ⟨by simp, _, rfl⟩
  · exact ⟨by simp, _, rfl⟩

theorem exponent_scanExponent : Exponent (scanExponent cs) ∧ ∃ rest, cs = scanExponent cs ++ rest := by
  unfold scanExponent
  split
  · exact ⟨.none, _, rfl⟩
  · next e cs =>
    dsimp only
    split
    · next h =>
      obtain ⟨hsign, rest, hrest⟩ := mem_scanSign cs
      have hdrop : cs.drop (scanSign cs).length = rest :=
        (congrArg (List.drop _) hrest).trans List.drop_left
      obtain ⟨rest', hrest'⟩ := exists_takeWhile rest
      rw [hdrop] at h ⊢
      refine ⟨.some h.1 hsign (digits_takeWhile h.2), rest', ?_⟩
      rw [List.cons_append, List.cons_append, List.append_assoc, ← hrest', ← hrest]
    · exact ⟨.none, _, rfl⟩

theorem written_scan {c : Char} (hc : c.isDigit = true) (cs : List Char) :
    (scan (c :: cs)).Written ∧ ∃ rest, c :: cs = (scan (c :: cs)).text ++ rest := by
  have hwhole : (c :: cs).takeWhile Char.isDigit ≠ [] := by simp [hc]
  obtain ⟨rest, hrest⟩ := exists_takeWhile (c :: cs)
  have hdrop : (c :: cs).drop ((c :: cs).takeWhile Char.isDigit).length = rest :=
    (congrArg (List.drop _) hrest).trans List.drop_left
  obtain ⟨hfraction, rest', hrest'⟩ := fraction_scanFraction rest
  have hdrop' : rest.drop (scanFraction rest).length = rest' :=
    (congrArg (List.drop _) hrest').trans List.drop_left
  obtain ⟨hexponent, rest'', hrest''⟩ := exponent_scanExponent rest'
  simp only [scan, text, hdrop, hdrop']
  refine ⟨⟨digits_takeWhile hwhole, hfraction, hexponent⟩, rest'', ?_⟩
  rw [List.append_assoc, List.append_assoc, ← hrest'', ← hrest', ← hrest]

end

/-! ### What was written is scanned -/

section

variable {cs rest : List Char}

theorem noDigit_of_runsOn (h : Token.runsOn rest = false) : NoDigit rest := by
  cases rest with
  | nil => intro c hc; cases hc
  | cons c rest =>
    rw [Token.runsOn, Bool.or_eq_false_iff] at h
    refine noDigit_cons (Bool.eq_false_iff.mpr fun hc => ?_) rest
    rw [isWordChar_of_isDigit hc] at h
    cases h.1

theorem scanFraction_of_runsOn (h : Token.runsOn rest = false) : scanFraction rest = [] := by
  unfold scanFraction
  split
  · next rest =>
    simp only [Token.runsOn, Bool.or_eq_false_iff, BEq.rfl, Bool.true_and] at h
    have hrest : NoDigit rest := by
      intro c hc
      cases rest with
      | nil => cases hc
      | cons d rest => cases hc; simpa using h.2
    have hdigits : ([] ++ rest).takeWhile Char.isDigit = [] := takeWhile_digits (by simp) hrest
    rw [List.nil_append] at hdigits
    simp [hdigits]
  · rfl

theorem scanExponent_of_runsOn (h : Token.runsOn rest = false) : scanExponent rest = [] := by
  cases rest with
  | nil => rfl
  | cons c rest =>
    rw [Token.runsOn, Bool.or_eq_false_iff] at h
    have hletter : ¬ (c = 'e' ∨ c = 'E') := by
      rintro (rfl | rfl) <;> exact absurd h.1 (by decide)
    simp [scanExponent, hletter]

theorem noDigit_exponent (hcs : Exponent cs) (hrest : NoDigit rest) : NoDigit (cs ++ rest) := by
  cases hcs with
  | none => exact hrest
  | some he => rcases he with rfl | rfl <;> exact noDigit_cons rfl _

theorem noDigit_fraction (hcs : Fraction cs) (hrest : NoDigit rest) : NoDigit (cs ++ rest) := by
  cases hcs with
  | none => exact hrest
  | some => exact noDigit_cons rfl _

theorem scanSign_append {sign digits : List Char} (hsign : sign ∈ [[], ['+'], ['-']])
    (hdigits : Digits digits) : scanSign (sign ++ digits ++ rest) = sign := by
  simp only [List.mem_cons, List.not_mem_nil, or_false] at hsign
  rcases hsign with rfl | rfl | rfl
  · obtain ⟨d, ds, rfl⟩ := List.exists_cons_of_ne_nil hdigits.1
    have hd : d.isDigit = true := hdigits.2 d (by simp)
    unfold scanSign
    split
    · next heq => cases heq; cases hd
    · next heq => cases heq; cases hd
    · rfl
  · rfl
  · rfl

theorem scanExponent_append (hcs : Exponent cs) (hrest : Token.runsOn rest = false) :
    scanExponent (cs ++ rest) = cs := by
  cases hcs with
  | none => exact scanExponent_of_runsOn hrest
  | @some e sign digits he hsign hdigits =>
    have htake := takeWhile_digits hdigits.2 (noDigit_of_runsOn hrest)
    rw [List.cons_append, scanExponent, scanSign_append hsign hdigits, List.append_assoc, List.drop_left,
      htake]
    exact if_pos ⟨he, hdigits.1⟩

theorem scanFraction_append {exponent : List Char} (hcs : Fraction cs) (hexponent : Exponent exponent)
    (hrest : Token.runsOn rest = false) : scanFraction (cs ++ (exponent ++ rest)) = cs := by
  cases hcs with
  | none =>
    cases hexponent with
    | none => exact scanFraction_of_runsOn hrest
    | some he => rcases he with rfl | rfl <;> rfl
  | @some digits hdigits =>
    have htake := takeWhile_digits hdigits.2 (noDigit_exponent hexponent (noDigit_of_runsOn hrest))
    rw [List.cons_append, scanFraction, htake]
    exact if_neg (by simpa using hdigits.1)

/-- A number ends where nothing goes on with it. -/
theorem scan_append {l : NumberLiteral} (hl : l.Written) (hrest : Token.runsOn rest = false) :
    scan (l.text ++ rest) = l := by
  have hnoDigit := noDigit_exponent hl.exponent (noDigit_of_runsOn hrest)
  have hwhole := takeWhile_digits hl.whole.2 (noDigit_fraction hl.fraction hnoDigit)
  have hfraction := scanFraction_append hl.fraction hl.exponent hrest
  rw [text, List.append_assoc, List.append_assoc]
  simp only [scan, hwhole, List.drop_left, hfraction, scanExponent_append hl.exponent hrest]

end

/-- The kind of token that a number is. -/
def kind (l : NumberLiteral) : TokenKind :=
  if l.isWhole then .int (digitsValue l.whole) else .float (Double.ofDecimal false l.decimal)

theorem namesMember_kind (l : NumberLiteral) : l.kind.namesMember = false := by
  unfold kind
  split <;> rfl

/-! ### Numbers of digits -/

theorem foldl_digits_lt {cs : List Char} (hcs : ∀ c ∈ cs, c.isDigit = true) (n : Nat) :
    cs.foldl (fun n c => 10 * n + (c.toNat - '0'.toNat)) n < (n + 1) * 10 ^ cs.length := by
  induction cs generalizing n with
  | nil => simp
  | cons c cs ih =>
    obtain ⟨hc, hcs⟩ := List.forall_mem_cons.mp hcs
    have hval : c.toNat ≤ 57 := by simpa [UInt32.le_iff_toNat_le] using (Bool.and_eq_true_iff.mp hc).2
    have hzero : '0'.toNat = 48 := rfl
    have hstep : 10 * n + (c.toNat - '0'.toNat) + 1 ≤ (n + 1) * 10 := by omega
    calc cs.foldl _ (10 * n + (c.toNat - '0'.toNat))
      _ < (10 * n + (c.toNat - '0'.toNat) + 1) * 10 ^ cs.length := ih hcs _
      _ ≤ (n + 1) * 10 * 10 ^ cs.length := Nat.mul_le_mul_right _ hstep
      _ = (n + 1) * 10 ^ (c :: cs).length := by rw [Nat.mul_assoc, List.length_cons, Nat.pow_succ']

theorem digitsValue_lt {cs : List Char} (hcs : ∀ c ∈ cs, c.isDigit = true) :
    digitsValue cs < 10 ^ cs.length := by
  simpa [digitsValue] using foldl_digits_lt hcs 0

end NumberLiteral

theorem Number.isWritable_int_iff {n : Int} :
    (Number.int n).isWritable = true ↔ n.natAbs < 10 ^ mostDigits := by
  have hdigits : Decimal.digitCount n.natAbs = (Nat.toDigits 10 n.natAbs).length := by
    rw [Decimal.digitCount, Nat.repr_eq_ofList_toDigits, String.length_ofList]
  rw [isWritable, decide_eq_true_iff, hdigits]
  exact Nat.length_toDigits_le_iff (by decide) (by decide)

@[simp] theorem Number.isWritable_neg (n : Number) : n.neg.isWritable = n.isWritable := by
  cases n with
  | int n => simp [neg, isWritable]
  | float x => rfl

/-- An integer that is read can be written. -/
theorem NumberLiteral.Written.isWritable {l : NumberLiteral} (hl : l.Written) (hlong : l.isLong = false)
    {n : Nat} (hn : l.kind = .int n) : (Number.int n).isWritable = true := by
  unfold kind at hn
  split at hn
  · next hwhole =>
    cases hn
    have hlength : l.whole.length ≤ mostDigits := by simpa [isLong, hwhole] using hlong
    refine Number.isWritable_int_iff.mpr ?_
    rw [Int.natAbs_natCast]
    exact Nat.lt_of_lt_of_le (digitsValue_lt hl.whole.2) (Nat.pow_le_pow_right (by decide) hlength)
  · cases hn

namespace TextLiteral

variable {quote : Char} {start position n : Nat} {cs s : List Char}

/-- A text as it is written up to its closing quote: characters stand for themselves or are escaped. -/
inductive Written (quote : Char) : List Char → List Char → Prop
  | close : Written quote [quote] []
  | escape {c d : Char} {body s : List Char} : unescape? c = some d → Written quote body s →
      Written quote ('\\' :: c :: body) (d :: s)
  | plain {c : Char} {body s : List Char} : c ≠ quote → c ≠ '\\' → Written quote body s →
      Written quote (c :: body) (c :: s)

theorem scan_cons {c : Char} (hc : c ≠ '\\') (rest : List Char) :
    scan quote start position (c :: rest) =
      if c = quote then .ok ([], 1)
      else (scan quote start (position + 1) rest).map fun (s, n) => (c :: s, n + 1) :=
  scan.eq_4 _ _ _ _ _ (fun h => absurd h hc) fun _ _ h => absurd h hc

theorem scan_of_written (hquote : quote ≠ '\\') {body : List Char} (h : Written quote body s)
    (start position : Nat) (rest : List Char) :
    scan quote start position (body ++ rest) = .ok (s, body.length) := by
  induction h generalizing position with
  | close =>
    rw [List.cons_append, scan_cons hquote, if_pos rfl]
    rfl
  | escape hc _ ih =>
    rw [List.cons_append, List.cons_append, scan.eq_3, hc]
    simp only [ih]
    rfl
  | plain hc hslash _ ih =>
    rw [List.cons_append, scan_cons hslash, if_neg hc, ih]
    rfl

theorem written_of_scan (h : scan quote start position cs = .ok (s, n)) :
    ∃ body rest, cs = body ++ rest ∧ body.length = n ∧ Written quote body s := by
  induction position, cs using scan.induct quote generalizing s n with
  | case1 position | case2 position => cases h
  | case3 position c rest hc =>
    rw [scan.eq_3, hc] at h
    cases h
  | case4 position c rest d hc ih =>
    rw [scan.eq_3, hc] at h
    obtain ⟨⟨s', n'⟩, hscan, heq⟩ := map_eq_ok.mp h
    cases heq
    obtain ⟨body, rest', rfl, rfl, hbody⟩ := ih hscan
    exact ⟨_, rest', rfl, rfl, .escape hc hbody⟩
  | case5 position rest hend hescape =>
    rw [scan.eq_4 _ _ _ _ _ hend hescape, if_pos rfl] at h
    cases h
    exact ⟨[quote], rest, rfl, rfl, .close⟩
  | case6 position c rest hend hescape hc ih =>
    rw [scan.eq_4 _ _ _ _ _ hend hescape, if_neg hc] at h
    obtain ⟨⟨s', n'⟩, hscan, heq⟩ := map_eq_ok.mp h
    cases heq
    obtain ⟨body, rest', rfl, rfl, hbody⟩ := ih hscan
    have hslash : c ≠ '\\' := fun hslash => by
      cases hrest : body ++ rest' with
      | nil => exact hend hslash hrest
      | cons d ds => exact hescape d ds hslash hrest
    exact ⟨_, rest', rfl, rfl, .plain hc hslash hbody⟩

/-- A text that is not scanned has no end, or an escape that stands for nothing. -/
theorem fault_of_scan {f : SyntaxFault} (h : scan quote start position cs = .error f) :
    f = ⟨start, .unterminatedText⟩ ∨
      ∃ before c rest, cs = before ++ '\\' :: c :: rest ∧
        f = ⟨position + before.length, .invalidEscape c⟩ := by
  induction position, cs using scan.induct quote with
  | case1 position | case2 position =>
    cases h
    exact .inl rfl
  | case3 position c rest hc =>
    rw [scan.eq_3, hc] at h
    cases h
    exact .inr ⟨[], c, rest, rfl, rfl⟩
  | case4 position c rest d hc ih =>
    rw [scan.eq_3, hc] at h
    rcases ih (map_eq_error.mp h) with rfl | ⟨before, e, rest', rfl, rfl⟩
    · exact .inl rfl
    · refine .inr ⟨'\\' :: c :: before, e, rest', rfl, ?_⟩
      simp only [List.length_cons, SyntaxFault.mk.injEq, and_true]
      omega
  | case5 position rest hend hescape =>
    rw [scan.eq_4 _ _ _ _ _ hend hescape, if_pos rfl] at h
    cases h
  | case6 position c rest hend hescape hc ih =>
    rw [scan.eq_4 _ _ _ _ _ hend hescape, if_neg hc] at h
    rcases ih (map_eq_error.mp h) with rfl | ⟨before, e, rest', rfl, rfl⟩
    · exact .inl rfl
    · refine .inr ⟨c :: before, e, rest', rfl, ?_⟩
      simp only [List.length_cons, SyntaxFault.mk.injEq, and_true]
      omega

end TextLiteral

end Rulebook
