import Rulebook.Json.Read
import Rulebook.Json.Write
import Rulebook.Text.Label

set_option autoImplicit false

/-!
Quoted JSON text: what is written is read. An escape of half a surrogate pair would be joined to a second one
behind it, so this needs a text in which no two halves of a pair stand side by side. Every text that is
read from characters is of this kind.
-/

namespace Rulebook

namespace CodePoint

theorem isLowHalf_toNat (c : Char) : isLowHalf c.toNat = false := by
  have := toNat_bounds c
  simp only [isLowHalf, Bool.and_eq_false_iff, decide_eq_false_iff_not]
  omega

theorem isLowHalf_of_isHighHalf {n : Nat} (h : isHighHalf n = true) : isLowHalf n = false := by
  simp only [isHighHalf, isLowHalf, Bool.and_eq_true, Bool.and_eq_false_iff, decide_eq_true_eq,
    decide_eq_false_iff_not] at *
  omega

theorem lt_of_isHighHalf {n : Nat} (h : isHighHalf n = true) : n < 0x10000 := by
  simp only [isHighHalf, Bool.and_eq_true, decide_eq_true_eq] at h
  omega

theorem lt_of_isLowHalf {n : Nat} (h : isLowHalf n = true) : n < 0x10000 := by
  simp only [isLowHalf, Bool.and_eq_true, decide_eq_true_eq] at h
  omega

theorem ofNat_number (p : CodePoint) : ofNat p.number = p := by
  cases p with
  | char c =>
    have := toNat_bounds c
    rw [number, ofNat, dif_neg (by omega), Char.ofNat_toNat]
  | surrogate n =>
    have := n.isLt
    rw [number, ofNat, dif_pos (by omega)]
    simp

/-- A character beyond the basic plane is the one its two halves stand for. -/
theorem exists_halves {c : Char} (h : 0x10000 ≤ c.toNat) :
    isHighHalf (0xD800 + (c.toNat - 0x10000) / 0x400) = true ∧
      isLowHalf (0xDC00 + (c.toNat - 0x10000) % 0x400) = true ∧
      ofPair (0xD800 + (c.toNat - 0x10000) / 0x400) (0xDC00 + (c.toNat - 0x10000) % 0x400) =
        char c := by
  have := toNat_bounds c
  refine ⟨?_, ?_, ?_⟩
  · simp only [isHighHalf, Bool.and_eq_true, decide_eq_true_eq]
    omega
  · simp only [isLowHalf, Bool.and_eq_true, decide_eq_true_eq]
    omega
  · have hnumber : 0x10000 + (0xD800 + (c.toNat - 0x10000) / 0x400 - 0xD800) * 0x400 +
        (0xDC00 + (c.toNat - 0x10000) % 0x400 - 0xDC00) = c.toNat := by omega
    rw [ofPair, hnumber, Char.ofNat_toNat]

end CodePoint

namespace Text

theorem ofChars_append (cs ds : List Char) : ofChars (cs ++ ds) = ofChars cs ++ ofChars ds :=
  List.map_append

theorem hexValue?_hexDigit (n : Nat) : hexValue? (hexDigit n) = some (n % 16) := by
  have h : ∀ m < 16, hexValue? (hexDigit m) = some m := by decide
  have := h (n % 16) (Nat.mod_lt _ (by decide))
  rwa [hexDigit, Nat.mod_mod] at this

end Text

namespace Json

open CodePoint

/-! ### Reading steps -/

section

variable {α β : Type} {m n : Nat} {a : α} {b : β} {rest rest' : Text}

/-- This is read, and this text is left. -/
def Reads (x : Result α n) (a : α) (rest : Text) : Prop := ∃ h, x = .ok ⟨a, rest, h⟩

theorem reads_ok (h : rest.length < n) : Reads (n := n) (.ok ⟨a, rest, h⟩) a rest := ⟨h, rfl⟩

theorem reads_bind {x : Result α m} {f : Reading CodePoint α m → Result β n} (hx : Reads x a rest)
    (hf : ∀ h, Reads (f ⟨a, rest, h⟩) b rest') : Reads (x >>= f) b rest' := by
  obtain ⟨h, rfl⟩ := hx
  exact hf h

end

/-! ### Escapes -/

/-- The four ways to write a code point. -/
inductive Escaped : CodePoint → List Char → Prop
  | short {c e : Char} : shortEscape? c = some e → Escaped (.char c) ['\\', e]
  | plain {c : Char} : shortEscape? c = none → 0x20 ≤ c.toNat → Escaped (.char c) [c]
  | unit {p : CodePoint} : p.number < 0x10000 → Escaped p (unitEscape p.number)
  | pair {high low : Nat} : isHighHalf high = true → isLowHalf low = true →
      Escaped (.ofPair high low) (unitEscape high ++ unitEscape low)

theorem escaped_unicodeEscape (c : Char) : Escaped (.char c) (unicodeEscape c) := by
  rw [unicodeEscape]
  split
  · next h => exact .unit (p := .char c) h
  · next h =>
    obtain ⟨hhigh, hlow, hpair⟩ := exists_halves (Nat.le_of_not_lt h)
    rw [← hpair]
    exact .pair hhigh hlow

theorem escaped_escape (p : CodePoint) : Escaped p (escape true p) := by
  cases p with
  | surrogate n =>
    have := n.isLt
    exact .unit (by rw [CodePoint.number]; omega)
  | char c =>
    rw [escape, escapeChar]
    split
    · next e he => exact .short he
    · next he =>
      split
      · exact escaped_unicodeEscape c
      · next h =>
        simp only [Bool.or_eq_true, decide_eq_true_eq, not_or] at h
        exact .plain he (Nat.le_of_not_lt h.1)

theorem exists_unitEscape {n : Nat} (h : n < 0x10000) :
    ∃ a b c d, unitEscape n = ['\\', 'u', a, b, c, d] ∧ hexUnit? a b c d = some n := by
  refine ⟨_, _, _, _, rfl, ?_⟩
  simp only [hexUnit?, Text.hexValue?_hexDigit, Option.bind_eq_bind, Option.bind_some, Option.pure_def,
    Option.some.injEq]
  omega

theorem lowHalf?_unitEscape {n : Nat} (h : n < 0x10000) (s : Text) :
    lowHalf? (Text.ofChars (unitEscape n) ++ s) = if isLowHalf n then some n else none := by
  obtain ⟨a, b, c, d, hescape, hunit⟩ := exists_unitEscape h
  rw [hescape]
  simp only [Text.ofChars, List.map_cons, List.map_nil, List.cons_append, List.nil_append, lowHalf?,
    hunit, Option.filter_some]

/-- Only the escape of a second half is taken for one. -/
theorem Escaped.lowHalf?_eq_none {p : CodePoint} {cs : List Char} (h : Escaped p cs)
    (hlow : isLowHalf p.number = false) (s : Text) : lowHalf? (Text.ofChars cs ++ s) = none := by
  cases h with
  | @short c e hc =>
    have he : e ≠ 'u' := by
      unfold shortEscape? at hc
      split at hc <;> cases hc <;> decide
    simp only [Text.ofChars, List.map_cons, List.map_nil, List.cons_append, List.nil_append]
    unfold lowHalf?
    split
    · next heq => simp_all
    · rfl
  | @plain c hc hspace =>
    have hslash : c ≠ '\\' := by
      rintro rfl
      cases hc
    unfold lowHalf?
    split
    · next heq => simp_all [Text.ofChars]
    · rfl
  | unit hn => rw [lowHalf?_unitEscape hn, hlow, if_neg Bool.false_ne_true]
  | pair hhigh hlow' =>
    rw [Text.ofChars_append, List.append_assoc, lowHalf?_unitEscape (lt_of_isHighHalf hhigh),
      isLowHalf_of_isHighHalf hhigh, if_neg Bool.false_ne_true]

/-! ### Quoted text -/

section

variable {s t rest : Text}

theorem unitPoint_alone {n : Nat} (h : isHighHalf n = true → lowHalf? s = none) :
    unitPoint n s = (.ofNat n, 0) := by
  rw [unitPoint]
  split
  · next low heq =>
    split at heq
    · next hhigh => rw [h hhigh] at heq; cases heq
    · cases heq
  · rfl

/-- A unit and what it takes from the text behind it. -/
theorem reads_unit {n : Nat} {u : Text} {p : CodePoint} (hn : n < 0x10000)
    (hpoint : unitPoint n (u ++ s) = (p, u.length)) (h : Reads (readText s) t rest) :
    Reads (readText (Text.ofChars (unitEscape n) ++ (u ++ s))) (p :: t) rest := by
  obtain ⟨a, b, c, d, hescape, hunit⟩ := exists_unitEscape hn
  rw [hescape]
  change Reads (readText (.char '\\' :: .char 'u' :: .char a :: .char b :: .char c :: .char d ::
    (u ++ s))) _ _
  have hdrop : (u ++ s).drop (unitPoint n (u ++ s)).2 = s := by rw [hpoint, List.drop_left]
  have hread : Reads (readText ((u ++ s).drop (unitPoint n (u ++ s)).2)) t rest := by rwa [hdrop]
  rw [readText, hunit]
  refine reads_bind hread fun _ => ?_
  simp only [hpoint]
  exact reads_ok _

theorem reads_short {c e : Char} (hc : shortEscape? c = some e) (h : Reads (readText s) t rest) :
    Reads (readText (.char '\\' :: .char e :: s)) (.char c :: t) rest := by
  have he : escape? e = some c ∧ e ≠ 'u' := by
    unfold shortEscape? at hc
    split at hc <;> cases hc <;> exact ⟨rfl, by decide⟩
  rw [readText.eq_4 _ _ fun _ _ _ _ _ _ => he.2, he.1]
  exact reads_bind h fun _ => reads_ok _

theorem reads_plain {c : Char} (hc : shortEscape? c = none) (hspace : 0x20 ≤ c.toNat)
    (h : Reads (readText s) t rest) : Reads (readText (.char c :: s)) (.char c :: t) rest := by
  have hquote : c ≠ '"' := by
    rintro rfl
    cases hc
  have hslash : c ≠ '\\' := by
    rintro rfl
    cases hc
  rw [readText.eq_5, if_neg]
  · exact reads_bind h fun _ => reads_ok _
  · simp [CodePoint.number, hslash, hspace]
  all_goals simp_all

theorem Escaped.reads {p : CodePoint} {cs : List Char} (hp : Escaped p cs)
    (hnext : isHighHalf p.number = true → lowHalf? s = none) (h : Reads (readText s) t rest) :
    Reads (readText (Text.ofChars cs ++ s)) (p :: t) rest := by
  cases hp with
  | short hc => exact reads_short hc h
  | plain hc hspace => exact reads_plain hc hspace h
  | unit hn =>
    have hpoint : unitPoint p.number ([] ++ s) = (p, 0) := by
      rw [List.nil_append, unitPoint_alone hnext, ofNat_number]
    exact reads_unit hn hpoint h
  | @pair high low hhigh hlow =>
    rw [Text.ofChars_append, List.append_assoc]
    refine reads_unit (lt_of_isHighHalf hhigh) ?_ h
    obtain ⟨a, b, c, d, hescape, -⟩ := exists_unitEscape (lt_of_isLowHalf hlow)
    rw [unitPoint, if_pos hhigh, lowHalf?_unitEscape (lt_of_isLowHalf hlow), if_pos hlow, hescape]
    rfl

theorem lowHalf?_escaped {p : CodePoint} (hp : isHighHalf p.number = true)
    (hs : Text.Unpaired (p :: s)) :
    lowHalf? (Text.ofChars (s.flatMap (escape true)) ++ .char '"' :: rest) = none := by
  cases s with
  | nil => rfl
  | cons q s =>
    have hjoins := hs.head q rfl
    have hlow : isLowHalf q.number = false := by
      cases hq : isLowHalf q.number with
      | false => rfl
      | true => exact absurd ⟨hp, hq⟩ hjoins
    rw [List.flatMap_cons, Text.ofChars_append, List.append_assoc]
    exact (escaped_escape q).lowHalf?_eq_none hlow _

/-- A text that was escaped is read up to the quote behind it. -/
theorem reads_escaped (hs : s.Unpaired) :
    Reads (readText (Text.ofChars (s.flatMap (escape true)) ++ .char '"' :: rest)) s rest := by
  induction s with
  | nil =>
    change Reads (readText (.char '"' :: rest)) [] rest
    rw [readText]
    exact reads_ok _
  | cons p s ih =>
    have hread := ih hs.tail
    rw [List.flatMap_cons, Text.ofChars_append, List.append_assoc]
    exact (escaped_escape p).reads (fun hhigh => lowHalf?_escaped hhigh hs) hread

end

end Json

end Rulebook
