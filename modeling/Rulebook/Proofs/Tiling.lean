import Rulebook.Proofs.Words
import Rulebook.Token.Listing

set_option autoImplicit false

/-!
How tokens cover a text. They stand in the text one behind the other, with nothing but blanks beside them. No word
and no operator is cut short: no character of a word stands beside a word, and no longer operator begins where one
stands.
-/

namespace Rulebook.Token

open Text

/-- The place behind a token. -/
def stop (t : Token) : Nat := t.position + t.text.length

def Covers (t : Token) (place : Nat) : Prop := t.position ≤ place ∧ place < t.stop

/-- A number or a text in quotes. -/
def IsLiteral (t : Token) : Prop := (∃ n, t.kind = .int n) ∨ (∃ x, t.kind = .float x) ∨ ∃ s, t.kind = .text s

def IsOperator (t : Token) : Prop := (t.text.toList, t.kind) ∈ operators

/-! ### Words are parted -/

/-- No word goes on from the first text into the second. -/
def Parted (before after : List Char) : Prop :=
  ∀ d ∈ before.getLast?, ∀ c ∈ after.head?, isWordChar d = true → isWordChar c = false

section

variable {c : Char} {k : TokenKind} {position : Nat} {a b before after cs : List Char} {t : Token} {ts : List Token}

theorem parted_of_after (h : ∀ c ∈ after.head?, isWordChar c = false) : Parted before after :=
  fun _ _ c hc _ => h c hc

theorem parted_of_before (h : ∀ d ∈ before.getLast?, isWordChar d = false) : Parted before after := by
  intro d hd _ _ hword
  rw [h d hd] at hword
  cases hword

theorem head_of_not_runsOn (h : runsOn b = false) : ∀ c ∈ b.head?, isWordChar c = false := by
  cases b with
  | nil => simp
  | cons d ds =>
    rw [runsOn, Bool.or_eq_false_iff] at h
    simpa using h.1

theorem head_of_takeWhile (h : b.takeWhile isWordChar = []) : ∀ c ∈ b.head?, isWordChar c = false := by
  cases b with
  | nil => simp
  | cons d ds =>
    rw [List.takeWhile_cons] at h
    split at h
    · cases h
    · next hd => simpa using hd

theorem getLast?_written {quote : Char} {body s : List Char} (h : TextLiteral.Written quote body s) :
    body.getLast? = some quote := by
  induction h with
  | close => rfl
  | escape _ _ ih => simp [List.getLast?_cons, ih]
  | plain _ _ _ ih => simp [List.getLast?_cons, ih]

/-- No operator ends like a word. -/
theorem operators_end : operators.all (fun o => o.1.getLast?.all fun c => !isWordChar c) = true := by
  decide +kernel

theorem Lexeme.parted (h : Lexeme c a k b) : Parted (c :: a) b := by
  cases h with
  | number _ _ _ hrest => exact parted_of_after (head_of_not_runsOn hrest)
  | text hquote hbody =>
    refine parted_of_before fun d hd => ?_
    rw [List.getLast?_cons, getLast?_written hbody] at hd
    cases hd
    rcases hquote with rfl | rfl <;> decide +kernel
  | word _ _ hrest => exact parted_of_after (head_of_takeWhile hrest)
  | operator hop =>
    refine parted_of_before fun d hd => ?_
    have hend := List.all_eq_true.mp operators_end _ hop.1
    simp only [Option.mem_def.mp hd] at hend
    simpa using hend

theorem parted_of_isBlank (hc : isBlank c = true) : Parted [c] b := by
  refine parted_of_before fun d hd => ?_
  cases hd
  exact isWordChar_eq_false_of_isBlank hc

/-! ### Places -/

/-- A token stands in the text from its position on, in the form of a token, and no word runs into it. -/
def Placed (position : Nat) (cs : List Char) (t : Token) : Prop :=
  ∃ before c a b, cs = before ++ (c :: a ++ b) ∧ t.text.toList = c :: a ∧ t.position = position + before.length ∧
    Lexeme c a t.kind b ∧ Parted before (c :: a)

theorem Placed.behind (more : List Char) (h : Placed (position + more.length) cs t) (hmore : Parted more cs) :
    Placed position (more ++ cs) t := by
  obtain ⟨before, c, a, b, rfl, htext, hposition, hlexeme, hparted⟩ := h
  refine ⟨more ++ before, c, a, b, by simp, htext, ?_, hlexeme, ?_⟩
  · rw [hposition, List.length_append, Nat.add_assoc]
  · intro d hd
    cases before with
    | nil => exact hmore d (by simpa using hd)
    | cons e before => exact hparted d (by simpa using hd)

/-- Only the first of the tokens that are left has nothing in front of it. What is put there does not run into it. -/
theorem Scans.placed (h : Scans position cs ts) : ∀ t ∈ ts, Placed position cs t := by
  induction h with
  | done => exact fun t ht => absurd ht List.not_mem_nil
  | @blank position c cs ts hc _ ih =>
    exact fun t ht => (ih t ht).behind [c] (parted_of_isBlank hc)
  | @token position c k a b ts hlexeme _ ih =>
    refine List.forall_mem_cons.mpr ⟨?_, fun t ht => ?_⟩
    · exact ⟨[], c, a, b, rfl, String.toList_ofList, rfl, hlexeme, by simp [Parted]⟩
    · exact (ih t ht).behind (c :: a) hlexeme.parted

theorem Scans.ordered (h : Scans position cs ts) :
    (∀ t ∈ ts, position ≤ t.position) ∧ ts.Pairwise fun t u => t.stop ≤ u.position := by
  induction h with
  | done => exact ⟨by simp, .nil⟩
  | blank _ _ ih => exact ⟨fun t ht => Nat.le_of_succ_le (ih.1 t ht), ih.2⟩
  | @token position c k a b ts _ _ ih =>
    have hbehind : ∀ t ∈ ts, position + (a.length + 1) ≤ t.position := ih.1
    refine ⟨List.forall_mem_cons.mpr ⟨Nat.le_refl _, fun t ht => ?_⟩, .cons (fun t ht => ?_) ih.2⟩
    · have := hbehind t ht
      omega
    · rw [stop, String.length_ofList]
      exact hbehind t ht

/-- What no token covers is blank. -/
theorem Scans.isBlank_of_uncovered (h : Scans position cs ts) {i : Nat} (hi : cs[i]? = some c)
    (hts : ∀ t ∈ ts, ¬ t.Covers (position + i)) : isBlank c = true := by
  induction h generalizing i with
  | done => cases hi
  | @blank position d cs ts hd _ ih =>
    cases i with
    | zero =>
      cases hi
      exact hd
    | succ i =>
      refine ih hi fun t ht => ?_
      rw [Nat.add_assoc, Nat.add_comm 1]
      exact hts t ht
  | @token position d k a b ts _ _ ih =>
    obtain ⟨hhead, htail⟩ := List.forall_mem_cons.mp hts
    -- the place is behind this token, and so among the characters that are left
    have hlong : a.length + 1 ≤ i := by
      simp only [Covers, stop, String.length_ofList, List.length_cons] at hhead
      omega
    obtain ⟨j, rfl⟩ := Nat.exists_eq_add_of_le hlong
    refine ih (i := j) ?_ fun t ht => ?_
    · rw [← hi, ← List.cons_append, List.getElem?_append_right (by simp)]
      simp
    · have hplace : position + a.length + 1 + j = position + (a.length + 1 + j) := by omega
      rw [hplace]
      exact htail t ht

/-! ### What is read off a place -/

theorem Placed.slice (h : Placed 0 cs t) :
    t.text ≠ "" ∧ (cs.drop t.position).take t.text.length = t.text.toList := by
  obtain ⟨before, c, a, b, rfl, htext, hposition, -, -⟩ := h
  rw [Nat.zero_add] at hposition
  rw [hposition, List.drop_left, ← String.length_toList, htext, List.take_left]
  refine ⟨fun hempty => ?_, rfl⟩
  rw [hempty] at htext
  cases htext

theorem Placed.sort (h : Placed position cs t) : t.IsLiteral ∨ Identifier t.text ∨ t.IsOperator := by
  obtain ⟨_, c, a, b, -, htext, -, hlexeme, -⟩ := h
  generalize hk : t.kind = k at hlexeme
  cases hlexeme with
  | @number _ _ l _ _ _ =>
    rw [NumberLiteral.kind] at hk
    split at hk
    · exact .inl (.inl ⟨_, hk⟩)
    · exact .inl (.inr (.inl ⟨_, hk⟩))
  | text _ _ => exact .inl (.inr (.inr ⟨_, hk⟩))
  | word hc ha _ => exact .inr (.inl ⟨c, a, htext, hc, ha⟩)
  | operator hop =>
    refine .inr (.inr ?_)
    rw [IsOperator, htext, hk]
    exact hop.1

/-- The character in front of a token. -/
theorem Placed.parted_left (h : Placed 0 cs t) {i : Nat} (hi : i + 1 = t.position) (hc : cs[i]? = some c) :
    Parted [c] t.text.toList := by
  obtain ⟨before, d, a, b, rfl, htext, hposition, -, hparted⟩ := h
  have hlength : i = before.length - 1 := by omega
  have hlast : before.getLast? = some c := by
    rw [List.getElem?_append_left (by omega)] at hc
    rw [List.getLast?_eq_getElem?, ← hlength, hc]
  rw [htext]
  intro e he
  cases he
  exact hparted c hlast

/-- The character behind a token. -/
theorem Placed.exists_lexeme_right (h : Placed 0 cs t) (hc : cs[t.stop]? = some c) :
    ∃ d a b, t.text.toList = d :: a ∧ Lexeme d a t.kind (c :: b) := by
  obtain ⟨before, d, a, b, rfl, htext, hposition, hlexeme, -⟩ := h
  have hstop : t.stop = (before ++ (d :: a)).length := by
    rw [stop, hposition, ← String.length_toList, htext, List.length_append, Nat.zero_add]
  rw [hstop, ← List.append_assoc, List.getElem?_append_right (Nat.le_refl _), Nat.sub_self] at hc
  cases b with
  | nil => cases hc
  | cons e b =>
    cases hc
    exact ⟨d, a, b, htext, hlexeme⟩

/-- No character of a word stands beside a word. -/
theorem Placed.word (h : Placed 0 cs t) (hword : Identifier t.text) :
    (∀ i c, i + 1 = t.position → cs[i]? = some c → isWordChar c = false) ∧
      ∀ c, cs[t.stop]? = some c → isWordChar c = false := by
  obtain ⟨d, a, htext, hd, ha⟩ := hword
  have hchars : ∀ e ∈ d :: a, isWordChar e = true :=
    List.forall_mem_cons.mpr ⟨isWordChar_of_isWordStart hd, ha⟩
  constructor
  · intro i c hi hc
    have hparted := h.parted_left hi hc
    rw [htext] at hparted
    refine Bool.eq_false_iff.mpr fun hword => ?_
    have hstart := hparted c rfl d rfl hword
    rw [hchars d List.mem_cons_self] at hstart
    cases hstart
  · intro c hc
    obtain ⟨d', a', b, htext', hlexeme⟩ := h.exists_lexeme_right hc
    rw [htext] at htext'
    cases htext'
    obtain ⟨e, he⟩ : ∃ e, (d :: a).getLast? = some e := ⟨_, List.getLast?_eq_some_getLast (by simp)⟩
    exact hlexeme.parted e he c rfl (hchars e (List.mem_of_getLast? he))

theorem Lexeme.operates (h : Lexeme c a k b) (hmem : (c :: a, k) ∈ operators) : Operates (c :: a) k b := by
  have hplain := List.all_eq_true.mp operators_plain _ hmem
  simp only [List.head?_cons, Option.all_some, Bool.not_eq_true', Bool.or_eq_false_iff, beq_eq_false_iff_ne] at hplain
  obtain ⟨⟨⟨⟨-, hdigit⟩, hdouble⟩, hsingle⟩, hword⟩ := hplain
  cases h with
  | number hl _ htext _ =>
    rw [hl.isDigit htext] at hdigit
    cases hdigit
  | text hquote _ => exact (hquote.elim hdouble hsingle).elim
  | word hc _ _ =>
    rw [hc] at hword
    cases hword
  | operator hop => exact hop

/-- No longer operator begins where an operator stands. -/
theorem Placed.operator (h : Placed 0 cs t) (hop : t.IsOperator) (hc : cs[t.stop]? = some c) (k : TokenKind) :
    (t.text.toList ++ [c], k) ∉ operators := by
  obtain ⟨d, a, b, htext, hlexeme⟩ := h.exists_lexeme_right hc
  rw [IsOperator, htext] at hop
  rw [htext]
  exact (hlexeme.operates hop).2 c rfl k

end

/-! ### Whole texts -/

/-- Tokens that stand in a text one behind the other, with nothing but blanks beside them. Each one is a literal, a
word or an operator, and words and operators are as long as they can be. -/
structure Tiles (cs : List Char) (ts : List Token) : Prop where
  slice : ∀ t ∈ ts, t.text ≠ "" ∧ (cs.drop t.position).take t.text.length = t.text.toList
  ordered : ts.Pairwise fun t u => t.stop ≤ u.position
  blank : ∀ i c, cs[i]? = some c → (∀ t ∈ ts, ¬ t.Covers i) → isBlank c = true
  sort : ∀ t ∈ ts, t.IsLiteral ∨ Identifier t.text ∨ t.IsOperator
  word : ∀ t ∈ ts, Identifier t.text →
    (∀ i c, i + 1 = t.position → cs[i]? = some c → isWordChar c = false) ∧
      ∀ c, cs[t.stop]? = some c → isWordChar c = false
  operator : ∀ t ∈ ts, t.IsOperator → ∀ c, cs[t.stop]? = some c → ∀ k, (t.text.toList ++ [c], k) ∉ operators

theorem Scans.tiles {cs : List Char} {ts : List Token} (h : Scans 0 cs ts) : Tiles cs ts where
  slice t ht := (h.placed t ht).slice
  ordered := h.ordered.2
  blank i c hc hts := h.isBlank_of_uncovered hc fun t ht => by
    rw [Nat.zero_add]
    exact hts t ht
  sort t ht := (h.placed t ht).sort
  word t ht := (h.placed t ht).word
  operator t ht hop _ hc := (h.placed t ht).operator hop hc

theorem listing_eq_ok_iff {text : String} {ls : List Listed} :
    listing text = .ok ls ↔ ∃ ts, scan text = .ok ts ∧ ls = ts.map .token ++ [.textEnd text.length] := by
  rw [listing, map_eq_ok]
  constructor
  · rintro ⟨ts, hscan, rfl⟩
    exact ⟨ts, hscan, rfl⟩
  · rintro ⟨ts, hscan, rfl⟩
    exact ⟨ts, hscan, rfl⟩

/-- A text that can be listed is listed as tokens that cover it, and its end behind them. -/
theorem tiles_of_listing {text : String} {ls : List Listed} (h : listing text = .ok ls) :
    ∃ ts, ls = ts.map .token ++ [.textEnd text.length] ∧ Tiles text.toList ts := by
  obtain ⟨ts, hscan, rfl⟩ := listing_eq_ok_iff.mp h
  exact ⟨ts, rfl, (scan_eq_ok_iff.mp hscan).tiles⟩

/-- A number in front of a dot, an operator of two characters in front of a text, and blanks. -/
def crowdedTokens : List Token :=
  [⟨.not, "NOT", 0⟩, ⟨.int 12, "12", 4⟩, ⟨.dot, ".", 6⟩, ⟨.name, "trim", 7⟩, ⟨.ne, "!=", 11⟩,
    ⟨.text "a>=\x27", "'a>=\\''", 13⟩]

theorem tiles_of_listing_crowded :
    listing "NOT 12.trim!='a>=\\''\t" = .ok (crowdedTokens.map .token ++ [.textEnd 21]) ∧
      Tiles "NOT 12.trim!='a>=\\''\t".toList crowdedTokens := by
  have hlisting : listing "NOT 12.trim!='a>=\\''\t" = .ok (crowdedTokens.map .token ++ [.textEnd 21]) := by
    with_unfolding_all rfl
  obtain ⟨ts, hlisted, htiles⟩ := tiles_of_listing hlisting
  have htokens := (List.append_inj' hlisted rfl).1
  have hts : crowdedTokens = ts := (List.map_inj_right fun _ _ => Listed.token.inj).mp htokens
  exact ⟨hlisting, hts ▸ htiles⟩

end Rulebook.Token
