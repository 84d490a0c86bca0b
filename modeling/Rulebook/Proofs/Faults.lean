import Rulebook.Proofs.Lexemes
import Rulebook.Proofs.Positions

set_option autoImplicit false

/-!
Faults in texts. What the reason of a fault quotes stands in the text where the fault is. A fault without a
quotation is at an opening quote, at a token or at the end of the text.
-/

namespace Rulebook

open Token

/-- The characters that a message quotes. -/
def Reason.quoted? : Reason → Option (List Char)
  | .unknownOperator c => some [c]
  | .invalidNumber s | .expectedComma s | .unexpectedToken s => some s.toList
  | .invalidEscape c => some ['\\', c]
  | .unmatchedOpen => some ['(']
  | .unmatchedClose => some [')']
  | .unmatchedBracket => some ['[']
  | _ => none

/-- A message that quotes something ends with it. -/
theorem Reason.quoted_isSuffix_message {r : Reason} {x : List Char} (h : r.quoted? = some x) :
    '\x27' :: (x ++ ['\x27']) <:+ r.message.toList := by
  cases r with
  | unknownOperator c =>
    cases h
    exact ⟨"Unknown operator token ".toList, by unfold message; simp⟩
  | invalidNumber s =>
    cases h
    exact ⟨"Invalid numeric literal ".toList, by unfold message; simp⟩
  | expectedComma s =>
    cases h
    exact ⟨"Expected ',' or ')' but found ".toList, by unfold message; simp⟩
  | unexpectedToken s =>
    cases h
    exact ⟨"Unexpected token ".toList, by unfold message; simp⟩
  | invalidEscape c =>
    cases h
    exact ⟨"Invalid escape sequence ".toList, by unfold message; simp⟩
  | unmatchedOpen | unmatchedClose | unmatchedBracket =>
    cases h
    exact ⟨"Unmatched ".toList, by unfold message; simp⟩
  | _ => cases h

/-! ### Places in a text -/

/-- In a text that begins at one position, these characters stand at another one. -/
def Stands (position : Nat) (cs x : List Char) (p : Nat) : Prop :=
  ∃ before rest, cs = before ++ (x ++ rest) ∧ p = position + before.length

section

variable {position p : Nat} {cs x : List Char}

theorem stands_here (position : Nat) (x rest : List Char) : Stands position (x ++ rest) x position :=
  ⟨[], rest, rfl, rfl⟩

theorem Stands.behind (more : List Char) (h : Stands (position + more.length) cs x p) :
    Stands position (more ++ cs) x p := by
  obtain ⟨before, rest, rfl, rfl⟩ := h
  refine ⟨more ++ before, rest, by rw [List.append_assoc], ?_⟩
  rw [List.length_append, Nat.add_assoc]

theorem Stands.isPrefix_drop (h : Stands 0 cs x p) : x <+: cs.drop p := by
  obtain ⟨before, rest, rfl, rfl⟩ := h
  rw [Nat.zero_add, List.drop_left]
  exact List.prefix_append x rest

theorem Stands.le_length (h : Stands 0 cs x p) : p ≤ cs.length := by
  obtain ⟨before, rest, rfl, rfl⟩ := h
  rw [List.length_append]
  omega

end

/-! ### Faults in scanning -/

/-- The faults that are found while a text is scanned, each at the characters it is about. -/
inductive ScanFault (position : Nat) (cs : List Char) : SyntaxFault → Prop
  | number {x : List Char} {p : Nat} : x ≠ [] → Stands position cs x p →
      ScanFault position cs ⟨p, .invalidNumber (String.ofList x)⟩
  | escape {c : Char} {p : Nat} : Stands position cs ['\\', c] p →
      ScanFault position cs ⟨p, .invalidEscape c⟩
  | unterminated {quote : Char} {p : Nat} : quote = '"' ∨ quote = '\x27' →
      Stands position cs [quote] p → ScanFault position cs ⟨p, .unterminatedText⟩
  | operator {c : Char} {p : Nat} : Stands position cs [c] p →
      ScanFault position cs ⟨p, .unknownOperator c⟩

section

variable {position : Nat} {c : Char} {cs rest : List Char} {f : SyntaxFault} {ts : List Token}

theorem ScanFault.behind (more : List Char) (h : ScanFault (position + more.length) cs f) :
    ScanFault position (more ++ cs) f := by
  cases h with
  | number hx h => exact .number hx (h.behind more)
  | escape h => exact .escape (h.behind more)
  | unterminated hquote h => exact .unterminated hquote (h.behind more)
  | operator h => exact .operator (h.behind more)

theorem scanFault_of_number (hc : c.isDigit = true)
    (h : Token.number position (c :: rest) = .error (.fault f)) : ScanFault position (c :: rest) f := by
  obtain ⟨hwritten, behind, htext⟩ := NumberLiteral.written_scan hc rest
  have hdrop : (c :: rest).drop (NumberLiteral.scan (c :: rest)).text.length = behind :=
    (congrArg (List.drop _) htext).trans List.drop_left
  rw [Token.number] at h
  simp only [hdrop] at h
  split at h
  · cases h
    refine .number ?_ ⟨[], behind.drop 1, ?_, rfl⟩
    · simp [NumberLiteral.text, hwritten.whole.1]
    · rw [List.nil_append, List.append_assoc, List.take_append_drop, ← htext]
  · split at h <;> cases h

theorem scanFault_of_lexeme (h : lexeme position c rest = .error (.fault f)) :
    ScanFault position (c :: rest) f := by
  unfold lexeme at h
  split at h
  · next hdigit => exact scanFault_of_number hdigit h
  · split at h
    · next hquote =>
      have hhere : Stands position (c :: rest) [c] position := stands_here position [c] rest
      split at h
      · cases h
      · next fault hfault =>
        cases h
        rcases TextLiteral.fault_of_scan hfault with rfl | ⟨before, d, more, rfl, rfl⟩
        · exact .unterminated hquote hhere
        · exact .escape ⟨c :: before, more, rfl, by simp; omega⟩
    · split at h
      · cases h
      · split at h
        · cases h
        · cases h
          exact .operator (stands_here position [c] rest)

theorem scanFault_of_scanFrom (h : scanFrom position cs = .error (.fault f)) : ScanFault position cs f := by
  induction position, cs using scanFrom.induct with
  | case1 position =>
    rw [scanFrom] at h
    cases h
  | case2 position c rest hblank ih =>
    rw [scanFrom, if_pos hblank] at h
    exact (ih h).behind [c]
  | case3 position c rest hblank ih =>
    rw [scanFrom, if_neg hblank] at h
    rcases bind_eq_error.mp h with h | ⟨⟨k, n⟩, hlexeme, h⟩
    · exact scanFault_of_lexeme h
    · rcases bind_eq_error.mp h with h | ⟨ts, -, h⟩
      · -- the fault is behind this token, so its place is counted from the end of the token
        obtain ⟨a, b, rfl, rfl, -⟩ := exists_lexeme hlexeme
        have hfault := ih a.length h
        rw [List.drop_left] at hfault
        exact hfault.behind (c :: a)
      · cases h

/-! ### Tokens -/

/-- A token stands in the text at its place. -/
theorem Token.Scans.stands (h : Scans position cs ts) :
    ∀ t ∈ ts, Stands position cs t.text.toList t.position := by
  induction h with
  | done => exact fun t ht => absurd ht List.not_mem_nil
  | @blank position c cs ts _ _ ih => exact fun t ht => (ih t ht).behind [c]
  | @token position c k a b ts _ _ ih =>
    refine List.forall_mem_cons.mpr ⟨?_, fun t ht => (ih t ht).behind (c :: a)⟩
    rw [String.toList_ofList]
    exact stands_here position (c :: a) b

/-- The brackets that can be unmatched. -/
def brackets : List (List Char × TokenKind) :=
  [(['('], .openParen), ([')'], .closeParen), (['['], .openBracket)]

theorem operators_brackets : operators.all (fun o => brackets.all fun b => o.2 != b.2 || o == b) = true := by
  decide +kernel

theorem Token.Lexeme.eq_of_bracket {k : TokenKind} {a b sign : List Char} (h : Lexeme c a k b)
    (hk : (sign, k) ∈ brackets) : c :: a = sign := by
  cases h with
  | number =>
    rw [NumberLiteral.kind] at hk
    split at hk <;> simp [brackets] at hk
  | text => simp [brackets] at hk
  | word =>
    have hmember := namesMember_wordKind (c :: a)
    generalize wordKind (c :: a) = k at hk hmember
    simp only [brackets, List.mem_cons, Prod.mk.injEq, List.not_mem_nil, or_false] at hk
    rcases hk with ⟨-, rfl⟩ | ⟨-, rfl⟩ | ⟨-, rfl⟩ <;> cases hmember
  | operator hop =>
    have hsame := List.all_eq_true.mp (List.all_eq_true.mp operators_brackets _ hop.1) _ hk
    simpa using hsame

theorem Token.Formed.eq_of_bracket {t : Token} {sign : List Char} (ht : t.Formed)
    (hk : (sign, t.kind) ∈ brackets) : t.text.toList = sign := by
  obtain ⟨c, a, b, htext, hlexeme⟩ := ht
  rw [htext, hlexeme.eq_of_bracket hk]

end

/-! ### Whole texts -/

/-- A fault of a text, with the message of its reason, is at what it is about. -/
inductive Pinpoints (text : String) : SyntaxFault → Prop
  | empty : Pinpoints text ⟨0, .empty⟩
  | quotation {r : Reason} {x : List Char} {p : Nat} : r.quoted? = some x →
      '\x27' :: (x ++ ['\x27']) <:+ r.message.toList → x ≠ [] → x <+: text.toList.drop p →
      Pinpoints text ⟨p, r⟩
  | openingQuote {quote : Char} {p : Nat} : quote = '"' ∨ quote = '\x27' →
      [quote] <+: text.toList.drop p → Pinpoints text ⟨p, .unterminatedText⟩
  | textEnd : Pinpoints text ⟨text.length, .unexpectedEnd⟩
  | step {r : Reason} {p : Nat} : r = .memberName ∨ r = .arrayIndex →
      p = text.length ∨ (∃ ts, scan text = .ok ts ∧ ∃ t ∈ ts, t.position = p) →
      Pinpoints text ⟨p, r⟩

section

variable {text : String} {f : SyntaxFault} {r : Reason} {x : List Char} {p : Nat} {ts : List Token} {t : Token}

theorem Stands.le_text (h : Stands 0 text.toList x p) : p ≤ text.length := by
  rw [← String.length_toList]
  exact h.le_length

theorem Stands.pinpoints (h : Stands 0 text.toList x p) (hr : r.quoted? = some x) (hx : x ≠ []) :
    Pinpoints text ⟨p, r⟩ :=
  .quotation hr (Reason.quoted_isSuffix_message hr) hx h.isPrefix_drop

theorem ScanFault.pinpoints (h : ScanFault 0 text.toList f) :
    f.position ≤ text.length ∧ Pinpoints text f := by
  cases h with
  | @number x p hx h =>
    have hquoted : (Reason.invalidNumber (String.ofList x)).quoted? = some x :=
      congrArg some String.toList_ofList
    exact ⟨h.le_text, h.pinpoints hquoted hx⟩
  | escape h => exact ⟨h.le_text, h.pinpoints rfl (List.cons_ne_nil _ _)⟩
  | unterminated hquote h => exact ⟨h.le_text, .openingQuote hquote h.isPrefix_drop⟩
  | operator h => exact ⟨h.le_text, h.pinpoints rfl (List.cons_ne_nil _ _)⟩

theorem pinpoints_of_cites (hscan : scan text = .ok ts) (ht : t ∈ ts) (h : Parse.Cites r t) :
    Pinpoints text ⟨t.position, r⟩ := by
  have hscans := scan_eq_ok_iff.mp hscan
  have hstands := hscans.stands t ht
  have hformed := hscans.formed t ht
  have hne : t.text.toList ≠ [] := by
    obtain ⟨c, a, b, htext, -⟩ := hformed
    rw [htext]
    exact List.cons_ne_nil c a
  cases h with
  | memberName => exact .step (.inl rfl) (.inr ⟨ts, hscan, t, ht, rfl⟩)
  | arrayIndex => exact .step (.inr rfl) (.inr ⟨ts, hscan, t, ht, rfl⟩)
  | unmatchedOpen hk =>
    have htext : t.text.toList = ['('] := hformed.eq_of_bracket (by simp [brackets, hk])
    exact hstands.pinpoints (by rw [htext]; rfl) hne
  | unmatchedClose hk =>
    have htext : t.text.toList = [')'] := hformed.eq_of_bracket (by simp [brackets, hk])
    exact hstands.pinpoints (by rw [htext]; rfl) hne
  | unmatchedBracket hk =>
    have htext : t.text.toList = ['['] := hformed.eq_of_bracket (by simp [brackets, hk])
    exact hstands.pinpoints (by rw [htext]; rfl) hne
  | expectedComma => exact hstands.pinpoints rfl hne
  | unexpectedToken => exact hstands.pinpoints rfl hne

theorem pinpoints_of_expression (hscan : scan text = .ok ts)
    (h : Parse.expression text.length ts = .error f) :
    f.position ≤ text.length ∧ Pinpoints text f := by
  obtain ⟨position, reason⟩ := f
  rcases Parse.fault_of_expression h with hempty | ⟨hend, hreason⟩ | ⟨t, ht, hposition, hcites⟩
  · cases hempty
    exact ⟨Nat.zero_le _, .empty⟩
  · dsimp only at hend hreason
    subst hend
    simp only [List.mem_cons, List.not_mem_nil, or_false] at hreason
    refine ⟨Nat.le_refl _, ?_⟩
    rcases hreason with rfl | rfl | rfl
    · exact .step (.inl rfl) (.inl rfl)
    · exact .step (.inr rfl) (.inl rfl)
    · exact .textEnd
  · dsimp only at hposition hcites
    subst hposition
    have hstands := (scan_eq_ok_iff.mp hscan).stands t ht
    exact ⟨hstands.le_text, pinpoints_of_cites hscan ht hcites⟩

/-- The error of a text that is not parsed holds this text and points into it, at what it names. -/
theorem pinpoints_of_parse {e : ParseError} (h : parse text = .error (.fault e)) :
    e.text = text ∧ e.position ≤ text.length ∧ Pinpoints text e.toSyntaxFault := by
  cases hscan : scan text with
  | error e' =>
    obtain rfl := Except.error.inj (h.symm.trans (parse_of_scan_error hscan))
    obtain ⟨f, hfault, rfl⟩ := scan_eq_fault_iff.mp hscan
    exact ⟨rfl, (scanFault_of_scanFrom hfault).pinpoints⟩
  | ok ts =>
    rw [parse_of_scan hscan] at h
    obtain ⟨f, hfault, heq⟩ := mapError_eq_error.mp h
    cases heq
    exact ⟨rfl, pinpoints_of_expression hscan hfault⟩

end

theorem pinpoints_of_parse_unmatched :
    parse "max( a,\t(b + 1]" = .error (.fault ⟨⟨8, .unmatchedOpen⟩, "max( a,\t(b + 1]"⟩) ∧
      Pinpoints "max( a,\t(b + 1]" ⟨8, .unmatchedOpen⟩ := by
  have hparse : parse "max( a,\t(b + 1]" = .error (.fault ⟨⟨8, .unmatchedOpen⟩, "max( a,\t(b + 1]"⟩) := by
    with_unfolding_all rfl
  obtain ⟨-, -, hpinpoints⟩ := pinpoints_of_parse hparse
  exact ⟨hparse, hpinpoints⟩

end Rulebook
