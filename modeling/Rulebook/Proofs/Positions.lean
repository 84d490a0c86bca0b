import Mathlib.Data.List.Forall2
import Rulebook.Proofs.Parsing

set_option autoImplicit false

/-!
Positions in parsing. The parser reads the kinds and the texts of tokens and hands their positions on: lists of
tokens that differ in nothing else are parsed to the same tree or refused for the same reason. A fault is at the
token that its reason is about, or at the end of the text.
-/

namespace Rulebook.Parse

/-- The reasons for which a token can be refused. -/
inductive Cites : Reason → Token → Prop
  | memberName (t : Token) : Cites .memberName t
  | arrayIndex (t : Token) : Cites .arrayIndex t
  | unmatchedOpen {t : Token} : t.kind = .openParen → Cites .unmatchedOpen t
  | unmatchedClose {t : Token} : t.kind = .closeParen → Cites .unmatchedClose t
  | unmatchedBracket {t : Token} : t.kind = .openBracket → Cites .unmatchedBracket t
  | expectedComma (t : Token) : Cites (.expectedComma t.text) t
  | unexpectedToken (t : Token) : Cites (.unexpectedToken t.text) t

/-- Tokens of one text and the tokens of another one that stand for them, with the ends of both texts. -/
structure Matching where
  Pairs : Token → Token → Prop
  kind_eq : ∀ {t u}, Pairs t u → t.kind = u.kind
  text_eq : ∀ {t u}, Pairs t u → t.text = u.text
  leftEnd : Nat
  rightEnd : Nat

namespace Matching

variable (M : Matching)

/-- The same reason, at tokens that stand for each other or at the ends. -/
inductive Faults : SyntaxFault → SyntaxFault → Prop
  | empty : Faults ⟨0, .empty⟩ ⟨0, .empty⟩
  | atEnd {r : Reason} : r ∈ [.memberName, .arrayIndex, .unexpectedEnd] →
      Faults ⟨M.leftEnd, r⟩ ⟨M.rightEnd, r⟩
  | atToken {r : Reason} {t u : Token} : M.Pairs t u → Cites r t →
      Faults ⟨t.position, r⟩ ⟨u.position, r⟩

variable {M} in
theorem Faults.left {f f' : SyntaxFault} (h : M.Faults f f') :
    f = ⟨0, .empty⟩ ∨
      (f.position = M.leftEnd ∧ f.reason ∈ [.memberName, .arrayIndex, .unexpectedEnd]) ∨
      ∃ t u, M.Pairs t u ∧ f.position = t.position ∧ Cites f.reason t := by
  cases h with
  | empty => exact .inl rfl
  | atEnd hr => exact .inr (.inl ⟨rfl, hr⟩)
  | atToken htu hcites => exact .inr (.inr ⟨_, _, htu, rfl, hcites⟩)

/-- The same was read and matching tokens are left, or the faults match. -/
inductive Agree {α : Type} {m n : Nat} :
    Except SyntaxFault (Result α m) → Except SyntaxFault (Result α n) → Prop
  | ok {a : α} {rest rest' : List Token} {h : rest.length < m} {h' : rest'.length < n} :
      List.Forall₂ M.Pairs rest rest' → Agree (.ok ⟨a, rest, h⟩) (.ok ⟨a, rest', h'⟩)
  | error {f f' : SyntaxFault} : M.Faults f f' → Agree (.error f) (.error f')

variable {M} {ts us : List Token}

section

variable {α β : Type} {m m' n n' : Nat}

theorem agree_fault {p q : Nat} {r : Reason} (h : M.Faults ⟨p, r⟩ ⟨q, r⟩) :
    M.Agree (fault p r : Except SyntaxFault (Result α m)) (fault q r : Except SyntaxFault (Result α m')) :=
  .error h

theorem Agree.bind {x : Except SyntaxFault (Result α m)} {y : Except SyntaxFault (Result α m')}
    {f : Result α m → Except SyntaxFault (Result β n)}
    {g : Result α m' → Except SyntaxFault (Result β n')} (hxy : M.Agree x y)
    (hfg : ∀ a rest rest' h h', List.Forall₂ M.Pairs rest rest' →
      M.Agree (f ⟨a, rest, h⟩) (g ⟨a, rest', h'⟩)) : M.Agree (x >>= f) (y >>= g) := by
  cases hxy with
  | ok hrest => exact hfg _ _ _ _ _ hrest
  | error h => exact .error h

theorem Agree.weaken {x : Except SyntaxFault (Result α m)} {y : Except SyntaxFault (Result α m')}
    (hxy : M.Agree x y) (h : m ≤ n) (h' : m' ≤ n') :
    M.Agree (x >>= fun r => .ok (r.weaken h)) (y >>= fun r => .ok (r.weaken h')) :=
  hxy.bind fun _ _ _ _ _ hrest => .ok hrest

end

/-- What stands for a token is the same token at another position. -/
theorem exists_token {k : TokenKind} {x : String} {p : Nat}
    (h : List.Forall₂ M.Pairs (⟨k, x, p⟩ :: ts) us) :
    ∃ q us', us = ⟨k, x, q⟩ :: us' ∧ M.Pairs ⟨k, x, p⟩ ⟨k, x, q⟩ ∧ List.Forall₂ M.Pairs ts us' := by
  cases h with
  | @cons _ u _ us' hu hrest =>
    obtain ⟨k', x', q⟩ := u
    obtain rfl : k = k' := M.kind_eq hu
    obtain rfl : x = x' := M.text_eq hu
    exact ⟨q, us', rfl, hu, hrest⟩

/-- Where no token of a kind stands first, none of that kind stands for it. -/
theorem ne_token {k : TokenKind} (h : List.Forall₂ M.Pairs ts us)
    (hne : ∀ x p rest, ts = ⟨k, x, p⟩ :: rest → False) (x : String) (p : Nat) (rest : List Token) :
    us ≠ ⟨k, x, p⟩ :: rest := by
  rintro rfl
  cases h with
  | @cons t _ ts' _ ht hrest =>
    obtain ⟨k', x', q⟩ := t
    obtain rfl : k' = k := M.kind_eq ht
    exact hne _ _ _ rfl

theorem agree_here (h : List.Forall₂ M.Pairs ts us) :
    M.Faults ⟨here M.leftEnd ts, .arrayIndex⟩ ⟨here M.rightEnd us, .arrayIndex⟩ := by
  cases h with
  | nil => exact .atEnd (by simp)
  | @cons t u _ _ hu _ => exact .atToken hu (.arrayIndex t)

variable (M) in
/-- Matching lists with fewer than `n` tokens are parsed alike. -/
structure Below (n : Nat) : Prop where
  binary : ∀ (level : Nat) {ts us : List Token}, ts.length < n → List.Forall₂ M.Pairs ts us →
    M.Agree (binary M.leftEnd level ts) (binary M.rightEnd level us)
  chain : ∀ (level : Nat) (left : Expr) {ts us : List Token}, ts.length < n →
    List.Forall₂ M.Pairs ts us →
    M.Agree (chain M.leftEnd level left ts) (chain M.rightEnd level left us)
  unary : ∀ {ts us : List Token}, ts.length < n → List.Forall₂ M.Pairs ts us →
    M.Agree (unary M.leftEnd ts) (unary M.rightEnd us)
  steps : ∀ (e : Expr) {ts us : List Token}, ts.length < n → List.Forall₂ M.Pairs ts us →
    M.Agree (steps M.leftEnd e ts) (steps M.rightEnd e us)
  arguments : ∀ {p q : Nat} {ts us : List Token}, M.Faults ⟨p, .unmatchedOpen⟩ ⟨q, .unmatchedOpen⟩ →
    ts.length < n → List.Forall₂ M.Pairs ts us →
    M.Agree (arguments M.leftEnd p ts) (arguments M.rightEnd q us)
  argumentList : ∀ {p q : Nat} {ts us : List Token},
    M.Faults ⟨p, .unmatchedOpen⟩ ⟨q, .unmatchedOpen⟩ → ts.length < n → List.Forall₂ M.Pairs ts us →
    M.Agree (argumentList M.leftEnd p ts) (argumentList M.rightEnd q us)

theorem Below.mono {m n : Nat} (h : M.Below n) (hmn : m ≤ n) : M.Below m where
  binary level _ _ hlt := h.binary level (Nat.lt_of_lt_of_le hlt hmn)
  chain level left _ _ hlt := h.chain level left (Nat.lt_of_lt_of_le hlt hmn)
  unary hlt := h.unary (Nat.lt_of_lt_of_le hlt hmn)
  steps e _ _ hlt := h.steps e (Nat.lt_of_lt_of_le hlt hmn)
  arguments hpq hlt := h.arguments hpq (Nat.lt_of_lt_of_le hlt hmn)
  argumentList hpq hlt := h.argumentList hpq (Nat.lt_of_lt_of_le hlt hmn)

section

variable {p q : Nat} (ih : M.Below ts.length) (h : List.Forall₂ M.Pairs ts us)

include ih h

theorem agree_primary : M.Agree (primary M.leftEnd ts) (primary M.rightEnd us) := by
  cases h with
  | nil =>
    rw [primary, primary]
    exact agree_fault (.atEnd (by simp))
  | @cons t u ts us htu hrest =>
    unfold primary
    rw [← M.kind_eq htu, ← M.text_eq htu]
    cases hv : literal? t.kind with
    | some v => exact .ok hrest
    | none =>
      dsimp only
      split
      · split
        · next x p ts =>
          obtain ⟨q, us, rfl, hopen, hrest⟩ := exists_token hrest
          exact (ih.arguments (.atToken hopen (.unmatchedOpen rfl)) (by grind) hrest).bind
            fun _ _ _ _ _ hrest' => .ok hrest'
        · next hparen =>
          have hparen' := ne_token hrest hparen
          split
          · next heq => exact absurd rfl (hparen' _ _ _)
          · exact .ok hrest
      · next hkind =>
        refine (ih.binary 6 (by simp) hrest).bind fun e rest rest' hlt hlt' hrest' => ?_
        dsimp only
        split
        · next x p rest =>
          obtain ⟨q, us, rfl, -, hrest'⟩ := exists_token hrest'
          exact .ok hrest'
        · next hclose =>
          have hclose' := ne_token hrest' hclose
          split
          · next heq => exact absurd rfl (hclose' _ _ _)
          · exact agree_fault (.atToken htu (.unmatchedOpen hkind))
      · next hkind => exact agree_fault (.atToken htu (.unmatchedClose hkind))
      · exact agree_fault (.atToken htu (.unexpectedToken t))

theorem agree_steps (e : Expr) : M.Agree (steps M.leftEnd e ts) (steps M.rightEnd e us) := by
  fun_cases steps M.leftEnd e ts with
  | case1 x p name hname x' p' ts =>
    obtain ⟨q, _, rfl, -, hrest⟩ := exists_token h
    obtain ⟨name', _, hnames, hrest', rfl⟩ := List.forall₂_cons_left_iff.mp hrest
    obtain ⟨q', us, rfl, hopen, hrest''⟩ := exists_token hrest'
    have hname' : name'.kind.namesMember = true := M.kind_eq hnames ▸ hname
    rw [steps, steps]
    simp only [hname, hname', if_true, ← M.text_eq hnames]
    refine (ih.arguments (.atToken hopen (.unmatchedOpen rfl)) (by grind) hrest'').bind
      fun args rest rest' hlt hlt' hrest => ?_
    exact (ih.steps (.method e name.text args) (by grind) hrest).weaken _ _
  | case2 x p name hname ts hparen =>
    obtain ⟨q, _, rfl, -, hrest⟩ := exists_token h
    obtain ⟨name', us, hnames, hrest', rfl⟩ := List.forall₂_cons_left_iff.mp hrest
    have hname' : name'.kind.namesMember = true := M.kind_eq hnames ▸ hname
    rw [steps.eq_2 _ _ _ _ _ _ hparen, steps.eq_2 _ _ _ _ _ _ (ne_token hrest' hparen), if_pos hname,
      if_pos hname', ← M.text_eq hnames]
    exact (ih.steps (e.extend (.key name.text)) (by grind) hrest').weaken _ _
  | case3 x p name ts hname =>
    obtain ⟨q, _, rfl, -, hrest⟩ := exists_token h
    obtain ⟨name', us, hnames, hrest', rfl⟩ := List.forall₂_cons_left_iff.mp hrest
    have hname' : ¬ name'.kind.namesMember = true := M.kind_eq hnames ▸ hname
    unfold steps
    simp only [if_neg hname, if_neg hname']
    exact agree_fault (.atToken hnames (.memberName name))
  | case4 x p =>
    obtain ⟨q, _, rfl, -, hrest⟩ := exists_token h
    cases hrest
    rw [steps, steps]
    exact agree_fault (.atEnd (by simp))
  | case5 x p n x' p' x'' p'' ts =>
    obtain ⟨q, _, rfl, -, hrest⟩ := exists_token h
    obtain ⟨q', _, rfl, -, hrest'⟩ := exists_token hrest
    obtain ⟨q'', us, rfl, -, hrest''⟩ := exists_token hrest'
    rw [steps, steps]
    exact (ih.steps (e.extend (.index n)) (by grind) hrest'').weaken _ _
  | case6 x p n x' p' ts hclose =>
    obtain ⟨q, _, rfl, hopen, hrest⟩ := exists_token h
    obtain ⟨q', us, rfl, -, hrest'⟩ := exists_token hrest
    rw [steps.eq_5 _ _ _ _ _ _ _ _ hclose, steps.eq_5 _ _ _ _ _ _ _ _ (ne_token hrest' hclose)]
    exact agree_fault (.atToken hopen (.unmatchedBracket rfl))
  | case7 x p ts hint =>
    obtain ⟨q, us, rfl, -, hrest⟩ := exists_token h
    rw [steps.eq_6 _ _ _ _ _ hint, steps.eq_6 _ _ _ _ _ fun n => ne_token hrest (hint n)]
    exact agree_fault (agree_here hrest)
  | case8 ts hmember hdot hindex hbracket =>
    -- no step stands here: neither a dot nor an opening bracket comes first, on either side
    have hnoDot : ∀ x p rest, ts = ⟨.dot, x, p⟩ :: rest → False := by
      intro x p rest heq
      cases rest with
      | nil => exact hdot _ _ heq
      | cons name rest => exact hmember _ _ _ _ heq
    have hdot' := ne_token h hnoDot
    have hbracket' := ne_token h hbracket
    rw [steps.eq_7 _ _ _ hmember hdot hindex hbracket, steps.eq_7 _ _ us (fun x p _ _ => hdot' x p _)
      (fun x p => hdot' x p []) (fun x p _ _ _ _ => hbracket' x p _) hbracket']
    exact .ok h

theorem agree_unary : M.Agree (unary M.leftEnd ts) (unary M.rightEnd us) := by
  fun_cases unary M.leftEnd ts with
  | case1 x p ts =>
    obtain ⟨q, us, rfl, -, hrest⟩ := exists_token h
    rw [unary, unary]
    exact (ih.unary (by simp) hrest).bind fun _ _ _ _ _ hrest' => .ok hrest'
  | case2 x p ts =>
    obtain ⟨q, us, rfl, -, hrest⟩ := exists_token h
    rw [unary, unary]
    exact (ih.unary (by simp) hrest).bind fun _ _ _ _ _ hrest' => .ok hrest'
  | case3 ts hnot hminus =>
    rw [unary.eq_3 _ ts hnot hminus, unary.eq_3 _ us (ne_token h hnot) (ne_token h hminus)]
    refine (agree_primary ih h).bind fun e rest rest' hlt hlt' hrest => ?_
    exact (ih.steps e hlt hrest).weaken _ _

theorem agree_binary (level : Nat) :
    M.Agree (binary M.leftEnd level ts) (binary M.rightEnd level us) := by
  induction level with
  | zero =>
    rw [binary, binary]
    exact agree_unary ih h
  | succ level ihLevel =>
    rw [binary, binary]
    refine ihLevel.bind fun left rest rest' hlt hlt' hrest => ?_
    exact (ih.chain level left hlt hrest).weaken _ _

theorem agree_chain (level : Nat) (left : Expr) :
    M.Agree (chain M.leftEnd level left ts) (chain M.rightEnd level left us) := by
  cases h with
  | nil =>
    rw [chain, chain]
    exact .ok .nil
  | @cons t u ts us htu hrest =>
    rw [chain, chain, ← M.kind_eq htu]
    cases hop : t.kind.binOp? with
    | none => exact .ok (.cons htu hrest)
    | some op =>
      dsimp only
      split
      · refine (ih.binary level (by simp) hrest).bind fun right rest rest' hlt hlt' hrest' => ?_
        exact (ih.chain level (.bin op left right) (by grind) hrest').weaken _ _
      · exact .ok (.cons htu hrest)

variable (hpq : M.Faults ⟨p, .unmatchedOpen⟩ ⟨q, .unmatchedOpen⟩)

include hpq

theorem agree_argumentList : M.Agree (argumentList M.leftEnd p ts) (argumentList M.rightEnd q us) := by
  cases h with
  | nil =>
    rw [argumentList, argumentList]
    exact agree_fault hpq
  | @cons t u ts us htu hrest =>
    rw [argumentList, argumentList]
    refine (agree_binary ih (.cons htu hrest) 6).bind fun e rest rest' hlt hlt' hrest' => ?_
    dsimp only
    split
    · next x p' rest =>
      obtain ⟨q', us', rfl, -, hmore⟩ := exists_token hrest'
      have hfewer : rest.length < (t :: ts).length := Nat.lt_of_succ_lt hlt
      exact (ih.argumentList hpq hfewer hmore).bind fun _ _ _ _ _ hrest => .ok hrest
    · next x p' rest =>
      obtain ⟨q', us', rfl, -, hmore⟩ := exists_token hrest'
      exact .ok hmore
    · cases hrest'
      exact agree_fault hpq
    · next t rest hcomma hclose =>
      have hcomma' := ne_token hrest' fun x p _ heq => hcomma x p (List.cons.inj heq).1
      have hclose' := ne_token hrest' fun x p _ heq => hclose x p (List.cons.inj heq).1
      obtain ⟨u, rest', htu, -, rfl⟩ := List.forall₂_cons_left_iff.mp hrest'
      split
      · next heq => exact absurd heq (hcomma' _ _ _)
      · next heq => exact absurd heq (hclose' _ _ _)
      · next heq => cases heq
      · next heq =>
        cases heq
        rw [← M.text_eq htu]
        exact agree_fault (.atToken htu (.expectedComma t))

theorem agree_arguments : M.Agree (arguments M.leftEnd p ts) (arguments M.rightEnd q us) := by
  fun_cases arguments M.leftEnd p ts with
  | case1 x p' ts =>
    obtain ⟨q', us, rfl, -, hrest⟩ := exists_token h
    rw [arguments, arguments]
    exact .ok hrest
  | case2 ts hclose =>
    rw [arguments.eq_2 _ _ _ hclose, arguments.eq_2 _ _ _ (ne_token h hclose)]
    exact agree_argumentList ih h hpq

end

theorem below (n : Nat) : M.Below n := by
  -- each part of the parser calls the others on fewer tokens, or on as many one level further down
  induction n with
  | zero => constructor <;> intros <;> exact absurd ‹_ < 0› (Nat.not_lt_zero _)
  | succ n ihn =>
    have ih : ∀ {ts : List Token}, ts.length < n + 1 → M.Below ts.length := fun h =>
      ihn.mono (Nat.le_of_lt_succ h)
    exact {
      binary := fun level _ _ hlt h => agree_binary (ih hlt) h level
      chain := fun level left _ _ hlt h => agree_chain (ih hlt) h level left
      unary := fun hlt h => agree_unary (ih hlt) h
      steps := fun e _ _ hlt h => agree_steps (ih hlt) h e
      arguments := fun hpq hlt h => agree_arguments (ih hlt) h hpq
      argumentList := fun hpq hlt h => agree_argumentList (ih hlt) h hpq }

variable (M) in
/-- The same tree was parsed, or the faults match. -/
inductive AgreeWhole : Except SyntaxFault Expr → Except SyntaxFault Expr → Prop
  | ok (e : Expr) : AgreeWhole (.ok e) (.ok e)
  | error {f f' : SyntaxFault} : M.Faults f f' → AgreeWhole (.error f) (.error f')

theorem agree_expression (h : List.Forall₂ M.Pairs ts us) :
    M.AgreeWhole (expression M.leftEnd ts) (expression M.rightEnd us) := by
  cases h with
  | nil => exact .error .empty
  | @cons t u ts us htu hrest =>
    have hread := (M.below _).binary 6 (Nat.lt_succ_self _) (.cons htu hrest)
    rw [expression, expression]
    revert hread
    generalize binary M.leftEnd 6 (t :: ts) = x
    generalize binary M.rightEnd 6 (u :: us) = y
    intro hread
    cases hread with
    | error h => exact .error h
    | @ok e rest rest' hlt hlt' hrest =>
      dsimp only [bind, Except.bind]
      split
      · cases hrest
        exact .ok e
      · next x p rest =>
        obtain ⟨q, us, rfl, hclose, -⟩ := exists_token hrest
        exact .error (.atToken hclose (.unmatchedClose rfl))
      · next s rest hclose =>
        have hclose' := ne_token hrest fun x p _ heq => hclose x p (List.cons.inj heq).1
        obtain ⟨s', rest', hs, -, rfl⟩ := List.forall₂_cons_left_iff.mp hrest
        split
        · next heq => cases heq
        · next heq => exact absurd heq (hclose' _ _ _)
        · next heq =>
          cases heq
          rw [← M.text_eq hs]
          exact .error (.atToken hs (.unexpectedToken s))

end Matching

end Rulebook.Parse

namespace Rulebook

/-- A token without its place. -/
def Token.bare (t : Token) : TokenKind × String := (t.kind, t.text)

namespace Parse

/-- Equal kinds and texts. -/
def Matching.ofBare (p q : Nat) : Matching where
  Pairs t u := t.bare = u.bare
  kind_eq h := congrArg Prod.fst h
  text_eq h := congrArg Prod.snd h
  leftEnd := p
  rightEnd := q

/-- Tokens of one list, each against itself. -/
def Matching.ofList (ts : List Token) (endPosition : Nat) : Matching where
  Pairs t u := t ∈ ts ∧ t = u
  kind_eq h := congrArg Token.kind h.2
  text_eq h := congrArg Token.text h.2
  leftEnd := endPosition
  rightEnd := endPosition

variable {ts us : List Token}

/-- The places of tokens have no effect on the tree, nor on the reason of a fault. -/
theorem expression_of_bare (h : ts.map Token.bare = us.map Token.bare) (p q : Nat) :
    (expression p ts).mapError SyntaxFault.reason = (expression q us).mapError SyntaxFault.reason := by
  have hpairs : List.Forall₂ (Matching.ofBare p q).Pairs ts us := by
    rw [← List.forall₂_eq_eq_eq, List.forall₂_map_left_iff, List.forall₂_map_right_iff] at h
    exact h
  have hwhole := Matching.agree_expression hpairs
  revert hwhole
  change (Matching.ofBare p q).AgreeWhole (expression p ts) (expression q us) → _
  generalize expression p ts = x
  generalize expression q us = y
  intro hwhole
  cases hwhole with
  | ok e => rfl
  | error h => cases h <;> rfl

/-- A fault is at the end of the text, or at the token that its reason is about. -/
theorem fault_of_expression {endPosition : Nat} {f : SyntaxFault}
    (h : expression endPosition ts = .error f) :
    f = ⟨0, .empty⟩ ∨
      (f.position = endPosition ∧ f.reason ∈ [.memberName, .arrayIndex, .unexpectedEnd]) ∨
      ∃ t ∈ ts, f.position = t.position ∧ Cites f.reason t := by
  have hpairs : List.Forall₂ (Matching.ofList ts endPosition).Pairs ts ts :=
    List.forall₂_same.mpr fun t ht => ⟨ht, rfl⟩
  have hwhole : (Matching.ofList ts endPosition).AgreeWhole (expression endPosition ts)
    (expression endPosition ts) := Matching.agree_expression hpairs
  rw [h] at hwhole
  cases hwhole with
  | error hfaults =>
    rcases hfaults.left with hempty | hend | ⟨t, u, ⟨ht, -⟩, hposition, hcites⟩
    · exact .inl hempty
    · exact .inr (.inl hend)
    · exact .inr (.inr ⟨t, ht, hposition, hcites⟩)

end Parse

end Rulebook
