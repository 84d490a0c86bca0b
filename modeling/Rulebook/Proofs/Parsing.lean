import Rulebook.Expr.Parse
import Rulebook.Proofs.Grammar
import Rulebook.Proofs.Lexemes

set_option autoImplicit false

/-!
The parser and the grammar. What the parser reads is a phrase, and it gives the compact tree of that
phrase. Conversely it reads every phrase up to its end, given that the tokens behind it do not belong to it.
A text with an integer of too many digits gives neither a tree nor a fault.
-/

namespace Rulebook

open Grammar

/-! ### The tables of the parser -/

theorem operator_iff {k : TokenKind} {op : BinOp} {n : Nat} :
    Operator n k op ↔ k.binOp? = some op ∧ op.level = n := by
  constructor
  · intro h
    cases h <;> exact ⟨rfl, rfl⟩
  · rintro ⟨hop, rfl⟩
    cases k <;> cases hop <;> constructor

theorem denotes_iff {k : TokenKind} {v : Value} : Denotes k v ↔ Parse.literal? k = some v := by
  constructor
  · intro h
    cases h <;> rfl
  · intro h
    cases k <;> cases h <;> constructor

theorem mem_memberKinds_iff {k : TokenKind} : k ∈ memberKinds ↔ k.namesMember = true := by
  cases k <;> simp [memberKinds, TokenKind.namesMember]

namespace Parse

/-! ### Every tree that is read comes from a phrase -/

section

variable {α β : Type} {m n : Nat} {C : α → List Token → Prop} {D : β → List Token → Prop}

/-- What is read meets a condition together with the tokens that are left. -/
def Ensures (C : α → List Token → Prop) (x : Except SyntaxFault (Result α n)) : Prop :=
  ∀ r, x = .ok r → C r.value r.rest

theorem ensures_fault (position : Nat) (reason : Reason) :
    Ensures C (fault position reason : Except SyntaxFault (Result α n)) := by
  intro r h
  cases h

theorem ensures_ok {r : Result α n} (h : C r.value r.rest) : Ensures C (.ok r) := by
  intro r' heq
  cases heq
  exact h

theorem ensures_bind {x : Except SyntaxFault (Result α m)}
    {f : Result α m → Except SyntaxFault (Result β n)} (hx : Ensures C x)
    (hf : ∀ r, C r.value r.rest → Ensures D (f r)) : Ensures D (x >>= f) := by
  cases x with
  | error e => intro r h; cases h
  | ok r => exact hf r (hx r rfl)

theorem ensures_weaken {x : Except SyntaxFault (Result α m)} (hx : Ensures C x) (h : m ≤ n) :
    Ensures C (x >>= fun r => .ok (r.weaken h)) :=
  ensures_bind hx fun _ hr => ensures_ok hr

theorem Ensures.mono {x : Except SyntaxFault (Result α n)} {D : α → List Token → Prop}
    (hx : Ensures C x) (h : ∀ a rest, C a rest → D a rest) : Ensures D x :=
  fun r hr => h _ _ (hx r hr)

end

/-- The tokens up to `rest` are a phrase with this tree. -/
def Derives (s : Symbol) (ts : List Token) (t : s.Tree) (rest : List Token) : Prop :=
  ∃ d : Derivation s, ts = d.tokens ++ rest ∧ d.tree = t

/-- The tokens up to `rest` are arguments with the parenthesis behind them. -/
def DerivesArgs (ts : List Token) (es : List Expr) (rest : List Token) : Prop :=
  ∃ closing : Terminal .closeParen, Derives .args ts es (closing.val :: rest)

/-- There is at least one argument. -/
def DerivesSomeArgs (ts : List Token) (es : List Expr) (rest : List Token) : Prop :=
  ∃ (first : Derivation (.level 6)) (more : Derivation .moreArgs) (closing : Terminal .closeParen),
    ts = first.tokens ++ (more.tokens ++ closing.val :: rest) ∧ first.tree :: more.tree = es

/-- The tokens up to `rest` are operators with operands, which join on the right of `left`. -/
def Chains (level : Nat) (left : Expr) (ts : List Token) (e : Expr) (rest : List Token) : Prop :=
  ∃ f, Derives (.chain level) ts f rest ∧ f left = e

/-- The tokens up to `rest` are steps that lead on from `e`. -/
def StepsOn (e : Expr) (ts : List Token) (e' : Expr) (rest : List Token) : Prop :=
  ∃ f, Derives .steps ts f rest ∧ f e = e'

section

variable {endPosition level position position' position'' : Nat} {e left : Expr} {t : Token}
  {ts rest : List Token} {text text' text'' : String}

theorem chains_nothing (level : Nat) (left : Expr) (ts : List Token) : Chains level left ts left ts :=
  ⟨_, ⟨.noChain, rfl, rfl⟩, rfl⟩

theorem level_sound (hfirst : Ensures (Derives (.level level) ts) (binary endPosition level ts))
    (hchain : ∀ left rest, rest.length < ts.length →
      Ensures (Chains level left rest) (chain endPosition level left rest)) :
    Ensures (Derives (.level (level + 1)) ts) (binary endPosition (level + 1) ts) := by
  rw [binary]
  refine ensures_bind hfirst ?_
  rintro ⟨left, rest, hrest⟩ ⟨first, hts, rfl⟩
  refine ensures_weaken ((hchain _ rest hrest).mono ?_) _
  rintro e rest' ⟨_, ⟨more, rfl, rfl⟩, rfl⟩
  exact ⟨.level first more, by simp [hts], rfl⟩

theorem chain_sound {op : BinOp} (hop : t.kind.binOp? = some op) (hlevel : op.level = level + 1)
    (hright : Ensures (Derives (.level level) rest) (binary endPosition level rest))
    (hchain : ∀ right rest', rest'.length < rest.length →
      Ensures (Chains level (.bin op left right) rest') (chain endPosition level (.bin op left right) rest')) :
    Ensures (Chains level left (t :: rest)) (chain endPosition level left (t :: rest)) := by
  rw [chain]
  simp only [hop, if_pos hlevel]
  refine ensures_bind hright ?_
  rintro ⟨_, rest', hrest⟩ ⟨right, hts, rfl⟩
  refine ensures_weaken ((hchain _ rest' hrest).mono ?_) _
  rintro e rest'' ⟨_, ⟨more, rfl, rfl⟩, rfl⟩
  have isOperator := operator_iff.mpr ⟨hop, hlevel⟩
  exact ⟨_, ⟨.chain t op isOperator right more, by simp [hts], rfl⟩, rfl⟩

theorem not_sound (h : Ensures (Derives (.level 0) rest) (unary endPosition rest)) :
    Ensures (Derives (.level 0) (⟨.not, text, position⟩ :: rest))
      (unary endPosition (⟨.not, text, position⟩ :: rest)) := by
  rw [unary]
  refine ensures_bind h ?_
  rintro ⟨_, rest', hrest⟩ ⟨phrase, hts, rfl⟩
  exact ensures_ok ⟨.signed ⟨.not, text, position⟩ .not .not phrase, by simp [hts], Expr.fold_not _⟩

theorem minus_sound (h : Ensures (Derives (.level 0) rest) (unary endPosition rest)) :
    Ensures (Derives (.level 0) (⟨.minus, text, position⟩ :: rest))
      (unary endPosition (⟨.minus, text, position⟩ :: rest)) := by
  rw [unary]
  refine ensures_bind h ?_
  rintro ⟨_, rest', hrest⟩ ⟨phrase, hts, rfl⟩
  exact ensures_ok ⟨.signed ⟨.minus, text, position⟩ .neg .minus phrase, by simp [hts], Expr.fold_neg _⟩

/-- Without a sign an operand comes first, and its steps behind it. -/
theorem stepped_sound (hnot : ∀ text position rest, ts = ⟨.not, text, position⟩ :: rest → False)
    (hminus : ∀ text position rest, ts = ⟨.minus, text, position⟩ :: rest → False)
    (hoperand : Ensures (Derives .operand ts) (primary endPosition ts))
    (hsteps : ∀ e rest, rest.length < ts.length → Ensures (StepsOn e rest) (steps endPosition e rest)) :
    Ensures (Derives (.level 0) ts) (unary endPosition ts) := by
  rw [unary.eq_3 _ _ hnot hminus]
  refine ensures_bind hoperand ?_
  rintro ⟨_, rest, hrest⟩ ⟨first, hts, rfl⟩
  refine ensures_weaken ((hsteps _ rest hrest).mono ?_) _
  rintro e rest' ⟨_, ⟨more, rfl, rfl⟩, rfl⟩
  exact ⟨.stepped first more, by simp [hts], rfl⟩

theorem method_sound {name : Token} (hname : name.kind.namesMember = true)
    (hargs : Ensures (DerivesArgs rest) (arguments endPosition position' rest))
    (hsteps : ∀ args rest', rest'.length < rest.length → Ensures (StepsOn (.method e name.text args) rest')
      (steps endPosition (.method e name.text args) rest')) :
    Ensures (StepsOn e (⟨.dot, text, position⟩ :: name :: ⟨.openParen, text', position'⟩ :: rest))
      (steps endPosition e (⟨.dot, text, position⟩ :: name :: ⟨.openParen, text', position'⟩ :: rest)) := by
  rw [steps]
  simp only [hname, if_true]
  refine ensures_bind hargs ?_
  rintro ⟨_, rest', hrest⟩ ⟨closing, args, hts, rfl⟩
  refine ensures_weaken ((hsteps _ rest' hrest).mono ?_) _
  rintro e' rest'' ⟨_, ⟨more, rfl, rfl⟩, rfl⟩
  exact ⟨_, ⟨.method ⟨⟨.dot, text, position⟩, rfl⟩ name (mem_memberKinds_iff.mpr hname)
    ⟨⟨.openParen, text', position'⟩, rfl⟩ args closing more, by simp [hts], rfl⟩, rfl⟩

theorem key_sound {name : Token} (hname : name.kind.namesMember = true)
    (hparen : ∀ text position rest', rest = ⟨.openParen, text, position⟩ :: rest' → False)
    (hsteps : Ensures (StepsOn (e.extend (.key name.text)) rest)
      (steps endPosition (e.extend (.key name.text)) rest)) :
    Ensures (StepsOn e (⟨.dot, text, position⟩ :: name :: rest))
      (steps endPosition e (⟨.dot, text, position⟩ :: name :: rest)) := by
  rw [steps.eq_2 _ _ _ _ _ _ hparen, if_pos hname]
  refine ensures_weaken (hsteps.mono ?_) _
  rintro e' rest' ⟨_, ⟨more, rfl, rfl⟩, rfl⟩
  exact ⟨_, ⟨.key ⟨⟨.dot, text, position⟩, rfl⟩ name (mem_memberKinds_iff.mpr hname) more, rfl, rfl⟩, rfl⟩

theorem index_sound {n : Nat}
    (hsteps : Ensures (StepsOn (e.extend (.index n)) rest) (steps endPosition (e.extend (.index n)) rest)) :
    Ensures (StepsOn e (⟨.openBracket, text, position⟩ :: ⟨.int n, text', position'⟩ ::
        ⟨.closeBracket, text'', position''⟩ :: rest))
      (steps endPosition e (⟨.openBracket, text, position⟩ :: ⟨.int n, text', position'⟩ ::
        ⟨.closeBracket, text'', position''⟩ :: rest)) := by
  rw [steps]
  refine ensures_weaken (hsteps.mono ?_) _
  rintro e' rest' ⟨_, ⟨more, rfl, rfl⟩, rfl⟩
  exact ⟨_, ⟨.index n ⟨⟨.openBracket, text, position⟩, rfl⟩ ⟨⟨.int n, text', position'⟩, rfl⟩
    ⟨⟨.closeBracket, text'', position''⟩, rfl⟩ more, rfl, rfl⟩, rfl⟩

theorem someArgs_sound (hclose : ∀ text position rest, ts = ⟨.closeParen, text, position⟩ :: rest → False)
    (h : Ensures (DerivesSomeArgs ts) (argumentList endPosition position ts)) :
    Ensures (DerivesArgs ts) (arguments endPosition position ts) := by
  rw [arguments.eq_2 _ _ _ hclose]
  refine h.mono ?_
  rintro es rest ⟨first, more, closing, rfl, hes⟩
  exact ⟨closing, .someArgs first more, by simp, hes⟩

theorem argumentList_sound
    (hfirst : Ensures (Derives (.level 6) (t :: ts)) (binary endPosition 6 (t :: ts)))
    (hmore : ∀ rest : List Token, rest.length < (t :: ts).length → ∀ text position' rest',
      rest = ⟨.comma, text, position'⟩ :: rest' →
        Ensures (DerivesSomeArgs rest') (argumentList endPosition position rest')) :
    Ensures (DerivesSomeArgs (t :: ts)) (argumentList endPosition position (t :: ts)) := by
  rw [argumentList]
  refine ensures_bind hfirst ?_
  rintro ⟨_, rest, hrest⟩ ⟨first, hts, rfl⟩
  dsimp only
  split
  · next text position' rest' =>
    refine ensures_bind (hmore _ hrest _ _ rest' rfl) ?_
    rintro ⟨_, rest'', hrest''⟩ ⟨next, more, closing, hts', rfl⟩
    exact ensures_ok ⟨first, .moreArgs ⟨⟨.comma, text, position'⟩, rfl⟩ next more, closing,
      by simp [hts, hts'], rfl⟩
  · next text position' rest' =>
    exact ensures_ok ⟨first, .noMoreArgs, ⟨⟨.closeParen, text, position'⟩, rfl⟩, by simp [hts], rfl⟩
  · exact ensures_fault _ _
  · exact ensures_fault _ _

theorem call_sound (hname : t.kind = .name)
    (hargs : Ensures (DerivesArgs rest) (arguments endPosition position rest)) :
    Ensures (Derives .operand (t :: ⟨.openParen, text, position⟩ :: rest))
      (primary endPosition (t :: ⟨.openParen, text, position⟩ :: rest)) := by
  unfold primary
  simp only [hname]
  refine ensures_bind hargs ?_
  rintro ⟨_, rest', hrest⟩ ⟨closing, args, hts, rfl⟩
  exact ensures_ok ⟨.call ⟨t, hname⟩ ⟨⟨.openParen, text, position⟩, rfl⟩ args closing, by simp [hts], rfl⟩

theorem group_sound (hkind : t.kind = .openParen)
    (hinner : Ensures (Derives (.level 6) ts) (binary endPosition 6 ts)) :
    Ensures (Derives .operand (t :: ts)) (primary endPosition (t :: ts)) := by
  unfold primary
  simp only [hkind]
  refine ensures_bind hinner ?_
  rintro ⟨_, rest, hrest⟩ ⟨inner, hts, rfl⟩
  dsimp only
  split
  · next text position rest' =>
    exact ensures_ok ⟨.group ⟨t, hkind⟩ inner ⟨⟨.closeParen, text, position⟩, rfl⟩, by simp [hts], rfl⟩
  · exact ensures_fault _ _

end

/-- Each part of the parser reads the phrases it is meant for. -/
theorem parts_sound (endPosition : Nat) :
    (∀ level ts, Ensures (Derives (.level level) ts) (binary endPosition level ts)) ∧
    (∀ level left ts, Ensures (Chains level left ts) (chain endPosition level left ts)) ∧
    (∀ ts, Ensures (Derives (.level 0) ts) (unary endPosition ts)) ∧
    (∀ e ts, Ensures (StepsOn e ts) (steps endPosition e ts)) ∧
    (∀ position ts, Ensures (DerivesArgs ts) (arguments endPosition position ts)) ∧
    (∀ position ts, Ensures (DerivesSomeArgs ts) (argumentList endPosition position ts)) ∧
    (∀ ts, Ensures (Derives .operand ts) (primary endPosition ts)) := by
  refine binary.mutual_induct _ _ _ _ _ _ _ ?unsigned ?level ?chainEnd ?chain ?otherLevel
    ?noOperator ?not ?minus ?stepped ?method ?key ?noMember ?dotEnd ?index ?openIndex ?noIndex ?noSteps
    ?noArgs ?someArgs ?argsEnd ?argumentList ?operandEnd ?literal ?call ?path ?group ?closeParen ?otherToken
  case unsigned =>
    intro ts ih
    rw [binary]
    exact ih
  case level => exact fun ts level ih ihChain => level_sound ih ihChain
  case chainEnd =>
    intro level left
    rw [chain]
    exact ensures_ok (chains_nothing _ _ _)
  case chain =>
    exact fun level left t tail op hop hlevel ihRight ihChain => chain_sound hop hlevel ihRight ihChain
  case otherLevel =>
    intro level left t tail op hop hlevel
    rw [chain]
    simp only [hop, if_neg hlevel]
    exact ensures_ok (chains_nothing _ _ _)
  case noOperator =>
    intro level left t tail hop
    rw [chain]
    simp only [hop]
    exact ensures_ok (chains_nothing _ _ _)
  case not => exact fun text position rest ih => not_sound ih
  case minus => exact fun text position rest ih => minus_sound ih
  case stepped => exact fun ts hnot hminus ihPrimary ihSteps => stepped_sound hnot hminus ihPrimary ihSteps
  case method =>
    exact fun e text position name hname text' position' rest ihArgs ihSteps =>
      method_sound hname ihArgs ihSteps
  case key => exact fun e text position name hname rest hparen ih => key_sound hname hparen ih
  case noMember =>
    intro e text position name rest hname
    unfold steps
    simp only [if_neg hname]
    exact ensures_fault _ _
  case dotEnd =>
    intro e text position
    rw [steps]
    exact ensures_fault _ _
  case index =>
    exact fun e text position n text' position' text'' position'' rest ih => index_sound ih
  case openIndex =>
    intro e text position n text' position' rest hclose
    rw [steps.eq_5 _ _ _ _ _ _ _ _ hclose]
    exact ensures_fault _ _
  case noIndex =>
    intro e text position rest hint
    rw [steps.eq_6 _ _ _ _ _ hint]
    exact ensures_fault _ _
  case noSteps =>
    intro e ts hmember hdot hindex hbracket
    rw [steps.eq_7 _ _ _ hmember hdot hindex hbracket]
    exact ensures_ok ⟨_, ⟨.noSteps, rfl, rfl⟩, rfl⟩
  case noArgs =>
    intro position text position' rest
    rw [arguments]
    exact ensures_ok ⟨⟨⟨.closeParen, text, position'⟩, rfl⟩, .noArgs, rfl, rfl⟩
  case someArgs => exact fun position ts hclose ih => someArgs_sound hclose ih
  case argsEnd =>
    intro position
    rw [argumentList]
    exact ensures_fault _ _
  case argumentList => exact fun position t tail ihFirst ihRest => argumentList_sound ihFirst ihRest
  case operandEnd =>
    rw [primary]
    exact ensures_fault _ _
  case literal =>
    intro t tail v hv
    unfold primary
    simp only [hv]
    exact ensures_ok ⟨.literal t v (denotes_iff.mpr hv), rfl, rfl⟩
  case call => exact fun t hlit hname text position rest ihArgs => call_sound hname ihArgs
  case path =>
    intro t hlit hname rest hparen
    unfold primary
    simp only [hname]
    exact ensures_ok ⟨.path ⟨t, hname⟩, rfl, rfl⟩
  case group => exact fun t tail hlit hkind ih => group_sound hkind ih
  case closeParen =>
    intro t tail hlit hkind
    unfold primary
    simp only [hkind]
    exact ensures_fault _ _
  case otherToken =>
    intro t tail hlit hname hopen hclose
    unfold primary
    simp only [hlit]
    exact ensures_fault _ _

/-! ### Every phrase is read -/

section

variable {α β : Type} {m n : Nat} {a : α} {b : β} {rest rest' : List Token}

/-- This is read, and these tokens are left. -/
def Reads (x : Except SyntaxFault (Result α n)) (a : α) (rest : List Token) : Prop :=
  ∃ h, x = .ok ⟨a, rest, h⟩

theorem reads_ok (h : rest.length < n) : Reads (.ok ⟨a, rest, h⟩) a rest := ⟨h, rfl⟩

theorem reads_bind {x : Except SyntaxFault (Result α m)}
    {f : Result α m → Except SyntaxFault (Result β n)} (hx : Reads x a rest)
    (hf : ∀ h, Reads (f ⟨a, rest, h⟩) b rest') : Reads (x >>= f) b rest' := by
  obtain ⟨h, rfl⟩ := hx
  exact hf h

theorem Reads.exists_cons {ts : List Token} {x : Except SyntaxFault (Result α ts.length)}
    (h : Reads x a rest) : ∃ t us, ts = t :: us := by
  obtain ⟨hfewer, -⟩ := h
  exact List.exists_cons_of_length_pos (Nat.zero_lt_of_lt hfewer)

theorem reads_weaken {x : Except SyntaxFault (Result α m)} (hx : Reads x a rest) (h : m ≤ n) :
    Reads (x >>= fun r => .ok (r.weaken h)) a rest :=
  reads_bind hx fun _ => reads_ok _

end

section

variable {endPosition : Nat}

/-- A phrase is read to its end wherever it can end. -/
def Complete (endPosition : Nat) : {s : Symbol} → Derivation s → Prop
  | .level n, d => ∀ rest, Ends (.level n) rest →
    Reads (binary endPosition n (d.tokens ++ rest)) d.tree rest
  | .chain n, d => ∀ left rest, Ends (.chain n) rest →
    Reads (chain endPosition n left (d.tokens ++ rest)) (d.tree left) rest
  | .operand, d => ∀ rest, Ends .operand rest →
    Reads (primary endPosition (d.tokens ++ rest)) d.tree rest
  | .steps, d => ∀ e rest, Ends .steps rest →
    Reads (steps endPosition e (d.tokens ++ rest)) (d.tree e) rest
  | .args, d => ∀ (position : Nat) (closing : Terminal .closeParen) (rest : List Token),
    Reads (arguments endPosition position (d.tokens ++ closing.val :: rest)) d.tree rest
  | .moreArgs, d => ∀ (position : Nat) (closing : Terminal .closeParen) (rest ts : List Token)
      (first : Expr), Reads (binary endPosition 6 ts) first (d.tokens ++ closing.val :: rest) →
    Reads (argumentList endPosition position ts) (first :: d.tree) rest

namespace Complete

theorem level {n : Nat} {first : Derivation (.level n)} {more : Derivation (.chain n)}
    (hfirst : Complete endPosition first) (hmore : Complete endPosition more) :
    Complete endPosition (Derivation.level first more) := by
  intro rest hends
  rw [binary, Derivation.tokens, List.append_assoc]
  refine reads_bind (hfirst _ (Derivation.ends_level_chain more hends)) fun h => ?_
  exact reads_weaken (hmore _ rest hends) _

theorem signed {sign : Token} {op : UnOp} (isSign : Sign sign.kind op) {phrase : Derivation (.level 0)}
    (hphrase : Complete endPosition phrase) :
    Complete endPosition (Derivation.signed sign op isSign phrase) := by
  intro rest hends
  have hread := hphrase rest hends
  obtain ⟨kind, text, position⟩ := sign
  rw [binary, Derivation.tokens, List.cons_append]
  rw [binary] at hread
  cases isSign with
  | not =>
    rw [unary, Derivation.tree, Expr.fold_not]
    exact reads_bind hread fun _ => reads_ok _
  | minus =>
    rw [unary, Derivation.tree, Expr.fold_neg]
    exact reads_bind hread fun _ => reads_ok _

/-- A phrase that starts like an operand starts with no sign. -/
theorem stepped {first : Derivation .operand} {more : Derivation .steps}
    (hfirst : Complete endPosition first) (hmore : Complete endPosition more) :
    Complete endPosition (Derivation.stepped first more) := by
  intro rest hends
  have hsteps := Derivation.ends_steps_of_level hends
  have hread := hfirst _ (Derivation.ends_operand_steps more hsteps)
  have hne : ∀ (sign : Token) (op : UnOp) (ts : List Token), Sign sign.kind op →
      first.tokens ++ (more.tokens ++ rest) ≠ sign :: ts := by
    intro sign op ts hsign
    rw [← List.append_assoc]
    exact Derivation.stepped_ne_signed first more hsign rest ts
  rw [binary, Derivation.tokens, List.append_assoc, unary.eq_3]
  · exact reads_bind hread fun _ => reads_weaken (hmore _ rest hsteps) _
  · intro text position ts
    exact hne _ .not ts .not
  · intro text position ts
    exact hne _ .neg ts .minus

theorem noChain {n : Nat} : Complete endPosition (Derivation.noChain : Derivation (.chain n)) := by
  intro left rest hends
  rw [Derivation.tokens, List.nil_append]
  cases rest with
  | nil =>
    rw [chain]
    exact reads_ok _
  | cons t ts =>
    rw [ends_cons] at hends
    rw [chain]
    cases hop : t.kind.binOp? with
    | none => exact reads_ok _
    | some op =>
      have hlevel := hends.2 op.level op (operator_iff.mpr ⟨hop, rfl⟩)
      simp only [if_neg (Nat.ne_of_gt hlevel)]
      exact reads_ok _

theorem chain {n : Nat} {sign : Token} {op : BinOp} (isOperator : Operator (n + 1) sign.kind op)
    {right : Derivation (.level n)} {more : Derivation (.chain n)}
    (hright : Complete endPosition right) (hmore : Complete endPosition more) :
    Complete endPosition (Derivation.chain sign op isOperator right more) := by
  intro left rest hends
  obtain ⟨hop, hlevel⟩ := operator_iff.mp isOperator
  rw [Derivation.tokens, List.cons_append, List.append_assoc, Parse.chain]
  simp only [hop, if_pos hlevel]
  refine reads_bind (hright _ (Derivation.ends_level_chain more hends)) fun h => ?_
  exact reads_weaken (hmore (.bin op left right.tree) rest hends) _

theorem literal {sign : Token} {v : Value} (denotes : Denotes sign.kind v) :
    Complete endPosition (Derivation.literal sign v denotes) := by
  intro rest hends
  rw [Derivation.tokens, List.cons_append, List.nil_append]
  unfold primary
  simp only [denotes_iff.mp denotes]
  exact reads_ok _

theorem path (root : Terminal .name) : Complete endPosition (Derivation.path root) := by
  intro rest hends
  rw [Derivation.tokens, List.cons_append, List.nil_append]
  unfold primary
  simp only [root.property, literal?]
  split
  · next text position ts =>
    rw [ends_cons] at hends
    exact absurd rfl hends
  · exact reads_ok _

theorem call {name : Terminal .name} {opening : Terminal .openParen} {args : Derivation .args}
    {closing : Terminal .closeParen} (hargs : Complete endPosition args) :
    Complete endPosition (Derivation.call name opening args closing) := by
  intro rest hends
  obtain ⟨text, position, rfl⟩ := opening.exists_eq
  rw [Derivation.tokens, List.cons_append, List.cons_append, List.append_assoc, List.singleton_append]
  unfold primary
  simp only [name.property, literal?]
  exact reads_bind (hargs position closing rest) fun _ => reads_ok _

theorem group {opening : Terminal .openParen} {inner : Derivation (.level 6)}
    {closing : Terminal .closeParen} (hinner : Complete endPosition inner) :
    Complete endPosition (Derivation.group opening inner closing) := by
  intro rest hends
  have hread := hinner (closing.val :: rest) (by simp [bounds_closeParen])
  obtain ⟨text, position, rfl⟩ := closing.exists_eq
  rw [Derivation.tokens, List.cons_append, List.append_assoc, List.singleton_append]
  unfold primary
  simp only [opening.property, literal?]
  exact reads_bind hread fun _ => reads_ok _

theorem noSteps : Complete endPosition Derivation.noSteps := by
  intro e rest hends
  rw [Derivation.tokens, List.nil_append, steps.eq_7]
  · exact reads_ok _
  · intro text position name ts
    exact hends.ne_cons (by simp [Bounds, stepKinds])
  · intro text position
    exact hends.ne_cons (by simp [Bounds, stepKinds])
  · intro text position n text' position' ts
    exact hends.ne_cons (by simp [Bounds, stepKinds])
  · intro text position ts
    exact hends.ne_cons (by simp [Bounds, stepKinds])

theorem key {dot : Terminal .dot} {name : Token} (isMember : name.kind ∈ memberKinds)
    {more : Derivation .steps} (hmore : Complete endPosition more) :
    Complete endPosition (Derivation.key dot name isMember more) := by
  intro e rest hends
  obtain ⟨text, position, rfl⟩ := dot.exists_eq
  have hmember := mem_memberKinds_iff.mp isMember
  rw [Derivation.tokens, List.cons_append, List.cons_append, steps.eq_2, if_pos hmember]
  · exact reads_weaken (hmore (e.extend (.key name.text)) rest hends) _
  · intro text' position' ts
    exact (Derivation.ends_operand_steps more hends).ne_cons (by simp [Bounds])

theorem method {dot : Terminal .dot} {name : Token} (isMember : name.kind ∈ memberKinds)
    {opening : Terminal .openParen} {args : Derivation .args} {closing : Terminal .closeParen}
    {more : Derivation .steps} (hargs : Complete endPosition args)
    (hmore : Complete endPosition more) :
    Complete endPosition (Derivation.method dot name isMember opening args closing more) := by
  intro e rest hends
  obtain ⟨text, position, rfl⟩ := dot.exists_eq
  obtain ⟨text', position', rfl⟩ := opening.exists_eq
  have hmember := mem_memberKinds_iff.mp isMember
  rw [Derivation.tokens, List.cons_append, List.cons_append, List.cons_append, List.append_assoc,
    List.cons_append, steps]
  simp only [hmember, if_true]
  refine reads_bind (hargs position' closing (more.tokens ++ rest)) fun h => ?_
  exact reads_weaken (hmore (.method e name.text args.tree) rest hends) _

theorem index {n : Nat} {opening : Terminal .openBracket} {number : Terminal (.int n)}
    {closing : Terminal .closeBracket} {more : Derivation .steps} (hmore : Complete endPosition more) :
    Complete endPosition (Derivation.index n opening number closing more) := by
  intro e rest hends
  obtain ⟨text, position, rfl⟩ := opening.exists_eq
  obtain ⟨text', position', rfl⟩ := number.exists_eq
  obtain ⟨text'', position'', rfl⟩ := closing.exists_eq
  rw [Derivation.tokens, List.cons_append, List.cons_append, List.cons_append, steps]
  exact reads_weaken (hmore (e.extend (.index n)) rest hends) _

theorem noArgs : Complete endPosition Derivation.noArgs := by
  intro position closing rest
  obtain ⟨text, position', rfl⟩ := closing.exists_eq
  rw [Derivation.tokens, List.nil_append, arguments]
  exact reads_ok _

theorem someArgs {first : Derivation (.level 6)} {more : Derivation .moreArgs}
    (hfirst : Complete endPosition first) (hmore : Complete endPosition more) :
    Complete endPosition (Derivation.someArgs first more) := by
  intro position closing rest
  have hends : Ends .moreArgs (closing.val :: rest) := by simp [Bounds]
  have hread := hfirst _ (Derivation.ends_level_moreArgs more hends)
  rw [Derivation.tokens, List.append_assoc, arguments.eq_2]
  · exact hmore position closing rest _ _ hread
  · intro text position' ts heq
    obtain ⟨t, us, htokens, hbegins⟩ := first.level_begins
    rw [htokens, List.cons_append, List.cons.injEq] at heq
    rw [heq.1] at hbegins
    exact not_begins_closeParen hbegins

theorem noMoreArgs : Complete endPosition Derivation.noMoreArgs := by
  intro position closing rest ts first hread
  obtain ⟨text, position', rfl⟩ := closing.exists_eq
  obtain ⟨t, us, rfl⟩ := hread.exists_cons
  rw [argumentList]
  exact reads_bind hread fun _ => reads_ok _

theorem moreArgs {comma : Terminal .comma} {next : Derivation (.level 6)}
    {more : Derivation .moreArgs} (hnext : Complete endPosition next)
    (hmore : Complete endPosition more) :
    Complete endPosition (Derivation.moreArgs comma next more) := by
  intro position closing rest ts first hread
  have hends : Ends .moreArgs (closing.val :: rest) := by simp [Bounds]
  have hreadNext := hnext _ (Derivation.ends_level_moreArgs more hends)
  have hreadMore := hmore position closing rest _ _ hreadNext
  obtain ⟨text, position', rfl⟩ := comma.exists_eq
  obtain ⟨t, us, rfl⟩ := hread.exists_cons
  rw [argumentList]
  rw [Derivation.tokens, List.cons_append, List.append_assoc] at hread
  refine reads_bind hread fun _ => ?_
  exact reads_bind hreadMore fun _ => reads_ok _

end Complete

theorem complete (endPosition : Nat) {s : Symbol} (d : Derivation s) : Complete endPosition d := by
  induction d with
  | level first more ihFirst ihMore => exact .level ihFirst ihMore
  | signed sign op isSign phrase ih => exact .signed isSign ih
  | stepped first more ihFirst ihMore => exact .stepped ihFirst ihMore
  | noChain => exact .noChain
  | chain sign op isOperator right more ihRight ihMore => exact .chain isOperator ihRight ihMore
  | literal sign v denotes => exact .literal denotes
  | path root => exact .path root
  | call name opening args closing ih => exact .call ih
  | group opening inner closing ih => exact .group ih
  | noSteps => exact .noSteps
  | key dot name isMember more ih => exact .key isMember ih
  | method dot name isMember opening args closing more ihArgs ihMore =>
    exact .method isMember ihArgs ihMore
  | index n opening number closing more ih => exact .index ih
  | noArgs => exact .noArgs
  | someArgs first more ihFirst ihMore => exact .someArgs ihFirst ihMore
  | noMoreArgs => exact .noMoreArgs
  | moreArgs comma next more ihNext ihMore => exact .moreArgs ihNext ihMore

end

/-- The tokens are an expression exactly when they are a phrase of level 6. -/
theorem expression_eq_ok_iff (endPosition : Nat) {ts : List Token} {e : Expr} :
    expression endPosition ts = .ok e ↔
      ∃ d : Derivation (.level 6), d.tokens = ts ∧ d.tree = e := by
  constructor
  · intro h
    cases ts with
    | nil => cases h
    | cons t ts =>
      rw [expression] at h
      obtain ⟨⟨e', rest, hrest⟩, hread, h⟩ := bind_eq_ok.mp h
      obtain ⟨d, htokens, htree⟩ := (parts_sound endPosition).1 6 (t :: ts) _ hread
      dsimp only at h htokens htree
      split at h
      · cases h
        exact ⟨d, by rw [htokens, List.append_nil], htree⟩
      · cases h
      · cases h
  · rintro ⟨d, rfl, rfl⟩
    have hread := complete endPosition d [] (ends_nil _)
    rw [List.append_nil] at hread
    obtain ⟨t, us, htokens⟩ := hread.exists_cons
    rw [htokens] at hread ⊢
    obtain ⟨hfewer, hread⟩ := hread
    rw [expression, hread]
    rfl

end Parse

section

variable {text : String} {ts : List Token} {e : Expr}

theorem parse_eq_ok : parse text = .ok e ↔
    ∃ us, Token.scan text = .ok us ∧ Parse.expression text.length us = .ok e := by
  rw [parse]
  simp only [bind_eq_ok, mapError_eq_ok]

theorem parse_of_scan (hscan : Token.scan text = .ok ts) :
    parse text = (Parse.expression text.length ts).mapError fun fault => .fault ⟨fault, text⟩ := by
  rw [parse, hscan]
  rfl

theorem parse_eq_ok_iff (hscan : Token.scan text = .ok ts) :
    parse text = .ok e ↔ ∃ d : Derivation (.level 6), d.tokens = ts ∧ d.tree = e := by
  rw [← Parse.expression_eq_ok_iff text.length, parse_of_scan hscan]
  cases Parse.expression text.length ts with
  | error fault => constructor <;> intro h <;> cases h
  | ok e' => constructor <;> intro h <;> cases h <;> rfl

theorem exists_parse_eq_error (hscan : Token.scan text = .ok ts)
    (h : ∀ d : Derivation (.level 6), d.tokens ≠ ts) :
    ∃ fault, parse text = .error (.fault ⟨fault, text⟩) := by
  rw [parse_of_scan hscan]
  cases hread : Parse.expression text.length ts with
  | error fault => exact ⟨fault, rfl⟩
  | ok e =>
    obtain ⟨d, htokens, -⟩ := (Parse.expression_eq_ok_iff _).mp hread
    exact absurd htokens (h d)

theorem parse_of_scan_error {unread : Unread ParseError} (hscan : Token.scan text = .error unread) :
    parse text = .error unread := by
  rw [parse, hscan]
  rfl

/-- A text is not parsed for its digits exactly if its tokens are not made for them. -/
theorem parse_eq_digits_iff : parse text = .error .digits ↔ Token.Overruns text.toList := by
  rw [← Token.scan_eq_digits_iff]
  cases hscan : Token.scan text with
  | error unread => rw [parse_of_scan_error hscan, Except.error.injEq, Except.error.injEq]
  | ok ts =>
    rw [parse_of_scan hscan]
    cases Parse.expression text.length ts <;> constructor <;> intro h <;> cases h

end

/-- The texts that are parsed are those whose tokens are a phrase. There is only one derivation of this
phrase, and its compact tree is the result. Any other text gives a fault in this text, unless an integer of
too many digits is met before the fault: then the text is not read at all. -/
theorem parse_accepts_grammar (text : String) :
    match Token.scan text with
    | .ok ts =>
      (∀ e, parse text = .ok e ↔
        ∃ d : Derivation (.level 6), d.tokens = ts ∧ Expr.compact d.plain = e) ∧
      (∀ d d' : Derivation (.level 6), d.tokens = ts → d'.tokens = ts → d = d') ∧
      ((∀ d : Derivation (.level 6), d.tokens ≠ ts) →
        ∃ fault, parse text = .error (.fault ⟨fault, text⟩))
    | .error (.fault fault) => parse text = .error (.fault fault) ∧ fault.text = text
    | .error .digits => parse text = .error .digits ∧ Token.Overruns text.toList ∧
        ∃ before digits after, text.toList = before ++ digits ++ after ∧
          (∀ d ∈ digits, d.isDigit = true) ∧ mostDigits < digits.length := by
  cases hscan : Token.scan text with
  | ok ts =>
    refine ⟨fun e => ?_, ?_, exists_parse_eq_error hscan⟩
    · simp only [Derivation.compact_plain]
      exact parse_eq_ok_iff hscan
    · intro d d' h h'
      exact Derivation.tokens_injective (h.trans h'.symm)
  | error unread =>
    cases unread with
    | fault fault =>
      obtain ⟨_, -, rfl⟩ := Token.scan_eq_fault_iff.mp hscan
      exact ⟨parse_of_scan_error hscan, rfl⟩
    | digits =>
      have hoverruns := Token.scan_eq_digits_iff.mp hscan
      exact ⟨parse_of_scan_error hscan, hoverruns, hoverruns.exists_digits⟩

/-- Not every text is parsed or has a fault. -/
theorem not_always_parsed_or_fault :
    ¬ ∀ text, (∃ e, parse text = .ok e) ∨ ∃ fault, parse text = .error (.fault ⟨fault, text⟩) := by
  intro h
  have hdigits := parse_eq_digits_iff.mpr Token.overruns_longInteger
  rcases h Token.longInteger with ⟨e, he⟩ | ⟨fault, hfault⟩
  · cases hdigits.symm.trans he
  · cases hdigits.symm.trans hfault

end Rulebook
