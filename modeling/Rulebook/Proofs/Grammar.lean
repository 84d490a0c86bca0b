import Rulebook.Expr
import Rulebook.Token

set_option autoImplicit false

/-!
The grammar of expressions: its phrases, their derivations from tokens, and the tree of a derivation. The
tokens of a phrase determine its derivation. The tree has a compact form, in which adjacent steps are joined
and a minus over a number is folded into it.

The phrases of level 6 are whole expressions, which join phrases of level 5 by `or`; below are `and`,
equality, order, sums and products, and the phrases of level 0 are the operands of products. Operators of
one level join to the left.
-/

namespace Rulebook

/-! ### Compact trees -/

namespace Expr

/-- Steps on a path or on a subscript belong to it. -/
def join : Expr → List Segment → Expr
  | .path root segments, more => .path root (segments ++ more)
  | .sub receiver segments, more => .sub receiver (segments ++ more)
  | e, more => .sub e more

/-- A minus over a number literal belongs to the literal. -/
def fold : UnOp → Expr → Expr
  | .neg, .lit (.number n) => .lit (.number n.neg)
  | op, e => .un op e

mutual

/-- The tree in which adjacent steps are joined and minuses are folded into numbers. -/
def compact : Expr → Expr
  | .lit v => .lit v
  | .path root segments => .path root segments
  | .sub receiver segments => join (compact receiver) segments
  | .bin op left right => .bin op (compact left) (compact right)
  | .un op operand => fold op (compact operand)
  | .call name args => .call name (compactAll args)
  | .method receiver name args => .method (compact receiver) name (compactAll args)
  | .foreign typeName => .foreign typeName

def compactAll : List Expr → List Expr
  | [] => []
  | e :: es => compact e :: compactAll es

end

theorem join_singleton (e : Expr) (s : Segment) : join e [s] = e.extend s := by
  cases e <;> rfl

theorem fold_neg (e : Expr) : fold .neg e = e.negate := by
  cases e with
  | lit v => cases v <;> rfl
  | _ => rfl

theorem fold_not (e : Expr) : fold .not e = .un .not e := rfl

end Expr

namespace Grammar

/-! ### Tokens -/

/-- The operators that join phrases to one of a level. -/
inductive Operator : Nat → TokenKind → BinOp → Prop
  | or : Operator 6 .or .or
  | and : Operator 5 .and .and
  | eq : Operator 4 .eq .eq
  | ne : Operator 4 .ne .ne
  | ge : Operator 3 .ge .ge
  | le : Operator 3 .le .le
  | gt : Operator 3 .gt .gt
  | lt : Operator 3 .lt .lt
  | add : Operator 2 .plus .add
  | sub : Operator 2 .minus .sub
  | mul : Operator 1 .star .mul
  | div : Operator 1 .slash .div
  | rem : Operator 1 .percent .rem

/-- The operators that stand before an operand of a product. -/
inductive Sign : TokenKind → UnOp → Prop
  | not : Sign .not .not
  | minus : Sign .minus .neg

/-- The tokens that are literals, and their values. -/
inductive Denotes : TokenKind → Value → Prop
  | int (n : Nat) : Denotes (.int n) (.number (.int n))
  | float (x : Double) : Denotes (.float x) (.number (.float x))
  | text (s : String) : Denotes (.text s) (.text s)
  | true : Denotes .true (.bool true)
  | false : Denotes .false (.bool false)
  | null : Denotes .null .null

/-- The tokens that can name a member or a method. -/
def memberKinds : List TokenKind := [.name, .and, .or, .not, .true, .false, .null]

/-- Tokens of one kind. -/
abbrev Terminal (k : TokenKind) := { t : Token // t.kind = k }

@[simp] theorem Terminal.kind_val {k : TokenKind} (t : Terminal k) : t.val.kind = k := t.property

theorem Terminal.exists_eq {k : TokenKind} (t : Terminal k) :
    ∃ text position, t = ⟨⟨k, text, position⟩, rfl⟩ := by
  obtain ⟨⟨_, text, position⟩, h⟩ := t
  subst h
  exact ⟨text, position, rfl⟩

/-! ### Derivations -/

/-- The kinds of phrases and of their parts. -/
inductive Symbol where
  /-- What the operators of this level join; at level 0 signs and operands without other operators. -/
  | level (n : Nat)
  /-- Operators of the level above `n`, each with a right operand of level `n`. -/
  | chain (n : Nat)
  /-- A literal, a name, a call or an expression in parentheses. -/
  | operand
  /-- Keys, methods and indices behind an operand. -/
  | steps
  /-- What stands between the parentheses of a call. -/
  | args
  /-- Arguments that each come after a comma. -/
  | moreArgs

/-- The ways to derive a phrase from tokens: the productions of the grammar, with the tokens they use. -/
inductive Derivation : Symbol → Type
  | level {n : Nat} (first : Derivation (.level n)) (rest : Derivation (.chain n)) :
      Derivation (.level (n + 1))
  | signed (sign : Token) (op : UnOp) (isSign : Sign sign.kind op)
      (phrase : Derivation (.level 0)) : Derivation (.level 0)
  | stepped (first : Derivation .operand) (rest : Derivation .steps) : Derivation (.level 0)
  | noChain {n : Nat} : Derivation (.chain n)
  | chain {n : Nat} (sign : Token) (op : BinOp) (isOperator : Operator (n + 1) sign.kind op)
      (right : Derivation (.level n)) (rest : Derivation (.chain n)) : Derivation (.chain n)
  | literal (sign : Token) (v : Value) (denotes : Denotes sign.kind v) : Derivation .operand
  | path (root : Terminal .name) : Derivation .operand
  | call (name : Terminal .name) (opening : Terminal .openParen) (args : Derivation .args)
      (closing : Terminal .closeParen) : Derivation .operand
  | group (opening : Terminal .openParen) (inner : Derivation (.level 6))
      (closing : Terminal .closeParen) : Derivation .operand
  | noSteps : Derivation .steps
  | key (dot : Terminal .dot) (name : Token) (isMember : name.kind ∈ memberKinds)
      (rest : Derivation .steps) : Derivation .steps
  | method (dot : Terminal .dot) (name : Token) (isMember : name.kind ∈ memberKinds)
      (opening : Terminal .openParen) (args : Derivation .args) (closing : Terminal .closeParen)
      (rest : Derivation .steps) : Derivation .steps
  | index (n : Nat) (opening : Terminal .openBracket) (number : Terminal (.int n))
      (closing : Terminal .closeBracket) (rest : Derivation .steps) : Derivation .steps
  | noArgs : Derivation .args
  | someArgs (first : Derivation (.level 6)) (rest : Derivation .moreArgs) : Derivation .args
  | noMoreArgs : Derivation .moreArgs
  | moreArgs (comma : Terminal .comma) (next : Derivation (.level 6))
      (rest : Derivation .moreArgs) : Derivation .moreArgs

namespace Derivation

/-- The tokens that a derivation derives. -/
@[simp] def tokens : {s : Symbol} → Derivation s → List Token
  | _, level first rest => first.tokens ++ rest.tokens
  | _, signed sign _ _ phrase => sign :: phrase.tokens
  | _, stepped first rest => first.tokens ++ rest.tokens
  | _, chain sign _ _ right rest => sign :: (right.tokens ++ rest.tokens)
  | _, literal sign _ _ => [sign]
  | _, path root => [root]
  | _, call name opening args closing => name :: opening :: (args.tokens ++ [closing.val])
  | _, group opening inner closing => opening :: (inner.tokens ++ [closing.val])
  | _, key dot name _ rest => dot :: name :: rest.tokens
  | _, method dot name _ opening args closing rest =>
    dot :: name :: opening :: (args.tokens ++ closing.val :: rest.tokens)
  | _, index _ opening number closing rest => opening :: number :: closing :: rest.tokens
  | _, someArgs first rest => first.tokens ++ rest.tokens
  | _, moreArgs comma next rest => comma :: (next.tokens ++ rest.tokens)
  | _, noChain | _, noSteps | _, noArgs | _, noMoreArgs => []

end Derivation

/-- What a phrase means as a tree; what continues an operand takes the tree before it. -/
abbrev Symbol.Tree : Symbol → Type
  | .level _ | .operand => Expr
  | .chain _ | .steps => Expr → Expr
  | .args | .moreArgs => List Expr

namespace Derivation

/-- The tree as it is derived: operators and steps join to the left, and each step and each minus is a
node of its own. -/
def plain : {s : Symbol} → Derivation s → s.Tree
  | _, level first rest => rest.plain first.plain
  | _, signed _ op _ phrase => .un op phrase.plain
  | _, stepped first rest => rest.plain first.plain
  | _, noChain | _, noSteps => fun e => e
  | _, chain _ op _ right rest => fun e => rest.plain (.bin op e right.plain)
  | _, literal _ v _ => .lit v
  | _, path root => .path root.val.text []
  | _, call name _ args _ => .call name.val.text args.plain
  | _, group _ inner _ => inner.plain
  | _, key _ name _ rest => fun e => rest.plain (.sub e [.key name.text])
  | _, method _ name _ _ args _ rest => fun e => rest.plain (.method e name.text args.plain)
  | _, index n _ _ _ rest => fun e => rest.plain (.sub e [.index n])
  | _, noArgs | _, noMoreArgs => ([] : List Expr)
  | _, someArgs first rest => (first.plain :: rest.plain : List Expr)
  | _, moreArgs _ next rest => (next.plain :: rest.plain : List Expr)

/-- The tree that is compact from the leaves on. -/
def tree : {s : Symbol} → Derivation s → s.Tree
  | _, level first rest => rest.tree first.tree
  | _, signed _ op _ phrase => Expr.fold op phrase.tree
  | _, stepped first rest => rest.tree first.tree
  | _, noChain | _, noSteps => fun e => e
  | _, chain _ op _ right rest => fun e => rest.tree (.bin op e right.tree)
  | _, literal _ v _ => .lit v
  | _, path root => .path root.val.text []
  | _, call name _ args _ => .call name.val.text args.tree
  | _, group _ inner _ => inner.tree
  | _, key _ name _ rest => fun e => rest.tree (e.extend (.key name.text))
  | _, method _ name _ _ args _ rest => fun e => rest.tree (.method e name.text args.tree)
  | _, index n _ _ _ rest => fun e => rest.tree (e.extend (.index n))
  | _, noArgs | _, noMoreArgs => ([] : List Expr)
  | _, someArgs first rest => (first.tree :: rest.tree : List Expr)
  | _, moreArgs _ next rest => (next.tree :: rest.tree : List Expr)

end Derivation

/-- One tree is the compact form of another; what continues a tree keeps this. -/
def Symbol.Compacts : {s : Symbol} → s.Tree → s.Tree → Prop
  | .level _, e, e' | .operand, e, e' => Expr.compact e = e'
  | .chain _, f, f' | .steps, f, f' => ∀ e : Expr, Expr.compact (f e) = f' e.compact
  | .args, es, es' | .moreArgs, es, es' => Expr.compactAll es = es'

theorem Derivation.compacts {s : Symbol} (d : Derivation s) : Symbol.Compacts d.plain d.tree := by
  induction d with
  | level first more ihFirst ihMore | stepped first more ihFirst ihMore =>
    exact (ihMore first.plain).trans (congrArg more.tree ihFirst)
  | signed sign op isSign phrase ih =>
    rw [Symbol.Compacts, plain, Expr.compact, show Expr.compact phrase.plain = phrase.tree from ih]
    rfl
  | noChain | noSteps => exact fun _ => rfl
  | chain sign op isOperator right more ihRight ihMore =>
    intro e
    refine (ihMore (.bin op e right.plain)).trans (congrArg more.tree ?_)
    rw [Expr.compact, show Expr.compact right.plain = right.tree from ihRight]
  | literal sign v denotes => rfl
  | path root => rfl
  | call name opening args closing ih => exact congrArg (Expr.call name.val.text) ih
  | group opening inner closing ih => exact ih
  | key dot name isMember more ih =>
    intro e
    refine (ih (.sub e [.key name.text])).trans (congrArg more.tree ?_)
    rw [Expr.compact, Expr.join_singleton]
  | method dot name isMember opening args closing more ihArgs ihMore =>
    intro e
    refine (ihMore (.method e name.text args.plain)).trans (congrArg more.tree ?_)
    rw [Expr.compact, show Expr.compactAll args.plain = args.tree from ihArgs]
  | index n opening number closing more ih =>
    intro e
    refine (ih (.sub e [.index n])).trans (congrArg more.tree ?_)
    rw [Expr.compact, Expr.join_singleton]
  | noArgs | noMoreArgs => rfl
  | someArgs first more ihFirst ihMore | moreArgs comma first more ihFirst ihMore =>
    rw [Symbol.Compacts, plain, Expr.compactAll, show Expr.compact first.plain = first.tree from ihFirst,
      show Expr.compactAll more.plain = more.tree from ihMore]
    rfl

theorem Derivation.compact_plain {n : Nat} (d : Derivation (.level n)) :
    Expr.compact d.plain = d.tree := d.compacts

/-! ### Where phrases begin and end -/

/-- The tokens at which an operand begins. -/
inductive BeginsOperand : TokenKind → Prop
  | name : BeginsOperand .name
  | group : BeginsOperand .openParen
  | literal {k : TokenKind} {v : Value} : Denotes k v → BeginsOperand k

/-- The tokens at which a phrase begins. -/
inductive Begins : TokenKind → Prop
  | sign {k : TokenKind} {op : UnOp} : Sign k op → Begins k
  | operand {k : TokenKind} : BeginsOperand k → Begins k

/-- The tokens that continue an operand. -/
def stepKinds : List TokenKind := [.dot, .openBracket, .openParen]

/-- The tokens that can stand behind a phrase and do not belong to it. -/
def Bounds : Symbol → TokenKind → Prop
  | .level n, k => k ∉ stepKinds ∧ ∀ m op, Operator m k op → n < m
  | .chain n, k => k ∉ stepKinds ∧ ∀ m op, Operator m k op → n + 1 < m
  | .operand, k => k ≠ .openParen
  | .steps, k => k ∉ stepKinds
  | .args, k | .moreArgs, k => k = .closeParen

/-- A phrase ends in front of these tokens. -/
def Ends (s : Symbol) (ts : List Token) : Prop := ∀ t ∈ ts.head?, Bounds s t.kind

@[simp] theorem ends_nil (s : Symbol) : Ends s [] := by simp [Ends]

@[simp] theorem ends_cons (s : Symbol) (t : Token) (ts : List Token) :
    Ends s (t :: ts) ↔ Bounds s t.kind := by simp [Ends]

theorem Ends.ne_cons {s : Symbol} {ts us : List Token} {t : Token} (h : Ends s ts)
    (ht : ¬ Bounds s t.kind) : ts ≠ t :: us := by
  rintro rfl
  exact ht ((ends_cons s t us).mp h)

theorem Operator.unique {m m' : Nat} {k : TokenKind} {op op' : BinOp} (h : Operator m k op)
    (h' : Operator m' k op') : m = m' ∧ op = op' := by
  cases h <;> cases h' <;> exact ⟨rfl, rfl⟩

theorem Sign.unique {k : TokenKind} {op op' : UnOp} (h : Sign k op) (h' : Sign k op') : op = op' := by
  cases h <;> cases h' <;> rfl

theorem Denotes.unique {k : TokenKind} {v w : Value} (h : Denotes k v) (h' : Denotes k w) : v = w := by
  cases h <;> cases h' <;> rfl

theorem Denotes.ne_name {k : TokenKind} {v : Value} (h : Denotes k v) : k ≠ .name := by
  cases h <;> simp

theorem Denotes.ne_openParen {k : TokenKind} {v : Value} (h : Denotes k v) : k ≠ .openParen := by
  cases h <;> simp

theorem Operator.not_mem_stepKinds {m : Nat} {k : TokenKind} {op : BinOp} (h : Operator m k op) :
    k ∉ stepKinds := by
  cases h <;> simp [stepKinds]

theorem bounds_closeParen (s : Symbol) : Bounds s .closeParen := by
  have hoperator : ∀ m op, ¬ Operator m .closeParen op := fun m op h => by cases h
  cases s <;> simp [Bounds, stepKinds, hoperator]

theorem bounds_level_comma (n : Nat) : Bounds (.level n) .comma := by
  have hoperator : ∀ m op, ¬ Operator m .comma op := fun m op h => by cases h
  simp [Bounds, stepKinds, hoperator]

theorem not_begins_closeParen : ¬ Begins .closeParen := by
  intro h
  cases h with
  | sign h => cases h
  | operand h =>
    cases h with
    | literal h => cases h

namespace Derivation

theorem operand_begins (d : Derivation .operand) :
    ∃ t ts, d.tokens = t :: ts ∧ BeginsOperand t.kind := by
  cases d with
  | literal sign v denotes => exact ⟨_, _, rfl, .literal denotes⟩
  | path root => exact ⟨_, _, rfl, by rw [root.property]; exact .name⟩
  | call name opening args closing => exact ⟨_, _, rfl, by rw [name.property]; exact .name⟩
  | group opening inner closing => exact ⟨_, _, rfl, by rw [opening.property]; exact .group⟩

theorem level_begins : {n : Nat} → (d : Derivation (.level n)) →
    ∃ t ts, d.tokens = t :: ts ∧ Begins t.kind
  | _, level first rest => by
    obtain ⟨t, ts, htokens, hbegins⟩ := first.level_begins
    exact ⟨t, ts ++ rest.tokens, by rw [tokens, htokens, List.cons_append], hbegins⟩
  | _, signed sign op isSign phrase => ⟨sign, phrase.tokens, rfl, .sign isSign⟩
  | _, stepped first rest => by
    obtain ⟨t, ts, htokens, hbegins⟩ := first.operand_begins
    exact ⟨t, ts ++ rest.tokens, by rw [tokens, htokens, List.cons_append], .operand hbegins⟩

section

variable {rest : List Token}

/-- The operands of a level end where its operators stand, and where the phrase ends. -/
theorem ends_level_chain {n : Nat} (d : Derivation (.chain n)) (h : Ends (.level (n + 1)) rest) :
    Ends (.level n) (d.tokens ++ rest) := by
  cases d with
  | noChain =>
    intro t ht
    obtain ⟨hstep, hoperator⟩ := h t ht
    exact ⟨hstep, fun m op hop => Nat.lt_of_succ_lt (hoperator m op hop)⟩
  | chain sign op isOperator right more =>
    rw [tokens, List.cons_append, ends_cons]
    refine ⟨isOperator.not_mem_stepKinds, fun m op' hop => ?_⟩
    obtain ⟨rfl, -⟩ := isOperator.unique hop
    exact Nat.lt_succ_self n

theorem ends_steps_of_level {n : Nat} (h : Ends (.level n) rest) : Ends .steps rest :=
  fun t ht => (h t ht).1

theorem ends_operand_steps (d : Derivation .steps) (h : Ends .steps rest) :
    Ends .operand (d.tokens ++ rest) := by
  cases d with
  | noSteps =>
    intro t ht hparen
    have hstep := h t ht
    rw [Bounds, hparen] at hstep
    exact hstep (by simp [stepKinds])
  | key dot name isMember more => simp [Bounds]
  | method dot name isMember opening args closing more => simp [Bounds]
  | index n opening number closing more => simp [Bounds]

theorem ends_level_moreArgs (d : Derivation .moreArgs) (h : Ends .moreArgs rest) :
    Ends (.level 6) (d.tokens ++ rest) := by
  cases d with
  | noMoreArgs =>
    intro t ht
    have hclose : t.kind = .closeParen := h t ht
    rw [hclose]
    exact bounds_closeParen _
  | moreArgs comma next more =>
    rw [tokens, List.cons_append, ends_cons, comma.property]
    exact bounds_level_comma 6

end

/-! ### One derivation for the same tokens -/

/-- No other derivation has the same tokens, and nothing of what stands behind them is one of them. -/
def Determined {s : Symbol} (d : Derivation s) : Prop :=
  ∀ (d' : Derivation s) (rest rest' : List Token), d.tokens ++ rest = d'.tokens ++ rest' →
    Ends s rest → Ends s rest' → d = d' ∧ rest = rest'

theorem head_kind_eq {ts us : List Token} (h : ts = us) :
    ts.head?.map Token.kind = us.head?.map Token.kind := by rw [h]

/-- The sign of a phrase begins no operand. -/
theorem stepped_ne_signed (first : Derivation .operand) (more : Derivation .steps) {sign : Token}
    {op : UnOp} (h : Sign sign.kind op) (rest ts : List Token) :
    (stepped first more).tokens ++ rest ≠ sign :: ts := by
  obtain ⟨t, us, htokens, hbegins⟩ := first.operand_begins
  intro heq
  simp only [tokens, htokens, List.cons_append, List.cons.injEq] at heq
  rw [heq.1] at hbegins
  generalize sign.kind = k at h hbegins
  cases h <;> cases hbegins with
  | literal hd => cases hd

namespace Determined

theorem level {n : Nat} {first : Derivation (.level n)} {more : Derivation (.chain n)}
    (hfirst : Determined first) (hmore : Determined more) :
    Determined (Derivation.level first more) := by
  intro d' rest rest' h hends hends'
  cases d' with
  | level first' more' =>
    simp only [tokens, List.append_assoc] at h
    obtain ⟨rfl, htail⟩ := hfirst first' _ _ h (ends_level_chain more hends)
      (ends_level_chain more' hends')
    obtain ⟨rfl, hrest⟩ := hmore more' _ _ htail hends hends'
    exact ⟨rfl, hrest⟩

theorem signed {sign : Token} {op : UnOp} (isSign : Sign sign.kind op) {phrase : Derivation (.level 0)}
    (hphrase : Determined phrase) : Determined (Derivation.signed sign op isSign phrase) := by
  intro d' rest rest' h hends hends'
  cases d' with
  | signed sign' op' isSign' phrase' =>
    simp only [tokens, List.cons_append, List.cons.injEq] at h
    obtain ⟨rfl, htail⟩ := h
    obtain rfl := isSign.unique isSign'
    obtain ⟨rfl, hrest⟩ := hphrase phrase' _ _ htail hends hends'
    exact ⟨rfl, hrest⟩
  | stepped first' more' => exact absurd h.symm (stepped_ne_signed first' more' isSign _ _)

theorem stepped {first : Derivation .operand} {more : Derivation .steps} (hfirst : Determined first)
    (hmore : Determined more) : Determined (Derivation.stepped first more) := by
  intro d' rest rest' h hends hends'
  cases d' with
  | signed sign' op' isSign' phrase' =>
    exact absurd h (stepped_ne_signed first more isSign' _ _)
  | stepped first' more' =>
    have hsteps := ends_steps_of_level hends
    have hsteps' := ends_steps_of_level hends'
    simp only [tokens, List.append_assoc] at h
    obtain ⟨rfl, htail⟩ := hfirst first' _ _ h (ends_operand_steps more hsteps)
      (ends_operand_steps more' hsteps')
    obtain ⟨rfl, hrest⟩ := hmore more' _ _ htail hsteps hsteps'
    exact ⟨rfl, hrest⟩

theorem noChain {n : Nat} : Determined (Derivation.noChain (n := n)) := by
  intro d' rest rest' h hends hends'
  cases d' with
  | noChain => exact ⟨rfl, h⟩
  | chain sign' op' isOperator' right' more' =>
    simp only [tokens, List.nil_append, List.cons_append] at h
    rw [h, ends_cons] at hends
    exact absurd (hends.2 _ _ isOperator') (Nat.lt_irrefl _)

theorem chain {n : Nat} {sign : Token} {op : BinOp} (isOperator : Operator (n + 1) sign.kind op)
    {right : Derivation (.level n)} {more : Derivation (.chain n)} (hright : Determined right)
    (hmore : Determined more) : Determined (Derivation.chain sign op isOperator right more) := by
  intro d' rest rest' h hends hends'
  cases d' with
  | noChain =>
    simp only [tokens, List.nil_append, List.cons_append] at h
    rw [← h, ends_cons] at hends'
    exact absurd (hends'.2 _ _ isOperator) (Nat.lt_irrefl _)
  | chain sign' op' isOperator' right' more' =>
    simp only [tokens, List.cons_append, List.append_assoc, List.cons.injEq] at h
    obtain ⟨rfl, htail⟩ := h
    obtain ⟨-, rfl⟩ := isOperator.unique isOperator'
    obtain ⟨rfl, htail'⟩ := hright right' _ _ htail (ends_level_chain more hends)
      (ends_level_chain more' hends')
    obtain ⟨rfl, hrest⟩ := hmore more' _ _ htail' hends hends'
    exact ⟨rfl, hrest⟩

theorem literal {sign : Token} {v : Value} (denotes : Denotes sign.kind v) :
    Determined (Derivation.literal sign v denotes) := by
  intro d' rest rest' h hends hends'
  cases d' with
  | literal sign' v' denotes' =>
    simp only [tokens, List.cons_append, List.nil_append, List.cons.injEq] at h
    obtain ⟨rfl, hrest⟩ := h
    obtain rfl := denotes.unique denotes'
    exact ⟨rfl, hrest⟩
  | path root' => exact absurd (by simpa using head_kind_eq h) denotes.ne_name
  | call name' opening' args' closing' =>
    exact absurd (by simpa using head_kind_eq h) denotes.ne_name
  | group opening' inner' closing' =>
    exact absurd (by simpa using head_kind_eq h) denotes.ne_openParen

/-- A path is no call: no opening parenthesis stands behind it. -/
theorem path (root : Terminal .name) : Determined (Derivation.path root) := by
  intro d' rest rest' h hends hends'
  cases d' with
  | literal sign' v' denotes' =>
    exact absurd (by simpa using (head_kind_eq h).symm) denotes'.ne_name
  | path root' =>
    simp only [tokens, List.cons_append, List.nil_append, List.cons.injEq, ← Subtype.ext_iff] at h
    obtain ⟨rfl, hrest⟩ := h
    exact ⟨rfl, hrest⟩
  | call name' opening' args' closing' =>
    simp only [tokens, List.cons_append, List.nil_append, List.cons.injEq] at h
    rw [h.2, ends_cons] at hends
    exact absurd opening'.property hends
  | group opening' inner' closing' =>
    have hkind := head_kind_eq h
    simp at hkind

theorem call {name : Terminal .name} {opening : Terminal .openParen} {args : Derivation .args}
    {closing : Terminal .closeParen} (hargs : Determined args) :
    Determined (Derivation.call name opening args closing) := by
  intro d' rest rest' h hends hends'
  cases d' with
  | literal sign' v' denotes' =>
    exact absurd (by simpa using (head_kind_eq h).symm) denotes'.ne_name
  | path root' =>
    simp only [tokens, List.cons_append, List.nil_append, List.cons.injEq] at h
    rw [← h.2, ends_cons] at hends'
    exact absurd opening.property hends'
  | call name' opening' args' closing' =>
    simp only [tokens, List.cons_append, List.append_assoc, List.nil_append, List.cons.injEq,
      ← Subtype.ext_iff] at h
    obtain ⟨rfl, rfl, htail⟩ := h
    obtain ⟨rfl, hclosing⟩ := hargs args' _ _ htail (by simp [Bounds]) (by simp [Bounds])
    simp only [List.cons.injEq, ← Subtype.ext_iff] at hclosing
    obtain ⟨rfl, hrest⟩ := hclosing
    exact ⟨rfl, hrest⟩
  | group opening' inner' closing' =>
    have hkind := head_kind_eq h
    simp at hkind

theorem group {opening : Terminal .openParen} {inner : Derivation (.level 6)}
    {closing : Terminal .closeParen} (hinner : Determined inner) :
    Determined (Derivation.group opening inner closing) := by
  intro d' rest rest' h hends hends'
  have hkind := head_kind_eq h
  cases d' with
  | literal sign' v' denotes' =>
    exact absurd (by simpa using hkind.symm) denotes'.ne_openParen
  | path root' => simp at hkind
  | call name' opening' args' closing' => simp at hkind
  | group opening' inner' closing' =>
    simp only [tokens, List.cons_append, List.append_assoc, List.nil_append, List.cons.injEq,
      ← Subtype.ext_iff] at h
    obtain ⟨rfl, htail⟩ := h
    obtain ⟨rfl, hclosing⟩ := hinner inner' _ _ htail (by simp [bounds_closeParen])
      (by simp [bounds_closeParen])
    simp only [List.cons.injEq, ← Subtype.ext_iff] at hclosing
    obtain ⟨rfl, hrest⟩ := hclosing
    exact ⟨rfl, hrest⟩

theorem noSteps : Determined Derivation.noSteps := by
  intro d' rest rest' h hends hends'
  cases d' with
  | noSteps => exact ⟨rfl, h⟩
  | key dot' name' isMember' more' =>
    simp only [tokens, List.nil_append, List.cons_append] at h
    rw [h, ends_cons] at hends
    simp [Bounds, stepKinds] at hends
  | method dot' name' isMember' opening' args' closing' more' =>
    simp only [tokens, List.nil_append, List.cons_append] at h
    rw [h, ends_cons] at hends
    simp [Bounds, stepKinds] at hends
  | index n' opening' number' closing' more' =>
    simp only [tokens, List.nil_append, List.cons_append] at h
    rw [h, ends_cons] at hends
    simp [Bounds, stepKinds] at hends

/-- A key is no method: no opening parenthesis stands behind its name. -/
theorem key {dot : Terminal .dot} {name : Token} (isMember : name.kind ∈ memberKinds)
    {more : Derivation .steps} (hmore : Determined more) :
    Determined (Derivation.key dot name isMember more) := by
  intro d' rest rest' h hends hends'
  cases d' with
  | noSteps =>
    simp only [tokens, List.nil_append, List.cons_append] at h
    rw [← h, ends_cons] at hends'
    simp [Bounds, stepKinds] at hends'
  | key dot' name' isMember' more' =>
    simp only [tokens, List.cons_append, List.cons.injEq, ← Subtype.ext_iff] at h
    obtain ⟨rfl, rfl, htail⟩ := h
    obtain ⟨rfl, hrest⟩ := hmore more' _ _ htail hends hends'
    exact ⟨rfl, hrest⟩
  | method dot' name' isMember' opening' args' closing' more' =>
    simp only [tokens, List.cons_append, List.cons.injEq] at h
    have hoperand := ends_operand_steps more hends
    rw [h.2.2, ends_cons] at hoperand
    exact absurd opening'.property hoperand
  | index n' opening' number' closing' more' =>
    have hkind := head_kind_eq h
    simp at hkind

theorem method {dot : Terminal .dot} {name : Token} (isMember : name.kind ∈ memberKinds)
    {opening : Terminal .openParen} {args : Derivation .args} {closing : Terminal .closeParen}
    {more : Derivation .steps} (hargs : Determined args) (hmore : Determined more) :
    Determined (Derivation.method dot name isMember opening args closing more) := by
  intro d' rest rest' h hends hends'
  cases d' with
  | noSteps =>
    simp only [tokens, List.nil_append, List.cons_append] at h
    rw [← h, ends_cons] at hends'
    simp [Bounds, stepKinds] at hends'
  | key dot' name' isMember' more' =>
    simp only [tokens, List.cons_append, List.cons.injEq] at h
    have hoperand := ends_operand_steps more' hends'
    rw [← h.2.2, ends_cons] at hoperand
    exact absurd opening.property hoperand
  | method dot' name' isMember' opening' args' closing' more' =>
    simp only [tokens, List.cons_append, List.append_assoc, List.cons.injEq, ← Subtype.ext_iff] at h
    obtain ⟨rfl, rfl, rfl, htail⟩ := h
    obtain ⟨rfl, hclosing⟩ := hargs args' _ _ htail (by simp [Bounds]) (by simp [Bounds])
    simp only [List.cons.injEq, ← Subtype.ext_iff] at hclosing
    obtain ⟨rfl, htail'⟩ := hclosing
    obtain ⟨rfl, hrest⟩ := hmore more' _ _ htail' hends hends'
    exact ⟨rfl, hrest⟩
  | index n' opening' number' closing' more' =>
    have hkind := head_kind_eq h
    simp at hkind

theorem index {n : Nat} {opening : Terminal .openBracket} {number : Terminal (.int n)}
    {closing : Terminal .closeBracket} {more : Derivation .steps} (hmore : Determined more) :
    Determined (Derivation.index n opening number closing more) := by
  intro d' rest rest' h hends hends'
  have hkind := head_kind_eq h
  cases d' with
  | noSteps =>
    simp only [tokens, List.nil_append, List.cons_append] at h
    rw [← h, ends_cons] at hends'
    simp [Bounds, stepKinds] at hends'
  | key dot' name' isMember' more' => simp at hkind
  | method dot' name' isMember' opening' args' closing' more' => simp at hkind
  | index n' opening' number' closing' more' =>
    simp only [tokens, List.cons_append, List.cons.injEq] at h
    obtain ⟨hopening, hnumber, hclosing, htail⟩ := h
    obtain rfl : n = n' := by simpa using congrArg Token.kind hnumber
    rw [← Subtype.ext_iff] at hopening hnumber hclosing
    subst hopening hnumber hclosing
    obtain ⟨rfl, hrest⟩ := hmore more' _ _ htail hends hends'
    exact ⟨rfl, hrest⟩

/-- The first of some arguments is no closing parenthesis. -/
theorem noArgs : Determined Derivation.noArgs := by
  intro d' rest rest' h hends hends'
  cases d' with
  | noArgs => exact ⟨rfl, h⟩
  | someArgs first' more' =>
    obtain ⟨t, ts, htokens, hbegins⟩ := first'.level_begins
    simp only [tokens, List.nil_append, htokens, List.cons_append] at h
    rw [h, ends_cons] at hends
    rw [show t.kind = .closeParen from hends] at hbegins
    exact absurd hbegins not_begins_closeParen

theorem someArgs {first : Derivation (.level 6)} {more : Derivation .moreArgs}
    (hfirst : Determined first) (hmore : Determined more) :
    Determined (Derivation.someArgs first more) := by
  intro d' rest rest' h hends hends'
  cases d' with
  | noArgs =>
    obtain ⟨t, ts, htokens, hbegins⟩ := first.level_begins
    simp only [tokens, List.nil_append, htokens, List.cons_append] at h
    rw [← h, ends_cons] at hends'
    rw [show t.kind = .closeParen from hends'] at hbegins
    exact absurd hbegins not_begins_closeParen
  | someArgs first' more' =>
    simp only [tokens, List.append_assoc] at h
    obtain ⟨rfl, htail⟩ := hfirst first' _ _ h (ends_level_moreArgs more hends)
      (ends_level_moreArgs more' hends')
    obtain ⟨rfl, hrest⟩ := hmore more' _ _ htail hends hends'
    exact ⟨rfl, hrest⟩

theorem noMoreArgs : Determined Derivation.noMoreArgs := by
  intro d' rest rest' h hends hends'
  cases d' with
  | noMoreArgs => exact ⟨rfl, h⟩
  | moreArgs comma' next' more' =>
    simp only [tokens, List.nil_append, List.cons_append] at h
    rw [h, ends_cons] at hends
    simp [Bounds] at hends

theorem moreArgs {comma : Terminal .comma} {next : Derivation (.level 6)}
    {more : Derivation .moreArgs} (hnext : Determined next) (hmore : Determined more) :
    Determined (Derivation.moreArgs comma next more) := by
  intro d' rest rest' h hends hends'
  cases d' with
  | noMoreArgs =>
    simp only [tokens, List.nil_append, List.cons_append] at h
    rw [← h, ends_cons] at hends'
    simp [Bounds] at hends'
  | moreArgs comma' next' more' =>
    simp only [tokens, List.cons_append, List.append_assoc, List.cons.injEq, ← Subtype.ext_iff] at h
    obtain ⟨rfl, htail⟩ := h
    obtain ⟨rfl, htail'⟩ := hnext next' _ _ htail (ends_level_moreArgs more hends)
      (ends_level_moreArgs more' hends')
    obtain ⟨rfl, hrest⟩ := hmore more' _ _ htail' hends hends'
    exact ⟨rfl, hrest⟩

end Determined

theorem determined {s : Symbol} (d : Derivation s) : Determined d := by
  induction d with
  | level first more ihFirst ihMore => exact .level ihFirst ihMore
  | signed sign op isSign phrase ih => exact .signed isSign ih
  | stepped first more ihFirst ihMore => exact .stepped ihFirst ihMore
  | noChain => exact .noChain
  | chain sign op isOperator right more ihRight ihMore => exact .chain isOperator ihRight ihMore
  | literal sign v denotes => exact .literal denotes
  | path root => exact .path root
  | call name opening args closing ih => exact .call ih
  | group opening inner closing ih => exact .group ih
  | noSteps => exact .noSteps
  | key dot name isMember more ih => exact .key isMember ih
  | method dot name isMember opening args closing more ihArgs ihMore =>
    exact .method isMember ihArgs ihMore
  | index n opening number closing more ih => exact .index ih
  | noArgs => exact .noArgs
  | someArgs first more ihFirst ihMore => exact .someArgs ihFirst ihMore
  | noMoreArgs => exact .noMoreArgs
  | moreArgs comma next more ihNext ihMore => exact .moreArgs ihNext ihMore

/-- The tokens of a phrase determine how it is derived. -/
theorem tokens_injective {s : Symbol} {d d' : Derivation s} (h : d.tokens = d'.tokens) : d = d' := by
  have hdetermined := d.determined d' [] [] (by rw [h])
  exact (hdetermined (ends_nil s) (ends_nil s)).1

end Derivation

end Grammar

end Rulebook
