import Rulebook.Proofs.Parsing

set_option autoImplicit false

/-!
Properties of parsed trees. A property that each step of the parser keeps holds of every tree that is
parsed; what is known of the tokens can be used, since names and literals come from them.
-/

namespace Rulebook.Parse

open Grammar

/-- A property of trees that the parser keeps at every step, where the tokens have a property as well. -/
structure Law (Q : Token → Prop) (P : Expr → Prop) : Prop where
  literal : ∀ {t v}, Q t → literal? t.kind = some v → P (.lit v)
  path : ∀ {t}, Q t → t.kind = .name → P (.path t.text [])
  call : ∀ {t args}, Q t → t.kind = .name → (∀ e ∈ args, P e) → P (.call t.text args)
  method : ∀ {e t args}, P e → Q t → t.kind.namesMember = true → (∀ a ∈ args, P a) →
    P (.method e t.text args)
  key : ∀ {e t}, P e → Q t → t.kind.namesMember = true → P (e.extend (.key t.text))
  index : ∀ {e t} {n : Nat}, P e → Q t → t.kind = .int n → P (e.extend (.index n))
  not : ∀ {e}, P e → P (.un .not e)
  negate : ∀ {e}, P e → P e.negate
  bin : ∀ {t : Token} {op l r}, Q t → t.kind.binOp? = some op → P l → P r → P (.bin op l r)

/-- The trees of a phrase have a property; what continues a tree keeps it. -/
def Obeys (P : Expr → Prop) : {s : Symbol} → s.Tree → Prop
  | .level _, e | .operand, e => P e
  | .chain _, f | .steps, f => ∀ e : Expr, P e → P (f e)
  | .args, es | .moreArgs, es => ∀ e ∈ es, P e

theorem Law.obeys {Q : Token → Prop} {P : Expr → Prop} (law : Law Q P) {s : Symbol}
    (d : Derivation s) (hQ : ∀ t ∈ d.tokens, Q t) : Obeys P d.tree := by
  induction d with
  | level first more ihFirst ihMore | stepped first more ihFirst ihMore =>
    obtain ⟨hfirst, hmore⟩ := List.forall_mem_append.mp hQ
    exact ihMore hmore _ (ihFirst hfirst)
  | signed sign op isSign phrase ih =>
    obtain ⟨kind, text, position⟩ := sign
    have hphrase : P phrase.tree := ih (List.forall_mem_cons.mp hQ).2
    cases isSign with
    | not => exact law.not hphrase
    | minus =>
      rw [Obeys, Derivation.tree, Expr.fold_neg]
      exact law.negate hphrase
  | noChain | noSteps => exact fun _ he => he
  | chain sign op isOperator right more ihRight ihMore =>
    obtain ⟨hsign, htail⟩ := List.forall_mem_cons.mp hQ
    obtain ⟨hright, hmore⟩ := List.forall_mem_append.mp htail
    intro e he
    exact ihMore hmore _ (law.bin hsign (operator_iff.mp isOperator).1 he (ihRight hright))
  | literal sign v denotes => exact law.literal (hQ sign (by simp)) (denotes_iff.mp denotes)
  | path root => exact law.path (hQ root (by simp)) root.property
  | call name opening args closing ih =>
    have hargs : ∀ t ∈ args.tokens, Q t := fun t ht => hQ t (by simp [ht])
    exact law.call (hQ name (by simp)) name.property (ih hargs)
  | group opening inner closing ih => exact ih fun t ht => hQ t (by simp [ht])
  | key dot name isMember more ih =>
    have hmore : ∀ t ∈ more.tokens, Q t := fun t ht => hQ t (by simp [ht])
    intro e he
    exact ih hmore _ (law.key he (hQ name (by simp)) (mem_memberKinds_iff.mp isMember))
  | method dot name isMember opening args closing more ihArgs ihMore =>
    have hargs : ∀ t ∈ args.tokens, Q t := fun t ht => hQ t (by simp [ht])
    have hmore : ∀ t ∈ more.tokens, Q t := fun t ht => hQ t (by simp [ht])
    intro e he
    have hname : Q name := hQ name (by simp)
    exact ihMore hmore _ (law.method he hname (mem_memberKinds_iff.mp isMember) (ihArgs hargs))
  | index n opening number closing more ih =>
    have hmore : ∀ t ∈ more.tokens, Q t := fun t ht => hQ t (by simp [ht])
    intro e he
    exact ih hmore _ (law.index he (hQ number (by simp)) number.property)
  | noArgs | noMoreArgs => exact fun _ he => absurd he List.not_mem_nil
  | someArgs first more ihFirst ihMore =>
    obtain ⟨hfirst, hmore⟩ := List.forall_mem_append.mp hQ
    exact List.forall_mem_cons.mpr ⟨ihFirst hfirst, ihMore hmore⟩
  | moreArgs comma next more ihNext ihMore =>
    obtain ⟨-, htail⟩ := List.forall_mem_cons.mp hQ
    obtain ⟨hnext, hmore⟩ := List.forall_mem_append.mp htail
    exact List.forall_mem_cons.mpr ⟨ihNext hnext, ihMore hmore⟩

end Rulebook.Parse

namespace Rulebook

/-- Every tree that is parsed has a property that the parser keeps. -/
theorem Parse.Law.parse {Q : Token → Prop} {P : Expr → Prop} (law : Law Q P) {text : String} {e : Expr}
    (hQ : ∀ ts, Token.scan text = .ok ts → ∀ t ∈ ts, Q t) (h : Rulebook.parse text = .ok e) : P e := by
  obtain ⟨ts, hscan, hexpression⟩ := parse_eq_ok.mp h
  obtain ⟨d, htokens, rfl⟩ := (expression_eq_ok_iff _).mp hexpression
  exact law.obeys d (htokens ▸ hQ ts hscan)

end Rulebook
