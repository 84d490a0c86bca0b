import Rulebook.Proofs.Positions
import Rulebook.Proofs.Words

set_option autoImplicit false

/-!
Composition of texts. A text that is parsed can stand in parentheses, as an operand, as an argument or in front
of a method: its tokens are the same there, and its tree becomes a part of the tree of the whole.
-/

namespace Rulebook.Token

/-- A text gives the same tokens if something that keeps apart is written behind it. -/
theorem Scans.scansTo {position : Nat} {cs rest : List Char} {ts : List Token} (h : Scans position cs ts)
    (hrest : Apart rest) : ScansTo (fun us => us.map bare = ts.map bare) (cs ++ rest) rest := by
  -- behind each token stands the rest of the text, which ends the token also with more behind it
  induction h with
  | done => exact scansTo_nil (C := fun us => us.map bare = [].map bare) rfl rest
  | blank hc _ ih => exact ih.blank hc
  | @token position c k a b ts hlexeme _ ih =>
    have hfirst := (hlexeme.behind (hrest.endsAlike_append b)).scansTo
    rw [List.cons_append, List.append_assoc]
    refine (hfirst.seq ih).mono ?_
    rintro _ ⟨_, ⟨p, rfl⟩, us, hus, rfl⟩
    rw [List.singleton_append, List.map_cons, List.map_cons, hus]
    rfl

end Rulebook.Token

namespace Rulebook

open Grammar Token

/-! ### Operators -/

/-- The operators that are written in one way. -/
def plainOperators : List BinOp := [.eq, .ne, .ge, .le, .gt, .lt, .add, .sub, .mul, .div, .rem]

/-- How a binary operator can be written: the words in any letter case. -/
inductive Spelling : BinOp → String → Prop
  | or {w : String} : w.toLower = "or" → Spelling .or w
  | and {w : String} : w.toLower = "and" → Spelling .and w
  | bars : Spelling .or "||"
  | ampersands : Spelling .and "&&"
  | symbol {op : BinOp} : op ∈ plainOperators → Spelling op op.symbol

section

variable {op : BinOp} {k : TokenKind} {sign : String}

theorem scansTo_spaced (rest : List Char)
    (h : ∀ {rest}, Apart rest → ScansTo (IsToken k sign) (sign.toList ++ rest) rest) :
    ScansTo (IsToken k sign) (' ' :: (sign.toList ++ ' ' :: rest)) rest :=
  (h (apart_cons (by simp) rest)).blank_behind.blank_before

theorem exists_operator (h : op ∈ plainOperators) : ∃ n k, Operator n k op := by
  simp only [plainOperators, List.mem_cons, List.not_mem_nil, or_false] at h
  rcases h with rfl | rfl | rfl | rfl | rfl | rfl | rfl | rfl | rfl | rfl | rfl <;>
    exact ⟨_, _, by constructor⟩

theorem Spelling.scansTo (h : Spelling op sign) : ∃ n k, Operator n k op ∧
    ∀ rest, ScansTo (IsToken k sign) (' ' :: (sign.toList ++ ' ' :: rest)) rest := by
  cases h with
  | or hw =>
    have hkeyword : IsKeyword "or" := by decide +kernel
    have hspells : Spells .or sign := spells_keyword (hw.trans (by decide +kernel)) hkeyword
    exact ⟨6, .or, .or, fun rest => scansTo_spaced rest hspells.scansTo⟩
  | and hw =>
    have hkeyword : IsKeyword "and" := by decide +kernel
    have hspells : Spells .and sign := spells_keyword (hw.trans (by decide +kernel)) hkeyword
    exact ⟨5, .and, .and, fun rest => scansTo_spaced rest hspells.scansTo⟩
  | bars =>
    exact ⟨6, .or, .or, fun rest => scansTo_spaced rest (scansTo_operator ['|'] (by simp [operators]))⟩
  | ampersands =>
    exact ⟨5, .and, .and, fun rest => scansTo_spaced rest (scansTo_operator ['&'] (by simp [operators]))⟩
  | symbol hop =>
    obtain ⟨n, k, hop⟩ := exists_operator hop
    exact ⟨n, k, hop, scansTo_operatorText hop⟩

theorem Spelling.of_toList (hop : op ∈ plainOperators) (h : sign.toList = op.symbol.toList) :
    Spelling op sign := by
  obtain rfl : sign = op.symbol := String.toList_inj.mp h
  exact .symbol hop

theorem spelling_of_wordKind {w : String} (h : (wordKind w.toList).binOp? = some op) :
    Spelling op w := by
  rw [wordKind, ofList_map_toLower] at h
  split at h
  · next hw =>
    cases h
    exact .and hw
  · next hw =>
    cases h
    exact .or hw
  all_goals cases h

theorem spelling_of_mem_operators (h : (sign.toList, k) ∈ operators) (hop : k.binOp? = some op) :
    Spelling op sign := by
  simp only [operators, List.mem_cons, List.not_mem_nil, or_false, Prod.mk.injEq] at h
  rcases h with h | h | h | h | h | h | h | h | h | h | h | h | h | h | h | h | h | h | h | h <;>
    obtain ⟨htext, rfl⟩ := h <;> cases hop
  · have hsign : sign = "&&" := String.toList_inj.mp htext
    exact hsign ▸ .ampersands
  · have hsign : sign = "||" := String.toList_inj.mp htext
    exact hsign ▸ .bars
  all_goals exact .of_toList (by simp [plainOperators]) htext

end

/-! ### Parsed texts as parts -/

section

variable {t t' : String} {e e' : Expr} {texts : List String} {es : List Expr} {rest : List Char}

/-- A text that is parsed is a phrase wherever it is kept apart from what follows. -/
theorem spells_of_parse (h : parse t = .ok e) (hrest : Apart rest) :
    SpellsPhrase (.level 6) e (t.toList ++ rest) rest := by
  obtain ⟨ts, hscan, hexpression⟩ := parse_eq_ok.mp h
  refine ((scan_eq_ok_iff.mp hscan).scansTo hrest).mono fun us hus => ?_
  have hsame := Parse.expression_of_bare hus 0 t.length
  rw [hexpression] at hsame
  exact (Parse.expression_eq_ok_iff 0).mp (mapError_eq_ok.mp hsame)

theorem spells_group (h : parse t = .ok e) (rest : List Char) :
    SpellsPhrase .operand e ('(' :: (t.toList ++ ')' :: rest)) rest :=
  (spells_of_parse h (apart_cons (by simp) rest)).group

/-- Each text is parsed to the tree at its place. -/
def ParseAll (texts : List String) (es : List Expr) : Prop :=
  List.Forall₂ (fun t e => parse t = .ok e) texts es

/-- Further arguments, each after a comma and a space. -/
def moreText (texts : List String) : List Char := texts.flatMap fun t => ',' :: ' ' :: t.toList

theorem toList_intercalate_cons (t : String) (texts : List String) :
    (", ".intercalate (t :: texts)).toList = t.toList ++ moreText texts := by
  induction texts generalizing t with
  | nil => simp [moreText]
  | cons t' texts ih =>
    rw [String.intercalate_cons_cons, String.toList_append, ih]
    simp [moreText]

theorem apart_moreText (texts : List String) (rest : List Char) :
    Apart (moreText texts ++ ')' :: rest) := by
  cases texts with
  | nil => exact apart_cons (by simp) rest
  | cons t texts => exact apart_cons (by simp) _

theorem spells_moreText (h : ParseAll texts es) (rest : List Char) :
    SpellsPhrase .moreArgs es (moreText texts ++ ')' :: rest) (')' :: rest) := by
  induction h with
  | nil => exact .noMoreArgs _
  | @cons t e texts es ht _ ih =>
    have hnext := spells_of_parse ht (apart_moreText texts rest)
    have hargs := SpellsPhrase.moreArgs hnext ih
    rw [moreText, List.flatMap_cons]
    simpa [moreText] using hargs

theorem spells_arguments (h : ParseAll texts es) (rest : List Char) :
    SpellsPhrase .args es ((", ".intercalate texts).toList ++ ')' :: rest) (')' :: rest) := by
  cases h with
  | nil => exact .noArgs _
  | @cons t e texts es ht hmore =>
    have hfirst := spells_of_parse ht (apart_moreText texts rest)
    rw [toList_intercalate_cons, List.append_assoc]
    exact .someArgs hfirst (spells_moreText hmore rest)

/-! ### Compositions -/

theorem parse_group (h : parse t = .ok e) : parse ("(" ++ t ++ ")") = .ok e := by
  apply parse_of_spells (Nat.zero_le 6)
  simpa using (spells_group h []).operand

theorem parse_not (h : parse t = .ok e) : parse ("NOT (" ++ t ++ ")") = .ok (.un .not e) := by
  have hsign := scansTo_signText .not ('(' :: (t.toList ++ [')']))
  have hsigned := SpellsPhrase.signed .not hsign (spells_group h []).operand
  apply parse_of_spells (Nat.zero_le 6)
  simpa [UnOp.symbol, Expr.fold_not] using hsigned

theorem parse_binary {op : BinOp} {sign : String} (hop : Spelling op sign) (h : parse t = .ok e)
    (h' : parse t' = .ok e') :
    parse ("(" ++ t ++ ") " ++ sign ++ " (" ++ t' ++ ")") = .ok (.bin op e e') := by
  obtain ⟨n, k, hoperator, hsign⟩ := hop.scansTo
  obtain ⟨m, rfl, hm⟩ := hoperator.exists_succ
  have hleft := (spells_group h (' ' :: (sign.toList ++ ' ' :: '(' :: (t'.toList ++ [')'])))).operand
  have hright := (spells_group h' []).operand
  have hjoined := SpellsPhrase.binary hoperator (hleft.lift (Nat.zero_le m)) (hsign _)
    (hright.lift (Nat.zero_le m))
  apply parse_of_spells hm
  simpa using hjoined

theorem parse_call {f : String} (hf : Identifier f) (hkeyword : ¬ IsKeyword f) (hargs : ParseAll texts es) :
    parse (f ++ "(" ++ ", ".intercalate texts ++ ")") = .ok (.call f es) := by
  have hname : Spells .name f := wordKind_eq_name_iff.mpr hkeyword ▸ spells_identifier hf
  have hcall := SpellsPhrase.call (hname.scansTo (apart_cons (by simp) _)) (spells_arguments hargs [])
  apply parse_of_spells (Nat.zero_le 6)
  simpa using hcall.operand

theorem parse_method {m : String} (hm : Identifier m) (h : parse t = .ok e) (hargs : ParseAll texts es) :
    parse ("(" ++ t ++ ")." ++ m ++ "(" ++ ", ".intercalate texts ++ ")") = .ok (.method e m es) := by
  have hkind := mem_memberKinds_iff.mpr (namesMember_wordKind m.toList)
  have hname := (spells_identifier hm).scansTo
    (apart_cons (c := '(') (by simp) ((", ".intercalate texts).toList ++ [')']))
  have hmethod := SpellsPhrase.method hkind hname (spells_arguments hargs []) (.noSteps [])
  apply parse_of_spells (Nat.zero_le 6)
  simpa using (spells_group h _).stepped hmethod

/-- Texts that are parsed can be put together in every way, and their trees are the parts of the tree of the
whole. -/
theorem parse_composed (hargs : ParseAll texts es) :
    (∀ f, Identifier f → ¬ IsKeyword f →
      parse (f ++ "(" ++ ", ".intercalate texts ++ ")") = .ok (.call f es)) ∧
    ∀ t e, parse t = .ok e →
      parse ("(" ++ t ++ ")") = .ok e ∧
      parse ("NOT (" ++ t ++ ")") = .ok (.un .not e) ∧
      (∀ op sign t' e', Spelling op sign → parse t' = .ok e' →
        parse ("(" ++ t ++ ") " ++ sign ++ " (" ++ t' ++ ")") = .ok (.bin op e e')) ∧
      ∀ m, Identifier m ∨ IsKeyword m →
        parse ("(" ++ t ++ ")." ++ m ++ "(" ++ ", ".intercalate texts ++ ")") = .ok (.method e m es) := by
  refine ⟨fun f hf hkeyword => parse_call hf hkeyword hargs, fun t e h => ?_⟩
  refine ⟨parse_group h, parse_not h, fun op sign t' e' hop h' => parse_binary hop h h', fun m hm => ?_⟩
  have hname : Identifier m := hm.elim id IsKeyword.identifier
  exact parse_method hname h hargs

end

/-- An operator of the lowest strength. -/
def choice : Expr := .bin .or (.lit (.number (.int 1))) (.path "x" [])

/-- A parenthesis inside a text. -/
def quotedParen : Expr := .bin .eq (.lit (.text "(")) (.path "y" [.key "not"])

theorem parse_composed_quotedParen :
    ParseAll ["1 || x", "'(' == y.not"] [choice, quotedParen] ∧
      parse ("max" ++ "(" ++ ", ".intercalate ["1 || x", "'(' == y.not"] ++ ")") =
        .ok (.call "max" [choice, quotedParen]) ∧
      parse ("(" ++ "1 || x" ++ ") " ++ "aNd" ++ " (" ++ "'(' == y.not" ++ ")") =
        .ok (.bin .and choice quotedParen) := by
  have hchoice : parse "1 || x" = .ok choice := by with_unfolding_all rfl
  have hquoted : parse "'(' == y.not" = .ok quotedParen := by with_unfolding_all rfl
  have hargs : ParseAll ["1 || x", "'(' == y.not"] [choice, quotedParen] :=
    .cons hchoice (.cons hquoted .nil)
  have hname : Identifier "max" := ⟨'m', ['a', 'x'], rfl, by decide, List.all_eq_true.mp (by decide)⟩
  obtain ⟨hcall, hparts⟩ := parse_composed hargs
  obtain ⟨-, -, hbinary, -⟩ := hparts _ _ hchoice
  exact ⟨hargs, hcall "max" hname (by decide +kernel),
    hbinary _ "aNd" _ _ (.and (by decide +kernel)) hquoted⟩

end Rulebook
