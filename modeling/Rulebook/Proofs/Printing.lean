import Rulebook.Proofs.Scanning
import Rulebook.Proofs.Trees

set_option autoImplicit false

/-!
Printing of expressions, with parentheses around every operator and every receiver. A tree that was parsed
is parsed again from its printed form. Trees with binary64 literals are left out, since an infinite number
has no text that is a literal.
-/

namespace Rulebook

open Grammar Token

/-! ### Printed trees -/

/-- A literal as it is written. -/
def Value.literalText : Value → String
  | .null => "null"
  | .bool b => if b then "true" else "false"
  | .number n => n.toText
  | .text s => quotedText s.shown
  | _ => ""

namespace Expr

def segmentsText (segments : List Segment) : String := String.join (segments.map Segment.text)

mutual

def print : Expr → String
  | .lit v => v.literalText
  | .path root segments => pathText root segments
  | .sub receiver segments => "(" ++ print receiver ++ ")" ++ segmentsText segments
  | .bin op left right => "(" ++ print left ++ " " ++ op.symbol ++ " " ++ print right ++ ")"
  | .un op operand => "(" ++ op.symbol ++ " " ++ print operand ++ ")"
  | .call name args => name ++ "(" ++ printAll args ++ ")"
  | .method receiver name args =>
    "(" ++ print receiver ++ ")" ++ "." ++ name ++ "(" ++ printAll args ++ ")"
  | .foreign typeName => typeName

def printAll : List Expr → String
  | [] => ""
  | e :: es => print e ++ printMore es

/-- Each further expression comes after a comma. -/
def printMore : List Expr → String
  | [] => ""
  | e :: es => ", " ++ print e ++ printMore es

end

mutual

/-- The tree and all trees below it. -/
def subtrees : Expr → List Expr
  | .lit v => [.lit v]
  | .path root segments => [.path root segments]
  | .sub receiver segments => .sub receiver segments :: subtrees receiver
  | .bin op left right => .bin op left right :: (subtrees left ++ subtrees right)
  | .un op operand => .un op operand :: subtrees operand
  | .call name args => .call name args :: subtreesAll args
  | .method receiver name args => .method receiver name args :: (subtrees receiver ++ subtreesAll args)
  | .foreign typeName => [.foreign typeName]

def subtreesAll : List Expr → List Expr
  | [] => []
  | e :: es => subtrees e ++ subtreesAll es

end

end Expr

theorem Expr.forall_mem_subtreesAll {p : Expr → Prop} {es : List Expr} :
    (∀ t ∈ subtreesAll es, p t) ↔ ∀ e ∈ es, ∀ t ∈ e.subtrees, p t := by
  induction es with
  | nil => simp [subtreesAll]
  | cons e es ih => rw [subtreesAll, List.forall_mem_append, List.forall_mem_cons, ih]

/-! ### Phrases that are written out -/

/-- The characters up to `rest` are scanned as a phrase with this tree. -/
def SpellsPhrase (s : Symbol) (t : s.Tree) (cs rest : List Char) : Prop :=
  ScansTo (fun ts => ∃ d : Derivation s, d.tokens = ts ∧ d.tree = t) cs rest

/-- One token of this kind. -/
def IsTerminal (k : TokenKind) (ts : List Token) : Prop := ∃ t : Terminal k, ts = [t.val]

theorem Token.IsToken.isTerminal {k : TokenKind} {text : String} {ts : List Token}
    (h : IsToken k text ts) : IsTerminal k ts := by
  obtain ⟨position, rfl⟩ := h
  exact ⟨⟨⟨k, text, position⟩, rfl⟩, rfl⟩

theorem Token.Mark.terminal {c : Char} {k : TokenKind} (h : Mark c k) (rest : List Char) :
    ScansTo (IsTerminal k) (c :: rest) rest :=
  (h.scansTo rest).mono fun _ => Token.IsToken.isTerminal

namespace SpellsPhrase

variable {cs mid rest : List Char} {k : TokenKind} {text : String} {e : Expr} {f : Expr → Expr}
  {es : List Expr}

theorem lift {n m : Nat} (h : SpellsPhrase (.level n) e cs rest) (hnm : n ≤ m) :
    SpellsPhrase (.level m) e cs rest := by
  induction hnm with
  | refl => exact h
  | step _ ih =>
    refine ih.mono ?_
    rintro _ ⟨d, rfl, rfl⟩
    exact ⟨.level d .noChain, by simp, rfl⟩

theorem signed {op : UnOp} (hop : Sign k op) (hsign : ScansTo (IsToken k text) cs mid)
    (h : SpellsPhrase (.level 0) e mid rest) : SpellsPhrase (.level 0) (Expr.fold op e) cs rest := by
  refine (hsign.seq h).mono ?_
  rintro _ ⟨_, ⟨p, rfl⟩, _, ⟨d, rfl, rfl⟩, rfl⟩
  exact ⟨.signed ⟨k, text, p⟩ op hop d, rfl, rfl⟩

theorem noSteps (cs : List Char) : SpellsPhrase .steps (fun e => e) cs cs :=
  scansTo_nil ⟨.noSteps, rfl, rfl⟩ cs

theorem stepped (hfirst : SpellsPhrase .operand e cs mid) (hmore : SpellsPhrase .steps f mid rest) :
    SpellsPhrase (.level 0) (f e) cs rest := by
  refine (hfirst.seq hmore).mono ?_
  rintro _ ⟨_, ⟨first, rfl, rfl⟩, _, ⟨more, rfl, rfl⟩, rfl⟩
  exact ⟨.stepped first more, rfl, rfl⟩

theorem binary {n : Nat} {op : BinOp} {left right : Expr} {cs' : List Char}
    (hop : Operator (n + 1) k op) (hleft : SpellsPhrase (.level n) left cs cs')
    (hsign : ScansTo (IsToken k text) cs' mid) (hright : SpellsPhrase (.level n) right mid rest) :
    SpellsPhrase (.level (n + 1)) (.bin op left right) cs rest := by
  refine (hleft.seq (hsign.seq hright)).mono ?_
  rintro _ ⟨_, ⟨l, rfl, rfl⟩, _, ⟨_, ⟨p, rfl⟩, _, ⟨r, rfl, rfl⟩, rfl⟩, rfl⟩
  exact ⟨.level l (.chain ⟨k, text, p⟩ op hop r .noChain), by simp, rfl⟩

theorem operand (h : SpellsPhrase .operand e cs rest) : SpellsPhrase (.level 0) e cs rest :=
  h.stepped (noSteps rest)

theorem literal {v : Value} (hv : Denotes k v) (h : ScansTo (IsToken k text) cs rest) :
    SpellsPhrase (.level 0) (.lit v) cs rest := by
  refine operand (h.mono ?_)
  rintro _ ⟨p, rfl⟩
  exact ⟨.literal ⟨k, text, p⟩ v hv, rfl, rfl⟩

theorem path (h : ScansTo (IsToken .name text) cs rest) :
    SpellsPhrase .operand (.path text []) cs rest := by
  refine h.mono ?_
  rintro _ ⟨p, rfl⟩
  exact ⟨.path ⟨⟨.name, text, p⟩, rfl⟩, rfl, rfl⟩

theorem call (hname : ScansTo (IsToken .name text) cs ('(' :: mid))
    (hargs : SpellsPhrase .args es mid (')' :: rest)) :
    SpellsPhrase .operand (.call text es) cs rest := by
  have hopening := Mark.openParen.terminal mid
  have hclosing := Mark.closeParen.terminal rest
  refine (hname.seq (hopening.seq (hargs.seq hclosing))).mono ?_
  rintro _ ⟨_, ⟨p, rfl⟩, _, ⟨_, ⟨opening, rfl⟩, _, ⟨_, ⟨args, rfl, rfl⟩, _, ⟨closing, rfl⟩, rfl⟩, rfl⟩,
    rfl⟩
  exact ⟨.call ⟨⟨.name, text, p⟩, rfl⟩ opening args closing, rfl, rfl⟩

theorem group (h : SpellsPhrase (.level 6) e cs (')' :: rest)) :
    SpellsPhrase .operand e ('(' :: cs) rest := by
  have hopening := Mark.openParen.terminal cs
  have hclosing := Mark.closeParen.terminal rest
  refine (hopening.seq (h.seq hclosing)).mono ?_
  rintro _ ⟨_, ⟨opening, rfl⟩, _, ⟨_, ⟨d, rfl, rfl⟩, _, ⟨closing, rfl⟩, rfl⟩, rfl⟩
  exact ⟨.group opening d closing, rfl, rfl⟩

theorem key {cs' : List Char} (hk : k ∈ memberKinds) (hname : ScansTo (IsToken k text) cs' mid)
    (hmore : SpellsPhrase .steps f mid rest) :
    SpellsPhrase .steps (fun e => f (e.extend (.key text))) ('.' :: cs') rest := by
  have hdot := Mark.dot.terminal cs'
  refine (hdot.seq (hname.seq hmore)).mono ?_
  rintro _ ⟨_, ⟨dot, rfl⟩, _, ⟨_, ⟨p, rfl⟩, _, ⟨more, rfl, rfl⟩, rfl⟩, rfl⟩
  exact ⟨.key dot ⟨k, text, p⟩ hk more, rfl, rfl⟩

theorem method {cs' : List Char} (hk : k ∈ memberKinds)
    (hname : ScansTo (IsToken k text) cs' ('(' :: cs))
    (hargs : SpellsPhrase .args es cs (')' :: mid)) (hmore : SpellsPhrase .steps f mid rest) :
    SpellsPhrase .steps (fun e => f (.method e text es)) ('.' :: cs') rest := by
  have hdot := Mark.dot.terminal cs'
  have hopening := Mark.openParen.terminal cs
  have hclosing := Mark.closeParen.terminal mid
  refine (hdot.seq (hname.seq (hopening.seq (hargs.seq (hclosing.seq hmore))))).mono ?_
  rintro _ ⟨_, ⟨dot, rfl⟩, _, ⟨_, ⟨p, rfl⟩, _, ⟨_, ⟨opening, rfl⟩, _, ⟨_, ⟨args, rfl, rfl⟩, _, ⟨_,
    ⟨closing, rfl⟩, _, ⟨more, rfl, rfl⟩, rfl⟩, rfl⟩, rfl⟩, rfl⟩, rfl⟩
  exact ⟨.method dot ⟨k, text, p⟩ hk opening args closing more, rfl, rfl⟩

theorem index {n : Nat} (hn : (Number.int n).isWritable = true) (hmore : SpellsPhrase .steps f mid rest) :
    SpellsPhrase .steps (fun e => f (e.extend (.index n)))
      ('[' :: ((toString n).toList ++ ']' :: mid)) rest := by
  have hopening := Mark.openBracket.terminal ((toString n).toList ++ ']' :: mid)
  have hnumber := scansTo_digits hn (apart_cons (c := ']') (by simp) mid)
  have hclosing := Mark.closeBracket.terminal mid
  refine (hopening.seq (hnumber.seq (hclosing.seq hmore))).mono ?_
  rintro _ ⟨_, ⟨opening, rfl⟩, _, ⟨_, ⟨p, rfl⟩, _, ⟨_, ⟨closing, rfl⟩, _, ⟨more, rfl, rfl⟩, rfl⟩, rfl⟩,
    rfl⟩
  exact ⟨.index n opening ⟨⟨.int n, toString n, p⟩, rfl⟩ closing more, rfl, rfl⟩

theorem noArgs (cs : List Char) : SpellsPhrase .args [] cs cs :=
  scansTo_nil ⟨.noArgs, rfl, rfl⟩ cs

theorem someArgs (hfirst : SpellsPhrase (.level 6) e cs mid)
    (hmore : SpellsPhrase .moreArgs es mid rest) : SpellsPhrase .args (e :: es) cs rest := by
  refine (hfirst.seq hmore).mono ?_
  rintro _ ⟨_, ⟨first, rfl, rfl⟩, _, ⟨more, rfl, rfl⟩, rfl⟩
  exact ⟨.someArgs first more, rfl, rfl⟩

theorem noMoreArgs (cs : List Char) : SpellsPhrase .moreArgs [] cs cs :=
  scansTo_nil ⟨.noMoreArgs, rfl, rfl⟩ cs

theorem moreArgs (hnext : SpellsPhrase (.level 6) e cs mid)
    (hmore : SpellsPhrase .moreArgs es mid rest) :
    SpellsPhrase .moreArgs (e :: es) (',' :: ' ' :: cs) rest := by
  have hcomma := Mark.comma.terminal (' ' :: cs)
  refine (hcomma.seq (hnext.blank_before.seq hmore)).mono ?_
  rintro _ ⟨_, ⟨comma, rfl⟩, _, ⟨_, ⟨next, rfl, rfl⟩, _, ⟨more, rfl, rfl⟩, rfl⟩, rfl⟩
  exact ⟨.moreArgs comma next more, rfl, rfl⟩

end SpellsPhrase

/-! ### Parsed trees -/

/-- A step by a name that is scanned as one token, or by a place in a list. -/
def Segment.Scannable : Segment → Prop
  | .key name => ∃ k ∈ memberKinds, Spells k name
  | .index n => 0 ≤ n ∧ (Number.int n).isWritable = true
  | .other => False

def Value.Scannable : Value → Prop
  | .null | .bool _ => True
  | .number n => n.isWritable = true
  | .text s => ∃ t : String, s = t
  | _ => False

/-- A further step joins this tree. -/
def Expr.takesSteps : Expr → Bool
  | .path _ _ | .sub _ _ => true
  | _ => false

/-- What holds of every tree in a parsed one: its names are scanned as one token, its operators have
signs, no step could be joined and no minus folded. -/
def Expr.Parsed : Expr → Prop
  | .lit v => v.Scannable
  | .path root segments => Spells .name root ∧ ∀ s ∈ segments, s.Scannable
  | .sub receiver segments =>
    receiver.takesSteps = false ∧ segments ≠ [] ∧ ∀ s ∈ segments, s.Scannable
  | .bin op _ _ => ∃ n k, Operator n k op
  | .un op operand => (∃ k, Sign k op) ∧ (op = .neg → ∀ n, operand ≠ .lit (.number n))
  | .call name _ => Spells .name name
  | .method _ name _ => ∃ k ∈ memberKinds, Spells k name
  | .foreign _ => False

section

variable {e : Expr}

theorem Expr.extend_of_takesSteps_eq_false (h : e.takesSteps = false) (s : Segment) :
    e.extend s = .sub e [s] := by
  cases e with
  | path root segments => cases h
  | sub receiver segments => cases h
  | _ => rfl

theorem Value.scannable_of_denotes {k : TokenKind} {v : Value} (h : Denotes k v)
    (hwhole : ∀ {n}, k = .int n → (Number.int n).isWritable = true) : v.Scannable := by
  cases h with
  | text s => exact ⟨s, rfl⟩
  | int n => exact hwhole rfl
  | float x => rfl
  | _ => trivial

theorem Expr.parsed_extend (he : ∀ t ∈ e.subtrees, t.Parsed) {s : Segment} (hs : s.Scannable) :
    ∀ t ∈ (e.extend s).subtrees, t.Parsed := by
  by_cases hsteps : e.takesSteps = false
  · rw [extend_of_takesSteps_eq_false hsteps, subtrees]
    exact List.forall_mem_cons.mpr ⟨⟨hsteps, by simp, by simpa using hs⟩, he⟩
  · cases e with
    | path root segments =>
      simp only [extend, subtrees, List.forall_mem_singleton, Parsed] at he ⊢
      exact ⟨he.1, List.forall_mem_append.mpr ⟨he.2, by simpa using hs⟩⟩
    | sub receiver segments =>
      simp only [extend, subtrees, List.forall_mem_cons, Parsed] at he ⊢
      obtain ⟨⟨hreceiver, -, hsegments⟩, hsubtrees⟩ := he
      have happend := List.forall_mem_append.mpr ⟨hsegments, List.forall_mem_singleton.mpr hs⟩
      exact ⟨⟨hreceiver, by simp, happend⟩, hsubtrees⟩
    | _ => exact absurd rfl hsteps

theorem Expr.parsed_negate (he : ∀ t ∈ e.subtrees, t.Parsed) :
    ∀ t ∈ e.negate.subtrees, t.Parsed := by
  by_cases hnumber : ∃ n, e = .lit (.number n)
  · obtain ⟨n, rfl⟩ := hnumber
    simp only [subtrees, List.forall_mem_singleton, Parsed, Value.Scannable] at he
    simpa [negate, subtrees, Parsed, Value.Scannable, Number.isWritable_neg] using he
  · have hne : ∀ n, e ≠ .lit (.number n) := fun n hn => hnumber ⟨n, hn⟩
    rw [negate.eq_2 _ hne, subtrees]
    exact List.forall_mem_cons.mpr ⟨⟨⟨_, .minus⟩, fun _ => hne⟩, he⟩

theorem Parse.law_parsed :
    Parse.Law Respelled (fun e => ∀ t ∈ e.subtrees, t.Parsed) where
  literal ht hv := by
    simpa [Expr.subtrees, Expr.Parsed] using Value.scannable_of_denotes (denotes_iff.mpr hv) ht.whole
  path ht hname := by
    have hspells := ht.member (by rw [hname]; rfl)
    rw [hname] at hspells
    simpa [Expr.subtrees, Expr.Parsed] using hspells
  call ht hname hargs := by
    have hspells := ht.member (by rw [hname]; rfl)
    rw [hname] at hspells
    rw [Expr.subtrees]
    exact List.forall_mem_cons.mpr ⟨hspells, Expr.forall_mem_subtreesAll.mpr hargs⟩
  method he ht hname hargs := by
    rw [Expr.subtrees]
    have hmember := mem_memberKinds_iff.mpr hname
    exact List.forall_mem_cons.mpr ⟨⟨_, hmember, ht.member hname⟩,
      List.forall_mem_append.mpr ⟨he, Expr.forall_mem_subtreesAll.mpr hargs⟩⟩
  key he ht hname := Expr.parsed_extend he ⟨_, mem_memberKinds_iff.mpr hname, ht.member hname⟩
  index he ht hn := Expr.parsed_extend he ⟨Int.natCast_nonneg _, ht.whole hn⟩
  not he := by
    rw [Expr.subtrees]
    exact List.forall_mem_cons.mpr ⟨⟨⟨_, .not⟩, by simp⟩, he⟩
  negate he := Expr.parsed_negate he
  bin _ hop hl hr := by
    rw [Expr.subtrees]
    exact List.forall_mem_cons.mpr ⟨⟨_, _, operator_iff.mpr ⟨hop, rfl⟩⟩,
      List.forall_mem_append.mpr ⟨hl, hr⟩⟩

theorem Expr.parsed_of_parse {text : String} (h : parse text = .ok e) :
    ∀ t ∈ e.subtrees, t.Parsed := by
  exact Parse.law_parsed.parse (fun _ => respelled_of_scan) h

end

/-! ### Printed trees are spelled -/

section

variable {e : Expr} {rest : List Char}

/-- The text of an operator with its spaces. -/
theorem scansTo_operatorText {n : Nat} {k : TokenKind} {op : BinOp} (h : Operator n k op)
    (rest : List Char) :
    ScansTo (IsToken k op.symbol) (' ' :: (op.symbol.toList ++ ' ' :: rest)) rest := by
  have hrest : Apart (' ' :: rest) := apart_cons (by simp) rest
  refine ScansTo.blank_before (ScansTo.blank_behind ?_)
  cases h with
  | or => exact (spells_word 'O' ['R'] rfl rfl).scansTo hrest
  | and => exact (spells_word 'A' ['N', 'D'] rfl rfl).scansTo hrest
  | eq | ne | ge | le => exact scansTo_operator ['='] (by simp [operators]) hrest
  | _ => exact scansTo_operator [] (by simp [operators]) hrest

theorem scansTo_signText {k : TokenKind} {op : UnOp} (h : Sign k op) (rest : List Char) :
    ScansTo (IsToken k op.symbol) (op.symbol.toList ++ ' ' :: rest) rest := by
  refine ScansTo.blank_behind ?_
  cases h with
  | not => exact (spells_word 'N' ['O', 'T'] rfl rfl).scansTo (apart_cons (by simp) rest)
  | minus => exact Mark.minus.scansTo _

theorem spells_literalText {v : Value} (hv : v.Scannable) (hexact : ∀ x, v ≠ .number (.float x))
    (hrest : Apart rest) : SpellsPhrase (.level 0) (.lit v) (v.literalText.toList ++ rest) rest := by
  cases v with
  | null =>
    exact .literal .null ((spells_word 'n' ['u', 'l', 'l'] rfl rfl).scansTo hrest)
  | bool b =>
    cases b with
    | true => exact .literal .true ((spells_word 't' ['r', 'u', 'e'] rfl rfl).scansTo hrest)
    | false =>
      exact .literal .false ((spells_word 'f' ['a', 'l', 's', 'e'] rfl rfl).scansTo hrest)
  | number n =>
    cases n with
    | float x => exact absurd rfl (hexact x)
    | int n =>
      cases n with
      | ofNat n => exact .literal (.int n) (scansTo_digits hv hrest)
      | negSucc n =>
        -- the number is read as a minus over the next natural number, and folded again
        have hnext : (Number.int (n + 1 : Nat)).isWritable = true := hv
        have hdigits := SpellsPhrase.literal (.int (n + 1)) (scansTo_digits hnext hrest)
        have hminus := SpellsPhrase.signed .minus (Mark.minus.scansTo _) hdigits
        have htext : (toString (Int.negSucc n)).toList = '-' :: (toString (n + 1)).toList := by
          rw [show toString (Int.negSucc n) = "-" ++ toString (n + 1) from rfl, String.toList_append]
          rfl
        rw [Value.literalText, Number.toText, htext]
        exact hminus
  | text s =>
    obtain ⟨t, rfl⟩ := hv
    have hquoted := scansTo_quotedText t rest
    rw [Value.literalText, Text.shown_ofString]
    exact .literal (.text t) hquoted
  | _ => exact hv.elim

/-! ### Steps -/

theorem Segment.Scannable.exists_text {s : Segment} (hs : s.Scannable) :
    ∃ c cs, s.text.toList = c :: cs ∧ ∀ rest, Apart (c :: cs ++ rest) := by
  cases s with
  | key name =>
    obtain ⟨k, -, hname⟩ := hs
    obtain ⟨c, cs, hcs, hdigit⟩ := hname.noDigit
    refine ⟨'.', c :: cs, by simp [Segment.text, hcs], fun rest => ?_⟩
    exact apart_dot hdigit (cs ++ rest)
  | index n =>
    refine ⟨'[', (toString n ++ "]").toList, by simp [Segment.text], fun rest => ?_⟩
    exact apart_cons (by simp) _
  | other => exact hs.elim

theorem toList_segmentsText_cons (s : Segment) (segments : List Segment) :
    (Expr.segmentsText (s :: segments)).toList =
      s.text.toList ++ (Expr.segmentsText segments).toList := by
  simp [Expr.segmentsText]

theorem apart_segmentsText {segments : List Segment} (h : ∀ s ∈ segments, s.Scannable)
    (hrest : Apart rest) : Apart ((Expr.segmentsText segments).toList ++ rest) := by
  cases segments with
  | nil => exact hrest
  | cons s segments =>
    obtain ⟨c, cs, htext, hapart⟩ := (h s List.mem_cons_self).exists_text
    rw [toList_segmentsText_cons, htext, List.append_assoc]
    exact hapart _

theorem spells_segmentsText {segments : List Segment} (h : ∀ s ∈ segments, s.Scannable)
    (hrest : Apart rest) :
    SpellsPhrase .steps (fun e => segments.foldl Expr.extend e)
      ((Expr.segmentsText segments).toList ++ rest) rest := by
  induction segments with
  | nil => exact .noSteps rest
  | cons s segments ih =>
    obtain ⟨hs, hsegments⟩ := List.forall_mem_cons.mp h
    have hmore := ih hsegments
    have hapart := apart_segmentsText hsegments hrest
    rw [toList_segmentsText_cons, List.append_assoc]
    cases s with
    | key name =>
      obtain ⟨k, hk, hname⟩ := hs
      have htext : (Segment.key name).text.toList = '.' :: name.toList := by simp [Segment.text]
      rw [htext]
      exact .key hk (hname.scansTo hapart) hmore
    | index n =>
      obtain ⟨hnonneg, hwritable⟩ := hs
      obtain ⟨m, rfl⟩ := Int.eq_ofNat_of_zero_le hnonneg
      have htext : (Segment.index m).text.toList = '[' :: ((toString m).toList ++ [']']) := by
        rw [show (Segment.index m).text = "[" ++ toString m ++ "]" from rfl]
        simp
      rw [htext, List.cons_append, List.append_assoc]
      exact .index hwritable hmore
    | other => exact hs.elim

theorem foldl_extend_path (root : String) (before segments : List Segment) :
    segments.foldl Expr.extend (.path root before) = .path root (before ++ segments) := by
  induction segments generalizing before with
  | nil => simp
  | cons s segments ih => simp [Expr.extend, ih]

theorem foldl_extend_sub (receiver : Expr) (before segments : List Segment) :
    segments.foldl Expr.extend (.sub receiver before) = .sub receiver (before ++ segments) := by
  induction segments generalizing before with
  | nil => simp
  | cons s segments ih => simp [Expr.extend, ih]

theorem foldl_extend {receiver : Expr} {segments : List Segment}
    (hreceiver : receiver.takesSteps = false) (hne : segments ≠ []) :
    segments.foldl Expr.extend receiver = .sub receiver segments := by
  cases segments with
  | nil => exact absurd rfl hne
  | cons s segments =>
    rw [List.foldl_cons, Expr.extend_of_takesSteps_eq_false hreceiver, foldl_extend_sub,
      List.singleton_append]

theorem spells_pathText {root : String} {segments : List Segment} (hroot : Spells .name root)
    (h : ∀ s ∈ segments, s.Scannable) (hrest : Apart rest) :
    SpellsPhrase (.level 0) (.path root segments)
      ((Expr.pathText root segments).toList ++ rest) rest := by
  have hname := SpellsPhrase.path (hroot.scansTo (apart_segmentsText h hrest))
  have hphrase := hname.stepped (spells_segmentsText h hrest)
  rw [foldl_extend_path, List.nil_append] at hphrase
  rw [Expr.pathText, String.toList_append, List.append_assoc]
  exact hphrase

/-! ### Whole trees -/

theorem Grammar.Operator.exists_succ {n : Nat} {k : TokenKind} {op : BinOp} (h : Operator n k op) :
    ∃ m, n = m + 1 ∧ m + 1 ≤ 6 := by
  cases h <;> exact ⟨_, rfl, by decide⟩

theorem Expr.fold_eq_un {op : UnOp} (h : op = .neg → ∀ n, e ≠ .lit (.number n)) :
    Expr.fold op e = .un op e := by
  cases op with
  | neg => exact Expr.fold.eq_2 _ _ fun n _ hn => h rfl n hn
  | _ => rfl

/-- Behind an argument stands a comma or the closing parenthesis. -/
theorem apart_printMore (es : List Expr) (rest : List Char) :
    Apart ((Expr.printMore es).toList ++ ')' :: rest) := by
  cases es with
  | nil => exact apart_cons (by simp) rest
  | cons e es =>
    have hcomma := apart_cons (c := ',') (by simp)
      (' ' :: (e.print.toList ++ ((Expr.printMore es).toList ++ ')' :: rest)))
    simpa [Expr.printMore] using hcomma

/-- Every tree in this one is as the parser makes it, and none is a binary64 literal. -/
def Expr.Printable (e : Expr) : Prop :=
  ∀ t ∈ e.subtrees, t.Parsed ∧ ∀ x, t ≠ .lit (.number (.float x))

theorem Expr.Printable.mono {e e' : Expr} (h : e.Printable)
    (hsub : ∀ t ∈ e'.subtrees, t ∈ e.subtrees) : e'.Printable :=
  fun t ht => h t (hsub t ht)

theorem Expr.Printable.args {e : Expr} (h : e.Printable) {es : List Expr}
    (hsub : ∀ t ∈ Expr.subtreesAll es, t ∈ e.subtrees) : ∀ a ∈ es, a.Printable :=
  Expr.forall_mem_subtreesAll.mp fun t ht => h t (hsub t ht)

mutual

theorem spells_print : ∀ (e : Expr), e.Printable → ∀ {rest : List Char}, Apart rest →
    SpellsPhrase (.level 0) e (e.print.toList ++ rest) rest
  | .lit v, h, rest, hrest => by
    obtain ⟨hv, hexact⟩ := h _ List.mem_cons_self
    exact spells_literalText hv (fun x hx => hexact x (by rw [hx])) hrest
  | .path root segments, h, rest, hrest => by
    obtain ⟨⟨hroot, hsegments⟩, -⟩ := h _ List.mem_cons_self
    exact spells_pathText hroot hsegments hrest
  | .sub receiver segments, h, rest, hrest => by
    obtain ⟨⟨hsteps, hne, hsegments⟩, -⟩ := h _ List.mem_cons_self
    have hreceiver := spells_print receiver (h.mono (by simp +contextual [Expr.subtrees]))
      (apart_cons (c := ')') (by simp) ((Expr.segmentsText segments).toList ++ rest))
    have hphrase := (hreceiver.lift (Nat.zero_le 6)).group.stepped
      (spells_segmentsText hsegments hrest)
    rw [foldl_extend hsteps hne] at hphrase
    simpa [Expr.print] using hphrase
  | .bin op left right, h, rest, hrest => by
    obtain ⟨⟨n, k, hop⟩, -⟩ := h _ List.mem_cons_self
    obtain ⟨m, rfl, hm⟩ := hop.exists_succ
    have hright := spells_print right (h.mono (by simp +contextual [Expr.subtrees]))
      (apart_cons (c := ')') (by simp) rest)
    have hsign := scansTo_operatorText hop (right.print.toList ++ ')' :: rest)
    have hleft := spells_print left (h.mono (by simp +contextual [Expr.subtrees]))
      (apart_cons (c := ' ') (by simp)
        (op.symbol.toList ++ ' ' :: (right.print.toList ++ ')' :: rest)))
    have hjoined := SpellsPhrase.binary hop (hleft.lift (Nat.zero_le m)) hsign
      (hright.lift (Nat.zero_le m))
    have hphrase := (hjoined.lift hm).group.operand
    simpa [Expr.print] using hphrase
  | .un op operand, h, rest, hrest => by
    obtain ⟨⟨⟨k, hop⟩, hfold⟩, -⟩ := h _ List.mem_cons_self
    have hoperand := spells_print operand (h.mono (by simp +contextual [Expr.subtrees]))
      (apart_cons (c := ')') (by simp) rest)
    have hsign := scansTo_signText hop (operand.print.toList ++ ')' :: rest)
    have hsigned := SpellsPhrase.signed hop hsign hoperand
    rw [Expr.fold_eq_un hfold] at hsigned
    have hphrase := (hsigned.lift (Nat.zero_le 6)).group.operand
    simpa [Expr.print] using hphrase
  | .call name args, h, rest, hrest => by
    obtain ⟨hname, -⟩ := h _ List.mem_cons_self
    have hargs := spells_printAll args (h.args (by simp +contextual [Expr.subtrees])) rest
    have hcall := SpellsPhrase.call (hname.scansTo (apart_cons (by simp) _)) hargs
    simpa [Expr.print] using hcall.operand
  | .method receiver name args, h, rest, hrest => by
    obtain ⟨⟨k, hk, hname⟩, -⟩ := h _ List.mem_cons_self
    have hargs := spells_printAll args (h.args (by simp +contextual [Expr.subtrees])) rest
    have hmethod := SpellsPhrase.method hk (hname.scansTo (apart_cons (by simp) _)) hargs
      (.noSteps rest)
    have hreceiver := spells_print receiver (h.mono (by simp +contextual [Expr.subtrees]))
      (apart_cons (c := ')') (by simp)
        ('.' :: (name.toList ++ '(' :: ((Expr.printAll args).toList ++ ')' :: rest))))
    have hphrase := (hreceiver.lift (Nat.zero_le 6)).group.stepped hmethod
    simpa [Expr.print] using hphrase
  | .foreign typeName, h, rest, hrest => (h _ List.mem_cons_self).1.elim

theorem spells_printAll : ∀ (es : List Expr), (∀ e ∈ es, e.Printable) → ∀ (rest : List Char),
    SpellsPhrase .args es ((Expr.printAll es).toList ++ ')' :: rest) (')' :: rest)
  | [], _, rest => .noArgs _
  | e :: es, h, rest => by
    obtain ⟨he, hes⟩ := List.forall_mem_cons.mp h
    have hmore := spells_printMore es hes rest
    have hfirst := spells_print e he (apart_printMore es rest)
    have hargs := SpellsPhrase.someArgs (hfirst.lift (Nat.zero_le 6)) hmore
    rwa [Expr.printAll, String.toList_append, List.append_assoc]

theorem spells_printMore : ∀ (es : List Expr), (∀ e ∈ es, e.Printable) → ∀ (rest : List Char),
    SpellsPhrase .moreArgs es ((Expr.printMore es).toList ++ ')' :: rest) (')' :: rest)
  | [], _, rest => .noMoreArgs _
  | e :: es, h, rest => by
    obtain ⟨he, hes⟩ := List.forall_mem_cons.mp h
    have hmore := spells_printMore es hes rest
    have hnext := spells_print e he (apart_printMore es rest)
    have hargs := SpellsPhrase.moreArgs (hnext.lift (Nat.zero_le 6)) hmore
    simpa [Expr.printMore] using hargs

end

end

/-! ### Printing and parsing -/

/-- What is scanned as a phrase is parsed to its tree. -/
theorem parse_of_spells {n : Nat} {e : Expr} {s : String} (hn : n ≤ 6)
    (h : SpellsPhrase (.level n) e (s.toList ++ []) []) : parse s = .ok e := by
  obtain ⟨position, _, ⟨d, rfl, rfl⟩, hscan⟩ := h.lift hn 0
  rw [List.append_nil, scanFrom] at hscan
  refine (parse_eq_ok_iff ?_).mpr ⟨d, rfl, rfl⟩
  rw [Token.scan, hscan]
  exact congrArg Except.ok (List.append_nil d.tokens)

/-- A parsed tree without binary64 literals is parsed again from its printed form. Each path in a parsed
tree is parsed again from its text. -/
theorem parse_print {text : String} {e : Expr} (h : parse text = .ok e) :
    ((∀ x, .lit (.number (.float x)) ∉ e.subtrees) → parse e.print = .ok e) ∧
      ∀ root segments, .path root segments ∈ e.subtrees →
        parse (Expr.pathText root segments) = .ok (.path root segments) := by
  have hparsed := Expr.parsed_of_parse h
  constructor
  · intro hexact
    refine parse_of_spells (Nat.zero_le 6) (spells_print e (fun t ht => ⟨hparsed t ht, ?_⟩) apart_nil)
    rintro x rfl
    exact hexact x ht
  · intro root segments hpath
    obtain ⟨hroot, hsegments⟩ := hparsed _ hpath
    exact parse_of_spells (Nat.zero_le 6) (spells_pathText hroot hsegments apart_nil)

/-- A keyword that is a key, a minus over a method of a number, a quote in a text and a negative number. -/
def negatedMethod : Expr :=
  .bin .sub (.path "flags" [.key "not", .index 0])
    (.un .neg (.method (.lit (.number (.int 2))) "plus"
      [.lit (.text "\""), .lit (.number (.int (-3)))]))

theorem parse_print_negatedMethod :
    parse "flags.not[0] - -2.plus('\"', -3)" = .ok negatedMethod ∧
      negatedMethod.print = "(flags.not[0] - (- (2).plus(\"\\\"\", -3)))" ∧
      parse negatedMethod.print = .ok negatedMethod ∧
      parse (Expr.pathText "flags" [.key "not", .index 0]) =
        .ok (.path "flags" [.key "not", .index 0]) := by
  have hparse : parse "flags.not[0] - -2.plus('\"', -3)" = .ok negatedMethod := by
    with_unfolding_all rfl
  have hprint : negatedMethod.print = "(flags.not[0] - (- (2).plus(\"\\\"\", -3)))" := by
    decide +kernel
  have hexact : ∀ x, .lit (.number (.float x)) ∉ negatedMethod.subtrees := by
    simp [negatedMethod, Expr.subtrees, Expr.subtreesAll]
  have hpath : .path "flags" [.key "not", .index 0] ∈ negatedMethod.subtrees := by
    simp [negatedMethod, Expr.subtrees]
  obtain ⟨htree, hpaths⟩ := parse_print hparse
  exact ⟨hparse, hprint, htree hexact, hpaths _ _ hpath⟩

end Rulebook
