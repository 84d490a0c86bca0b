import Rulebook.Proofs.Printing

set_option autoImplicit false

/-!
Names in parsed trees. A path starts with an identifier and a call is named by one, and neither is a keyword.
A key and a method are named by any token of a kind that keywords have: this is an identifier, but it can also
be the sign of a logical operator.
-/

namespace Rulebook

open Grammar Token Text

/-! ### Identifiers -/

/-- A letter or underscore, then letters, digits and underscores. -/
def Identifier (s : String) : Prop :=
  ∃ c a, s.toList = c :: a ∧ isWordStart c = true ∧ ∀ d ∈ a, isWordChar d = true

def keywords : List String := ["and", "or", "not", "true", "false", "null"]

/-- A keyword in any letter case. -/
def IsKeyword (s : String) : Prop := s.toLower ∈ keywords

instance (s : String) : Decidable (IsKeyword s) := inferInstanceAs (Decidable (s.toLower ∈ keywords))

theorem isWordStart_of_toLower {c : Char} (h : isWordStart c.toLower = true) : isWordStart c = true := by
  by_cases hupper : 65 ≤ c.toNat ∧ c.toNat ≤ 90
  · have hletter : isLetter c = true := by
      unfold isLetter letterRanges
      rw [Ranges.contains, if_neg (by omega), decide_eq_true hupper.2, Bool.true_or]
    rw [isWordStart, hletter, Bool.true_or]
  · have hsame : c.toLower = c := dif_neg (by simpa [UInt32.le_iff_toNat_le] using hupper)
    rwa [hsame] at h

theorem toList_toLower (s : String) : s.toLower.toList = s.toList.map Char.toLower :=
  String.toList_map

theorem keywords_words : keywords.all (fun w => w != "" && w.toList.all isWordStart) = true := by
  decide +kernel

/-- Only letters have the letters of a keyword as their lower case. -/
theorem IsKeyword.identifier {s : String} (h : IsKeyword s) : Identifier s := by
  have hwords := List.all_eq_true.mp keywords_words _ h
  simp only [Bool.and_eq_true, bne_iff_ne, List.all_eq_true] at hwords
  obtain ⟨hne, hword⟩ := hwords
  have hstart : ∀ c ∈ s.toList, isWordStart c = true := by
    intro c hc
    refine isWordStart_of_toLower (hword _ ?_)
    rw [toList_toLower]
    exact List.mem_map_of_mem hc
  have hs : s.toList ≠ [] := by
    intro hnil
    apply hne
    rw [← String.toList_inj, toList_toLower, hnil]
    rfl
  obtain ⟨c, a, htext⟩ := List.exists_cons_of_ne_nil hs
  rw [htext] at hstart
  obtain ⟨hc, ha⟩ := List.forall_mem_cons.mp hstart
  exact ⟨c, a, htext, hc, fun d hd => isWordChar_of_isWordStart (ha d hd)⟩

namespace Token

theorem ofList_map_toLower (s : String) : String.ofList (s.toList.map Char.toLower) = s.toLower := by
  rw [← toList_toLower, String.ofList_toList]

theorem wordKind_eq_name_iff {s : String} : wordKind s.toList = .name ↔ ¬ IsKeyword s := by
  rw [wordKind, ofList_map_toLower, IsKeyword, keywords]
  split <;> simp_all

theorem spells_identifier {s : String} (h : Identifier s) : Spells (wordKind s.toList) s := by
  obtain ⟨c, a, htext, hc, ha⟩ := h
  have hspells := spells_word c a hc (List.all_eq_true.mpr ha)
  rwa [← htext, String.ofList_toList] at hspells

theorem spells_keyword {s w : String} (h : s.toLower = w.toLower) (hw : IsKeyword w) :
    Spells (wordKind w.toList) s := by
  have hs : IsKeyword s := by rwa [IsKeyword, h]
  have hkind : wordKind s.toList = wordKind w.toList := by simp only [wordKind, ofList_map_toLower, h]
  exact hkind ▸ spells_identifier hs.identifier

/-- The operators that share their kind with a keyword. -/
theorem operators_namesMember : operators.filter (fun o => o.2.namesMember) =
    [(['&', '&'], .and), (['|', '|'], .or), (['!'], .not)] :=
  rfl

theorem Spells.formed {k : TokenKind} {s : String} (h : Spells k s) :
    ∃ c a b, s.toList = c :: a ∧ Lexeme c a k b := by
  obtain ⟨_, _, ⟨position, rfl⟩, hscan⟩ := h.scansTo apart_nil 0
  rw [List.append_nil, scanFrom] at hscan
  exact (scans_of_scanFrom hscan).formed _ List.mem_cons_self

theorem Spells.identifier_or_sign {k : TokenKind} {s : String} (h : Spells k s)
    (hk : k.namesMember = true) :
    (Identifier s ∧ wordKind s.toList = k) ∨
      (s.toList, k) ∈ [(['&', '&'], .and), (['|', '|'], .or), (['!'], .not)] := by
  obtain ⟨c, a, b, htext, hlexeme⟩ := h.formed
  rw [htext]
  cases hlexeme with
  | number => rw [NumberLiteral.namesMember_kind] at hk; cases hk
  | text => cases hk
  | word hc ha _ => exact .inl ⟨⟨c, a, htext, hc, ha⟩, rfl⟩
  | operator hop =>
    rw [← operators_namesMember]
    exact .inr (List.mem_filter.mpr ⟨hop.1, hk⟩)

theorem Spells.identifier {s : String} (h : Spells .name s) : Identifier s ∧ ¬ IsKeyword s := by
  rcases h.identifier_or_sign rfl with ⟨hs, hkind⟩ | hsign
  · exact ⟨hs, wordKind_eq_name_iff.mp hkind⟩
  · simp at hsign

end Token

/-! ### Names -/

/-- A key that has this property, or no key. -/
def Segment.Named (member : String → Prop) : Segment → Prop
  | .key name => member name
  | _ => True

/-- In this tree by itself, roots and functions have the first property, keys and methods the second one. -/
def Expr.Named (root member : String → Prop) : Expr → Prop
  | .path name segments => root name ∧ ∀ s ∈ segments, s.Named member
  | .sub _ segments => ∀ s ∈ segments, s.Named member
  | .call name _ => root name
  | .method _ name _ => member name
  | _ => True

/-- An identifier, keywords included, or a logical operator that is not a word. -/
def MemberName (s : String) : Prop := Identifier s ∨ s ∈ ["&&", "||", "!"]

theorem Token.Spells.memberName {k : TokenKind} {s : String} (h : Spells k s) (hk : k ∈ memberKinds) :
    MemberName s := by
  rcases h.identifier_or_sign (mem_memberKinds_iff.mp hk) with ⟨hs, -⟩ | hsign
  · exact .inl hs
  · rw [← String.ofList_toList (s := s)]
    simp only [List.mem_cons, Prod.mk.injEq, List.not_mem_nil, or_false] at hsign
    rcases hsign with ⟨htext, -⟩ | ⟨htext, -⟩ | ⟨htext, -⟩ <;> rw [htext] <;> exact .inr (by decide)

theorem Segment.Scannable.named {s : Segment} (h : s.Scannable) : s.Named MemberName := by
  cases s with
  | key name =>
    obtain ⟨k, hk, hname⟩ := h
    exact hname.memberName hk
  | _ => trivial

theorem Expr.Parsed.named {t : Expr} (h : t.Parsed) :
    t.Named (fun s => Identifier s ∧ ¬ IsKeyword s) MemberName := by
  cases t with
  | path root segments => exact ⟨h.1.identifier, fun s hs => (h.2 s hs).named⟩
  | sub receiver segments => exact fun s hs => (h.2.2 s hs).named
  | call name args => exact h.identifier
  | method receiver name args =>
    obtain ⟨k, hk, hname⟩ := h
    exact hname.memberName hk
  | _ => trivial

/-- In a parsed tree every root of a path and every function is an identifier and no keyword. Every key and
every method is an identifier or one of three signs. -/
theorem named_of_parse {text : String} {e : Expr} (h : parse text = .ok e) :
    ∀ t ∈ e.subtrees, t.Named (fun s => Identifier s ∧ ¬ IsKeyword s) MemberName :=
  fun t ht => (Expr.parsed_of_parse h t ht).named

/-- A keyword as a key, and a sign as another one. -/
def keywordKey : Expr :=
  .call "max" [.path "_a" [.key "OR", .index 0], .path "b" [.key "!"]]

theorem named_of_parse_keywordKey :
    parse "max(_a.OR[0], b.!)" = .ok keywordKey ∧
      ∀ t ∈ keywordKey.subtrees, t.Named (fun s => Identifier s ∧ ¬ IsKeyword s) MemberName := by
  have hparse : parse "max(_a.OR[0], b.!)" = .ok keywordKey := by with_unfolding_all rfl
  exact ⟨hparse, named_of_parse hparse⟩

theorem not_identifier_sign : ¬ Identifier "!" := by
  rintro ⟨c, a, htext, hc, -⟩
  obtain ⟨rfl, -⟩ := List.cons.inj htext
  exact absurd hc (by decide)

/-- A sign is a key that is no identifier. -/
theorem not_always_identifiers : ¬ ∀ text e, parse text = .ok e →
    ∀ t ∈ e.subtrees, t.Named (fun s => Identifier s ∧ ¬ IsKeyword s) Identifier := by
  intro h
  have hparse : parse "a.!" = .ok (.path "a" [.key "!"]) := by with_unfolding_all rfl
  obtain ⟨-, hkeys⟩ := h _ _ hparse _ List.mem_cons_self
  exact not_identifier_sign (hkeys _ List.mem_cons_self)

end Rulebook
