import Mathlib.Data.List.Nodup
import Rulebook.Proofs.Entries
import Rulebook.Proofs.Escapes

set_option autoImplicit false

/-!
Documents of texts, lists and objects: the indented text of such a document is read as the document.
-/

namespace Rulebook

namespace Json

open Text

/-- Documents in which every object has distinct names and no name has two halves of a pair side by side. -/
inductive Regular (leaf : Json → Prop) : Json → Prop
  | leaf {v : Json} : leaf v → Regular leaf v
  | arr {items : List Json} : (∀ v ∈ items, Regular leaf v) → Regular leaf (.arr items)
  | obj {members : List (Text × Json)} : (Entries.keys members).Nodup →
      (∀ m ∈ members, m.1.Unpaired) → (∀ m ∈ members, Regular leaf m.2) → Regular leaf (.obj members)

/-- A text that is read as it is written. -/
inductive IsText : Json → Prop
  | str {s : Text} : s.Unpaired → IsText (.str s)

/-! ### Space -/

theorem skip_cons_of_not_space {p : CodePoint} (h : isSpace p = false) (s : Text) :
    skip (p :: s) = p :: s := by
  rw [skip, List.dropWhile_cons, h]
  rfl

theorem skip_newline (depth : Nat) (s : Text) : skip (ofString (newline depth) ++ s) = skip s := by
  have hspaces : ∀ n, skip (ofChars (List.replicate n ' ') ++ s) = skip s := by
    intro n
    induction n with
    | zero => rfl
    | succ n ih => exact ih
  simp only [newline, ofString_append, ofString_ofList, List.append_assoc]
  exact hspaces (2 * depth)

/-! ### The text of a document -/

theorem ofString_quote (s : Text) :
    ofString (quote true s) =
      .char '"' :: (ofChars (s.flatMap (escape true)) ++ [.char '"']) := by
  simp only [quote, ofString_append, ofString_ofList]
  rfl

/-- Items on lines of their own. -/
def lines (depth : Nat) (items : List String) : Text :=
  ofString (("," ++ newline depth).intercalate items)

theorem lines_singleton (depth : Nat) (item : String) : lines depth [item] = ofString item := by
  rw [lines, String.intercalate_singleton]

theorem lines_cons_cons (depth : Nat) (first next : String) (more : List String) :
    lines depth (first :: next :: more) =
      ofString first ++ .char ',' :: (ofString (newline depth) ++ lines depth (next :: more)) := by
  rw [lines, String.intercalate_cons_cons]
  simp only [ofString_append, List.append_assoc]
  rfl

theorem ofString_bracketed (opening closing : Char) (depth : Nat) (first : String) (more : List String) :
    ofString (bracketed (String.ofList [opening]) (String.ofList [closing]) depth (first :: more)) =
      .char opening :: (ofString (newline (depth + 1)) ++ (lines (depth + 1) (first :: more) ++
        (ofString (newline depth) ++ [.char closing]))) := by
  rw [bracketed, lines]
  simp only [List.isEmpty_cons, Bool.false_eq_true, if_false, ofString_append, ofString_ofList,
    List.append_assoc]
  rfl

theorem ofString_bracketed_nil (opening closing : Char) (depth : Nat) :
    ofString (bracketed (String.ofList [opening]) (String.ofList [closing]) depth []) =
      [.char opening, .char closing] := by
  simp only [bracketed, List.isEmpty_nil, if_true, ofString_append, ofString_ofList]
  rfl

/-- A text that starts with a quote or an opening bracket. -/
def Opens (s : Text) : Prop := ∃ c ∈ ['"', '[', '\x7b'], ∃ t, s = .char c :: t

theorem Opens.append {s : Text} (h : Opens s) (t : Text) : Opens (s ++ t) := by
  obtain ⟨c, hc, u, rfl⟩ := h
  exact ⟨c, hc, u ++ t, rfl⟩

theorem Opens.skip_eq {s : Text} (h : Opens s) : skip s = s := by
  obtain ⟨c, hc, u, rfl⟩ := h
  have hspace : ∀ c ∈ ['"', '[', '\x7b'], isSpace (.char c) = false := by
    simp [isSpace, CodePoint.isA]
  exact skip_cons_of_not_space (hspace c hc) u

theorem Opens.ne_cons {s : Text} (h : Opens s) {c : Char} (hc : c ∉ ['"', '[', '\x7b']) (t : Text) :
    s ≠ .char c :: t := by
  obtain ⟨d, hd, u, rfl⟩ := h
  rintro heq
  cases heq
  exact hc hd

theorem opens_indentedAt {v : Json} (h : Regular IsText v) (depth : Nat) :
    Opens (ofString (v.indentedAt depth)) := by
  cases h with
  | leaf h =>
    cases h with
    | str h => exact ⟨'"', by decide, _, by rw [indentedAt, ofString_quote]⟩
  | @arr items h =>
    rw [indentedAt]
    cases items with
    | nil => exact ⟨'[', by decide, _, ofString_bracketed_nil '[' ']' _⟩
    | cons v vs => exact ⟨'[', by decide, _, ofString_bracketed '[' ']' _ _ _⟩
  | @obj members hkeys hnames h =>
    rw [indentedAt]
    cases members with
    | nil => exact ⟨'\x7b', by decide, _, ofString_bracketed_nil '\x7b' '\x7d' _⟩
    | cons m ms => exact ⟨'\x7b', by decide, _, ofString_bracketed '\x7b' '\x7d' _ _ _⟩

theorem opens_lines {first : String} (h : Opens (ofString first)) (depth : Nat) (more : List String) :
    Opens (lines depth (first :: more)) := by
  cases more with
  | nil => rwa [lines_singleton]
  | cons next more =>
    rw [lines_cons_cons]
    exact h.append _

/-! ### Reading a document -/

section

variable {s t u rest : Text}

theorem reads_str (h : Reads (readText s) t rest) : Reads (readValue (.char '"' :: s)) (.str t) rest := by
  rw [readValue]
  exact reads_bind h fun _ => reads_ok _

theorem reads_emptyList (h : skip s = .char ']' :: rest) :
    Reads (readValue (.char '[' :: s)) (.arr []) rest := by
  rw [readValue]
  split <;> simp_all [reads_ok]

theorem reads_list {items : List Json} (hskip : skip s = t) (hopens : Opens t)
    (h : Reads (readItems t) items rest) : Reads (readValue (.char '[' :: s)) (.arr items) rest := by
  subst hskip
  rw [readValue]
  split
  · next heq => exact absurd heq (hopens.ne_cons (by decide) _)
  · next heq =>
    rw [heq] at h
    exact reads_bind h fun _ => reads_ok _
  · next heq =>
    obtain ⟨c, -, u, hu⟩ := hopens
    rw [hu] at heq
    cases heq

theorem reads_lastItem {v : Json} (h : Reads (readValue s) v t) (hskip : skip t = .char ']' :: rest) :
    Reads (readItems s) [v] rest := by
  rw [readItems]
  refine reads_bind h fun _ => ?_
  dsimp only
  split
  · next heq =>
    obtain ⟨-, rfl⟩ := List.cons.inj (hskip.symm.trans heq)
    exact reads_ok _
  · simp_all
  · simp_all

theorem reads_nextItem {v : Json} {vs : List Json} (h : Reads (readValue s) v t)
    (hskip : skip t = .char ',' :: u) (hmore : Reads (readItems (skip u)) vs rest) :
    Reads (readItems s) (v :: vs) rest := by
  rw [readItems]
  refine reads_bind h fun _ => ?_
  dsimp only
  split
  · simp_all
  · next heq =>
    obtain ⟨-, rfl⟩ := List.cons.inj (hskip.symm.trans heq)
    exact reads_bind hmore fun _ => reads_ok _
  · simp_all

theorem reads_emptyObject (h : skip s = .char '\x7d' :: rest) :
    Reads (readValue (.char '\x7b' :: s)) (.obj []) rest := by
  rw [readValue]
  split <;> simp_all [reads_ok]

theorem reads_object {members : List (Text × Json)} (hskip : skip s = t) (hopens : Opens t)
    (h : Reads (readMembers [] t) members rest) :
    Reads (readValue (.char '\x7b' :: s)) (.obj members) rest := by
  subst hskip
  rw [readValue]
  split
  · next heq => exact absurd heq (hopens.ne_cons (by decide) _)
  · next heq =>
    rw [heq] at h
    exact reads_bind h fun _ => reads_ok _
  · next heq =>
    obtain ⟨c, -, u, hu⟩ := hopens
    rw [hu] at heq
    cases heq

variable {before members : List (Text × Json)} {key : Text} {v : Json} {t₁ t₂ t₃ : Text}

theorem reads_lastMember (hkey : Reads (readText s) key t₁) (hcolon : skip t₁ = .char ':' :: t₂)
    (hvalue : Reads (readValue (skip t₂)) v t₃) (hclose : skip t₃ = .char '\x7d' :: rest) :
    Reads (readMembers before (.char '"' :: s)) (Entries.put before key v) rest := by
  rw [readMembers]
  refine reads_bind hkey fun _ => ?_
  dsimp only
  split
  · next heq =>
    obtain ⟨-, rfl⟩ := List.cons.inj (hcolon.symm.trans heq)
    refine reads_bind hvalue fun _ => ?_
    dsimp only
    split
    · next heq =>
      obtain ⟨-, rfl⟩ := List.cons.inj (hclose.symm.trans heq)
      exact reads_ok _
    · simp_all
    · simp_all
  · simp_all

theorem reads_nextMember (hkey : Reads (readText s) key t₁) (hcolon : skip t₁ = .char ':' :: t₂)
    (hvalue : Reads (readValue (skip t₂)) v t₃) (hcomma : skip t₃ = .char ',' :: u)
    (hmore : Reads (readMembers (Entries.put before key v) (skip u)) members rest) :
    Reads (readMembers before (.char '"' :: s)) members rest := by
  rw [readMembers]
  refine reads_bind hkey fun _ => ?_
  dsimp only
  split
  · next heq =>
    obtain ⟨-, rfl⟩ := List.cons.inj (hcolon.symm.trans heq)
    refine reads_bind hvalue fun _ => ?_
    dsimp only
    split
    · simp_all
    · next heq =>
      obtain ⟨-, rfl⟩ := List.cons.inj (hcomma.symm.trans heq)
      exact reads_bind hmore fun _ => reads_ok _
    · simp_all
  · simp_all

end

/-! ### Reading what is written -/

/-- The text of a document is read up to its end. -/
def ReadsBack (v : Json) : Prop :=
  ∀ depth rest, Reads (readValue (ofString (v.indentedAt depth) ++ rest)) v rest

theorem reads_indentedItems {first : Json} {more : List Json}
    (hregular : ∀ v ∈ first :: more, Regular IsText v) (hread : ∀ v ∈ first :: more, ReadsBack v)
    (depth : Nat) {s rest : Text} (hs : skip s = .char ']' :: rest) :
    Reads (readItems (lines depth (indentedItems depth (first :: more)) ++ s)) (first :: more) rest := by
  induction more generalizing first with
  | nil =>
    rw [indentedItems, indentedItems, lines_singleton]
    exact reads_lastItem (hread first (by simp) depth _) hs
  | cons next more ih =>
    obtain ⟨hfirst, hmore⟩ := List.forall_mem_cons.mp hread
    have hnext := (List.forall_mem_cons.mp hregular).2
    have hopens : Opens (lines depth (indentedItems depth (next :: more))) :=
      opens_lines (opens_indentedAt (hnext next (by simp)) depth) _ _
    rw [indentedItems, indentedItems, lines_cons_cons, ← indentedItems, List.append_assoc,
      List.cons_append, List.append_assoc]
    refine reads_nextItem (hfirst depth _) (skip_cons_of_not_space rfl _) ?_
    rw [skip_newline, (hopens.append s).skip_eq]
    exact ih hnext hmore

theorem ofString_member (depth : Nat) (k : Text) (v : Json) (s : Text) :
    ofString (quote true k ++ ": " ++ v.indentedAt depth) ++ s =
      .char '"' :: (ofChars (k.flatMap (escape true)) ++
        .char '"' :: .char ':' :: .char ' ' :: (ofString (v.indentedAt depth) ++ s)) := by
  simp only [ofString_append, ofString_quote, List.cons_append, List.append_assoc]
  rfl

theorem opens_member (depth : Nat) (m : Text × Json) :
    Opens (ofString (quote true m.1 ++ ": " ++ m.2.indentedAt depth)) := by
  have h := ofString_member depth m.1 m.2 []
  rw [List.append_nil] at h
  exact ⟨'"', by decide, _, h⟩

theorem reads_memberValue {v : Json} (h : Regular IsText v) (hread : ReadsBack v) (depth : Nat)
    (s : Text) :
    Reads (readValue (skip (.char ' ' :: (ofString (v.indentedAt depth) ++ s)))) v s := by
  have hskip : skip (.char ' ' :: (ofString (v.indentedAt depth) ++ s)) =
      ofString (v.indentedAt depth) ++ s := ((opens_indentedAt h depth).append s).skip_eq
  rw [hskip]
  exact hread depth s

theorem not_mem_keys_of_nodup {before more : List (Text × Json)} {k : Text} {v : Json}
    (h : (Entries.keys (before ++ (k, v) :: more)).Nodup) : k ∉ Entries.keys before := by
  intro hk
  rw [Entries.keys, List.map_append] at h
  exact (List.nodup_append.mp h).2.2 k hk k (by simp) rfl

theorem reads_indentedMembers (before : List (Text × Json)) {first : Text × Json}
    {more : List (Text × Json)}
    (hkeys : (Entries.keys (before ++ first :: more)).Nodup)
    (hnames : ∀ m ∈ first :: more, m.1.Unpaired)
    (hregular : ∀ m ∈ first :: more, Regular IsText m.2) (hread : ∀ m ∈ first :: more, ReadsBack m.2)
    (depth : Nat) {s rest : Text} (hs : skip s = .char '\x7d' :: rest) :
    Reads (readMembers before (lines depth (indentedMembers depth (first :: more)) ++ s))
      (before ++ first :: more) rest := by
  induction more generalizing first before with
  | nil =>
    obtain ⟨k, v⟩ := first
    have hname : k.Unpaired := hnames (k, v) (by simp)
    have hvalue := reads_memberValue (hregular (k, v) (by simp)) (hread (k, v) (by simp)) depth s
    rw [indentedMembers, indentedMembers, lines_singleton, ofString_member,
      ← Entries.put_of_not_mem (not_mem_keys_of_nodup hkeys)]
    exact reads_lastMember (reads_escaped hname) (skip_cons_of_not_space rfl _) hvalue hs
  | cons next more ih =>
    obtain ⟨k, v⟩ := first
    obtain ⟨hname, hnames⟩ := List.forall_mem_cons.mp hnames
    obtain ⟨hfirst, hregular⟩ := List.forall_mem_cons.mp hregular
    obtain ⟨hvalue, hread⟩ := List.forall_mem_cons.mp hread
    have hopens : Opens (lines depth (indentedMembers depth (next :: more))) :=
      opens_lines (opens_member depth next) _ _
    rw [List.append_cons] at hkeys ⊢
    have hmore := ih _ hkeys hnames hregular hread
    rw [← Entries.put_of_not_mem (not_mem_keys_of_nodup (by simpa using hkeys))] at hmore ⊢
    rw [indentedMembers, indentedMembers, lines_cons_cons, ← indentedMembers, List.append_assoc,
      List.cons_append, List.append_assoc, ofString_member]
    refine reads_nextMember (reads_escaped hname) (skip_cons_of_not_space rfl _)
      (reads_memberValue hfirst hvalue depth _) (skip_cons_of_not_space rfl _) ?_
    rw [skip_newline, (hopens.append s).skip_eq]
    exact hmore

theorem readsBack {v : Json} (h : Regular IsText v) : ReadsBack v := by
  induction h with
  | leaf h =>
    cases h with
    | str hs =>
      intro depth rest
      rw [indentedAt, ofString_quote, List.cons_append, List.append_assoc]
      exact reads_str (reads_escaped hs)
  | @arr items hitems ih =>
    intro depth rest
    cases items with
    | nil =>
      rw [indentedAt, indentedItems, ofString_bracketed_nil '[' ']']
      exact reads_emptyList (skip_cons_of_not_space rfl _)
    | cons first more =>
      have hopens : Opens (lines (depth + 1) (indentedItems (depth + 1) (first :: more))) :=
        opens_lines (opens_indentedAt (hitems first (by simp)) (depth + 1)) _ _
      rw [indentedAt, indentedItems, ofString_bracketed '[' ']', ← indentedItems, List.cons_append,
        List.append_assoc, List.append_assoc, List.append_assoc]
      refine reads_list (skip_newline _ _) ?_ ?_
      · rw [(hopens.append _).skip_eq]
        exact hopens.append _
      · rw [(hopens.append _).skip_eq]
        refine reads_indentedItems hitems ih (depth + 1) ?_
        rw [skip_newline]
        exact skip_cons_of_not_space rfl _
  | @obj members hkeys hnames hmembers ih =>
    intro depth rest
    cases members with
    | nil =>
      rw [indentedAt, indentedMembers, ofString_bracketed_nil '\x7b' '\x7d']
      exact reads_emptyObject (skip_cons_of_not_space rfl _)
    | cons first more =>
      have hopens : Opens (lines (depth + 1) (indentedMembers (depth + 1) (first :: more))) :=
        opens_lines (opens_member (depth + 1) first) _ _
      rw [indentedAt, indentedMembers, ofString_bracketed '\x7b' '\x7d', ← indentedMembers, List.cons_append,
        List.append_assoc, List.append_assoc, List.append_assoc]
      refine reads_object (skip_newline _ _) ?_ ?_
      · rw [(hopens.append _).skip_eq]
        exact hopens.append _
      · rw [(hopens.append _).skip_eq]
        refine reads_indentedMembers [] hkeys hnames hmembers ih (depth + 1) ?_
        rw [skip_newline]
        exact skip_cons_of_not_space rfl _

/-- What was written is read. -/
theorem read_indented {v : Json} (h : Regular IsText v) : read (ofString v.indented) = .ok v := by
  have hread := readsBack h 0 []
  rw [List.append_nil, ← (opens_indentedAt h 0).skip_eq] at hread
  obtain ⟨hfewer, hread⟩ := hread
  rw [read, indented, hread]
  rfl

end Json
end Rulebook
