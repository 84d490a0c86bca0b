import Mathlib.Data.List.Basic
import Mathlib.Data.List.TakeWhile
import Rulebook.Rule.Text

set_option autoImplicit false

/-!
Cutting rule texts. A text is split where the keyword stands as a whole word, if it stands there alone. Taking
off the space around the parts and writing a space on both sides of the keyword makes no new place for it.
-/

namespace Rulebook

namespace Text

section

variable {α : Type} {blank : α → Bool} {front xs back : List α}

/-- What is trimmed off is blank. -/
theorem exists_trimBy (blank : α → Bool) (xs : List α) :
    ∃ front back, xs = front ++ trimBy blank xs ++ back ∧ (∀ x ∈ front, blank x = true) ∧
      ∀ x ∈ back, blank x = true := by
  refine ⟨xs.takeWhile blank, ((xs.dropWhile blank).reverse.takeWhile blank).reverse, ?_, ?_, ?_⟩
  · rw [trimBy, List.append_assoc, ← List.reverse_append, List.takeWhile_append_dropWhile,
      List.reverse_reverse, List.takeWhile_append_dropWhile]
  · exact fun x hx => List.mem_takeWhile_imp hx
  · exact fun x hx => List.mem_takeWhile_imp (List.mem_reverse.mp hx)

theorem trimBy_append_left (h : ∀ x ∈ front, blank x = true) :
    trimBy blank (front ++ xs) = trimBy blank xs := by
  rw [trimBy, List.dropWhile_append_of_pos h, trimBy]

theorem trimBy_append_right (h : ∀ x ∈ back, blank x = true) :
    trimBy blank (xs ++ back) = trimBy blank xs := by
  rw [trimBy, trimBy, List.dropWhile_append]
  split
  · next hempty =>
    rw [List.isEmpty_iff.mp hempty, List.dropWhile_eq_nil_iff.mpr h]
  · rw [List.reverse_append, List.dropWhile_append_of_pos (by simpa using h)]

theorem trimBy_trimBy (blank : α → Bool) (xs : List α) :
    trimBy blank (trimBy blank xs) = trimBy blank xs := by
  obtain ⟨front, back, heq, hfront, hback⟩ := exists_trimBy blank xs
  have htrim := congrArg (trimBy blank) heq
  rw [trimBy_append_right hback, trimBy_append_left hfront] at htrim
  exact htrim.symm

end

end Text

namespace RuleText

open Text

/-- A text of blank characters. -/
def Blank (s : Text) : Prop := ∀ p ∈ s, p.isA isBlank = true

theorem isWordPart_of_blank {p : CodePoint} (h : p.isA isBlank = true) : isWordPart p = false := by
  cases p with
  | char c => exact isWordChar_eq_false_of_isBlank h
  | surrogate n => cases h

/-! ### Where a text ends and starts a word -/

/-- The last character of a text belongs to a word; `inWord` tells it of the character before the text. -/
def endsWord : Bool → Text → Bool
  | inWord, [] => inWord
  | _, p :: s => endsWord (isWordPart p) s

variable {inWord : Bool} {s t before after : Text}

theorem endsWord_append (inWord : Bool) (s t : Text) :
    endsWord inWord (s ++ t) = endsWord (endsWord inWord s) t := by
  induction s generalizing inWord with
  | nil => rfl
  | cons p s ih => exact ih (isWordPart p)

theorem endsWord_of_ne_nil (h : s ≠ []) (first second : Bool) : endsWord first s = endsWord second s := by
  cases s with
  | nil => exact (h rfl).elim
  | cons p s => rfl

theorem endsWord_of_blank (h : Blank s) (hinWord : s = [] → inWord = false) : endsWord inWord s = false := by
  induction s generalizing inWord with
  | nil => exact hinWord rfl
  | cons p s ih =>
    exact ih (fun q hq => h q (List.mem_cons_of_mem _ hq)) fun _ => isWordPart_of_blank (h p (by simp))

theorem startsWord_append (h : s ≠ []) (t : Text) : startsWord (s ++ t) = startsWord s := by
  cases s with
  | nil => exact (h rfl).elim
  | cons p s => rfl

theorem startsWord_of_blank (h : Blank s) : startsWord s = false := by
  cases s with
  | nil => rfl
  | cons p s => exact isWordPart_of_blank (h p (by simp))

/-! ### The keyword -/

theorem keyword_eq : keyword = [.char 'T', .char 'H', .char 'E', .char 'N'] := rfl

theorem endsWord_keyword (inWord : Bool) : endsWord inWord keyword = true := by
  have : isWordPart (.char 'N') = true := by decide +kernel
  exact this

theorem startsWord_keyword (s : Text) : startsWord (keyword ++ s) = true := by
  have : isWordPart (.char 'T') = true := by decide +kernel
  exact this

/-- The keyword stands between the two parts as a whole word. -/
structure Stands (inWord : Bool) (before after : Text) : Prop where
  left : endsWord inWord before = false
  right : startsWord after = false

theorem stands_cons {p : CodePoint} :
    Stands inWord (p :: before) after ↔ Stands (isWordPart p) before after :=
  ⟨fun h => ⟨h.left, h.right⟩, fun h => ⟨h.left, h.right⟩⟩

/-- The keyword stands at the start of a text. -/
theorem stands_nil_iff {p : CodePoint} {rest : Text} :
    (!inWord && keyword.isPrefixOf (p :: rest) && !startsWord (rest.drop 3)) = true ∧
        rest.drop 3 = after ↔
      p :: rest = keyword ++ after ∧ Stands inWord [] after := by
  simp only [Bool.and_eq_true, Bool.not_eq_true', List.isPrefixOf_iff_prefix, keyword_eq]
  constructor
  · rintro ⟨⟨⟨hleft, t, ht⟩, hright⟩, rfl⟩
    cases ht
    exact ⟨rfl, hleft, hright⟩
  · rintro ⟨heq, hleft, hright⟩
    cases heq
    exact ⟨⟨⟨hleft, after, rfl⟩, hright⟩, rfl⟩

theorem cut?_eq_none_iff :
    cut? inWord s = none ↔
      ∀ before after, s = before ++ (keyword ++ after) → ¬Stands inWord before after := by
  induction s generalizing inWord with
  | nil =>
    refine ⟨fun _ before after heq => ?_, fun _ => rfl⟩
    rw [keyword_eq] at heq
    simp at heq
  | cons p rest ih =>
    rw [cut?]
    split
    · next hstart =>
      obtain ⟨heq, hstands⟩ := stands_nil_iff.mp ⟨hstart, rfl⟩
      exact ⟨fun h => (by cases h), fun h => (h [] _ heq hstands).elim⟩
    · next hstart =>
      rw [Option.map_eq_none_iff, ih]
      constructor
      · intro h before after heq hstands
        cases before with
        | nil => exact hstart (stands_nil_iff.mpr ⟨heq, hstands⟩).1
        | cons q before =>
          cases heq
          exact h before after rfl (stands_cons.mp hstands)
      · intro h before after heq hstands
        exact h (p :: before) after (by rw [heq]; rfl) (stands_cons.mpr hstands)

/-- A text is cut at the first place where the keyword stands. -/
theorem cut?_eq_some (h : cut? inWord s = some (before, after)) :
    s = before ++ (keyword ++ after) ∧ Stands inWord before after ∧
      ∀ before' after', s = before' ++ (keyword ++ after') → Stands inWord before' after' →
        before <+: before' := by
  induction s generalizing inWord before with
  | nil => cases h
  | cons p rest ih =>
    rw [cut?] at h
    split at h
    · next hstart =>
      obtain ⟨heq, hstands⟩ := stands_nil_iff.mp ⟨hstart, rfl⟩
      cases h
      exact ⟨heq, hstands, fun before' _ _ _ => List.nil_prefix⟩
    · next hstart =>
      obtain ⟨⟨before, after⟩, hcut, hmap⟩ := Option.map_eq_some_iff.mp h
      cases hmap
      obtain ⟨heq, hstands, hfirst⟩ := ih hcut
      refine ⟨by rw [heq]; rfl, stands_cons.mpr hstands, fun before' after' heq' hstands' => ?_⟩
      cases before' with
      | nil => exact (hstart (stands_nil_iff.mpr ⟨heq', hstands'⟩).1).elim
      | cons q before' =>
        cases heq'
        exact List.cons_prefix_cons.mpr ⟨rfl, hfirst before' after' rfl (stands_cons.mp hstands')⟩

/-- The keyword stands in the text between two parts, and nowhere else. -/
structure Once (inWord : Bool) (s before after : Text) : Prop where
  eq : s = before ++ (keyword ++ after)
  stands : Stands inWord before after
  unique : ∀ before' after', s = before' ++ (keyword ++ after') → Stands inWord before' after' →
    before' = before ∧ after' = after

/-- The keyword does not overlap itself. -/
theorem keyword_apart {more : Text} (h : keyword ++ after = more ++ (keyword ++ t)) (hmore : more ≠ []) :
    ∃ rest, more = keyword ++ rest := by
  rw [keyword_eq] at h ⊢
  match more, h with
  | [_], h => simp at h
  | [_, _], h => simp at h
  | [_, _, _], h => simp at h
  | _ :: _ :: _ :: _ :: rest, h =>
    simp only [List.cons_append, List.nil_append, List.cons.injEq] at h
    obtain ⟨rfl, rfl, rfl, rfl, -⟩ := h
    exact ⟨rest, rfl⟩

theorem endsWord_before_keyword (inWord : Bool) (before middle : Text) :
    endsWord inWord (before ++ (keyword ++ middle)) = endsWord true middle := by
  rw [endsWord_append, endsWord_append, endsWord_keyword]

theorem once_iff :
    Once inWord s before after ↔ cut? inWord s = some (before, after) ∧ cut? true after = none := by
  constructor
  · intro h
    constructor
    · cases hcut : cut? inWord s with
      | none => exact (cut?_eq_none_iff.mp hcut before after h.eq h.stands).elim
      | some parts =>
        obtain ⟨heq, hstands, -⟩ := cut?_eq_some hcut
        obtain ⟨hbefore, hafter⟩ := h.unique _ _ heq hstands
        rw [← hbefore, ← hafter]
    · refine cut?_eq_none_iff.mpr fun middle after' heq hstands => ?_
      have hlater : s = (before ++ (keyword ++ middle)) ++ (keyword ++ after') := by
        rw [h.eq, heq]
        simp
      have hleft := endsWord_before_keyword inWord before middle
      obtain ⟨hbefore, -⟩ := h.unique _ _ hlater ⟨hleft.trans hstands.left, hstands.right⟩
      have hlength := congrArg List.length hbefore
      simp [keyword_eq] at hlength
  · rintro ⟨hcut, hnone⟩
    obtain ⟨heq, hstands, hfirst⟩ := cut?_eq_some hcut
    refine ⟨heq, hstands, fun before' after' heq' hstands' => ?_⟩
    obtain ⟨more, rfl⟩ := hfirst before' after' heq' hstands'
    rw [heq, List.append_assoc] at heq'
    have hmore := List.append_cancel_left heq'
    by_cases hnil : more = []
    · subst hnil
      rw [List.nil_append] at hmore
      exact ⟨List.append_nil before, (List.append_cancel_left hmore).symm⟩
    · obtain ⟨middle, rfl⟩ := keyword_apart hmore hnil
      rw [List.append_assoc] at hmore
      have hleft := hstands'.left
      rw [endsWord_before_keyword] at hleft
      exact (cut?_eq_none_iff.mp hnone middle after' (List.append_cancel_left hmore)
        ⟨hleft, hstands'.right⟩).elim

/-! ### Splitting -/

theorem allBlank_iff : allBlank s = true ↔ Blank s := List.all_eq_true

theorem blank_not_mem_keyword {p : CodePoint} (hp : p.isA isBlank = true) : p ∉ keyword := by
  have hkeyword : ∀ q ∈ keyword, q.isA isBlank = false := by
    rw [keyword_eq]
    decide +kernel
  intro h
  rw [hkeyword p h] at hp
  cases hp

theorem Once.not_blank (h : Once inWord s before after) : ¬Blank s := by
  have hmem : CodePoint.char 'T' ∈ keyword := by simp [keyword_eq]
  intro hblank
  exact blank_not_mem_keyword (hblank (.char 'T') (by simp [h.eq, hmem])) hmem

theorem split_of_blank (h : Blank s) : split s = .error .blank := by
  rw [split, if_pos (allBlank_iff.mpr h)]

theorem split_of_not_once (hs : ¬Blank s) (h : ¬∃ before after, Once false s before after) :
    split s = .error .notOnce := by
  rw [split, if_neg (allBlank_iff.not.mpr hs)]
  cases hcut : cut? false s with
  | none => rfl
  | some parts =>
    obtain ⟨before, after⟩ := parts
    have hagain : cut? true after ≠ none := fun hnone => h ⟨before, after, once_iff.mpr ⟨hcut, hnone⟩⟩
    exact if_pos (Option.isSome_iff_ne_none.mpr hagain)

theorem split_of_once (h : Once false s before after) :
    split s =
      if allBlank before then .error .noCondition
      else if allBlank after then .error .noTransformation
      else .ok ⟨trimmed before, trimmed after⟩ := by
  obtain ⟨hcut, hnone⟩ := once_iff.mp h
  rw [split, if_neg (allBlank_iff.not.mpr h.not_blank), hcut]
  exact if_neg (by simp [hnone])

/-- A text is split exactly where the keyword stands once between parts that are not blank. -/
theorem split_eq_ok_iff {r : RuleText} :
    split s = .ok r ↔ ∃ before after, Once false s before after ∧ ¬Blank before ∧ ¬Blank after ∧
      r = ⟨trimmed before, trimmed after⟩ := by
  constructor
  · intro h
    by_cases hs : Blank s
    · rw [split_of_blank hs] at h
      cases h
    by_cases honce : ∃ before after, Once false s before after
    · obtain ⟨before, after, honce⟩ := honce
      rw [split_of_once honce] at h
      split_ifs at h with hbefore hafter
      cases h
      exact ⟨before, after, honce, allBlank_iff.not.mp hbefore, allBlank_iff.not.mp hafter, rfl⟩
    · rw [split_of_not_once hs honce] at h
      cases h
  · rintro ⟨before, after, honce, hbefore, hafter, rfl⟩
    rw [split_of_once honce, if_neg (allBlank_iff.not.mpr hbefore), if_neg (allBlank_iff.not.mpr hafter)]

/-! ### Writing the parts together again -/

/-- The keyword lies on one side of a blank character. -/
theorem keyword_beside_blank {p : CodePoint} (hp : p.isA isBlank = true) {u v : Text}
    (h : u ++ p :: v = before ++ (keyword ++ after)) :
    (∃ x, u = before ++ (keyword ++ x) ∧ after = x ++ p :: v) ∨
      ∃ x, before = u ++ p :: x ∧ v = x ++ (keyword ++ after) := by
  have hkeyword := blank_not_mem_keyword hp
  rcases List.append_eq_append_iff.mp h with ⟨x, rfl, hx⟩ | ⟨x, rfl, hx⟩
  · right
    cases x with
    | nil =>
      rw [List.nil_append, keyword_eq] at hx
      cases hx
      simp [keyword_eq] at hkeyword
    | cons q x =>
      cases hx
      exact ⟨x, rfl, rfl⟩
  · left
    rcases List.append_eq_append_iff.mp hx with ⟨y, rfl, hy⟩ | ⟨y, hy, hpv⟩
    · exact ⟨y, rfl, hy⟩
    · cases y with
      | nil => exact ⟨[], by simp [hy], hpv.symm⟩
      | cons q y =>
        cases hpv
        exact (hkeyword (by simp [hy])).elim

/-- The keyword stands behind blanks at the start of a text. -/
theorem keyword_behind_blanks {g v : Text} (hg : Blank g) (h : g ++ v = before ++ (keyword ++ after)) :
    ∃ x, before = g ++ x ∧ v = x ++ (keyword ++ after) := by
  induction g generalizing before with
  | nil => exact ⟨before, rfl, h⟩
  | cons p g ih =>
    obtain ⟨hp, hg⟩ := List.forall_mem_cons.mp hg
    rcases keyword_beside_blank (u := []) hp h with ⟨x, hx, -⟩ | ⟨x, rfl, hx⟩
    · simp [keyword_eq] at hx
    · obtain ⟨y, rfl, hy⟩ := ih hg hx
      exact ⟨y, rfl, hy⟩

/-- The keyword stands in front of blanks at the end of a text. -/
theorem keyword_before_blanks {u g : Text} (hg : Blank g) (h : u ++ g = before ++ (keyword ++ after)) :
    ∃ x, after = x ++ g ∧ u = before ++ (keyword ++ x) := by
  cases g with
  | nil => exact ⟨after, by simp, by simpa using h⟩
  | cons p g =>
    rcases keyword_beside_blank (hg p List.mem_cons_self) h with ⟨x, hx, hafter⟩ | ⟨x, -, hx⟩
    · exact ⟨x, hafter, hx⟩
    · have hmem : CodePoint.char 'T' ∈ keyword := by simp [keyword_eq]
      exact (blank_not_mem_keyword (hg (.char 'T') (by simp [hx, hmem])) hmem).elim

/-- The keyword lies on one side of a gap. -/
theorem keyword_beside_gap {u g v : Text} (hg : Blank g) (hne : g ≠ [])
    (h : u ++ g ++ v = before ++ (keyword ++ after)) :
    (∃ x, u = before ++ (keyword ++ x) ∧ after = x ++ g ++ v) ∨
      ∃ x, before = u ++ g ++ x ∧ v = x ++ (keyword ++ after) := by
  obtain ⟨p, g, rfl⟩ := List.exists_cons_of_ne_nil hne
  obtain ⟨hp, hg⟩ := List.forall_mem_cons.mp hg
  rw [List.append_assoc, List.cons_append] at h
  rcases keyword_beside_blank hp h with ⟨x, hu, rfl⟩ | ⟨x, rfl, hx⟩
  · exact .inl ⟨x, hu, by simp⟩
  · obtain ⟨y, rfl, hv⟩ := keyword_behind_blanks hg hx
    exact .inr ⟨y, by simp, hv⟩

theorem startsWord_append_blank (hs : startsWord s = false) (ht : Blank t) : startsWord (s ++ t) = false := by
  cases s with
  | nil => exact startsWord_of_blank ht
  | cons p s => exact hs

/-- A text in front of more text starts with no word if both together start with none. -/
theorem startsWord_of_append (h : startsWord (s ++ t) = false) : startsWord s = false := by
  cases s with
  | nil => rfl
  | cons p s => exact h

/-- A text behind more text ends with no word if both together end with none. -/
theorem endsWord_of_append {first : Bool} (h : endsWord first (s ++ t) = false) : endsWord false t = false := by
  by_cases ht : t = []
  · rw [ht]
    rfl
  · rw [endsWord_append] at h
    rwa [endsWord_of_ne_nil ht _ false] at h

section

variable {l c m n r g₁ g₂ g₃ g₄ : Text}

/-- No keyword stands in the part before the keyword. -/
theorem Once.not_stands_before (h : Once false s (l ++ c ++ m) after) (hl : Blank l) (hm : Blank m) {x : Text}
    (hc : c = before ++ (keyword ++ x)) : ¬Stands false before x := by
  intro hstands
  have heq : s = (l ++ before) ++ (keyword ++ (x ++ m ++ (keyword ++ after))) := by
    rw [h.eq, hc]
    simp
  have hleft : endsWord false (l ++ before) = false := by
    rw [endsWord_append, endsWord_of_blank hl fun _ => rfl]
    exact hstands.left
  have hright : startsWord (x ++ m ++ (keyword ++ after)) = false := by
    by_cases hxm : x ++ m = []
    · -- then the part before the keyword ends in the keyword, a word
      obtain ⟨rfl, rfl⟩ := List.append_eq_nil_iff.mp hxm
      have := h.stands.left
      rw [hc, List.append_nil, ← List.append_assoc, endsWord_before_keyword] at this
      cases this
    · rw [startsWord_append hxm]
      exact startsWord_append_blank hstands.right hm
  have hlength := congrArg List.length (h.unique _ _ heq ⟨hleft, hright⟩).1
  simp [hc, keyword_eq] at hlength

/-- No keyword stands in the part after the keyword. -/
theorem Once.not_stands_after (h : Once false s before (n ++ t ++ r)) (hn : Blank n) (hr : Blank r) {x : Text}
    (ht : t = x ++ (keyword ++ after)) : ¬Stands false x after := by
  intro hstands
  have heq : s = (before ++ (keyword ++ (n ++ x))) ++ (keyword ++ (after ++ r)) := by
    rw [h.eq, ht]
    simp
  have hleft : endsWord false (before ++ (keyword ++ (n ++ x))) = false := by
    rw [endsWord_before_keyword, endsWord_append]
    by_cases hx : x = []
    · subst hx
      change endsWord true n = false
      refine endsWord_of_blank hn fun hnil => ?_
      -- then the part after the keyword starts with the keyword, a word
      have := h.stands.right
      rw [ht, hnil, List.nil_append, List.nil_append, List.append_assoc, startsWord_keyword] at this
      exact this
    · rw [endsWord_of_ne_nil hx _ false]
      exact hstands.left
  have hright := startsWord_append_blank hstands.right hr
  have hlength := congrArg List.length (h.unique _ _ heq ⟨hleft, hright⟩).1
  simp [keyword_eq] at hlength

/-- The keyword stands once between parts without it, if blanks keep it apart from both. -/
theorem once_of_gaps (hc : ∀ before after, c = before ++ (keyword ++ after) → ¬Stands false before after)
    (ht : ∀ before after, t = before ++ (keyword ++ after) → ¬Stands false before after) (h₁ : Blank g₁)
    (h₂ : Blank g₂) (h₃ : Blank g₃) (h₄ : Blank g₄) (hne₂ : g₂ ≠ []) (hne₃ : g₃ ≠ []) :
    Once false (g₁ ++ c ++ g₂ ++ (keyword ++ (g₃ ++ t ++ g₄))) (g₁ ++ c ++ g₂) (g₃ ++ t ++ g₄) := by
  refine ⟨rfl, ⟨?_, ?_⟩, fun before' after' heq hstands => ?_⟩
  · rw [endsWord_append]
    exact endsWord_of_blank h₂ fun hnil => (hne₂ hnil).elim
  · rw [List.append_assoc, startsWord_append hne₃]
    exact startsWord_of_blank h₃
  · rcases keyword_beside_gap h₂ hne₂ heq with ⟨x, hx, rfl⟩ | ⟨x, rfl, hx⟩
    · -- in the part before
      obtain ⟨y, rfl, rfl⟩ := keyword_behind_blanks h₁ hx
      refine (hc y x rfl ⟨endsWord_of_append hstands.left, ?_⟩).elim
      exact startsWord_of_append (List.append_assoc x _ _ ▸ hstands.right)
    · rw [List.append_assoc g₃, ← List.append_assoc keyword] at hx
      rcases keyword_beside_gap h₃ hne₃ hx with ⟨y, hy, rfl⟩ | ⟨y, rfl, hy⟩
      · have hlength := congrArg List.length hy
        simp only [List.length_append] at hlength
        obtain rfl : x = [] := List.eq_nil_of_length_eq_zero (by omega)
        obtain rfl : y = [] := List.eq_nil_of_length_eq_zero (by omega)
        exact ⟨by simp, by simp⟩
      · -- in the part after
        obtain ⟨z, rfl, rfl⟩ := keyword_before_blanks h₄ hy
        have hleft := hstands.left
        rw [← List.append_assoc] at hleft
        exact (ht y z rfl ⟨endsWord_of_append hleft, startsWord_of_append hstands.right⟩).elim

end

theorem blank_of_trimmed (h : Blank (trimmed s)) : Blank s := by
  obtain ⟨l, r, heq, hl, hr⟩ := exists_trimBy (CodePoint.isA isBlank) s
  intro p hp
  rw [heq, List.mem_append, List.mem_append] at hp
  rcases hp with (hp | hp) | hp
  · exact hl p hp
  · exact h p hp
  · exact hr p hp

theorem not_blank_of_trimmed {g g' : Text} (h : ¬Blank s) : ¬Blank (g ++ trimmed s ++ g') := fun hblank =>
  h (blank_of_trimmed fun p hp => hblank p (List.mem_append_left _ (List.mem_append_right _ hp)))

theorem trimmed_gaps {g g' : Text} (hg : Blank g) (hg' : Blank g') (s : Text) :
    trimmed (g ++ trimmed s ++ g') = trimmed s := by
  rw [trimmed, trimBy_append_right hg', trimBy_append_left hg, trimmed, trimBy_trimBy]

/-- No keyword is left in the parts. -/
theorem not_stands_of_split {parts : RuleText} (h : split s = .ok parts) :
    (∀ before after, parts.condition = before ++ (keyword ++ after) → ¬Stands false before after) ∧
      ∀ before after, parts.transformation = before ++ (keyword ++ after) → ¬Stands false before after := by
  obtain ⟨before, after, honce, -, -, rfl⟩ := split_eq_ok_iff.mp h
  constructor
  · obtain ⟨l, m, hbefore, hl, hm⟩ := exists_trimBy (CodePoint.isA isBlank) before
    rw [hbefore] at honce
    exact fun _ _ => honce.not_stands_before hl hm
  · obtain ⟨n, r, hafter, hn, hr⟩ := exists_trimBy (CodePoint.isA isBlank) after
    rw [hafter] at honce
    exact fun _ _ => honce.not_stands_after hn hr

/-- Splitting the parts with the keyword between them, kept apart by blanks, gives the parts again. -/
theorem split_of_gaps {parts : RuleText} (h : split s = .ok parts) {g₁ g₂ g₃ g₄ : Text} (h₁ : Blank g₁)
    (h₂ : Blank g₂) (h₃ : Blank g₃) (h₄ : Blank g₄) (hne₂ : g₂ ≠ []) (hne₃ : g₃ ≠ []) :
    split (g₁ ++ parts.condition ++ g₂ ++ (keyword ++ (g₃ ++ parts.transformation ++ g₄))) = .ok parts := by
  obtain ⟨hcondition, htransformation⟩ := not_stands_of_split h
  have honce := once_of_gaps hcondition htransformation h₁ h₂ h₃ h₄ hne₂ hne₃
  obtain ⟨before, after, -, hbefore, hafter, rfl⟩ := split_eq_ok_iff.mp h
  refine split_eq_ok_iff.mpr ⟨_, _, honce, not_blank_of_trimmed hbefore, not_blank_of_trimmed hafter, ?_⟩
  rw [trimmed_gaps h₁ h₂, trimmed_gaps h₃ h₄]

/-- A space. -/
def space : CodePoint := .char ' '

theorem blank_space : Blank [space] := by
  have hspace : space.isA isBlank = true := by decide +kernel
  simpa [Blank] using hspace

theorem split_respaced {parts : RuleText} (h : split s = .ok parts) :
    split (parts.condition ++ space :: (keyword ++ space :: parts.transformation)) = .ok parts := by
  have hnone : Blank [] := fun _ hp => absurd hp List.not_mem_nil
  have hgaps := split_of_gaps h hnone blank_space blank_space hnone (List.cons_ne_nil _ _) (List.cons_ne_nil _ _)
  simpa using hgaps

end RuleText

end Rulebook
