import Rulebook.Proofs.RuleTexts

set_option autoImplicit false

/-!
Which texts are rule texts. A text is split exactly if the keyword occurs in it once as a word of its own, with more
than blanks on both sides. No keyword is left in the parts, so that they can be joined with it and split again.
-/

namespace Rulebook.RuleText

open Text

/-- The keyword occurs between two parts of a text, and the characters beside it belong to no word. -/
structure Occurs (s before after : Text) : Prop where
  eq : s = before ++ (keyword ++ after)
  left : ∀ p ∈ before.getLast?, isWordPart p = false
  right : ∀ p ∈ after.head?, isWordPart p = false

/-- The keyword occurs there and nowhere else. -/
def OccursOnce (s before after : Text) : Prop :=
  Occurs s before after ∧ ∀ before' after', Occurs s before' after' → before' = before ∧ after' = after

/-- What is left of a part when the blanks at both ends are taken off. -/
structure Trims (part c : Text) : Prop where
  between : ∃ front back, part = front ++ c ++ back ∧ Blank front ∧ Blank back
  first : ∀ p ∈ c.head?, p.isA isBlank = false
  last : ∀ p ∈ c.getLast?, p.isA isBlank = false

/-- Why a text is no rule text. -/
inductive Refuses (s : Text) : RuleTextError → Prop
  | blank : Blank s → Refuses s .blank
  | notOnce : ¬Blank s → (¬∃ before after, OccursOnce s before after) → Refuses s .notOnce
  | noCondition {before after : Text} : OccursOnce s before after → Blank before → Refuses s .noCondition
  | noTransformation {before after : Text} : OccursOnce s before after → ¬Blank before → Blank after →
      Refuses s .noTransformation

variable {s part c before after : Text}

/-! ### Occurrences -/

theorem endsWord_eq_false_iff : endsWord false s = false ↔ ∀ p ∈ s.getLast?, isWordPart p = false := by
  rcases List.eq_nil_or_concat s with rfl | ⟨front, p, rfl⟩
  · simp [endsWord]
  · rw [List.concat_eq_append, endsWord_append]
    simp [endsWord]

theorem startsWord_eq_false_iff : startsWord s = false ↔ ∀ p ∈ s.head?, isWordPart p = false := by
  cases s <;> simp [startsWord]

theorem stands_iff : Stands false before after ↔
    (∀ p ∈ before.getLast?, isWordPart p = false) ∧ ∀ p ∈ after.head?, isWordPart p = false := by
  rw [← endsWord_eq_false_iff, ← startsWord_eq_false_iff]
  exact ⟨fun h => ⟨h.left, h.right⟩, fun h => ⟨h.1, h.2⟩⟩

theorem occurs_iff : Occurs s before after ↔ s = before ++ (keyword ++ after) ∧ Stands false before after := by
  rw [stands_iff]
  exact ⟨fun h => ⟨h.eq, h.left, h.right⟩, fun h => ⟨h.1, h.2.1, h.2.2⟩⟩

theorem occursOnce_iff : OccursOnce s before after ↔ Once false s before after := by
  simp only [OccursOnce, occurs_iff]
  constructor
  · rintro ⟨⟨heq, hstands⟩, hunique⟩
    exact ⟨heq, hstands, fun before' after' heq' hstands' => hunique before' after' ⟨heq', hstands'⟩⟩
  · intro h
    exact ⟨⟨h.eq, h.stands⟩, fun before' after' h' => h.unique before' after' h'.1 h'.2⟩

/-! ### Blanks at the ends -/

section

variable {α : Type} {blank : α → Bool} {xs : List α}

theorem head?_trimBy (blank : α → Bool) (xs : List α) : ∀ x ∈ (trimBy blank xs).head?, blank x = false := by
  intro x hx
  obtain ⟨tail, htrim⟩ := List.head?_eq_some_iff.mp hx
  have hbeginning : trimBy blank xs <+: (xs.dropWhile blank).reverse.reverse :=
    List.reverse_prefix.mpr (List.dropWhile_suffix blank)
  rw [List.reverse_reverse, htrim] at hbeginning
  obtain ⟨rest, hrest⟩ := hbeginning
  have hhead := List.head?_dropWhile_not blank xs
  rw [← hrest] at hhead
  exact hhead

theorem getLast?_trimBy (blank : α → Bool) (xs : List α) : ∀ x ∈ (trimBy blank xs).getLast?, blank x = false := by
  intro x hx
  have hhead := List.head?_dropWhile_not blank (xs.dropWhile blank).reverse
  rw [trimBy, List.getLast?_reverse, Option.mem_def] at hx
  rw [hx] at hhead
  exact hhead

theorem dropWhile_eq_self (h : ∀ x ∈ xs.head?, blank x = false) : xs.dropWhile blank = xs := by
  cases xs with
  | nil => rfl
  | cons x xs => rw [List.dropWhile_cons, if_neg (by simp [h x rfl])]

theorem trimBy_eq_self (hhead : ∀ x ∈ xs.head?, blank x = false) (hlast : ∀ x ∈ xs.getLast?, blank x = false) :
    trimBy blank xs = xs := by
  rw [trimBy, dropWhile_eq_self hhead, dropWhile_eq_self (by rwa [List.head?_reverse]), List.reverse_reverse]

end

theorem trims_iff : Trims part c ↔ c = trimmed part := by
  constructor
  · rintro ⟨⟨front, back, rfl, hfront, hback⟩, hfirst, hlast⟩
    rw [trimmed, trimBy_append_right hback, trimBy_append_left hfront, trimBy_eq_self hfirst hlast]
  · rintro rfl
    exact ⟨exists_trimBy _ part, head?_trimBy _ part, getLast?_trimBy _ part⟩

/-! ### Refused texts -/

/-- A text that is not split is refused for what it lacks. -/
theorem exists_refuses (h : ¬∃ before after, OccursOnce s before after ∧ ¬Blank before ∧ ¬Blank after) :
    ∃ e, Refuses s e ∧ split s = .error e := by
  by_cases hs : Blank s
  · exact ⟨_, .blank hs, split_of_blank hs⟩
  by_cases honce : ∃ before after, OccursOnce s before after
  · obtain ⟨before, after, honce⟩ := honce
    have hsplit := split_of_once (occursOnce_iff.mp honce)
    by_cases hbefore : Blank before
    · refine ⟨_, .noCondition honce hbefore, ?_⟩
      rw [hsplit, if_pos (allBlank_iff.mpr hbefore)]
    · have hafter : Blank after := by_contra fun hafter => h ⟨before, after, honce, hbefore, hafter⟩
      refine ⟨_, .noTransformation honce hbefore hafter, ?_⟩
      rw [hsplit, if_neg (allBlank_iff.not.mpr hbefore), if_pos (allBlank_iff.mpr hafter)]
  · refine ⟨_, .notOnce hs honce, split_of_not_once hs ?_⟩
    simpa only [occursOnce_iff] using honce

/-! ### Split texts -/

theorem split_eq_ok_iff_occursOnce {r : RuleText} :
    split s = .ok r ↔ ∃ before after, OccursOnce s before after ∧ ¬Blank before ∧ ¬Blank after ∧
      Trims before r.condition ∧ Trims after r.transformation := by
  simp only [split_eq_ok_iff, occursOnce_iff, trims_iff]
  constructor
  · rintro ⟨before, after, honce, hbefore, hafter, rfl⟩
    exact ⟨before, after, honce, hbefore, hafter, rfl, rfl⟩
  · rintro ⟨before, after, honce, hbefore, hafter, hcondition, htransformation⟩
    refine ⟨before, after, honce, hbefore, hafter, ?_⟩
    rw [← hcondition, ← htransformation]

theorem not_occurs_of_split {r : RuleText} (h : split s = .ok r) :
    (∀ before after, ¬Occurs r.condition before after) ∧ ∀ before after, ¬Occurs r.transformation before after := by
  simp only [occurs_iff, not_and]
  exact not_stands_of_split h

/-- Characters of which neither a blank nor the keyword is made. -/
def Plain (s : Text) : Prop := ∀ p ∈ s, p ∉ keyword ∧ p.isA isBlank = false

theorem Plain.not_stands (h : Plain s) :
    ∀ before after, s = before ++ (keyword ++ after) → ¬Stands false before after := by
  rintro before after rfl -
  exact (h (.char 'T') (by simp [keyword_eq])).1 (by simp [keyword_eq])

theorem Plain.not_blank (h : Plain s) (hne : s ≠ []) : ¬Blank s := by
  obtain ⟨p, hp⟩ := List.exists_mem_of_ne_nil s hne
  intro hblank
  exact absurd (hblank p hp) (by simp [(h p hp).2])

theorem Plain.trimmed_gaps (h : Plain s) {g g' : Text} (hg : Blank g) (hg' : Blank g') :
    trimmed (g ++ s ++ g') = s := by
  rw [trimmed, trimBy_append_right hg', trimBy_append_left hg]
  exact trimBy_eq_self (fun p hp => (h p (List.mem_of_mem_head? hp)).2)
    fun p hp => (h p (List.mem_of_mem_getLast? hp)).2

/-- Plain parts with the keyword between them are split. -/
theorem split_of_plain {t : Text} (hc : Plain c) (ht : Plain t) (hcne : c ≠ []) (htne : t ≠ []) :
    split (c ++ space :: (keyword ++ space :: t)) = .ok ⟨c, t⟩ := by
  have hnone : Blank [] := fun _ hp => absurd hp List.not_mem_nil
  have honce := once_of_gaps hc.not_stands ht.not_stands hnone blank_space blank_space hnone
    (List.cons_ne_nil _ _) (List.cons_ne_nil _ _)
  have hbefore : ¬Blank ([] ++ c ++ [space]) := fun hblank =>
    hc.not_blank hcne fun p hp => hblank p (by simp [hp])
  have hafter : ¬Blank ([space] ++ t ++ []) := fun hblank =>
    ht.not_blank htne fun p hp => hblank p (by simp [hp])
  have hsplit := split_eq_ok_iff.mpr ⟨_, _, honce, hbefore, hafter, rfl⟩
  rw [hc.trimmed_gaps hnone blank_space, ht.trimmed_gaps blank_space hnone] at hsplit
  simpa using hsplit

/-- A text is split exactly if the keyword occurs once as a word of its own between parts that are not blank, and it
is split into these parts without the blanks at their ends. Any other text is refused. In the parts the keyword does
not occur, and joined with it again they are split in the same way. -/
theorem split_exact (s : Text) :
    (∀ r, split s = .ok r ↔ ∃ before after, OccursOnce s before after ∧ ¬Blank before ∧ ¬Blank after ∧
      Trims before r.condition ∧ Trims after r.transformation) ∧
    ((¬∃ before after, OccursOnce s before after ∧ ¬Blank before ∧ ¬Blank after) →
      ∃ e, Refuses s e ∧ split s = .error e) ∧
    ∀ r, split s = .ok r →
      (∀ before after, ¬Occurs r.condition before after) ∧
      (∀ before after, ¬Occurs r.transformation before after) ∧
      ∀ g₁ g₂ g₃ g₄, Blank g₁ → Blank g₂ → Blank g₃ → Blank g₄ → g₂ ≠ [] → g₃ ≠ [] →
        split (g₁ ++ r.condition ++ g₂ ++ (keyword ++ (g₃ ++ r.transformation ++ g₄))) = .ok r := by
  refine ⟨fun r => split_eq_ok_iff_occursOnce, exists_refuses, fun r h => ?_⟩
  obtain ⟨hcondition, htransformation⟩ := not_occurs_of_split h
  exact ⟨hcondition, htransformation, fun _ _ _ _ => split_of_gaps h⟩

/-- The keyword between words that it is a part of. -/
theorem split_exact_besideWords :
    split " aTHEN THEN THENb\t" = .ok ⟨"aTHEN", "THENb"⟩ ∧
      (∃ before after, OccursOnce " aTHEN THEN THENb\t" before after ∧ ¬Blank before ∧ ¬Blank after ∧
        Trims before "aTHEN" ∧ Trims after "THENb") ∧
      (∀ before after, ¬Occurs "THENb" before after) ∧
      split "aTHEN\nTHEN THENb" = .ok ⟨"aTHEN", "THENb"⟩ := by
  have hsplit : split " aTHEN THEN THENb\t" = .ok ⟨"aTHEN", "THENb"⟩ := by decide +kernel
  have hbreak : Blank "\n" := allBlank_iff.mp (by decide +kernel)
  have hnone : Blank [] := fun _ hp => absurd hp List.not_mem_nil
  obtain ⟨hok, -, hparts⟩ := split_exact " aTHEN THEN THENb\t"
  obtain ⟨-, htransformation, hagain⟩ := hparts _ hsplit
  exact ⟨hsplit, (hok _).mp hsplit, htransformation,
    hagain _ _ _ _ hnone hbreak blank_space hnone (List.cons_ne_nil _ _) (List.cons_ne_nil _ _)⟩

end Rulebook.RuleText
