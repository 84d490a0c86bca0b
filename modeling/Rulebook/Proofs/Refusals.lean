import Rulebook.Http.Form
import Rulebook.Proofs.Building

set_option autoImplicit false

/-!
Which rule texts become rules. A readable text, one that is split into two expressions, becomes a rule of these
expressions unless a surrogate stands in it; any other text is refused for the first thing that is wrong with
it. Of a list of texts the first one that is refused decides.
-/

namespace Rulebook

open Text

/-! ### Whole texts -/

namespace Text

theorem exists_ofString_of_isWhole {s : Text} (h : isWhole s = true) : ∃ t : String, s = ofString t := by
  obtain ⟨cs, hcs⟩ := Option.isSome_iff_exists.mp h
  exact ⟨String.ofList cs, by rw [ofString_ofList, eq_ofChars hcs]⟩

@[simp] theorem isWhole_ofString (s : String) : isWhole (ofString s) = true := by
  simp [isWhole, ofString]

theorem isWhole_append (s t : Text) : isWhole (s ++ t) = (isWhole s && isWhole t) := by
  induction s with
  | nil => rfl
  | cons p s ih =>
    cases p with
    | char c => simpa [isWhole, chars?] using ih
    | surrogate n => rfl

theorem isWhole_trimmed {s : Text} (h : isWhole s = true) : isWhole (trimmed s) = true := by
  obtain ⟨front, back, heq, -, -⟩ := exists_trimBy (CodePoint.isA isBlank) s
  rw [heq, isWhole_append, isWhole_append, Bool.and_eq_true, Bool.and_eq_true] at h
  exact h.1.2

end Text

theorem RuleText.isWhole_of_split {text : Text} {parts : RuleText} (h : split text = .ok parts)
    (htext : isWhole text = true) :
    isWhole parts.condition = true ∧ isWhole parts.transformation = true := by
  obtain ⟨before, after, honce, -, -, rfl⟩ := split_eq_ok_iff.mp h
  rw [honce.eq, isWhole_append, isWhole_append, Bool.and_eq_true, Bool.and_eq_true] at htext
  exact ⟨isWhole_trimmed htext.1, isWhole_trimmed htext.2.2⟩

theorem Checked.nonEmpty_ofString {s : String} (h : s ≠ "") : nonEmpty (ofString s) = .ok ⟨s, h⟩ := by
  rw [nonEmpty, toString?_ofString]
  exact dif_pos h

namespace Rule

/-! ### One text -/

/-- A text that is split into two expressions. -/
def Readable (text : Text) : Prop :=
  ∃ parts c t, RuleText.split text = .ok parts ∧ parse parts.condition.shown = .ok c ∧
    parse parts.transformation.shown = .ok t

/-- Why a part of a text is no expression. -/
inductive Unparsed (part : Text) : RuleError → Prop
  | fault {e : ParseError} : parse part.shown = .error (.fault e) → Unparsed part (.parse part e)
  | digits : parse part.shown = .error .digits → Unparsed part .digits

/-- Why a text is refused: it cannot be split, or a part of it is no expression. -/
inductive Refused (text : Text) : RuleError → Prop
  | text {e : RuleTextError} : RuleText.split text = .error e → Refused text (.text e)
  | condition {parts : RuleText} {e : RuleError} : RuleText.split text = .ok parts →
      Unparsed parts.condition e → Refused text e
  | transformation {parts : RuleText} {c : Expr} {e : RuleError} : RuleText.split text = .ok parts →
      parse parts.condition.shown = .ok c → Unparsed parts.transformation e → Refused text e

theorem exists_unparsed {part : Text} {unread : Unread ParseError} (h : parse part.shown = .error unread) :
    ∃ e, Unparsed part e := by
  cases unread with
  | fault e => exact ⟨_, .fault h⟩
  | digits => exact ⟨_, .digits h⟩

theorem Unparsed.parse_ne {part : Text} {e : RuleError} (h : Unparsed part e) (c : Expr) :
    parse part.shown ≠ .ok c := by
  intro hc
  cases h with
  | fault hp | digits hp => cases hc.symm.trans hp

theorem Unparsed.parsePart {part : Text} {e : RuleError} (h : Unparsed part e) :
    Rule.parsePart part = .error e := by
  rw [Rule.parsePart]
  cases h with
  | fault hp | digits hp => rw [hp]

/-- A rule that was made of a text and an output variable for a ruleset. -/
structure MadeOf (ruleset : Label) (text : Text) (output : String) (r : Rule) : Prop where
  ruleset : r.ruleset = ruleset
  split : RuleText.split text = .ok ⟨r.condition, r.transformation⟩
  output : r.output = output

theorem readable_or_refused (text : Text) : Readable text ∨ ∃ e, Refused text e := by
  cases hparts : RuleText.split text with
  | error e => exact .inr ⟨_, .text hparts⟩
  | ok parts =>
    cases hc : parse parts.condition.shown with
    | error unread =>
      obtain ⟨e, he⟩ := exists_unparsed hc
      exact .inr ⟨e, .condition hparts he⟩
    | ok c =>
      cases ht : parse parts.transformation.shown with
      | error unread =>
        obtain ⟨e, he⟩ := exists_unparsed ht
        exact .inr ⟨e, .transformation hparts hc he⟩
      | ok t => exact .inl ⟨parts, c, t, hparts, hc, ht⟩

theorem Refused.not_readable {text : Text} {e : RuleError} (h : Refused text e) : ¬Readable text := by
  rintro ⟨parts, c, t, hparts, hc, ht⟩
  cases h with
  | text h => rw [hparts] at h; cases h
  | condition h he =>
    cases hparts.symm.trans h
    exact he.parse_ne c hc
  | transformation h _ he =>
    cases hparts.symm.trans h
    exact he.parse_ne t ht

section

variable (id ruleset : Label) {text : Text}

theorem parsePart_of_ok {part : Text} {e : Expr} (h : parse part.shown = .ok e) : parsePart part = .ok e := by
  rw [parsePart, h]

theorem build_of_split (output : Text) {parts : RuleText} (h : RuleText.split text = .ok parts) :
    build id ruleset text output =
      (do let _ ← parsePart parts.condition
          let _ ← parsePart parts.transformation
          (ofParts id ruleset parts.condition parts.transformation output).mapError .invalid) := by
  rw [build, RuleText.ofText, Option.getD_some, h]
  rfl

theorem build_of_refused (output : Text) {e : RuleError} (h : Refused text e) :
    build id ruleset text output = .error e := by
  cases h with
  | text hparts =>
    rw [build, RuleText.ofText, Option.getD_some, hparts]
    rfl
  | condition hparts he =>
    rw [build_of_split _ _ _ hparts, he.parsePart]
    rfl
  | transformation hparts hc he =>
    rw [build_of_split _ _ _ hparts, parsePart_of_ok hc, he.parsePart]
    rfl

theorem Refused.unique {e e' : RuleError} (h : Refused text e) (h' : Refused text e') : e = e' := by
  cases (build_of_refused "" "" [] h).symm.trans (build_of_refused "" "" [] h')
  rfl

theorem ne_empty_of_parse {text : String} {e : Expr} (h : parse text = .ok e) : text ≠ "" := by
  rintro rfl
  have hempty : (parse "").toOption = none := by decide +kernel
  rw [h] at hempty
  cases hempty

/-- A readable text without surrogates becomes a rule. -/
theorem build_of_readable (h : Readable text) (htext : isWhole text = true) {output : String}
    (houtput : output ≠ "") :
    ∃ r, build id ruleset text (ofString output) = .ok r ∧ r.MadeOf ruleset text output := by
  obtain ⟨⟨condition, transformation⟩, c, t, hparts, hc, ht⟩ := h
  obtain ⟨hcondition, htransformation⟩ := RuleText.isWhole_of_split hparts htext
  obtain ⟨condition, rfl⟩ := exists_ofString_of_isWhole hcondition
  obtain ⟨transformation, rfl⟩ := exists_ofString_of_isWhole htransformation
  rw [build_of_split _ _ _ hparts, parsePart_of_ok hc, parsePart_of_ok ht]
  rw [shown_ofString] at hc ht
  have hc := ne_empty_of_parse hc
  have ht := ne_empty_of_parse ht
  refine ⟨⟨id, ruleset, condition, transformation, output, hc, ht, houtput⟩, ?_, rfl, hparts, rfl⟩
  rw [ofParts, Checked.nonEmpty_ofString hc, Checked.nonEmpty_ofString ht,
    Checked.nonEmpty_ofString houtput]
  rfl

end

/-! ### Lists of texts -/

open Http (RuleForm)

theorem buildAll_cons (ids : Ids) (ruleset : String) (f : RuleForm) (forms : List RuleForm) :
    buildAll ids ruleset ((f :: forms).map RuleForm.pair) = (do
      let r ← build (ids.nth 0) ruleset f.rule (ofString f.output)
      let rs ← buildAll (ids.advance 1) ruleset (forms.map RuleForm.pair)
      return r :: rs) := rfl

section

variable (ids : Ids) (ruleset : String)

/-- Readable texts become one rule each. -/
theorem buildAll_of_readable {forms : List RuleForm} (hread : ∀ f ∈ forms, Readable f.rule)
    (hwhole : ∀ f ∈ forms, isWhole f.rule = true) (houtput : ∀ f ∈ forms, f.output ≠ "") :
    ∃ rules, buildAll ids ruleset (forms.map RuleForm.pair) = .ok rules ∧
      List.Forall₂ (fun f r => MadeOf ruleset f.rule f.output r) forms rules := by
  induction forms generalizing ids with
  | nil => exact ⟨[], rfl, .nil⟩
  | cons f forms ih =>
    obtain ⟨hf, hread⟩ := List.forall_mem_cons.mp hread
    obtain ⟨hw, hwhole⟩ := List.forall_mem_cons.mp hwhole
    obtain ⟨ho, houtput⟩ := List.forall_mem_cons.mp houtput
    obtain ⟨r, hr, hmade⟩ := build_of_readable (ids.nth 0) ruleset hf hw ho
    obtain ⟨rules, hrules, hall⟩ := ih (ids.advance 1) hread hwhole houtput
    rw [buildAll_cons, hr, hrules]
    exact ⟨r :: rules, rfl, .cons hmade hall⟩

/-- The first text that is refused is the one that is told of. -/
theorem buildAll_of_refused {before after : List RuleForm} {f : RuleForm} {e : RuleError}
    (hread : ∀ g ∈ before, Readable g.rule) (hwhole : ∀ g ∈ before, isWhole g.rule = true)
    (houtput : ∀ g ∈ before, g.output ≠ "") (hf : Refused f.rule e) :
    buildAll ids ruleset ((before ++ f :: after).map RuleForm.pair) = .error e := by
  induction before generalizing ids with
  | nil =>
    rw [List.nil_append, buildAll_cons, build_of_refused _ _ _ hf]
    rfl
  | cons g before ih =>
    obtain ⟨hg, hread⟩ := List.forall_mem_cons.mp hread
    obtain ⟨hw, hwhole⟩ := List.forall_mem_cons.mp hwhole
    obtain ⟨ho, houtput⟩ := List.forall_mem_cons.mp houtput
    obtain ⟨r, hr, -⟩ := build_of_readable (ids.nth 0) ruleset hg hw ho
    rw [List.cons_append, buildAll_cons, hr, ih (ids.advance 1) hread hwhole houtput]
    rfl

end

/-- If not all texts are readable, there is a first one that is refused. -/
theorem exists_first_refused {forms : List RuleForm} (h : ¬∀ f ∈ forms, Readable f.rule) :
    ∃ before f after e, forms = before ++ f :: after ∧ (∀ g ∈ before, Readable g.rule) ∧
      Refused f.rule e := by
  induction forms with
  | nil => simp at h
  | cons f forms ih =>
    rcases readable_or_refused f.rule with hf | ⟨e, he⟩
    · obtain ⟨before, g, after, e, rfl, hbefore, he⟩ :=
        ih fun hall => h (List.forall_mem_cons.mpr ⟨hf, hall⟩)
      exact ⟨f :: before, g, after, e, rfl, List.forall_mem_cons.mpr ⟨hf, hbefore⟩, he⟩
    · exact ⟨[], f, forms, e, rfl, by simp, he⟩

end Rule

end Rulebook
