import Rulebook.Proofs.Memory
import Rulebook.Proofs.Refusals
import Rulebook.Proofs.Routes

set_option autoImplicit false

/-!
What is answered to the form of a request, and what the service keeps after it. A ruleset is made, or a rule is
added, only if the texts are readable; an answer is sent only if it can be written as a text.
-/

namespace Rulebook

open Text

/-! ### Answers that can be sent -/

theorem Json.areWhole_eq_all (vs : List Json) : areWhole vs = vs.all isWhole := by
  induction vs with
  | nil => rfl
  | cons v vs ih => rw [areWhole, ih, List.all_cons]

theorem Rule.Built.isWhole_toJson {r : Rule} {ruleset : String} (h : r.Built ruleset) :
    r.toJson.isWhole = true := by
  obtain ⟨id, hid⟩ := h.id
  simp [toJson, hid, h.ruleset, Label.ofString, Json.isWhole, Json.areWholeMembers]

namespace Http

theorem isWhole_rulesJson {rules : List Rule} {ruleset : String} (h : ∀ r ∈ rules, r.Built ruleset) :
    (rulesJson rules).isWhole = true := by
  rw [rulesJson, Json.isWhole, Json.areWhole_eq_all, List.all_map, List.all_eq_true]
  exact fun r hr => (h r hr).isWhole_toJson

theorem isWhole_namesJson {names : List Text} (h : ∀ key ∈ names, ∃ name : String, key = ofString name) :
    (namesJson names).isWhole = true := by
  rw [namesJson, Json.isWhole, Json.areWhole_eq_all, List.all_map, List.all_eq_true]
  intro key hkey
  obtain ⟨name, rfl⟩ := h key hkey
  simp [Json.isWhole]

namespace Response

theorem sendable_document {status : Nat} {body : Json} (h : body.isWhole = true) :
    (document status body).sendable = document status body := if_pos h

theorem sendable_detail {status : Nat} {content : Json} (h : content.isWhole = true) :
    (detail status content).sendable = detail status content :=
  sendable_document (by simp [Json.isWhole, Json.areWholeMembers, h])

theorem sendable_refused (reason : String) : (refused reason).sendable = refused reason :=
  sendable_detail (by simp [Json.isWhole, Json.areWholeMembers])

theorem status_sendable_ne {r : Response} (h : r.status ≠ 404) : r.sendable.status ≠ 404 := by
  cases r with
  | document code body =>
    rw [sendable]
    split
    · exact h
    · simp [status]
  | invalid faults =>
    rw [sendable]
    split
    · exact h
    · simp [status]
  | _ => exact h

theorem sendable_notFound (name : String) :
    (ofServiceError (.notFound name)).sendable = detail 404 (.str (ExecuteError.notFoundMessage name)) :=
  sendable_detail (by simp [Json.isWhole])

theorem sendable_unparsed {part : Text} {e : RuleError} (h : Rule.Unparsed part e)
    (hpart : isWhole part = true) : (badRule e).sendable = badRule e := by
  cases h with
  | fault => exact sendable_detail (by simp [Json.isWhole, Json.areWholeMembers, Json.nat, hpart])
  | digits => rfl

/-- What is wrong with a whole text can be told. -/
theorem sendable_badRule {text : Text} {e : RuleError} (h : Rule.Refused text e)
    (htext : isWhole text = true) : (badRule e).sendable = badRule e := by
  cases h with
  | text => exact sendable_refused _
  | condition hparts he => exact sendable_unparsed he (RuleText.isWhole_of_split hparts htext).1
  | transformation hparts _ he => exact sendable_unparsed he (RuleText.isWhole_of_split hparts htext).2

/-- Whoever makes a ruleset is told the same of a refused text, and is also told of too many digits. -/
theorem ofCreateError_refused {text : Text} {e : RuleError} (h : Rule.Refused text e) :
    ofCreateError (.rule e) = if e = .digits then refused tooManyDigits else badRule e := by
  cases h with
  | text => rfl
  | condition _ he | transformation _ _ he => cases he <;> rfl

theorem status_badRule {text : Text} {e : RuleError} (h : Rule.Refused text e) :
    (badRule e).status = if e = .digits then 500 else 400 := by
  cases h with
  | text => rfl
  | condition _ he | transformation _ _ he => cases he <;> rfl

theorem status_ofCreateError {text : Text} {e : RuleError} (h : Rule.Refused text e) :
    (ofCreateError (.rule e)).status = 400 := by
  rw [ofCreateError_refused h]
  split
  · rfl
  · next hdigits => rw [status_badRule h, if_neg hdigits]

theorem sendable_ofCreateError {text : Text} {e : RuleError} (h : Rule.Refused text e)
    (htext : isWhole text = true) : (ofCreateError (.rule e)).sendable = ofCreateError (.rule e) := by
  rw [ofCreateError_refused h]
  split
  · exact sendable_refused _
  · exact sendable_badRule h htext

end Response

/-! ### Forms -/

theorem form_eq_ok {α : Type} {read : Json → Checked α} {d : Option Json} {f : α}
    (h : form read d = .ok f) : ∃ v, d = some v ∧ read v = .ok f := by
  cases d with
  | none => cases h
  | some v => exact ⟨v, rfl, Checked.under_eq_ok.mp h⟩

theorem RuleForm.output_ne {v : Json} {f : RuleForm} (h : ofJson v = .ok f) : f.output ≠ "" := by
  cases v with
  | obj ms =>
    obtain ⟨⟨rule, output⟩, -, rfl⟩ := map_eq_ok.mp h
    exact output.2
  | _ => cases h

theorem mem_of_all {α : Type} {start : Nat} {cs : List (Checked α)} {xs : List α}
    (h : Checked.all start cs = .ok xs) : ∀ x ∈ xs, .ok x ∈ cs := by
  induction cs generalizing start xs with
  | nil =>
    cases h
    simp
  | cons c cs ih =>
    obtain ⟨⟨x, rest⟩, hboth, rfl⟩ := map_eq_ok.mp h
    obtain ⟨hx, hrest⟩ := Checked.both_eq_ok.mp hboth
    refine List.forall_mem_cons.mpr ⟨?_, fun y hy => List.mem_cons_of_mem _ (ih hrest y hy)⟩
    rw [Checked.under_eq_ok.mp hx]
    exact List.mem_cons_self

theorem RulesetForm.output_ne {v : Json} {f : RulesetForm} (h : ofJson v = .ok f) :
    ∀ g ∈ f.rules, g.output ≠ "" := by
  cases v with
  | obj ms =>
    obtain ⟨⟨name, rules⟩, hboth, rfl⟩ := map_eq_ok.mp h
    obtain ⟨-, hrules⟩ := Checked.both_eq_ok.mp hboth
    have hrules := Checked.under_eq_ok.mp hrules
    dsimp only at hrules ⊢
    split at hrules
    · next v _ =>
      cases v with
      | arr items =>
        intro g hg
        obtain ⟨item, -, hitem⟩ := List.mem_map.mp (mem_of_all hrules g hg)
        exact RuleForm.output_ne hitem
      | _ => cases hrules
    · cases hrules
      simp
  | _ => cases h

/-! ### Handling a request -/

section

variable {app : Option Service} {q : Request} {a : Action}

theorem handle_of_asks (h : q.Asks a) (ha : a ≠ .describe) (app : Option Service) :
    handle app q = .ok ((act app q.body a).1.sendable, (act app q.body a).2) := by
  have hverb := h.verb
  have hhead : q.verb ≠ "HEAD" := by
    intro heq
    rw [heq] at hverb
    cases a <;> simp [Action.methods] at hverb ha
  obtain ⟨p, hp, hroute⟩ := h
  rw [Request.verb] at hroute hhead
  simp only [handle, hp, hroute, bind, Except.bind]
  rw [if_neg hhead]
  rfl

/-- A request that leads nowhere, or to a page, leaves the service as it is. -/
theorem handle_of_not_asks (h : ∀ a, q.Asks a → a = .describe) {r : Response} {app' : Option Service}
    (hr : handle app q = .ok (r, app')) : app' = app := by
  obtain ⟨p, hp, hr⟩ := bind_eq_ok.mp hr
  cases hroute : route q.verb p with
  | error fault =>
    rw [Request.verb] at hroute
    simp only [hroute] at hr
    cases fault <;> exact (Prod.mk.inj (Except.ok.inj hr)).2.symm
  | ok a =>
    cases h a ⟨p, hp, hroute⟩
    rw [Request.verb] at hroute
    simp only [hroute] at hr
    cases app <;> exact (Prod.mk.inj (Except.ok.inj hr)).2.symm

theorem act_of_document {s : Service} {body : Option String} {d : Option Json}
    (h : a.document? body = .ok d) :
    act (some s) body a = ((perform s d a).1, some (perform s d a).2) := by
  simp only [act, h]

theorem handle_of_document (h : q.Asks a) (ha : a ≠ .describe) {s : Service} {d : Option Json}
    (hd : a.document? q.body = .ok d) :
    handle (some s) q = .ok ((perform s d a).1.sendable, some (perform s d a).2) := by
  rw [handle_of_asks h ha, act_of_document hd]

end

section

variable {α : Type} {status : Nat} {render : α → Json} {failure : ServiceError → Response} {r : Reply α}

theorem respond_of_ok {a : α} (h : r.result = .ok a) :
    respond status render failure r = (.document status (render a), r.after) := by
  rw [respond, h]

theorem respond_of_error {e : ServiceError} (h : r.result = .error e) :
    respond status render failure r = (failure e, r.after) := by
  rw [respond, h]

end

/-! ### Answers to forms -/

/-- The answer to the form of a new ruleset, over the rulesets before it and after it. -/
structure Creates (rs : Rulesets) (f : RulesetForm) (r : Response) (rs' : Rulesets) : Prop where
  refused_iff : r.status = 400 ↔ f.rules = [] ∨ ∃ g ∈ f.rules, ¬Rule.Readable g.rule
  taken_iff : r.status = 409 ↔
    (f.rules ≠ [] ∧ ∀ g ∈ f.rules, Rule.Readable g.rule) ∧ ofString f.name ∈ Entries.keys rs
  made_iff : r.status = 201 ↔
    (f.rules ≠ [] ∧ ∀ g ∈ f.rules, Rule.Readable g.rule) ∧ ofString f.name ∉ Entries.keys rs
  reported : ∀ before g after e, f.rules = before ++ g :: after →
    (∀ h ∈ before, Rule.Readable h.rule) → Rule.Refused g.rule e →
      r = if e = .digits then .refused Response.tooManyDigits else .badRule e
  stored : r.status = 201 → ∃ rules, r = .document 201 (rulesJson rules) ∧
    rs' = rs ++ [(ofString f.name, rules)] ∧
    List.Forall₂ (fun g rule => Rule.MadeOf f.name g.rule g.output rule) f.rules rules

/-- The answer to the form of a rule for a ruleset. A text that is not read for its digits is not answered
with what is wrong with it. -/
structure Adds (rs : Rulesets) (name : String) (f : RuleForm) (r : Response) (rs' : Rulesets) : Prop where
  refused_iff : r.status = 400 ↔ ∃ e, e ≠ .digits ∧ Rule.Refused f.rule e
  failed_iff : r.status = 500 ↔ Rule.Refused f.rule .digits
  made_iff : r.status = 200 ↔ Rule.Readable f.rule
  reported : ∀ e, Rule.Refused f.rule e → r = .badRule e
  stored : r.status = 200 → ∃ rule, r = .document 200 rule.toJson ∧
    rule.MadeOf name f.rule f.output ∧
    rs' = Entries.put rs (ofString name) ((Entries.get? rs (ofString name)).getD [] ++ [rule]) ∧
    (ofString name ∈ Entries.keys rs → Entries.keys rs' = Entries.keys rs) ∧
    (ofString name ∉ Entries.keys rs → Entries.keys rs' = Entries.keys rs ++ [ofString name])

theorem buildAll_of_first_refused (ids : Ids) (ruleset : String) {forms before after : List RuleForm}
    {f : RuleForm} {e : RuleError} (hwhole : ∀ g ∈ forms, isWhole g.rule = true)
    (houtput : ∀ g ∈ forms, g.output ≠ "") (hforms : forms = before ++ f :: after)
    (hbefore : ∀ g ∈ before, Rule.Readable g.rule) (he : Rule.Refused f.rule e) :
    Rule.buildAll ids ruleset (forms.map RuleForm.pair) = .error e := by
  have hmem : ∀ g ∈ before, g ∈ forms := fun g hg => by simp [hforms, hg]
  rw [hforms]
  exact Rule.buildAll_of_refused _ _ hbefore (fun g hg => hwhole g (hmem g hg))
    (fun g hg => houtput g (hmem g hg)) he

section

variable {rs : Rulesets} {f : RulesetForm}

theorem Creates.empty (h : f.rules = []) : Creates rs f (.refused Service.noRulesMessage) rs where
  refused_iff := by simp [h, Response.refused, Response.detail, Response.status]
  taken_iff := by simp [h, Response.refused, Response.detail, Response.status]
  made_iff := by simp [h, Response.refused, Response.detail, Response.status]
  reported before g after e hrules := by simp [h] at hrules
  stored h := by cases h

theorem Creates.refused {before after : List RuleForm} {g : RuleForm} {e : RuleError}
    (hrules : f.rules = before ++ g :: after) (hbefore : ∀ h ∈ before, Rule.Readable h.rule)
    (he : Rule.Refused g.rule e) (hwhole : ∀ g ∈ f.rules, isWhole g.rule = true)
    (houtput : ∀ g ∈ f.rules, g.output ≠ "") : Creates rs f (.ofCreateError (.rule e)) rs := by
  have hstatus := Response.status_ofCreateError he
  have hread : ¬∀ g ∈ f.rules, Rule.Readable g.rule := fun hread =>
    he.not_readable (hread g (by simp [hrules]))
  have hbuild : ∀ {before g after e}, f.rules = before ++ g :: after →
      (∀ h ∈ before, Rule.Readable h.rule) → Rule.Refused g.rule e →
      Rule.buildAll ⟨toString, 0⟩ "" (f.rules.map RuleForm.pair) = .error e :=
    buildAll_of_first_refused _ _ hwhole houtput
  constructor
  · simpa [hstatus] using .inr (by simpa using hread)
  · simp [hstatus, hread]
  · simp [hstatus, hread]
  · intro before' g' after' e' hrules' hbefore' he'
    -- building the rules fails with the one error and with the other
    cases (hbuild hrules hbefore he).symm.trans (hbuild hrules' hbefore' he')
    exact Response.ofCreateError_refused he
  · simp [hstatus]

theorem Creates.taken (hne : f.rules ≠ []) (hread : ∀ g ∈ f.rules, Rule.Readable g.rule)
    (hname : ofString f.name ∈ Entries.keys rs) :
    Creates rs f (.detail 409 (.str (StoreError.takenMessage f.name))) rs where
  refused_iff := by simpa [Response.detail, Response.status, hne] using hread
  taken_iff := by simpa [Response.detail, Response.status, hne, hname] using hread
  made_iff := by simp [Response.detail, Response.status, hname]
  reported before g after e hrules _ he := absurd (hread g (by simp [hrules])) he.not_readable
  stored h := by cases h

theorem Creates.made (hne : f.rules ≠ []) (hread : ∀ g ∈ f.rules, Rule.Readable g.rule)
    (hname : ofString f.name ∉ Entries.keys rs) {rules : List Rule}
    (hmade : List.Forall₂ (fun g rule => Rule.MadeOf f.name g.rule g.output rule) f.rules rules) :
    Creates rs f (.document 201 (rulesJson rules)) (Entries.put rs (ofString f.name) rules) where
  refused_iff := by simpa [Response.status, hne] using hread
  taken_iff := by simp [Response.status, hname]
  made_iff := by simpa [Response.status, hne, hname] using hread
  reported before g after e hrules _ he := absurd (hread g (by simp [hrules])) he.not_readable
  stored _ := ⟨rules, rfl, Entries.put_of_not_mem hname rules, hmade⟩

end

section

variable {s : Service} {rs rs' : Rulesets} {d : Option Json}

section

variable {f : RulesetForm} (hwhole : ∀ g ∈ f.rules, isWhole g.rule = true)
  (houtput : ∀ g ∈ f.rules, g.output ≠ "")

include hwhole houtput

theorem create_readable (h : s.Stores rs) (hread : ∀ g ∈ f.rules, Rule.Readable g.rule)
    (hrs' : (s.create f.name (f.rules.map RuleForm.pair)).after.Stores rs') :
    Creates rs f (respond 201 rulesJson .ofCreateError
      (s.create f.name (f.rules.map RuleForm.pair))).1.sendable rs' := by
  obtain ⟨rules, hrules, hmade⟩ := Rule.buildAll_of_readable s.store.ids f.name hread hwhole houtput
  by_cases hempty : f.rules = []
  · rw [hempty] at hmade
    cases hmade
    rw [Service.create_of_nil hrules] at hrs' ⊢
    cases h.unique hrs'
    rw [respond_of_error rfl]
    exact .empty hempty
  · have hne : rules ≠ [] := by
      rintro rfl
      exact hempty (List.forall₂_nil_right_iff.mp hmade)
    by_cases hname : ofString f.name ∈ Entries.keys rs
    · obtain ⟨hresult, hafter⟩ := h.create_taken hrules hne ((Entries.isSome_get?_iff rs _).mpr hname)
      cases hafter.unique hrs'
      have hsent : (Response.ofCreateError (.store (.taken f.name))).sendable =
          .detail 409 (.str (StoreError.takenMessage f.name)) :=
        Response.sendable_detail (by simp [Json.isWhole])
      rw [respond_of_error hresult, hsent]
      exact .taken hempty hread hname
    · have hnone : (Entries.get? rs (ofString f.name)).isSome = false := by
        rw [Entries.get?_eq_none_iff.mpr hname]
        rfl
      obtain ⟨hresult, hafter⟩ := h.create_made hrules hne hnone
      cases hafter.unique hrs'
      have hbuilt := Rule.built_of_buildAll hrules
      rw [respond_of_ok hresult, Response.sendable_document (isWhole_rulesJson hbuilt)]
      exact .made hempty hread hname hmade

theorem create_refused (h : s.Stores rs) (hread : ¬∀ g ∈ f.rules, Rule.Readable g.rule)
    (hrs' : (s.create f.name (f.rules.map RuleForm.pair)).after.Stores rs') :
    Creates rs f (respond 201 rulesJson .ofCreateError
      (s.create f.name (f.rules.map RuleForm.pair))).1.sendable rs' := by
  obtain ⟨before, g, after, e, hrules, hbefore, he⟩ := Rule.exists_first_refused hread
  have hbuild : Rule.buildAll s.store.ids f.name (f.rules.map RuleForm.pair) = .error e :=
    buildAll_of_first_refused _ _ hwhole houtput hrules hbefore he
  rw [Service.create_of_error hbuild] at hrs' ⊢
  cases h.unique hrs'
  rw [respond_of_error rfl, Response.sendable_ofCreateError he (hwhole g (by simp [hrules]))]
  exact .refused hrules hbefore he hwhole houtput

end

/-- The answer to a new ruleset, if the texts of its rules are whole. -/
theorem perform_create (h : s.Stores rs) {f : RulesetForm} (hf : form RulesetForm.ofJson d = .ok f)
    (hwhole : ∀ g ∈ f.rules, isWhole g.rule = true) (hrs' : (perform s d .create).2.Stores rs') :
    Creates rs f (perform s d .create).1.sendable rs' := by
  have houtput : ∀ g ∈ f.rules, g.output ≠ "" := by
    obtain ⟨v, -, hv⟩ := form_eq_ok hf
    exact RulesetForm.output_ne hv
  have hperform : perform s d .create =
      respond 201 rulesJson .ofCreateError (s.create f.name (f.rules.map RuleForm.pair)) := by
    rw [perform, hf]
    rfl
  rw [hperform] at hrs' ⊢
  by_cases hread : ∀ g ∈ f.rules, Rule.Readable g.rule
  · exact create_readable hwhole houtput h hread hrs'
  · exact create_refused hwhole houtput h hread hrs'

theorem Adds.refused {name : String} {f : RuleForm} {e : RuleError} (he : Rule.Refused f.rule e) :
    Adds rs name f (.badRule e) rs := by
  have hstatus := Response.status_badRule he
  have hunique : ∀ {e'}, Rule.Refused f.rule e' → e' = e := fun he' => he'.unique he
  by_cases hdigits : e = .digits
  · subst hdigits
    rw [if_pos rfl] at hstatus
    refine ⟨iff_of_false (by simp [hstatus]) ?_, iff_of_true hstatus he, ?_, ?_, ?_⟩
    · rintro ⟨e', hne, he'⟩
      exact hne (hunique he')
    · exact iff_of_false (by simp [hstatus]) he.not_readable
    · intro e' he'
      rw [hunique he']
    · simp [hstatus]
  · rw [if_neg hdigits] at hstatus
    refine ⟨iff_of_true hstatus ⟨e, hdigits, he⟩, iff_of_false (by simp [hstatus]) ?_, ?_, ?_, ?_⟩
    · exact fun he' => hdigits (hunique he').symm
    · exact iff_of_false (by simp [hstatus]) he.not_readable
    · intro e' he'
      rw [hunique he']
    · simp [hstatus]

theorem Adds.made {name : String} {f : RuleForm} {rule : Rule} (hread : Rule.Readable f.rule)
    (hmade : rule.MadeOf name f.rule f.output) :
    Adds rs name f (.document 200 rule.toJson)
      (Entries.put rs (ofString name) ((Entries.get? rs (ofString name)).getD [] ++ [rule])) where
  refused_iff := iff_of_false (by simp [Response.status]) fun ⟨_, _, he⟩ => he.not_readable hread
  failed_iff := iff_of_false (by simp [Response.status]) fun he => he.not_readable hread
  made_iff := by simpa [Response.status] using hread
  reported e he := absurd hread he.not_readable
  stored _ := by
    refine ⟨rule, rfl, hmade, rfl, fun hname => ?_, fun hname => ?_⟩
    · rw [Entries.keys_put, if_pos hname]
    · rw [Entries.keys_put, if_neg hname]

/-- The answer to a rule for a ruleset, if its text is whole. -/
theorem perform_add (h : s.Stores rs) {name : String} {f : RuleForm} (hf : form RuleForm.ofJson d = .ok f)
    (hwhole : isWhole f.rule = true) (hrs' : (perform s d (.add name)).2.Stores rs') :
    Adds rs name f (perform s d (.add name)).1.sendable rs' := by
  have houtput : f.output ≠ "" := by
    obtain ⟨v, -, hv⟩ := form_eq_ok hf
    exact RuleForm.output_ne hv
  have hperform : perform s d (.add name) =
      respond 200 Rule.toJson .ofServiceError (s.add name f.rule f.output) := by
    rw [perform, hf]
    rfl
  rw [hperform] at hrs' ⊢
  rcases Rule.readable_or_refused f.rule with hread | ⟨e, he⟩
  · obtain ⟨rule, hrule, hmade⟩ := Rule.build_of_readable (s.store.ids.nth 0) name hread hwhole houtput
    obtain ⟨hresult, hafter⟩ := h.add_made hrule
    cases hafter.unique hrs'
    have hbuilt := Rule.built_of_build hrule
    rw [respond_of_ok hresult, Response.sendable_document hbuilt.isWhole_toJson]
    exact .made hread hmade
  · rw [Service.add_of_error (Rule.build_of_refused _ _ _ he)] at hrs' ⊢
    cases h.unique hrs'
    have hsent : (Response.ofServiceError (.rule e)).sendable = .badRule e :=
      Response.sendable_badRule he hwhole
    rw [respond_of_error rfl, hsent]
    exact .refused he

/-- Names that are listed, and no others, can be asked for. -/
theorem perform_get (h : s.Stores rs) (name : String) :
    ((perform s d (.get name)).1.sendable.status = 404 ↔ ofString name ∉ Entries.keys rs) ∧
      ∀ rules, Entries.get? rs (ofString name) = some rules →
        (perform s d (.get name)).1.sendable = .document 200 (rulesJson rules) := by
  rw [perform]
  cases hget : Entries.get? rs (ofString name) with
  | none =>
    rw [respond_of_error (h.keeps.lacks hget).read, Response.sendable_notFound]
    exact ⟨iff_of_true rfl (Entries.get?_eq_none_iff.mp hget), fun _ hrules => by cases hrules⟩
  | some rules =>
    have hbuilt := (h.built.rules name rules hget).2
    rw [respond_of_ok (h.keeps.read hget).1, Response.sendable_document (isWhole_rulesJson hbuilt)]
    refine ⟨iff_of_false (by simp [Response.status]) (not_not_intro ?_), ?_⟩
    · exact Entries.mem_keys_of_get? hget
    · rintro _ ⟨⟩
      rfl

theorem perform_list (h : s.Stores rs) :
    (perform s d .list).1.sendable = .document 200 (namesJson (Entries.keys rs)) := by
  have hresult : s.names.result = .ok (Entries.keys rs) := (h.keeps.query Entries.keys .ok).1
  rw [perform, respond_of_ok hresult, Response.sendable_document (isWhole_namesJson h.built.names)]

/-- Only a name that is not listed is not found, if the name is whole. -/
theorem perform_execute (h : s.Stores rs) {f : ExecutionForm} (hf : form ExecutionForm.ofJson d = .ok f)
    (hwhole : isWhole f.name = true) :
    (perform s d .execute).1.sendable.status = 404 ↔ f.name ∉ Entries.keys rs := by
  obtain ⟨name, hname⟩ := exists_ofString_of_isWhole hwhole
  have hperform : perform s d .execute =
      respond 200 Report.toJson .ofServiceError (s.execute name f.facts f.nullSafe) := by
    rw [perform, hf]
    simp only [withForm, hname, toString?_ofString]
  rw [hperform, hname]
  cases hget : Entries.get? rs (ofString name) with
  | none =>
    have hresult : (s.execute name f.facts f.nullSafe).result = .error (.notFound name) := by
      rw [Service.execute]
      dsimp only
      rw [(h.keeps.lacks hget).read]
    rw [respond_of_error hresult, Response.sendable_notFound]
    exact iff_of_true rfl (Entries.get?_eq_none_iff.mp hget)
  | some rules =>
    refine iff_of_false ?_ (not_not_intro (Entries.mem_keys_of_get? hget))
    rcases h.keeps.execute_result hget f.facts f.nullSafe with ⟨report, hreport⟩ | ⟨e, he, hfacts⟩
    · rw [respond_of_ok hreport]
      exact Response.status_sendable_ne (by simp [Response.status])
    · rw [respond_of_error he]
      refine Response.status_sendable_ne ?_
      cases hfacts with
      | data fault => simp [Response.ofServiceError, Response.status]
      | rule hcause => simp [Response.ofServiceError, Response.detail, Response.status]
      | crash c => simp [Response.ofServiceError, Response.status]

end

end Http

end Rulebook
