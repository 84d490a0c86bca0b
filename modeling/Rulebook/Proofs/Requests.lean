import Rulebook.Proofs.Answers
import Rulebook.Proofs.Descriptions
import Rulebook.Proofs.Parsing
import Rulebook.Proofs.Splitting

set_option autoImplicit false

/-!
What requests do to a service that keeps its rulesets in memory. The answers tell what happened: a ruleset is
made or extended by a request that is answered with success, and no other request changes anything.
-/

namespace Rulebook.Http

open Text

/-! ### Changes -/

def Response.Succeeds (r : Response) : Prop := 200 ≤ r.status ∧ r.status < 300

/-- The changes of rulesets by an action. A ruleset is made under a new name; one ruleset is extended. -/
inductive Action.Changes (rs : Rulesets) : Action → Rulesets → Prop
  | create {name : String} {rules : List Rule} : (Entries.get? rs (ofString name)).isSome = false →
      Changes rs .create (Entries.put rs (ofString name) rules)
  | add {name : String} {rules : List Rule} :
      Changes rs (.add name) (Entries.put rs (ofString name) rules)

/-- A ruleset stays as it is unless a rule is added to it. -/
theorem Action.Changes.get? {rs rs' : Rulesets} {a : Action} (h : a.Changes rs rs') {name : String}
    (ha : a ≠ .add name) {rules : List Rule} (hget : Entries.get? rs (ofString name) = some rules) :
    Entries.get? rs' (ofString name) = some rules := by
  cases h with
  | @create other added hnew =>
    have hne : ofString other ≠ ofString name := by
      intro heq
      rw [heq, hget] at hnew
      cases hnew
    rw [Entries.get?_put, if_neg hne, hget]
  | @add other added =>
    have hne : ofString other ≠ ofString name := by
      intro heq
      rw [ofString_injective heq] at ha
      exact ha rfl
    rw [Entries.get?_put, if_neg hne, hget]

section

variable {s : Service} {rs : Rulesets}

theorem create_changes (h : s.Stores rs) (name : String) (pairs : List (Text × Text)) :
    ∃ rs', (s.create name pairs).after.Stores rs' ∧
      (rs' = rs ∨ Action.create.Changes rs rs' ∧
        (respond 201 rulesJson .ofCreateError (s.create name pairs)).1.sendable.Succeeds) := by
  cases hb : Rule.buildAll s.store.ids name pairs with
  | error e =>
    rw [Service.create_of_error hb]
    exact ⟨rs, h, .inl rfl⟩
  | ok rules =>
    by_cases hne : rules = []
    · subst hne
      rw [Service.create_of_nil hb]
      exact ⟨rs, h, .inl rfl⟩
    · cases hname : (Entries.get? rs (ofString name)).isSome with
      | true => exact ⟨rs, (h.create_taken hb hne hname).2, .inl rfl⟩
      | false =>
        obtain ⟨hresult, hafter⟩ := h.create_made hb hne hname
        refine ⟨_, hafter, .inr ⟨.create hname, ?_⟩⟩
        have hbuilt := Rule.built_of_buildAll hb
        rw [respond_of_ok hresult, Response.sendable_document (isWhole_rulesJson hbuilt)]
        exact ⟨by simp [Response.status], by simp [Response.status]⟩

theorem add_changes (h : s.Stores rs) (name : String) (text output : Text) :
    ∃ rs', (s.add name text output).after.Stores rs' ∧
      (rs' = rs ∨ (Action.add name).Changes rs rs' ∧
        (respond 200 Rule.toJson .ofServiceError (s.add name text output)).1.sendable.Succeeds) := by
  cases hb : Rule.build (s.store.ids.nth 0) name text output with
  | error e =>
    rw [Service.add_of_error hb]
    exact ⟨rs, h, .inl rfl⟩
  | ok rule =>
    obtain ⟨hresult, hafter⟩ := h.add_made hb
    refine ⟨_, hafter, .inr ⟨.add, ?_⟩⟩
    have hbuilt := Rule.built_of_build hb
    rw [respond_of_ok hresult, Response.sendable_document hbuilt.isWhole_toJson]
    exact ⟨by simp [Response.status], by simp [Response.status]⟩

/-- An action changes something only if it makes or extends a ruleset and is answered with success. -/
theorem perform_changes (h : s.Stores rs) (d : Option Json) (a : Action) :
    ∃ rs', (perform s d a).2.Stores rs' ∧
      (rs' = rs ∨ a.Changes rs rs' ∧ (perform s d a).1.sendable.Succeeds) := by
  cases a with
  | create =>
    rw [perform]
    cases form RulesetForm.ofJson d with
    | error faults => exact ⟨rs, h, .inl rfl⟩
    | ok f => exact create_changes h f.name (f.rules.map RuleForm.pair)
  | add name =>
    rw [perform]
    cases form RuleForm.ofJson d with
    | error faults => exact ⟨rs, h, .inl rfl⟩
    | ok f => exact add_changes h name f.rule f.output
  | execute =>
    rw [perform]
    cases form ExecutionForm.ofJson d with
    | error faults => exact ⟨rs, h, .inl rfl⟩
    | ok f =>
      simp only [withForm]
      split
      · exact ⟨rs, h, .inl rfl⟩
      · exact ⟨rs, h.execute _ _ _, .inl rfl⟩
  | list => exact ⟨rs, h.names, .inl rfl⟩
  | get name => exact ⟨rs, h.rules name, .inl rfl⟩
  | describe => exact ⟨rs, h, .inl rfl⟩

end

/-- A running service keeps these rulesets in memory. -/
def Holds (app : Option Service) (rs : Rulesets) : Prop := ∃ s, app = some s ∧ s.Stores rs

section

variable {app app' : Option Service} {rs rs' : Rulesets} {q : Request} {r : Response}

theorem holds_some {s : Service} : Holds (some s) rs ↔ s.Stores rs := by simp [Holds]

/-- A request changes something only if it asks for a change and is answered with success. -/
theorem Holds.handle (h : Holds app rs) (hr : Http.handle app q = .ok (r, app')) :
    ∃ rs', Holds app' rs' ∧ (rs' = rs ∨ (∃ a, q.Asks a ∧ a.Changes rs rs') ∧ r.Succeeds) := by
  by_cases hasks : ∃ a, q.Asks a ∧ a ≠ .describe
  · obtain ⟨a, ha, hne⟩ := hasks
    obtain ⟨s, rfl, hs⟩ := h
    rw [handle_of_asks ha hne] at hr
    cases hr
    cases hd : a.document? q.body with
    | error fault =>
      refine ⟨rs, ⟨s, ?_, hs⟩, .inl rfl⟩
      cases fault with
      | encoding => simp only [act, hd]
      | unread fault => cases fault <;> simp only [act, hd]
    | ok d =>
      rw [act_of_document hd]
      obtain ⟨rs', hafter, hchange⟩ := perform_changes hs d a
      exact ⟨rs', holds_some.mpr hafter, hchange.imp_right fun hchange => ⟨⟨a, ha, hchange.1⟩, hchange.2⟩⟩
  · refine ⟨rs, ?_, .inl rfl⟩
    rw [handle_of_not_asks (fun a ha => by_contra fun hne => hasks ⟨a, ha, hne⟩) hr]
    exact h

end

/-! ### Answers -/

/-- The answer to a request, over the rulesets before it and after it. -/
structure Answers (rs : Rulesets) (q : Request) (r : Response) (rs' : Rulesets) : Prop where
  unchanged : ¬r.Succeeds ∨ q.verb = "GET" ∨ q.Asks .execute → rs' = rs
  create : ∀ f, q.Asks .create → q.Sends RulesetForm.ofJson f → (∀ g ∈ f.rules, isWhole g.rule = true) →
    Creates rs f r rs'
  add : ∀ name f, q.Asks (.add name) → q.Sends RuleForm.ofJson f → isWhole f.rule = true →
    Adds rs name f r rs'
  list : q.Asks .list → r = .document 200 (namesJson (Entries.keys rs))
  get : ∀ name, q.Asks (.get name) → (r.status = 404 ↔ ofString name ∉ Entries.keys rs) ∧
    ∀ rules, Entries.get? rs (ofString name) = some rules → r = .document 200 (rulesJson rules)
  execute : ∀ f, q.Asks .execute → q.Sends ExecutionForm.ofJson f → isWhole f.name = true →
    (r.status = 404 ↔ f.name ∉ Entries.keys rs)

section

variable {app app' : Option Service} {s : Service} {rs : Rulesets} {q : Request} {r : Response}
  {a : Action} {d : Option Json}

theorem perform_of_handle (ha : q.Asks a) (hne : a ≠ .describe) (hd : a.document? q.body = .ok d)
    (hr : handle (some s) q = .ok (r, app')) :
    r = (perform s d a).1.sendable ∧ app' = some (perform s d a).2 := by
  rw [handle_of_document ha hne hd] at hr
  cases hr
  exact ⟨rfl, rfl⟩

theorem Holds.answers (h : Holds app rs) (hr : Http.handle app q = .ok (r, app')) :
    ∃ rs', Holds app' rs' ∧ Answers rs q r rs' := by
  obtain ⟨rs', h', hchange⟩ := h.handle hr
  obtain ⟨s, rfl, hs⟩ := h
  refine ⟨rs', h', ?_, ?_, ?_, ?_, ?_, ?_⟩
  · intro hidle
    rcases hchange with rfl | ⟨⟨a, ha, hchanges⟩, hsucceeds⟩
    · rfl
    · rcases hidle with hfails | hget | hexecute
      · exact absurd hsucceeds hfails
      · have hverb := ha.verb
        rw [hget] at hverb
        cases hchanges <;> simp [Action.methods] at hverb
      · cases ha.unique hexecute
        cases hchanges
  · rintro f ha ⟨d, hd, hf⟩ hwhole
    obtain ⟨rfl, rfl⟩ := perform_of_handle ha (by simp) hd hr
    exact perform_create hs hf hwhole (holds_some.mp h')
  · rintro name f ha ⟨d, hd, hf⟩ hwhole
    obtain ⟨rfl, rfl⟩ := perform_of_handle ha (by simp) hd hr
    exact perform_add hs hf hwhole (holds_some.mp h')
  · intro ha
    obtain ⟨rfl, rfl⟩ := perform_of_handle ha (by simp) rfl hr
    exact perform_list hs
  · intro name ha
    obtain ⟨rfl, rfl⟩ := perform_of_handle ha (by simp) rfl hr
    exact perform_get hs name
  · rintro f ha ⟨d, hd, hf⟩ hwhole
    obtain ⟨rfl, rfl⟩ := perform_of_handle ha (by simp) hd hr
    exact perform_execute hs hf hwhole

end

/-! ### Sequences of requests -/

/-- The service after a request. A request whose address is at fault is not sent. -/
def next (app : Option Service) (q : Request) : Option Service :=
  match handle app q with
  | .ok answer => answer.2
  | .error _ => app

def after (app : Option Service) (qs : List Request) : Option Service := qs.foldl next app

section

variable {app app' : Option Service} {s : Service} {rs : Rulesets} {q : Request} {r : Response}
  {name : String} {rules : List Rule}

theorem Holds.next (h : Holds app rs) (q : Request) :
    ∃ rs', Holds (next app q) rs' ∧ (rs' = rs ∨ ∃ a, q.Asks a ∧ a.Changes rs rs') := by
  rw [Http.next]
  cases hr : Http.handle app q with
  | ok answer =>
    obtain ⟨rs', h', hchange⟩ := h.handle hr
    exact ⟨rs', h', hchange.imp_right fun hchange => hchange.1⟩
  | error fault => exact ⟨rs, h, .inl rfl⟩

theorem Holds.after (h : Holds app rs) (qs : List Request) : ∃ rs', Holds (after app qs) rs' := by
  induction qs generalizing app rs with
  | nil => exact ⟨rs, h⟩
  | cons q qs ih =>
    obtain ⟨rs', h', -⟩ := h.next q
    exact ih h'

/-- A ruleset stays as it is until a rule is added to it. -/
theorem Holds.after_get? (h : Holds app rs) (hget : Entries.get? rs (ofString name) = some rules)
    {qs : List Request} (hqs : ∀ q ∈ qs, ¬q.Asks (.add name)) :
    ∃ rs', Holds (Http.after app qs) rs' ∧ Entries.get? rs' (ofString name) = some rules := by
  induction qs generalizing app rs with
  | nil => exact ⟨rs, h, hget⟩
  | cons q qs ih =>
    obtain ⟨hq, hqs⟩ := List.forall_mem_cons.mp hqs
    obtain ⟨rs', h', hchange⟩ := h.next q
    refine ih h' ?_ hqs
    rcases hchange with rfl | ⟨a, ha, hchanges⟩
    · exact hget
    · refine hchanges.get? ?_ hget
      rintro rfl
      exact hq ha

theorem Holds.handle_get (h : Holds app rs) (hget : Entries.get? rs (ofString name) = some rules)
    (ha : q.Asks (.get name)) :
    ∃ app', Http.handle app q = .ok (.document 200 (rulesJson rules), app') := by
  obtain ⟨s, rfl, hs⟩ := h
  rw [handle_of_document ha (by simp) rfl, (perform_get hs name).2 rules hget]
  exact ⟨_, rfl⟩

/-- Requests to a service that starts with a store in memory. At any time it holds some rulesets, and the next
request is answered from them: only requests that succeed change them. What is answered to the form of a new
ruleset is what is read from then on, until a rule is added to it. Rule texts and the names of rulesets to be
executed are those without surrogates. -/
theorem requests_answered {settings : Settings} {directory : Directory} {ids : Ids}
    (hnew : Service.new? settings directory ids = some s) (hmemory : settings.storePath = "")
    (past : List Request) :
    (∀ (q : Request) (name : String), q.verb = "GET" → name ≠ "" → '/' ∉ name.toList →
      path q.address = .ok ("/api/rulesets".toList ++ '/' :: name.toList) → q.Asks (.get name)) ∧
    ∃ rs, Holds (after (some s) past) rs ∧
      ∀ q r app, handle (after (some s) past) q = .ok (r, app) →
        ∃ rs', Holds app rs' ∧ Answers rs q r rs' ∧
          ∀ f, q.Asks .create → q.Sends RulesetForm.ofJson f →
            (∀ g ∈ f.rules, isWhole g.rule = true) → r.status = 201 →
            ∀ later, (∀ p ∈ later, ¬p.Asks (.add f.name)) → ∀ g, g.Asks (.get f.name) →
              ∃ body app', r = .document 201 body ∧
                handle (after app later) g = .ok (.document 200 body, app') := by
  have hasks : ∀ (q : Request) (name : String), q.verb = "GET" → name ≠ "" → '/' ∉ name.toList →
      path q.address = .ok ("/api/rulesets".toList ++ '/' :: name.toList) → q.Asks (.get name) := by
    intro q name hverb hne hslash hpath
    refine ⟨_, hpath, ?_⟩
    rw [hverb]
    exact route_get hne hslash
  have hstart : Holds (some s) [] := holds_some.mpr (Service.stores_of_new hnew hmemory)
  obtain ⟨rs, h⟩ := hstart.after past
  refine ⟨hasks, rs, h, fun q r app hr => ?_⟩
  obtain ⟨rs', h', hanswers⟩ := h.answers hr
  refine ⟨rs', h', hanswers, fun f ha hf hwhole hmade later hlater g hg => ?_⟩
  have hcreates := hanswers.create f ha hf hwhole
  obtain ⟨rules, rfl, rfl, -⟩ := hcreates.stored hmade
  have hname := (hcreates.made_iff.mp hmade).2
  have hget : Entries.get? (rs ++ [(ofString f.name, rules)]) (ofString f.name) = some rules := by
    rw [← Entries.put_of_not_mem hname, Entries.get?_put, if_pos rfl]
  obtain ⟨rs'', hlast, hkept⟩ := h'.after_get? hget hlater
  obtain ⟨app', hanswer⟩ := hlast.handle_get hkept hg
  exact ⟨rulesJson rules, app', rfl, hanswer⟩

end

/-- A ruleset of one rule. -/
def creation : Request where
  method := "POST"
  address := "/api/rulesets"
  body := some ("\x7b\"name\": \"greetings\", \"rules\": [\x7b\"rule\": \"true THEN 1\", " ++
    "\"output_variable\": \"greeting\"\x7d]\x7d")

def reading : Request := ⟨"get", "/api/rulesets/greetings", none⟩

theorem requests_answered_greetings :
    Service.new? .default (.empty "09:00") ⟨toString, 0⟩ = some Service.ofNoRules ∧
      Settings.default.storePath = "" ∧
      ∃ body app app', handle (some Service.ofNoRules) creation = .ok (.document 201 body, app) ∧
        handle app reading = .ok (.document 200 body, app') := by
  have hnew : Service.new? .default (.empty "09:00") ⟨toString, 0⟩ = some Service.ofNoRules := by
    with_unfolding_all rfl
  obtain ⟨-, rs, -, hnext⟩ := requests_answered hnew rfl []
  have hasks : creation.Asks .create := ⟨"/api/rulesets".toList, by decide +kernel, by decide +kernel⟩
  have hreads : reading.Asks (.get "greetings") :=
    ⟨"/api/rulesets/greetings".toList, by decide +kernel, by decide +kernel⟩
  have hdocument : document creation.body = .ok (some (.obj [("name", .str "greetings"),
      ("rules", .arr [.obj [("rule", .str "true THEN 1"), ("output_variable", .str "greeting")]])])) := by
    with_unfolding_all rfl
  have hform : creation.Sends RulesetForm.ofJson ⟨"greetings", [⟨"true THEN 1", "greeting"⟩]⟩ :=
    ⟨_, hdocument, by with_unfolding_all rfl⟩
  have hr := handle_of_document (s := Service.ofNoRules) hasks (by simp) hdocument
  obtain ⟨rs', -, -, hstays⟩ := hnext creation _ _ hr
  obtain ⟨body, app', hmade, hread⟩ :=
    hstays _ hasks hform (by simp) (by decide +kernel) [] (by simp) reading hreads
  rw [hmade] at hr
  exact ⟨hnew, rfl, body, _, app', hr, hread⟩

/-! ### Digits -/

/-- A rule text that ends with an integer of one digit too many. -/
def longText : String := "true THEN " ++ Token.longInteger

theorem plain_longInteger : RuleText.Plain (ofString Token.longInteger) := by
  have hone : CodePoint.char '1' ∉ RuleText.keyword ∧ CodePoint.isA isBlank (.char '1') = false := by decide +kernel
  intro p hp
  obtain ⟨c, hc, rfl⟩ := List.mem_map.mp hp
  rw [Token.longInteger, String.toList_ofList] at hc
  rwa [List.eq_of_mem_replicate hc]

/-- A rule text is split before an integer of too many digits, but this is no expression. -/
theorem refused_of_overruns {n : String} (hn : RuleText.Plain n) (hdigits : Token.Overruns n.toList) :
    Rule.Refused (ofString ("true THEN " ++ n)) .digits := by
  have htrue : RuleText.Plain "true" := by
    rw [RuleText.Plain]
    decide +kernel
  have hne : ofString n ≠ [] := by simpa [ofString, ofChars] using hdigits.ne_nil
  have hsplit := RuleText.split_of_plain htrue hn (by decide) hne
  have hcondition : (parse "true").isOk = true := by decide +kernel
  obtain ⟨c, hc⟩ := isOk_iff.mp hcondition
  rw [← shown_ofString "true"] at hc
  have ht : parse (Text.shown n) = .error .digits := by
    rw [shown_ofString]
    exact parse_eq_digits_iff.mpr hdigits
  rw [ofString_append]
  exact .transformation hsplit hc (.digits ht)

theorem refused_longText : Rule.Refused longText .digits :=
  refused_of_overruns plain_longInteger Token.overruns_longInteger

section

variable (text : String) (texts : List String)

/-- A rule, as it is written in a body. -/
def ruleMembers : List (Text × Json) := [("rule", .str text), ("output_variable", .str "v")]

/-- A ruleset, as it is written in a body. -/
def rulesetMembers : List (Text × Json) :=
  [("name", .str "a"), ("rules", .arr (texts.map fun text => .obj (ruleMembers text)))]

def formOf : RulesetForm := ⟨"a", texts.map fun text : String => ⟨text, "v"⟩⟩

theorem regular_ruleMembers : Json.Regular Json.IsText (.obj (ruleMembers text)) := by
  refine Json.regular_record _ [("rule", .str text), ("output_variable", .str "v")] (by simp) ?_
  simp [Json.regular_ofString]

theorem regular_rulesetMembers : Json.Regular Json.IsText (.obj (rulesetMembers texts)) := by
  have hrules : Json.Regular Json.IsText (.arr (texts.map fun text => .obj (ruleMembers text))) :=
    .arr (List.forall_mem_map.mpr fun text _ => regular_ruleMembers text)
  refine Json.regular_record _ [("name", .str "a"), ("rules", .arr _)] (by simp) ?_
  simp [Json.regular_ofString, hrules]

theorem ruleMembers_describe : RuleForm.DescribedBy ⟨text, "v"⟩ (.obj (ruleMembers text)) where
  rule := by simp [ruleMembers, Json.get?, Entries.get?_cons]
  output := by simp [ruleMembers, Json.get?, Entries.get?_cons, ofString_inj]
  output_ne := by simp

theorem rulesetMembers_describe (h : texts ≠ []) : (formOf texts).DescribedBy (.obj (rulesetMembers texts)) where
  name := by simp [rulesetMembers, formOf, Json.get?, Entries.get?_cons]
  name_ne := by simp [formOf]
  rules := by
    refine ⟨texts.map fun text => .obj (ruleMembers text), ?_, ?_⟩
    · simp [rulesetMembers, Json.get?, Entries.get?_cons, ofString_inj]
    · rw [formOf, List.forall₂_map_left_iff, List.forall₂_map_right_iff, List.forall₂_same]
      exact fun text _ => ruleMembers_describe text
  rules_ne := mt List.map_eq_nil_iff.mp h

/-- A request to add a rule. -/
def addition : Request := ⟨"POST", "/api/rulesets/a/rules", some (Json.obj (ruleMembers text)).indented⟩

/-- A request to make a ruleset. -/
def creationOf : Request := ⟨"POST", "/api/rulesets", some (Json.obj (rulesetMembers texts)).indented⟩

theorem addition_asks : (addition text).Asks (.add "a") := by
  have hpath : path "/api/rulesets/a/rules" = .ok "/api/rulesets/a/rules".toList := by decide +kernel
  have hroute : route "POST" "/api/rulesets/a/rules".toList = .ok (.add "a") := by decide +kernel
  refine ⟨_, hpath, ?_⟩
  rw [Request.verb_of_post rfl, hroute]

theorem creationOf_asks : (creationOf texts).Asks .create := by
  have hpath : path "/api/rulesets" = .ok "/api/rulesets".toList := by decide +kernel
  have hroute : route "POST" "/api/rulesets".toList = .ok .create := by decide +kernel
  refine ⟨_, hpath, ?_⟩
  rw [Request.verb_of_post rfl, hroute]

theorem document_addition : document (addition text).body = .ok (some (.obj (ruleMembers text))) :=
  document_indented (by simp [ruleMembers]) (regular_ruleMembers text)

theorem document_creationOf : document (creationOf texts).body = .ok (some (.obj (rulesetMembers texts))) :=
  document_indented (by simp [rulesetMembers]) (regular_rulesetMembers texts)

theorem form_addition : form RuleForm.ofJson (some (.obj (ruleMembers text))) = .ok ⟨text, "v"⟩ :=
  Checked.under_eq_ok.mpr (ruleMembers_describe text).ofJson_eq

theorem form_creationOf (h : texts ≠ []) :
    form RulesetForm.ofJson (some (.obj (rulesetMembers texts))) = .ok (formOf texts) :=
  Checked.under_eq_ok.mpr (rulesetMembers_describe texts h).ofJson_eq

variable {text : String} {texts : List String} {s : Service} {rs : Rulesets} (h : s.Stores rs)
  (hdigits : Rule.Refused text .digits)

include h hdigits

/-- Whoever adds a rule is not told of too many digits. -/
theorem handle_addition_of_digits :
    (handle (some s) (addition text)).toOption.map (·.1.status) = some 500 := by
  obtain ⟨rs', hrs', -⟩ := perform_changes h (some (.obj (ruleMembers text))) (.add "a")
  have hadds := perform_add h (form_addition text) (isWhole_ofString text) hrs'
  rw [handle_of_document (addition_asks text) (by simp) (document_addition text)]
  exact congrArg some (hadds.failed_iff.mpr hdigits)

/-- Whoever makes a ruleset is told of them. -/
theorem handle_creationOf_of_digits (hmem : text ∈ texts) :
    (handle (some s) (creationOf texts)).toOption.map (·.1.status) = some 400 := by
  obtain ⟨rs', hrs', -⟩ := perform_changes h (some (.obj (rulesetMembers texts))) .create
  have hcreates := perform_create h (form_creationOf texts (List.ne_nil_of_mem hmem)) (by simp [formOf]) hrs'
  have hread : ∃ g ∈ (formOf texts).rules, ¬Rule.Readable g.rule :=
    ⟨_, List.mem_map_of_mem hmem, hdigits.not_readable⟩
  rw [handle_of_document (creationOf_asks texts) (by simp) (document_creationOf texts)]
  exact congrArg some (hcreates.refused_iff.mpr (.inr hread))

end

/-! ### Texts without an answer -/

/-- Half of a surrogate pair between quotes. -/
def lone : Text := ofString "true THEN '" ++ [.surrogate 0x400] ++ ofString "'"

def loneAddition : Request where
  method := "POST"
  address := "/api/rulesets/a/rules"
  body := some "\x7b\"rule\": \"true THEN '\\udc00'\", \"output_variable\": \"v\"\x7d"

def loneCreation : Request where
  method := "POST"
  address := "/api/rulesets"
  body := some ("\x7b\"name\": \"a\", \"rules\": [\x7b\"rule\": \"true THEN '\\udc00'\", " ++
    "\"output_variable\": \"v\"\x7d]\x7d")

def loneExecution : Request where
  method := "POST"
  address := "/api/rulesets/execute"
  body := some "\x7b\"ruleset_name\": \"\\udfff\"\x7d"

/-- A text is readable although a surrogate stands in it. It becomes no rule, and the answers do not say what is
wrong with it; nor can it be said that a name with a surrogate is not found. Of too many digits those are told who
make a ruleset, and not those who add a rule. -/
theorem not_always_told :
    Service.new? .default (.empty "09:00") ⟨toString, 0⟩ = some Service.ofNoRules ∧
      Settings.default.storePath = "" ∧ Rule.Readable lone ∧
      (loneAddition.Asks (.add "a") ∧ loneAddition.Sends RuleForm.ofJson ⟨lone, "v"⟩ ∧
        (handle (some Service.ofNoRules) loneAddition).toOption.map (·.1.status) = some 500) ∧
      (loneCreation.Asks .create ∧ loneCreation.Sends RulesetForm.ofJson ⟨"a", [⟨lone, "v"⟩]⟩ ∧
        (handle (some Service.ofNoRules) loneCreation).toOption.map (·.1.status) = some 400) ∧
      (loneExecution.Asks .execute ∧
        loneExecution.Sends ExecutionForm.ofJson ⟨[.surrogate 0x7ff], [], none⟩ ∧
        (handle (some Service.ofNoRules) loneExecution).toOption.map (·.1.status) = some 500) ∧
      Rule.Refused longText .digits ∧
      ((addition longText).Asks (.add "a") ∧ (addition longText).Sends RuleForm.ofJson ⟨longText, "v"⟩ ∧
        (handle (some Service.ofNoRules) (addition longText)).toOption.map (·.1.status) = some 500) ∧
      (creationOf [longText]).Asks .create ∧
        (creationOf [longText]).Sends RulesetForm.ofJson ⟨"a", [⟨longText, "v"⟩]⟩ ∧
        (handle (some Service.ofNoRules) (creationOf [longText])).toOption.map (·.1.status) = some 400 := by
  have hcondition : (parse "true").isOk = true := by decide +kernel
  have htransformation : (parse "'\uFFFD'").isOk = true := by decide +kernel
  obtain ⟨c, hc⟩ := isOk_iff.mp hcondition
  obtain ⟨t, ht⟩ := isOk_iff.mp htransformation
  have hsplit : RuleText.split lone =
      .ok ⟨ofString "true", ofString "'" ++ [.surrogate 0x400] ++ ofString "'"⟩ := by decide +kernel
  have hadds : loneAddition.Asks (.add "a") :=
    ⟨"/api/rulesets/a/rules".toList, by decide +kernel, by decide +kernel⟩
  have hadded : document loneAddition.body =
      .ok (some (.obj [("rule", .str lone), ("output_variable", .str "v")])) := by
    with_unfolding_all rfl
  have hcreates : loneCreation.Asks .create := ⟨"/api/rulesets".toList, by decide +kernel, by decide +kernel⟩
  have hcreated : document loneCreation.body = .ok (some (.obj [("name", .str "a"),
      ("rules", .arr [.obj [("rule", .str lone), ("output_variable", .str "v")]])])) := by
    with_unfolding_all rfl
  have hexecutes : loneExecution.Asks .execute :=
    ⟨"/api/rulesets/execute".toList, by decide +kernel, by decide +kernel⟩
  have hexecuted : document loneExecution.body =
      .ok (some (.obj [("ruleset_name", .str [.surrogate 0x7ff])])) := by
    with_unfolding_all rfl
  have hnew : Service.new? .default (.empty "09:00") ⟨toString, 0⟩ = some Service.ofNoRules := by
    with_unfolding_all rfl
  have hstores := Service.stores_of_new hnew rfl
  refine ⟨hnew, rfl, ⟨_, c, t, hsplit, hc, ht⟩, ⟨hadds, ⟨_, hadded, ?_⟩, ?_⟩,
    ⟨hcreates, ⟨_, hcreated, ?_⟩, ?_⟩, ⟨hexecutes, ⟨_, hexecuted, ?_⟩, ?_⟩, refused_longText,
    ⟨addition_asks _, ⟨_, document_addition _, form_addition _⟩, handle_addition_of_digits hstores refused_longText⟩,
    creationOf_asks _, ⟨_, document_creationOf _, form_creationOf _ (by simp)⟩,
    handle_creationOf_of_digits hstores refused_longText (by simp)⟩
  · with_unfolding_all rfl
  · rw [handle_of_document hadds (by simp) hadded]
    decide +kernel
  · with_unfolding_all rfl
  · rw [handle_of_document hcreates (by simp) hcreated]
    decide +kernel
  · with_unfolding_all rfl
  · rw [handle_of_document hexecutes (by simp) hexecuted]
    decide +kernel

end Rulebook.Http
