import Rulebook.Proofs.Building
import Rulebook.Proofs.Stores
import Rulebook.Service

set_option autoImplicit false

/-!
What a service that started with an empty store comes to. Whatever it was asked, its rulesets have strings
for names and one rule at least, and every rule was built for the ruleset it is in. So the reads agree on what
is there, and a ruleset that is listed fails for the facts only.
-/

namespace Rulebook

open Text

/-- Rulesets that a service makes. -/
structure Rulesets.Built (rs : Rulesets) : Prop where
  names : ∀ key ∈ Entries.keys rs, ∃ name : String, key = ofString name
  rules : ∀ (name : String) (rules : List Rule), Entries.get? rs (ofString name) = some rules →
    rules ≠ [] ∧ ∀ r ∈ rules, r.Built name

theorem Rulesets.built_nil : Rulesets.Built [] := ⟨by simp [Entries.keys], fun _ _ h => by cases h⟩

theorem Rulesets.Built.put {rs : Rulesets} (h : rs.Built) {name : String} {rules : List Rule}
    (hne : rules ≠ []) (hrules : ∀ r ∈ rules, r.Built name) :
    Rulesets.Built (Entries.put rs (ofString name) rules) where
  names := by
    intro key hkey
    rcases Entries.mem_keys_put.mp hkey with rfl | hkey
    · exact ⟨name, rfl⟩
    · exact h.names key hkey
  rules := by
    intro name' rules' hget
    rw [Entries.get?_put] at hget
    split at hget
    · next heq =>
      cases ofString_injective heq
      cases hget
      exact ⟨hne, hrules⟩
    · exact h.rules name' rules' hget

theorem Rulesets.Built.getD {rs : Rulesets} (h : rs.Built) (name : String) :
    ∀ r ∈ (Entries.get? rs (ofString name)).getD [], r.Built name := by
  cases hget : Entries.get? rs (ofString name) with
  | none => simp
  | some rules => exact (h.rules name rules hget).2

/-- A rule at the end of a ruleset, which is made if there is none. -/
theorem Rulesets.Built.append {rs : Rulesets} (h : rs.Built) {name : String} {rule : Rule}
    (hrule : rule.Built name) :
    Rulesets.Built (Entries.put rs (ofString name)
      ((Entries.get? rs (ofString name)).getD [] ++ [rule])) := by
  refine h.put (by simp) fun r hr => ?_
  rcases List.mem_append.mp hr with hr | hr
  · exact h.getD name r hr
  · cases List.mem_singleton.mp hr
    exact hrule

theorem Rule.built_of_buildAll {ids : Ids} {ruleset : String} {pairs : List (Text × Text)} {rules : List Rule}
    (h : buildAll ids ruleset pairs = .ok rules) : ∀ r ∈ rules, r.Built ruleset := by
  induction pairs generalizing ids rules with
  | nil =>
    cases h
    simp
  | cons pair pairs ih =>
    obtain ⟨text, output⟩ := pair
    obtain ⟨r, hr, h⟩ := bind_eq_ok.mp h
    obtain ⟨rest, hrest, h⟩ := bind_eq_ok.mp h
    cases h
    exact List.forall_mem_cons.mpr ⟨built_of_build hr, ih hrest⟩

namespace Service

/-- What a service is called for. -/
inductive Call where
  | create (name : String) (pairs : List (Text × Text))
  | add (name : String) (text output : Text)
  | execute (name : String) (facts : List (Key × Value)) (nullSafe : Option Bool)
  | names
  | rules (name : String)
  | has (name : String)
  | count (name : String)

/-- The service after a call, whether the call fails or not. -/
def after (s : Service) : Call → Service
  | .create name pairs => (s.create name pairs).after
  | .add name text output => (s.add name text output).after
  | .execute name facts nullSafe => (s.execute name facts nullSafe).after
  | .names => s.names.after
  | .rules name => (s.rules name).after
  | .has name => (s.has name).after
  | .count name => (s.count name).after

/-- A call, and what the service finds around its store. -/
structure Turn where
  call : Call
  clock : String
  full : Bool

/-- The service that is called. -/
def Turn.open (t : Turn) (s : Service) : Service :=
  let directory := { s.store.directory with clock := t.clock, full := t.full }
  { s with store := { s.store with directory } }

/-- The service after some calls, one after the other. -/
def run (s : Service) (turns : List Turn) : Service :=
  turns.foldl (fun s t => (t.open s).after t.call) s

/-- The service keeps rulesets that it made. -/
def Keeps (s : Service) (rs : Rulesets) : Prop := s.store.Keeps rs ∧ rs.Built

variable {s : Service} {rs : Rulesets}

/-- A read is answered from the rulesets that are kept. -/
theorem Keeps.query {α β : Type} (h : s.Keeps rs) (view : Rulesets → α) (answer : α → Except ServiceError β) :
    let r := s.query (·.query view) answer
    r.result = answer (view rs) ∧ r.after.Keeps rs := by
  obtain ⟨ids, hids⟩ := h.1.query view
  intro r
  have hr : r = ⟨answer (view rs), [], { s with store := { s.store with ids } }⟩ := by
    simp only [r, Service.query, hids]
    rfl
  rw [hr]
  exact ⟨rfl, h.1.withIds ids, h.2⟩

/-! ### What a call leaves -/

/-- A ruleset is stored only with rules that were built for it, and with one at least. -/
theorem Keeps.create (h : s.Keeps rs) (name : String) (pairs : List (Text × Text)) :
    ∃ rs, (s.create name pairs).after.Keeps rs := by
  rw [Service.create]
  split
  · exact ⟨rs, h⟩
  · exact ⟨rs, h⟩
  · next rules hne hbuild =>
    have hkeeps : (s.skipIds rules.length).store.Keeps rs := h.1.withIds _
    have hrules := Rule.built_of_buildAll hbuild
    dsimp only
    by_cases hname : (Entries.get? rs (ofString name)).isSome = true
    · rw [hkeeps.create_taken hname rules]
      exact ⟨rs, hkeeps, h.2⟩
    · rcases (hkeeps.create (by simpa using hname) rules).keeps with hkept | hmade
      · exact ⟨rs, hkept, h.2⟩
      · exact ⟨_, hmade, h.2.put hne hrules⟩

theorem Keeps.add (h : s.Keeps rs) (name : String) (text output : Text) :
    ∃ rs, (s.add name text output).after.Keeps rs := by
  rw [Service.add]
  split
  · exact ⟨rs, h⟩
  · next rule hbuild =>
    have hkeeps : (s.skipIds 1).store.Keeps rs := h.1.withIds _
    obtain ⟨ids, hget⟩ := hkeeps.query fun rs => (Entries.get? rs (ofString name)).getD []
    change (s.skipIds 1).store.get name = _ at hget
    dsimp only
    rw [hget]
    rcases ((hkeeps.withIds ids).append name rule).keeps with hkept | hmade
    · exact ⟨rs, hkept, h.2⟩
    · exact ⟨_, hmade, h.2.append (Rule.built_of_build hbuild)⟩

theorem Keeps.execute (h : s.Keeps rs) (name : String) (facts : List (Key × Value)) (nullSafe : Option Bool) :
    (s.execute name facts nullSafe).after.Keeps rs := by
  have hkeeps : (s.rules name).after.Keeps rs := (h.query _ _).2
  rw [Service.execute]
  dsimp only
  split <;> exact hkeeps

/-- A service keeps made rulesets whatever it is called for. -/
theorem Keeps.after (h : s.Keeps rs) (c : Call) : ∃ rs, (s.after c).Keeps rs := by
  cases c with
  | create name pairs => exact h.create name pairs
  | add name text output => exact h.add name text output
  | execute name facts nullSafe => exact ⟨rs, h.execute name facts nullSafe⟩
  | names => exact ⟨rs, (h.query _ _).2⟩
  | rules name => exact ⟨rs, (h.query _ _).2⟩
  | has name => exact ⟨rs, (h.query _ _).2⟩
  | count name => exact ⟨rs, (h.query _ _).2⟩

theorem Keeps.run (h : s.Keeps rs) (turns : List Turn) : ∃ rs, (s.run turns).Keeps rs := by
  induction turns generalizing s rs with
  | nil => exact ⟨rs, h⟩
  | cons t turns ih =>
    have hopen : (t.open s).Keeps rs := ⟨h.1.within t.clock t.full, h.2⟩
    obtain ⟨rs', h'⟩ := hopen.after t.call
    exact ih h'

/-! ### What a service shows -/

/-- What a service shows of a ruleset that it lists. -/
structure Shows (s : Service) (name : String) (rules : List Rule) : Prop where
  read : (s.rules name).result = .ok rules
  has : (s.has name).result = .ok true
  count : (s.count name).result = .ok rules.length
  ne_nil : rules ≠ []
  built : ∀ r ∈ rules, r.Built name
  execute : ∀ facts nullSafe,
    (∃ report, (s.execute name facts nullSafe).result = .ok report) ∨
      ∃ e, (s.execute name facts nullSafe).result = .error (.execute e) ∧ e.OfFacts

/-- What a service shows of any other name. -/
structure Lacks (s : Service) (name : String) : Prop where
  read : (s.rules name).result = .error (.notFound name)
  has : (s.has name).result = .ok false
  count : (s.count name).result = .ok 0

theorem Keeps.get_result {β : Type} (h : s.Keeps rs) (name : String)
    (answer : List Rule → Except ServiceError β) :
    (s.query (·.get name) answer).result = answer ((Entries.get? rs (ofString name)).getD []) :=
  (h.query (fun rs => (Entries.get? rs (ofString name)).getD []) answer).1

theorem Keeps.read (h : s.Keeps rs) {name : String} {rules : List Rule}
    (hget : Entries.get? rs (ofString name) = some rules) :
    (s.rules name).result = .ok rules ∧ (s.has name).result = .ok true ∧
      (s.count name).result = .ok rules.length := by
  have hempty : rules.isEmpty = false := by simpa using (h.2.rules name rules hget).1
  rw [Service.rules, Service.has, Service.count, h.get_result, h.get_result, h.get_result, hget]
  simp [hempty]

theorem Keeps.execute_result (h : s.Keeps rs) {name : String} {rules : List Rule}
    (hget : Entries.get? rs (ofString name) = some rules) (facts : List (Key × Value))
    (nullSafe : Option Bool) :
    (∃ report, (s.execute name facts nullSafe).result = .ok report) ∨
      ∃ e, (s.execute name facts nullSafe).result = .error (.execute e) ∧ e.OfFacts := by
  obtain ⟨hne, hbuilt⟩ := h.2.rules name rules hget
  rw [Service.execute]
  dsimp only
  rw [(h.read hget).1]
  dsimp only
  cases hrun : (Executor.run ⟨rules, name, nullSafe.getD s.settings.nullSafe⟩ facts none).1 with
  | ok report => exact .inl ⟨report, rfl⟩
  | error e => exact .inr ⟨e, rfl, Executor.ofFacts_of_run hne hbuilt hrun⟩

theorem Keeps.shows (h : s.Keeps rs) {name : String} {rules : List Rule}
    (hget : Entries.get? rs (ofString name) = some rules) : s.Shows name rules :=
  have hread := h.read hget
  have hbuilt := h.2.rules name rules hget
  ⟨hread.1, hread.2.1, hread.2.2, hbuilt.1, hbuilt.2, h.execute_result hget⟩

theorem Keeps.lacks (h : s.Keeps rs) {name : String} (hget : Entries.get? rs (ofString name) = none) :
    s.Lacks name := by
  constructor
  · rw [Service.rules, h.get_result, hget]
    rfl
  · rw [Service.has, h.get_result, hget]
    rfl
  · rw [Service.count, h.get_result, hget]
    rfl

/-- A service that starts without rulesets, whatever it is called for, lists strings. It shows all reads the
same: every name that is listed has rules, all of them built for it, and no other name has any. Executing a
ruleset that is listed gives a report or fails for the facts, never for the form of a rule or for want of
rules. -/
theorem run_shows_built {left : Ids} (h : s.store.load = .ok ([], left)) (turns : List Turn) :
    ∃ listed, (s.run turns).names.result = .ok listed ∧
      (∀ key ∈ listed, ∃ name : String, key = ofString name) ∧
      ∀ name : String, (ofString name ∈ listed → ∃ rules, (s.run turns).Shows name rules) ∧
        (ofString name ∉ listed → (s.run turns).Lacks name) := by
  have hempty : s.Keeps [] := ⟨Store.keeps_of_load_nil h, Rulesets.built_nil⟩
  obtain ⟨rs, hkeeps⟩ := hempty.run turns
  refine ⟨Entries.keys rs, (hkeeps.query Entries.keys .ok).1, hkeeps.2.names, fun name => ⟨?_, ?_⟩⟩
  · intro hlisted
    obtain ⟨rules, hrules⟩ := Option.isSome_iff_exists.mp ((Entries.isSome_get?_iff rs _).mpr hlisted)
    exact ⟨rules, hkeeps.shows hrules⟩
  · intro hmissing
    exact hkeeps.lacks (Entries.get?_eq_none_iff.mpr hmissing)

/-- A service with a new store in memory. -/
def ofNoRules : Service := ⟨.default, .atPath "" (.empty "09:00") ⟨toString, 0⟩⟩

/-- A ruleset is made; one without rules and a rule without a transformation are refused. -/
def greetings : List Turn :=
  [⟨.create "greetings" [(ofString "true THEN 1", ofString "greeting")], "09:00", false⟩,
    ⟨.create "none" [], "09:00", false⟩,
    ⟨.add "greetings" (ofString "1 THEN") (ofString "greeting"), "09:00", false⟩]

theorem run_shows_built_greetings :
    ofNoRules.store.load = .ok ([], ⟨toString, 0⟩) ∧
      (∃ rules, (ofNoRules.run greetings).Shows "greetings" rules) ∧
      (ofNoRules.run greetings).Lacks "none" := by
  have hload : ofNoRules.store.load = .ok ([], ⟨toString, 0⟩) := rfl
  have hnames : (ofNoRules.run greetings).names.result = .ok [ofString "greetings"] := by
    with_unfolding_all rfl
  obtain ⟨listed, hlisted, -, hshows⟩ := run_shows_built hload greetings
  cases hnames.symm.trans hlisted
  exact ⟨hload, (hshows "greetings").1 (by simp), (hshows "none").2 (by simp [ofString_inj])⟩

end Service

end Rulebook
