import Rulebook.Proofs.Services

set_option autoImplicit false

/-!
A service that keeps its rulesets in memory: what it gives for each operation, and what it keeps after it.
-/

namespace Rulebook

open Text

namespace Service

/-- The service keeps these rulesets in memory, as it made them. -/
structure Stores (s : Service) (rs : Rulesets) : Prop where
  backing : s.store.backing = .memory rs
  regular : rs.Regular
  built : rs.Built

variable {s : Service} {rs : Rulesets} {name : String}

theorem Stores.unique {rs' : Rulesets} (h : s.Stores rs) (h' : s.Stores rs') : rs = rs' := by
  have hbacking := h.backing.symm.trans h'.backing
  cases hbacking
  rfl

theorem Stores.keeps (h : s.Stores rs) : s.Keeps rs := by
  refine ⟨⟨h.regular, fun ids => ⟨ids, ?_⟩⟩, h.built⟩
  simp only [Store.load, h.backing]

theorem stores_of_new {settings : Settings} {directory : Directory} {ids : Ids}
    (hnew : new? settings directory ids = some s) (hmemory : settings.storePath = "") : s.Stores [] := by
  rw [new?] at hnew
  split at hnew
  · cases hnew
  · cases hnew
    exact ⟨by simp only [Store.atPath, hmemory, if_true], Rulesets.regular_nil, Rulesets.built_nil⟩

theorem Stores.query {α β : Type} (h : s.Stores rs) (view : Rulesets → α)
    (answer : α → Except ServiceError β) : (s.query (·.query view) answer).after.Stores rs := by
  refine ⟨?_, h.regular, h.built⟩
  simp only [Service.query, Store.query, Store.load, h.backing]

theorem Stores.names (h : s.Stores rs) : s.names.after.Stores rs := h.query _ _

theorem Stores.rules (h : s.Stores rs) (name : String) : (s.rules name).after.Stores rs := h.query _ _

theorem Stores.execute (h : s.Stores rs) (name : String) (facts : List (Key × Value))
    (nullSafe : Option Bool) : (s.execute name facts nullSafe).after.Stores rs := by
  have hrules := h.rules name
  rw [Service.execute]
  dsimp only
  split <;> exact hrules

section

variable {pairs : List (Text × Text)} {rules : List Rule}

theorem create_of_error {e : RuleError} (hb : Rule.buildAll s.store.ids name pairs = .error e) :
    s.create name pairs = ⟨.error (.rule e), [], s⟩ := by
  rw [Service.create, hb]

theorem create_of_nil (hb : Rule.buildAll s.store.ids name pairs = .ok []) :
    s.create name pairs = ⟨.error .noRules, [], s⟩ := by
  rw [Service.create, hb]

theorem Stores.create_taken (h : s.Stores rs) (hb : Rule.buildAll s.store.ids name pairs = .ok rules)
    (hne : rules ≠ []) (hname : (Entries.get? rs (ofString name)).isSome = true) :
    (s.create name pairs).result = .error (.store (.taken name)) ∧
      (s.create name pairs).after.Stores rs := by
  obtain ⟨r, rest, rfl⟩ := List.exists_cons_of_ne_nil hne
  rw [Service.create, hb]
  simp only [Store.create, Store.load, skipIds, h.backing, hname, if_true]
  exact ⟨rfl, rfl, h.regular, h.built⟩

theorem Stores.create_made (h : s.Stores rs) (hb : Rule.buildAll s.store.ids name pairs = .ok rules)
    (hne : rules ≠ []) (hname : (Entries.get? rs (ofString name)).isSome = false) :
    (s.create name pairs).result = .ok rules ∧
      (s.create name pairs).after.Stores (Entries.put rs (ofString name) rules) := by
  have hrules := Rule.built_of_buildAll hb
  have hregular := h.regular.put name rules
  have hbuilt := h.built.put hne hrules
  obtain ⟨r, rest, rfl⟩ := List.exists_cons_of_ne_nil hne
  rw [Service.create, hb]
  simp only [Store.create, Store.load, Store.save, skipIds, h.backing, hname, Bool.false_eq_true,
    if_false]
  exact ⟨rfl, rfl, hregular, hbuilt⟩

end

section

variable {text output : Text}

theorem add_of_error {e : RuleError} (hb : Rule.build (s.store.ids.nth 0) name text output = .error e) :
    s.add name text output = ⟨.error (.rule e), [], s⟩ := by
  rw [Service.add, hb]

theorem Stores.add_made (h : s.Stores rs) {rule : Rule}
    (hb : Rule.build (s.store.ids.nth 0) name text output = .ok rule) :
    (s.add name text output).result = .ok rule ∧
      (s.add name text output).after.Stores (Entries.put rs (ofString name)
        ((Entries.get? rs (ofString name)).getD [] ++ [rule])) := by
  have hregular := h.regular.put name ((Entries.get? rs (ofString name)).getD [] ++ [rule])
  have hbuilt := h.built.append (Rule.built_of_build hb)
  rw [Service.add, hb]
  simp only [Store.get, Store.query, Store.append, Store.load, Store.save, skipIds, h.backing]
  exact ⟨rfl, rfl, hregular, hbuilt⟩

end

end Service

end Rulebook
