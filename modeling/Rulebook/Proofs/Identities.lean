import Rulebook.Proofs.Passage
import Rulebook.Proofs.Retention
import Rulebook.Service

set_option autoImplicit false

/-!
Rules of a document that is read twice. A rule is found again, with its identifier, if the document holds one for it.
Else both reads take an identifier from the supply for it, and the rule has another one each time.
-/

namespace Rulebook

open Text

/-- The item of a rule holds an identifier. -/
def Json.HasRuleId (item : Json) : Prop := (item.get? "rule_id").isSome = true

theorem Rule.id_of_ofJson {freshId : String} {v : Json} {r : Rule} (h : ofJson freshId v = .ok r)
    (hv : ¬v.HasRuleId) : r.id = freshId := by
  cases v with
  | obj members =>
    have hnone : Entries.get? members "rule_id" = none := by simpa [Json.HasRuleId, Json.get?] using hv
    have hid : Checked.optional members "rule_id" ↑freshId .label = .ok ↑freshId := by
      rw [Checked.optional, hnone]
      rfl
    rw [ofJson, hid] at h
    obtain ⟨⟨id, ruleset, c, t, o⟩, hchecked, rfl⟩ := map_eq_ok.mp h
    exact (Except.ok.inj (Checked.both_eq_ok.mp hchecked).1).symm
  | _ => cases h

namespace Rulesets

/-- Rules that were read from items, one from each. The position decides on the identifier that may be taken. -/
structure ReadFrom (ids : Ids) (items : List Json) (rules : List Rule) : Prop where
  length : rules.length = items.length
  item : ∀ {i : Nat} {item : Json}, items[i]? = some item →
    ∃ r, rules[i]? = some r ∧ Rule.ofJson (ids.nth i) item = .ok r

section

variable {ids left ids' : Ids} {items : List Json} {rules rules' : List Rule} {name : Text} {item : Json} {i : Nat}

/-- Each of the items from a position on is read with the identifier of its position. -/
theorem item_of_mapM_zipIdx {n : Nat} (h : (items.zipIdx n).mapM (fun p =>
      (Rule.ofJson (ids.nth p.2) p.1).mapError DocumentError.invalidRule) = .ok rules) :
    rules.length = items.length ∧ ∀ (i : Nat) (item : Json), items[i]? = some item →
      ∃ r, rules[i]? = some r ∧ Rule.ofJson (ids.nth (n + i)) item = .ok r := by
  induction items generalizing n rules with
  | nil =>
    cases h
    exact ⟨rfl, by simp⟩
  | cons item items ih =>
    rw [List.zipIdx_cons, List.mapM_cons] at h
    obtain ⟨r, hr, h⟩ := bind_eq_ok.mp h
    obtain ⟨rest, hrest, h⟩ := bind_eq_ok.mp h
    cases h
    obtain ⟨hlength, hitems⟩ := ih hrest
    refine ⟨congrArg (· + 1) hlength, fun i v hv => ?_⟩
    cases i with
    | zero =>
      cases hv
      exact ⟨r, rfl, mapError_eq_ok.mp hr⟩
    | succ i =>
      obtain ⟨r', hr', hv⟩ := hitems i v hv
      exact ⟨r', hr', by rwa [Nat.add_right_comm] at hv⟩

theorem readFrom_of_readRules (h : readRules ids items = .ok rules) : ReadFrom ids items rules := by
  obtain ⟨hlength, hitems⟩ := item_of_mapM_zipIdx h
  exact ⟨hlength, fun {i v} hv => by simpa using hitems i v hv⟩

theorem ReadFrom.getElem?_none (h : ReadFrom ids items rules) (hi : items[i]? = none) : rules[i]? = none :=
  List.getElem?_eq_none (h.length.trans_le (List.getElem?_eq_none_iff.mp hi))

/-- The rule at an item that holds an identifier does not depend on the supply. -/
theorem ReadFrom.getElem?_eq (h : ReadFrom ids items rules) (h' : ReadFrom ids' items rules')
    (hi : items[i]? = some item) (hitem : item.HasRuleId) : rules'[i]? = rules[i]? := by
  obtain ⟨r, hr, hread⟩ := h.item hi
  obtain ⟨r', hr', hread'⟩ := h'.item hi
  rw [Rule.ofJson_congr hitem _ (ids.nth i), hread] at hread'
  rw [hr, hr', Except.ok.inj hread']

theorem ReadFrom.eq (h : ReadFrom ids items rules) (h' : ReadFrom ids' items rules')
    (hitems : ∀ item ∈ items, item.HasRuleId) : rules' = rules := by
  apply List.ext_getElem?
  intro i
  cases hi : items[i]? with
  | none => rw [h.getElem?_none hi, h'.getElem?_none hi]
  | some item => exact h.getElem?_eq h' hi (hitems item (List.mem_of_getElem? hi))

theorem ReadFrom.getElem?_ne (h : ReadFrom ids items rules) (h' : ReadFrom ids' items rules')
    (hi : items[i]? = some item) (hitem : ¬item.HasRuleId) (hids : ids'.nth i ≠ ids.nth i) :
    rules'[i]? ≠ rules[i]? := by
  obtain ⟨r, hr, hread⟩ := h.item hi
  obtain ⟨r', hr', hread'⟩ := h'.item hi
  rw [hr, hr']
  rintro ⟨⟩
  exact hids (Label.ofString_inj.mp ((Rule.id_of_ofJson hread' hitem).symm.trans (Rule.id_of_ofJson hread hitem)))

theorem ReadFrom.map_withId_eq (h : ReadFrom ids items rules) (h' : ReadFrom ids' items rules') :
    rules'.map (Rule.withId "") = rules.map (Rule.withId "") := by
  apply List.ext_getElem?
  intro i
  rw [List.getElem?_map, List.getElem?_map]
  cases hi : items[i]? with
  | none => rw [h.getElem?_none hi, h'.getElem?_none hi]
  | some item =>
    obtain ⟨r, hr, hread⟩ := h.item hi
    obtain ⟨r', hr', hread'⟩ := h'.item hi
    obtain ⟨again, hagain, heq⟩ := Rule.ofJson_withId hread (ids'.nth i)
    cases hread'.symm.trans hagain
    rw [hr, hr', Option.map_some, Option.map_some, heq]

/-! ### The items of a ruleset -/

def itemsAt (members : List (Text × Json)) (name : Text) : List Json :=
  ((Entries.get? members name).bind items?).getD []

theorem itemsAt_cons (key : Text) (v : Json) (members : List (Text × Json)) (name : Text) :
    itemsAt ((key, v) :: members) name = if key = name then (items? v).getD [] else itemsAt members name := by
  rw [itemsAt, Entries.get?_cons]
  split <;> rfl

/-- The items of a document that the rules of a ruleset are read from. -/
def itemsOf (document : Json) (name : Text) : List Json :=
  match document.get? "rulesets" with
  | some (.obj members) => itemsAt members name
  | _ => []

/-- The identifiers that a list of rulesets can take stand between those before and those that are left. -/
structure Spent (ids left : Ids) (start count : Nat) : Prop where
  label : left.label = ids.label
  next : ids.next + (start + count) ≤ left.next

theorem Spent.advance {start count n : Nat} (h : Spent (ids.advance n) left start count) :
    Spent ids left (n + start) count :=
  ⟨h.label, by have := h.next; simp only [Ids.advance] at this; omega⟩

theorem readEntries_spent {members : List (Text × Json)} {rs : Rulesets}
    (h : readEntries ids members = .ok (rs, left)) : Spent ids left 0 0 := by
  induction members generalizing ids rs with
  | nil =>
    cases h
    exact ⟨rfl, Nat.le_refl _⟩
  | cons m members ih =>
    obtain ⟨items, rules, rest, -, -, hrest, rfl⟩ := readEntries_cons_eq_ok h
    have hspent := (ih hrest).advance
    exact ⟨hspent.label, by have := hspent.next; omega⟩

theorem readFrom_nil (ids : Ids) :
    ∃ start, Spent ids ids start ([] : List Json).length ∧ ReadFrom (ids.advance start) [] [] :=
  ⟨0, ⟨rfl, Nat.le_refl _⟩, rfl, by simp⟩

theorem readFrom_of_readEntries {members : List (Text × Json)} {rs : Rulesets}
    (h : readEntries ids members = .ok (rs, left)) (name : Text) :
    ∃ start, Spent ids left start (itemsAt members name).length ∧
      ReadFrom (ids.advance start) (itemsAt members name) ((Entries.get? rs name).getD []) := by
  induction members generalizing ids rs with
  | nil =>
    cases h
    exact readFrom_nil _
  | cons m members ih =>
    obtain ⟨key, v⟩ := m
    obtain ⟨items, rules, rest, hitems, hrules, hrest, rfl⟩ := readEntries_cons_eq_ok h
    rw [itemsAt_cons, Entries.get?_cons]
    by_cases hkey : key = name
    · rw [if_pos hkey, if_pos hkey, hitems]
      have hspent := (readEntries_spent hrest).advance
      exact ⟨0, ⟨hspent.label, by simpa using hspent.next⟩, readFrom_of_readRules hrules⟩
    · rw [if_neg hkey, if_neg hkey]
      obtain ⟨start, hspent, hread⟩ := ih hrest
      refine ⟨items.length + start, hspent.advance, ?_⟩
      simpa [Ids.advance, Nat.add_assoc] using hread

theorem readFrom_of_ofJson {document : Json} {rs : Rulesets} (h : ofJson ids document = .ok (rs, left))
    (name : Text) :
    ∃ start, Spent ids left start (itemsOf document name).length ∧
      ReadFrom (ids.advance start) (itemsOf document name) ((Entries.get? rs name).getD []) := by
  rw [ofJson] at h
  rw [itemsOf]
  generalize document.get? "rulesets" = found at h ⊢
  cases found with
  | none =>
    cases h
    exact readFrom_nil ids
  | some v =>
    cases v with
    | obj members => exact readFrom_of_readEntries h name
    | _ =>
      cases h
      exact readFrom_nil ids

/-- A rule that is the same when it is read with what is left of a supply has an identifier of its own. -/
theorem ReadFrom.hasRuleId_of_eq {start start' : Nat} (h : ReadFrom (ids.advance start) items rules)
    (h' : ReadFrom (left.advance start') items rules') (hspent : Spent ids left start items.length)
    (hinjective : Function.Injective ids.label) (hi : items[i]? = some item) (hsame : rules'[i]? = rules[i]?) :
    item.HasRuleId := by
  by_contra hitem
  refine h.getElem?_ne h' hi hitem (fun heq => ?_) hsame
  -- the identifiers of the first read stand before those that are left
  have hlt : i < items.length := (List.getElem?_eq_some_iff.mp hi).1
  rw [Ids.nth, Ids.nth, Ids.advance, Ids.advance, hspent.label] at heq
  have hnext := hspent.next
  have hposition := hinjective heq
  dsimp only at hposition
  omega

end

end Rulesets

namespace Store

open Rulesets

/-- The items that the rules of a ruleset are read from. -/
def items (s : Store) (name : String) : List Json :=
  match s.backing with
  | .memory _ => []
  | .document path =>
    match (s.directory.read path).toOption.bind fun text => (Json.read text).toOption with
    | some document => itemsOf document name
    | none => []

section

variable {s s' : Store} {path name : String} {rules : List Rule}

theorem items_of_read {text : String} {document : Json} (hs : s.backing = .document path)
    (hread : s.directory.read path = .ok text) (hdocument : Json.read text = .ok document) (name : String) :
    s.items name = itemsOf document name := by
  simp only [items, hs, hread, Except.toOption, Option.bind_some, hdocument]

theorem readFrom_of_load {rs : Rulesets} {left : Ids} (hs : s.backing = .document path)
    (h : s.load = .ok (rs, left)) (name : String) :
    ∃ start, Spent s.ids left start (s.items name).length ∧
      ReadFrom (s.ids.advance start) (s.items name) ((Entries.get? rs (ofString name)).getD []) := by
  rw [load, hs] at h
  dsimp only at h
  split at h
  · next text hread =>
    obtain ⟨document, hdocument, h⟩ := ofText_eq_ok (mapError_eq_ok.mp h)
    rw [items_of_read hs hread hdocument]
    exact readFrom_of_ofJson h _
  · cases h
  · next fault hfault hread =>
    cases h
    simp only [items, hs, hread, Except.toOption, Option.bind_none]
    exact readFrom_nil s.ids

theorem get_of_load {rs : Rulesets} {left : Ids} (h : s.load = .ok (rs, left)) (name : String) :
    s.get name = (.ok ((Entries.get? rs (ofString name)).getD []), { s with ids := left }) := by
  rw [Store.get, query, h]

theorem load_of_get (h : s.get name = (.ok rules, s')) :
    ∃ rs left, s.load = .ok (rs, left) ∧ rules = (Entries.get? rs (ofString name)).getD [] ∧
      s' = { s with ids := left } := by
  cases hload : s.load with
  | error e =>
    rw [Store.get, query, hload] at h
    cases h
  | ok loaded =>
    cases (get_of_load hload name).symm.trans h
    exact ⟨_, _, rfl, rfl, rfl⟩

theorem readFrom_of_get (hs : s.backing = .document path) (h : s.get name = (.ok rules, s')) :
    ∃ left start, s' = { s with ids := left } ∧ Spent s.ids left start (s.items name).length ∧
      ReadFrom (s.ids.advance start) (s.items name) rules := by
  obtain ⟨rs, left, hload, rfl, rfl⟩ := load_of_get h
  obtain ⟨start, hspent, hread⟩ := readFrom_of_load hs hload name
  exact ⟨left, start, rfl, hspent, hread⟩

theorem reopen_document (hs : s.backing = .document path) : s.reopen = s := by rw [reopen, hs]

/-- A store that found a ruleset finds it again, up to the identifiers that it lacks. -/
theorem exists_get_again (h : s.get name = (.ok rules, s')) : ∃ again s'', s'.get name = (.ok again, s'') := by
  obtain ⟨rs, left, hload, -, rfl⟩ := load_of_get h
  have hfinds : s.Finds rs := ⟨s.ids, left, hload⟩
  obtain ⟨rs', ids, -, hget⟩ := (hfinds.withIds left).get name
  exact ⟨_, _, hget⟩

end

end Store

/-- A rule that a run fails at is one of the rules. -/
theorem Executor.exists_getElem?_of_run {x : Executor} {facts : List (Key × Value)} {nullSafe : Option Bool}
    {e : ExecutionError} (h : (x.run facts nullSafe).1 = .error (.run (.rule e))) :
    ∃ i : Nat, x.rules[i]? = some e.rule := by
  by_cases hx : x.rules = []
  · rw [Executor.run, if_pos (by simp [hx])] at h
    cases h
  · cases hfacts : Value.normalizeEntries facts with
    | error f =>
      rw [Executor.run, if_neg (by simp [hx]), Run.new, hfacts] at h
      cases h
    | ok closed =>
      obtain ⟨i, r, c, hi, -, rfl⟩ := (run_rule_iff hx ⟨closed, hfacts, rfl⟩).mp h
      exact ⟨i, hi⟩

namespace Service

variable {v : Service} {name : String} {rules : List Rule} {s' : Store} {facts : List (Key × Value)}
  {nullSafe : Option Bool}

theorem after_execute_of_get (h : v.store.get name = (.ok rules, s')) :
    (v.execute name facts nullSafe).after.store = s' := by
  rw [execute]
  simp only [Service.rules, query, h]
  cases rules <;> rfl

theorem exists_getElem?_of_execute (h : v.store.get name = (.ok rules, s')) {e : ExecutionError}
    (he : (v.execute name facts nullSafe).result = .error (.execute (.run (.rule e)))) :
    ∃ i : Nat, rules[i]? = some e.rule := by
  rw [execute] at he
  simp only [Service.rules, query, h] at he
  cases rules with
  | nil => cases he
  | cons r rules =>
    obtain ⟨_, hrun, ⟨⟩⟩ := mapError_eq_error.mp he
    exact Executor.exists_getElem?_of_run hrun

end Service

namespace Store

section

variable {s s' : Store} {path name : String} {rules : List Rule}

/-- Where a document is read twice, the same rules are found in the same order. A rule has the same identifier both
times if the document holds one for it, and only then if the supply never gives one twice. So the rule that an
execution fails at is found again if the document holds its identifier. -/
theorem get_again (hs : s.backing = .document path) (h : s.get name = (.ok rules, s')) :
    ∀ t, t = s' ∨ t = s'.reopen → ∃ again t', t.get name = (.ok again, t') ∧
      again.map (Rule.withId "") = rules.map (Rule.withId "") ∧
      (∀ (i : Nat) (item : Json), (s.items name)[i]? = some item → item.HasRuleId → again[i]? = rules[i]?) ∧
      (Function.Injective s.ids.label →
        ∀ (i : Nat) (item : Json), (s.items name)[i]? = some item → again[i]? = rules[i]? → item.HasRuleId) ∧
      ((∀ item ∈ s.items name, item.HasRuleId) → again = rules) ∧
      ∀ settings facts nullSafe e,
        ((⟨settings, s⟩ : Service).execute name facts nullSafe).result = .error (.execute (.run (.rule e))) →
        ((⟨settings, s⟩ : Service).execute name facts nullSafe).after.store = s' ∧
          ∃ (i : Nat) (item : Json), (s.items name)[i]? = some item ∧ rules[i]? = some e.rule ∧
            (item.HasRuleId → again[i]? = some e.rule) := by
  intro t ht
  obtain ⟨left, start, hs', hspent, hread⟩ := readFrom_of_get hs h
  have hpath : s'.backing = .document path := by rw [hs', ← hs]
  obtain rfl : t = s' := ht.elim id fun ht => ht.trans (reopen_document hpath)
  obtain ⟨again, t', hagain⟩ := exists_get_again h
  obtain ⟨-, start', -, -, hread'⟩ := readFrom_of_get hpath hagain
  have hitems : t.items name = s.items name := by rw [hs', items, items]
  have hids : t.ids = left := by rw [hs']
  rw [hitems, hids] at hread'
  refine ⟨again, t', hagain, hread.map_withId_eq hread', fun i item => hread.getElem?_eq hread',
    fun hinjective i item => hread.hasRuleId_of_eq hread' hspent hinjective, hread.eq hread', ?_⟩
  intro settings facts nullSafe e he
  have hget : (⟨settings, s⟩ : Service).store.get name = (.ok rules, t) := h
  refine ⟨Service.after_execute_of_get hget, ?_⟩
  obtain ⟨i, hi⟩ := Service.exists_getElem?_of_execute hget he
  have hlt : i < (s.items name).length := hread.length ▸ (List.getElem?_eq_some_iff.mp hi).1
  have hitem := List.getElem?_eq_getElem hlt
  exact ⟨i, _, hitem, hi, fun hid => (hread.getElem?_eq hread' hitem hid).trans hi⟩

end

/-- The items of two rules. Only the first one has an identifier. -/
def namelessItems : List Json :=
  [.obj [("rule_id", .str "k"), ("condition", .str "late"), ("transformation", .str "1.5"),
      ("output_variable", .str "penalty")],
    .obj [("condition", .str "lost"), ("transformation", .str "2.5"), ("output_variable", .str "charge")]]

def nameless : Json := .obj [("rulesets", .obj [("a", .arr namelessItems)])]

/-- The rules of the document, if the second one gets this identifier. -/
def namelessRules (id : String) : List Rule :=
  [⟨"k", "", "late", "1.5", "penalty", by decide, by decide, by decide⟩,
    ⟨id, "", "lost", "2.5", "charge", by decide, by decide, by decide⟩]

theorem regular_nameless : Json.Regular Json.IsText nameless := by
  refine Json.regular_record _ [("rulesets", _)] (by simp) ?_
  simp only [List.forall_mem_singleton]
  refine Json.regular_record _ [("a", _)] (by simp) ?_
  simp only [List.forall_mem_singleton]
  refine .arr (List.forall_mem_cons.mpr ⟨?_, List.forall_mem_singleton.mpr ?_⟩)
  · refine Json.regular_record _ [("rule_id", .str "k"), ("condition", .str "late"), ("transformation", .str "1.5"),
      ("output_variable", .str "penalty")] (by simp) ?_
    simp [Json.regular_ofString]
  · refine Json.regular_record _ [("condition", .str "lost"), ("transformation", .str "2.5"),
      ("output_variable", .str "charge")] (by simp) ?_
    simp [Json.regular_ofString]

/-- A supply of distinct identifiers. -/
def marks : Ids := ⟨fun n => String.ofList (List.replicate n 'x'), 0⟩

def namelessFile : Directory := ⟨[("rules.json", nameless.indented)], [], "09:00", false⟩

theorem read_namelessFile : namelessFile.read "rules.json" = .ok nameless.indented := by
  have hlocate : namelessFile.locate "rules.json" = .ok ["rules.json"] := by with_unfolding_all rfl
  rw [Directory.read, hlocate]
  rfl

def ofNameless (ids : Ids) : Store := ⟨.document "rules.json", namelessFile, ids⟩

theorem load_ofNameless (ids : Ids) :
    (ofNameless ids).load = .ok ([("a", namelessRules (ids.nth 1))], ids.advance 2) := by
  have hread : Rulesets.ofText ids nameless.indented = .ok ([("a", namelessRules (ids.nth 1))], ids.advance 2) := by
    rw [Rulesets.ofText, Json.read_indented regular_nameless]
    with_unfolding_all rfl
  simp only [load, ofNameless, read_namelessFile, hread]
  rfl

theorem get_ofNameless (ids : Ids) :
    (ofNameless ids).get "a" = (.ok (namelessRules (ids.nth 1)), ofNameless (ids.advance 2)) := by
  rw [get_of_load (load_ofNameless ids), Entries.get?_cons, if_pos rfl]
  rfl

theorem itemsOf_nameless : Rulesets.itemsOf nameless (ofString "a") = namelessItems := by
  simp only [Rulesets.itemsOf, nameless, Json.get?, Entries.get?_cons, if_true, Rulesets.itemsAt_cons,
    Rulesets.items?, Option.getD_some]

theorem items_ofNameless (ids : Ids) : (ofNameless ids).items "a" = namelessItems :=
  (items_of_read rfl read_namelessFile (Json.read_indented regular_nameless) "a").trans itemsOf_nameless

theorem injective_marks : Function.Injective marks.label := by
  intro m n h
  simpa [marks] using congrArg String.length h

/-- The first rule is the same again, and the second one is not. -/
theorem get_again_ofNameless :
    (ofNameless marks).get "a" = (.ok (namelessRules "x"), ofNameless (marks.advance 2)) ∧
      ∃ again t', (ofNameless (marks.advance 2)).reopen.get "a" = (.ok again, t') ∧
        again[0]? = (namelessRules "x")[0]? ∧ again[1]? ≠ (namelessRules "x")[1]? := by
  have hget := get_ofNameless marks
  obtain ⟨again, t', hagain, -, hkept, hnew, -, -⟩ := get_again rfl hget _ (.inr rfl)
  rw [items_ofNameless] at hkept hnew
  refine ⟨hget, again, t', hagain, hkept 0 _ rfl ?_, fun h => ?_⟩
  · simp [Json.HasRuleId, Json.get?, Entries.get?_cons]
  · have hitem := hnew injective_marks 1 _ rfl h
    simp [Json.HasRuleId, Json.get?, Entries.get?_cons, ofString_inj] at hitem

/-- Two reads of one document without a change between them can give different rules. -/
theorem not_always_same_again :
    ¬∀ (path : String) (d : Directory) (ids : Ids) (name : String) (rules : List Rule) (s' : Store),
      Store.get ⟨.document path, d, ids⟩ name = (.ok rules, s') → (s'.get name).1 = .ok rules := by
  intro h
  have hsame := h "rules.json" namelessFile marks "a" _ _ (get_ofNameless marks)
  rw [get_ofNameless] at hsame
  exact absurd (Except.ok.inj hsame) (by decide)

end Store

end Rulebook
