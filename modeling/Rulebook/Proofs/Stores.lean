import Rulebook.Proofs.Directories
import Rulebook.Proofs.Rulesets
import Rulebook.Store

set_option autoImplicit false

/-!
What stores keep. Whether it is in memory or in a document, a store that keeps some rulesets answers from
them; a change either is made, and then the store keeps the changed rulesets, or it is lost with a fault of
the file, and then the store keeps what it kept before.
-/

namespace Rulebook.Store

variable {s : Store} {rs : Rulesets}

/-- The rulesets that are found in a store, whatever identifiers are left. -/
structure Keeps (s : Store) (rs : Rulesets) : Prop where
  regular : rs.Regular
  load : ∀ ids, ∃ left, { s with ids }.load = .ok (rs, left)

theorem Keeps.withIds (h : s.Keeps rs) (ids : Ids) : { s with ids }.Keeps rs := ⟨h.regular, h.load⟩

/-- The time and a full disk make no difference to what is kept. -/
theorem Keeps.within (h : s.Keeps rs) (clock : String) (full : Bool) :
    { s with directory := { s.directory with clock, full } }.Keeps rs :=
  ⟨h.regular, h.load⟩

theorem keeps_memory (h : rs.Regular) (directory : Directory) (ids : Ids) :
    Keeps ⟨.memory rs, directory, ids⟩ rs :=
  ⟨h, fun ids => ⟨ids, rfl⟩⟩

/-- A store whose file can be written, unless the disk is full. -/
def IsWritable (s : Store) : Prop := ∀ path, s.backing = .document path → s.directory.Writable path

theorem IsWritable.within (h : s.IsWritable) (clock : String) (full : Bool) :
    { s with directory := { s.directory with clock, full } }.IsWritable :=
  fun path hpath => (h path hpath).within clock full

/-- The path of the document. -/
def path? (s : Store) : Option String :=
  match s.backing with
  | .memory _ => none
  | .document path => some path

/-- The results that a change of the rulesets can have. -/
inductive Change {α : Type} (s : Store) (rs changed : Rulesets) (answer : α) :
    Except StoreError α × Store → Prop
  | made {s' : Store} : s'.Keeps changed → s'.path? = s.path? → (s.IsWritable → s'.IsWritable) →
      Change s rs changed answer (.ok answer, s')
  | lost {fault : FileFault} {ids : Ids} : s.Keeps rs →
      (s.IsWritable → fault = .diskFull ∧ s.directory.full = true) →
      Change s rs changed answer (.error (.file fault), { s with ids })

theorem keeps_document {path text : String} {d : Directory} (hread : d.read path = .ok text)
    (hregular : rs.Regular) (hload : ∀ ids, ∃ left, Rulesets.ofText ids text = .ok (rs, left)) (ids : Ids) :
    Keeps ⟨.document path, d, ids⟩ rs := by
  refine ⟨hregular, fun ids => ?_⟩
  obtain ⟨left, hleft⟩ := hload ids
  refine ⟨left, ?_⟩
  simp only [load, hread, hleft]
  rfl

/-- Where no file is, no rulesets are kept. -/
theorem keeps_absent {path : String} {d : Directory} {fault : FileFault} (hread : d.read path = .error fault)
    (hfault : fault ≠ .folder) (ids : Ids) : Keeps ⟨.document path, d, ids⟩ [] := by
  refine ⟨Rulesets.regular_nil, fun ids => ⟨ids, ?_⟩⟩
  simp only [load, hread]

/-- A store in which no rulesets are found keeps none. -/
theorem keeps_of_load_nil {left : Ids} (h : s.load = .ok ([], left)) : s.Keeps [] := by
  obtain ⟨backing, d, ids⟩ := s
  cases backing with
  | memory before =>
    cases h
    exact keeps_memory Rulesets.regular_nil d _
  | document path =>
    rw [load] at h
    dsimp only at h
    split at h
    · next text hread =>
      exact keeps_document hread Rulesets.regular_nil (Rulesets.ofText_congr_nil (mapError_eq_ok.mp h)) ids
    · cases h
    · next fault hfault hread => exact keeps_absent hread hfault ids

/-! ### What an operation can do -/

theorem Keeps.query {α : Type} (h : s.Keeps rs) (answer : Rulesets → α) :
    ∃ ids, s.query answer = (.ok (answer rs), { s with ids }) := by
  obtain ⟨left, hleft⟩ := h.load s.ids
  refine ⟨left, ?_⟩
  have hload : s.load = .ok (rs, left) := hleft
  rw [Store.query, hload]

/-- A document is written as a whole, or nothing changes. -/
theorem save_cases (path : String) (d : Directory) (ids : Ids) (rs : Rulesets) :
    (∃ fault, (⟨.document path, d, ids⟩ : Store).save rs =
        (.error (.file fault), ⟨.document path, d, ids⟩) ∧
        (d.Writable path → fault = .diskFull ∧ d.full = true)) ∨
      ∃ location, d.replaceable path = .ok location ∧
        (⟨.document path, d, ids⟩ : Store).save rs =
          (.ok (), ⟨.document path, d.withFile location.text (rs.toText d.clock), ids⟩) ∧
        (d.withFile location.text (rs.toText d.clock)).read path = .ok (rs.toText d.clock) ∧
        (d.withFile location.text (rs.toText d.clock)).Writable path := by
  rcases d.replace_cases path (rs.toText d.clock) with
    ⟨fault, hreplace, hfault⟩ | ⟨location, hlocation, hw, hreplace⟩
  · exact .inl ⟨fault, by simp only [save, hreplace]; rfl, hfault⟩
  · exact .inr ⟨location, hlocation, by simp only [save, hreplace]; rfl,
      Directory.read_withFile hlocation, hw.withFile hlocation⟩

theorem Keeps.save {changed : Rulesets} (h : s.Keeps rs) (hregular : changed.Regular) :
    Change s rs changed () (s.save changed) := by
  obtain ⟨backing, d, ids⟩ := s
  cases backing with
  | memory before => exact .made (keeps_memory hregular d ids) rfl fun _ _ heq => by cases heq
  | document path =>
    rcases save_cases path d ids changed with ⟨fault, hsave, hfault⟩ | ⟨location, -, hsave, hread, hwritable⟩
    · rw [hsave]
      exact .lost h fun hw => hfault (hw path rfl)
    · rw [hsave]
      refine .made (keeps_document hread hregular (Rulesets.ofText_toText hregular d.clock) ids) rfl ?_
      rintro - _ heq
      cases heq
      exact hwritable

theorem Change.map {α β : Type} {changed : Rulesets} {ids : Ids} {a : α} {r : Except StoreError α × Store}
    (h : Change { s with ids } rs changed a r) (b : β) :
    Change s rs changed b (r.1.map fun _ => b, r.2) := by
  cases h with
  | made hkeeps hpath hwritable => exact .made hkeeps hpath hwritable
  | lost hkeeps hfault => exact .lost (hkeeps.withIds s.ids) hfault

/-- After a change the old or the changed rulesets are kept. -/
theorem Change.keeps {α : Type} {changed : Rulesets} {a : α} {r : Except StoreError α × Store}
    (h : Change s rs changed a r) : r.2.Keeps rs ∨ r.2.Keeps changed := by
  cases h with
  | made hkeeps _ _ => exact .inr hkeeps
  | lost hkeeps _ => exact .inl (hkeeps.withIds _)

theorem Keeps.create_taken {name : String} (h : s.Keeps rs) (hname : (Entries.get? rs name).isSome = true)
    (rules : List Rule) : s.create name rules = (.error (.taken name), s) := by
  obtain ⟨left, hleft⟩ := h.load s.ids
  have hload : s.load = .ok (rs, left) := hleft
  rw [Store.create, hload]
  exact if_pos hname

theorem Keeps.create {name : String} (h : s.Keeps rs) (hname : (Entries.get? rs name).isSome = false)
    (rules : List Rule) : Change s rs (Entries.put rs name rules) rules (s.create name rules) := by
  obtain ⟨left, hleft⟩ := h.load s.ids
  have hload : s.load = .ok (rs, left) := hleft
  rw [Store.create, hload]
  simp only [hname, Bool.false_eq_true, if_false]
  exact ((h.withIds left).save (h.regular.put name rules)).map rules

theorem Keeps.append (h : s.Keeps rs) (name : String) (rule : Rule) :
    Change s rs (Entries.put rs name ((Entries.get? rs name).getD [] ++ [rule])) rule
      (s.append name rule) := by
  obtain ⟨left, hleft⟩ := h.load s.ids
  have hload : s.load = .ok (rs, left) := hleft
  rw [Store.append, hload]
  exact ((h.withIds left).save (h.regular.put name _)).map rule

/-! ### Requests -/

/-- What a store is asked for. -/
inductive Request where
  | names
  | get (name : String)
  | create (name : String) (rules : List Rule)
  | append (name : String) (rule : Rule)

inductive Answer where
  | names (names : List Text)
  | rules (rules : List Rule)
  | rule (rule : Rule)

namespace Request

def isChange : Request → Bool
  | names | get _ => false
  | create _ _ | append _ _ => true

/-- The answer from the rulesets that are kept. -/
def answer (rs : Rulesets) : Request → Except StoreError Answer
  | names => .ok (.names (Entries.keys rs))
  | get name => .ok (.rules ((Entries.get? rs name).getD []))
  | create name rules => if (Entries.get? rs name).isSome then .error (.taken name) else .ok (.rules rules)
  | append _ rule => .ok (.rule rule)

/-- The rulesets after the request is met. -/
def apply (rs : Rulesets) : Request → Rulesets
  | names | get _ => rs
  | create name rules => if (Entries.get? rs name).isSome then rs else Entries.put rs name rules
  | append name rule => Entries.put rs name ((Entries.get? rs name).getD [] ++ [rule])

end Request

def serve (s : Store) : Request → Except StoreError Answer × Store
  | .names => (s.names.1.map .names, s.names.2)
  | .get name => ((s.get name).1.map .rules, (s.get name).2)
  | .create name rules => ((s.create name rules).1.map .rules, (s.create name rules).2)
  | .append name rule => ((s.append name rule).1.map .rule, (s.append name rule).2)

/-- The results that a request can have: it is met, or a change is lost. -/
inductive Served (s : Store) (rs : Rulesets) (q : Request) : Except StoreError Answer × Store → Prop
  | met {s' : Store} : s'.Keeps (q.apply rs) → s'.path? = s.path? → (s.IsWritable → s'.IsWritable) →
      Served s rs q (q.answer rs, s')
  | lost {fault : FileFault} {ids : Ids} : q.isChange = true → s.Keeps rs →
      (s.IsWritable → fault = .diskFull ∧ s.directory.full = true) →
      Served s rs q (.error (.file fault), { s with ids })

theorem Change.served {α : Type} {changed : Rulesets} {a : α} {q : Request}
    {r : Except StoreError α × Store} (h : Change s rs changed a r) (hq : q.isChange = true)
    (hchanged : changed = q.apply rs) {f : α → Answer} (ha : .ok (f a) = q.answer rs) :
    Served s rs q (r.1.map f, r.2) := by
  cases h with
  | made hkeeps hpath hwritable =>
    subst hchanged
    rw [Except.map, ha]
    exact .met hkeeps hpath hwritable
  | lost hkeeps hfault => exact .lost hq hkeeps hfault

theorem Keeps.serve (h : s.Keeps rs) (q : Request) : Served s rs q (s.serve q) := by
  cases q with
  | names =>
    obtain ⟨ids, hids⟩ := h.query Entries.keys
    rw [Store.serve, Store.names, hids]
    exact .met (h.withIds ids) rfl id
  | get name =>
    obtain ⟨ids, hids⟩ := h.query fun rs => (Entries.get? rs name).getD []
    rw [Store.serve, Store.get, hids]
    exact .met (h.withIds ids) rfl id
  | create name rules =>
    rw [Store.serve]
    cases hname : (Entries.get? rs name).isSome with
    | true =>
      have hanswer : (Request.create name rules).answer rs = .error (.taken name) := if_pos hname
      have happly : (Request.create name rules).apply rs = rs := if_pos hname
      rw [h.create_taken hname, Except.map, ← hanswer]
      exact .met (by rwa [happly]) rfl id
    | false =>
      have hname' : ¬(Entries.get? rs name).isSome = true := by simp [hname]
      exact (h.create hname rules).served rfl (if_neg hname').symm (if_neg hname').symm
  | append name rule => exact (h.append name rule).served rfl rfl rfl

/-- A store in memory meets every request. -/
theorem serve_memory (directory : Directory) (ids : Ids) (q : Request) :
    (⟨.memory rs, directory, ids⟩ : Store).serve q =
      (q.answer rs, ⟨.memory (q.apply rs), directory, ids⟩) := by
  cases q with
  | create name rules =>
    simp only [serve, create, load, save, Request.answer, Request.apply]
    split <;> rfl
  | _ => rfl

/-! ### Documents -/

/-- A change fails before anything is written, or it comes down to writing the changed rulesets. -/
theorem serve_change (s : Store) {q : Request} (hq : q.isChange = true) :
    (∃ e, s.serve q = (.error e, s)) ∨
      ∃ rs left a, s.load = .ok (rs, left) ∧
        s.serve q = (({ s with ids := left }.save (q.apply rs)).1.map fun _ => a,
          ({ s with ids := left }.save (q.apply rs)).2) := by
  cases hload : s.load with
  | error e =>
    refine .inl ⟨e, ?_⟩
    cases q with
    | names => cases hq
    | get name => cases hq
    | create name rules => simp only [serve, create, hload, Except.map]
    | append name rule => simp only [serve, append, hload, Except.map]
  | ok loaded =>
    obtain ⟨rs, left⟩ := loaded
    cases q with
    | names => cases hq
    | get name => cases hq
    | create name rules =>
      by_cases hname : (Entries.get? rs name).isSome = true
      · exact .inl ⟨.taken name, by simp only [serve, create, hload, if_pos hname, Except.map]⟩
      · refine .inr ⟨rs, left, .rules rules, rfl, ?_⟩
        simp only [serve, create, hload, Request.apply, if_neg hname]
        rcases Store.save _ _ with ⟨_ | _, _⟩ <;> rfl
    | append name rule =>
      refine .inr ⟨rs, left, .rule rule, rfl, ?_⟩
      simp only [serve, append, hload, Request.apply]
      rcases Store.save _ _ with ⟨_ | _, _⟩ <;> rfl

theorem query_directory {α : Type} (s : Store) (answer : Rulesets → α) :
    (s.query answer).2.directory = s.directory := by
  rw [query]
  split <;> rfl

/-- Requests to a store in a document are all or nothing. If one fails, the whole directory stays as it
was; a question never changes it; and after a change the document is the text of the changed rulesets, and
no other file is changed. -/
theorem serve_all_or_nothing (path : String) (d : Directory) (ids : Ids) (q : Request) :
    let s : Store := ⟨.document path, d, ids⟩
    (∀ e, (s.serve q).1 = .error e → (s.serve q).2.directory = d) ∧
      (q.isChange = false → (s.serve q).2.directory = d) ∧
      (∀ a, (s.serve q).1 = .ok a → q.isChange = true →
        ∃ rs left location, s.load = .ok (rs, left) ∧ d.replaceable path = .ok location ∧
          (s.serve q).2.directory = d.withFile location.text ((q.apply rs).toText d.clock) ∧
          (s.serve q).2.directory.read path = .ok ((q.apply rs).toText d.clock)) := by
  intro s
  by_cases hq : q.isChange = true
  · rcases s.serve_change hq with ⟨e, hserve⟩ | ⟨rs, left, a, hload, hserve⟩
    · rw [hserve]
      exact ⟨fun _ _ => rfl, fun _ => rfl, fun _ ha => by cases ha⟩
    · rcases save_cases path d left (q.apply rs) with
        ⟨fault, hsave, -⟩ | ⟨location, hlocation, hsave, hread, -⟩
      · rw [hserve, hsave]
        exact ⟨fun _ _ => rfl, fun _ => rfl, fun _ ha => by cases ha⟩
      · rw [hserve, hsave]
        refine ⟨fun _ he => (by cases he), fun hquestion => ?_, fun _ _ _ => ?_⟩
        · rw [hq] at hquestion
          cases hquestion
        · exact ⟨rs, left, location, hload, hlocation, rfl, hread⟩
  · have hdirectory : (s.serve q).2.directory = d := by
      cases q with
      | names => exact s.query_directory Entries.keys
      | get name => exact s.query_directory fun rs => (Entries.get? rs name).getD []
      | create name rules => exact (hq rfl).elim
      | append name rule => exact (hq rfl).elim
    exact ⟨fun _ _ => hdirectory, fun _ => hdirectory, fun _ _ h => (hq h).elim⟩

/-- A rule for any facts. -/
def greeting : Rule :=
  ⟨"1", "greetings", "not false", "\"hello\"", "greeting", by decide, by decide, by decide⟩

/-- A document without rulesets, on a disk that may be full. -/
def ofBraces (full : Bool) : Store :=
  ⟨.document "rules.json", ⟨[("rules.json", "\x7b\x7d")], [], "09:00", full⟩, ⟨fun n => toString n, 0⟩⟩

/-- On a full disk the document keeps its braces; else it becomes the text of the one rule. -/
theorem serve_all_or_nothing_ofBraces :
    (((ofBraces true).serve (.append "greetings" greeting)).1 = .error (.file .diskFull) ∧
      ((ofBraces true).serve (.append "greetings" greeting)).2.directory = (ofBraces true).directory) ∧
    ((ofBraces true).serve .names).2.directory = (ofBraces true).directory ∧
    ((ofBraces false).serve (.append "greetings" greeting)).1 = .ok (.rule greeting) ∧
      ((ofBraces false).serve (.append "greetings" greeting)).2.directory.read "rules.json" =
        .ok (Rulesets.toText [("greetings", [greeting])] "09:00") := by
  have hlost : ((ofBraces true).serve (.append "greetings" greeting)).1 = .error (.file .diskFull) := by
    with_unfolding_all rfl
  have hmade : ((ofBraces false).serve (.append "greetings" greeting)).1 = .ok (.rule greeting) := by
    with_unfolding_all rfl
  have hload : (ofBraces false).load = .ok ([], (ofBraces false).ids) := by with_unfolding_all rfl
  have hfull := serve_all_or_nothing "rules.json" (ofBraces true).directory (ofBraces true).ids
  refine ⟨⟨hlost, (hfull _).1 _ hlost⟩, (hfull .names).2.1 rfl, hmade, ?_⟩
  obtain ⟨rs, left, location, hrs, -, -, hread⟩ := (serve_all_or_nothing "rules.json"
    (ofBraces false).directory (ofBraces false).ids (.append "greetings" greeting)).2.2 _ hmade rfl
  cases hload.symm.trans hrs
  exact hread

end Rulebook.Store
