import Rulebook.Proofs.Stores

set_option autoImplicit false

/-!
Histories of a store in a document, which can be opened again at any time and loses changes when the file
cannot be written. Apart from the lost changes its answers are those of one store in memory that is asked the
same.
-/

namespace Rulebook.Store

/-- A request, whether the store is opened again for it, and what it finds around it. -/
structure Turn where
  request : Request
  reopened : Bool
  clock : String
  full : Bool

/-- The store that gets the request. -/
def Turn.open (t : Turn) (s : Store) : Store :=
  let s := if t.reopened then s.reopen else s
  { s with directory := { s.directory with clock := t.clock, full := t.full } }

/-- The turns with the answers to their requests. -/
def history (s : Store) : List Turn → List (Turn × Except StoreError Answer)
  | [] => []
  | t :: turns =>
    (t, ((t.open s).serve t.request).1) :: ((t.open s).serve t.request).2.history turns

/-- The answers to requests that follow each other. -/
def answers (s : Store) : List Request → List (Except StoreError Answer)
  | [] => []
  | q :: requests => (s.serve q).1 :: (s.serve q).2.answers requests

/-- The file could not be written. -/
def isLost : Except StoreError Answer → Bool
  | .error (.file _) => true
  | _ => false

/-- The turns that were not lost. -/
def kept (h : List (Turn × Except StoreError Answer)) : List (Turn × Except StoreError Answer) :=
  h.filter fun e => !isLost e.2

/-- The rulesets that are found at a path: none without a file, else those of the document. -/
inductive Found (d : Directory) (path : String) : Rulesets → Prop
  | absent {fault : FileFault} : d.read path = .error fault → fault ≠ .folder → Found d path []
  | document {text : String} {document : Json} {rs : Rulesets} {ids left : Ids} :
      d.read path = .ok text → Json.read text = .ok document → Rulesets.Identified document →
      Rulesets.ofText ids text = .ok (rs, left) → Found d path rs

variable {s : Store} {rs : Rulesets}

theorem Found.keeps {d : Directory} {path : String} (h : Found d path rs) (ids : Ids) :
    Keeps ⟨.document path, d, ids⟩ rs := by
  cases h with
  | absent hread hfault => exact keeps_absent hread hfault ids
  | document hread htext hidentified hload =>
    exact keeps_document hread (Rulesets.regular_of_ofText hload)
      (Rulesets.ofText_congr htext hidentified hload) ids

theorem isLost_answer (q : Request) (rs : Rulesets) : isLost (q.answer rs) = false := by
  cases q with
  | create name rules =>
    rw [Request.answer]
    split <;> rfl
  | _ => rfl

/-- A document is found again as it was left. -/
theorem Turn.open_document (t : Turn) (h : s.path?.isSome = true) :
    t.open s = { s with directory := { s.directory with clock := t.clock, full := t.full } } := by
  obtain ⟨backing, d, ids⟩ := s
  cases backing with
  | memory before => cases h
  | document path =>
    rw [Turn.open]
    split <;> rfl

/-- What one turn does to a store in a document: it goes on with the rulesets that the request leaves, or
the change is lost and it goes on with the same rulesets. -/
theorem Keeps.turn (h : s.Keeps rs) (hpath : s.path?.isSome = true) (t : Turn) :
    let r := (t.open s).serve t.request
    r.2.path?.isSome = true ∧ (s.IsWritable → r.2.IsWritable) ∧
      ((r.1 = t.request.answer rs ∧ r.2.Keeps (t.request.apply rs)) ∨
        ∃ fault, r.1 = .error (.file fault) ∧ t.request.isChange = true ∧ r.2.Keeps rs ∧
          (s.IsWritable → fault = .diskFull ∧ t.full = true)) := by
  rw [t.open_document hpath]
  have hserved := (h.within t.clock t.full).serve t.request
  generalize Store.serve _ _ = r at hserved
  cases hserved with
  | met hkeeps hpath' hwritable =>
    refine ⟨?_, fun hw => hwritable (hw.within _ _), .inl ⟨rfl, hkeeps⟩⟩
    rw [hpath']
    exact hpath
  | lost hchange hkeeps hfault =>
    exact ⟨hpath, fun hw => hw.within _ _, .inr ⟨_, rfl, hchange, hkeeps.withIds _,
      fun hw => hfault (hw.within _ _)⟩⟩

/-- Only changes are lost, and where the file can be written only those on a full disk. -/
theorem Keeps.lost_history (h : s.Keeps rs) (hpath : s.path?.isSome = true) (turns : List Turn) :
    ∀ e ∈ s.history turns, ∀ fault, e.2 = .error (.file fault) → e.1.request.isChange = true ∧
      (s.IsWritable → fault = .diskFull ∧ e.1.full = true) := by
  induction turns generalizing s rs with
  | nil => simp [history]
  | cons t turns ih =>
    obtain ⟨hpath', hw', hturn⟩ := h.turn hpath t
    rw [history, List.forall_mem_cons]
    rcases hturn with ⟨hanswer, hkeeps⟩ | ⟨fault', hanswer, hchange, hkeeps, hfault⟩
    · refine ⟨fun fault hlost => ?_, fun e he fault hlost => ?_⟩
      · have hnot := isLost_answer t.request rs
        dsimp only at hlost
        rw [← hanswer, hlost] at hnot
        cases hnot
      · exact (ih hkeeps hpath' e he fault hlost).imp_right (· ∘ hw')
    · refine ⟨fun fault hlost => ?_, fun e he fault hlost => ?_⟩
      · cases hanswer.symm.trans hlost
        exact ⟨hchange, hfault⟩
      · exact (ih hkeeps hpath' e he fault hlost).imp_right (· ∘ hw')

/-- The answers that were not lost are those of a store in memory. -/
theorem Keeps.kept_history (h : s.Keeps rs) (hpath : s.path?.isSome = true) (directory : Directory)
    (ids : Ids) (turns : List Turn) :
    (kept (s.history turns)).map (·.2) =
      (⟨.memory rs, directory, ids⟩ : Store).answers ((kept (s.history turns)).map (·.1.request)) := by
  induction turns generalizing s rs with
  | nil => rfl
  | cons t turns ih =>
    obtain ⟨hpath', -, hturn⟩ := h.turn hpath t
    rw [history, kept, List.filter_cons]
    rcases hturn with ⟨hanswer, hkeeps⟩ | ⟨fault, hanswer, -, hkeeps, -⟩
    · have hmet : (!isLost ((t.open s).serve t.request).1) = true := by rw [hanswer, isLost_answer]; rfl
      rw [if_pos hmet, List.map_cons, List.map_cons, answers, serve_memory, ← hanswer]
      exact congrArg _ (ih hkeeps hpath')
    · have hlost : ¬(!isLost ((t.open s).serve t.request).1) = true := by simp [hanswer, isLost]
      rw [if_neg hlost]
      exact ih hkeeps hpath'

/-- A store in a document refines a store in memory. Started without a file or from a document in which every
rule has an identifier, and opened again at any time, it answers as one store in memory does that the lost
changes are kept from. Where the file can be written, a change is lost only because the disk is full. -/
theorem history_refines_memory {path : String} {d : Directory} {rs : Rulesets} (hfound : Found d path rs)
    (ids : Ids) (around : Directory) (others : Ids) (turns : List Turn) :
    let h := (⟨.document path, d, ids⟩ : Store).history turns
    (kept h).map (·.2) = (⟨.memory rs, around, others⟩ : Store).answers ((kept h).map (·.1.request)) ∧
      ∀ e ∈ h, ∀ fault, e.2 = .error (.file fault) → e.1.request.isChange = true ∧
        (d.Writable path → fault = .diskFull ∧ e.1.full = true) := by
  have hkeeps := hfound.keeps ids
  refine ⟨hkeeps.kept_history rfl around others turns, fun e he fault hlost => ?_⟩
  refine (hkeeps.lost_history rfl turns e he fault hlost).imp_right fun hfull hw => hfull ?_
  rintro _ heq
  cases heq
  exact hw

/-- A directory with a document of one ruleset. -/
def ofGreetings : Directory :=
  ⟨[("rules.json", Rulesets.toText [("greetings", [greeting])] "08:00")], [], "08:00", false⟩

/-- A second rule that comes to a full disk, and the same ruleset once more when the store is opened again. -/
def greetAgain : List Turn :=
  [⟨.append "greetings" greeting, false, "09:00", true⟩,
    ⟨.create "greetings" [greeting], true, "10:00", false⟩]

theorem history_refines_memory_ofGreetings :
    ofGreetings.Writable "rules.json" ∧ Found ofGreetings "rules.json" [("greetings", [greeting])] ∧
      let h := (⟨.document "rules.json", ofGreetings, ⟨toString, 0⟩⟩ : Store).history greetAgain
      (kept h).map (·.2) = (⟨.memory [("greetings", [greeting])], .empty "", ⟨toString, 0⟩⟩ : Store).answers
          ((kept h).map (·.1.request)) ∧
        ∀ e ∈ h, ∀ fault, e.2 = .error (.file fault) → fault = .diskFull ∧ e.1.full = true := by
  have hw : ofGreetings.Writable "rules.json" := by
    refine ⟨⟨[], ?_⟩, ["rules.json"], ?_⟩ <;> rfl
  have hregular : Rulesets.Regular [("greetings", [greeting])] :=
    Rulesets.regular_nil.put "greetings" [greeting]
  obtain ⟨left, hleft⟩ := Rulesets.ofText_toText hregular "08:00" ⟨toString, 0⟩
  have hfound : Found ofGreetings "rules.json" [("greetings", [greeting])] :=
    .document rfl (Json.read_indented (Rulesets.regular_toJson hregular "08:00"))
      (Rulesets.identified_toJson _ _) hleft
  obtain ⟨hkept, hlost⟩ :=
    history_refines_memory hfound ⟨toString, 0⟩ (.empty "") ⟨toString, 0⟩ greetAgain
  exact ⟨hw, hfound, hkept, fun e he fault hfault => (hlost e he fault hfault).2 hw⟩

end Rulebook.Store
