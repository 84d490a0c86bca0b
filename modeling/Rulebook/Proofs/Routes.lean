import Rulebook.Http
import Rulebook.Proofs.Entries

set_option autoImplicit false

/-!
Where requests lead. The method of a request tells what kind of action it can ask for, and every name that is
one step of a path can be asked for.
-/

namespace Rulebook.Http

/-- The methods by which an action is asked for. -/
def Action.methods : Action → List String
  | create | execute | add _ => ["POST"]
  | list | get _ => ["GET"]
  | describe => ["GET", "HEAD"]

/-- Actions that are offered under their methods. -/
def Offered (offers : List (String × Action)) : Prop := ∀ e ∈ offers, e.1 ∈ e.2.methods

theorem offered_nil : Offered [] := by simp [Offered]

theorem offered_pages : Offered pageActions := by simp [Offered, pageActions, Action.methods]

theorem offered_actions (path : List Char) : Offered (actions path) := by
  rw [actions]
  split
  · split
    · exact offered_pages
    · exact offered_nil
  · split
    · simp [Offered, Action.methods]
    · split
      · exact offered_pages
      · exact offered_nil
  · split
    · split
      · simp [Offered, Action.methods]
      · simp [Offered, Action.methods]
    · exact offered_nil
  · split
    · simp [Offered, Action.methods]
    · exact offered_nil
  · exact offered_nil

theorem offered_actionsAt (redirects : Nat) (path : List Char) : Offered (actionsAt redirects path) := by
  induction redirects generalizing path with
  | zero =>
    unfold actionsAt
    exact offered_actions path
  | succ redirects ih =>
    have hoffered := offered_actions path
    unfold actionsAt
    cases h : actions path with
    | nil =>
      dsimp only
      split
      · exact ih _
      · exact offered_nil
    | cons offer offers => rwa [h] at hoffered

theorem mem_methods_of_route {method : String} {path : List Char} {a : Action}
    (h : route method path = .ok a) : method ∈ a.methods := by
  unfold route at h
  split at h
  · cases h
  · split at h
    · next hlookup =>
      cases h
      exact offered_actionsAt 20 path _ (Entries.mem_of_get? hlookup)
    · cases h

/-! ### Names in paths -/

/-- A text without separators is one part. -/
theorem split_eq_singleton {separator : Char} {cs : List Char} (h : separator ∉ cs) :
    Text.split separator cs = [cs] := by
  induction cs with
  | nil => rfl
  | cons c cs ih =>
    rw [List.mem_cons, not_or] at h
    simp only [Text.split, ih h.2, if_neg (Ne.symm h.1)]

theorem split_append_singleton {separator : Char} (front : List Char) {cs : List Char} (h : separator ∉ cs) :
    Text.split separator (front ++ separator :: cs) = Text.split separator front ++ [cs] := by
  induction front with
  | nil => simp [Text.split, split_eq_singleton h]
  | cons c front ih =>
    obtain ⟨part, parts, hparts⟩ := List.exists_cons_of_ne_nil (Text.split_ne_nil separator front)
    rw [hparts] at ih
    simp only [List.cons_append, Text.split, ih, hparts]
    split <;> rfl

/-- Every name that is not empty and has no slash can be asked for. -/
theorem route_get {name : String} (hne : name ≠ "") (hslash : '/' ∉ name.toList) :
    route "GET" ("/api/rulesets".toList ++ '/' :: name.toList) = .ok (.get name) := by
  have hsplit : Text.split '/' ("/api/rulesets".toList ++ '/' :: name.toList) =
      [[], "api".toList, "rulesets".toList, name.toList] := by
    rw [split_append_singleton _ hslash]
    rfl
  have hempty : name.toList.isEmpty = false := by simpa using hne
  have hactions : actionsAt 20 ("/api/rulesets".toList ++ '/' :: name.toList) =
      (if isLast "execute" name.toList then [("POST", .execute)] else []) ++ [("GET", .get name)] := by
    unfold actionsAt
    rw [actions, hsplit]
    simp [hempty]
  unfold route
  rw [hactions]
  by_cases hlast : isLast "execute" name.toList = true
  · rw [if_pos hlast]
    rfl
  · rw [if_neg hlast]
    rfl

/-! ### What a request asks for -/

namespace Request

def verb (q : Request) : String := String.ofList (Text.upper q.method.toList)

/-- The address and the method of a request lead to an action. -/
def Asks (q : Request) (a : Action) : Prop := ∃ p, path q.address = .ok p ∧ route q.verb p = .ok a

/-- The body of a request is read as a form without faults. -/
def Sends {α : Type} (q : Request) (read : Json → Checked α) (f : α) : Prop :=
  ∃ d, document q.body = .ok d ∧ form read d = .ok f

variable {q : Request} {a : Action}

theorem verb_of_post (h : q.method = "POST") : q.verb = "POST" := by
  rw [verb, h]
  decide +kernel

theorem Asks.unique {b : Action} (ha : q.Asks a) (hb : q.Asks b) : a = b := by
  obtain ⟨p, hp, ha⟩ := ha
  obtain ⟨p', hp', hb⟩ := hb
  cases hp.symm.trans hp'
  cases ha.symm.trans hb
  rfl

theorem Asks.verb (h : q.Asks a) : q.verb ∈ a.methods := by
  obtain ⟨p, -, hroute⟩ := h
  exact mem_methods_of_route hroute

end Request

end Rulebook.Http
