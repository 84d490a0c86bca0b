import Rulebook.Proofs.Evaluation
import Rulebook.Proofs.Likeness
import Rulebook.Proofs.NullFree

set_option autoImplicit false

/-!
Eight functions can also be called as methods of their first argument. Where that argument is a text and no other one
is null, both forms come to the same value or fail in the same way, however many arguments are given. Null makes
the difference: functions let it through, and it has no methods.
-/

namespace Rulebook

open Outcome

/-- Functions and the methods that do the same. -/
def methodForms : List (String × String) :=
  [("UPPERCASE", "toUpperCase"), ("LOWERCASE", "toLowerCase"), ("TRIM", "trim"), ("LENGTH", "length"),
    ("SUBSTRING", "substring"), ("CONTAINS", "contains"), ("STARTS_WITH", "startsWith"),
    ("ENDS_WITH", "endsWith")]

/-- A method does with a text and other arguments what a function does with all of them. -/
structure Method.Mirrors (m : Method) (f : Function) : Prop where
  receives : m.receivers.contains .string = true
  admits : ∀ n, f.arity.admits (n + 1) = m.arity.admits n
  run : ∀ (s : Text) {args : List Value}, (∀ v ∈ args, v ≠ .null) → m.arity.admits args.length = true →
    Alike (f.run (.text s :: args)) (m.run (.text s) args)

/-! ### Arguments -/

theorem Arity.least_le_of_admits {a : Arity} {n : Nat} (h : a.admits n = true) : a.least ≤ n := by
  rw [admits, Bool.and_eq_true, decide_eq_true_eq] at h
  exact h.1

theorem Arity.admits_succ (least most n : Nat) :
    Arity.admits ⟨least + 1, some (most + 1)⟩ (n + 1) = Arity.admits ⟨least, some most⟩ n := by
  simp [admits]

/-- A number is whole or not wherever it stands. -/
theorem Function.alike_wholeArg (f g : String) (i j : Nat) (v : Value) :
    Alike (wholeArg f i v) (wholeArg g j v) := by
  rw [wholeArg, wholeArg]
  apply (Alike.refl v.kindOf).bind
  intro kind _
  cases v with
  | number n =>
    dsimp only
    cases n.toInt? with
    | none => exact alike_mismatch _ _
    | some i => exact .value i
  | _ => exact alike_mismatch _ _

theorem nth_succ (v : Value) (args : List Value) (i : Nat) :
    Function.nth (v :: args) (i + 1) = Function.nth args i := by
  simp [Function.nth]

/-! ### One function and one method -/

namespace Method

variable {m : Method} {f : Function} {s : Text} {args : List Value}

theorem alike_textMethod (name : String) (g : Text → Text) :
    Alike (Function.textFunction name g (.text s :: args)) (textMethod g (.text s) args) :=
  .value _

theorem alike_length : Alike (Function.length (.text s :: args)) (.ok (.int (size (.text s)))) := .value _

/-- A test refuses what is neither a text nor null. -/
theorem alike_textTest (name name' : String) (test : Text → Text → Bool) (h : ∀ v ∈ args, v ≠ .null)
    (hlength : 0 < args.length) :
    Alike (Function.textTest name test (.text s :: args)) (textTest name' test (.text s) args) := by
  have hne := Function.nth_ne_null h hlength
  rw [Function.textTest, nth_succ, textTest]
  generalize Function.nth args 0 = v at hne ⊢
  cases v with
  | null => exact absurd rfl hne
  | text t => exact .value _
  | foreign t => exact .failure rfl
  | _ => exact .failure rfl

theorem alike_substring :
    Alike (Function.substring (.text s :: args)) (substring (.text s) args) := by
  have hstart := Function.alike_wholeArg "SUBSTRING" "substring" 2 1 (Function.nth args 0)
  have hstop := Function.alike_wholeArg "SUBSTRING" "substring" 3 2 (Function.nth args 1)
  rw [Function.substring, substring, nth_succ, nth_succ]
  change Alike (Function.wholeArg _ _ _ >>= _) _
  apply hstart.bind
  intro start _
  rw [List.length_cons]
  by_cases hlength : 1 < args.length
  · rw [if_pos hlength, if_pos (Nat.succ_lt_succ hlength)]
    apply (hstop.map some).bind
    intro stop _
    exact .value _
  · rw [if_neg hlength, if_neg (fun h => hlength (Nat.lt_of_succ_lt_succ h))]
    exact .value _

/-- Every pair of the table is a function and a method that mirrors it. -/
theorem exists_mirrors {p : String × String} (hp : p ∈ methodForms) :
    ∃ f m, Registry.builtin.find? p.1 = some f ∧ find? p.2 = some m ∧ Mirrors m f := by
  simp only [methodForms, List.mem_cons, List.not_mem_nil, or_false] at hp
  rcases hp with rfl | rfl | rfl | rfl | rfl | rfl | rfl | rfl
  · exact ⟨_, _, rfl, rfl, rfl, Arity.admits_succ 0 0, fun _ _ _ _ => alike_textMethod _ _⟩
  · exact ⟨_, _, rfl, rfl, rfl, Arity.admits_succ 0 0, fun _ _ _ _ => alike_textMethod _ _⟩
  · exact ⟨_, _, rfl, rfl, rfl, Arity.admits_succ 0 0, fun _ _ _ _ => alike_textMethod _ _⟩
  · exact ⟨_, _, rfl, rfl, rfl, Arity.admits_succ 0 0, fun _ _ _ _ => alike_length⟩
  · exact ⟨_, _, rfl, rfl, rfl, Arity.admits_succ 1 2, fun _ _ _ _ => alike_substring⟩
  · exact ⟨_, _, rfl, rfl, rfl, Arity.admits_succ 1 1, fun _ _ h harity =>
      alike_textTest _ _ _ h (Arity.least_le_of_admits harity)⟩
  · exact ⟨_, _, rfl, rfl, rfl, Arity.admits_succ 1 1, fun _ _ h harity =>
      alike_textTest _ _ _ h (Arity.least_le_of_admits harity)⟩
  · exact ⟨_, _, rfl, rfl, rfl, Arity.admits_succ 1 1, fun _ _ h harity =>
      alike_textTest _ _ _ h (Arity.least_le_of_admits harity)⟩

/-- Both count their arguments before they look at them, the function one more. -/
theorem Mirrors.call (h : Mirrors m f) (hargs : ∀ v ∈ args, v ≠ .null) :
    Alike (f.call (.text s :: args)) (m.call (.text s) args) := by
  have hcall : m.call (.text s) args =
      if !m.arity.admits args.length then .fail (.arity (m.name ++ "()") m.arity.text args.length)
      else m.run (.text s) args := by
    change (if !m.receivers.contains .string then _ else _) = _
    rw [h.receives]
    rfl
  rw [hcall, Function.call, List.length_cons, h.admits]
  cases hadmits : m.arity.admits args.length with
  | true => exact h.run s hargs hadmits
  | false => exact alike_arity _ _ _ _ _ _

end Method

/-! ### Trees -/

section

variable {functions : Registry} {c : Context} {e : Expr} {s : Text} {args : List Expr}

theorem ne_null_of_evalAll (hargs : ∀ a ∈ args, eval functions c a ≠ .ok .null) {vs : List Value}
    (h : evalAll functions c args = .ok vs) : ∀ v ∈ vs, v ≠ .null := by
  induction args generalizing vs with
  | nil =>
    rw [evalAll] at h
    cases h
    simp
  | cons a args ih =>
    obtain ⟨ha, hrest⟩ := List.forall_mem_cons.mp hargs
    rw [evalAll] at h
    obtain ⟨v, hv, h⟩ := bind_eq_ok.mp h
    obtain ⟨ws, hws, h⟩ := bind_eq_ok.mp h
    cases h
    refine List.forall_mem_cons.mpr ⟨?_, ih hrest hws⟩
    rintro rfl
    exact ha hv

/-- In both forms the text comes first, then the other arguments. -/
theorem eval_call_of_text {name : String} {f : Function} (hf : functions.find? name = some f)
    (he : eval functions c e = .ok (.text s)) :
    eval functions c (.call name (e :: args)) =
      (evalAll functions c args >>= fun vs => f.call (.text s :: vs)) := by
  rw [eval, hf, evalAll, he]
  cases evalAll functions c args <;> rfl

theorem eval_method_of_text {name : String} {m : Method} (hm : Method.find? name = some m)
    (he : eval functions c e = .ok (.text s)) :
    eval functions c (.method e name args) =
      (evalAll functions c args >>= fun vs => m.call (.text s) vs) := by
  have hinvoke : ∀ vs, Method.invoke (.text s) name vs = m.call (.text s) vs := by
    intro vs
    rw [Method.invoke, hm]
    rfl
  rw [eval, he]
  change (evalAll functions c args >>= fun vs => Method.invoke (.text s) name vs) = _
  simp only [hinvoke]

end

/-- A function that is called with a text and other arguments, none of which comes to null, and the method of the
same meaning that is called on the text with these arguments come to the same value, or to failures of one kind.
If an argument fails, the failure of the first one to do so is that of both. -/
theorem call_forms_alike {p : String × String} (hp : p ∈ methodForms) (c : Context) {e : Expr} {s : Text}
    (he : eval .builtin c e = .ok (.text s)) {args : List Expr}
    (hargs : ∀ a ∈ args, eval .builtin c a ≠ .ok .null) :
    Alike (eval .builtin c (.call p.1 (e :: args))) (eval .builtin c (.method e p.2 args)) ∧
      ∀ before a after vs failure, args = before ++ a :: after → evalAll .builtin c before = .ok vs →
        eval .builtin c a = .error failure →
          eval .builtin c (.call p.1 (e :: args)) = .error failure ∧
            eval .builtin c (.method e p.2 args) = .error failure := by
  obtain ⟨f, m, hf, hm, hmirrors⟩ := Method.exists_mirrors hp
  rw [eval_call_of_text hf he, eval_method_of_text hm he]
  constructor
  · apply (Alike.refl (evalAll .builtin c args)).bind
    intro vs hvs
    exact hmirrors.call (ne_null_of_evalAll hargs hvs)
  · rintro before a after vs failure rfl hbefore ha
    rw [evalAll_of_error hbefore ha]
    exact ⟨rfl, rfl⟩

/-- The bounds of a part of a text, one of them a binary number without a fraction. -/
def boundsOfPart : List Expr := [.lit (.number (.float (.finite false Double.unitsPerOne))), .lit (.int 3)]

theorem call_forms_alike_ofAda :
    ("SUBSTRING", "substring") ∈ methodForms ∧
      eval .builtin ofAda (.path "person" [.key "name"]) = .ok (.text "ada") ∧
      (∀ a ∈ boundsOfPart, eval .builtin ofAda a ≠ .ok .null) ∧
      eval .builtin ofAda (.method (.path "person" [.key "name"]) "substring" boundsOfPart) =
        .ok (.text "da") ∧
      Alike (eval .builtin ofAda (.call "SUBSTRING" (.path "person" [.key "name"] :: boundsOfPart)))
        (eval .builtin ofAda (.method (.path "person" [.key "name"]) "substring" boundsOfPart)) := by
  have hp : ("SUBSTRING", "substring") ∈ methodForms := by decide
  have hname : eval .builtin ofAda (.path "person" [.key "name"]) = .ok (.text "ada") := rfl
  have hargs : ∀ a ∈ boundsOfPart, eval .builtin ofAda a ≠ .ok .null := by
    simp [boundsOfPart, eval, Value.int]
  have hpart : eval .builtin ofAda (.method (.path "person" [.key "name"]) "substring" boundsOfPart) =
      .ok (.text "da") := by
    with_unfolding_all rfl
  exact ⟨hp, hname, hargs, hpart, (call_forms_alike hp ofAda hname hargs).1⟩

end Rulebook
