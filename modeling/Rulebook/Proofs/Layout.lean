import Rulebook.Proofs.Lexemes
import Rulebook.Proofs.Positions

set_option autoImplicit false

/-!
Layout. The tokens of a text can be written out again with any blanks between them and at the ends. This gives
the same tokens at other places, and so the same tree or a fault for the same reason.
-/

namespace Rulebook.Token

open Text

/-- Nothing but blanks. -/
def Blank (gap : List Char) : Prop := ∀ c ∈ gap, isBlank c = true

/-- What stands behind a token: each further token with blanks before it, and perhaps blanks at the end. -/
inductive Gapped : List Token → List Char → Prop
  | done {gap : List Char} : Blank gap → Gapped [] gap
  | token {gap cs : List Char} {t : Token} {ts : List Token} : gap ≠ [] → Blank gap → Gapped ts cs →
      Gapped (t :: ts) (gap ++ (t.text.toList ++ cs))

/-- The texts of tokens in their order, with blanks between them. At both ends there may be blanks. -/
inductive LaidOut : List Token → List Char → Prop
  | blank {gap : List Char} : Blank gap → LaidOut [] gap
  | tokens {gap cs : List Char} {t : Token} {ts : List Token} : Blank gap → Gapped ts cs →
      LaidOut (t :: ts) (gap ++ (t.text.toList ++ cs))

section

variable {c : Char} {gap cs rest : List Char} {t : Token} {ts : List Token}

/-- Everything that stands before a blank ends there. -/
theorem apart_of_isBlank (hc : isBlank c = true) (rest : List Char) : Apart (c :: rest) := by
  have hword := isWordChar_eq_false_of_isBlank hc
  have hdot : c ≠ '.' := by
    rintro rfl
    exact absurd hc (by decide)
  have heq : c ≠ '=' := by
    rintro rfl
    exact absurd hc (by decide)
  exact ⟨by simp [runsOn, hword, hdot], by simpa using heq⟩

theorem Blank.apart (hgap : Blank gap) (hne : gap ≠ []) (rest : List Char) : Apart (gap ++ rest) := by
  obtain ⟨c, gap, rfl⟩ := List.exists_cons_of_ne_nil hne
  exact apart_of_isBlank (hgap c List.mem_cons_self) _

theorem Gapped.apart (h : Gapped ts cs) : Apart cs := by
  cases h with
  | done hgap =>
    by_cases hne : cs = []
    · rw [hne]
      exact apart_nil
    · rw [← List.append_nil cs]
      exact hgap.apart hne []
  | token hne hgap _ => exact hgap.apart hne _

/-- A token in front of what it ends at is scanned again. -/
theorem Formed.scans (ht : t.Formed) (hrest : Apart rest) {position : Nat}
    (h : ∀ position, ∃ us, Scans position rest us ∧ us.map bare = ts.map bare) :
    ∃ us, Scans position (t.text.toList ++ rest) us ∧ us.map bare = (t :: ts).map bare := by
  obtain ⟨c, a, b, htext, hlexeme⟩ := ht
  obtain ⟨us, hscans, hbare⟩ := h (position + a.length + 1)
  rw [htext]
  refine ⟨_, .token (hlexeme.behind (hrest.endsAlike b)) hscans, ?_⟩
  have hself : String.ofList (c :: a) = t.text := by rw [← htext, String.ofList_toList]
  rw [List.map_cons, List.map_cons, hbare, hself]
  rfl

theorem Gapped.scans (h : Gapped ts cs) (hts : ∀ t ∈ ts, t.Formed) (position : Nat) :
    ∃ us, Scans position cs us ∧ us.map bare = ts.map bare := by
  induction h generalizing position with
  | @done gap hgap =>
    have hscans : Scans position (gap ++ []) [] := .gap hgap (.done _)
    rw [List.append_nil] at hscans
    exact ⟨[], hscans, rfl⟩
  | token _ hgap hmore ih =>
    obtain ⟨ht, hts⟩ := List.forall_mem_cons.mp hts
    obtain ⟨us, hscans, hbare⟩ := ht.scans hmore.apart (ih hts)
    exact ⟨us, hscans.gap hgap, hbare⟩

theorem LaidOut.scans (h : LaidOut ts cs) (hts : ∀ t ∈ ts, t.Formed) (position : Nat) :
    ∃ us, Scans position cs us ∧ us.map bare = ts.map bare := by
  cases h with
  | blank hgap => exact (Gapped.done hgap).scans hts position
  | tokens hgap hmore =>
    obtain ⟨ht, hts⟩ := List.forall_mem_cons.mp hts
    obtain ⟨us, hscans, hbare⟩ := ht.scans hmore.apart (hmore.scans hts)
    exact ⟨us, hscans.gap hgap, hbare⟩

end

end Rulebook.Token

namespace Rulebook

open Token

theorem parse_mapError {text : String} {ts : List Token} (h : scan text = .ok ts) :
    (parse text).mapError (Unread.map fun e => e.reason) =
      ((Parse.expression text.length ts).mapError SyntaxFault.reason).mapError Unread.fault := by
  rw [parse_of_scan h]
  cases Parse.expression text.length ts <;> rfl

/-- The tokens of a text, written out with other blanks, are scanned again, each with its kind, its value and its
text. They are parsed to the same tree, or refused for the same reason. -/
theorem parse_laidOut {text text' : String} {ts : List Token} (h : scan text = .ok ts)
    (hlaid : LaidOut ts text'.toList) :
    (∃ us, scan text' = .ok us ∧ us.map bare = ts.map bare) ∧
      (parse text').mapError (Unread.map fun e => e.reason) = (parse text).mapError (Unread.map fun e => e.reason) := by
  obtain ⟨us, hscans, hbare⟩ := hlaid.scans (scan_eq_ok_iff.mp h).formed 0
  have hscan : scan text' = .ok us := scan_eq_ok_iff.mpr hscans
  refine ⟨⟨us, hscan, hbare⟩, ?_⟩
  rw [parse_mapError hscan, parse_mapError h, Parse.expression_of_bare hbare]

/-- A number in front of a dot, and an operator of two characters. -/
def memberTokens : List Token :=
  [⟨.int 1, "1", 0⟩, ⟨.dot, ".", 1⟩, ⟨.name, "x", 2⟩, ⟨.ge, ">=", 3⟩, ⟨.int 2, "2", 5⟩]

theorem parse_laidOut_memberTokens :
    scan "1.x>=2" = .ok memberTokens ∧ LaidOut memberTokens "1 .\tx\u3000>= \n2 ".toList ∧
      (∃ us, scan "1 .\tx\u3000>= \n2 " = .ok us ∧ us.map bare = memberTokens.map bare) ∧
      (parse "1 .\tx\u3000>= \n2 ").mapError (Unread.map fun e => e.reason) =
        (parse "1.x>=2").mapError (Unread.map fun e => e.reason) := by
  have hscan : scan "1.x>=2" = .ok memberTokens := by with_unfolding_all rfl
  have hblank : [[], [' '], ['\t'], ['\u3000'], [' ', '\n']].all (fun gap => gap.all Text.isBlank) = true := by
    decide +kernel
  have hgap : ∀ gap ∈ [[], [' '], ['\t'], ['\u3000'], [' ', '\n']], Blank gap := fun gap hmem =>
    List.all_eq_true.mp (List.all_eq_true.mp hblank gap hmem)
  have hspace : Blank [' '] := hgap _ (by simp)
  have hlaid : LaidOut memberTokens "1 .\tx\u3000>= \n2 ".toList := by
    have hvalue : Gapped [⟨.int 2, "2", 5⟩] _ :=
      .token (by simp) (hgap [' ', '\n'] (by simp)) (.done hspace)
    have hsign : Gapped [⟨.ge, ">=", 3⟩, _] _ := .token (by simp) (hgap ['\u3000'] (by simp)) hvalue
    have hname : Gapped [⟨.name, "x", 2⟩, _, _] _ := .token (by simp) (hgap ['\t'] (by simp)) hsign
    have hmember : Gapped [⟨.dot, ".", 1⟩, _, _, _] _ := .token (by simp) hspace hname
    exact LaidOut.tokens (hgap [] (by simp)) hmember
  obtain ⟨htokens, hparse⟩ := parse_laidOut hscan hlaid
  exact ⟨hscan, hlaid, htokens, hparse⟩

end Rulebook
