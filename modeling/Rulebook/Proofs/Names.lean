import Rulebook.Proofs.Documents

set_option autoImplicit false

/-!
Names in documents that are read. The members of an object have distinct names. The two halves of a surrogate
pair stand side by side in no name, because a text of characters holds halves only as escapes, and two
escapes that make up a pair are read as one character.
-/

namespace Rulebook

namespace CodePoint

theorem isHighHalf_of_ofNat {n : Nat} (h : isHighHalf (ofNat n).number = true) : isHighHalf n = true := by
  by_cases hn : 0xD800 ≤ n ∧ n < 0xE000
  · rw [ofNat, dif_pos hn, number] at h
    rwa [Nat.add_sub_cancel' hn.1] at h
  · rw [ofNat, dif_neg hn, number, isHighHalf_toNat] at h
    cases h

theorem isLowHalf_of_ofNat {n : Nat} (h : isLowHalf (ofNat n).number = true) : isLowHalf n = true := by
  by_cases hn : 0xD800 ≤ n ∧ n < 0xE000
  · rw [ofNat, dif_pos hn, number] at h
    rwa [Nat.add_sub_cancel' hn.1] at h
  · rw [ofNat, dif_neg hn, number, isLowHalf_toNat] at h
    cases h

end CodePoint

namespace Text

/-- The text consists of characters. -/
def Plain (s : Text) : Prop := ∀ p ∈ s, ∃ c, p = .char c

theorem plain_ofString (s : String) : Plain (ofString s) := by
  intro p hp
  obtain ⟨c, -, rfl⟩ := List.mem_map.mp hp
  exact ⟨c, rfl⟩

theorem Plain.of_suffix {s t : Text} (h : Plain s) (ht : t <:+ s) : Plain t :=
  fun p hp => h p (ht.mem hp)

theorem Plain.drop {s : Text} (h : Plain s) (n : Nat) : Plain (s.drop n) :=
  h.of_suffix (List.drop_suffix n s)

theorem Plain.tail {s : Text} {p : CodePoint} (h : Plain (p :: s)) : Plain s :=
  h.of_suffix (List.suffix_cons p s)

theorem Plain.skip {s : Text} (h : Plain s) : Plain (Json.skip s) :=
  h.of_suffix (List.dropWhile_suffix _)

end Text

namespace Json

open CodePoint Text

section

variable {α β : Type} {m n : Nat} {C : α → Text → Prop} {D : β → Text → Prop}

/-- What is read meets a condition together with the text that is left. -/
def Ensures (C : α → Text → Prop) (x : Result α n) : Prop := ∀ r, x = .ok r → C r.value r.rest

theorem ensures_error (fault : ReadFault) : Ensures C (.error fault : Result α n) := by
  intro r h
  cases h

theorem ensures_ok {r : Reading CodePoint α n} (h : C r.value r.rest) : Ensures C (.ok r) := by
  intro r' heq
  cases heq
  exact h

theorem ensures_bind {x : Result α m} {f : Reading CodePoint α m → Result β n} (hx : Ensures C x)
    (hf : ∀ r, C r.value r.rest → Ensures D (f r)) : Ensures D (x >>= f) := by
  cases x with
  | error fault => exact ensures_error fault
  | ok r => exact hf r (hx r rfl)

theorem ensures_require {x : Option β} {f : β → Result α n} (hf : ∀ b, x = some b → Ensures C (f b)) :
    Ensures C (require x >>= f) := by
  cases x with
  | none => exact ensures_error _
  | some b => exact hf b rfl

end

/-- The text is read without pairs, and it starts with a second half only where this half is escaped. -/
structure Unescaped (s t rest : Text) : Prop where
  unpaired : t.Unpaired
  plain : rest.Plain
  head : ∀ q ∈ t.head?, isLowHalf q.number = true → (lowHalf? s).isSome = true

theorem unescaped_cons {s t rest u : Text} {p : CodePoint} (h : Unescaped s t rest)
    (hhigh : isHighHalf p.number = true → lowHalf? s = none)
    (hlow : isLowHalf p.number = true → (lowHalf? u).isSome = true) : Unescaped u (p :: t) rest where
  unpaired := by
    refine unpaired_cons ?_ h.unpaired
    rintro q hq ⟨hp, hq'⟩
    have := h.head q hq hq'
    rw [hhigh hp] at this
    cases this
  plain := h.plain
  head := by
    rintro q hq hq'
    cases hq
    exact hlow hq'

theorem unescaped_char {s t rest u : Text} (c : Char) (h : Unescaped s t rest) :
    Unescaped u (.char c :: t) rest := by
  refine unescaped_cons h ?_ ?_
  · intro hc
    rw [CodePoint.number, isHighHalf_toNat] at hc
    cases hc
  · intro hc
    rw [CodePoint.number, isLowHalf_toNat] at hc
    cases hc

/-- A unit is the second half of a pair only together with the escaped half before it. -/
theorem unescaped_unit {a b c d : Char} {n : Nat} {s t rest : Text} (hn : hexUnit? a b c d = some n)
    (h : Unescaped (s.drop (unitPoint n s).2) t rest) :
    Unescaped (.char '\\' :: .char 'u' :: .char a :: .char b :: .char c :: .char d :: s)
      ((unitPoint n s).1 :: t) rest := by
  unfold unitPoint at h ⊢
  split at h
  · next low hlow => exact unescaped_char _ h
  · next hlow =>
    refine unescaped_cons h ?_ ?_
    · intro hhigh
      rwa [if_pos (isHighHalf_of_ofNat hhigh)] at hlow
    · intro hlow'
      rw [lowHalf?, hn, Option.filter_some, if_pos (isLowHalf_of_ofNat hlow')]
      rfl

theorem readText_unescaped (s : Text) : s.Plain → Ensures (Unescaped s) (readText s) := by
  induction s using readText.induct with
  | case1 =>
    intro _
    rw [readText]
    exact ensures_error _
  | case2 rest =>
    intro hs
    rw [readText]
    exact ensures_ok ⟨trivial, hs.tail, by simp⟩
  | case3 a b c d rest ih =>
    intro hs
    have hrest : Text.Plain rest := hs.tail.tail.tail.tail.tail.tail
    rw [readText]
    refine ensures_require fun n hn => ?_
    exact ensures_bind (ih n (hrest.drop _)) fun r hr => ensures_ok (unescaped_unit hn hr)
  | case4 c rest hu ih =>
    intro hs
    rw [readText.eq_4 _ _ hu]
    refine ensures_require fun d _ => ?_
    exact ensures_bind (ih hs.tail.tail) fun r hr => ensures_ok (unescaped_char d hr)
  | case5 p rest hquote hu hslash hcontrol =>
    intro hs
    rw [readText.eq_5 _ _ hquote hu hslash, if_pos hcontrol]
    exact ensures_error _
  | case6 p rest hquote hu hslash hcontrol ih =>
    intro hs
    obtain ⟨c, rfl⟩ := hs p (by simp)
    rw [readText.eq_5 _ _ hquote hu hslash, if_neg hcontrol]
    exact ensures_bind (ih hs.tail) fun r hr => ensures_ok (unescaped_char c hr)

/-! ### Documents -/

/-- A document that has no parts. The text of one is a label. -/
def IsScalar : Json → Prop
  | .arr _ | .obj _ => False
  | .str s => s.Unpaired
  | _ => True

theorem isScalar_of_word? {s : Text} {w : String} {v : Json} (h : word? s = some (w, v)) : IsScalar v := by
  have hwords : ∀ w ∈ words, IsScalar w.2 := by simp [words, IsScalar]
  exact hwords (w, v) (List.mem_of_find?_eq_some h)

theorem regular_noMembers : Regular IsScalar (.obj []) := .obj List.nodup_nil (by simp) (by simp)

theorem Regular.names {members : List (Text × Json)} (h : Regular IsScalar (.obj members)) :
    (Entries.keys members).Nodup ∧ (∀ m ∈ members, m.1.Unpaired) ∧
      ∀ m ∈ members, Regular IsScalar m.2 := by
  cases h with
  | leaf h => cases h
  | obj hkeys hnames hmembers => exact ⟨hkeys, hnames, hmembers⟩

theorem Regular.unpaired {s : Text} (h : Regular IsScalar (.str s)) : s.Unpaired := by
  cases h with
  | leaf h => exact h

theorem Regular.put {before : List (Text × Json)} {key : Text} {v : Json}
    (h : Regular IsScalar (.obj before)) (hkey : key.Unpaired) (hv : Regular IsScalar v) :
    Regular IsScalar (.obj (Entries.put before key v)) := by
  obtain ⟨hkeys, hnames, hmembers⟩ := h.names
  refine .obj (Entries.nodup_keys_put hkeys key v) ?_ ?_
  · intro m hm
    rcases Entries.mem_put hm with rfl | hm
    · exact hkey
    · exact hnames m hm
  · intro m hm
    rcases Entries.mem_put hm with rfl | hm
    · exact hv
    · exact hmembers m hm

/-- A regular document is read, and characters are left. -/
def Documents (v : Json) (rest : Text) : Prop := Regular IsScalar v ∧ rest.Plain

def Items (vs : List Json) (rest : Text) : Prop := (∀ v ∈ vs, Regular IsScalar v) ∧ rest.Plain

def Members (ms : List (Text × Json)) (rest : Text) : Prop := Documents (.obj ms) rest

section

variable {s : Text}

theorem readText_unpaired (hs : s.Plain) :
    Ensures (fun t rest => t.Unpaired ∧ rest.Plain) (readText s) :=
  fun r hr => have h := readText_unescaped s hs r hr; ⟨h.unpaired, h.plain⟩

theorem readString_regular (hs : s.Plain) : Ensures Documents (readValue (.char '"' :: s)) := by
  rw [readValue]
  exact ensures_bind (readText_unpaired hs) fun r hr => ensures_ok ⟨.leaf hr.1, hr.2⟩

theorem readNumber_regular (p : CodePoint) (hs : s.Plain) : Ensures Documents (readNumber p s) := by
  unfold readNumber
  dsimp only
  split
  · exact ensures_error _
  · split
    · exact ensures_error _
    · exact ensures_ok ⟨.leaf trivial, hs.drop _⟩

theorem readList_regular (hs : s.Plain)
    (hitems : ∀ p t, (p = .char ']' → False) → skip s = p :: t → Ensures Items (readItems (p :: t))) :
    Ensures Documents (readValue (.char '[' :: s)) := by
  rw [readValue]
  split
  · next heq => exact ensures_ok ⟨.arr (by simp), (heq ▸ hs.skip).tail⟩
  · next p t hp heq =>
    exact ensures_bind (hitems p t hp heq) fun r hr => ensures_ok ⟨.arr hr.1, hr.2⟩
  · exact ensures_error _

theorem readObject_regular (hs : s.Plain)
    (hmembers : ∀ p t, (p = .char '\x7d' → False) → skip s = p :: t →
      Ensures Members (readMembers [] (p :: t))) :
    Ensures Documents (readValue (.char '\x7b' :: s)) := by
  rw [readValue]
  split
  · next heq => exact ensures_ok ⟨regular_noMembers, (heq ▸ hs.skip).tail⟩
  · next p t hp heq => exact ensures_bind (hmembers p t hp heq) fun r hr => ensures_ok hr
  · exact ensures_error _

theorem readWord_regular {p : CodePoint} {w : String} {v : Json} (hquote : p = .char '"' → False)
    (hlist : p = .char '[' → False) (hobject : p = .char '\x7b' → False)
    (hword : word? (p :: s) = some (w, v)) (hs : s.Plain) : Ensures Documents (readValue (p :: s)) := by
  rw [readValue.eq_4 _ _ hquote hlist hobject, hword]
  exact ensures_ok ⟨.leaf (isScalar_of_word? hword), hs.drop _⟩

/-- One item, and the items behind a comma. -/
theorem readItems_regular (hvalue : Ensures Documents (readValue s))
    (hmore : ∀ rest : Text, rest.length < s.length → ∀ rest', skip rest = .char ',' :: rest' →
      Plain rest' → Ensures Items (readItems (skip rest'))) :
    Ensures Items (readItems s) := by
  rw [readItems]
  refine ensures_bind hvalue fun r h => ?_
  obtain ⟨v, rest, hlt⟩ := r
  obtain ⟨hv, hrest⟩ := h
  dsimp only at hv hrest ⊢
  split
  · next hclose => exact ensures_ok ⟨by simpa using hv, (hclose ▸ hrest.skip).tail⟩
  · next rest' hcomma =>
    refine ensures_bind (hmore rest hlt rest' hcomma (hcomma ▸ hrest.skip).tail) fun r hr => ensures_ok ?_
    exact ⟨List.forall_mem_cons.mpr ⟨hv, hr.1⟩, hr.2⟩
  · exact ensures_error _

/-- One member, and the members behind a comma. -/
theorem readMembers_regular {before : List (Text × Json)} (hs : s.Plain)
    (hbefore : Regular IsScalar (.obj before))
    (hvalue : ∀ rest₁ : Text, rest₁.length < s.length → ∀ rest₂, skip rest₁ = .char ':' :: rest₂ →
      Plain rest₂ → Ensures Documents (readValue (skip rest₂)))
    (hmore : ∀ (key : Text) (rest₁ : Text), rest₁.length < s.length → ∀ rest₂,
      skip rest₁ = .char ':' :: rest₂ → ∀ (v : Json) (rest₃ : Text), rest₃.length < (skip rest₂).length →
        ∀ rest₄, skip rest₃ = .char ',' :: rest₄ → Plain rest₄ →
          Regular IsScalar (.obj (Entries.put before key v)) →
            Ensures Members (readMembers (Entries.put before key v) (skip rest₄))) :
    Ensures Members (readMembers before (.char '"' :: s)) := by
  rw [readMembers]
  refine ensures_bind (readText_unpaired hs) fun r₁ h₁ => ?_
  obtain ⟨key, rest₁, hlt₁⟩ := r₁
  obtain ⟨hkey, hrest₁⟩ := h₁
  dsimp only at hkey hrest₁ ⊢
  split
  · next rest₂ hcolon =>
    refine ensures_bind (hvalue rest₁ hlt₁ rest₂ hcolon (hcolon ▸ hrest₁.skip).tail) fun r₃ h₃ => ?_
    obtain ⟨v, rest₃, hlt₃⟩ := r₃
    obtain ⟨hv, hrest₃⟩ := h₃
    dsimp only at hv hrest₃ ⊢
    split
    · next hclose => exact ensures_ok ⟨hbefore.put hkey hv, (hclose ▸ hrest₃.skip).tail⟩
    · next rest₄ hcomma =>
      exact ensures_bind (hmore key rest₁ hlt₁ rest₂ hcolon v rest₃ hlt₃ rest₄ hcomma
        (hcomma ▸ hrest₃.skip).tail (hbefore.put hkey hv)) fun r hr => ensures_ok hr
    · exact ensures_error _
  · exact ensures_error _

end

/-- The documents, the members and the items that are read from a text of characters. -/
theorem readValue_regular :
    (∀ s : Text, s.Plain → Ensures Documents (readValue s)) ∧
    (∀ (before : List (Text × Json)) (s : Text), s.Plain → Regular IsScalar (.obj before) →
      Ensures Members (readMembers before s)) ∧
    (∀ s : Text, s.Plain → Ensures Items (readItems s)) := by
  refine readValue.mutual_induct _ _ _ ?text ?emptyList ?list ?openList ?emptyObject ?object ?openObject
    ?word ?number ?nothing ?members ?noMembers ?items
  case text => exact fun rest hs => readString_regular hs.tail
  case emptyList =>
    intro rest _ rest' hskip hs
    exact readList_regular hs.tail fun p t hp heq => (hp (List.cons.inj (heq.symm.trans hskip)).1).elim
  case list =>
    intro rest _ p rest' _ hskip _ ih hs
    refine readList_regular hs.tail fun q t _ heq => ?_
    obtain ⟨rfl, rfl⟩ := List.cons.inj (heq.symm.trans hskip)
    exact ih (heq ▸ hs.tail.skip)
  case openList =>
    intro rest _ hskip hs
    exact readList_regular hs.tail fun p t _ heq => (List.cons_ne_nil p t (heq.symm.trans hskip)).elim
  case emptyObject =>
    intro rest _ rest' hskip hs
    exact readObject_regular hs.tail fun p t hp heq => (hp (List.cons.inj (heq.symm.trans hskip)).1).elim
  case object =>
    intro rest _ p rest' _ hskip _ ih hs
    refine readObject_regular hs.tail fun q t _ heq => ?_
    obtain ⟨rfl, rfl⟩ := List.cons.inj (heq.symm.trans hskip)
    exact ih (heq ▸ hs.tail.skip) regular_noMembers
  case openObject =>
    intro rest _ hskip hs
    exact readObject_regular hs.tail fun p t _ heq => (List.cons_ne_nil p t (heq.symm.trans hskip)).elim
  case word =>
    intro p rest hquote hlist hobject w v hword hs
    exact readWord_regular hquote hlist hobject hword hs.tail
  case number =>
    intro p rest hquote hlist hobject hword hs
    rw [readValue.eq_4 _ _ hquote hlist hobject, hword]
    exact readNumber_regular p hs.tail
  case nothing =>
    intro _
    rw [readValue]
    exact ensures_error _
  case members =>
    intro before rest hvalue hmore hs hbefore
    refine readMembers_regular hs.tail hbefore ?_ ?_
    · exact fun rest₁ hlt₁ rest₂ hcolon hplain => hvalue rest₁ hlt₁ rest₂ hcolon hplain.skip
    · exact fun key rest₁ hlt₁ rest₂ hcolon v rest₃ hlt₃ rest₄ hcomma hplain =>
        hmore key rest₁ hlt₁ rest₂ hcolon v rest₃ hlt₃ rest₄ hcomma hplain.skip
  case noMembers =>
    intro before s hquote _ _
    rw [readMembers.eq_2 _ _ hquote]
    exact ensures_error _
  case items =>
    intro s hvalue hmore hs
    refine readItems_regular (hvalue hs) ?_
    exact fun rest hlt rest' hcomma hplain => hmore rest hlt rest' hcomma hplain.skip

/-- A document that was read. -/
theorem regular_of_read {s : String} {v : Json} (h : read (ofString s) = .ok v) : Regular IsScalar v := by
  rw [read] at h
  cases hvalue : readValue (skip (ofString s)) with
  | error fault =>
    rw [hvalue] at h
    cases h
  | ok r =>
    have hregular := (readValue_regular.1 _ (plain_ofString s).skip r hvalue).1
    rw [hvalue] at h
    change (if (skip r.rest).isEmpty then Except.ok r.value else .error ReadFault.malformed) = .ok v at h
    split at h
    · cases h
      exact hregular
    · cases h

end Json

end Rulebook
