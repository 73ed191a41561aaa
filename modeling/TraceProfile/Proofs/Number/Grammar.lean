import TraceProfile.Number.Numeral

/-!
# The form of integers

An integer is written as an optional sign, a mark of its base if it has one, and digits with single
underscores between them. Of a text without its surrounding blanks and the script of its digits, the
readers accept this form and no other, and take it for the number that the digits denote.
-/

namespace TraceProfile.Numeral

/-- A sign, or none, and whether it is a minus. -/
inductive Sign : List Char → Bool → Prop where
  /-- No sign. -/
  | absent : Sign [] false
  /-- A plus. -/
  | plus : Sign ['+'] false
  /-- A minus. -/
  | minus : Sign ['-'] true

/-- Digits below a base with single underscores between them, and their values. -/
inductive Digits (base : Nat) : List Char → List Nat → Prop where
  /-- The last digit. -/
  | last {c : Char} {v : Nat} (hc : digitValue? base c = some v) : Digits base [c] [v]
  /-- A digit before another one. -/
  | next {c : Char} {v : Nat} {cs : List Char} {vs : List Nat} (hc : digitValue? base c = some v)
      (hcs : Digits base cs vs) : Digits base (c :: cs) (v :: vs)
  /-- A digit before an underscore and another one. -/
  | spaced {c : Char} {v : Nat} {cs : List Char} {vs : List Nat}
      (hc : digitValue? base c = some v) (hcs : Digits base cs vs) :
      Digits base (c :: '_' :: cs) (v :: vs)

/-- The marks of base sixteen; there may be none. -/
def baseMarks : List (List Char) :=
  [[], ['0', 'x'], ['0', 'X'], ['0', 'x', '_'], ['0', 'X', '_']]

/-- A text has the form of an integer: a sign, one of the marks, and digits with these values. -/
def HasForm (base : Nat) (marks : List (List Char)) (s : String) (negative : Bool)
    (values : List Nat) : Prop :=
  ∃ sign mark digits, plain s = sign ++ (mark ++ digits) ∧ Sign sign negative ∧ mark ∈ marks ∧
    Digits base digits values

/-- A text has the form of an integer in base ten, which is this number. It has no more digits than
the limit. -/
def IntegerForm (s : String) (n : Int) : Prop :=
  ∃ negative values, HasForm 10 [[]] s negative values ∧ values.length ≤ digitLimit ∧
    n = Binary64.signed negative (ofDigits 10 values)

variable {base : Nat} {cs rest digits : List Char} {values : List Nat} {negative : Bool}

/-- Digits start with one. -/
theorem Digits.eq_cons (h : Digits base digits values) :
    ∃ c rest v, digits = c :: rest ∧ digitValue? base c = some v := by
  cases h with
  | last hc => exact ⟨_, _, _, rfl, hc⟩
  | next hc _ => exact ⟨_, _, _, rfl, hc⟩
  | spaced hc _ => exact ⟨_, _, _, rfl, hc⟩

/-- What is taken has the form of digits. -/
theorem digits_of_takeDigits? (h : takeDigits? base cs = some (values, rest)) :
    ∃ digits, cs = digits ++ rest ∧ Digits base digits values := by
  fun_induction takeDigits? base cs generalizing values with
  | case1 => cases h
  | case2 => cases h
  | case3 c v hc rest ih =>
    obtain ⟨⟨vs, left⟩, hrest, heq⟩ := Option.map_eq_some_iff.mp h
    cases heq
    obtain ⟨digits, rfl, hdigits⟩ := ih hrest
    exact ⟨c :: '_' :: digits, rfl, .spaced hc hdigits⟩
  | case4 c v hc next rest hscore hnext ih =>
    obtain ⟨⟨vs, left⟩, hrest, heq⟩ := Option.map_eq_some_iff.mp h
    cases heq
    obtain ⟨digits, hsplit, hdigits⟩ := ih hrest
    exact ⟨c :: digits, by rw [hsplit, List.cons_append], .next hc hdigits⟩
  | case5 c v hc next rest =>
    cases h
    exact ⟨[c], rfl, .last hc⟩
  | case6 c v hc =>
    cases h
    exact ⟨[c], rfl, .last hc⟩

/-- A text does not go on with digits. -/
def EndsDigits (base : Nat) (rest : List Char) : Prop :=
  ∀ c ∈ rest.head?, digitValue? base c = none ∧ c ≠ '_'

/-- Digits end with the text. -/
theorem endsDigits_nil : EndsDigits base [] := fun _ h => nomatch h

/-- Digits are taken as far as they go. -/
theorem Digits.takeDigits?_append (h : Digits base digits values) (hrest : EndsDigits base rest) :
    takeDigits? base (digits ++ rest) = some (values, rest) := by
  induction h with
  | @last c v hc =>
    rw [List.singleton_append, takeDigits?.eq_def]
    cases rest with
    | nil => simp only [hc]
    | cons next rest =>
      obtain ⟨hnext, hscore⟩ := hrest next rfl
      simp only [hc, hnext, Option.isSome_none, Bool.false_eq_true, if_false]
  | @next c v cs vs hc hcs ih =>
    obtain ⟨d, digits, w, rfl, hd⟩ := hcs.eq_cons
    have hscore : d ≠ '_' := by
      rintro rfl
      cases hd
    rw [List.cons_append] at ih
    rw [List.cons_append, List.cons_append, takeDigits?.eq_def]
    simp only [hc, hd, Option.isSome_some, if_true, ih]
    rfl
  | @spaced c v cs vs hc hcs ih =>
    rw [List.cons_append, List.cons_append, takeDigits?.eq_def]
    simp only [hc, ih]
    rfl

/-- A text is taken as a whole if and only if it has the form of digits. -/
theorem takeDigits?_eq_some_iff :
    takeDigits? base digits = some (values, []) ↔ Digits base digits values := by
  constructor
  · intro h
    obtain ⟨digits', hsplit, hdigits⟩ := digits_of_takeDigits? h
    rwa [hsplit, List.append_nil]
  · intro h
    have htake := h.takeDigits?_append endsDigits_nil
    rwa [List.append_nil] at htake

/-- A sign is taken off the front of a text that does not start with one itself. -/
theorem Sign.takeSign_append {sign : List Char} (h : Sign sign negative)
    (hrest : ∀ c ∈ rest.head?, c ≠ '-' ∧ c ≠ '+') : takeSign (sign ++ rest) = (negative, rest) := by
  cases h with
  | absent =>
    rw [List.nil_append, takeSign.eq_def]
    split
    · exact absurd rfl (hrest '-' rfl).1
    · exact absurd rfl (hrest '+' rfl).2
    · rfl
  | plus => rfl
  | minus => rfl

/-- What is taken at the start is a sign, or nothing. -/
theorem sign_of_takeSign (h : takeSign cs = (negative, rest)) :
    ∃ sign, Sign sign negative ∧ cs = sign ++ rest := by
  unfold takeSign at h
  split at h <;> cases h
  · exact ⟨_, .minus, rfl⟩
  · exact ⟨_, .plus, rfl⟩
  · exact ⟨_, .absent, rfl⟩

/-- A digit is no sign. -/
theorem Digits.head_ne_sign (h : Digits base digits values) :
    ∀ c ∈ digits.head?, c ≠ '-' ∧ c ≠ '+' := by
  obtain ⟨d, rest, v, rfl, hd⟩ := h.eq_cons
  rintro c ⟨⟩
  constructor <;> rintro rfl <;> cases hd

/-- Behind the first digit comes an underscore or another digit. -/
theorem Digits.second {c d : Char} (h : Digits base (c :: d :: rest) values) :
    d = '_' ∨ ∃ v, digitValue? base d = some v := by
  cases h with
  | next _ hcs =>
    obtain ⟨_, _, v, heq, hd⟩ := hcs.eq_cons
    cases heq
    exact .inr ⟨v, hd⟩
  | spaced _ _ => exact .inl rfl

/-- A mark is taken off the front of digits. -/
theorem Digits.dropBaseMark_append (h : Digits 16 digits values) {mark : List Char}
    (hmark : mark ∈ baseMarks) : dropBaseMark (mark ++ digits) = digits := by
  have hunmarked {x : Char} (hx : digitValue? 16 x = none ∧ x ≠ '_') (rest : List Char) :
      digits ≠ '0' :: x :: rest := by
    rintro rfl
    rcases h.second with hscore | ⟨v, hv⟩
    · exact hx.2 hscore
    · cases hx.1.symm.trans hv
  have hscore (rest : List Char) : digits ≠ '_' :: rest := by
    rintro rfl
    obtain ⟨_, _, v, heq, hv⟩ := h.eq_cons
    cases heq
    cases hv
  simp only [baseMarks, List.mem_cons, List.not_mem_nil, or_false] at hmark
  rcases hmark with rfl | rfl | rfl | rfl | rfl
  · rw [List.nil_append, dropBaseMark.eq_def]
    split
    · exact absurd rfl (hunmarked (by decide) _)
    · exact absurd rfl (hunmarked (by decide) _)
    · exact absurd rfl (hunmarked (by decide) _)
    · exact absurd rfl (hunmarked (by decide) _)
    · rfl
  · change dropBaseMark ('0' :: 'x' :: digits) = digits
    rw [dropBaseMark]
    exact hscore
  · change dropBaseMark ('0' :: 'X' :: digits) = digits
    rw [dropBaseMark]
    exact hscore
  · rfl
  · rfl

/-- What is dropped behind the sign is a mark of the base, or nothing. -/
theorem mark_of_dropBaseMark (h : dropBaseMark cs = digits) :
    ∃ mark ∈ baseMarks, cs = mark ++ digits := by
  unfold dropBaseMark at h
  split at h <;> cases h
  · exact ⟨['0', 'x', '_'], by decide, rfl⟩
  · exact ⟨['0', 'X', '_'], by decide, rfl⟩
  · exact ⟨['0', 'x'], by decide, rfl⟩
  · exact ⟨['0', 'X'], by decide, rfl⟩
  · exact ⟨[], by decide, rfl⟩

/-- Neither a digit nor the zero of a mark is a sign. -/
private theorem head_mark_append (h : Digits base digits values) {mark : List Char}
    (hmark : mark ∈ baseMarks) : ∀ c ∈ (mark ++ digits).head?, c ≠ '-' ∧ c ≠ '+' := by
  simp only [baseMarks, List.mem_cons, List.not_mem_nil, or_false] at hmark
  rcases hmark with rfl | rfl | rfl | rfl | rfl
  · exact h.head_ne_sign
  all_goals
    rintro c ⟨⟩
    decide

/-- A text is read as an integer in base sixteen exactly if it has the form of one. -/
theorem readHexadecimal_eq_ok_iff {s : String} {n : Int} :
    readHexadecimal s = .ok n ↔ ∃ negative values, HasForm 16 baseMarks s negative values ∧
      n = Binary64.signed negative (ofDigits 16 values) := by
  unfold readHexadecimal
  constructor
  · intro h
    rcases hsign : takeSign (plain s) with ⟨negative, rest⟩
    rw [hsign] at h
    dsimp only at h
    split at h
    · rename_i values hdigits
      cases h
      obtain ⟨sign, hform, hplain⟩ := sign_of_takeSign hsign
      obtain ⟨mark, hmark, hrest⟩ := mark_of_dropBaseMark rfl
      refine ⟨negative, values, ⟨sign, mark, _, ?_, hform, hmark,
        takeDigits?_eq_some_iff.mp hdigits⟩, rfl⟩
      rw [hplain, ← hrest]
    · cases h
  · rintro ⟨negative, values, ⟨sign, mark, digits, hplain, hsign, hmark, hdigits⟩, rfl⟩
    rw [hplain, hsign.takeSign_append (head_mark_append hdigits hmark)]
    dsimp only
    rw [hdigits.dropBaseMark_append hmark, takeDigits?_eq_some_iff.mpr hdigits]

/-- A text is read as an integer in base ten exactly if it has the form of one. -/
theorem readInteger_eq_ok_iff {s : String} {n : Int} :
    readInteger s = .ok n ↔ IntegerForm s n := by
  unfold readInteger
  constructor
  · intro h
    rcases hsign : takeSign (plain s) with ⟨negative, rest⟩
    rw [hsign] at h
    dsimp only at h
    split at h
    · cases h
    · rename_i values left hdigits
      split at h
      · cases h
      · rename_i hlimit
        split at h
        · rename_i hleft
          cases h
          cases List.isEmpty_iff.mp hleft
          obtain ⟨sign, hform, hplain⟩ := sign_of_takeSign hsign
          exact ⟨negative, values, ⟨sign, [], rest, hplain, hform, by simp,
            takeDigits?_eq_some_iff.mp hdigits⟩, Nat.not_lt.mp hlimit, rfl⟩
        · cases h
  · rintro ⟨negative, values, ⟨sign, mark, digits, hplain, hsign, hmark, hdigits⟩, hlimit, rfl⟩
    cases List.mem_singleton.mp hmark
    rw [hplain, hsign.takeSign_append (head_mark_append hdigits (by decide))]
    dsimp only [List.nil_append]
    rw [takeDigits?_eq_some_iff.mpr hdigits]
    dsimp only
    rw [if_neg (Nat.not_lt.mpr hlimit), if_pos List.isEmpty_nil]

end TraceProfile.Numeral
