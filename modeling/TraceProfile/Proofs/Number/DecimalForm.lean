import TraceProfile.Proofs.Number.Grammar
import TraceProfile.Proofs.Number.Reading

/-!
# The form of decimals

A decimal is written as an optional sign and one of the words for an infinity or no number, in
letters of any case, or as an optional sign, digits with a point among them or none, and an optional
exponent. Of a text without its surrounding blanks and the script of its digits, the reader accepts
these forms and no other.
-/

namespace TraceProfile.Numeral

/-- Digits, or none. -/
inductive Whole : List Char → List Nat → Prop where
  /-- No digits. -/
  | absent : Whole [] []
  /-- Digits. -/
  | digits {cs : List Char} {values : List Nat} (h : Digits 10 cs values) : Whole cs values

/-- A point with digits behind it, or without them, or nothing at all. -/
inductive Fraction : List Char → List Nat → Prop where
  /-- Nothing. -/
  | absent : Fraction [] []
  /-- A point. -/
  | point {cs : List Char} {values : List Nat} (h : Whole cs values) : Fraction ('.' :: cs) values

/-- An exponent behind its letter; without one the exponent is zero. -/
inductive Exponent : List Char → Int → Prop where
  /-- No exponent. -/
  | absent : Exponent [] 0
  /-- An exponent. -/
  | letter {c : Char} {sign digits : List Char} {negative : Bool} {values : List Nat}
      (hc : c = 'e' ∨ c = 'E') (hsign : Sign sign negative) (hdigits : Digits 10 digits values) :
      Exponent (c :: (sign ++ digits)) (Binary64.signed negative (ofDigits 10 values))

/-- The words for numbers without digits. -/
def namedNumbers (negative : Bool) : List (String × Binary64) :=
  [("inf", .infinite negative), ("infinity", .infinite negative), ("nan", .nan)]

/-- A text has the form of a decimal, which is this number. -/
inductive DecimalForm (s : String) : Binary64 → Prop where
  /-- A word. -/
  | named {sign body : List Char} {negative : Bool} {word : String} {x : Binary64}
      (hplain : plain s = sign ++ body) (hsign : Sign sign negative)
      (hname : (word, x) ∈ namedNumbers negative) (hbody : body.map Char.toLower = word.toList) :
      DecimalForm s x
  /-- Digits before the point or behind it, or both. -/
  | digits {sign whole fraction exponent : List Char} {negative : Bool}
      {wholeValues fractionValues : List Nat} {e : Int}
      (hplain : plain s = sign ++ (whole ++ (fraction ++ exponent))) (hsign : Sign sign negative)
      (hwhole : Whole whole wholeValues) (hfraction : Fraction fraction fractionValues)
      (hexponent : Exponent exponent e) (hdigits : wholeValues ++ fractionValues ≠ []) :
      DecimalForm s (Binary64.ofDecimal negative (ofDigits 10 (wholeValues ++ fractionValues))
        (e - fractionValues.length))

variable {cs rest whole fraction exponent : List Char} {values : List Nat} {negative : Bool}
  {x : Binary64} {e : Int}

section Words

/-- A word is read if it is one of the known ones in letters of any case. -/
theorem namedNumber?_eq_some_iff :
    namedNumber? negative cs = some x ↔
      ∃ word, (word, x) ∈ namedNumbers negative ∧ cs.map Char.toLower = word.toList := by
  have hword (word : String) :
      String.ofList (cs.map Char.toLower) = word ↔ cs.map Char.toLower = word.toList := by
    rw [← String.toList_inj, String.toList_ofList]
  simp only [← hword, namedNumbers, List.mem_cons, List.not_mem_nil, or_false, Prod.mk.injEq]
  rw [namedNumber?]
  generalize String.ofList (cs.map Char.toLower) = lower
  split <;> simp_all [eq_comm]

/-- A word starts with a letter. -/
theorem head_of_named (h : namedNumber? negative cs = some x) :
    ∃ c rest, cs = c :: rest ∧ (c.toLower = 'i' ∨ c.toLower = 'n') := by
  obtain ⟨word, hword, hcs⟩ := namedNumber?_eq_some_iff.mp h
  have hletter : ∀ entry ∈ namedNumbers negative, ∃ c rest, entry.1.toList = c :: rest ∧
      (c = 'i' ∨ c = 'n') := by
    intro entry hentry
    simp only [namedNumbers, List.mem_cons, List.not_mem_nil, or_false] at hentry
    rcases hentry with rfl | rfl | rfl
    · exact ⟨'i', _, (by decide : "inf".toList = ['i', 'n', 'f']), .inl rfl⟩
    · exact ⟨'i', _, (by decide : "infinity".toList = ['i', 'n', 'f', 'i', 'n', 'i', 't', 'y']),
        .inl rfl⟩
    · exact ⟨'n', _, (by decide : "nan".toList = ['n', 'a', 'n']), .inr rfl⟩
  obtain ⟨first, letters, hletters, hfirst⟩ := hletter _ hword
  rw [hletters] at hcs
  cases cs with
  | nil => cases hcs
  | cons c rest =>
    rw [List.map_cons, List.cons.injEq] at hcs
    exact ⟨c, rest, rfl, by rwa [hcs.1]⟩

end Words

section Parts

/-- The digits of base ten are the ASCII ones. -/
theorem isDigit_of_digitValue? {c : Char} {v : Nat} (h : digitValue? 10 c = some v) :
    c.isDigit = true := by
  obtain ⟨hvalue, hbound⟩ := Option.filter_eq_some_iff.mp h
  rw [decide_eq_true_eq] at hbound
  split at hvalue
  · rename_i hrange
    exact Char.isDigit_iff_toNat.mpr ⟨hrange.1, hrange.2⟩
  · split at hvalue
    · cases hvalue
      omega
    · split at hvalue <;> cases hvalue
      omega

/-- What is taken before the point is digits, or nothing. -/
theorem whole_of_takeWhole (h : takeWhole cs = (values, rest)) :
    ∃ whole, cs = whole ++ rest ∧ Whole whole values := by
  unfold takeWhole at h
  cases hdigits : takeDigits? 10 cs with
  | none =>
    rw [hdigits] at h
    cases h
    exact ⟨[], rfl, .absent⟩
  | some taken =>
    rw [hdigits] at h
    cases h
    obtain ⟨digits, hsplit, hform⟩ := digits_of_takeDigits? hdigits
    exact ⟨digits, hsplit, .digits hform⟩

/-- Digits are taken as a whole if no digit comes behind them. -/
theorem Whole.takeWhole_append (h : Whole whole values) (hrest : EndsDigits 10 rest) :
    takeWhole (whole ++ rest) = (values, rest) := by
  rw [takeWhole]
  cases h with
  | absent =>
    rw [List.nil_append, takeDigits?.eq_def]
    cases rest with
    | nil => rfl
    | cons c rest =>
      simp only [(hrest c rfl).1]
      rfl
  | digits h => rw [h.takeDigits?_append hrest, Option.getD_some]

/-- What is taken from the point on has the form of a fraction. -/
theorem fraction_of_takeFraction (h : takeFraction cs = (values, rest)) :
    ∃ fraction, cs = fraction ++ rest ∧ Fraction fraction values := by
  unfold takeFraction at h
  split at h
  · obtain ⟨whole, hsplit, hwhole⟩ := whole_of_takeWhole h
    exact ⟨'.' :: whole, by rw [hsplit, List.cons_append], .point hwhole⟩
  · cases h
    exact ⟨[], rfl, .absent⟩

/-- A fraction is taken as a whole if neither a digit nor a point comes behind it. -/
theorem Fraction.takeFraction_append (h : Fraction fraction values) (hrest : EndsDigits 10 rest)
    (hpoint : '.' ∉ rest.head?) : takeFraction (fraction ++ rest) = (values, rest) := by
  cases h with
  | absent =>
    rw [List.nil_append, takeFraction.eq_def]
    split
    · exact absurd rfl hpoint
    · rfl
  | point h => exact h.takeWhole_append hrest

/-- What is taken behind the fraction has the form of an exponent. -/
theorem exponent_of_takeExponent (h : takeExponent cs = (e, rest)) :
    ∃ exponent, cs = exponent ++ rest ∧ Exponent exponent e := by
  unfold takeExponent at h
  split at h
  · rename_i c cs
    split at h
    · rename_i hc
      dsimp only at h
      split at h
      · rename_i values left hdigits
        cases h
        obtain ⟨sign, hsign, hcs⟩ := sign_of_takeSign (Prod.eta (takeSign cs)).symm
        obtain ⟨digits, hsplit, hform⟩ := digits_of_takeDigits? hdigits
        exact ⟨c :: (sign ++ digits), by rw [hcs, hsplit]; simp, .letter hc hsign hform⟩
      · cases h
        exact ⟨[], rfl, .absent⟩
    · cases h
      exact ⟨[], rfl, .absent⟩
  · cases h
    exact ⟨[], rfl, .absent⟩

/-- A whole exponent is taken. -/
theorem Exponent.takeExponent_eq (h : Exponent exponent e) : takeExponent exponent = (e, []) := by
  cases h with
  | absent => rfl
  | letter hc hsign hdigits =>
    rw [takeExponent, if_pos hc, hsign.takeSign_append hdigits.head_ne_sign]
    dsimp only
    rw [takeDigits?_eq_some_iff.mpr hdigits]

/-- An exponent goes on with neither digits nor a point. -/
theorem Exponent.endsDigits (h : Exponent exponent e) :
    EndsDigits 10 exponent ∧ '.' ∉ exponent.head? := by
  cases h with
  | absent => exact ⟨endsDigits_nil, nofun⟩
  | letter hc _ _ =>
    rcases hc with rfl | rfl
    all_goals
      refine ⟨?_, fun h => absurd (Option.some.inj h) (by decide)⟩
      rintro c ⟨⟩
      decide

/-- The digits before a fraction end where it starts. -/
theorem Fraction.endsDigits_append (h : Fraction fraction values) (hrest : EndsDigits 10 rest) :
    EndsDigits 10 (fraction ++ rest) := by
  cases h with
  | absent => exact hrest
  | point h =>
    rintro c ⟨⟩
    decide

/-- What has digits before or behind its point starts with a digit or the point, so it is neither a
sign nor a word. -/
theorem head_of_digits {wholeValues fractionValues : List Nat} (hwhole : Whole whole wholeValues)
    (hfraction : Fraction fraction fractionValues) (hdigits : wholeValues ++ fractionValues ≠ [])
    (rest : List Char) : ∃ c tail, whole ++ (fraction ++ rest) = c :: tail ∧
      (c.isDigit = true ∨ c = '.') := by
  cases hwhole with
  | absent =>
    cases hfraction with
    | absent => exact absurd rfl hdigits
    | point _ => exact ⟨'.', _, rfl, .inr rfl⟩
  | digits h =>
    obtain ⟨c, tail, v, rfl, hc⟩ := h.eq_cons
    exact ⟨c, _, rfl, .inl (isDigit_of_digitValue? hc)⟩

end Parts

/-- A text is read as a decimal exactly if it has the form of one. -/
theorem readDecimal_eq_ok_iff {s : String} : readDecimal s = .ok x ↔ DecimalForm s x := by
  unfold readDecimal
  constructor
  · intro h
    obtain ⟨sign, hsign, hplain⟩ := sign_of_takeSign (Prod.eta (takeSign (plain s))).symm
    split at h
    rename_i negative body htake
    rw [htake] at hsign hplain
    split at h
    · rename_i hname
      cases h
      obtain ⟨word, hword, hbody⟩ := namedNumber?_eq_some_iff.mp hname
      exact .named hplain hsign hword hbody
    · dsimp only at h
      split at h
      · cases h
      · rename_i hcomplete
        cases h
        obtain ⟨whole, hbody, hwhole⟩ := whole_of_takeWhole (Prod.eta (takeWhole body)).symm
        obtain ⟨fraction, hafter, hfraction⟩ :=
          fraction_of_takeFraction (Prod.eta (takeFraction (takeWhole body).2)).symm
        obtain ⟨exponent, hlast, hexponent⟩ := exponent_of_takeExponent
          (Prod.eta (takeExponent (takeFraction (takeWhole body).2).2)).symm
        simp only [Bool.or_eq_true, Bool.and_eq_true, List.isEmpty_iff, Bool.not_eq_true',
          List.isEmpty_eq_false_iff, not_or, not_not] at hcomplete
        obtain ⟨hdigits, hleft⟩ := hcomplete
        rw [hleft, List.append_nil] at hlast
        refine .digits ?_ hsign hwhole hfraction hexponent ?_
        · rw [hplain, ← hlast, ← hafter, ← hbody]
        · rw [Ne, List.append_eq_nil_iff]
          exact hdigits
  · intro h
    cases h with
    | named hplain hsign hname hbody =>
      have hnamed := namedNumber?_eq_some_iff.mpr ⟨_, hname, hbody⟩
      obtain ⟨c, rest, rfl, hletter⟩ := head_of_named hnamed
      have hhead : ∀ d ∈ (c :: rest).head?, d ≠ '-' ∧ d ≠ '+' := by
        rintro d ⟨⟩
        constructor <;> rintro rfl <;> exact absurd hletter (by decide)
      rw [hplain, hsign.takeSign_append hhead]
      simp only [hnamed]
    | @digits sign whole fraction exponent negative wholeValues fractionValues e hplain hsign hwhole
        hfraction hexponent hdigits =>
      obtain ⟨c, tail, hcons, hc⟩ := head_of_digits hwhole hfraction hdigits exponent
      have hhead : ∀ d ∈ (c :: tail).head?, d ≠ '-' ∧ d ≠ '+' := by
        rintro d ⟨⟩
        constructor <;> rintro rfl <;> exact absurd hc (by decide)
      have hname : namedNumber? negative (c :: tail) = none := by
        refine Option.eq_none_iff_forall_ne_some.mpr fun x hnamed => ?_
        obtain ⟨d, rest, hsame, hletter⟩ := head_of_named hnamed
        cases hsame
        rcases hc with hdigit | rfl
        · rw [toLower_of_isDigit hdigit] at hletter
          rcases hletter with rfl | rfl <;> cases hdigit
        · exact absurd hletter (by decide)
      obtain ⟨hends, hpoint⟩ := hexponent.endsDigits
      rw [hplain, hcons, hsign.takeSign_append hhead]
      simp only [hname]
      rw [← hcons, hwhole.takeWhole_append (hfraction.endsDigits_append hends)]
      simp only [hfraction.takeFraction_append hends hpoint, hexponent.takeExponent_eq]
      rw [if_neg]
      simpa [← List.append_eq_nil_iff] using hdigits

end TraceProfile.Numeral
