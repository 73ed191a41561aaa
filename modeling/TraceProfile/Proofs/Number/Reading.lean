import TraceProfile.Proofs.Number.Exact
import TraceProfile.Proofs.Text.Cutting

/-!
# Reading written integers

The text of an integer has a minus if need be and then its digits. It is read back as the integer
that it was written for, and as the decimal with this value if it is not beyond the exact ones.
-/

namespace TraceProfile.Numeral

/-- A character of a written integer. -/
def IsWritten (c : Char) : Prop := c.isDigit = true ∨ c = '-'

variable {c : Char} {digits : List Char}

/-- The text of an integer: a minus if need be, and the digits of its magnitude. -/
theorem toList_toString (n : Int) :
    (toString n).toList = (if n < 0 then ['-'] else []) ++ Nat.toDigits 10 n.natAbs := by
  cases n with
  | ofNat n => simp [toString, Int.repr]
  | negSucc n => simp [toString, Int.repr]

/-- In the text of an integer are digits and minus signs only. -/
theorem isWritten_of_mem {n : Int} (h : c ∈ (toString n).toList) : IsWritten c := by
  rw [toList_toString, List.mem_append] at h
  rcases h with h | h
  · right
    split at h
    · exact List.mem_singleton.mp h
    · cases h
  · exact .inl (Nat.isDigit_of_mem_toDigits (by decide) (by decide) h)

/-- The codes of these characters lie between those of the minus and of the nine. -/
theorem IsWritten.toNat_bounds (h : IsWritten c) : 0x2d ≤ c.toNat ∧ c.toNat ≤ 0x39 := by
  rcases h with h | rfl
  · obtain ⟨hlow, hhigh⟩ := Char.isDigit_iff_toNat.mp h
    change 0x30 ≤ c.toNat at hlow
    exact ⟨by omega, hhigh⟩
  · decide

/-- No character of a written integer is a blank. -/
theorem IsWritten.isBlank_eq_false (h : IsWritten c) : Text.isBlank c = false := by
  have hbounds := h.toNat_bounds
  simp only [Text.isBlank, Text.inRanges, Text.blankRanges, List.any_cons, List.any_nil,
    Bool.or_eq_false_iff, Bool.and_eq_false_iff, decide_eq_false_iff_not, and_true]
  omega

/-- No character of a written integer is a comma. -/
theorem comma_notMem_toString (n : Int) : ',' ∉ (toString n).toList := fun h =>
  absurd (isWritten_of_mem h).toNat_bounds.1 (by decide)

/-- A written integer has no blanks and no characters of other scripts. -/
theorem plain_toString (n : Int) : plain (toString n) = (toString n).toList := by
  have hmap : (toString n).toList.map plainChar = (toString n).toList := by
    refine (List.map_congr_left fun c hc => ?_).trans (List.map_id _)
    have hbounds := (isWritten_of_mem hc).toNat_bounds
    rw [plainChar, if_pos (by omega)]
    rfl
  rw [plain, hmap, Text.trim_eq_self fun c hc => ?_]
  have hvisible := (isWritten_of_mem hc).isBlank_eq_false
  exact Bool.eq_false_iff.mpr fun hblank =>
    Bool.false_ne_true (hvisible.symm.trans (Text.isBlank_of_isAsciiBlank hblank))

/-- The sign is told from the digits. -/
theorem takeSign_toString (n : Int) :
    takeSign (toString n).toList = (decide (n < 0), Nat.toDigits 10 n.natAbs) := by
  rw [toList_toString]
  by_cases hneg : n < 0
  · rw [if_pos hneg, decide_eq_true hneg]
    rfl
  · rw [if_neg hneg, decide_eq_false hneg, List.nil_append]
    have hdigit : ∀ c ∈ Nat.toDigits 10 n.natAbs, c.isDigit = true := fun c =>
      Nat.isDigit_of_mem_toDigits (by decide) (by decide)
    unfold takeSign
    split
    · rename_i heq
      exact absurd (hdigit '-' (heq ▸ List.mem_cons_self)) (by decide)
    · rename_i heq
      exact absurd (hdigit '+' (heq ▸ List.mem_cons_self)) (by decide)
    · rfl

/-- The value of an ASCII digit is its distance from the zero. -/
theorem digitValue?_of_isDigit (h : c.isDigit = true) :
    digitValue? 10 c = some (c.toNat - 0x30) := by
  obtain ⟨hlow, hhigh⟩ := Char.isDigit_iff_toNat.mp h
  have hrange : '0' ≤ c ∧ c ≤ '9' := ⟨hlow, hhigh⟩
  change c.toNat ≤ 0x39 at hhigh
  rw [digitValue?, if_pos hrange, Option.filter_some, if_pos (by simp; omega)]

/-- Digits without anything between them are taken as they are. -/
theorem takeDigits?_of_isDigit (hne : digits ≠ []) (h : ∀ c ∈ digits, c.isDigit = true) :
    takeDigits? 10 digits = some (digits.map fun c => c.toNat - 0x30, []) := by
  induction digits with
  | nil => exact absurd rfl hne
  | cons c rest ih =>
    obtain ⟨hc, hrest⟩ := List.forall_mem_cons.mp h
    rw [takeDigits?.eq_def]
    dsimp only
    rw [digitValue?_of_isDigit hc]
    cases rest with
    | nil => rfl
    | cons next rest =>
      have hnext : next.isDigit = true := hrest next List.mem_cons_self
      have hscore : next ≠ '_' := by
        rintro rfl
        cases hnext
      have htake := ih (List.cons_ne_nil next rest) hrest
      dsimp only
      split
      · rename_i heq
        cases heq
        exact absurd rfl hscore
      · rename_i heq
        cases heq
        rw [digitValue?_of_isDigit hnext, if_pos Option.isSome_some, htake]
        rfl
      · rename_i heq
        cases heq

/-- The values of digits make up the number that the digits are written for. -/
theorem ofDigits_map (digits : List Char) :
    ofDigits 10 (digits.map fun c => c.toNat - 0x30) = Nat.ofDigitChars 10 digits 0 := by
  rw [ofDigits, List.foldl_map, Nat.ofDigitChars_eq_foldl]
  simp only [Nat.mul_comm]
  rfl

/-- The digits of a written number, taken and put together again. -/
theorem takeDigits?_toDigits (n : Nat) :
    ∃ values, takeDigits? 10 (Nat.toDigits 10 n) = some (values, []) ∧
      values.length = (Nat.toDigits 10 n).length ∧ ofDigits 10 values = n :=
  ⟨_, takeDigits?_of_isDigit Nat.toDigits_ne_nil fun _ =>
      Nat.isDigit_of_mem_toDigits (by decide) (by decide),
    List.length_map _, (ofDigits_map _).trans Nat.ofDigitChars_ten_toDigits⟩

/-- An integer is its magnitude with its sign. -/
theorem signed_natAbs (n : Int) : Binary64.signed (n < 0) n.natAbs = n := by
  unfold Binary64.signed
  by_cases hn : n < 0
  · rw [if_pos (decide_eq_true hn)]
    omega
  · rw [if_neg (by simpa using hn)]
    omega

/-- An integer that can be written has no more digits than the limit. -/
theorem length_toDigits_le {n : Int} (h : hasText n) :
    (Nat.toDigits 10 n.natAbs).length ≤ digitLimit := by
  have hpos : 0 < digitLimit := by decide
  simp only [hasText, decide_eq_true_eq, Nat.pow_eq] at h
  generalize digitLimit = limit at h hpos ⊢
  exact (Nat.length_toDigits_le_iff (by decide) hpos).mpr h

/-- A written integer is read back, unless it has too many digits. -/
theorem readInteger_toString {n : Int} (h : hasText n) : readInteger (toString n) = .ok n := by
  obtain ⟨values, htake, hlength, hvalue⟩ := takeDigits?_toDigits n.natAbs
  have hdigits : ¬digitLimit < values.length :=
    Nat.not_lt.mpr (hlength ▸ length_toDigits_le h)
  rw [readInteger, plain_toString, takeSign_toString]
  dsimp only
  rw [htake]
  dsimp only
  rw [if_neg hdigits, if_pos List.isEmpty_nil, hvalue, signed_natAbs]

/-- A digit is no letter. -/
theorem toLower_of_isDigit (h : c.isDigit = true) : c.toLower = c := by
  have hupper : ¬('A'.val ≤ c.val ∧ c.val ≤ 'Z'.val) := fun hletter =>
    absurd (Nat.le_trans (UInt32.le_iff_toNat_le.mp hletter.1) (Char.isDigit_iff_toNat.mp h).2)
      (by decide)
  exact dif_neg hupper

/-- Digits are no word. -/
theorem namedNumber?_of_isDigit (h : ∀ c ∈ digits, c.isDigit = true)
    (negative : Bool) : namedNumber? negative digits = none := by
  have hlower : digits.map Char.toLower = digits :=
    (List.map_congr_left fun c hc => toLower_of_isDigit (h c hc)).trans (List.map_id _)
  have hword (first : Char) (rest : List Char) (hfirst : first.isDigit = false) :
      String.ofList digits ≠ String.ofList (first :: rest) := by
    intro heq
    have hsame : digits = first :: rest := String.ofList_injective heq
    have hdigit := h first (hsame ▸ List.mem_cons_self)
    rw [hfirst] at hdigit
    cases hdigit
  rw [namedNumber?, hlower]
  split
  · exact absurd ‹_› (hword 'i' ['n', 'f'] rfl)
  · exact absurd ‹_› (hword 'i' ['n', 'f', 'i', 'n', 'i', 't', 'y'] rfl)
  · exact absurd ‹_› (hword 'n' ['a', 'n'] rfl)
  · rfl

/-- A written integer is read as the decimal that is this integer. -/
theorem readDecimal_toString {n : Int} (h : n.natAbs ≤ Binary64.integerBound) :
    readDecimal (toString n) = .ok (Binary64.ofQuotient (n < 0) n.natAbs 1) := by
  obtain ⟨values, htake, hlength, hvalue⟩ := takeDigits?_toDigits n.natAbs
  have hnamed : namedNumber? (decide (n < 0)) (Nat.toDigits 10 n.natAbs) = none :=
    namedNumber?_of_isDigit (fun _ => Nat.isDigit_of_mem_toDigits (by decide) (by decide)) _
  have hwhole : takeWhole (Nat.toDigits 10 n.natAbs) = (values, []) := by
    rw [takeWhole, htake]
    rfl
  have hsome : values.isEmpty = false := by
    rw [List.isEmpty_eq_false_iff, ← List.length_pos_iff, hlength]
    exact Nat.length_toDigits_pos
  rw [readDecimal, plain_toString, takeSign_toString]
  dsimp only
  rw [hnamed]
  dsimp only
  rw [hwhole]
  simp only [takeFraction, takeExponent, hsome, List.append_nil, hvalue, List.length_nil,
    Bool.false_and, List.isEmpty_nil, Bool.not_true, Bool.or_self, Int.ofNat_zero, Int.sub_zero]
  rw [if_neg Bool.false_ne_true, Binary64.ofDecimal_eq h]

end TraceProfile.Numeral
