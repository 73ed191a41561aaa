import TraceProfile.Json.Text

/-!
# Pairs of units in JSON texts

A text may give a character by the codes of two UTF-16 units, which are the halves of a pair. Half
of a pair that stands alone is no character, and the reader puts a replacement in its place. Where
every half has its other half beside it, and in every text without a replacement in it, nothing is
lost: the text has exactly the units with which it is written.
-/

namespace TraceProfile.Json

/-- A unit is half of a pair. -/
def isHalf (unit : Nat) : Bool := 0xd800 ≤ unit && unit ≤ 0xdfff

/-- The units that a document gives by their codes; nothing stands for any other character. -/
def codesOf : List Char → List (Option Nat)
  | [] => []
  | '\\' :: 'u' :: a :: b :: c :: d :: rest => unitOf? [a, b, c, d] :: codesOf rest
  | '\\' :: _ :: rest => none :: codesOf rest
  | _ :: rest => none :: codesOf rest

/-- Every half of a pair has its other half beside it. -/
def arePaired : List (Option Nat) → Bool
  | [] => true
  | some high :: some low :: rest =>
    match pairOf? high low with
    | some _ => arePaired rest
    | none => !isHalf high && arePaired (some low :: rest)
  | some unit :: rest => !isHalf unit && arePaired rest
  | none :: rest => arePaired rest

/-- No half of a pair stands alone in a document. -/
def isPaired (document : String) : Bool := arePaired (codesOf document.toList)

/-- The units of a character. -/
def unitsOfChar (c : Char) : List Nat :=
  if c.toNat < 0x10000 then [c.toNat]
  else [0xd800 + (c.toNat - 0x10000) / 0x400, 0xdc00 + (c.toNat - 0x10000) % 0x400]

namespace Piece

/-- The unit of a piece that gives it by its code. -/
def code? : Piece → Option Nat
  | .char _ => none
  | .unit code => some code

/-- The units of a piece. -/
def units : Piece → List Nat
  | .char c => unitsOfChar c
  | .unit code => [code]

end Piece

/-- A unit given by four digits is one. -/
theorem unitOf?_lt {a b c d : Char} {code : Nat} (h : unitOf? [a, b, c, d] = some code) :
    code < 0x10000 := by
  have hdigit {c : Char} {v : Nat} (h : Numeral.digitValue? 16 c = some v) : v < 16 := by
    obtain ⟨-, hlt⟩ := Option.filter_eq_some_iff.mp h
    simpa using hlt
  obtain ⟨values, hvalues, rfl⟩ := Option.map_eq_some_iff.mp h
  simp only [List.mapM_cons, List.mapM_nil, Option.pure_def, Option.bind_eq_bind,
    Option.bind_eq_some_iff] at hvalues
  obtain ⟨va, ha, _, ⟨vb, hb, _, ⟨vc, hc, _, ⟨vd, hd, _, ⟨⟩, ⟨⟩⟩, ⟨⟩⟩, ⟨⟩⟩, ⟨⟩⟩ := hvalues
  have := hdigit ha
  have := hdigit hb
  have := hdigit hc
  have := hdigit hd
  simp only [Numeral.ofDigits, List.foldl_cons, List.foldl_nil]
  omega

/-- A character is found again by its number. -/
theorem toNat_ofNat {n : Nat} (h : n.isValidChar) : (Char.ofNat n).toNat = n := by
  rw [Char.ofNat, dif_pos h]
  rfl

/-- The units of a pair are those of its character. -/
theorem unitsOfChar_of_pairOf? {high low : Nat} {c : Char} (h : pairOf? high low = some c) :
    unitsOfChar c = [high, low] := by
  unfold pairOf? at h
  split at h
  · have hvalid : (0x10000 + (high - 0xd800) * 0x400 + (low - 0xdc00)).isValidChar := by
      unfold Nat.isValidChar
      omega
    rw [← Option.some.inj h, unitsOfChar, toNat_ofNat hvalid, if_neg (by omega)]
    simp only [List.cons.injEq, and_true]
    omega
  · cases h

/-- A unit that is no half of a pair is the only one of its character. -/
theorem unitsOfChar_charOfUnit {unit : Nat} (hunit : unit < 0x10000)
    (h : isHalf unit = false) : unitsOfChar (charOfUnit unit) = [unit] := by
  have hhalf : ¬ (0xd800 ≤ unit ∧ unit ≤ 0xdfff) := by
    simpa [isHalf] using h
  have hvalid : unit.isValidChar := by
    unfold Nat.isValidChar
    omega
  rw [charOfUnit, if_neg hhalf, unitsOfChar, toNat_ofNat hvalid, if_pos hunit]

/-- Pieces are joined without loss if every half of a pair has its other half beside it. -/
theorem units_joinPieces {pieces : List Piece}
    (hunits : ∀ code, .unit code ∈ pieces → code < 0x10000)
    (h : arePaired (pieces.map Piece.code?) = true) :
    (joinPieces pieces).flatMap unitsOfChar = pieces.flatMap Piece.units := by
  fun_induction joinPieces pieces with
  | case1 => rfl
  | case2 high low rest joined hpair ih =>
    have hrest : arePaired (rest.map Piece.code?) = true := by
      simpa [Piece.code?, arePaired, hpair] using h
    rw [List.flatMap_cons, ih (by simp_all) hrest, unitsOfChar_of_pairOf? hpair]
    rfl
  | case3 high low rest hpair ih =>
    have hrest : isHalf high = false ∧
        arePaired ((Piece.unit low :: rest).map Piece.code?) = true := by
      simpa [Piece.code?, arePaired, hpair] using h
    rw [List.flatMap_cons, ih (by simp_all) hrest.2,
      unitsOfChar_charOfUnit (hunits high List.mem_cons_self) hrest.1]
    rfl
  | case4 code rest hnext ih =>
    have hrest : isHalf code = false ∧ arePaired (rest.map Piece.code?) = true := by
      cases rest with
      | nil => simpa [Piece.code?, arePaired] using h
      | cons piece rest =>
        cases piece with
        | char c => simpa [Piece.code?, arePaired] using h
        | unit low => exact (hnext low rest rfl).elim
    rw [List.flatMap_cons, ih (by simp_all) hrest.2,
      unitsOfChar_charOfUnit (hunits code List.mem_cons_self) hrest.1]
    rfl
  | case5 c rest ih =>
    rw [List.flatMap_cons, ih (by simp_all) h]
    rfl

/-- A unit whose character is not the replacement is no half of a pair. -/
theorem isHalf_of_charOfUnit_ne {unit : Nat} (h : charOfUnit unit ≠ '\ufffd') :
    isHalf unit = false := by
  unfold charOfUnit at h
  split at h
  · exact absurd rfl h
  · rename_i hhalf
    simpa [isHalf] using hhalf

/-- If no replacement is among the characters of a text, every half of a pair in it has its other
half beside it. -/
theorem arePaired_of_joinPieces {pieces : List Piece} (h : '\ufffd' ∉ joinPieces pieces) :
    arePaired (pieces.map Piece.code?) = true := by
  fun_induction joinPieces pieces with
  | case1 => rfl
  | case2 high low rest joined hpair ih =>
    have hrest := ih (List.not_mem_of_not_mem_cons h)
    simpa [Piece.code?, arePaired, hpair] using hrest
  | case3 high low rest hpair ih =>
    have hhalf := isHalf_of_charOfUnit_ne (List.ne_of_not_mem_cons h).symm
    have hrest := ih (List.not_mem_of_not_mem_cons h)
    simpa [Piece.code?, arePaired, hpair, hhalf] using hrest
  | case4 code rest hnext ih =>
    have hhalf := isHalf_of_charOfUnit_ne (List.ne_of_not_mem_cons h).symm
    have hrest := ih (List.not_mem_of_not_mem_cons h)
    cases rest with
    | nil => simp [Piece.code?, arePaired, hhalf]
    | cons piece rest =>
      cases piece with
      | char c => simpa [Piece.code?, arePaired, hhalf] using hrest
      | unit low => exact (hnext low rest rfl).elim
  | case5 c rest ih => exact ih (List.not_mem_of_not_mem_cons h)

/-- A character that is not given by a code parts the pairs before it from those after it. -/
theorem arePaired_append (before after : List (Option Nat)) :
    arePaired (before ++ none :: after) = (arePaired before && arePaired after) := by
  fun_induction arePaired before with
  | case1 => rfl
  | case2 high low rest c hpair ih => simpa [arePaired, hpair] using ih
  | case3 high low rest hpair ih => simp_all [arePaired, Bool.and_assoc]
  | case4 unit rest hnext ih =>
    cases rest with
    | nil => simp_all [arePaired]
    | cons code rest =>
      cases code with
      | none => simp_all [arePaired, Bool.and_assoc]
      | some low => exact (hnext low rest rfl).elim
  | case5 rest ih => simpa [arePaired] using ih

/-- A character that starts no escape gives no unit. -/
theorem codesOf_cons {c : Char} (h : c ≠ '\\') (rest : List Char) :
    codesOf (c :: rest) = none :: codesOf rest := by
  rw [codesOf]
  · exact fun _ _ _ _ _ hc => absurd hc h
  · exact fun _ _ hc => absurd hc h

/-- A document gives the units of the text in front of it, and then those of what follows. -/
theorem codesOf_of_readPieces {cs rest : List Char} {pieces : List Piece}
    (h : readPieces cs = .ok (pieces, rest)) :
    codesOf cs = pieces.map Piece.code? ++ none :: codesOf rest ∧
      ∀ code, .unit code ∈ pieces → code < 0x10000 := by
  have hread {r : Except Flaw (List Piece × List Char)} {piece : Piece} {all : List Piece}
      (h : r.map (fun found => (piece :: found.1, found.2)) = .ok (all, rest)) :
      ∃ pieces, r = .ok (pieces, rest) ∧ all = piece :: pieces := by
    cases r with
    | error flaw => cases h
    | ok found =>
      cases h
      exact ⟨_, rfl, rfl⟩
  fun_induction readPieces cs generalizing pieces with
  | case1 => cases h
  | case2 a b c d left code hcode ih =>
    obtain ⟨pieces, hleft, rfl⟩ := hread h
    obtain ⟨hcodes, hunits⟩ := ih hleft
    refine ⟨by rw [codesOf, hcode, hcodes]; rfl, fun unit hunit => ?_⟩
    rcases List.mem_cons.mp hunit with hfirst | hlater
    · cases hfirst
      exact unitOf?_lt hcode
    · exact hunits unit hlater
  | case3 => cases h
  | case4 c left hplain escaped _ ih =>
    obtain ⟨pieces, hleft, rfl⟩ := hread h
    obtain ⟨hcodes, hunits⟩ := ih hleft
    have hescape : codesOf ('\\' :: c :: left) = none :: codesOf left := by
      rw [codesOf]
      exact hplain
    exact ⟨by rw [hescape, hcodes]; rfl, by simpa using hunits⟩
  | case5 => cases h
  | case6 left =>
    cases h
    exact ⟨codesOf_cons (by decide) rest, by simp⟩
  | case7 => cases h
  | case8 c left _ _ _ hchar ih =>
    obtain ⟨pieces, hleft, rfl⟩ := hread h
    obtain ⟨hcodes, hunits⟩ := ih hleft
    exact ⟨by rw [codesOf_cons (not_or.mp hchar).1, hcodes]; rfl, by simpa using hunits⟩

/-- A text is read without loss if in the document every half of a pair has its other half beside
it, and also if the character that would stand for half of a pair is not in the text. -/
theorem units_of_readText {cs rest : List Char} {s : String} (h : readText cs = .ok (s, rest))
    (hkept : arePaired (codesOf cs) = true ∨ '\ufffd' ∉ s.toList) :
    ∃ pieces, readPieces cs = .ok (pieces, rest) ∧
      s.toList.flatMap unitsOfChar = pieces.flatMap Piece.units := by
  unfold readText at h
  cases hread : readPieces cs with
  | error flaw =>
    rw [hread] at h
    cases h
  | ok found =>
    rw [hread] at h
    cases h
    obtain ⟨hcodes, hunits⟩ := codesOf_of_readPieces hread
    rw [String.toList_ofList] at hkept ⊢
    refine ⟨_, rfl, units_joinPieces hunits ?_⟩
    rcases hkept with hpaired | habsent
    · rw [hcodes, arePaired_append, Bool.and_eq_true] at hpaired
      exact hpaired.1
    · exact arePaired_of_joinPieces habsent

end TraceProfile.Json
