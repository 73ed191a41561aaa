import TraceProfile.Marker.Duration
import TraceProfile.Proofs.Marker.Statistics
import TraceProfile.Proofs.Number.Reading

/-!
# Reading a reported duration

A report of a duration is a row of amounts with blanks between them, each of them a decimal integer
before its unit. Whoever reads the amounts and adds them up gets the duration again, rounded down to
the microsecond. So two durations have the same report if and only if they are the same to the
microsecond, also where one is negative or an amount in the middle is left out.
-/

namespace TraceProfile.Duration

/-- An amount as it is read from a word: the integer, and the nanoseconds of the unit behind it. -/
def amountOf? (word : List Char) : Option (Int × Nat) := do
  let (number, unit) := parts word
  let scale ← unitOf? (String.ofList unit)
  let count ← (Numeral.readInteger (String.ofList number)).toOption
  pure (count, scale)

/-- The amounts of a report, which stand between its blanks. -/
def amounts? (report : String) : Option (List (Int × Nat)) :=
  (report.toList.splitOn ' ').mapM amountOf?

/-- Amounts added up, in nanoseconds; a unit that is left out counts for nothing. -/
def total (amounts : List (Int × Nat)) : Int :=
  (amounts.map fun amount => amount.1 * (amount.2 : Int)).sum

/-- The integers in a report with their units, and what a unit is in nanoseconds. -/
def reported (ns : Int) : List (Int × String × Nat) :=
  [(seconds ns, "s", 1000000000), (milliseconds ns, "ms", 1000000)].filter (·.1 ≠ 0) ++
    [(microseconds ns, "us", 1000)]

/-- An integer before its unit. -/
def word (count : Int) (unit : String) : List Char := (toString count).toList ++ unit.toList

variable {ns : Int}

/-- A report is made of its amounts and of blanks between them. -/
theorem toList_format (ns : Int) :
    (format ns).toList =
      [' '].intercalate ((reported ns).map fun (count, unit, _) => word count unit) := by
  have hself (s : String) : toString s = s := rfl
  by_cases hseconds : seconds ns = 0 <;> by_cases hmilliseconds : milliseconds ns = 0 <;>
    simp [format, reported, word, List.intercalate, hseconds, hmilliseconds, hself]

/-- A duration is reported in seconds, milliseconds or microseconds only. -/
theorem mem_reported {entry : Int × String × Nat} (h : entry ∈ reported ns) :
    entry = (seconds ns, "s", 1000000000) ∨ entry = (milliseconds ns, "ms", 1000000) ∨
      entry = (microseconds ns, "us", 1000) := by
  rcases List.mem_append.mp h with hlarge | hsmall
  · have hpair := (List.mem_filter.mp hlarge).1
    rcases List.mem_pair.mp hpair with rfl | rfl
    · exact .inl rfl
    · exact .inr (.inl rfl)
  · exact .inr (.inr (List.mem_singleton.mp hsmall))

/-- The amounts of a report add up to the duration, rounded down to the microsecond. -/
theorem total_reported (ns : Int) :
    total ((reported ns).map fun (count, _, scale) => (count, scale)) = 1000 * (ns / 1000) := by
  have hsum := parts_sum ns
  by_cases hseconds : seconds ns = 0 <;> by_cases hmilliseconds : milliseconds ns = 0 <;>
    simp [total, reported, hseconds, hmilliseconds] <;> omega

/-- The number of a word goes up to the last character that may end one. -/
theorem parts_append {front unit : List Char} {last : Char} (hlast : endsNumber last = true)
    (hunit : ∀ c ∈ unit, endsNumber c = false) :
    parts (front ++ [last] ++ unit) = (front ++ [last], unit) := by
  have hskip : ∀ c ∈ unit.reverse, (!endsNumber c) = true := by
    intro c hc
    rw [hunit c (List.mem_reverse.mp hc)]
    rfl
  have hreverse : (front ++ [last] ++ unit).reverse = unit.reverse ++ last :: front.reverse := by
    simp
  have hnumber : (unit.reverse ++ last :: front.reverse).dropWhile (!endsNumber ·) =
      last :: front.reverse := by
    rw [List.dropWhile_append_of_pos hskip]
    simp [hlast]
  have hrest : (unit.reverse ++ last :: front.reverse).takeWhile (!endsNumber ·) =
      unit.reverse := by
    rw [List.takeWhile_append_of_pos hskip]
    simp [hlast]
  rw [parts, hreverse, hnumber, hrest]
  simp

/-- A digit may end a number. -/
theorem endsNumber_of_isDigit {c : Char} (h : c.isDigit = true) : endsNumber c = true := by
  obtain ⟨hlow, hhigh⟩ := Char.isDigit_iff_toNat.mp h
  change 0x30 ≤ c.toNat at hlow
  change c.toNat ≤ 0x39 at hhigh
  have hrun : 0x30 ≤ c.toNat ∧ c.toNat ≤ 0x30 + 9 := by omega
  have hdecimal : Text.isDecimal c = true := by
    rw [Text.isDecimal, Text.decimalValue?, Option.isSome_map, List.find?_isSome]
    exact ⟨0x30, List.mem_cons_self, by simpa using hrun⟩
  rw [endsNumber, Text.isDigitSign, hdecimal, Bool.true_or, Bool.true_or]

/-- A written integer ends in a digit. -/
theorem exists_toString_eq (n : Int) :
    ∃ front last, (toString n).toList = front ++ [last] ∧ last.isDigit = true := by
  have hne : Nat.toDigits 10 n.natAbs ≠ [] := Nat.toDigits_ne_nil
  refine ⟨(if n < 0 then ['-'] else []) ++ (Nat.toDigits 10 n.natAbs).dropLast,
    (Nat.toDigits 10 n.natAbs).getLast hne, ?_, ?_⟩
  · rw [Numeral.toList_toString, List.append_assoc, List.dropLast_append_getLast]
  · exact Nat.isDigit_of_mem_toDigits (by decide) (by decide) (List.getLast_mem hne)

/-- An integer before its unit is read as this amount. -/
theorem amountOf?_word {count : Int} {unit : String} {scale : Nat}
    (hcount : Numeral.hasText count) (hscale : unitOf? unit = some scale)
    (hunit : ∀ c ∈ unit.toList, endsNumber c = false) :
    amountOf? (word count unit) = some (count, scale) := by
  obtain ⟨front, last, hwritten, hdigit⟩ := exists_toString_eq count
  have hparts : parts (word count unit) = ((toString count).toList, unit.toList) := by
    rw [word, hwritten]
    exact parts_append (endsNumber_of_isDigit hdigit) hunit
  have hread : Numeral.readInteger (String.ofList (toString count).toList) = .ok count := by
    rw [String.ofList_toList]
    exact Numeral.readInteger_toString hcount
  rw [amountOf?, hparts]
  dsimp only
  rw [String.ofList_toList, hscale, hread]
  rfl

/-- The integer of an amount in a report has a text, and its unit is read as such. -/
theorem readable_of_mem_reported (h : Numeral.hasText ns) {count : Int} {unit : String}
    {scale : Nat} (hmem : (count, unit, scale) ∈ reported ns) :
    amountOf? (word count unit) = some (count, scale) ∧ ' ' ∉ word count unit := by
  obtain ⟨hseconds, hmilliseconds, hmicroseconds⟩ := Statistics.hasText_parts h
  obtain ⟨hcount, hscale, hunit, hblank⟩ : Numeral.hasText count ∧ unitOf? unit = some scale ∧
      unit.toList.all (fun c => !endsNumber c) = true ∧ ' ' ∉ unit.toList := by
    rcases mem_reported hmem with heq | heq | heq
    · cases heq
      exact ⟨hseconds, rfl, rfl, by decide⟩
    · cases heq
      exact ⟨hmilliseconds, rfl, rfl, by decide⟩
    · cases heq
      exact ⟨hmicroseconds, rfl, rfl, by decide⟩
  have hletters : ∀ c ∈ unit.toList, endsNumber c = false := fun c hc => by
    simpa using List.all_eq_true.mp hunit c hc
  refine ⟨amountOf?_word hcount hscale hletters, fun hword => ?_⟩
  rcases List.mem_append.mp hword with hdigit | hname
  · exact absurd (Numeral.isWritten_of_mem hdigit).toNat_bounds.1 (by decide)
  · exact hblank hname

/-- A report is read as the amounts that it shows. -/
theorem amounts?_format (h : Numeral.hasText ns) :
    amounts? (format ns) = some ((reported ns).map fun (count, _, scale) => (count, scale)) := by
  have hne : (reported ns).map (fun (count, unit, _) => word count unit) ≠ [] := by
    simp [reported]
  have hblank : ∀ w ∈ (reported ns).map (fun (count, unit, _) => word count unit), ' ' ∉ w := by
    intro w hw
    obtain ⟨⟨count, unit, scale⟩, hmem, rfl⟩ := List.mem_map.mp hw
    exact (readable_of_mem_reported h hmem).2
  have hread : ∀ entries ⊆ reported ns,
      (entries.map fun (count, unit, _) => word count unit).mapM amountOf? =
        some (entries.map fun (count, _, scale) => (count, scale)) := by
    intro entries hentries
    induction entries with
    | nil => rfl
    | cons first rest ih =>
      obtain ⟨hfirst, hrest⟩ := List.cons_subset.mp hentries
      rw [List.map_cons, List.mapM_cons, (readable_of_mem_reported h hfirst).1, ih hrest]
      rfl
  rw [amounts?, toList_format, List.splitOn_intercalate ' ' hblank hne]
  exact hread _ (List.Subset.refl _)

/-- Durations that are the same to the microsecond have the same report. -/
theorem format_congr {a b : Int} (h : a / 1000 = b / 1000) : format a = format b := by
  have hseconds : seconds a = seconds b := by
    unfold seconds
    omega
  have hmilliseconds : milliseconds a = milliseconds b := by
    unfold milliseconds
    omega
  have hmicroseconds : microseconds a = microseconds b := by
    unfold microseconds
    omega
  rw [format, format, hseconds, hmilliseconds, hmicroseconds]

/-- A report can be read: it has at most one amount of each of its three units, the greater units
first, and only the seconds may be negative or more than 999. The amounts add up to the duration,
rounded down to the microsecond. So it is exactly what lies below a microsecond that a report
loses. -/
theorem format_reads_back (ns : Int) (h : Numeral.hasText ns) :
    (∃ amounts, amounts? (format ns) = some amounts ∧
      amounts.Pairwise (fun a b => b.2 < a.2) ∧
      (∀ amount ∈ amounts, amount.2 ∈ [1000000000, 1000000, 1000] ∧
        (amount.2 ≠ 1000000000 → 0 ≤ amount.1 ∧ amount.1 ≤ 999)) ∧
      total amounts = 1000 * (ns / 1000)) ∧
    ∀ other, Numeral.hasText other → (format ns = format other ↔ ns / 1000 = other / 1000) := by
  refine ⟨⟨_, amounts?_format h, ?_, ?_, total_reported ns⟩, fun other hother => ⟨?_, format_congr⟩⟩
  · have hall : (reported ns).Sublist [(seconds ns, "s", 1000000000),
        (milliseconds ns, "ms", 1000000), (microseconds ns, "us", 1000)] :=
      List.filter_sublist.append (List.Sublist.refl _)
    rw [List.pairwise_map]
    exact List.Pairwise.sublist hall (by simp)
  · intro amount hamount
    obtain ⟨entry, hentry, rfl⟩ := List.mem_map.mp hamount
    rcases mem_reported hentry with rfl | rfl | rfl
    · exact ⟨by simp, fun hsmall => absurd rfl hsmall⟩
    · have hrange : 0 ≤ milliseconds ns ∧ milliseconds ns ≤ 999 := by
        unfold milliseconds
        omega
      exact ⟨by simp, fun _ => hrange⟩
    · have hrange : 0 ≤ microseconds ns ∧ microseconds ns ≤ 999 := by
        unfold microseconds
        omega
      exact ⟨by simp, fun _ => hrange⟩
  · intro hsame
    have hamounts := amounts?_format h
    rw [hsame, amounts?_format hother, Option.some.injEq] at hamounts
    have htotal := congrArg total hamounts
    rw [total_reported, total_reported] at htotal
    omega

/-- A negative duration has seconds below zero, and the rest is counted up from them. -/
theorem format_reads_back_of_negative :
    Numeral.hasText (-1999500001) ∧ format (-1999500001) = "-2s 499us" ∧
      (∃ amounts, amounts? (format (-1999500001)) = some amounts ∧ total amounts = -1999501000) ∧
      Numeral.hasText (-1999500500) ∧ format (-1999500001) = format (-1999500500) := by
  have htext : Numeral.hasText (-1999500001) := by decide +kernel
  have htext' : Numeral.hasText (-1999500500) := by decide +kernel
  obtain ⟨⟨amounts, hamounts, -, -, htotal⟩, hsame⟩ := format_reads_back (-1999500001) htext
  exact ⟨htext, by decide +kernel, ⟨amounts, hamounts, htotal⟩, htext',
    (hsame _ htext').mpr (by decide)⟩

end TraceProfile.Duration
