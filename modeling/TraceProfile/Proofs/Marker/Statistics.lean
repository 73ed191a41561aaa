import Mathlib.Algebra.BigOperators.Group.List.Basic
import Mathlib.Algebra.Ring.Int.Defs
import Mathlib.Data.List.Nodup
import TraceProfile.Marker.Statistics
import TraceProfile.Proofs.Text.Cutting

/-!
# Sums by label

Statistics are made by crediting timings to labels, first those of markers and then, per type,
those of labels. Both are tallies of a list of labelled timings: one entry per label, with the sum
of what the list holds under it. A sum does not depend on the order of the list, and a ranking does
not depend on the order of the entries, so a report tells nothing about the order of the markers.
-/

namespace TraceProfile

namespace Statistics

variable {f : Timings → Int} {p : String → Bool} {s s' : Statistics}
  {entries entries' : List (String × Timings)}

/-- A time that can be summed up part by part. -/
structure Adds (f : Timings → Int) : Prop where
  /-- No time adds nothing. -/
  zero : f .zero = 0
  /-- The times of two spans add up. -/
  add : ∀ a b, f (a + b) = f a + f b

/-- The busy time is a quantity that adds up. -/
theorem adds_busy : Adds Timings.busy := ⟨rfl, Timings.busy_add⟩

/-- The idle time is a quantity that adds up. -/
theorem adds_idle : Adds Timings.idle := ⟨rfl, Timings.idle_add⟩

/-- The sum of a time over the entries with certain labels. -/
def sumWhere (f : Timings → Int) (p : String → Bool) (entries : List (String × Timings)) : Int :=
  ((entries.filter fun entry => p entry.1).map fun entry => f entry.2).sum

/-- The busy and the idle time of all entries under a label. -/
def sumUnder (label : String) (entries : List (String × Timings)) : Timings :=
  ⟨sumWhere Timings.busy (· = label) entries, sumWhere Timings.idle (· = label) entries⟩

/-- The sum over no entries is zero. -/
@[simp] theorem sumWhere_nil : sumWhere f p [] = 0 := rfl

/-- The first entry counts if its label does. -/
theorem sumWhere_cons (f : Timings → Int) (p : String → Bool) (entry : String × Timings)
    (rest : List (String × Timings)) :
    sumWhere f p (entry :: rest) = (if p entry.1 then f entry.2 else 0) + sumWhere f p rest := by
  by_cases hp : p entry.1 <;> simp [sumWhere, hp]

/-- A sum does not depend on the order of the entries. -/
theorem sumWhere_perm (h : entries.Perm entries') : sumWhere f p entries = sumWhere f p entries' :=
  ((h.filter _).map _).sum_eq

/-- Nor does the sum of the timings under a label. -/
theorem sumUnder_perm (h : entries.Perm entries') (label : String) :
    sumUnder label entries = sumUnder label entries' := by
  rw [sumUnder, sumWhere_perm h, sumWhere_perm h, sumUnder]

/-- An entry that is the only one with its label holds the sum under this label. -/
theorem sumUnder_eq_of_mem {label : String} {timings : Timings}
    (hkeys : (entries.map (·.1)).Nodup) (hmem : (label, timings) ∈ entries) :
    sumUnder label entries = timings := by
  have hothers : ∀ rest : List (String × Timings), label ∉ rest.map (·.1) →
      rest.filter (fun entry => decide (entry.1 = label)) = [] := fun rest hrest =>
    List.filter_eq_nil_iff.mpr fun entry hentry hsame =>
      hrest (of_decide_eq_true hsame ▸ List.mem_map_of_mem hentry)
  have honly : entries.filter (fun entry => decide (entry.1 = label)) = [(label, timings)] := by
    obtain ⟨before, after, rfl⟩ := List.append_of_mem hmem
    rw [List.map_append, List.map_cons, List.nodup_middle, List.nodup_cons, ← List.map_append]
      at hkeys
    have hnone := hothers (before ++ after) hkeys.1
    rw [List.filter_append, List.append_eq_nil_iff] at hnone
    rw [List.filter_append, List.filter_cons_of_pos (by simp), hnone.1, hnone.2, List.nil_append]
  simp [sumUnder, sumWhere, honly]

/-- The sum of a table grows by what is credited to one of its labels. -/
theorem sumWhere_credit (hf : Adds f) (p : String → Bool) (s : Statistics) (label : String)
    (timings : Timings) :
    sumWhere f p (s.credit label timings).sums =
      sumWhere f p s.sums + if p label then f timings else 0 := by
  rw [credit]
  generalize s.sums = table
  induction table with
  | nil =>
    rw [Assoc.insert, sumWhere_cons, List.lookup_nil, Option.getD_none, hf.add, hf.zero]
    simp
  | cons entry rest ih =>
    by_cases hsame : label = entry.1
    · rw [Assoc.insert, if_pos (beq_iff_eq.mpr hsame), sumWhere_cons, sumWhere_cons,
        List.lookup_cons, beq_iff_eq.mpr hsame, Option.getD_some, hf.add, hsame]
      split <;> omega
    · have hfirst : (label == entry.1) = false := beq_false_of_ne hsame
      rw [Assoc.insert, hfirst, List.lookup_cons, hfirst]
      simp only [Bool.false_eq_true, if_false]
      rw [sumWhere_cons, ih, sumWhere_cons]
      omega

/-- Labelled timings are credited one after the other. -/
def creditAll (s : Statistics) (entries : List (String × Timings)) : Statistics :=
  entries.foldl (fun s (label, timings) => s.credit label timings) s

/-- The first entry is credited before the others. -/
theorem creditAll_cons (s : Statistics) (entry : String × Timings)
    (rest : List (String × Timings)) :
    s.creditAll (entry :: rest) = (s.credit entry.1 entry.2).creditAll rest := rfl

/-- Whatever is credited is in the sum, and nothing else is. -/
theorem sumWhere_creditAll (hf : Adds f) (p : String → Bool) (s : Statistics)
    (entries : List (String × Timings)) :
    sumWhere f p (s.creditAll entries).sums = sumWhere f p s.sums + sumWhere f p entries := by
  induction entries generalizing s with
  | nil => simp [creditAll]
  | cons entry rest ih =>
    rw [creditAll_cons, ih, sumWhere_credit hf, sumWhere_cons, Int.add_assoc]

/-- The labels are those from before and those of the credited entries. -/
theorem mem_labels_creditAll {label : String} :
    label ∈ (s.creditAll entries).sums.map (·.1) ↔
      label ∈ s.sums.map (·.1) ∨ label ∈ entries.map (·.1) := by
  induction entries generalizing s with
  | nil => simp [creditAll]
  | cons entry rest ih =>
    rw [creditAll_cons, ih, credit, Assoc.mem_keys_insert, List.map_cons, List.mem_cons]
    tauto

/-- No label comes twice, whatever is credited. -/
theorem nodup_labels_creditAll (h : (s.sums.map (·.1)).Nodup) (entries : List (String × Timings)) :
    ((s.creditAll entries).sums.map (·.1)).Nodup := by
  induction entries generalizing s with
  | nil => exact h
  | cons entry rest ih => exact ih (Assoc.nodup_keys_insert _ _ h)

/-- Statistics tally labelled timings: every label among these has one entry, and it holds the sum
of the timings under it. -/
structure Tallies (s : Statistics) (entries : List (String × Timings)) : Prop where
  /-- No label has two entries. -/
  nodup : (s.sums.map (·.1)).Nodup
  /-- The entries. -/
  mem_iff : ∀ label timings, (label, timings) ∈ s.sums ↔
    label ∈ entries.map (·.1) ∧ timings = sumUnder label entries
  /-- Nothing is lost of the busy times. -/
  busy : (s.sums.map (·.2.busy)).sum = (entries.map (·.2.busy)).sum
  /-- Nothing is lost of the idle times. -/
  idle : (s.sums.map (·.2.idle)).sum = (entries.map (·.2.idle)).sum

/-- If every label counts, the sum is over all entries. -/
theorem sumWhere_true (f : Timings → Int) (entries : List (String × Timings)) :
    sumWhere f (fun _ => true) entries = (entries.map fun entry => f entry.2).sum := by
  rw [sumWhere, List.filter_true]

/-- Crediting labelled timings to nothing tallies them. -/
theorem tallies_creditAll (entries : List (String × Timings)) :
    (empty.creditAll entries).Tallies entries := by
  have hnodup := nodup_labels_creditAll (s := empty) List.nodup_nil entries
  have hlabels : ∀ label, label ∈ (empty.creditAll entries).sums.map (·.1) ↔
      label ∈ entries.map (·.1) := by
    intro label
    rw [mem_labels_creditAll]
    simp [empty]
  have hsum : ∀ label, sumUnder label (empty.creditAll entries).sums = sumUnder label entries := by
    intro label
    rw [sumUnder, sumWhere_creditAll adds_busy, sumWhere_creditAll adds_idle, sumUnder]
    simp [empty]
  have htotal : ∀ {f : Timings → Int}, Adds f →
      ((empty.creditAll entries).sums.map fun entry => f entry.2).sum =
        (entries.map fun entry => f entry.2).sum := by
    intro f hf
    rw [← sumWhere_true, sumWhere_creditAll hf, ← sumWhere_true]
    simp [empty]
  refine ⟨hnodup, fun label timings => ⟨fun hmem => ⟨?_, ?_⟩, ?_⟩, htotal adds_busy,
    htotal adds_idle⟩
  · exact (hlabels label).mp (List.mem_map_of_mem (f := (·.1)) hmem)
  · rw [← hsum, sumUnder_eq_of_mem hnodup hmem]
  · rintro ⟨hlabel, rfl⟩
    obtain ⟨⟨_, timings⟩, hmem, rfl⟩ := List.mem_map.mp ((hlabels label).mpr hlabel)
    rw [← hsum, sumUnder_eq_of_mem hnodup hmem]
    exact hmem

/-- A tally has the same entries whatever the order of the timings. -/
theorem Tallies.perm (h : s.Tallies entries) (h' : s'.Tallies entries')
    (hentries : entries.Perm entries') : s.sums.Perm s'.sums := by
  refine (List.perm_ext_iff_of_nodup h.nodup.of_map h'.nodup.of_map).mpr fun ⟨label, timings⟩ => ?_
  rw [h.mem_iff, h'.mem_iff, sumUnder_perm hentries, (hentries.map _).mem_iff]

/-- Spans of whole lifetimes with a label contribute their timings under it. -/
theorem contribution?_eq_some_iff {m : Marker} {label : String} {timings : Timings} :
    contribution? m = some (label, timings) ↔
      ∃ span, m.span = some span ∧ span.kind = .total ∧ span.statsLabel = some label ∧
        span.timings = timings := by
  unfold contribution?
  cases hspan : m.span with
  | none => simp
  | some span =>
    cases hkind : span.kind <;> simp [hkind, Option.bind_eq_some_iff]

/-- The statistics of markers tally what the markers contribute. -/
theorem tallies_ofMarkers (markers : List Marker) :
    (ofMarkers markers).Tallies (markers.filterMap contribution?) := by
  have hcount : ∀ (s : Statistics) (m : Marker),
      s.count m = s.creditAll (contribution? m).toList := by
    intro s m
    rw [count]
    cases contribution? m <;> rfl
  have hall : ∀ s : Statistics,
      markers.foldl count s = s.creditAll (markers.filterMap contribution?) := by
    induction markers with
    | nil => exact fun _ => rfl
    | cons m rest ih =>
      intro s
      rw [List.foldl_cons, ih, hcount, List.filterMap_cons]
      cases contribution? m <;> rfl
  rw [ofMarkers, hall]
  exact tallies_creditAll _

/-- The entries of statistics, under types in the place of labels. -/
def typed (s : Statistics) : List (String × Timings) :=
  s.sums.map fun entry => (typeOf entry.1, entry.2)

/-- The statistics of types tally the entries of their labels. -/
theorem tallies_perType (s : Statistics) : s.perType.Tallies s.typed := by
  have hfold : s.perType = empty.creditAll s.typed := by
    rw [perType, creditAll, typed, List.foldl_map]
  rw [hfold]
  exact tallies_creditAll _

/-- A type has no dash, and in the label it is followed by one or by nothing. -/
theorem typeOf_spec (label : String) :
    '-' ∉ (typeOf label).toList ∧
      (label = typeOf label ∨ ∃ rest, label = typeOf label ++ "-" ++ rest) := by
  obtain ⟨hdash, hlabel⟩ := Text.takeWhile_ne_spec '-' label.toList
  have htype : (typeOf label).toList = label.toList.takeWhile (· ≠ '-') := by
    rw [typeOf, Text.before, String.toList_ofList]
  rw [← htype] at hdash hlabel
  refine ⟨hdash, ?_⟩
  rcases hlabel with hlabel | ⟨rest, hlabel⟩
  · exact .inl (String.toList_inj.mp hlabel)
  · exact .inr ⟨String.ofList rest, String.toList_inj.mp (by simp [hlabel])⟩

section Ranking

variable {value : Timings → Int}

private theorem ranksBefore_iff {a b : String × Int} :
    ranksBefore a b = true ↔ b.2 < a.2 ∨ a.2 = b.2 ∧ a.1 ≤ b.1 := by
  simp [ranksBefore]

private theorem ranksBefore_trans (a b c : String × Int) (hab : ranksBefore a b = true)
    (hbc : ranksBefore b c = true) : ranksBefore a c = true := by
  rw [ranksBefore_iff] at hab hbc ⊢
  rcases hab with hab | ⟨hab, habel⟩
  · exact .inl (by omega)
  · rcases hbc with hbc | ⟨hbc, hbcel⟩
    · exact .inl (by omega)
    · exact .inr ⟨by omega, String.le_trans habel hbcel⟩

private theorem ranksBefore_total (a b : String × Int) :
    (ranksBefore a b || ranksBefore b a) = true := by
  rw [Bool.or_eq_true, ranksBefore_iff, ranksBefore_iff]
  rcases Int.lt_trichotomy a.2 b.2 with hlt | heq | hgt
  · exact .inr (.inl hlt)
  · exact (String.le_total a.1 b.1).imp (fun h => .inr ⟨heq, h⟩) fun h => .inr ⟨heq.symm, h⟩
  · exact .inl (.inl hgt)

private theorem ranksBefore_antisymm {a b : String × Int} (hab : ranksBefore a b = true)
    (hba : ranksBefore b a = true) : a = b := by
  rw [ranksBefore_iff] at hab hba
  have hvalue : a.2 = b.2 := by omega
  refine Prod.ext (String.le_antisymm ?_ ?_) hvalue
  · exact (hab.resolve_left (by omega)).2
  · exact (hba.resolve_left (by omega)).2

/-- A ranking lists every entry once. -/
theorem ranked_perm (s : Statistics) (value : Timings → Int) :
    (s.ranked value).Perm (s.sums.map fun entry => (entry.1, value entry.2)) :=
  List.mergeSort_perm _ _

private theorem pairwise_ranksBefore (s : Statistics) (value : Timings → Int) :
    (s.ranked value).Pairwise fun a b => ranksBefore a b = true :=
  List.pairwise_mergeSort ranksBefore_trans ranksBefore_total _

/-- Values descend in a ranking, and labels ascend under the same value. -/
theorem pairwise_ranked (h : (s.sums.map (·.1)).Nodup) (value : Timings → Int) :
    (s.ranked value).Pairwise fun a b => b.2 < a.2 ∨ a.2 = b.2 ∧ a.1 < b.1 := by
  have hlabels : ((s.ranked value).map (·.1)).Nodup := by
    refine ((s.ranked_perm value).map (·.1)).nodup_iff.mpr ?_
    rwa [List.map_map]
  have hpairs := (pairwise_ranksBefore s value).and (List.pairwise_map.mp hlabels)
  refine hpairs.imp fun {a b} hab => ?_
  rcases ranksBefore_iff.mp hab.1 with hless | ⟨hsame, hle⟩
  · exact .inl hless
  · exact .inr ⟨hsame, Std.lt_of_le_of_ne hle hab.2⟩

/-- A ranking does not depend on the order of the entries. -/
theorem ranked_congr (h : s.sums.Perm s'.sums) (value : Timings → Int) :
    s.ranked value = s'.ranked value := by
  refine List.Perm.eq_of_pairwise (fun a b _ _ => ranksBefore_antisymm)
    (pairwise_ranksBefore s value) (pairwise_ranksBefore s' value) ?_
  exact (s.ranked_perm value).trans ((h.map _).trans (s'.ranked_perm value).symm)

/-- A report shows all rankings and nothing else. It has a table for the types and one for the
labels, a table has a ranking for each of the three values, and a ranking has one line for each of
its entries, in their order. -/
theorem reportLines_eq (s : Statistics) :
    s.reportLines = [("Per Type", s.perType), ("Per Collection", s)].flatMap fun (title, table) =>
      s!"{title}:" :: [("Total", Timings.total), ("Busy", Timings.busy),
        ("Idle", Timings.idle)].flatMap fun (name, value) =>
          s!"\t{name}:" :: (table.ranked value).map fun (label, amount) =>
            s!"\t\t{Text.padRight 40 label}\t{Duration.format amount}" := by
  simp [reportLines, tableLines, rankingLines]

/-- A report does not depend on the order of the entries. -/
theorem reportLines_congr (h : s.sums.Perm s'.sums) : s.reportLines = s'.reportLines := by
  have htypes : s.perType.sums.Perm s'.perType.sums :=
    (tallies_perType s).perm (tallies_perType s') (h.map _)
  simp only [reportLines_eq, List.flatMap_cons, List.flatMap_nil, ranked_congr h,
    ranked_congr htypes]

end Ranking

/-- The parts of a duration in which it is written are not greater than the duration, or below a
thousand. -/
theorem hasText_parts {ns : Int} (h : Numeral.hasText ns) :
    Numeral.hasText (Duration.seconds ns) ∧ Numeral.hasText (Duration.milliseconds ns) ∧
      Numeral.hasText (Duration.microseconds ns) := by
  have hdigits : 3 ≤ Numeral.digitLimit := by decide
  simp only [Numeral.hasText, decide_eq_true_eq] at h ⊢
  generalize Numeral.digitLimit = digits at h hdigits ⊢
  have hthousand : 1000 ≤ Nat.pow 10 digits := Nat.pow_le_pow_right (by decide : 0 < 10) hdigits
  unfold Duration.seconds Duration.milliseconds Duration.microseconds
  refine ⟨?_, ?_, ?_⟩ <;> omega

/-- The statistics of markers are a sum that loses nothing and does not depend on the order of the
markers. A marker counts if it is a span of a whole lifetime with a label. Every label has one
entry with the sum of its spans, and every type, which is what a label says before its first dash,
has one with the sum of its labels; all three have the same busy and idle time altogether. A
ranking lists every entry once, by falling value and then by label. Markers in another order lead
to the same entries and to the same report, in which a number has a text if the amounts have. -/
theorem ofMarkers_sums_up (markers : List Marker) :
    let counted := markers.filterMap contribution?
    let s := ofMarkers markers
    (∀ m label timings, contribution? m = some (label, timings) ↔
      ∃ span, m.span = some span ∧ span.kind = .total ∧ span.statsLabel = some label ∧
        span.timings = timings) ∧
    s.Tallies counted ∧
    (∀ label, '-' ∉ (typeOf label).toList ∧
      (label = typeOf label ∨ ∃ rest, label = typeOf label ++ "-" ++ rest)) ∧
    s.perType.Tallies s.typed ∧
    (∀ table ∈ [s, s.perType],
      (table.sums.map (·.2.busy)).sum = (counted.map (·.2.busy)).sum ∧
      (table.sums.map (·.2.idle)).sum = (counted.map (·.2.idle)).sum ∧
      ∀ value : Timings → Int,
        (table.ranked value).Perm (table.sums.map fun entry => (entry.1, value entry.2)) ∧
        (table.ranked value).Pairwise fun a b => b.2 < a.2 ∨ a.2 = b.2 ∧ a.1 < b.1) ∧
    (∀ markers', markers.Perm markers' →
      s.sums.Perm (ofMarkers markers').sums ∧
      s.perType.sums.Perm (ofMarkers markers').perType.sums ∧
      s.reportLines = (ofMarkers markers').reportLines) ∧
    ∀ amount, Numeral.hasText amount → Numeral.hasText (Duration.seconds amount) ∧
      Numeral.hasText (Duration.milliseconds amount) ∧
      Numeral.hasText (Duration.microseconds amount) := by
  intro counted s
  have hs : s.Tallies counted := tallies_ofMarkers markers
  have htypes : s.perType.Tallies s.typed := tallies_perType s
  refine ⟨fun m label timings => contribution?_eq_some_iff, hs, typeOf_spec, htypes, ?_, ?_,
    fun amount => hasText_parts⟩
  · intro table htable
    rcases List.mem_pair.mp htable with rfl | rfl
    · exact ⟨hs.busy, hs.idle, fun value => ⟨s.ranked_perm value, pairwise_ranked hs.nodup value⟩⟩
    · refine ⟨htypes.busy.trans ?_, htypes.idle.trans ?_,
        fun value => ⟨s.perType.ranked_perm value, pairwise_ranked htypes.nodup value⟩⟩
      · rw [← hs.busy, typed, List.map_map]
        rfl
      · rw [← hs.idle, typed, List.map_map]
        rfl
  · intro markers' hperm
    have hsame : s.sums.Perm (ofMarkers markers').sums :=
      hs.perm (tallies_ofMarkers markers') (hperm.filterMap _)
    exact ⟨hsame, htypes.perm (tallies_perType _) (hsame.map _), reportLines_congr hsame⟩

/-- Two spans under one label, one whose label has no dash, one with the same total as these two,
one of a stretch of activity and an event, in two orders. -/
theorem ofMarkers_sums_up_of_jobs :
    let marker (kind : SpanKind) (label : String) (busy idle : Int) : Marker :=
      ⟨0, "x", "", [], some ⟨kind, 10, ⟨busy, idle⟩, "cpu", none, some label⟩⟩
    let event : Marker := ⟨3, "x", "", [], none⟩
    let markers := [marker .total "work::x-42-7" 3000 1000, marker .total "idle" (-5) 0, event,
      marker .running "work::x-42-7" 100 0, marker .total "work::x-1" 1000 4000,
      marker .total "work::x-42-7" 2000 (-1000)]
    markers.Perm markers.reverse ∧
      (ofMarkers markers).sums.Perm (ofMarkers markers.reverse).sums ∧
      (ofMarkers markers).reportLines = (ofMarkers markers.reverse).reportLines ∧
      (ofMarkers markers).sums ≠ (ofMarkers markers.reverse).sums ∧
      (ofMarkers markers).perType.sums = [("work::x", ⟨6000, 4000⟩), ("idle", ⟨-5, 0⟩)] := by
  intro marker event markers
  have hperm : markers.Perm markers.reverse := (List.reverse_perm _).symm
  obtain ⟨-, -, -, -, -, horder, -⟩ := ofMarkers_sums_up markers
  obtain ⟨hsums, -, hreport⟩ := horder markers.reverse hperm
  exact ⟨hperm, hsums, hreport, by decide +kernel, by decide +kernel⟩

end Statistics

end TraceProfile
