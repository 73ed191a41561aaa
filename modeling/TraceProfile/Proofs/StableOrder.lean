import Mathlib.Data.List.Basic

/-!
# Stable order

Operations, samples and markers are put in the order of an integer key, and entries with equal
keys keep their order. Such a list is settled by two things: its keys ascend, and every key has
the entries that it had before, in their order. All later facts about order come from this.
-/

namespace TraceProfile

variable {α : Type} {key : α → Int}

/-- The entries in the order of a key; entries with equal keys keep their order. -/
def stableOrder (key : α → Int) (l : List α) : List α :=
  l.mergeSort fun a b => key a ≤ key b

/-- The keys of a list ascend, equal keys included. -/
def Ascending (key : α → Int) (l : List α) : Prop := l.Pairwise fun a b => key a ≤ key b

/-- Nothing is in order already. -/
@[simp] theorem stableOrder_nil (key : α → Int) : stableOrder key [] = [] :=
  List.mergeSort_nil

/-- An ascending list stays so with an entry at its end that is not below its last one. -/
theorem Ascending.concat {l : List α} {a : α} (h : Ascending key l)
    (hlast : ∀ b, l.getLast? = some b → key b ≤ key a) : Ascending key (l ++ [a]) := by
  refine List.pairwise_append.mpr ⟨h, List.pairwise_singleton _ _, fun c hc b hb => ?_⟩
  rw [List.mem_singleton.mp hb]
  rcases List.eq_nil_or_concat l with rfl | ⟨l, b, rfl⟩
  · cases hc
  · rw [List.concat_eq_append] at hc h hlast
    have hba := hlast b (by simp)
    rcases List.mem_append.mp hc with hc | hc
    · exact Int.le_trans ((List.pairwise_append.mp h).2.2 c hc b (by simp)) hba
    · rwa [List.mem_singleton.mp hc]

/-- Ordering entries loses none and adds none. -/
theorem perm_stableOrder (key : α → Int) (l : List α) : (stableOrder key l).Perm l :=
  List.mergeSort_perm l _

private theorem key_le_trans (key : α → Int) (a b c : α) (hab : decide (key a ≤ key b) = true)
    (hbc : decide (key b ≤ key c) = true) : decide (key a ≤ key c) = true := by
  simp only [decide_eq_true_eq] at hab hbc ⊢
  omega

private theorem key_le_total (key : α → Int) (a b : α) :
    (decide (key a ≤ key b) || decide (key b ≤ key a)) = true := by
  simp only [Bool.or_eq_true, decide_eq_true_eq]
  omega

/-- The keys of an ordered list ascend. -/
theorem ascending_stableOrder (key : α → Int) (l : List α) :
    Ascending key (stableOrder key l) := by
  have hsorted := List.pairwise_mergeSort (key_le_trans key) (key_le_total key) l
  simpa only [Ascending, stableOrder, decide_eq_true_eq] using hsorted

/-- The entries of one key are the same before and after, in the same order. -/
theorem filter_key_stableOrder (key : α → Int) (l : List α) (k : Int) :
    (stableOrder key l).filter (key · = k) = l.filter (key · = k) := by
  have hequal : (l.filter (key · = k)).Pairwise fun a b => decide (key a ≤ key b) := by
    refine List.pairwise_of_forall_mem_list fun a ha b hb => ?_
    have hka : key a = k := by simpa using (List.mem_filter.mp ha).2
    have hkb : key b = k := by simpa using (List.mem_filter.mp hb).2
    simp [hka, hkb]
  have hsub : (l.filter (key · = k)).Sublist (stableOrder key l) :=
    List.sublist_mergeSort (key_le_trans key) (key_le_total key) hequal List.filter_sublist
  have hsub' := hsub.filter (key · = k)
  rw [List.filter_filter] at hsub'
  simp only [Bool.and_self] at hsub'
  exact (hsub'.eq_of_length ((perm_stableOrder key l).filter _).length_eq.symm).symm

/-- Two ascending lists with the same entries under every key, in the same order, are equal. -/
theorem Ascending.eq_of_filter_eq {l₁ l₂ : List α} (h₁ : Ascending key l₁)
    (h₂ : Ascending key l₂)
    (hsame : ∀ k, l₁.filter (key · = k) = l₂.filter (key · = k)) : l₁ = l₂ := by
  induction l₁ generalizing l₂ with
  | nil =>
    cases l₂ with
    | nil => rfl
    | cons b l₂ => simpa using hsame (key b)
  | cons a l₁ ih =>
    cases l₂ with
    | nil => simpa using hsame (key a)
    | cons b l₂ =>
      obtain ⟨ha, htail₁⟩ := List.pairwise_cons.mp h₁
      obtain ⟨hb, htail₂⟩ := List.pairwise_cons.mp h₂
      -- Each head has an equal of its key in the other list, so neither key is below the other.
      have hab : a ∈ (b :: l₂).filter (key · = key a) := by rw [← hsame]; simp
      have hba : b ∈ (a :: l₁).filter (key · = key b) := by rw [hsame]; simp
      have hkey : key a = key b := by
        rcases List.mem_cons.mp (List.mem_filter.mp hab).1 with rfl | hab
        · rfl
        rcases List.mem_cons.mp (List.mem_filter.mp hba).1 with rfl | hba
        · rfl
        have := ha b hba
        have := hb a hab
        omega
      have hhead : a = b := by
        have hfilter := hsame (key a)
        rw [List.filter_cons_of_pos (by simp), List.filter_cons_of_pos (by simp [hkey])]
          at hfilter
        exact (List.cons.inj hfilter).1
      subst hhead
      congr 1
      refine ih htail₁ htail₂ fun k => ?_
      have hfilter := hsame k
      by_cases hk : key a = k <;> simpa [List.filter_cons, hk] using hfilter

/-- An ascending list that has the entries of every key in their old order is the ordered list. -/
theorem Ascending.eq_stableOrder {l l' : List α} (h : Ascending key l')
    (hsame : ∀ k, l'.filter (key · = k) = l.filter (key · = k)) : l' = stableOrder key l :=
  h.eq_of_filter_eq (ascending_stableOrder key l) fun k => by
    rw [hsame k, filter_key_stableOrder]

/-- The first of the least entries comes first, and the others are ordered behind it. -/
theorem stableOrder_append_cons {before after : List α} {a : α}
    (hbefore : ∀ b ∈ before, key a < key b) (hafter : ∀ b ∈ after, key a ≤ key b) :
    stableOrder key (before ++ a :: after) = a :: stableOrder key (before ++ after) := by
  symm
  apply Ascending.eq_stableOrder
  · refine List.pairwise_cons.mpr ⟨fun b hb => ?_, ascending_stableOrder _ _⟩
    rcases List.mem_append.mp ((perm_stableOrder _ _).mem_iff.mp hb) with hb | hb
    · exact Int.le_of_lt (hbefore b hb)
    · exact hafter b hb
  · intro k
    by_cases hk : key a = k
    · have hnone : before.filter (key · = k) = [] := by
        refine List.filter_eq_nil_iff.mpr fun b hb => ?_
        have := hbefore b hb
        simp only [decide_eq_true_eq]
        omega
      simp [hk, hnone, filter_key_stableOrder]
    · simp [hk, filter_key_stableOrder]

/-- It makes no difference whether entries are left out before or after ordering. -/
theorem filter_stableOrder (key : α → Int) (p : α → Bool) (l : List α) :
    (stableOrder key l).filter p = stableOrder key (l.filter p) := by
  apply Ascending.eq_stableOrder
  · exact (ascending_stableOrder key l).filter _
  · intro k
    rw [List.filter_comm, filter_key_stableOrder, List.filter_comm]

/-- Entries with equal keys keep the relation in which they stood. -/
theorem pairwise_stableOrder {R : α → α → Prop} {l : List α} (h : l.Pairwise R) :
    (stableOrder key l).Pairwise fun a b => key a < key b ∨ key a = key b ∧ R a b := by
  have hequal (k : Int) :
      (stableOrder key l).Pairwise fun a b => key a = k → key b = k → R a b := by
    have hfilter := h.filter (key · = k)
    rw [← filter_key_stableOrder] at hfilter
    simpa using List.pairwise_filter.mp hfilter
  rw [List.pairwise_iff_getElem]
  intro i j hi hj hij
  have hle := List.pairwise_iff_getElem.mp (ascending_stableOrder key l) i j hi hj hij
  have hrel := List.pairwise_iff_getElem.mp (hequal (key (stableOrder key l)[i])) i j hi hj hij
  by_cases hsame : key (stableOrder key l)[i] = key (stableOrder key l)[j]
  · exact .inr ⟨hsame, hrel rfl hsame.symm⟩
  · exact .inl (by omega)

/-- An ascending list is in order already. -/
theorem Ascending.stableOrder_eq {l : List α} (h : Ascending key l) : stableOrder key l = l :=
  (h.eq_stableOrder fun _ => rfl).symm

/-- It makes no difference whether entries are mapped before or after ordering. -/
theorem map_stableOrder {β : Type} (f : β → α) (l : List β) :
    (stableOrder (fun b => key (f b)) l).map f = stableOrder key (l.map f) := by
  apply Ascending.eq_stableOrder
  · exact List.pairwise_map.mpr (ascending_stableOrder _ l)
  · intro k
    rw [List.filter_map, List.filter_map]
    exact congrArg (List.map f) (filter_key_stableOrder (fun b => key (f b)) l k)

/-- The entries of an ascending list up to a bound are a prefix of it. -/
theorem Ascending.takeWhile_eq_filter {l : List α} (h : Ascending key l) (bound : Int) :
    l.takeWhile (key · ≤ bound) = l.filter (key · ≤ bound) := by
  induction l with
  | nil => rfl
  | cons a l ih =>
    obtain ⟨ha, hl⟩ := List.pairwise_cons.mp h
    by_cases hle : key a ≤ bound
    · rw [List.takeWhile_cons_of_pos (by simpa using hle),
        List.filter_cons_of_pos (by simpa using hle), ih hl]
    · have hlater : l.filter (key · ≤ bound) = [] := by
        refine List.filter_eq_nil_iff.mpr fun b hb => ?_
        have := ha b hb
        simp only [decide_eq_true_eq]
        omega
      rw [List.takeWhile_cons_of_neg (by simpa using hle),
        List.filter_cons_of_neg (by simpa using hle), hlater]

end TraceProfile
