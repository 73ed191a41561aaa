import Mathlib.Data.List.Forall2
import TraceProfile.Fault

/-!
# Computations that may end in a fault

A computation in steps, and one over a list, succeeds exactly if each of its parts does.
-/

namespace TraceProfile

section Bind

variable {α β : Type} {x : Except Fault α} {next : α → Except Fault β}

/-- A computation in two steps succeeds if both of them do. -/
theorem bind_eq_ok_iff {b : β} : x >>= next = .ok b ↔ ∃ a, x = .ok a ∧ next a = .ok b := by
  cases x with
  | error f => simp [bind, Except.bind]
  | ok a => simp [bind, Except.bind]

/-- A computation in two steps fails in the first one or in the second. -/
theorem bind_eq_error_iff {f : Fault} :
    x >>= next = .error f ↔ x = .error f ∨ ∃ a, x = .ok a ∧ next a = .error f := by
  cases x with
  | error f' => simp [bind, Except.bind]
  | ok a => simp [bind, Except.bind]

/-- A mapped result is a success if and only if the result itself is one. -/
theorem map_eq_ok_iff {f : α → β} {b : β} : x.map f = .ok b ↔ ∃ a, x = .ok a ∧ f a = b := by
  cases x with
  | error f => simp [Except.map]
  | ok a => simp [Except.map]

/-- A mapped result has the faults of the result itself. -/
theorem map_eq_error_iff {f : α → β} {fault : Fault} :
    x.map f = .error fault ↔ x = .error fault := by
  cases x with
  | error fault' => simp [Except.map]
  | ok a => simp [Except.map]

end Bind

/-- A computation over a list succeeds if it does so for each entry. -/
theorem mapM_eq_ok_iff {α β : Type} {f : α → Except Fault β} {l : List α} {results : List β} :
    l.mapM f = .ok results ↔ List.Forall₂ (fun a b => f a = .ok b) l results := by
  induction l generalizing results with
  | nil =>
    rw [List.mapM_nil, List.forall₂_nil_left_iff]
    exact ⟨fun h => by cases h; rfl, fun h => by rw [h]; rfl⟩
  | cons a rest ih =>
    rw [List.mapM_cons, List.forall₂_cons_left_iff, bind_eq_ok_iff]
    constructor
    · rintro ⟨b, hfirst, h⟩
      obtain ⟨others, hrest, hresults⟩ := bind_eq_ok_iff.mp h
      cases hresults
      exact ⟨b, others, hfirst, ih.mp hrest, rfl⟩
    · rintro ⟨b, others, hfirst, hrest, rfl⟩
      exact ⟨b, hfirst, bind_eq_ok_iff.mpr ⟨others, ih.mpr hrest, rfl⟩⟩

/-- A computation over a list that succeeds does so for each entry. -/
theorem exists_of_mapM_eq_ok {α β : Type} {f : α → Except Fault β} {l : List α} {results : List β}
    (h : l.mapM f = .ok results) {a : α} (ha : a ∈ l) : ∃ b, f a = .ok b := by
  induction mapM_eq_ok_iff.mp h with
  | nil => cases ha
  | cons hfirst hrest ih =>
    rcases List.mem_cons.mp ha with rfl | ha
    · exact ⟨_, hfirst⟩
    · exact ih (mapM_eq_ok_iff.mpr hrest) ha

/-- A computation over a list fails at the first entry that does. -/
theorem mapM_eq_error_iff {α β : Type} {f : α → Except Fault β} {l : List α} {fault : Fault} :
    l.mapM f = .error fault ↔ ∃ before a after results, l = before ++ a :: after ∧
      List.Forall₂ (fun a b => f a = .ok b) before results ∧ f a = .error fault := by
  induction l with
  | nil =>
    rw [List.mapM_nil]
    constructor
    · intro h
      cases h
    · rintro ⟨before, a, after, -, hsplit, -⟩
      simp at hsplit
  | cons first rest ih =>
    rw [List.mapM_cons, bind_eq_error_iff]
    constructor
    · rintro (hfirst | ⟨b, hfirst, h⟩)
      · exact ⟨[], first, rest, [], rfl, .nil, hfirst⟩
      · obtain hrest | ⟨others, -, hpure⟩ := bind_eq_error_iff.mp h
        · obtain ⟨before, a, after, results, rfl, hbefore, ha⟩ := ih.mp hrest
          exact ⟨first :: before, a, after, b :: results, rfl, .cons hfirst hbefore, ha⟩
        · cases hpure
    · rintro ⟨before, a, after, results, hsplit, hbefore, ha⟩
      cases hbefore with
      | nil =>
        cases hsplit
        exact .inl ha
      | cons hfirst hbefore =>
        cases hsplit
        refine .inr ⟨_, hfirst, bind_eq_error_iff.mpr (.inl (ih.mpr ?_))⟩
        exact ⟨_, a, after, _, rfl, hbefore, ha⟩

/-- What holds of each result of a computation over a list holds of all together. -/
theorem mapM_eq_ok_map {α β γ : Type} {f : α → Except Fault β} {g : α → Except Fault γ}
    {written : β → γ} {l : List α} {results : List β} (h : l.mapM f = .ok results)
    (hwritten : ∀ a b, f a = .ok b → g a = .ok (written b)) :
    l.mapM g = .ok (results.map written) :=
  mapM_eq_ok_iff.mpr (List.forall₂_map_right_iff.mpr ((mapM_eq_ok_iff.mp h).imp hwritten))

end TraceProfile
