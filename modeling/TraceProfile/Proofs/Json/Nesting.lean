import Mathlib.Data.Nat.Find
import TraceProfile.Proofs.Json.Reading

/-!
# How deep a document goes

A reader has room for so many lists and objects inside each other. What it returns goes no deeper
than that, and the limit does nothing else: every document has a number of levels from which on it
is read alike by all readers, and with less room the reading ends at a list or an object.
-/

namespace TraceProfile.Json

/-- No more than so many lists and objects stand inside each other. -/
inductive Within : Nat → Json → Prop
  /-- Nothing stands in the value. -/
  | plain {room : Nat} {value : Json} (hplain : value.IsPlain) : Within room value
  /-- The items have one level less than the list. -/
  | list {room : Nat} {items : List Json} (hitems : ∀ item ∈ items, Within room item) :
      Within (room + 1) (list items)
  /-- The values have one level less than the object. -/
  | object {room : Nat} {fields : Fields} (hvalues : ∀ field ∈ fields, Within room field.2) :
      Within (room + 1) (object fields)

/-- The reading does not end where a list or an object stands inside too many others. -/
def Settled {α : Type} (result : Except Flaw α) : Prop :=
  ∀ container, result ≠ .error (.tooDeep container)

/-- More room makes no difference to a reading that is settled. -/
def Stays {α : Type} (reader : Nat → Except Flaw α) : Prop :=
  ∀ room, Settled (reader room) → reader (room + 1) = reader room

variable {α : Type} {cs : List Char} {room : Nat}

/-- A document is read as a value within the limit. -/
theorem within_of_read {nesting : Nat} {document : String} {value : Json}
    (h : read nesting document = .ok value) : value.Within nesting :=
  Closed.of_read ⟨.plain, .list, fun _ => .object⟩ h

section Stays

/-- More room makes no difference to a value if it makes none to what stands in it. -/
theorem stays_readValue_of
    (hitems : ∀ cs', cs'.length < cs.length → Stays fun room => readItems room cs')
    (hfields : ∀ cs', cs'.length < cs.length → Stays fun room => readFields room cs') :
    Stays fun room => readValue room cs := by
  intro room
  dsimp only
  unfold readValue
  split
  · exact fun _ => rfl
  · rename_i inside
    have hshorter := length_skipBlank_le inside
    cases room with
    | zero => exact fun hsettled => absurd rfl (hsettled "array")
    | succ room =>
      have hsame := hitems (skipBlank inside) (Nat.lt_succ_of_le hshorter) room
      dsimp only at hsame ⊢
      split
      · exact fun _ => rfl
      · intro hsettled
        rw [hsame fun container hdeep => hsettled container (by rw [hdeep])]
  · rename_i inside
    have hshorter := length_skipBlank_le inside
    cases room with
    | zero => exact fun hsettled => absurd rfl (hsettled "object")
    | succ room =>
      have hsame := hfields (skipBlank inside) (Nat.lt_succ_of_le hshorter) room
      dsimp only at hsame ⊢
      split
      · exact fun _ => rfl
      · intro hsettled
        rw [hsame fun container hdeep => hsettled container (by rw [hdeep])]
  · exact fun _ => rfl

/-- More room makes no difference to items if it makes none to the first one and the others. -/
theorem stays_readItems_of (hvalue : Stays fun room => readValue room cs)
    (hitems : ∀ cs', cs'.length < cs.length → Stays fun room => readItems room cs') :
    Stays fun room => readItems room cs := by
  intro room hsettled
  have hfirst := hvalue room
  dsimp only at hfirst hsettled ⊢
  unfold readItems at hsettled ⊢
  rw [hfirst fun container hdeep => hsettled container (by rw [hdeep])]
  revert hsettled
  split
  · exact fun _ => rfl
  · rename_i item left hitem
    split
    · exact fun _ => rfl
    · rename_i more hmore
      have hshorter := length_afterComma_lt hmore
      have hsame := hitems (skipBlank more) (by omega) room
      dsimp only at hsame
      intro hsettled
      rw [hsame fun container hdeep => hsettled container (by rw [hdeep])]
    · exact fun _ => rfl

/-- More room makes no difference to fields if it makes none to the first value and the others. -/
theorem stays_readFields_of
    (hvalue : ∀ cs', cs'.length < cs.length → Stays fun room => readValue room cs')
    (hfields : ∀ cs', cs'.length < cs.length → Stays fun room => readFields room cs') :
    Stays fun room => readFields room cs := by
  intro room
  dsimp only
  unfold readFields
  split
  · rename_i afterQuote
    split
    · exact fun _ => rfl
    · rename_i name afterName hname
      split
      · rename_i afterColon hcolon
        have hfirst := hvalue _ (length_afterColon_lt hname hcolon) room
        intro hsettled
        dsimp only at hfirst
        rw [hfirst fun container hdeep => hsettled container (by rw [hdeep])]
        revert hsettled
        split
        · exact fun _ => rfl
        · rename_i value left hread
          split
          · exact fun _ => rfl
          · rename_i more hmore
            have hcolon' := length_afterColon_lt hname hcolon
            have hshorter := length_afterComma_lt hmore
            have hsame := hfields (skipBlank more) (by omega) room
            dsimp only at hsame
            intro hsettled
            rw [hsame fun container hdeep => hsettled container (by rw [hdeep])]
          · exact fun _ => rfl
      · exact fun _ => rfl
  · exact fun _ => rfl

/-- More room makes no difference to a settled reading. -/
theorem stays_readers (cs : List Char) :
    (Stays fun room => readValue room cs) ∧ (Stays fun room => readItems room cs) ∧
      Stays fun room => readFields room cs :=
  readers_induction (fun _ => stays_readValue_of) (fun _ => stays_readItems_of)
    (fun _ => stays_readFields_of) cs

end Stays

section Settled

variable {β : Type}

/-- A success is settled. -/
theorem settled_ok (a : α) : Settled (.ok a) := by
  intro container hdeep
  cases hdeep

/-- A text outside the grammar is settled. -/
theorem settled_malformed : Settled (.error .malformed : Except Flaw α) := by
  intro container hdeep
  cases hdeep

/-- An integer with too many digits is settled. -/
theorem settled_tooLong (digits : Nat) : Settled (.error (.tooLong digits) : Except Flaw α) := by
  intro container hdeep
  cases hdeep

/-- A flaw of a settled reading is passed on as a settled one. -/
theorem Settled.of_error {result : Except Flaw β} {flaw : Flaw} (h : Settled result)
    (hresult : result = .error flaw) : Settled (.error flaw : Except Flaw α) := by
  intro container hdeep
  cases hdeep
  exact h container hresult

/-- A settled reading stays so with another result. -/
theorem Settled.map {result : Except Flaw β} (h : Settled result) (f : β → α) :
    Settled (result.map f) := by
  cases result with
  | ok b => exact settled_ok (f b)
  | error flaw => exact h.of_error rfl

/-- A text has no lists and objects in it. -/
theorem settled_readText (cs : List Char) : Settled (readText cs) := by
  refine Settled.map ?_ _
  fun_induction readPieces cs with
  | case1 => exact settled_malformed
  | case2 a b c d rest code hcode ih => exact ih.map _
  | case3 => exact settled_malformed
  | case4 c rest hplain escaped hescaped ih => exact ih.map _
  | case5 => exact settled_malformed
  | case6 => exact settled_ok _
  | case7 => exact settled_malformed
  | case8 c rest hplain hescape hquote hcontrol ih => exact ih.map _

/-- Neither has a number. -/
theorem settled_readNumber (negative : Bool) (cs : List Char) :
    Settled (readNumber negative cs) := by
  unfold readNumber
  split
  · exact settled_malformed
  · dsimp only
    split
    · exact settled_ok _
    · split
      · exact settled_ok _
      · split
        · exact settled_tooLong _
        · exact settled_ok _

/-- A word or a number has no lists and objects in it. -/
theorem settled_readPlain (cs : List Char) : Settled (readPlain cs) := by
  unfold readPlain
  split
  · exact settled_ok _
  · exact settled_ok _
  · exact settled_ok _
  · exact settled_ok _
  · exact settled_ok _
  · exact settled_ok _
  · split
    · exact settled_ok _
    · rename_i hread
      exact (settled_readNumber true _).of_error hread
  · split
    · exact settled_ok _
    · rename_i hread
      exact (settled_readNumber false _).of_error hread

/-- Room for a level per character is enough for a value, if it is for what stands in it. -/
theorem settled_readValue_of
    (hitems : ∀ cs', cs'.length < cs.length → ∀ room, cs'.length ≤ room →
      Settled (readItems room cs'))
    (hfields : ∀ cs', cs'.length < cs.length → ∀ room, cs'.length ≤ room →
      Settled (readFields room cs')) (room : Nat) (hroom : cs.length ≤ room) :
    Settled (readValue room cs) := by
  unfold readValue
  split
  · split
    · exact settled_ok _
    · rename_i hread
      exact (settled_readText _).of_error hread
  · rename_i inside
    have hshorter := length_skipBlank_le inside
    rw [List.length_cons] at hroom
    cases room with
    | zero => omega
    | succ room =>
      have hinside := hitems _ (Nat.lt_succ_of_le hshorter) room (by omega)
      dsimp only
      split
      · exact settled_ok _
      · split
        · exact settled_ok _
        · rename_i hread
          exact hinside.of_error hread
  · rename_i inside
    have hshorter := length_skipBlank_le inside
    rw [List.length_cons] at hroom
    cases room with
    | zero => omega
    | succ room =>
      have hinside := hfields _ (Nat.lt_succ_of_le hshorter) room (by omega)
      dsimp only
      split
      · exact settled_ok _
      · split
        · exact settled_ok _
        · rename_i hread
          exact hinside.of_error hread
  · exact settled_readPlain _

/-- Room for a level per character is enough for items, if it is for the first and the others. -/
theorem settled_readItems_of
    (hvalue : ∀ room, cs.length ≤ room → Settled (readValue room cs))
    (hitems : ∀ cs', cs'.length < cs.length → ∀ room, cs'.length ≤ room →
      Settled (readItems room cs')) (room : Nat) (hroom : cs.length ≤ room) :
    Settled (readItems room cs) := by
  unfold readItems
  split
  · rename_i hread
    exact (hvalue room hroom).of_error hread
  · rename_i item left hitem
    split
    · exact settled_ok _
    · rename_i more hmore
      have hshorter := length_afterComma_lt hmore
      split
      · exact settled_ok _
      · rename_i hread
        exact (hitems _ (by omega) room (by omega)).of_error hread
    · exact settled_malformed

/-- Room for a level per character is enough for fields, if it is for the first value and the
others. -/
theorem settled_readFields_of
    (hvalue : ∀ cs', cs'.length < cs.length → ∀ room, cs'.length ≤ room →
      Settled (readValue room cs'))
    (hfields : ∀ cs', cs'.length < cs.length → ∀ room, cs'.length ≤ room →
      Settled (readFields room cs')) (room : Nat) (hroom : cs.length ≤ room) :
    Settled (readFields room cs) := by
  unfold readFields
  split
  · split
    · rename_i hread
      exact (settled_readText _).of_error hread
    · rename_i name afterName hname
      split
      · rename_i afterColon hcolon
        have hshorter := length_afterColon_lt hname hcolon
        split
        · rename_i hread
          exact (hvalue _ hshorter room (by omega)).of_error hread
        · rename_i value left hread
          split
          · exact settled_ok _
          · rename_i more hmore
            have hlater := length_afterComma_lt hmore
            split
            · exact settled_ok _
            · rename_i hrest
              exact (hfields _ (by omega) room (by omega)).of_error hrest
          · exact settled_malformed
      · exact settled_malformed
  · exact settled_malformed

/-- Room for a level per character is enough. -/
theorem settled_readers (cs : List Char) :
    (∀ room, cs.length ≤ room → Settled (readValue room cs)) ∧
    (∀ room, cs.length ≤ room → Settled (readItems room cs)) ∧
    ∀ room, cs.length ≤ room → Settled (readFields room cs) :=
  readers_induction (fun _ => settled_readValue_of) (fun _ => settled_readItems_of)
    (fun _ => settled_readFields_of) cs

end Settled

/-- More room makes no difference to a document that is not too deep. -/
theorem stays_read (document : String) : Stays fun nesting => read nesting document := by
  intro nesting hsettled
  have hvalue := (stays_readers (skipBlank document.toList)).1 nesting
  dsimp only at hvalue hsettled ⊢
  unfold read at hsettled ⊢
  rw [hvalue fun container hdeep => hsettled container (by rw [hdeep])]

/-- No document has more levels than characters. -/
theorem settled_read {nesting : Nat} {document : String} (h : document.toList.length ≤ nesting) :
    Settled (read nesting document) := by
  have hshorter := length_skipBlank_le document.toList
  unfold read
  split
  · split
    · exact settled_ok _
    · exact settled_malformed
  · rename_i hread
    exact ((settled_readers _).1 nesting (by omega)).of_error hread

/-- A document has a number of levels, which is no greater than that of its characters. Every reader
with so much room reads the document alike, and not as too deep. With less room the reading ends at
a list or an object that stands inside too many others. -/
theorem exists_levels (document : String) :
    ∃ levels ≤ document.toList.length, ∃ result, Settled result ∧ ∀ nesting,
      (levels ≤ nesting → read nesting document = result) ∧
      (nesting < levels → ∃ container, read nesting document = .error (.tooDeep container)) := by
  classical
  have hexists : ∃ nesting, Settled (read nesting document) := ⟨_, settled_read (Nat.le_refl _)⟩
  have hsettled := Nat.find_spec hexists
  refine ⟨Nat.find hexists, Nat.find_min' hexists (settled_read (Nat.le_refl _)), _, hsettled,
    fun nesting => ⟨fun hle => ?_, fun hlt => ?_⟩⟩
  · induction nesting, hle using Nat.le_induction with
    | base => rfl
    | succ nesting hle ih =>
      have hstays := stays_read document nesting
      dsimp only at hstays
      rw [hstays (by rw [ih]; exact hsettled), ih]
  · have hdeep := Nat.find_min hexists hlt
    simpa [Settled] using hdeep

/-- Two levels are enough for lists in a list, and one is not. -/
example : (read 1 "[[], []]").isOk = false ∧ (read 2 "[[], []]").isOk = true := by
  decide +kernel

end TraceProfile.Json
