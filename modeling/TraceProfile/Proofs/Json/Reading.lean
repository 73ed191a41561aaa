import TraceProfile.Json.Reader

/-!
# What is read from JSON

A property of values that goes from what stands in a list or an object to the list or the object
holds of every value that is read. It may depend on the room that the reader has for the value, of
which there is one level less inside than outside.
-/

namespace TraceProfile.Json

/-- The value is neither a list nor an object. -/
def IsPlain : Json → Prop
  | list _ => False
  | object _ => False
  | _ => True

/-- A property of a value and the room for it, which goes from the inside to the outside. The names
of an object that is read are distinct. -/
structure Closed (P : Nat → Json → Prop) : Prop where
  /-- It holds of a value in which nothing stands. -/
  plain : ∀ {room value}, value.IsPlain → P room value
  /-- It goes from the items to the list. -/
  list : ∀ {room items}, (∀ item ∈ items, P room item) → P (room + 1) (list items)
  /-- It goes from the values to the object. -/
  object : ∀ {room : Nat} {fields : Fields}, (fields.map (·.1)).Nodup →
    (∀ field ∈ fields, P room field.2) → P (room + 1) (object fields)

variable {P : Nat → Json → Prop} {room : Nat} {cs : List Char}

/-- A number is plain. -/
theorem isPlain_of_readNumber {negative : Bool} {rest : List Char} {value : Json}
    (h : readNumber negative cs = .ok (value, rest)) : value.IsPlain := by
  unfold readNumber at h
  split at h
  · cases h
  · dsimp only at h
    split at h
    · cases h
      trivial
    · split at h
      · cases h
        trivial
      · split at h
        · cases h
        · cases h
          trivial

/-- A word or a number is plain. -/
theorem isPlain_of_readPlain {value : Json} {rest : Shorter cs}
    (h : readPlain cs = .ok (value, rest)) : value.IsPlain := by
  have hnumber {negative : Bool} {cs' : List Char} {value' : Json} {rest' : List Char}
      (hread : readNumber negative cs' = .ok (value', rest')) (hsame : value' = value) :
      value.IsPlain := hsame ▸ isPlain_of_readNumber hread
  unfold readPlain at h
  split at h
  · cases h
    trivial
  · cases h
    trivial
  · cases h
    trivial
  · cases h
    trivial
  · cases h
    trivial
  · cases h
    trivial
  · split at h
    · rename_i hread
      cases h
      exact hnumber hread rfl
    · cases h
  · split at h
    · rename_i hread
      cases h
      exact hnumber hread rfl
    · cases h

/-- The value of a field is shorter than the fields that start with it. -/
theorem length_afterColon_lt {afterQuote afterName afterColon : List Char} {name : String}
    (hname : readText afterQuote = .ok (name, afterName))
    (hcolon : skipBlank afterName = ':' :: afterColon) :
    (skipBlank afterColon).length < ('\x22' :: afterQuote).length := by
  have hname' := length_of_readText hname
  have hcolon' := length_skipBlank_le afterName
  rw [hcolon] at hcolon'
  have hvalue' := length_skipBlank_le afterColon
  simp only [List.length_cons] at hcolon' ⊢
  omega

/-- What follows a comma is shorter than what follows the value in front of it. -/
theorem length_afterComma_lt {left : Shorter cs} {more : List Char}
    (hmore : skipBlank left.1 = ',' :: more) : (skipBlank more).length + 1 < cs.length := by
  have hleft := length_skipBlank_le left.1
  rw [hmore, List.length_cons] at hleft
  have hmore' := length_skipBlank_le more
  have hshorter := left.2
  omega

/-- What goes from shorter texts to that of a value, of items and of fields holds for all texts. The
induction is on the length: a list of items starts with a value that is as long as the list, and
everything else is shorter. -/
theorem readers_induction {V I F : List Char → Prop}
    (hvalue : ∀ cs, (∀ cs', cs'.length < cs.length → I cs') →
      (∀ cs', cs'.length < cs.length → F cs') → V cs)
    (hitems : ∀ cs, V cs → (∀ cs', cs'.length < cs.length → I cs') → I cs)
    (hfields : ∀ cs, (∀ cs', cs'.length < cs.length → V cs') →
      (∀ cs', cs'.length < cs.length → F cs') → F cs) (cs : List Char) : V cs ∧ I cs ∧ F cs := by
  induction hn : cs.length using Nat.strongRecOn generalizing cs with
  | ind n ih =>
    subst hn
    have hV (cs' : List Char) (hlt : cs'.length < cs.length) : V cs' := (ih _ hlt cs' rfl).1
    have hI (cs' : List Char) (hlt : cs'.length < cs.length) : I cs' := (ih _ hlt cs' rfl).2.1
    have hF (cs' : List Char) (hlt : cs'.length < cs.length) : F cs' := (ih _ hlt cs' rfl).2.2
    have hfirst := hvalue cs hI hF
    exact ⟨hfirst, hitems cs hfirst hI, hfields cs hV hF⟩

namespace Closed

/-- A list or an object is as good as what stands in it, and any other value is good. -/
theorem of_readValue (hP : Closed P) {value : Json} {rest : Shorter cs}
    (h : readValue room cs = .ok (value, rest))
    (hitems : ∀ room cs' items rest, cs'.length < cs.length →
      readItems room cs' = .ok (items, rest) → ∀ item ∈ items, P room item)
    (hfields : ∀ room cs' fields rest, cs'.length < cs.length →
      readFields room cs' = .ok (fields, rest) → ∀ field ∈ fields, P room field.2) :
    P room value := by
  unfold readValue at h
  split at h
  · split at h
    · cases h
      exact hP.plain trivial
    · cases h
  · rename_i inside
    have hshorter := length_skipBlank_le inside
    split at h
    · cases h
    · split at h
      · cases h
        exact hP.list (List.forall_mem_nil _)
      · split at h
        · rename_i hread
          cases h
          exact hP.list (hitems _ _ _ _ (Nat.lt_succ_of_le hshorter) hread)
        · cases h
  · rename_i inside
    have hshorter := length_skipBlank_le inside
    split at h
    · cases h
    · split at h
      · cases h
        exact hP.object .nil (List.forall_mem_nil _)
      · split at h
        · rename_i hread
          cases h
          exact hP.object (Assoc.nodup_keys_ofList _) fun field hfield =>
            hfields _ _ _ _ (Nat.lt_succ_of_le hshorter) hread field
              (Assoc.mem_of_mem_ofList hfield)
        · cases h
  · exact hP.plain (isPlain_of_readPlain h)

/-- The items of a list are as good as the first value and the items after it. -/
theorem of_readItems {items : List Json} {rest : Shorter cs}
    (h : readItems room cs = .ok (items, rest))
    (hvalue : ∀ value rest, readValue room cs = .ok (value, rest) → P room value)
    (hitems : ∀ cs' items rest, cs'.length < cs.length →
      readItems room cs' = .ok (items, rest) → ∀ item ∈ items, P room item) :
    ∀ item ∈ items, P room item := by
  unfold readItems at h
  split at h
  · cases h
  · rename_i item left hitem
    have hfirst := hvalue item left hitem
    split at h
    · cases h
      exact List.forall_mem_singleton.mpr hfirst
    · rename_i more hmore
      split at h
      · rename_i hread
        cases h
        have hshorter := length_afterComma_lt hmore
        exact List.forall_mem_cons.mpr ⟨hfirst, hitems _ _ _ (by omega) hread⟩
      · cases h
    · cases h

/-- The values of an object are as good as the first value and those of the fields after it. -/
theorem of_readFields {fields : Fields} {rest : Shorter cs}
    (h : readFields room cs = .ok (fields, rest))
    (hvalue : ∀ cs' value rest, cs'.length < cs.length →
      readValue room cs' = .ok (value, rest) → P room value)
    (hfields : ∀ cs' fields rest, cs'.length < cs.length →
      readFields room cs' = .ok (fields, rest) → ∀ field ∈ fields, P room field.2) :
    ∀ field ∈ fields, P room field.2 := by
  unfold readFields at h
  split at h
  · rename_i afterQuote
    split at h
    · cases h
    · rename_i name afterName hname
      split at h
      · rename_i afterColon hcolon
        have hshorter := length_afterColon_lt hname hcolon
        split at h
        · cases h
        · rename_i value left hread
          have hfirst := hvalue _ value left hshorter hread
          split at h
          · cases h
            exact List.forall_mem_singleton.mpr hfirst
          · rename_i more hmore
            split at h
            · rename_i hrest
              cases h
              have hlater := length_afterComma_lt hmore
              exact List.forall_mem_cons.mpr ⟨hfirst, hfields _ _ _ (by omega) hrest⟩
            · cases h
          · cases h
      · cases h
  · cases h

/-- The property holds of everything that is read. -/
theorem of_readers (hP : Closed P) (cs : List Char) :
    (∀ room value rest, readValue room cs = .ok (value, rest) → P room value) ∧
    (∀ room items rest, readItems room cs = .ok (items, rest) → ∀ item ∈ items, P room item) ∧
    ∀ room fields rest, readFields room cs = .ok (fields, rest) →
      ∀ field ∈ fields, P room field.2 := by
  revert cs
  refine readers_induction ?_ ?_ ?_
  · intro cs hitems hfields room value rest h
    exact hP.of_readValue h (fun room cs' items rest hlt => hitems cs' hlt room items rest)
      fun room cs' fields rest hlt => hfields cs' hlt room fields rest
  · intro cs hvalue hitems room items rest h
    exact of_readItems h (hvalue room) fun cs' items rest hlt => hitems cs' hlt room items rest
  · intro cs hvalue hfields room fields rest h
    exact of_readFields h (fun cs' value rest hlt => hvalue cs' hlt room value rest)
      fun cs' fields rest hlt => hfields cs' hlt room fields rest

/-- The property holds of the value of a document. -/
theorem of_read (hP : Closed P) {nesting : Nat} {document : String} {value : Json}
    (h : read nesting document = .ok value) : P nesting value := by
  unfold read at h
  split at h
  · rename_i value' rest hread
    split at h
    · cases h
      exact (hP.of_readers _).1 _ _ _ hread
    · cases h
  · cases h

end Closed

end TraceProfile.Json
