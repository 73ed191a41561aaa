import TraceProfile.Proofs.Json.Reading

/-!
# Distinct names in JSON objects

A reader keeps one value per name of an object, at all depths. So whatever is taken from a document
that has been read is a table: no name in it has two values.
-/

namespace TraceProfile.Json

/-- No object in a value has two fields of one name. -/
inductive Distinct : Json → Prop
  | null : Distinct null
  | bool (b : Bool) : Distinct (bool b)
  | int (n : Int) : Distinct (int n)
  | real (x : Binary64) : Distinct (real x)
  | text (s : String) : Distinct (text s)
  | list {items : List Json} (hitems : ∀ item ∈ items, Distinct item) : Distinct (list items)
  | object {fields : Fields} (hnames : (fields.map (·.1)).Nodup)
      (hvalues : ∀ field ∈ fields, Distinct field.2) : Distinct (object fields)

/-- A value in which nothing stands has no object with two fields of one name. -/
theorem distinct_of_isPlain {value : Json} (h : value.IsPlain) : value.Distinct := by
  cases value with
  | null => exact .null
  | bool b => exact .bool b
  | int n => exact .int n
  | real x => exact .real x
  | text s => exact .text s
  | list items => exact h.elim
  | object fields => exact h.elim

/-- An object that is read has distinct names, and so have all objects in it. -/
theorem closed_distinct : Closed fun _ => Distinct where
  plain := distinct_of_isPlain
  list := .list
  object := .object

/-- A document that has been read has no object with two fields of one name. -/
theorem distinct_of_read {nesting : Nat} {document : String} {value : Json}
    (h : read nesting document = .ok value) : value.Distinct :=
  closed_distinct.of_read h

end TraceProfile.Json
