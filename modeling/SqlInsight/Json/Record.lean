/-
Records in JSON: an object, whose members stand in any order, or an array of the values in the order
of the fields. A member that is no field is passed over; one that is given twice spoils the record.
-/
import SqlInsight.Json
import SqlInsight.Text.Basic

namespace SqlInsight.Json

/-- The values of the fields of these names, as far as they are given; none if the value is no such
record. -/
def record? (names : List String) : Json → Option (List (String × Json))
  | .object members =>
      let known := members.filter fun m => names.contains m.1
      if (known.map Prod.fst).Nodup then some known else none
  | .array items => if items.length ≤ names.length then some (names.zip items) else none
  | _ => none

/-- The value of a field, read by `read`; none if it is missing or does not fit. -/
def required {α : Type} (fields : List (String × Json)) (name : String)
    (read : Json → Option α) : Option α :=
  (fields.lookup name).bind read

/-- The value of a field, read by `read`, or the default if it is missing; none if it does not
fit. -/
def optional {α : Type} (fields : List (String × Json)) (name : String) (default : α)
    (read : Json → Option α) : Option α :=
  match fields.lookup name with
  | some value => read value
  | none => some default

def text? (j : Json) : Option Text :=
  j.string?.map String.toList

/-- The items of an array, each read by `read`; none if one does not fit. -/
def list? {α : Type} (read : Json → Option α) (j : Json) : Option (List α) :=
  j.array?.bind fun items => items.mapM read

/-- A value read by `read`, or none for `null`; no result if it does not fit. -/
def nullable? {α : Type} (read : Json → Option α) : Json → Option (Option α)
  | .null => some none
  | j => (read j).map some

def below? (bound : Nat) (j : Json) : Option Nat :=
  j.natural?.filter (· < bound)

def ofText (t : Text) : Json :=
  .string (String.ofList t)

/-- Text as a string, or `null` where there is none. -/
def textOrNull : Option Text → Json
  | some t => ofText t
  | none => .null

end SqlInsight.Json
