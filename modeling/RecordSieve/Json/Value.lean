import RecordSieve.Number.Rounding
/-!
# RecordSieve.Json.Value

JSON values. An object is a list of members in increasing order of their keys,
each key once; `Members.insert` keeps that order, so two objects with the same
members are the same value and are written alike.
-/

namespace RecordSieve

/-- A JSON number: an integer of 64 bits, signed or unsigned, or a double. -/
inductive JsonNumber
  | integer (n : Int)
  | double (x : Binary64)
deriving DecidableEq

/-- The double nearest to a JSON number. -/
def JsonNumber.toBinary64 : JsonNumber → Binary64
  | integer n => .ofInt n
  | double x => x

/-- A JSON value. -/
inductive Json
  | null
  | boolean (b : Bool)
  | number (n : JsonNumber)
  | string (s : String)
  | array (items : List Json)
  | object (members : List (String × Json))
deriving Inhabited

namespace Json

/-- The members of an object. -/
abbrev Members := List (String × Json)

namespace Members

/-- The value under a key. -/
def get? (key : String) : Members → Option Json
  | [] => none
  | (k, v) :: ms => if k = key then some v else get? key ms

/-- Sets the value under a key, at the key's place in the order. -/
def insert (key : String) (value : Json) : Members → Members
  | [] => [(key, value)]
  | (k, v) :: ms =>
    if key < k then (key, value) :: (k, v) :: ms
    else if key = k then (key, value) :: ms
    else (k, v) :: insert key value ms

/-- Removes a key. -/
def erase (key : String) : Members → Members
  | [] => []
  | (k, v) :: ms => if k = key then erase key ms else (k, v) :: erase key ms

/-- The members of pairs in any order; of a repeated key the last value stays. -/
def ofPairs (pairs : List (String × Json)) : Members :=
  pairs.foldl (fun ms p => insert p.1 p.2 ms) []

@[simp] theorem get?_nil (key : String) : get? key [] = none := rfl

/-- What was set under a key is found there. -/
@[simp] theorem get?_insert_self (key : String) (value : Json) (ms : Members) :
    get? key (insert key value ms) = some value := by
  induction ms with
  | nil => simp [insert, get?]
  | cons m ms ih =>
    obtain ⟨k, v⟩ := m
    unfold insert
    split
    · simp [get?]
    · split
      · simp [get?]
      · rename_i h; simp [get?, Ne.symm h, ih]

/-- Setting one key leaves every other key alone. -/
theorem get?_insert_of_ne {key other : String} (h : other ≠ key) (value : Json) (ms : Members) :
    get? other (insert key value ms) = get? other ms := by
  induction ms with
  | nil => simp [insert, get?, Ne.symm h]
  | cons m ms ih =>
    obtain ⟨k, v⟩ := m
    unfold insert
    split
    · simp [get?, Ne.symm h]
    · split
      · rename_i hk; subst hk; simp [get?, Ne.symm h]
      · simp [get?, ih]

end Members

/-- The object with the given members, in any order. -/
def ofPairs (pairs : List (String × Json)) : Json := object (Members.ofPairs pairs)

/-- The members of an object, or nothing for another value. -/
def members? : Json → Option Members
  | object ms => some ms
  | _ => none

/-- The text of a string value, or nothing for another value. -/
def string? : Json → Option String
  | string s => some s
  | _ => none

/-- The value under a key of an object; nothing for another value. -/
def get? (key : String) (v : Json) : Option Json :=
  v.members?.bind (Members.get? key)

end Json
end RecordSieve
