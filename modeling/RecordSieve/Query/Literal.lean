import RecordSieve.Number.Form
import RecordSieve.Text.Quoted
/-!
# RecordSieve.Query.Literal

Constants of a clause and their printed form. A text is printed between single
quotes with its own single quotes doubled; booleans are printed in capitals.
-/

namespace RecordSieve

/-- A constant: a number, a text or a truth value. -/
inductive Literal
  | number (n : Binary64)
  | text (s : String)
  | boolean (b : Bool)
deriving DecidableEq

namespace Literal

/-- Equality by value: the two zeros are one number, a NaN equals nothing, and
literals of different kinds are different. -/
def same : Literal → Literal → Bool
  | number x, number y => x.numEq y
  | text s, text t => s == t
  | boolean a, boolean b => a == b
  | _, _ => false

/-- The printed form. -/
def render : Literal → List Char
  | number n => NumberForm.clause.render n
  | text s => Text.Quoted.encode '\'' s.toList
  | boolean true => "TRUE".toList
  | boolean false => "FALSE".toList

/-- Literals between commas, the items of a list. -/
def renderItems : List Literal → List Char
  | [] => []
  | [v] => v.render
  | v :: vs => v.render ++ ',' :: ' ' :: renderItems vs

/-- A parenthesized list of literals. -/
def renderList (vs : List Literal) : List Char :=
  '(' :: (renderItems vs ++ [')'])

/-- The numbers among some literals. -/
def numbers (vs : List Literal) : List Binary64 :=
  vs.filterMap fun
    | number n => some n
    | _ => none

/-- The texts among some literals. -/
def texts (vs : List Literal) : List String :=
  vs.filterMap fun
    | text s => some s
    | _ => none

end Literal
end RecordSieve
