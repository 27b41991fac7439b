import Mathlib.Data.Rat.Defs
import Mathlib.Tactic.NormNum
import AlphaAlgo.Base.Values
import AlphaAlgo.Risk.Context

/-!
# Values — the decoded JSON that the adapters read

The body of a response is any JSON value.  A `float` is known by its number, which infinities and NaN lack, and by its
text.

* `truthy`, `orElse`: how `or` reads a value.
* `text`: `str` of a value; within a list or a dictionary a text is quoted.
-/

namespace AlphaAlgo.Broker

inductive Value where
  | scalar (a : Scalar)
  | float (number : Option ℚ) (text : String)
  | list (items : List Value)
  | dict (fields : List (String × Value))

abbrev Fields := List (String × Value)

/-- `fields.get(key)`. -/
def Fields.get (fields : Fields) (key : String) : Value := (fields.lookup key).getD (.scalar .none)

namespace Value

abbrev none : Value := .scalar .none

abbrev bool (b : Bool) : Value := .scalar (.bool b)

abbrev int (n : ℤ) : Value := .scalar (.int n)

abbrev str (s : String) : Value := .scalar (.str s)

def truthy : Value → Bool
  | scalar a => a.truthy
  | float number _ => number != some 0
  | list items => !items.isEmpty
  | dict fields => !fields.isEmpty

/-- `a or b`. -/
def orElse (a b : Value) : Value := if a.truthy = true then a else b

mutual

/-- `str(a)`, and `repr(a)` of what is `nested`. -/
def render (nested : Bool) : Value → String
  | scalar (.str s) => if nested then Risk.reprText s else s
  | scalar a => a.text
  | float _ text => text
  | list items => "[" ++ ", ".intercalate (showItems items) ++ "]"
  | dict fields => "\x7b" ++ ", ".intercalate (showFields fields) ++ "\x7d"

def showItems : List Value → List String
  | [] => []
  | a :: items => render true a :: showItems items

def showFields : List (String × Value) → List String
  | [] => []
  | (key, a) :: fields => (Risk.reprText key ++ ": " ++ render true a) :: showFields fields

end

/-- `str(a)`. -/
def text (a : Value) : String := a.render false

/-- `a is False`. -/
def isFalse : Value → Bool
  | scalar (.bool false) => true
  | _ => false

/-- A value that can be the key of a dictionary. -/
def hashable : Value → Bool
  | list _ => false
  | dict _ => false
  | _ => true

end Value

example : (Value.list [.str "a", .dict [("n", .int 1), ("b", .bool true)], .none]).text =
    "['a', \x7b'n': 1, 'b': True\x7d, None]" := by decide +kernel

end AlphaAlgo.Broker
