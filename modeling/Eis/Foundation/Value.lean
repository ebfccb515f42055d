import Mathlib.Data.Rat.Defs
import Eis.Foundation.OrderedDict

/-!
# Values of any type

Where the source says `Any`: the built-in values, and objects that are known by
their name only.  The keys of a dictionary are strings, as in JSON.
-/

set_option autoImplicit false

inductive Value where
  | none
  | bool (value : Bool)
  | int (value : ℤ)
  | float (value : ℚ)
  | str (value : String)
  | bytes (value : List UInt8)
  | list (items : List Value)
  | tuple (items : List Value)
  | dict (items : List (String × Value))
  | object (name : String)

abbrev Dict := OrderedDict String Value

namespace Value

mutual
/-- The type for which `hash` raises its `TypeError`. -/
def unhashable? : Value → Option String
  | .list _ => some "list"
  | .dict _ => some "dict"
  | .tuple items => unhashableItem? items
  | _ => Option.none

def unhashableItem? : List Value → Option String
  | [] => Option.none
  | item :: rest => unhashable? item <|> unhashableItem? rest
end

/-- `bool(value)`, where an object is true unless its class says otherwise. -/
def truthy : Value → Bool
  | .none => false
  | .bool value => value
  | .int value => decide (value ≠ 0)
  | .float value => decide (value ≠ 0)
  | .str value => decide (value ≠ "")
  | .bytes value => !value.isEmpty
  | .list items => !items.isEmpty
  | .tuple items => !items.isEmpty
  | .dict items => !items.isEmpty
  | .object _ => true

/-- `isinstance(value, str)` -/
def text? : Value → Option String
  | .str text => some text
  | _ => Option.none

def toDict (items : List (String × Value)) : Dict :=
  items.foldl (fun dict item => dict.setItem item.1 item.2) Table.empty

end Value
