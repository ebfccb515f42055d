import Mathlib.Data.Rat.Defs
import Eis.Foundation.Raised

/-!
# What `json.loads` returns

Values with integers and floats apart, and the ways in which a program looks into them.
Each succeeds on values of some shape and raises an exception of the language on others.
-/

set_option autoImplicit false

/-- Floats are exact, save the infinite ones and `nan`. -/
inductive FloatValue where
  | finite (value : ℚ)
  | infinite (negative : Bool)
  | nan

inductive JsonValue where
  | null
  | bool (value : Bool)
  | int (value : ℤ)
  | float (value : FloatValue)
  | str (value : String)
  | list (items : List JsonValue)
  | dict (items : List (String × JsonValue))

/-- How `json.loads` fails: on a text that is no JSON, on an integer of too many digits, or
on one that is nested too deeply. -/
inductive LoadsError where
  | jsonDecodeError
  | valueError
  | recursionError

def LoadsError.raised {χ : Type} : LoadsError → Raised χ
  | .jsonDecodeError => .jsonDecodeError
  | .valueError => .valueError
  | .recursionError => .recursionError

namespace JsonValue

variable {χ β : Type}

def field (value : JsonValue) (key : String) : Option JsonValue :=
  match value with
  | .dict items => items.lookup key
  | _ => none

def first : JsonValue → Option JsonValue
  | .list items => items.head?
  | .str text => text.toList.head?.map fun c => .str (String.singleton c)
  | _ => none

/-- What `for` runs over. -/
def items : JsonValue → Option (List JsonValue)
  | .list items => some items
  | .str text => some (text.toList.map fun c => .str (String.singleton c))
  | .dict items => some (items.map fun item => .str item.1)
  | _ => none

/-- `bool(value)` -/
def truthy : JsonValue → Bool
  | .null => false
  | .bool value => value
  | .int value => decide (value ≠ 0)
  | .float (.finite value) => decide (value ≠ 0)
  | .float _ => true
  | .str value => decide (value ≠ "")
  | .list items => !items.isEmpty
  | .dict items => !items.isEmpty

def orElse (value other : JsonValue) : JsonValue :=
  if value.truthy then value else other

/-- `value[key]` -/
def getItem (value : JsonValue) (key : String) : Except (Raised χ) JsonValue :=
  match value with
  | .dict items =>
      match items.lookup key with
      | some found => .ok found
      | none => .error .keyError
  | _ => .error .typeError

/-- `value[0]` -/
def getFirst (value : JsonValue) : Except (Raised χ) JsonValue :=
  match value with
  | .list [] => .error .indexError
  | .list (item :: _) => .ok item
  | .str text =>
      match text.toList with
      | [] => .error .indexError
      | c :: _ => .ok (.str (String.singleton c))
  | .dict _ => .error .keyError
  | _ => .error .typeError

def get (value : JsonValue) (key : String) (default : JsonValue) :
    Except (Raised χ) JsonValue :=
  match value with
  | .dict items => .ok ((items.lookup key).getD default)
  | _ => .error .attributeError

def iterate (value : JsonValue) : Except (Raised χ) (List JsonValue) :=
  match value.items with
  | some items => .ok items
  | none => .error .typeError

/-- `json.loads(value)` -/
def loadsFrom (loads : String → Except LoadsError JsonValue) (value : JsonValue) :
    Except (Raised χ) JsonValue :=
  match value with
  | .str text => (loads text).mapError LoadsError.raised
  | _ => .error .typeError

section Objects
variable (items : List (String × JsonValue)) (key : String) (default : JsonValue)

@[simp]
theorem field_dict : (dict items).field key = items.lookup key := rfl

@[simp]
theorem get_dict :
    ((dict items).get key default : Except (Raised χ) JsonValue) =
      .ok ((items.lookup key).getD default) := rfl

@[simp]
theorem getFirst_cons (item : JsonValue) (rest : List JsonValue) :
    ((list (item :: rest)).getFirst : Except (Raised χ) JsonValue) = .ok item := rfl

@[simp]
theorem first_cons (item : JsonValue) (rest : List JsonValue) :
    (list (item :: rest)).first = some item := rfl

end Objects

section Shapes
variable {value found : JsonValue} {key : String} {default : JsonValue}
  {f : JsonValue → Except (Raised χ) β}

theorem plain_getItem : Plain (value.getItem key : Except (Raised χ) JsonValue) := by
  intro error
  unfold getItem
  repeat' split
  all_goals exact nofun

theorem getItem_eq_ok_iff :
    (value.getItem key : Except (Raised χ) JsonValue) = .ok found ↔
      value.field key = some found := by
  cases value with
  | dict items =>
      simp only [getItem, field]
      cases items.lookup key <;> simp
  | _ => simp [getItem, field]

theorem handled_getItem_bind :
    Handled (value.getItem key >>= f) ↔
      ∃ found, value.field key = some found ∧ Handled (f found) := by
  simp only [plain_getItem.handled_bind, getItem_eq_ok_iff]

theorem plain_getFirst : Plain (value.getFirst : Except (Raised χ) JsonValue) := by
  intro error
  unfold getFirst
  repeat' split
  all_goals exact nofun

theorem getFirst_eq_ok_iff :
    (value.getFirst : Except (Raised χ) JsonValue) = .ok found ↔ value.first = some found := by
  cases value with
  | list items => cases items <;> simp [getFirst, first]
  | str text =>
      simp only [getFirst, first]
      cases text.toList <;> simp
  | _ => simp [getFirst, first]

theorem handled_getFirst_bind :
    Handled (value.getFirst >>= f) ↔ ∃ found, value.first = some found ∧ Handled (f found) := by
  simp only [plain_getFirst.handled_bind, getFirst_eq_ok_iff]

theorem plain_get : Plain (value.get key default : Except (Raised χ) JsonValue) := by
  intro error
  unfold get
  split
  all_goals exact nofun

theorem get_eq_ok_iff :
    (value.get key default : Except (Raised χ) JsonValue) = .ok found ↔
      ∃ items, value = .dict items ∧ (value.field key).getD default = found := by
  cases value <;> simp [get, field]

theorem handled_get_bind :
    Handled (value.get key default >>= f) ↔
      (∃ items, value = .dict items) ∧ Handled (f ((value.field key).getD default)) := by
  simp only [plain_get.handled_bind, get_eq_ok_iff]
  constructor
  · rintro ⟨_, ⟨items, shape, rfl⟩, rest⟩
    exact ⟨⟨items, shape⟩, rest⟩
  · rintro ⟨⟨items, shape⟩, rest⟩
    exact ⟨_, ⟨items, shape, rfl⟩, rest⟩

theorem plain_iterate : Plain (value.iterate : Except (Raised χ) (List JsonValue)) := by
  intro error
  unfold iterate
  split
  all_goals exact nofun

theorem iterate_eq_ok_iff {items : List JsonValue} :
    (value.iterate : Except (Raised χ) (List JsonValue)) = .ok items ↔
      value.items = some items := by
  unfold iterate
  cases value.items <;> simp

theorem handled_iterate_bind {f : List JsonValue → Except (Raised χ) β} :
    Handled (value.iterate >>= f) ↔ ∃ items, value.items = some items ∧ Handled (f items) := by
  simp only [plain_iterate.handled_bind, iterate_eq_ok_iff]

theorem plain_loadsFrom (loads : String → Except LoadsError JsonValue) :
    Plain (loadsFrom loads value : Except (Raised χ) JsonValue) := by
  intro error
  cases value with
  | str text =>
      simp only [loadsFrom]
      rcases loads text with (_ | _ | _) | parsed <;> exact nofun
  | _ => exact nofun

theorem loadsFrom_eq_ok_iff (loads : String → Except LoadsError JsonValue) :
    (loadsFrom loads value : Except (Raised χ) JsonValue) = .ok found ↔
      ∃ text, value = .str text ∧ loads text = .ok found := by
  cases value with
  | str text =>
      simp only [loadsFrom, JsonValue.str.injEq, exists_eq_left']
      cases loads text <;> simp [Except.mapError]
  | _ => simp [loadsFrom]

end Shapes

end JsonValue
