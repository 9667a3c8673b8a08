import Mathlib
import Veil.Errors

namespace Veil

/-- A number of the language. -/
inductive JsNumber
  | finite (value : ℚ)
  | infinity (negative : Bool)
  | nan
  deriving DecidableEq

/-- How the language writes numbers and reads them; nothing is assumed of it. -/
structure NumberText where
  write : JsNumber → String
  read : String → JsNumber

/-- What `JSON.parse` returns; a missing value is `none`. -/
inductive Json
  | null
  | bool (value : Bool)
  | num (value : JsNumber)
  | str (text : String)
  | arr (elements : List Json)
  | obj (fields : List (String × Json))

def JsNumber.truthy : JsNumber → Bool
  | .finite value => value ≠ 0
  | .infinity _ => true
  | .nan => false

/-- `this > bound` -/
def JsNumber.exceeds (bound : Nat) : JsNumber → Bool
  | .finite value => (bound : ℚ) < value
  | .infinity negative => !negative
  | .nan => false

def utf16Length (text : String) : Nat := (text.toList.map (fun c => if c.val < 0x10000 then 1 else 2)).sum

namespace Json

/-- A field read from a value that is not `null`; no value but an object has one of the names that are read. -/
def field (name : String) : Json → Option Json
  | .obj fields => (fields.find? (fun field => field.1 = name)).map Prod.snd
  | _ => none

def truthy : Option Json → Bool
  | none | some .null => false
  | some (.bool value) => value
  | some (.num value) => value.truthy
  | some (.str text) => text ≠ ""
  | some (.arr _) | some (.obj _) => true

def isText (text : String) : Json → Bool
  | .str text' => text' = text
  | _ => false

def text? : Json → Option String
  | .str text => some text
  | _ => none

/-- `Number.isInteger` and the integer. -/
def integer? : Json → Option Int
  | .num (.finite value) => if value.den = 1 then some value.num else none
  | _ => none

/-- The values `for ... of` runs through. -/
def elements : Json → Except Failure (List Json)
  | .arr elements => .ok elements
  | .str text => .ok (text.toList.map (fun c => .str (String.singleton c)))
  | _ => .error (.error "value is not iterable")

def length : Json → Option Json
  | .str text => some (.num (.finite (utf16Length text)))
  | .arr elements => some (.num (.finite elements.length))
  | value => value.field "length"

/-- The value has no way to become a primitive: neither method is left, as the text of an object is inherited. -/
def withoutText (fields : List (String × Json)) : Bool := fields.any (fun field => field.1 = "toString")

variable (js : NumberText)

mutual

/-- `String(this)` -/
def toText : Json → Except Failure String
  | .null => .ok "null"
  | .bool value => .ok (toString value)
  | .num value => .ok (js.write value)
  | .str text => .ok text
  | .arr elements => do return ",".intercalate (← joinTexts elements)
  | .obj fields =>
    if withoutText fields then .error (.error "Cannot convert object to primitive value") else .ok "[object Object]"

def joinTexts : List Json → Except Failure (List String)
  | [] => .ok []
  | .null :: rest => do return "" :: (← joinTexts rest)
  | value :: rest => do
    let text ← value.toText
    return text :: (← joinTexts rest)

end

/-- `Number(this)` -/
def toNumber : Json → Except Failure JsNumber
  | .null => .ok (.finite 0)
  | .bool value => .ok (.finite (if value then 1 else 0))
  | .num value => .ok value
  | value => do return js.read (← value.toText js)

/-- `value > bound` -/
def exceeds (bound : Nat) : Option Json → Except Failure Bool
  | none => .ok false
  | some value => do return (← value.toNumber js).exceeds bound

end Json

end Veil
