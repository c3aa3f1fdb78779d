import Mathlib

namespace RcControl.Control

/-! What the server makes of a data channel message. -/

/-- A parsed JSON document.  An object lists its members as the text does; a `float` is
known by what its conversion to `int` gives. -/
inductive Json where
  | null
  | boolean (value : Bool)
  | integer (value : Int)
  | float (asInt : Int)
  | string (value : String)
  | array (elements : List Json)
  | object (members : List (String × Json))

namespace Json

def typeName : Json → String
  | .null => "null"
  | .boolean _ => "boolean"
  | .integer _ | .float _ => "number"
  | .string _ => "string"
  | .array _ => "array"
  | .object _ => "object"

/-- `find`: nothing is found in a document that is not an object, and of members with the
same key the parser keeps the last. -/
def find (key : String) : Json → Option Json
  | .object members => (members.reverse.find? (·.1 = key)).map Prod.snd
  | _ => none

/-- `get<int>()`, or the text of the `type_error` it throws. -/
def getInt : Json → Except String Int
  | .integer value => .ok (value.bmod (2 ^ 32))
  | .float asInt => .ok asInt
  | .boolean value => .ok value.toInt
  | other => .error
      ("[json.exception.type_error.302] type must be number, but is " ++ other.typeName)

end Json

inductive Servo where
  | steer | bldc
deriving DecidableEq, Repr

structure Command where
  servo : Servo
  pwm : Int
deriving DecidableEq, Repr

/-- What a handler does: the servo calls in order, and the exception that ends it, if any. -/
structure Handling where
  commands : List Command
  error : Option String
deriving DecidableEq, Repr

/-- `auto it = message.find(key); if (it != message.end()) servo(it->get<int>());`, followed
by the rest of the handler. -/
def servoMember (message : Json) (key : String) (servo : Servo) (rest : Handling) : Handling :=
  match message.find key with
  | none => rest
  | some value =>
      match value.getInt with
      | .error text => { commands := [], error := some text }
      | .ok pwm => { rest with commands := ⟨servo, pwm⟩ :: rest.commands }

/-- `dc->onMessage`, from the parsed message on. -/
def onMessage (message : Json) : Handling :=
  servoMember message "x" .steer (servoMember message "y" .bldc { commands := [], error := none })

/-- The message of the page, `JSON.stringify(data)`, as the server parses it. -/
def stringify (x y : Int) : Json := .object [("x", .integer x), ("y", .integer y)]

theorem onMessage_stringify {x y : Int} (xFits : x.bmod (2 ^ 32) = x) (yFits : y.bmod (2 ^ 32) = y) :
    onMessage (stringify x y) = { commands := [⟨.steer, x⟩, ⟨.bldc, y⟩], error := none } := by
  have foundX : (stringify x y).find "x" = some (.integer x) := rfl
  have foundY : (stringify x y).find "y" = some (.integer y) := rfl
  simp only [onMessage, servoMember, foundX, foundY, Json.getInt, xFits, yFits]

end RcControl.Control
