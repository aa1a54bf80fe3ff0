import Mathlib.Algebra.Order.Ring.Rat

/-!
# JSON values and schemas

A `Json` is what a JSON parser hands over: an object is a list of fields of which the first with a
name counts, and a number is an integer, a float, or one of the values that lenient parsers read.
-/

inductive JsonNum where
  | int (n : Int)
  | float (q : ℚ)
  | nan
  | inf (negative : Bool)
  deriving DecidableEq, Repr

namespace JsonNum

def below (q : ℚ) : JsonNum → Bool
  | .int n => (n : ℚ) < q
  | .float r => r < q
  | .nan => false
  | .inf negative => negative

def above (q : ℚ) : JsonNum → Bool
  | .int n => q < (n : ℚ)
  | .float r => q < r
  | .nan => false
  | .inf negative => !negative

def toInt? : JsonNum → Option Int
  | .int n => some n
  | .float q => if q.den = 1 then some q.num else none
  | _ => none

def toFloat : JsonNum → JsonNum
  | .int n => .float n
  | x => x

def sub : JsonNum → JsonNum → JsonNum
  | .int m, .int n => .float (m - n)
  | .int m, .float q => .float (m - q)
  | .float q, .int n => .float (q - n)
  | .float q, .float r => .float (q - r)
  | .inf s, .inf t => if s = t then .nan else .inf s
  | .nan, _ => .nan
  | _, .nan => .nan
  | .inf s, _ => .inf s
  | _, .inf t => .inf !t

end JsonNum

inductive Json where
  | null
  | bool (b : Bool)
  | num (x : JsonNum)
  | str (s : String)
  | arr (items : List Json)
  | obj (fields : List (String × Json))
  deriving Repr

namespace Json

def get? (v : Json) (name : String) : Option Json :=
  match v with
  | .obj fields => fields.lookup name
  | _ => none

def asBool? : Json → Option Bool
  | .bool b => some b
  | _ => none

def asStr? : Json → Option String
  | .str s => some s
  | _ => none

def asNum? : Json → Option JsonNum
  | .num x => some x
  | _ => none

def set (v : Json) (name : String) (value : Json) : Json :=
  match v with
  | .obj fields => .obj ((name, value) :: fields)
  | v => v

end Json

inductive JsonType where
  | null
  | boolean
  | integer
  | number
  | string
  | array
  | object
  deriving DecidableEq, Repr

def JsonType.holds : JsonType → Json → Bool
  | .null, .null => true
  | .boolean, .bool _ => true
  | .integer, .num x => x.toInt?.isSome
  | .number, .num _ => true
  | .string, .str _ => true
  | .array, .arr _ => true
  | .object, .obj _ => true
  | _, _ => false

inductive Schema where
  | types (ts : List JsonType)
  | enum (texts : List String)
  | constTrue
  | minimum (q : ℚ)
  | maximum (q : ℚ)
  | minLength (n : Nat)
  | maxLength (n : Nat)
  | required (names : List String)
  | property (name : String) (s : Schema)
  | closed (names : List String)
  | items (s : Schema)
  | minItems (n : Nat)
  | maxItems (n : Nat)
  | ifThen (condition consequence : Schema)
  | all (ss : List Schema)

namespace Schema

mutual

def valid : Schema → Json → Bool
  | .types ts, v => ts.any fun t => t.holds v
  | .enum texts, .str s => texts.contains s
  | .enum _, _ => false
  | .constTrue, .bool b => b
  | .constTrue, _ => false
  | .minimum q, .num x => !x.below q
  | .maximum q, .num x => !x.above q
  | .minLength n, .str s => n ≤ s.length
  | .maxLength n, .str s => s.length ≤ n
  | .required names, .obj fields => names.all fun name => (fields.lookup name).isSome
  | .property name s, .obj fields =>
    match fields.lookup name with
    | none => true
    | some v => s.valid v
  | .closed names, .obj fields => fields.all fun f => names.contains f.1
  | .items s, .arr vs => vs.all fun v => s.valid v
  | .minItems n, .arr vs => n ≤ vs.length
  | .maxItems n, .arr vs => vs.length ≤ n
  | .ifThen c t, v => !c.valid v || t.valid v
  | .all ss, v => validAll ss v
  | _, _ => true

def validAll : List Schema → Json → Bool
  | [], _ => true
  | s :: ss, v => s.valid v && validAll ss v

end

end Schema
