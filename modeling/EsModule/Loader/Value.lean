import EsModule.Number.Decimal
import EsModule.Text.Shown

/-!
# Values that modules pass to each other

The loader only moves values around. Those that it makes itself are namespaces; everything it does
not understand is a value of the host, known by a key.

A namespace is known by its identity. It names the record that it reads, but holds no part of it:
what a read gives depends on the record at that time.
-/

namespace EsModule.Loader

open EsModule.Number EsModule.Text

/-! ## Namespaces -/

/-- A list of names as a diagnostic shows it. -/
def shownNames (names : List String) : String :=
  "[" ++ ", ".intercalate (names.map shown) ++ "]"

/-- The object that stands for all exports of a module. -/
structure Namespace where
  /-- What tells this object from every other one. -/
  id : Nat
  /-- The record that it reads. -/
  record : Nat
  /-- The module of the record. -/
  storeId : String
  /-- The names of the exports, sorted and each once. -/
  keys : List String
deriving DecidableEq

namespace Namespace

/-- The tag by which the object describes itself. -/
def tag : String := "Module"

/-- No namespace takes new properties. -/
def isExtensible (_ : Namespace) : Bool := false

/-- Whether a name is among some names that are in order, from one index up to another. The name in
the middle says in which half it is to be looked for. -/
def isAmong (names : Array String) (key : String) (low high : Nat) : Bool :=
  if h : low < high ∧ high ≤ names.size then
    match compare names[(low + high) / 2] key with
    | .lt => isAmong names key ((low + high) / 2 + 1) high
    | .eq => true
    | .gt => isAmong names key low ((low + high) / 2)
  else false
termination_by high - low

/-- Whether a name is one of the exports. -/
def has (n : Namespace) (key : String) : Bool :=
  isAmong n.keys.toArray key 0 n.keys.length

/-- How a diagnostic shows the object. -/
def shown (n : Namespace) : String :=
  "Namespace \x7b store_id: " ++ Text.shown n.storeId ++ ", keys: " ++ shownNames n.keys ++ " \x7d"

end Namespace

/-! ## Values -/

/-- A value that a binding holds. -/
inductive Value where
  | undefined
  | null
  | boolean (b : Bool)
  | number (x : Binary64)
  | string (s : String)
  | array (items : List Value)
  | namespaceObject (n : Namespace)
  /-- A value that only the host understands. -/
  | host (key : String)

/-- Where nothing else is said, a value is undefined. -/
instance : Inhabited Value := ⟨.undefined⟩

namespace Value

/-- Whole numbers below this bound are written as integers. -/
def wholeBound : Nat := Nat.pow 10 15

/-- The text of a number: whole numbers below the bound have no sign of zero, and no number has an
exponent. -/
def numberText (x : Binary64) : String :=
  if x.isNan then "NaN"
  else if x.isInfinite then (if x.isNegative then "-Infinity" else "Infinity")
  else if x.isInteger ∧ x.truncated < wholeBound then
    (if x.isNegative ∧ x.truncated ≠ 0 then "-" else "") ++ toString x.truncated
  else String.ofList x.positional

mutual

/-- The text of a value. -/
def text : Value → String
  | .undefined => "undefined"
  | .null => "null"
  | .boolean b => if b then "true" else "false"
  | .number x => numberText x
  | .string s => s
  | .array items => "[" ++ ", ".intercalate (texts items) ++ "]"
  | .namespaceObject _ => "[object " ++ Namespace.tag ++ "]"
  | .host _ => "[object Object]"

/-- The texts of the items of an array. -/
def texts : List Value → List String
  | [] => []
  | v :: vs => text v :: texts vs

end

mutual

/-- How a diagnostic shows a value: strings have quotes, and namespaces name their module. -/
def shown : Value → String
  | .string s => Text.shown s
  | .array items => "[" ++ ", ".intercalate (showns items) ++ "]"
  | .namespaceObject n => "[Module: " ++ n.storeId ++ "]"
  | v => v.text

/-- How a diagnostic shows the items of an array. -/
def showns : List Value → List String
  | [] => []
  | v :: vs => shown v :: showns vs

end

mutual

/-- Whether two values are equal. Numbers are compared as numbers, arrays item by item, and
namespaces and values of the host by their identity. -/
def equal : Value → Value → Bool
  | .undefined, .undefined | .null, .null => true
  | .boolean a, .boolean b => a == b
  | .number a, .number b => a.equal b
  | .string a, .string b => a == b
  | .array a, .array b => equalItems a b
  | .namespaceObject a, .namespaceObject b => a.id == b.id
  | .host a, .host b => a == b
  | _, _ => false

/-- Whether two lists of values are equal item by item. -/
def equalItems : List Value → List Value → Bool
  | [], [] => true
  | a :: as, b :: bs => equal a b && equalItems as bs
  | _, _ => false

end

/-- The number that a value is. -/
def number? : Value → Option Binary64
  | .number x => some x
  | _ => none

/-- The string that a value is. -/
def string? : Value → Option String
  | .string s => some s
  | _ => none

/-- The namespace that a value is. -/
def namespace? : Value → Option Namespace
  | .namespaceObject n => some n
  | _ => none

/-- The key of a value of the host. -/
def host? : Value → Option String
  | .host key => some key
  | _ => none

/-- Whether a value is the undefined one. -/
def isUndefined : Value → Bool
  | .undefined => true
  | _ => false

end Value

end EsModule.Loader
