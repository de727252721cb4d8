import EsModule.Syntax.Quoted

/-!
# JSON values and their compact text

A number is kept as it is written: its digits, and how many of them stand behind the point. Members
of an object keep their order. `render` writes a value without blanks. In strings it escapes the
quote, the backslash and the control characters below the space, five of which have letters of their
own; all else stands for itself.

The text is JSON as RFC 8259 has it, in the one form without blanks. Text is not read here: what is
read back, such as a resource or a source map, comes as a value. Objects with several members of one
name are left out of account.
-/

namespace EsModule

/-- A JSON value. -/
inductive Json where
  | null
  | bool (b : Bool)
  /-- The number `digits / 10 ^ places`. -/
  | number (digits : Int) (places : Nat)
  | string (s : String)
  | array (items : List Json)
  | object (members : List (String × Json))

/-- Where nothing else is said, a value is the null value. -/
instance : Inhabited Json := ⟨.null⟩

namespace Json

/-- The natural number `n`. -/
def ofNat (n : Nat) : Json := .number n 0

/-- A list of strings. -/
def strings (xs : List String) : Json := .array (xs.map .string)

/-- How a character is written in a string. -/
def escapeChar (c : Char) : List Char :=
  if c = '"' then ['\\', '"']
  else if c = '\\' then ['\\', '\\']
  else if c = '\x08' then ['\\', 'b']
  else if c = '\x0c' then ['\\', 'f']
  else if c = '\n' then ['\\', 'n']
  else if c = '\r' then ['\\', 'r']
  else if c = '\t' then ['\\', 't']
  else if c.toNat < 0x20 then "\\u00".toList ++ Syntax.twoHexDigits c.toNat
  else [c]

/-- A string in quotes. -/
def renderString (s : String) : String :=
  String.ofList ('"' :: (s.toList.flatMap escapeChar ++ ['"']))

/-- A number by its digits. -/
def renderNumber (digits : Int) (places : Nat) : String :=
  let sign := if digits < 0 then "-" else ""
  let text := Nat.toDigits 10 digits.natAbs
  let text := List.replicate (places + 1 - text.length) '0' ++ text
  let whole := text.take (text.length - places)
  let fraction := text.drop (text.length - places)
  sign ++ String.ofList whole ++ (if places = 0 then "" else "." ++ String.ofList fraction)

mutual

/-- The compact text of a value. -/
def render : Json → String
  | .null => "null"
  | .bool b => if b then "true" else "false"
  | .number digits places => renderNumber digits places
  | .string s => renderString s
  | .array items => "[" ++ ",".intercalate (renderItems items) ++ "]"
  | .object members => "\x7b" ++ ",".intercalate (renderMembers members) ++ "\x7d"

/-- The texts of the items of an array. -/
def renderItems : List Json → List String
  | [] => []
  | item :: items => render item :: renderItems items

/-- The texts of the members of an object. -/
def renderMembers : List (String × Json) → List String
  | [] => []
  | (key, value) :: members => (renderString key ++ ":" ++ render value) :: renderMembers members

end

/-- The members of an object in the order in which `keys` names them; other members are left out,
and all named ones have to be there. An array of as many items stands for them too. -/
def fields? (keys : List String) : Json → Option (List Json)
  | .object members => keys.mapM fun key => members.lookup key
  | .array items => if items.length = keys.length then some items else none
  | _ => none

/-- The string that a value is. -/
def string? : Json → Option String
  | .string s => some s
  | _ => none

/-- The natural number that a value is, if it is written without a point. -/
def nat? : Json → Option Nat
  | .number (.ofNat n) 0 => some n
  | _ => none

/-- The list whose items `item` reads. -/
def list? {α : Type} (item : Json → Option α) : Json → Option (List α)
  | .array items => items.mapM item
  | _ => none

/-- What `item` reads, or nothing for the null value. -/
def nullable? {α : Type} (item : Json → Option α) : Json → Option (Option α)
  | .null => some none
  | value => (item value).map some

end Json

end EsModule
