import Lsw.Lib.Text

/-!
# JSON Values

Values as a parser leaves them, the lookup of a field, and the compact text of a value: no blanks, and
of the characters of a string only those escaped that have to be.  A number is kept as its text.
-/

namespace Lsw.Lib

/-- A JSON value; the fields of an object are in the order in which they are kept. -/
inductive JsonValue where
  | null
  | bool (value : Bool)
  | number (text : Str)
  | string (text : Str)
  | array (items : List JsonValue)
  | object (fields : List (Str × JsonValue))

namespace JsonValue

/-- The field of an object. -/
def get (key : String) : JsonValue → Option JsonValue
  | object fields => (fields.find? fun field => field.1 == key.toList).map Prod.snd
  | _ => none

def isObject : JsonValue → Bool
  | object _ => true
  | _ => false

def asStr : JsonValue → Option Str
  | string text => some text
  | _ => none

/-- A character of a string, as it is written. -/
def escaped (c : Char) : Str :=
  if c = '"' then ['\\', '"']
  else if c = '\\' then ['\\', '\\']
  else if c.toNat = 8 then ['\\', 'b']
  else if c = '\t' then ['\\', 't']
  else if c = '\n' then ['\\', 'n']
  else if c.toNat = 12 then ['\\', 'f']
  else if c = '\r' then ['\\', 'r']
  else if c.toNat < 32 then
    "\\u00".toList ++ [Nat.digitChar (c.toNat / 16), Nat.digitChar (c.toNat % 16)]
  else [c]

/-- A string, with its quotes. -/
def quoted (text : Str) : Str := '"' :: (text.flatMap escaped ++ ['"'])

mutual

/-- The compact text of a value. -/
def render : JsonValue → Str
  | null => "null".toList
  | bool value => (if value then "true" else "false").toList
  | number text => text
  | string text => quoted text
  | array items => '[' :: ([','].intercalate (renderItems items) ++ [']'])
  | object fields => '{' :: ([','].intercalate (renderFields fields) ++ ['}'])

def renderItems : List JsonValue → List Str
  | [] => []
  | item :: items => render item :: renderItems items

def renderFields : List (Str × JsonValue) → List Str
  | [] => []
  | (name, value) :: fields => (quoted name ++ ':' :: render value) :: renderFields fields

end

end JsonValue

end Lsw.Lib
