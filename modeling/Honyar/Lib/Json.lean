import Honyar.Lib.CText

/-!
# JSON values

What cJSON makes of a JSON text, and the functions the development reads it
with: those of cJSON itself, and `JSON_value_get` of the tool library
(cjson.c), which copies a member of an object into a buffer.

A number is kept as the text `JSON_number_value_get` prints for it and the `int`
cJSON makes of it.
-/

namespace Honyar

/-- `cJSON`, by its type. -/
inductive Json where
  | null
  | bool (b : Bool)
  | number (printed : CText) (valueint : Int)
  | string (valuestring : CText)
  | array (items : List Json)
  | object (members : List (CText × Json))

namespace Json

/-- `case_insensitive_strcmp(a, b) == 0`. -/
def sameName (a b : CText) : Bool := a.map Char.toLower == b.map Char.toLower

/-- `cJSON_GetObjectItem`: the first member of that name, its case ignored. -/
def getObjectItem (object : Json) (name : CText) : Option Json :=
  match object with
  | .object ms => (ms.find? fun m => sameName name m.1).map Prod.snd
  | _ => none

/-- The children cJSON walks over for `cJSON_GetArraySize` and
`cJSON_GetArrayItem`: an object has them too. -/
def children : Json → List Json
  | .array xs => xs
  | .object ms => ms.map Prod.snd
  | _ => []

/-- `valuestring`, which only a string has. -/
def valuestring? : Json → Option CText
  | .string s => some s
  | _ => none

@[simp] theorem valuestring?_string (s : CText) : (string s).valuestring? = some s := rfl

/-- `valueint`: a number has it, and `true` has 1. -/
def valueint : Json → Int
  | .bool true => 1
  | .number _ i => i
  | _ => 0

/-- `JSON_value_get(pcKey, pcValue, iValueLen, NULL, ..)`: the text of a member,
copied into a buffer of `iValueLen` bytes that held `pcValue`; `none` when it
fails.  A member that is null counts as found and leaves the buffer as it was;
an array or an object has nowhere to go. -/
def valueGet (pcKey pcValue : CText) (iValueLen : Nat) (pstData : Json) : Option CText :=
  match pstData.getObjectItem pcKey with
  | none => none
  | some .null => some pcValue
  | some (.bool b) => some (CText.snprintf iValueLen [if b then ['1'] else ['0']])
  | some (.number t _) => some (CText.snprintf iValueLen [t])
  | some (.string s) => some (CText.strncpy iValueLen s)
  | some (.array _) => none
  | some (.object _) => none

end Json

end Honyar
