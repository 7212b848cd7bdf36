import Mathlib.Data.List.Sort
import Leitstand.Json
import Leitstand.UuidText

namespace Leitstand.Json

/-- One code unit as `\uXXXX`. -/
def escapeUnit (n : Nat) : List Char := '\\' :: 'u' :: (UUID.digits 4 n).map UUID.hexDigit

/-- A character of a string as `json.dumps` writes it: in ASCII, what lies beyond the basic plane as
two surrogates. -/
def escape (c : Char) : List Char :=
  if c = '"' then ['\\', '"']
  else if c = '\\' then ['\\', '\\']
  else if c = '\n' then ['\\', 'n']
  else if c = '\r' then ['\\', 'r']
  else if c = '\t' then ['\\', 't']
  else if c.toNat = 12 then ['\\', 'f']
  else if c.toNat = 8 then ['\\', 'b']
  else if 32 ≤ c.toNat ∧ c.toNat ≤ 126 then [c]
  else if c.toNat < 65536 then escapeUnit c.toNat
  else
    let n := c.toNat - 65536
    escapeUnit (55296 + n / 1024) ++ escapeUnit (56320 + n % 1024)

def quoted (s : String) : String := "\"" ++ String.ofList (s.toList.flatMap escape) ++ "\""

section Dumps
variable (number : PyFloat → String)

mutual
/-- `json.dumps(value, sort_keys=True, separators=(",", ":"))`; `number` is the text of a number. -/
def dumps : Json → String
  | .null => "null"
  | .bool b => if b then "true" else "false"
  | .num n => number n
  | .str s => quoted s
  | .arr items => "[" ++ String.intercalate "," (dumpsItems items) ++ "]"
  | .obj fields =>
    let sorted := (dumpsFields fields).insertionSort fun a b => a.1 ≤ b.1
    "\x7b" ++ String.intercalate "," (sorted.map fun f => quoted f.1 ++ ":" ++ f.2) ++ "\x7d"

def dumpsItems : List Json → List String
  | [] => []
  | value :: rest => dumps value :: dumpsItems rest

def dumpsFields : List (String × Json) → List (String × String)
  | [] => []
  | (name, value) :: rest => (name, dumps value) :: dumpsFields rest
end

end Dumps

example : dumps (fun _ => "0.5") (.obj [("b", .arr [.null, .num 1]), ("a\n", .str "\u00e9")]) =
    "\x7b\"a\\n\":\"\\u00e9\",\"b\":[null,0.5]\x7d" := by
  decide

end Leitstand.Json
