import Leitstand.Json
import Leitstand.Table

namespace Leitstand

section Environment
variable (env : String → Option String)

/-- `${VAR}` or `${VAR:-default}` at the start of a text: the name, the default and its length. -/
def reference? : List Char → Option (String × Option String × Nat)
  | '$' :: '\x7b' :: first :: text =>
    if first.isAlpha || first = '_' then
      let (more, rest) := text.span fun c => c.isAlphanum || c = '_'
      let name := String.ofList (first :: more)
      match rest with
      | '\x7d' :: _ => some (name, none, more.length + 4)
      | ':' :: '-' :: rest =>
        let (default, rest) := rest.span fun c => c ≠ '\x7d'
        if rest = [] then none
        else some (name, some (String.ofList default), more.length + default.length + 6)
      | _ => none
    else none
  | _ => none

def envValue (name : String) (default : Option String) : Option String :=
  match default, env name with
  | some default, none => some default
  | some default, some value => some (if value = "" then default else value)
  | none, value => value

/-- Every reference in a text filled in; the first argument counts what is left of the last one. -/
def expandText : Nat → List Char → Option (List Char)
  | _, [] => some []
  | left + 1, _ :: text => expandText left text
  | 0, c :: text =>
    match reference? (c :: text) with
    | none => (expandText 0 text).map (c :: ·)
    | some (name, default, length) => do
      return (← envValue env name default).toList ++ (← expandText (length - 1) text)

mutual
/-- None where a variable is not set and has no default. -/
def expandEnvVars : Json → Option Json
  | .str s => (expandText env 0 s.toList).map fun text => .str (String.ofList text)
  | .obj fields => (expandFields fields).map .obj
  | .arr items => (expandItems items).map .arr
  | value => some value

def expandItems : List Json → Option (List Json)
  | [] => some []
  | value :: rest => do return (← expandEnvVars value) :: (← expandItems rest)

def expandFields : Dict → Option Dict
  | [] => some []
  | (name, value) :: rest => do return (name, ← expandEnvVars value) :: (← expandFields rest)
end

end Environment

example : expandText (fun _ => none) 0 "${H:-soil}:${P:-80}/".toList = some "soil:80/".toList := by
  decide

def maxServerName : Nat := 24

def patternChar (c : Char) : Bool := c.isAlphanum || c = '_' || c = '*' || c = '-'

/-- A name of a tool in which `*` stands for any characters. -/
structure ToolPattern where
  text : String
  nonempty : text ≠ ""
  chars : text.toList.all patternChar = true
  short : text.length ≤ 64 - maxServerName - 1

def ToolPattern.validate : Json → Option ToolPattern
  | .str text =>
    if h : text ≠ "" ∧ text.toList.all patternChar = true ∧
        text.length ≤ 64 - maxServerName - 1 then
      some ⟨text, h.1, h.2.1, h.2.2⟩
    else none
  | _ => none

/-- One configured server: where it is and which of its tools may be used. -/
structure ExternalMCPServer where
  url : String
  headers : List (String × String) := []
  timeout : Int := 10000
  allowedTools : List ToolPattern
  nonempty : allowedTools ≠ []

/-- The scheme of a URL, the transport that the client takes for it, and the integer that a JSON
value is read as. -/
structure Readings where
  scheme : String → Option String
  transport : String → String
  int? : Json → Option Int

section Validation
variable (readings : Readings)

def streamableHttpUrl (url : String) : Bool :=
  (readings.scheme url = some "http" || readings.scheme url = some "https") &&
    readings.transport url = "http"

def headers? : Json → Option (List (String × String))
  | .obj fields => fields.mapM fun
    | (name, .str value) => some (name, value)
    | _ => none
  | _ => none

def timeout? (value : Json) : Option Int := do
  let timeout ← readings.int? value
  if 0 < timeout ∧ timeout ≤ 60000 then some timeout else none

def ExternalMCPServer.modelValidate : Json → Option ExternalMCPServer
  | .obj fields => do
    guard (∀ field ∈ fields, field.1 ∈ ["url", "headers", "timeout", "allowed_tools"])
    let .str url ← fields.lookup "url" | none
    guard (streamableHttpUrl readings url)
    let headers ← (fields.lookup "headers").elim (some []) headers?
    let timeout ← (fields.lookup "timeout").elim (some 10000) (timeout? readings)
    let .arr items ← fields.lookup "allowed_tools" | none
    let allowedTools ← items.mapM ToolPattern.validate
    if nonempty : allowedTools ≠ [] then
      some { url, headers, timeout, allowedTools, nonempty }
    else none
  | _ => none

/-- Lower-case letters and digits, not starting with the reserved prefix. -/
def validServerName (reservedPrefix name : String) : Bool :=
  (match name.toList with
  | [] => false
  | first :: more => first.isLower && more.all fun c => c.isLower || c.isDigit) &&
    name.length ≤ maxServerName && !reservedPrefix.toList.isPrefixOf name.toList

structure LoadedServer (reservedPrefix : String) where
  name : String
  valid : validServerName reservedPrefix name = true
  server : ExternalMCPServer

abbrev LoadedServers (reservedPrefix : String) := Table (@LoadedServer.name reservedPrefix)

variable (env : String → Option String) (reservedPrefix : String)

/-- An entry that is not valid is skipped. -/
def loadEntry (loaded : LoadedServers reservedPrefix) : String × Json → LoadedServers reservedPrefix
  | (name, entry) =>
    if valid : validServerName reservedPrefix name = true then
      match (expandEnvVars env entry).bind (ExternalMCPServer.modelValidate readings) with
      | some server => loaded.upsert { name, valid, server } fun _ => true
      | none => loaded
    else loaded

/-- The servers of a file; none is read where the file holds no object of servers. -/
def loadExternalServers (file : Option Json) : LoadedServers reservedPrefix :=
  match file with
  | some (.obj fields) =>
    match fields.lookup "mcpServers" with
    | some (.obj servers) => servers.foldl (loadEntry readings env reservedPrefix) .empty
    | _ => .empty
  | _ => .empty

end Validation

end Leitstand
