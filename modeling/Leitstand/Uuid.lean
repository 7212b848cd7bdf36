namespace Leitstand

abbrev UUID := BitVec 128
abbrev RobotId := String

/-- An instant in microseconds. -/
abbrev Datetime := Int

instance : LawfulBEq UUID := inferInstance

def seconds (n : Int) : Int := n * 1000000

namespace UUID

def hexDigit (n : Nat) : Char := Char.ofNat (if n < 10 then 48 + n else 87 + n)

def hex (u : UUID) : List Char :=
  (List.range 32).map fun i => hexDigit ((u.toNat >>> (4 * (31 - i))) % 16)

/-- `str(uuid)`: lower-case hexadecimal in the groups 8-4-4-4-12. -/
def str (u : UUID) : String :=
  let h := hex u
  String.ofList (h.take 8 ++ '-' :: ((h.drop 8).take 4 ++ '-' :: ((h.drop 12).take 4 ++
    '-' :: ((h.drop 16).take 4 ++ '-' :: h.drop 20))))

/-- `s.replace(sub, "")`; `skip` counts what is left of a match being dropped. -/
def without (sub : List Char) : Nat → List Char → List Char
  | _, [] => []
  | skip + 1, _ :: cs => without sub skip cs
  | 0, c :: cs =>
    if sub.isPrefixOf (c :: cs) then without sub (sub.length - 1) cs else c :: without sub 0 cs

def strip (p : Char → Bool) (cs : List Char) : List Char :=
  ((cs.dropWhile p).reverse.dropWhile p).reverse

def hexValue (c : Char) : Option Nat :=
  if '0' ≤ c ∧ c ≤ '9' then some (c.toNat - 48)
  else if 'a' ≤ c ∧ c ≤ 'f' then some (c.toNat - 87)
  else if 'A' ≤ c ∧ c ≤ 'F' then some (c.toNat - 55)
  else none

/-- Hexadecimal digits, one underscore allowed between two of them. -/
def hexDigits : Nat → Bool → List Char → Option Nat
  | acc, afterDigit, [] => if afterDigit then some acc else none
  | acc, afterDigit, c :: cs =>
    if c = '_' then if afterDigit then hexDigits acc false cs else none
    else (hexValue c).bind fun d => hexDigits (16 * acc + d) true cs

/-- The zeros of the decimal digits beyond ASCII; the other nine follow each of them. -/
def decimalZeros : List Nat :=
  [0x660, 0x6f0, 0x7c0, 0x966, 0x9e6, 0xa66, 0xae6, 0xb66, 0xbe6, 0xc66, 0xce6, 0xd66, 0xde6,
    0xe50, 0xed0, 0xf20, 0x1040, 0x1090, 0x17e0, 0x1810, 0x1946, 0x19d0, 0x1a80, 0x1a90, 0x1b50,
    0x1bb0, 0x1c40, 0x1c50, 0xa620, 0xa8d0, 0xa900, 0xa9d0, 0xa9f0, 0xaa50, 0xabf0, 0xff10,
    0x104a0, 0x10d30, 0x11066, 0x110f0, 0x11136, 0x111d0, 0x112f0, 0x11450, 0x114d0, 0x11650,
    0x116c0, 0x11730, 0x118e0, 0x11950, 0x11c50, 0x11d50, 0x11da0, 0x16a60, 0x16ac0, 0x16b50,
    0x1d7ce, 0x1d7d8, 0x1d7e2, 0x1d7ec, 0x1d7f6, 0x1e140, 0x1e2f0, 0x1e950, 0x1fbf0]

def decimal? (n : Nat) : Option Nat :=
  (decimalZeros.find? fun z => z ≤ n && n < z + 10).map (n - ·)

/-- Python's `str.isspace` beyond ASCII. -/
def isWideSpace (n : Nat) : Bool :=
  [0x85, 0xa0, 0x1680, 0x2028, 0x2029, 0x202f, 0x205f, 0x3000].contains n ||
    0x2000 ≤ n && n ≤ 0x200a

/-- `int` reads the decimal digits and blanks of every script as those of ASCII. -/
def toAscii (c : Char) : Char :=
  if c.toNat < 127 then c
  else if isWideSpace c.toNat then ' '
  else match decimal? c.toNat with
    | some d => Char.ofNat (48 + d)
    | none => '?'

def isSpace (c : Char) : Bool := c.isWhitespace || c.toNat == 11 || c.toNat == 12

/-- `int(text, 16)`: blanks around it, a plus sign and a `0x` are all accepted. -/
def intBase16 (cs : List Char) : Option Nat :=
  let body := match strip isSpace (cs.map toAscii) with
    | '+' :: rest => rest
    | rest => rest
  match body with
  | '0' :: x :: '_' :: rest =>
    if x = 'x' ∨ x = 'X' then hexDigits 0 false rest else hexDigits 0 false body
  | '0' :: x :: rest => if x = 'x' ∨ x = 'X' then hexDigits 0 false rest else hexDigits 0 false body
  | _ => hexDigits 0 false body

/-- `UUID(text)`, `none` where it raises. -/
def parse (text : String) : Option UUID :=
  let unprefixed := without "uuid:".toList 0 (without "urn:".toList 0 text.toList)
  let digits := (strip (fun c => c = '{' ∨ c = '}') unprefixed).filter (· ≠ '-')
  if digits.length ≠ 32 then none else (intBase16 digits).map (BitVec.ofNat 128)

example : parse (str 0x0123456789abcdef0123456789abcdef) =
    some 0x0123456789abcdef0123456789abcdef := by decide

example : parse "urn:uuid:{0123456789ABCDEF-0123456789abcdef}" =
    some 0x0123456789abcdef0123456789abcdef := by decide

-- Thirty-one full-width zeros and a Devanagari seven.
example : parse (String.ofList (List.replicate 31 (Char.ofNat 0xff10) ++ [Char.ofNat 0x96d])) =
    some 7 := by decide +kernel

end UUID
end Leitstand
