import Leitstand.PyFloat

namespace Leitstand

/-- A JSON value as Python reads it, `NaN` and the infinities included. -/
inductive Json where
  | null
  | bool (b : Bool)
  | num (n : PyFloat)
  | str (s : String)
  | arr (items : List Json)
  | obj (fields : List (String × Json))

/-- A `dict` in insertion order. -/
abbrev Dict := List (String × Json)

namespace Json

/-- Numbers and booleans compare as numbers. -/
def number? : Json → Option PyFloat
  | .bool b => some (if b then 1 else 0)
  | .num n => some n
  | _ => none

mutual
/-- Python's `==`. -/
def pyEq : Json → Json → Bool
  | .null, .null => true
  | .str s, .str t => s = t
  | .arr xs, .arr ys => itemsEq xs ys
  | .obj fields, .obj fields' => fields.length = fields'.length && fieldsEq fields fields'
  | .bool b, other => other.number?.any (PyFloat.pyEq (if b then 1 else 0))
  | .num n, other => other.number?.any n.pyEq
  | _, _ => false

def itemsEq : List Json → List Json → Bool
  | [], [] => true
  | x :: xs, y :: ys => x.pyEq y && itemsEq xs ys
  | _, _ => false

/-- Every field has its equal on the other side, in whatever order. -/
def fieldsEq : Dict → Dict → Bool
  | [], _ => true
  | (name, value) :: rest, fields =>
    ((fields.lookup name).elim false fun other => value.pyEq other) && fieldsEq rest fields
end

example : pyEq (.obj [("a", .num 1), ("b", .null)]) (.obj [("b", .null), ("a", .bool true)]) := by
  decide

end Json

/-- `==` of a stored `dict | None` and what a caller names. -/
def argumentsEq (arguments : Option Dict) (other : Json) : Bool :=
  (arguments.elim .null Json.obj).pyEq other

end Leitstand
