import Leitstand.JsonText
import Leitstand.TextCode

namespace Leitstand.Json

open TextCode

section Strings

/-- Four hexadecimal digits at the start of a text. -/
def readUnit : List Char → Option (Nat × List Char)
  | a :: b :: c :: d :: rest => do
    let digits ← [a, b, c, d].mapM UUID.hexValue
    return (digits.foldl (fun n digit => 16 * n + digit) 0, rest)
  | _ => none

/-- The character that an escaped text begins with. -/
def readChar : List Char → Option (Char × List Char)
  | '\\' :: 'u' :: text => do
    let (high, rest) ← readUnit text
    match rest with
    | '\\' :: 'u' :: text =>
      if 55296 ≤ high ∧ high < 56320 then do
        let (low, rest) ← readUnit text
        return (Char.ofNat (65536 + (high - 55296) * 1024 + (low - 56320)), rest)
      else return (Char.ofNat high, rest)
    | rest => return (Char.ofNat high, rest)
  | '\\' :: 'n' :: rest => some ('\n', rest)
  | '\\' :: 'r' :: rest => some ('\r', rest)
  | '\\' :: 't' :: rest => some ('\t', rest)
  | '\\' :: 'f' :: rest => some (Char.ofNat 12, rest)
  | '\\' :: 'b' :: rest => some (Char.ofNat 8, rest)
  | '\\' :: c :: rest => some (c, rest)
  | c :: rest => some (c, rest)
  | [] => none

theorem readUnit_digits {n : Nat} (h : n < 65536) (rest : List Char) :
    readUnit ((UUID.digits 4 n).map UUID.hexDigit ++ rest) = some (n, rest) := by
  have hfold := (UUID.foldl_digits 4 n).trans (Nat.mod_eq_of_lt (show n < 16 ^ 4 from h))
  have hlt : ∀ d ∈ UUID.digits 4 n, d < 16 := fun d hd => UUID.digits_lt hd
  have hlen : (UUID.digits 4 n).length = 4 := by simp [UUID.digits]
  obtain ⟨a, b, c, d, hdigits⟩ := List.length_eq_four.mp hlen
  rw [hdigits] at hfold hlt ⊢
  simp only [List.forall_mem_cons] at hlt
  obtain ⟨ha, hb, hc, hd, -⟩ := hlt
  have hvalues : ([a, b, c, d].map UUID.hexDigit).mapM UUID.hexValue = some [a, b, c, d] := by
    simp [UUID.hexValue_hexDigit, ha, hb, hc, hd]
  change (([a, b, c, d].map UUID.hexDigit).mapM UUID.hexValue).bind _ = _
  rw [hvalues]
  exact congrArg (fun n => some (n, rest)) hfold

theorem readChar_unit {n : Nat} (h : n < 65536) (rest : List Char)
    (hplain : ¬ (55296 ≤ n ∧ n < 56320)) :
    readChar (escapeUnit n ++ rest) = some (Char.ofNat n, rest) := by
  unfold escapeUnit readChar
  simp only [List.cons_append]
  rw [readUnit_digits h]
  simp only [Option.bind_eq_bind, Option.bind_some, if_neg hplain]
  split <;> rfl

theorem readChar_surrogates {high low : Nat} (hhigh : 55296 ≤ high) (hhigh' : high < 56320)
    (hlow : low < 65536) (rest : List Char) :
    readChar (escapeUnit high ++ escapeUnit low ++ rest) =
      some (Char.ofNat (65536 + (high - 55296) * 1024 + (low - 56320)), rest) := by
  unfold escapeUnit readChar
  simp only [List.cons_append, List.append_assoc]
  rw [readUnit_digits (by omega)]
  simp only [Option.bind_eq_bind, Option.bind_some, if_pos (And.intro hhigh hhigh')]
  rw [readUnit_digits hlow]
  rfl

theorem readChar_plain {c : Char} (hslash : c ≠ '\\') (rest : List Char) :
    readChar (c :: rest) = some (c, rest) := by
  unfold readChar
  split
  case h_8 h =>
    obtain ⟨rfl, rfl⟩ := List.cons.inj h
    rfl
  case h_9 h => cases h
  all_goals
    rename_i h
    exact absurd (List.cons.inj h).1 hslash

theorem readChar_escape (c : Char) (rest : List Char) :
    readChar (escape c ++ rest) = some (c, rest) := by
  have hvalid : c.toNat < 55296 ∨ 57343 < c.toNat ∧ c.toNat < 1114112 := c.valid
  have hback : Char.ofNat c.toNat = c := Char.ofNat_toNat c
  unfold escape
  split_ifs with hquote hslash hn hr ht hf hb hplain hsmall
  · rw [hquote]; rfl
  · rw [hslash]; rfl
  · rw [hn]; rfl
  · rw [hr]; rfl
  · rw [ht]; rfl
  · rw [← hback, hf]; rfl
  · rw [← hback, hb]; rfl
  · exact readChar_plain hslash rest
  · rw [readChar_unit hsmall rest (by omega), hback]
  · have hlt : c.toNat - 65536 < 1048576 := by omega
    dsimp only
    rw [readChar_surrogates (by omega) (by omega) (by omega)]
    have hsum : 65536 + (55296 + (c.toNat - 65536) / 1024 - 55296) * 1024 +
        (56320 + (c.toNat - 65536) % 1024 - 56320) = c.toNat := by omega
    rw [hsum, hback]

theorem escape_prefixFree : PrefixFree escape := prefixFree_of_read readChar_escape

theorem escape_start (c : Char) : ∃ d text, escape c = d :: text ∧ d ≠ '"' := by
  unfold escape
  split_ifs with hquote
  all_goals first
    | exact ⟨_, _, rfl, by decide⟩
    | exact ⟨_, _, rfl, hquote⟩

theorem toList_quoted (s : String) :
    (quoted s).toList = '"' :: (s.toList.flatMap escape ++ ['"']) := by
  simp [quoted, String.toList_append]

/-- A string's text ends at its closing quote. -/
theorem quoted_inj {s t : String} {rest rest' : List Char}
    (h : (quoted s).toList ++ rest = (quoted t).toList ++ rest') : s = t ∧ rest = rest' := by
  rw [toList_quoted, toList_quoted, List.cons_append, List.cons_append, List.append_assoc,
    List.append_assoc] at h
  obtain ⟨hsame, hrest⟩ := escape_prefixFree.flatMap escape_start (List.cons.inj h).2
  exact ⟨String.toList_inj.mp hsame, hrest⟩

end Strings

/-- What holds of the entries of an array and of the values of an object holds of them. -/
@[elab_as_elim]
theorem valueInduction {P : Json → Prop} (null : P .null) (bool : ∀ b, P (.bool b))
    (num : ∀ n, P (.num n)) (str : ∀ s, P (.str s))
    (arr : ∀ items, (∀ value ∈ items, P value) → P (.arr items))
    (obj : ∀ fields : Dict, (∀ field ∈ fields, P field.2) → P (.obj fields)) (value : Json) :
    P value := by
  refine @Json.rec P (fun items => ∀ value ∈ items, P value)
    (fun fields => ∀ field ∈ fields, P field.2) (fun field => P field.2) null bool num str arr obj
    ?_ ?_ ?_ ?_ ?_ value
  · nofun
  · intro head tail hhead htail
    exact List.forall_mem_cons.mpr ⟨hhead, htail⟩
  · nofun
  · intro head tail hhead htail
    exact List.forall_mem_cons.mpr ⟨hhead, htail⟩
  · intro name value h
    exact h

mutual
/-- The value with the fields of every object in the order of their names. -/
def sorted : Json → Json
  | .arr items => .arr (sortedItems items)
  | .obj fields => .obj ((sortedFields fields).insertionSort fun a b => a.1 ≤ b.1)
  | value => value

def sortedItems : List Json → List Json
  | [] => []
  | value :: rest => value.sorted :: sortedItems rest

def sortedFields : Dict → Dict
  | [] => []
  | (name, value) :: rest => (name, value.sorted) :: sortedFields rest
end

theorem sortedItems_eq_map (items : List Json) : sortedItems items = items.map sorted := by
  induction items with
  | nil => rfl
  | cons value rest ih => rw [sortedItems, ih, List.map_cons]

theorem sortedFields_eq_map (fields : Dict) :
    sortedFields fields = fields.map fun field => (field.1, field.2.sorted) := by
  induction fields with
  | nil => rfl
  | cons field rest ih => rw [sortedFields, ih, List.map_cons]

section Write
variable (number : PyFloat → String)

mutual
/-- The text of a value, its fields in the order in which they stand. -/
def write : Json → List Char
  | .null => "null".toList
  | .bool b => (if b then "true" else "false").toList
  | .num n => (number n).toList
  | .str s => (quoted s).toList
  | .arr items => '[' :: ([','].intercalate (writeItems items) ++ [']'])
  | .obj fields => '\x7b' :: ([','].intercalate (writeFields fields) ++ ['\x7d'])

def writeItems : List Json → List (List Char)
  | [] => []
  | value :: rest => write value :: writeItems rest

def writeFields : Dict → List (List Char)
  | [] => []
  | (name, value) :: rest => ((quoted name).toList ++ ':' :: write value) :: writeFields rest
end

def writeField (field : String × Json) : List Char :=
  (quoted field.1).toList ++ ':' :: write number field.2

theorem writeItems_eq_map (items : List Json) : writeItems number items = items.map (write number) := by
  induction items with
  | nil => rfl
  | cons value rest ih => rw [writeItems, ih, List.map_cons]

theorem writeFields_eq_map (fields : Dict) :
    writeFields number fields = fields.map (writeField number) := by
  induction fields with
  | nil => rfl
  | cons field rest ih =>
    rw [writeFields, ih, List.map_cons]
    rfl

theorem dumpsItems_eq_map (items : List Json) : dumpsItems number items = items.map (dumps number) := by
  induction items with
  | nil => rfl
  | cons value rest ih => rw [dumpsItems, ih, List.map_cons]

theorem dumpsFields_eq_map (fields : Dict) :
    dumpsFields number fields = fields.map fun field => (field.1, dumps number field.2) := by
  induction fields with
  | nil => rfl
  | cons field rest ih => rw [dumpsFields, ih, List.map_cons]

/-- What is dumped is the text of the sorted value. -/
theorem toList_dumps (value : Json) : (dumps number value).toList = write number value.sorted := by
  induction value using valueInduction with
  | null => rfl
  | bool b => cases b <;> rfl
  | num n => rfl
  | str s => rfl
  | arr items ih =>
    have hitems : (dumpsItems number items).map String.toList =
        writeItems number (sortedItems items) := by
      rw [dumpsItems_eq_map, writeItems_eq_map, sortedItems_eq_map, List.map_map, List.map_map]
      exact List.map_congr_left ih
    rw [sorted, write, ← hitems, dumps]
    simp [String.toList_append, String.toList_intercalate]
  | obj fields ih =>
    -- The order of the names is the same before and after the values are written.
    have hdumps := List.map_insertionSort (fun a b : String × Json => a.1 ≤ b.1)
      (fun a b : String × String => a.1 ≤ b.1)
      (fun field => (field.1, dumps number field.2)) fields fun _ _ _ _ => Iff.rfl
    have hwrites := List.map_insertionSort (fun a b : String × Json => a.1 ≤ b.1)
      (fun a b : String × Json => a.1 ≤ b.1)
      (fun field => (field.1, field.2.sorted)) fields fun _ _ _ _ => Iff.rfl
    have hfields : ((dumpsFields number fields).insertionSort fun a b => a.1 ≤ b.1).map
        (fun f => (quoted f.1 ++ ":" ++ f.2).toList) =
          writeFields number ((sortedFields fields).insertionSort fun a b => a.1 ≤ b.1) := by
      rw [dumpsFields_eq_map, writeFields_eq_map, sortedFields_eq_map, ← hdumps, ← hwrites,
        List.map_map, List.map_map]
      refine List.map_congr_left fun field hfield => ?_
      have hvalue := ih field ((List.mem_insertionSort _).mp hfield)
      simp [writeField, String.toList_append, hvalue]
    rw [sorted, write, ← hfields, dumps]
    simp [String.toList_append, String.toList_intercalate, Function.comp_def]

end Write

/-- The symbols that a number is written with, `NaN` and the infinities included. -/
def numberChar (c : Char) : Bool := c.isDigit || "-+.eEINafinty".toList.contains c

/-- The symbols that such a text begins with. -/
def numberLead (c : Char) : Bool := c.isDigit || c = '-' || c = 'I' || c = 'N'

/-- Numbers are written as `json.dumps` writes them, and each so that it can be read back. -/
structure NumberText (number : PyFloat → String) : Prop where
  injective : Function.Injective number
  lead : ∀ n, ∃ c text, (number n).toList = c :: text ∧ numberLead c = true
  chars : ∀ n, ∀ c ∈ (number n).toList, numberChar c = true

/-- Which kind of value a text begins, by its first character. -/
def leadKind (c : Char) : Nat :=
  if numberLead c then 0
  else if c = 'n' then 1
  else if c = 't' ∨ c = 'f' then 2
  else if c = '"' then 3
  else if c = '[' then 4
  else if c = '\x7b' then 5
  else 6

def kindIndex : Json → Nat
  | .num _ => 0
  | .null => 1
  | .bool _ => 2
  | .str _ => 3
  | .arr _ => 4
  | .obj _ => 5

section Unique
variable {number : PyFloat → String}

theorem write_start (h : NumberText number) (value : Json) :
    ∃ c text, write number value = c :: text ∧ leadKind c = value.kindIndex := by
  cases value with
  | null => exact ⟨_, _, rfl, by decide⟩
  | bool b => cases b <;> exact ⟨_, _, rfl, by decide⟩
  | num n =>
    obtain ⟨c, text, htext, hc⟩ := h.lead n
    exact ⟨c, text, htext, if_pos hc⟩
  | str s =>
    refine ⟨'"', s.toList.flatMap escape ++ ['"'], ?_, (by decide : leadKind '"' = 3)⟩
    rw [write, toList_quoted]
  | arr items => exact ⟨_, _, rfl, (by decide : leadKind '[' = 4)⟩
  | obj fields => exact ⟨_, _, rfl, (by decide : leadKind '\x7b' = 5)⟩

theorem write_start_ne (h : NumberText number) {stop : Char} (hstop : leadKind stop = 6)
    (value : Json) : ∃ c text, write number value = c :: text ∧ c ≠ stop := by
  obtain ⟨c, text, htext, hc⟩ := write_start h value
  refine ⟨c, text, htext, ?_⟩
  rintro rfl
  rw [hstop] at hc
  cases value <;> cases hc

theorem writeField_start (field : String × Json) :
    ∃ c text, writeField number field = c :: text ∧ c ≠ '\x7d' := by
  refine ⟨'"', field.1.toList.flatMap escape ++ ['"'] ++ ':' :: write number field.2, ?_, by decide⟩
  rw [writeField, toList_quoted, List.cons_append]

theorem writeField_told {field : String × Json}
    (h : ToldBefore numberChar (write number) field.2) :
    ToldBefore numberChar (writeField number) field := by
  intro other rest rest' hrest hrest' hsame
  unfold writeField at hsame
  rw [List.append_assoc, List.append_assoc] at hsame
  obtain ⟨hname, htail⟩ := quoted_inj hsame
  obtain ⟨hvalue, hrest⟩ := h other.2 rest rest' hrest hrest' (List.cons.inj htail).2
  exact ⟨Prod.ext hname hvalue, hrest⟩

theorem kindIndex_of_write (h : NumberText number) {value other : Json} {rest rest' : List Char}
    (hsame : write number value ++ rest = write number other ++ rest') :
    value.kindIndex = other.kindIndex := by
  obtain ⟨c, text, htext, hc⟩ := write_start h value
  obtain ⟨d, text', htext', hd⟩ := write_start h other
  rw [htext, htext'] at hsame
  rw [← hc, ← hd, (List.cons.inj hsame).1]

/-- A value's text can be told from any other's where no number goes on after it. -/
theorem write_told (h : NumberText number) (value : Json) :
    ToldBefore numberChar (write number) value := by
  induction value using valueInduction with
  | null =>
    intro other rest rest' _ _ hsame
    have hkind := kindIndex_of_write h hsame
    cases other with
    | null => exact ⟨rfl, List.append_cancel_left hsame⟩
    | _ => cases hkind
  | bool b =>
    intro other rest rest' _ _ hsame
    have hkind := kindIndex_of_write h hsame
    cases other with
    | bool b' =>
      cases b <;> cases b'
      · exact ⟨rfl, List.append_cancel_left hsame⟩
      · cases hsame
      · cases hsame
      · exact ⟨rfl, List.append_cancel_left hsame⟩
    | _ => cases hkind
  | num n =>
    intro other rest rest' hrest hrest' hsame
    have hkind := kindIndex_of_write h hsame
    cases other with
    | num n' =>
      obtain ⟨htext, hrest⟩ := append_inj_of_stops (h.chars n) (h.chars n') hrest hrest' hsame
      exact ⟨congrArg num (h.injective (String.toList_inj.mp htext)), hrest⟩
    | _ => cases hkind
  | str s =>
    intro other rest rest' _ _ hsame
    have hkind := kindIndex_of_write h hsame
    cases other with
    | str s' =>
      obtain ⟨rfl, hrest⟩ := quoted_inj hsame
      exact ⟨rfl, hrest⟩
    | _ => cases hkind
  | arr items ih =>
    intro other rest rest' _ _ hsame
    have hkind := kindIndex_of_write h hsame
    cases other with
    | arr items' =>
      rw [write, write, writeItems_eq_map, writeItems_eq_map, List.cons_append, List.cons_append,
        List.append_assoc, List.append_assoc] at hsame
      obtain ⟨rfl, hrest⟩ := separated_inj (by decide) (by decide) (by decide)
        (write_start_ne h (by decide)) ih (List.cons.inj hsame).2
      exact ⟨rfl, hrest⟩
    | _ => cases hkind
  | obj fields ih =>
    intro other rest rest' _ _ hsame
    have hkind := kindIndex_of_write h hsame
    cases other with
    | obj fields' =>
      rw [write, write, writeFields_eq_map, writeFields_eq_map, List.cons_append, List.cons_append,
        List.append_assoc, List.append_assoc] at hsame
      obtain ⟨rfl, hrest⟩ := separated_inj (by decide) (by decide) (by decide) writeField_start
        (fun field hfield => writeField_told (ih field hfield)) (List.cons.inj hsame).2
      exact ⟨rfl, hrest⟩
    | _ => cases hkind

/-- Two values are dumped alike if and only if they are the same but for the order of fields. -/
theorem dumps_inj (h : NumberText number) {value other : Json} :
    dumps number value = dumps number other ↔ value.sorted = other.sorted := by
  rw [← String.toList_inj, toList_dumps, toList_dumps]
  constructor
  · intro hsame
    exact (write_told h value.sorted other.sorted [] [] stops_nil stops_nil
      (congrArg (· ++ []) hsame)).1
  · intro hsame
    rw [hsame]

end Unique

end Leitstand.Json
