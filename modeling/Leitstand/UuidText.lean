import Mathlib.Algebra.Group.Nat.Defs
import Mathlib.Data.List.Basic
import Leitstand.Uuid

namespace Leitstand.UUID

theorem hexValue_hexDigit : ∀ d < 16, hexValue (hexDigit d) = some d := by decide

theorem hexDigit_ne : ∀ d < 16, hexDigit d ∉ ['-', 'u', '{', '}', '_', '+', 'x', 'X'] := by decide

theorem toAscii_hexDigit : ∀ d < 16, toAscii (hexDigit d) = hexDigit d := by decide

theorem hexDigit_not_space : ∀ d < 16, isSpace (hexDigit d) = false := by decide

/-- The values of the `n` lowest hexadecimal digits of `x`, the highest first. -/
def digits (n x : Nat) : List Nat := (List.range n).map fun i => (x >>> (4 * (n - 1 - i))) % 16

theorem hex_eq (u : UUID) : hex u = (digits 32 u.toNat).map hexDigit := by
  unfold hex digits
  rw [List.map_map]
  rfl

theorem digits_lt {n x d : Nat} (h : d ∈ digits n x) : d < 16 := by
  obtain ⟨i, -, rfl⟩ := List.mem_map.mp h
  exact Nat.mod_lt _ (by decide)

theorem digits_succ (n x : Nat) : digits (n + 1) x = digits n (x / 16) ++ [x % 16] := by
  unfold digits
  rw [List.range_succ, List.map_append]
  congr 1
  · apply List.map_congr_left
    intro i hi
    have hi : i < n := List.mem_range.mp hi
    have hshift : 4 * (n + 1 - 1 - i) = 4 + 4 * (n - 1 - i) := by omega
    rw [hshift, Nat.shiftRight_add, Nat.shiftRight_eq_div_pow x 4]
  · simp

theorem foldl_digits (n x : Nat) : (digits n x).foldl (fun a d => 16 * a + d) 0 = x % 16 ^ n := by
  induction n generalizing x with
  | zero => simp [digits, Nat.mod_one]
  | succ n ih =>
    rw [digits_succ, List.foldl_append, ih, Nat.pow_succ, Nat.mul_comm (16 ^ n), Nat.mod_mul]
    simp only [List.foldl_cons, List.foldl_nil]
    omega

theorem hexDigits_map (ds : List Nat) (acc : Nat) (afterDigit : Bool) (hlt : ∀ d ∈ ds, d < 16)
    (hne : ds ≠ [] ∨ afterDigit = true) : hexDigits acc afterDigit (ds.map hexDigit) =
      some (ds.foldl (fun a d => 16 * a + d) acc) := by
  induction ds generalizing acc afterDigit with
  | nil => simp_all [hexDigits]
  | cons d ds ih =>
    have hd := hlt d List.mem_cons_self
    have hus : hexDigit d ≠ '_' := fun he => hexDigit_ne d hd (by simp [he])
    rw [List.map_cons, hexDigits, if_neg hus, hexValue_hexDigit d hd]
    exact ih _ true (fun e he => hlt e (List.mem_cons_of_mem d he)) (.inr rfl)

theorem without_of_not_mem {c : Char} {sub cs : List Char} (h : c ∉ cs) :
    without (c :: sub) 0 cs = cs := by
  induction cs with
  | nil => rfl
  | cons b cs ih =>
    rw [List.mem_cons, not_or] at h
    rw [without, if_neg (by simp [h.1]), ih h.2]

theorem dropWhile_of_forall {p : Char → Bool} {cs : List Char} (h : ∀ c ∈ cs, p c = false) :
    cs.dropWhile p = cs := by
  cases cs with
  | nil => rfl
  | cons c cs => rw [List.dropWhile_cons_of_neg (by simp [h c List.mem_cons_self])]

theorem strip_of_forall {p : Char → Bool} {cs : List Char} (h : ∀ c ∈ cs, p c = false) :
    strip p cs = cs := by
  unfold strip
  rw [dropWhile_of_forall h, dropWhile_of_forall fun c hc => h c (List.mem_reverse.mp hc),
    List.reverse_reverse]

theorem intBase16_digits {ds : List Nat} (hlt : ∀ d ∈ ds, d < 16) (hne : ds ≠ []) :
    intBase16 (ds.map hexDigit) = some (ds.foldl (fun a d => 16 * a + d) 0) := by
  have hmem : ∀ c ∈ ds.map hexDigit, ∃ d < 16, c = hexDigit d := by
    intro c hc
    obtain ⟨d, hd, rfl⟩ := List.mem_map.mp hc
    exact ⟨d, hlt d hd, rfl⟩
  have hno : ∀ c ∈ ds.map hexDigit, c ∉ ['-', 'u', '{', '}', '_', '+', 'x', 'X'] := by
    intro c hc
    obtain ⟨d, hd, rfl⟩ := hmem c hc
    exact hexDigit_ne d hd
  have hascii : (ds.map hexDigit).map toAscii = ds.map hexDigit := by
    rw [List.map_map]
    exact List.map_congr_left fun d hd => toAscii_hexDigit d (hlt d hd)
  rw [← hexDigits_map ds 0 false hlt (.inl hne)]
  unfold intBase16
  rw [hascii, strip_of_forall fun c hc => by
    obtain ⟨d, hd, rfl⟩ := hmem c hc
    exact hexDigit_not_space d hd]
  extract_lets body
  -- No sign and no base prefix stands before the digits.
  have hbody : body = ds.map hexDigit := by
    subst body
    split
    · rename_i rest he
      exact absurd (hno '+' (he ▸ List.mem_cons_self)) (by decide)
    · rfl
  rw [hbody]
  split
  · rename_i x rest he
    exact absurd (hno '_' (he ▸ by simp)) (by decide)
  · rename_i x rest _ he
    have hx := hno x (he ▸ by simp)
    rw [if_neg]
    rintro (rfl | rfl) <;> exact absurd hx (by decide)
  · rfl

theorem mem_hex {u : UUID} {c : Char} (h : c ∈ hex u) : ∃ d < 16, c = hexDigit d := by
  rw [hex_eq] at h
  obtain ⟨d, hd, rfl⟩ := List.mem_map.mp h
  exact ⟨d, digits_lt hd, rfl⟩

theorem toList_str (u : UUID) : u.str.toList = (hex u).take 8 ++ '-' :: (((hex u).drop 8).take 4 ++
    '-' :: (((hex u).drop 12).take 4 ++ '-' :: (((hex u).drop 16).take 4 ++
      '-' :: (hex u).drop 20))) := String.toList_ofList

theorem mem_str {u : UUID} {c : Char} (h : c ∈ u.str.toList) : c = '-' ∨ c ∈ hex u := by
  rw [toList_str] at h
  simp only [List.mem_append, List.mem_cons] at h
  have htake : ∀ {i j}, c ∈ ((hex u).drop i).take j → c ∈ hex u := fun hc =>
    List.mem_of_mem_drop (List.mem_of_mem_take hc)
  rcases h with h | h | h | h | h | h | h | h | h
  · exact .inr (List.mem_of_mem_take h)
  · exact .inl h
  · exact .inr (htake h)
  · exact .inl h
  · exact .inr (htake h)
  · exact .inl h
  · exact .inr (htake h)
  · exact .inl h
  · exact .inr (List.mem_of_mem_drop h)

/-- Without its dashes the text is the digits. -/
theorem filter_str (u : UUID) : u.str.toList.filter (· ≠ '-') = hex u := by
  have hkeep : ∀ cs : List Char, (∀ c ∈ cs, c ∈ hex u) → cs.filter (· ≠ '-') = cs := by
    intro cs h
    refine List.filter_eq_self.mpr fun c hc => ?_
    obtain ⟨d, hd, rfl⟩ := mem_hex (h c hc)
    have hne := hexDigit_ne d hd
    simp only [List.mem_cons, not_or] at hne
    exact decide_eq_true hne.1
  have htake : ∀ i j, (((hex u).drop i).take j).filter (· ≠ '-') = ((hex u).drop i).take j :=
    fun i j => hkeep _ fun c hc => List.mem_of_mem_drop (List.mem_of_mem_take hc)
  rw [toList_str]
  simp only [List.filter_append, List.filter_cons_of_neg (p := (· ≠ '-')) (a := '-') (by decide), htake,
    hkeep _ fun c hc => List.mem_of_mem_take hc, hkeep _ fun c hc => List.mem_of_mem_drop hc]
  have hsplit : ∀ i j, ((hex u).drop i).take j ++ (hex u).drop (i + j) = (hex u).drop i :=
    fun i j => by rw [← List.drop_drop, List.take_append_drop]
  rw [hsplit 16 4, hsplit 12 4, hsplit 8 4, List.take_append_drop]

/-- Reading back what was written gives the id. -/
theorem parse_str (u : UUID) : parse u.str = some u := by
  have hno : ∀ c ∈ u.str.toList, c ∉ ['u', '{', '}'] := by
    intro c hc
    obtain rfl | hc := mem_str hc
    · decide
    · obtain ⟨d, hd, rfl⟩ := mem_hex hc
      have hne := hexDigit_ne d hd
      simp_all
  have hu : 'u' ∉ u.str.toList := fun h => hno 'u' h (by decide)
  have hlength : (hex u).length = 32 := by simp [hex]
  unfold parse
  rw [show "urn:".toList = 'u' :: ['r', 'n', ':'] from rfl, without_of_not_mem hu,
    show "uuid:".toList = 'u' :: ['u', 'i', 'd', ':'] from rfl, without_of_not_mem hu]
  dsimp only
  rw [strip_of_forall fun c hc => by
    have hne := hno c hc
    simp_all]
  rw [filter_str, if_neg (not_not.mpr hlength), hex_eq,
    intBase16_digits (fun d hd => digits_lt hd) (by simp [digits]), foldl_digits, Option.map_some,
    Nat.mod_eq_of_lt (show u.toNat < 16 ^ 32 from u.isLt), BitVec.ofNat_toNat, BitVec.setWidth_eq]

theorem str_injective {u v : UUID} (h : u.str = v.str) : u = v := by
  have hu := parse_str u
  rw [h, parse_str v] at hu
  exact (Option.some.inj hu).symm

end Leitstand.UUID
