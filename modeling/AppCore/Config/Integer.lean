/-
  AppCore.Config.Integer

  The numbers in the `id` fields: `int(text, 0)` of Python, and the numbers CMake lets through
  and evaluates.  Python reads every number CMake reads, with the same value, and others too.
-/

import AppCore.Config.Text

namespace AppCore
namespace Config

/-- The value of a digit or a letter. -/
def digitValue (c : Char) : Option Nat :=
  if c.isDigit = true then some (c.toNat - 48)
  else if c.isLower = true then some (c.toNat - 87)
  else if c.isUpper = true then some (c.toNat - 55)
  else none

/-! ## `int(text, 0)` -/

/-- The zeros of the decimal digits of Unicode; nine other digits follow each. -/
def decimalZeros : List Nat :=
  [0x30, 0x660, 0x6f0, 0x7c0, 0x966, 0x9e6, 0xa66, 0xae6, 0xb66, 0xbe6, 0xc66, 0xce6, 0xd66,
    0xde6, 0xe50, 0xed0, 0xf20, 0x1040, 0x1090, 0x17e0, 0x1810, 0x1946, 0x19d0, 0x1a80, 0x1a90,
    0x1b50, 0x1bb0, 0x1c40, 0x1c50, 0xa620, 0xa8d0, 0xa900, 0xa9d0, 0xa9f0, 0xaa50, 0xabf0,
    0xff10, 0x104a0, 0x10d30, 0x11066, 0x110f0, 0x11136, 0x111d0, 0x112f0, 0x11450, 0x114d0,
    0x11650, 0x116c0, 0x11730, 0x118e0, 0x11950, 0x11c50, 0x11d50, 0x11da0, 0x16a60, 0x16ac0,
    0x16b50, 0x1d7ce, 0x1d7d8, 0x1d7e2, 0x1d7ec, 0x1d7f6, 0x1e140, 0x1e2f0, 0x1e950, 0x1fbf0]

/-- A decimal digit as an ASCII digit. -/
def asciiDigit (c : Char) : Char :=
  if c.toNat < 0x80 then c
  else match decimalZeros.find? fun start => start ≤ c.toNat ∧ c.toNat < start + 10 with
    | some start => Char.ofNat (0x30 + (c.toNat - start))
    | none => c

/-- Digits of a base with single underscores between them.  `ended` says that a digit was read
    last, so that the number may end or an underscore may follow. -/
def pyDigits (base : Nat) : Text → Nat → Bool → Option Nat
  | [], acc, ended => if ended = true then some acc else none
  | c :: t, acc, ended =>
    if c = '_' then if ended = true then pyDigits base t acc false else none
    else match digitValue c with
      | some d => if d < base then pyDigits base t (acc * base + d) true else none
      | none => none

/-- The base of the letter behind a leading zero. -/
def prefixBase (c : Char) : Option Nat :=
  if c = 'x' ∨ c = 'X' then some 16
  else if c = 'o' ∨ c = 'O' then some 8
  else if c = 'b' ∨ c = 'B' then some 2
  else none

/-- A number without its sign.  Behind the letter of a base there may be an underscore; a
    decimal number starts with a zero only if it is zero. -/
def pyMagnitude (t : Text) : Option Nat :=
  if t.head? = some '0' then
    match t.tail.head?.bind prefixBase with
    | some base =>
        pyDigits base (if (t.drop 2).head? = some '_' then t.drop 3 else t.drop 2) 0 false
    | none => (pyDigits 10 t 0 false).filter (· = 0)
  else pyDigits 10 t 0 false

/-- `int(text, 0)`, or `none` for a `ValueError`. -/
def pyInt (t : Text) : Option Int :=
  let t := (pyStrip t).map asciiDigit
  if t.head? = some '+' then (pyMagnitude t.tail).map fun n => (n : Int)
  else if t.head? = some '-' then (pyMagnitude t.tail).map fun n => -(n : Int)
  else (pyMagnitude t).map fun n => (n : Int)

/-! ## The numbers of CMake -/

/-- `[0-9A-Fa-f]`. -/
def hexChar (c : Char) : Bool := c.isDigit || ('A' ≤ c && c ≤ 'F') || ('a' ≤ c && c ≤ 'f')

/-- `0[xX]` at the start. -/
def hexPrefix (t : Text) : Bool :=
  t.head? = some '0' && (t.tail.head? = some 'x' || t.tail.head? = some 'X')

/-- `^(0[xX][0-9A-Fa-f]+|[1-9][0-9]*)$`. -/
def isCmakeId (t : Text) : Bool :=
  (hexPrefix t && t.drop 2 ≠ [] && (t.drop 2).all hexChar) ||
    (t ≠ [] && t.head? ≠ some '0' && t.all Char.isDigit)

/-- The value of digits. -/
def digitsValue (base : Nat) (t : Text) : Nat :=
  t.foldl (fun acc c => acc * base + (digitValue c).getD 0) 0

/-- The number of an identifier. -/
def cmakeNumber (t : Text) : Nat :=
  if hexPrefix t = true then digitsValue 16 (t.drop 2) else digitsValue 10 t

/-- `math(EXPR)` of an identifier, or `none` if the number is out of the range of 64 bits. -/
def mathExpr (t : Text) : Option Nat :=
  if cmakeNumber t < 2 ^ 63 then some (cmakeNumber t) else none

/-! ## Python reads what CMake reads -/

section Agreement

variable {t : Text} {c : Char} {base acc : Nat} {ended : Bool}

/-- What is to be known about each ASCII character is checked one by one. -/
theorem forall_ascii (P : Char → Prop) (h : ∀ n < 128, P (Char.ofNat n))
    (hc : c.toNat < 128) : P c := by
  have := h c.toNat hc
  rwa [Char.ofNat_toNat] at this

theorem lt_of_hexChar (h : hexChar c = true) : c.toNat < 128 := by
  simp only [hexChar, Char.isDigit, Bool.or_eq_true, Bool.and_eq_true, decide_eq_true_eq,
    Char.le_def, UInt32.le_iff_toNat_le, ge_iff_le] at h
  have : c.toNat = c.val.toNat := rfl
  have : 'F'.val.toNat = 70 := rfl
  have : 'f'.val.toNat = 102 := rfl
  have : '9'.val.toNat = 57 := rfl
  omega

theorem hexChar_of_isDigit (h : c.isDigit = true) : hexChar c = true := by
  rw [hexChar, h]
  rfl

theorem digit_of_hexChar (h : hexChar c = true) : ∃ d, digitValue c = some d ∧ d < 16 := by
  obtain ⟨hsome, hlt⟩ := forall_ascii
    (fun c => hexChar c = true → (digitValue c).isSome ∧ (digitValue c).getD 0 < 16)
    (by decide) (lt_of_hexChar h) h
  obtain ⟨d, hd⟩ := Option.isSome_iff_exists.mp hsome
  rw [hd] at hlt
  exact ⟨d, hd, hlt⟩

theorem digit_of_isDigit (h : c.isDigit = true) : ∃ d, digitValue c = some d ∧ d < 10 := by
  obtain ⟨hsome, hlt⟩ := forall_ascii
    (fun c => c.isDigit = true → (digitValue c).isSome ∧ (digitValue c).getD 0 < 10)
    (by decide) (lt_of_hexChar (hexChar_of_isDigit h)) h
  obtain ⟨d, hd⟩ := Option.isSome_iff_exists.mp hsome
  rw [hd] at hlt
  exact ⟨d, hd, hlt⟩

/-- Digits without underscores are read with their value. -/
theorem pyDigits_eq (hdigits : ∀ c ∈ t, ∃ d, digitValue c = some d ∧ d < base)
    (hne : t ≠ [] ∨ ended = true) :
    pyDigits base t acc ended =
      some (t.foldl (fun acc c => acc * base + (digitValue c).getD 0) acc) := by
  induction t generalizing acc ended with
  | nil =>
      rcases hne with hne | hended
      · exact absurd rfl hne
      · exact if_pos hended
  | cons c t ih =>
      obtain ⟨d, hd, hlt⟩ := hdigits c List.mem_cons_self
      have hc : c ≠ '_' := by
        rintro rfl
        cases hd
      rw [pyDigits, if_neg hc, List.foldl_cons, hd]
      show (if d < base then pyDigits base t (acc * base + d) true else none) = _
      rw [if_pos hlt]
      exact ih (fun c hc => hdigits c (List.mem_cons_of_mem _ hc)) (Or.inr rfl)

/-- The characters of an identifier of CMake. -/
theorem idChar_of_mem (h : isCmakeId t = true) (hc : c ∈ t) :
    hexChar c = true ∨ c = 'x' ∨ c = 'X' := by
  unfold isCmakeId at h
  rcases Bool.or_eq_true_iff.mp h with h | h
  · simp only [hexPrefix, Bool.and_eq_true, Bool.or_eq_true, decide_eq_true_eq] at h
    obtain ⟨⟨⟨hzero, hx⟩, _⟩, hall⟩ := h
    cases t with
    | nil => cases hc
    | cons a t =>
        cases t with
        | nil => rcases hx with hx | hx <;> cases hx
        | cons b t =>
            rcases List.mem_cons.mp hc with rfl | hc
            · obtain rfl := Option.some.inj hzero
              exact Or.inl rfl
            rcases List.mem_cons.mp hc with rfl | hc
            · exact Or.inr (hx.imp Option.some.inj Option.some.inj)
            · exact Or.inl (List.all_eq_true.mp hall c hc)
  · simp only [Bool.and_eq_true] at h
    exact Or.inl (hexChar_of_isDigit (List.all_eq_true.mp h.2 c hc))

/-- None of them is a space, a sign or a digit outside of ASCII. -/
theorem plain_of_idChar (h : hexChar c = true ∨ c = 'x' ∨ c = 'X') :
    asciiDigit c = c ∧ pySpace c = false ∧ c ≠ '+' ∧ c ≠ '-' ∧ c ≠ '_' := by
  rcases h with h | rfl | rfl
  · refine ⟨if_pos (lt_of_hexChar h), ?_⟩
    exact forall_ascii
      (fun c => hexChar c = true → pySpace c = false ∧ c ≠ '+' ∧ c ≠ '-' ∧ c ≠ '_')
      (by decide) (lt_of_hexChar h) h
  · decide
  · decide

/-- A number of CMake without spaces, signs and underscores is read by Python. -/
theorem pyMagnitude_of_isCmakeId (h : isCmakeId t = true) :
    pyMagnitude t = some (cmakeNumber t) := by
  unfold isCmakeId at h
  rcases Bool.or_eq_true_iff.mp h with h | h
  · -- behind `0x`
    obtain ⟨⟨hhex, hne⟩, hall⟩ : (hexPrefix t = true ∧ t.drop 2 ≠ []) ∧
        (t.drop 2).all hexChar = true := by simpa using h
    have hchars : ∀ c ∈ t.drop 2, hexChar c = true := List.all_eq_true.mp hall
    have hunderscore : (t.drop 2).head? ≠ some '_' := by
      intro hhead
      have hmem := hchars '_' (List.mem_of_head? hhead)
      cases hmem
    obtain ⟨hzero, hx⟩ : t.head? = some '0' ∧
        (t.tail.head? = some 'x' ∨ t.tail.head? = some 'X') := by
      simpa [hexPrefix] using hhex
    have hbase : t.tail.head?.bind prefixBase = some 16 := by
      rcases hx with hx | hx
      · rw [hx]
        rfl
      · rw [hx]
        rfl
    unfold pyMagnitude
    rw [if_pos hzero, hbase]
    show pyDigits 16 (if (t.drop 2).head? = some '_' then t.drop 3 else t.drop 2) 0 false = _
    rw [if_neg hunderscore, cmakeNumber, if_pos hhex]
    exact pyDigits_eq (fun c hc => digit_of_hexChar (hchars c hc)) (Or.inl hne)
  · obtain ⟨⟨hne, hzero⟩, hall⟩ : (t ≠ [] ∧ t.head? ≠ some '0') ∧
        t.all Char.isDigit = true := by simpa using h
    have hhex : ¬ hexPrefix t = true := by
      simp only [hexPrefix, Bool.and_eq_true, decide_eq_true_eq]
      exact fun h => hzero h.1
    unfold pyMagnitude
    rw [if_neg hzero, cmakeNumber, if_neg hhex]
    exact pyDigits_eq (fun c hc => digit_of_isDigit (List.all_eq_true.mp hall c hc)) (Or.inl hne)

/-- `int(text, 0)` of an identifier of CMake. -/
theorem pyInt_of_isCmakeId (h : isCmakeId t = true) : pyInt t = some (cmakeNumber t : Int) := by
  have hplain : ∀ c ∈ t, _ := fun c hc => plain_of_idChar (idChar_of_mem h hc)
  have hstrip : pyStrip t = t := by
    apply stripBy_eq_self
    · exact fun c hc => (hplain c (List.mem_of_head? hc)).2.1
    · exact fun c hc => (hplain c (List.mem_of_getLast? hc)).2.1
  have hmap : t.map asciiDigit = t := by
    exact (List.map_congr_left fun c hc => (hplain c hc).1).trans (List.map_id t)
  have hplus : t.head? ≠ some '+' := fun hhead => (hplain _ (List.mem_of_head? hhead)).2.2.1 rfl
  have hminus : t.head? ≠ some '-' :=
    fun hhead => (hplain _ (List.mem_of_head? hhead)).2.2.2.1 rfl
  unfold pyInt
  dsimp only
  rw [hstrip, hmap, if_neg hplus, if_neg hminus, pyMagnitude_of_isCmakeId h]
  rfl

end Agreement

end Config
end AppCore
