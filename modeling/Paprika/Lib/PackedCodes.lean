import Mathlib.Data.List.Basic

/-!
# Two-bit codes, four to a byte

An array of codes below four, packed into bytes: code `i` is in byte `i / 4`, at bit `2 * (i % 4)`.

* **`readCode_writeCode_self`**, **`readCode_writeCode_ne`** — what is written is read back, and nothing else changes;
* `readCode_replicate` — an array of zero bytes holds zeros.
-/

namespace Paprika.Lib.PackedCodes

/-- The place of code `i` in its byte. -/
def codeShift (i : Nat) : UInt8 := UInt8.ofNat (i % 4 * 2)

def codeIn (cell shift : UInt8) : UInt8 := (cell >>> shift) &&& 3

def withCode (cell shift code : UInt8) : UInt8 := (cell &&& ~~~((3 : UInt8) <<< shift)) ||| (code <<< shift)

/-- Code `i`; an index past the last byte reads zero. -/
def readCode (cells : List UInt8) (i : Nat) : UInt8 := codeIn (cells.getD (i / 4) 0) (codeShift i)

def writeCode (cells : List UInt8) (i : Nat) (code : UInt8) : List UInt8 :=
  cells.set (i / 4) (withCode (cells.getD (i / 4) 0) (codeShift i) code)

/-! ### One byte -/

theorem codeIn_or_and (cell m part shift : UInt8) :
    codeIn ((cell &&& m) ||| part) shift = ((cell >>> shift) &&& codeIn m shift) ||| codeIn part shift := by
  have hjoin : ∀ x y : UInt8, (x ||| y) &&& 3 = (x &&& 3) ||| (y &&& 3) := fun x y =>
    UInt8.toBitVec_inj.mp BitVec.and_or_distrib_right
  rw [codeIn, UInt8.shiftRight_or, UInt8.shiftRight_and, hjoin, UInt8.and_assoc]
  rfl

theorem codeIn_places : ∀ k k' c : Fin 4,
    codeIn (~~~((3 : UInt8) <<< UInt8.ofNat (k * 2))) (UInt8.ofNat (k' * 2)) = (if k = k' then 0 else 3) ∧
      codeIn (UInt8.ofNat c <<< UInt8.ofNat (k * 2)) (UInt8.ofNat (k' * 2)) = if k = k' then UInt8.ofNat c else 0 := by
  decide

theorem codeIn_withCode {cell code : UInt8} (i j : Nat) (hcode : code < 4) :
    codeIn (withCode cell (codeShift i) code) (codeShift j) =
      if i % 4 = j % 4 then code else codeIn cell (codeShift j) := by
  have hi : i % 4 < 4 := Nat.mod_lt i (by decide)
  have hj : j % 4 < 4 := Nat.mod_lt j (by decide)
  have hcode' : code.toNat < 4 := hcode
  obtain ⟨hclear, hwrote⟩ := codeIn_places ⟨i % 4, hi⟩ ⟨j % 4, hj⟩ ⟨code.toNat, hcode'⟩
  simp only [UInt8.ofNat_toNat, Fin.mk.injEq] at hclear hwrote
  rw [withCode, codeIn_or_and, codeShift, codeShift, hclear, hwrote]
  by_cases hplace : i % 4 = j % 4
  · simp only [if_pos hplace, UInt8.and_zero, UInt8.zero_or]
  · simp only [if_neg hplace, UInt8.or_zero]
    rfl

theorem codeIn_zero (i : Nat) : codeIn 0 (codeShift i) = 0 := by
  have h : ∀ k : Fin 4, codeIn 0 (UInt8.ofNat (k * 2)) = 0 := by decide
  exact h ⟨i % 4, Nat.mod_lt i (by decide)⟩

/-! ### The array -/

variable {cells : List UInt8} {i j : Nat} {code : UInt8}

@[simp] theorem length_writeCode : (writeCode cells i code).length = cells.length := List.length_set ..

theorem readCode_writeCode_self (hi : i / 4 < cells.length) (hcode : code < 4) :
    readCode (writeCode cells i code) i = code := by
  have hcell : (writeCode cells i code).getD (i / 4) 0 = withCode (cells.getD (i / 4) 0) (codeShift i) code := by
    show (cells.set (i / 4) _).getD (i / 4) 0 = _
    rw [List.getD_eq_getElem?_getD, List.getElem?_set_self hi]
    rfl
  show codeIn ((writeCode cells i code).getD (i / 4) 0) (codeShift i) = code
  rw [hcell, codeIn_withCode i i hcode, if_pos rfl]

theorem readCode_writeCode_ne (hne : i ≠ j) (hcode : code < 4) :
    readCode (writeCode cells i code) j = readCode cells j := by
  show codeIn ((cells.set (i / 4) _).getD (j / 4) 0) (codeShift j) = codeIn (cells.getD (j / 4) 0) (codeShift j)
  by_cases hbyte : i / 4 = j / 4
  · have hplace : i % 4 ≠ j % 4 := fun h => hne (by omega)
    by_cases hlen : i / 4 < cells.length
    · rw [← hbyte, List.getD_eq_getElem?_getD, List.getElem?_set_self hlen]
      show codeIn (withCode (cells.getD (i / 4) 0) (codeShift i) code) (codeShift j) = _
      rw [codeIn_withCode i j hcode, if_neg hplace]
    · rw [List.set_eq_of_length_le (Nat.le_of_not_lt hlen)]
  · rw [List.getD_eq_getElem?_getD, List.getElem?_set_ne hbyte, ← List.getD_eq_getElem?_getD]

@[simp] theorem readCode_replicate (n : Nat) : readCode (List.replicate n 0) i = 0 := by
  have hcell : (List.replicate n (0 : UInt8)).getD (i / 4) 0 = 0 := by
    rw [List.getD_eq_getElem?_getD, List.getElem?_replicate]
    by_cases h : i / 4 < n
    · simp [h]
    · simp [h]
  show codeIn ((List.replicate n 0).getD (i / 4) 0) (codeShift i) = 0
  rw [hcell, codeIn_zero]

end Paprika.Lib.PackedCodes
