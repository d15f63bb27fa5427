import Mathlib.Logic.Function.Iterate
import RaptorFec.Library.Bytes

/-!
# Cyclic redundancy checks

A reflected CRC of `w` bits: bytes enter the register at its low end, and for each of their bits the
register is shifted right and the polynomial is added when a one falls out.

* `crcShift`, `crcByte`, `crcBytes` — the register after one shift, one byte, a byte string;
* `crcShift_xor`, `crcShift_injective` — a shift is linear, and injective when the polynomial has
  its top bit;
* `crcBytes_eq_iterate` — as many bytes as fit in the register act like one word that is added to
  it before all the shifts;
* `crcBytes_burst` — byte strings that differ only within a window that fits in the register have
  different checks;
* `DiffersWithin` — byte strings that differ only within a window, and where the window lies in
  their parts.
-/

namespace RaptorFec

variable {w : ℕ}

/-- One shift of the register. -/
def crcShift (poly x : BitVec w) : BitVec w := (x >>> 1) ^^^ if x.getLsbD 0 then poly else 0#w

/-- The register takes in a byte. -/
def crcByte (poly x : BitVec w) (byte : UInt8) : BitVec w :=
  (crcShift poly)^[8] (x ^^^ byte.toBitVec.setWidth w)

/-- The register takes in a byte string. -/
def crcBytes (poly x : BitVec w) (bytes : Bytes) : BitVec w := bytes.foldl (crcByte poly) x

variable (poly : BitVec w)

lemma crcBytes_append (x : BitVec w) (front back : Bytes) :
    crcBytes poly x (front ++ back) = crcBytes poly (crcBytes poly x front) back :=
  List.foldl_append

/-! ## Shifts -/

/-- **A shift is linear.** -/
theorem crcShift_xor (x y : BitVec w) :
    crcShift poly (x ^^^ y) = crcShift poly x ^^^ crcShift poly y := by
  have hcancel : ∀ a b : BitVec w, a ^^^ b = (a ^^^ poly) ^^^ (b ^^^ poly) := fun a b => by
    rw [BitVec.xor_assoc, BitVec.xor_comm b poly, ← BitVec.xor_assoc poly, BitVec.xor_self,
      BitVec.zero_xor]
  simp only [crcShift, BitVec.getLsbD_xor, BitVec.ushiftRight_xor_distrib]
  cases hx : x.getLsbD 0 <;> cases hy : y.getLsbD 0
  · simp
  · simp [BitVec.xor_assoc]
  · simp only [Bool.xor_false, if_true, Bool.false_eq_true, if_false, BitVec.xor_zero]
    rw [BitVec.xor_assoc, BitVec.xor_assoc, BitVec.xor_comm poly]
  · simpa using hcancel _ _

lemma crcShift_iterate_xor (n : ℕ) (x y : BitVec w) :
    (crcShift poly)^[n] (x ^^^ y) = (crcShift poly)^[n] x ^^^ (crcShift poly)^[n] y := by
  induction n generalizing x y with
  | zero => rfl
  | succ n ih => simp only [Function.iterate_succ_apply, crcShift_xor, ih]

/-- What was shifted left comes back, when nothing falls out. -/
lemma crcShift_shiftLeft {x : BitVec w} (h : 2 * x.toNat < 2 ^ w) :
    crcShift poly (x <<< 1) = x := by
  have hlow : (x <<< 1).getLsbD 0 = false := by simp
  have hback : ((x <<< 1) >>> 1).toNat = x.toNat := by
    rw [BitVec.toNat_ushiftRight, BitVec.toNat_shiftLeft, Nat.shiftLeft_eq, Nat.shiftRight_eq_div_pow,
      Nat.mod_eq_of_lt (by omega)]
    omega
  rw [crcShift, hlow, if_neg (by simp), BitVec.xor_zero]
  exact BitVec.eq_of_toNat_eq hback

lemma crcShift_iterate_shiftLeft {n : ℕ} {x : BitVec w} (h : 2 ^ n * x.toNat < 2 ^ w) :
    (crcShift poly)^[n] (x <<< n) = x := by
  induction n with
  | zero => simp
  | succ n ih =>
      rw [Nat.pow_succ, Nat.mul_assoc] at h
      have hle : 2 ^ n * x.toNat ≤ 2 ^ n * (2 * x.toNat) := Nat.mul_le_mul_left _ (by omega)
      have hfit : 2 * (x <<< n).toNat < 2 ^ w := by
        rw [BitVec.toNat_shiftLeft, Nat.shiftLeft_eq, Nat.mul_comm x.toNat,
          Nat.mod_eq_of_lt (Nat.lt_of_le_of_lt hle h), Nat.mul_left_comm]
        exact h
      rw [Function.iterate_succ_apply, BitVec.shiftLeft_add, crcShift_shiftLeft poly hfit]
      exact ih (Nat.lt_of_le_of_lt hle h)

variable {poly}

/-- **A shift is injective** when the polynomial has its top bit. -/
theorem crcShift_injective (h : poly.msb = true) : Function.Injective (crcShift poly) := by
  -- a register that becomes zero had nothing to add, and was zero
  have hzero : ∀ x : BitVec w, crcShift poly x = 0#w → x = 0#w := by
    intro x hx
    have hmsb := congrArg BitVec.msb hx
    have hlow : x.getLsbD 0 = false := by
      cases hbit : x.getLsbD 0 with
      | false => rfl
      | true =>
          rw [crcShift, hbit, if_pos rfl] at hmsb
          simp [BitVec.msb_ushiftRight, h] at hmsb
    rw [crcShift, hlow, if_neg (by simp), BitVec.xor_zero] at hx
    refine BitVec.eq_of_getLsbD_eq fun i hi => ?_
    cases i with
    | zero => simpa using hlow
    | succ i =>
        have hbit := congrArg (fun y : BitVec w => y.getLsbD i) hx
        rw [Nat.add_comm]
        simpa using hbit
  intro x y hxy
  have hdiff : crcShift poly (x ^^^ y) = 0#w := by
    rw [crcShift_xor, hxy, BitVec.xor_self]
  exact BitVec.xor_eq_zero_iff.mp (hzero _ hdiff)

/-! ## Bytes -/

/-- The word of some bytes, lowest byte first. -/
def wordOf (w : ℕ) (bytes : Bytes) : BitVec w := BitVec.ofNat w (ofLeBytes bytes)

lemma wordOf_cons (byte : UInt8) (bytes : Bytes) :
    wordOf w (byte :: bytes) = byte.toBitVec.setWidth w ^^^ (wordOf w bytes <<< 8) := by
  refine BitVec.eq_of_getLsbD_eq fun i hi => ?_
  have hlt : byte.toNat < 2 ^ 8 := byte.toNat_lt
  rw [wordOf, ofLeBytes, Nat.add_comm, BitVec.getLsbD_ofNat,
    show (256 : ℕ) = 2 ^ 8 from rfl, Nat.testBit_two_pow_mul_add _ hlt]
  simp only [hi, decide_true, Bool.true_and, BitVec.getLsbD_xor, BitVec.getLsbD_setWidth,
    BitVec.getLsbD_shiftLeft, wordOf, BitVec.getLsbD_ofNat]
  by_cases hlow : i < 8
  · simp [hlow, ← UInt8.toNat_toBitVec, BitVec.testBit_toNat]
  · have hhigh : byte.toBitVec.getLsbD i = false := BitVec.getLsbD_of_ge _ _ (Nat.not_lt.mp hlow)
    have hi' : i - 8 < w := Nat.lt_of_le_of_lt (Nat.sub_le i 8) hi
    simp [hlow, hhigh, hi']

/-- **Bytes that fit in the register** act like one word that is added before all the shifts. -/
theorem crcBytes_eq_iterate (poly x : BitVec w) {bytes : Bytes} (h : 8 * bytes.length ≤ w) :
    crcBytes poly x bytes = (crcShift poly)^[8 * bytes.length] (x ^^^ wordOf w bytes) := by
  induction bytes generalizing x with
  | nil => simp [crcBytes, wordOf, ofLeBytes]
  | cons byte bytes ih =>
      rw [List.length_cons] at h ⊢
      have hlt : ofLeBytes bytes < 2 ^ (8 * bytes.length) := by
        rw [Nat.pow_mul]
        exact ofLeBytes_lt bytes
      have hfit : 2 ^ 8 * (wordOf w bytes).toNat < 2 ^ w := by
        have hmod : ofLeBytes bytes % 2 ^ w ≤ ofLeBytes bytes := Nat.mod_le _ _
        have hpow : 2 ^ (8 * bytes.length + 8) ≤ 2 ^ w := Nat.pow_le_pow_right (by omega) (by omega)
        rw [Nat.pow_add] at hpow
        rw [wordOf, BitVec.toNat_ofNat]
        omega
      have hback : (crcShift poly)^[8] (wordOf w bytes <<< 8) = wordOf w bytes :=
        crcShift_iterate_shiftLeft poly hfit
      calc crcBytes poly x (byte :: bytes)
          = (crcShift poly)^[8 * bytes.length] (crcByte poly x byte ^^^ wordOf w bytes) :=
            ih _ (by omega)
        _ = (crcShift poly)^[8 * bytes.length] ((crcShift poly)^[8]
              (x ^^^ byte.toBitVec.setWidth w) ^^^ (crcShift poly)^[8] (wordOf w bytes <<< 8)) := by
            rw [hback, crcByte]
        _ = (crcShift poly)^[8 * (bytes.length + 1)] (x ^^^ wordOf w (byte :: bytes)) := by
            rw [← crcShift_iterate_xor, ← Function.iterate_add_apply, wordOf_cons,
              BitVec.xor_assoc, Nat.mul_add, Nat.mul_one]

lemma wordOf_injective {bytes bytes' : Bytes} (hlength : bytes.length = bytes'.length)
    (hfit : 8 * bytes.length ≤ w) (h : wordOf w bytes = wordOf w bytes') : bytes = bytes' := by
  have hlt : ∀ bs : Bytes, 8 * bs.length ≤ w → (wordOf w bs).toNat = ofLeBytes bs := by
    intro bs hbs
    rw [wordOf, BitVec.toNat_ofNat]
    refine Nat.mod_eq_of_lt (Nat.lt_of_lt_of_le (ofLeBytes_lt bs) ?_)
    rw [show 256 = 2 ^ 8 from rfl, ← Nat.pow_mul]
    exact Nat.pow_le_pow_right (by omega) hbs
  have hnat := congrArg BitVec.toNat h
  rw [hlt bytes hfit, hlt bytes' (hlength ▸ hfit)] at hnat
  rw [← leBytes_ofLeBytes bytes, ← leBytes_ofLeBytes bytes', hlength, hnat]

section Burst

variable (hpoly : poly.msb = true)

include hpoly

lemma crcByte_injective (byte : UInt8) : Function.Injective fun x => crcByte poly x byte := by
  intro x y hxy
  exact (BitVec.xor_left_inj _).mp ((crcShift_injective hpoly).iterate 8 hxy)

lemma crcBytes_injective (bytes : Bytes) : Function.Injective fun x => crcBytes poly x bytes := by
  induction bytes with
  | nil => exact fun x y hxy => hxy
  | cons byte bytes ih => exact fun x y hxy => crcByte_injective hpoly byte (ih hxy)

/-- **Bursts are detected**: byte strings that agree outside a window that fits in the register
have the same check only when they are the same. -/
theorem crcBytes_burst {x : BitVec w} {front window window' back : Bytes}
    (hlength : window.length = window'.length) (hfit : 8 * window.length ≤ w)
    (h : crcBytes poly x (front ++ window ++ back) = crcBytes poly x (front ++ window' ++ back)) :
    window = window' := by
  obtain ⟨y, hy⟩ : ∃ y, crcBytes poly x front = y := ⟨_, rfl⟩
  simp only [crcBytes_append, hy] at h
  have hwindow : crcBytes poly y window = crcBytes poly y window' := crcBytes_injective hpoly back h
  rw [crcBytes_eq_iterate _ _ hfit, crcBytes_eq_iterate _ _ (hlength ▸ hfit), hlength] at hwindow
  have hword := (crcShift_injective hpoly).iterate _ hwindow
  exact wordOf_injective hlength hfit ((BitVec.xor_right_inj _).mp hword)

end Burst

/-! ## Windows -/

/-- Strings of one length that agree outside the `n` bytes from `start` on. -/
structure DiffersWithin (start n : ℕ) (bytes other : Bytes) : Prop where
  length_eq : bytes.length = other.length
  front : bytes.take start = other.take start
  back : bytes.drop (start + n) = other.drop (start + n)

/-- A string with another byte at one place. -/
lemma differsWithin_set (bytes : Bytes) (i : ℕ) (byte : UInt8) :
    DiffersWithin i 1 bytes (bytes.set i byte) where
  length_eq := (List.length_set ..).symm
  front := by
    rw [List.take_set, List.set_eq_of_length_le (List.length_take_le _ _)]
  back := by
    rw [List.drop_set_of_lt (Nat.lt_succ_self i)]

namespace DiffersWithin

variable {start n : ℕ} {bytes other part part' rest rest' : Bytes}

/-- The strings, cut at the ends of the window. -/
lemma split (h : DiffersWithin start n bytes other) :
    ∃ front window window' back, bytes = front ++ window ++ back ∧
      other = front ++ window' ++ back ∧ window.length = window'.length ∧ window.length ≤ n := by
  have hcut : ∀ xs : Bytes,
      xs = xs.take start ++ (xs.drop start).take n ++ xs.drop (start + n) := fun xs => by
    rw [List.append_assoc, ← List.drop_drop, List.take_append_drop, List.take_append_drop]
  refine ⟨bytes.take start, (bytes.drop start).take n, (other.drop start).take n,
    bytes.drop (start + n), hcut bytes, ?_, ?_, List.length_take_le _ _⟩
  · rw [h.front, h.back]
    exact hcut other
  · rw [List.length_take, List.length_take, List.length_drop, List.length_drop, h.length_eq]

/-- A window that ends before the second parts of two strings. -/
lemma left (h : DiffersWithin start n (part ++ rest) (part' ++ rest'))
    (hlength : part.length = part'.length) (hend : start + n ≤ part.length) :
    DiffersWithin start n part part' ∧ rest = rest' := by
  have hend' : start + n ≤ part'.length := hlength ▸ hend
  have hback := h.back
  rw [List.drop_append_of_le_length hend, List.drop_append_of_le_length hend'] at hback
  obtain ⟨hdrop, hrest⟩ := List.append_inj hback (by simp [hlength])
  have hfront := h.front
  rw [List.take_append_of_le_length (by omega), List.take_append_of_le_length (by omega)] at hfront
  exact ⟨⟨hlength, hfront, hdrop⟩, hrest⟩

/-- A window that starts behind the first parts of two strings. -/
lemma right (h : DiffersWithin start n (part ++ rest) (part' ++ rest'))
    (hlength : part.length = part'.length) (hstart : part.length ≤ start) :
    part = part' ∧ DiffersWithin (start - part.length) n rest rest' := by
  have hfront := h.front
  have htake : part.take start = part := List.take_of_length_le hstart
  have htake' : part'.take start = part' := List.take_of_length_le (hlength ▸ hstart)
  rw [List.take_append, List.take_append, htake, htake'] at hfront
  obtain ⟨rfl, hrest⟩ := List.append_inj hfront hlength
  have hback := h.back
  have hdrop : part.drop (start + n) = [] := List.drop_eq_nil_of_le (by omega)
  rw [List.drop_append, List.drop_append, hdrop, List.nil_append, List.nil_append] at hback
  refine ⟨rfl, by simpa using h.length_eq, hrest, ?_⟩
  rwa [show start - part.length + n = start + n - part.length by omega]

/-- The window in longer strings. -/
lemma append (h : DiffersWithin start n bytes other) (front back : Bytes) :
    DiffersWithin (front.length + start) n (front ++ bytes ++ back) (front ++ other ++ back) where
  length_eq := by simp [h.length_eq]
  front := by
    rw [List.append_assoc, List.append_assoc, List.take_length_add_append,
      List.take_length_add_append, List.take_append, List.take_append, h.front, h.length_eq]
  back := by
    rw [List.append_assoc, List.append_assoc, Nat.add_assoc, List.drop_length_add_append,
      List.drop_length_add_append, List.drop_append, List.drop_append, h.back, h.length_eq]

end DiffersWithin

end RaptorFec
