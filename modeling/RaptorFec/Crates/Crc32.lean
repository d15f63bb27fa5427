import RaptorFec.Crates.Repetition
import RaptorFec.Library.Crc

/-!
# CRC-32

The bit by bit reference of the checksum, and what follows from it.

* `referenceUpdate` — the reference;
* `referenceUpdate_append` — a checksum can be continued;
* `referenceUpdate_burst` — byte strings that differ only within four consecutive bytes have
  different checksums;
* `crc32Reference_eq` — the byte by byte computation agrees with the reference.
-/

namespace RaptorFec

/-- One turn of the inner loop of the reference. -/
def referenceStep (crc : UInt32) : UInt32 :=
  let mask := -(crc &&& 1)
  (crc >>> 1) ^^^ (0xEDB88320 &&& mask)

/-- One turn of the outer loop. -/
def referenceByte (crc : UInt32) (byte : UInt8) : UInt32 := referenceStep^[8] (crc ^^^ byte.toUInt32)

/-- `reference_update`. -/
def referenceUpdate (previous : UInt32) (bytes : Bytes) : UInt32 :=
  ~~~ bytes.foldl referenceByte (~~~ previous)

/-- The polynomial of CRC-32, reflected. -/
def crc32Polynomial : BitVec 32 := 0xEDB88320#32

/-- A checksum can be continued. -/
lemma referenceUpdate_append (previous : UInt32) (front back : Bytes) :
    referenceUpdate (referenceUpdate previous front) back
      = referenceUpdate previous (front ++ back) := by
  rw [referenceUpdate, referenceUpdate, referenceUpdate, UInt32.not_not, List.foldl_append]

lemma toBitVec_referenceStep (crc : UInt32) :
    (referenceStep crc).toBitVec = crcShift crc32Polynomial crc.toBitVec := by
  have hlow : (crc &&& 1).toBitVec = BitVec.setWidth 32 (BitVec.ofBool (crc.toBitVec.getLsbD 0)) :=
    BitVec.and_one_eq_setWidth_ofBool_getLsbD
  have hmask : (-(crc &&& 1)).toBitVec = -(crc &&& 1).toBitVec := rfl
  rw [referenceStep, crcShift]
  simp only [UInt32.toBitVec_xor, UInt32.toBitVec_and, hmask, hlow]
  cases crc.toBitVec.getLsbD 0 <;> rfl

lemma toBitVec_referenceByte (crc : UInt32) (byte : UInt8) :
    (referenceByte crc byte).toBitVec = crcByte crc32Polynomial crc.toBitVec byte := by
  have hiterate : ∀ n (x : UInt32),
      (referenceStep^[n] x).toBitVec = (crcShift crc32Polynomial)^[n] x.toBitVec := by
    intro n
    induction n with
    | zero => exact fun x => rfl
    | succ n ih =>
        intro x
        rw [Function.iterate_succ_apply, Function.iterate_succ_apply, ih, toBitVec_referenceStep]
  exact hiterate 8 _

lemma toBitVec_foldl_referenceByte (bytes : Bytes) (crc : UInt32) :
    (bytes.foldl referenceByte crc).toBitVec = crcBytes crc32Polynomial crc.toBitVec bytes := by
  induction bytes generalizing crc with
  | nil => rfl
  | cons byte bytes ih =>
      rw [List.foldl_cons, ih, toBitVec_referenceByte]
      rfl

/-- **Bursts of up to four bytes are detected.** -/
theorem referenceUpdate_burst {previous : UInt32} {front window window' back : Bytes}
    (hlength : window.length = window'.length) (hshort : window.length ≤ 4)
    (h : referenceUpdate previous (front ++ window ++ back)
      = referenceUpdate previous (front ++ window' ++ back)) : window = window' := by
  have hcrc := congrArg UInt32.toBitVec (UInt32.not_inj.mp h)
  rw [toBitVec_foldl_referenceByte, toBitVec_foldl_referenceByte] at hcrc
  exact crcBytes_burst (by decide) hlength (by omega) hcrc

/-- Strings that differ within four bytes are told apart. -/
lemma eq_of_referenceUpdate_eq {previous : UInt32} {start n : ℕ} {bytes other : Bytes}
    (hdiffers : DiffersWithin start n bytes other) (hn : n ≤ 4)
    (h : referenceUpdate previous bytes = referenceUpdate previous other) : bytes = other := by
  obtain ⟨front, window, window', back, rfl, rfl, hlength, hshort⟩ := hdiffers.split
  rw [referenceUpdate_burst hlength (Nat.le_trans hshort hn) h]

/-! ## The byte by byte computation -/

lemma crc32Shift_toNat (n : ℕ) (x : BitVec 32) :
    crc32Shift n x.toNat = ((crcShift crc32Polynomial)^[n] x).toNat := by
  induction n generalizing x with
  | zero => rfl
  | succ n ih =>
      have hstep : (if x.toNat % 2 = 1 then (x.toNat / 2) ^^^ 0xEDB88320 else x.toNat / 2)
          = (crcShift crc32Polynomial x).toNat := by
        have hlow : x.getLsbD 0 = decide (x.toNat % 2 = 1) := by
          rw [← BitVec.testBit_toNat, Nat.testBit_zero]
        rw [crcShift, hlow]
        by_cases hodd : x.toNat % 2 = 1
        · simp [hodd, crc32Polynomial, Nat.shiftRight_eq_div_pow]
        · simp [hodd, Nat.shiftRight_eq_div_pow]
      rw [crc32Shift, hstep, ih, Function.iterate_succ_apply]

/-- Only the low byte of the register decides what is fed back. -/
lemma crc32Byte_toNat (x : BitVec 32) (byte : UInt8) :
    crc32Byte x.toNat byte = (crcByte crc32Polynomial x byte).toNat := by
  obtain ⟨y, hy⟩ : ∃ y, x ^^^ byte.toBitVec.setWidth 32 = y := ⟨_, rfl⟩
  have hbyte : byte.toNat < 256 := byte.toNat_lt
  have hnat : x.toNat ^^^ byte.toNat = y.toNat := by
    rw [← hy, BitVec.toNat_xor, BitVec.toNat_setWidth, UInt8.toNat_toBitVec,
      Nat.mod_eq_of_lt (by omega)]
  have hhigh : x.toNat / 256 = y.toNat / 256 := by
    rw [← hnat, show 256 = 2 ^ 8 from rfl, ← Nat.shiftRight_eq_div_pow, ← Nat.shiftRight_eq_div_pow,
      Nat.shiftRight_xor_distrib, Nat.shiftRight_eq_div_pow byte.toNat, Nat.div_eq_of_lt hbyte,
      Nat.xor_zero]
  have hsplit : y = BitVec.ofNat 32 (y.toNat % 256) ^^^ ((y >>> 8) <<< 8) := by
    refine BitVec.eq_of_getLsbD_eq fun i hi => ?_
    rw [BitVec.getLsbD_xor, BitVec.getLsbD_ofNat, show 256 = 2 ^ 8 from rfl, Nat.testBit_mod_two_pow,
      BitVec.getLsbD_shiftLeft, BitVec.getLsbD_ushiftRight, BitVec.testBit_toNat]
    by_cases hlow : i < 8
    · simp [hlow, hi]
    · simp [hlow, hi, Nat.add_sub_cancel' (Nat.not_lt.mp hlow)]
  have hback : (crcShift crc32Polynomial)^[8] ((y >>> 8) <<< 8) = y >>> 8 := by
    refine crcShift_iterate_shiftLeft _ ?_
    have hlt := y.isLt
    rw [BitVec.toNat_ushiftRight, Nat.shiftRight_eq_div_pow]
    omega
  have hmod : (BitVec.ofNat 32 (y.toNat % 256)).toNat = y.toNat % 256 := by
    rw [BitVec.toNat_ofNat]
    omega
  calc crc32Byte x.toNat byte
      = crc32Shift 8 (y.toNat % 256) ^^^ (y.toNat / 256) := by rw [crc32Byte, hnat, hhigh]
    _ = ((crcShift crc32Polynomial)^[8] (BitVec.ofNat 32 (y.toNat % 256)) ^^^ y >>> 8).toNat := by
        rw [BitVec.toNat_xor, ← crc32Shift_toNat, hmod, BitVec.toNat_ushiftRight,
          Nat.shiftRight_eq_div_pow]
    _ = (crcByte crc32Polynomial x byte).toNat := by
        rw [crcByte, hy]
        conv_rhs => rw [hsplit, crcShift_iterate_xor, hback]

/-- **The byte by byte computation agrees with the reference.** -/
theorem crc32Reference_eq (previous : UInt32) (bytes : Bytes) :
    crc32Reference previous bytes = referenceUpdate previous bytes := by
  have hfold : ∀ crc : UInt32,
      bytes.foldl crc32Byte crc.toNat = (bytes.foldl referenceByte crc).toNat := by
    induction bytes with
    | nil => exact fun crc => rfl
    | cons byte bytes ih =>
        intro crc
        have hbyte : crc32Byte crc.toNat byte = (referenceByte crc byte).toNat := by
          rw [← UInt32.toNat_toBitVec, crc32Byte_toNat, ← toBitVec_referenceByte,
            UInt32.toNat_toBitVec]
        rw [List.foldl_cons, List.foldl_cons, hbyte, ih]
  rw [crc32Reference, referenceUpdate, hfold, UInt32.ofNat_toNat]

end RaptorFec
