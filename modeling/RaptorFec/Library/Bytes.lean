import Mathlib.Data.List.GetD
import Mathlib.Tactic.Ring

/-!
# Byte strings

Fixed-layout wire formats read and write a byte buffer at literal offsets.  This file has the two
buffer operations they are built from and the little-endian words they store:

* `slice bytes a b` — the bytes at positions `a` to `b - 1`;
* `writeAt bytes start src` — `bytes` with `src` copied over the positions from `start` on;
* `writeFields bytes fields` — the writes of a table of offsets and contents, in order;
* `LeWord` — words of a fixed byte width, with `toLeBytes`/`fromLeBytes` and their two round trips;
* `toBeBytes`, `fromBeBytes` — the same words, most significant byte first.

A table of adjacent offsets writes a concatenation (`writeFields_adjacent`), which is how every
header codec below it is brought to a form whose slices compute; read the other way, the slices
of a buffer put together are its prefix (`slice_append_slice`).
-/

namespace RaptorFec

/-- A byte string. -/
abbrev Bytes := List UInt8

/-! ## Slices and writes -/

/-- `bytes[a..b]`. -/
def slice (bytes : Bytes) (a b : ℕ) : Bytes := (bytes.drop a).take (b - a)

/-- `bytes[start..start + src.len()].copy_from_slice(src)`. -/
def writeAt (bytes : Bytes) (start : ℕ) (src : Bytes) : Bytes :=
  bytes.take start ++ src ++ bytes.drop (start + src.length)

/-- `bytes[i]`, read where the length is known to exceed `i`. -/
def byteAt (bytes : Bytes) (i : ℕ) : UInt8 := bytes.getD i 0

lemma length_slice (bytes : Bytes) (a b : ℕ) :
    (slice bytes a b).length = min (b - a) (bytes.length - a) := by
  simp [slice]

lemma length_slice_of_le {bytes : Bytes} {a b : ℕ} (hb : b ≤ bytes.length) :
    (slice bytes a b).length = b - a := by
  rw [length_slice]
  omega

/-- The whole string is a slice of itself. -/
lemma slice_zero_length (bytes : Bytes) : slice bytes 0 bytes.length = bytes := by
  simp [slice]

/-- A slice of a concatenation that starts behind the first part. -/
lemma slice_append_right {front back : Bytes} {a b : ℕ} (h : front.length ≤ a) :
    slice (front ++ back) a b = slice back (a - front.length) (b - front.length) := by
  have hlen : b - a = b - front.length - (a - front.length) := by omega
  rw [slice, slice, List.drop_append, List.drop_eq_nil_of_le h, List.nil_append, hlen]

/-- A write at the end of the part already written extends that part. -/
lemma writeAt_adjacent {front bytes src : Bytes} {n : ℕ} (hn : front.length = n) :
    writeAt (front ++ bytes.drop n) n src = (front ++ src) ++ bytes.drop (n + src.length) := by
  subst hn
  have hdrop : (front ++ bytes.drop front.length).drop (front.length + src.length)
      = bytes.drop (front.length + src.length) := by
    rw [List.drop_append, List.drop_eq_nil_of_le (by omega), List.nil_append, List.drop_drop]
    congr 1
    omega
  rw [writeAt, List.take_left, hdrop]

/-- A write at the start of the second part of a concatenation. -/
lemma writeAt_back {front back src : Bytes} {n : ℕ} (hn : front.length = n) :
    writeAt (front ++ back) n src = front ++ src ++ back.drop src.length := by
  subst hn
  rw [writeAt, List.take_left, List.drop_append, List.drop_eq_nil_of_le (by omega),
    List.nil_append, Nat.add_sub_cancel_left]

/-- Neighbouring slices put together. -/
lemma slice_append_slice {bytes : Bytes} {a b c : ℕ} (hab : a ≤ b) (hbc : b ≤ c) :
    slice bytes a b ++ slice bytes b c = slice bytes a c := by
  have hdrop : bytes.drop b = (bytes.drop a).drop (b - a) := by
    rw [List.drop_drop]
    congr 1
    omega
  have hlen : c - a = (b - a) + (c - b) := by omega
  rw [slice, slice, slice, hlen, hdrop, List.take_add]

/-- A byte is a slice. -/
lemma byteAt_eq_slice {bytes : Bytes} {a : ℕ} (h : a < bytes.length) :
    [byteAt bytes a] = slice bytes a (a + 1) := by
  rw [slice, byteAt, Nat.add_sub_cancel_left, List.getD_eq_getElem _ _ h,
    List.drop_eq_getElem_cons h, List.take_succ_cons, List.take_zero]

/-! ## Tables of fields -/

/-- The writes of a table of offsets and contents, in order. -/
def writeFields (bytes : Bytes) (fields : List (ℕ × Bytes)) : Bytes :=
  fields.foldl (fun bytes field => writeAt bytes field.1 field.2) bytes

/-- The contents of a table, one behind the other. -/
def fieldBytes (fields : List (ℕ × Bytes)) : Bytes := (fields.map Prod.snd).flatten

/-- The offsets of a table start at `n` and leave no gap. -/
def Adjacent : ℕ → List (ℕ × Bytes) → Prop
  | _, [] => True
  | n, field :: fields => field.1 = n ∧ Adjacent (n + field.2.length) fields

lemma writeFields_append (front : Bytes) {fields : List (ℕ × Bytes)} (bytes : Bytes)
    (h : Adjacent front.length fields) :
    writeFields (front ++ bytes.drop front.length) fields
      = front ++ fieldBytes fields ++ bytes.drop (front.length + (fieldBytes fields).length) := by
  induction fields generalizing front with
  | nil => simp [writeFields, fieldBytes]
  | cons field fields ih =>
      obtain ⟨hfield, hrest⟩ := h
      have hfront : Adjacent (front ++ field.2).length fields := by
        rwa [List.length_append]
      have hwrite : writeFields (front ++ bytes.drop front.length) (field :: fields)
          = writeFields (front ++ field.2 ++ bytes.drop (front ++ field.2).length) fields := by
        rw [writeFields, List.foldl_cons, hfield, writeAt_adjacent rfl, List.length_append]
        rfl
      rw [hwrite, ih _ hfront]
      simp only [fieldBytes, List.map_cons, List.flatten_cons, List.length_append,
        List.append_assoc, Nat.add_assoc]

/-- A gapless table from offset 0 writes its contents, and leaves what lies behind them. -/
theorem writeFields_adjacent {fields : List (ℕ × Bytes)} (bytes : Bytes)
    (h : Adjacent 0 fields) :
    writeFields bytes fields = fieldBytes fields ++ bytes.drop (fieldBytes fields).length := by
  have hnil := writeFields_append [] bytes h
  simpa using hnil

/-! ## Pieces of equal size -/

/-- The `i`-th piece of `size` bytes. -/
def piece (bytes : Bytes) (size i : ℕ) : Bytes := slice bytes (i * size) ((i + 1) * size)

lemma length_piece (bytes : Bytes) (size i : ℕ) :
    (piece bytes size i).length = min size (bytes.length - i * size) := by
  rw [piece, length_slice]
  congr 1
  rw [Nat.add_mul, Nat.one_mul, Nat.add_sub_cancel_left]

@[simp] lemma piece_zero (bytes : Bytes) (size : ℕ) : piece bytes size 0 = bytes.take size := by
  simp [piece, slice]

lemma piece_succ (bytes : Bytes) (size i : ℕ) :
    piece bytes size (i + 1) = piece (bytes.drop size) size i := by
  have hlen : (i + 1 + 1) * size - (i + 1) * size = (i + 1) * size - i * size := by
    rw [Nat.add_mul (i + 1), Nat.add_mul i]
    omega
  rw [piece, piece, slice, slice, hlen, List.drop_drop, Nat.add_mul i, Nat.one_mul,
    Nat.add_comm size]

/-- Enough pieces, put together, are the whole string. -/
lemma flatten_pieces {bytes : Bytes} {size count : ℕ} (h : bytes.length ≤ count * size) :
    ((List.range count).map (piece bytes size)).flatten = bytes := by
  induction count generalizing bytes with
  | zero =>
      have : bytes = [] := List.length_eq_zero_iff.mp (by omega)
      simp [this]
  | succ count ih =>
      have hrest : (bytes.drop size).length ≤ count * size := by
        rw [List.length_drop, Nat.add_mul] at *
        omega
      rw [List.range_succ_eq_map, List.map_cons, List.flatten_cons, List.map_map, piece_zero]
      have hfun : piece bytes size ∘ Nat.succ = piece (bytes.drop size) size :=
        funext fun i => piece_succ bytes size i
      rw [hfun, ih hrest, List.take_append_drop]

/-- Strings of equal size, put together. -/
lemma length_flatten_of_forall {xs : List Bytes} {size : ℕ} (h : ∀ x ∈ xs, x.length = size) :
    xs.flatten.length = xs.length * size := by
  induction xs with
  | nil => simp
  | cons x xs ih =>
      rw [List.flatten_cons, List.length_append, h x List.mem_cons_self,
        ih fun y hy => h y (List.mem_cons_of_mem _ hy), List.length_cons, Nat.add_mul, Nat.one_mul,
        Nat.add_comm]

/-- The pieces of strings of equal size that were put together. -/
lemma piece_flatten {xs : List Bytes} {size i : ℕ} (h : ∀ x ∈ xs, x.length = size)
    (hi : i < xs.length) : piece xs.flatten size i = xs[i] := by
  induction xs generalizing i with
  | nil => exact absurd hi (by simp)
  | cons x xs ih =>
      have hx : x.length = size := h x List.mem_cons_self
      cases i with
      | zero =>
          rw [piece_zero, List.flatten_cons, ← hx, List.take_left]
          rfl
      | succ i =>
          rw [piece_succ, List.flatten_cons, List.drop_left' hx]
          exact ih (fun y hy => h y (List.mem_cons_of_mem _ hy)) (Nat.lt_of_succ_lt_succ hi)

/-! ## Little-endian words -/

/-- The `w` little-endian bytes of `n`. -/
def leBytes : ℕ → ℕ → Bytes
  | 0, _ => []
  | w + 1, n => UInt8.ofNat n :: leBytes w (n / 256)

/-- The number with the given little-endian bytes. -/
def ofLeBytes : Bytes → ℕ
  | [] => 0
  | b :: bs => b.toNat + 256 * ofLeBytes bs

@[simp] lemma length_leBytes (w n : ℕ) : (leBytes w n).length = w := by
  induction w generalizing n with
  | zero => rfl
  | succ w ih => simp [leBytes, ih]

lemma ofLeBytes_lt (bs : Bytes) : ofLeBytes bs < 256 ^ bs.length := by
  induction bs with
  | nil => simp [ofLeBytes]
  | cons b bs ih =>
      have hb : b.toNat < 256 := b.toNat_lt
      rw [ofLeBytes, List.length_cons, pow_succ]
      omega

/-- Reading back `w` bytes of `n` gives `n` truncated to `w` bytes. -/
lemma ofLeBytes_leBytes (w n : ℕ) : ofLeBytes (leBytes w n) = n % 256 ^ w := by
  induction w generalizing n with
  | zero => simp [leBytes, ofLeBytes, Nat.mod_one]
  | succ w ih =>
      rw [leBytes, ofLeBytes, ih, pow_succ', Nat.mod_mul]
      simp

/-- Writing back the number read from a byte string gives the byte string. -/
lemma leBytes_ofLeBytes (bs : Bytes) : leBytes bs.length (ofLeBytes bs) = bs := by
  induction bs with
  | nil => rfl
  | cons b bs ih =>
      have hb : b.toNat < 256 := b.toNat_lt
      have hhead : UInt8.ofNat (b.toNat + 256 * ofLeBytes bs) = b := by
        apply UInt8.toNat_inj.mp
        simp only [UInt8.toNat_ofNat']
        omega
      have htail : (b.toNat + 256 * ofLeBytes bs) / 256 = ofLeBytes bs := by omega
      rw [List.length_cons, leBytes, ofLeBytes, hhead, htail, ih]

/-- Words of a fixed byte width: a bijection with the numbers below `256 ^ width`. -/
class LeWord (α : Type) where
  width : ℕ
  toNat : α → ℕ
  ofNat : ℕ → α
  toNat_lt : ∀ x, toNat x < 256 ^ width
  ofNat_toNat : ∀ x, ofNat (toNat x) = x
  toNat_ofNat : ∀ n, n < 256 ^ width → toNat (ofNat n) = n

instance : LeWord UInt16 where
  width := 2
  toNat := UInt16.toNat
  ofNat := UInt16.ofNat
  toNat_lt x := x.toNat_lt
  ofNat_toNat _ := UInt16.ofNat_toNat
  toNat_ofNat _ h := UInt16.toNat_ofNat_of_lt' h

instance : LeWord UInt32 where
  width := 4
  toNat := UInt32.toNat
  ofNat := UInt32.ofNat
  toNat_lt x := x.toNat_lt
  ofNat_toNat _ := UInt32.ofNat_toNat
  toNat_ofNat _ h := UInt32.toNat_ofNat_of_lt' h

instance : LeWord UInt64 where
  width := 8
  toNat := UInt64.toNat
  ofNat := UInt64.ofNat
  toNat_lt x := x.toNat_lt
  ofNat_toNat _ := UInt64.ofNat_toNat
  toNat_ofNat _ h := UInt64.toNat_ofNat_of_lt' h

section LeWord

variable {α : Type} [LeWord α]

/-- `to_le_bytes`. -/
def toLeBytes (x : α) : Bytes := leBytes (LeWord.width α) (LeWord.toNat x)

/-- `from_le_bytes`. -/
def fromLeBytes (bs : Bytes) : α := LeWord.ofNat (ofLeBytes bs)

lemma length_toLeBytes (x : α) : (toLeBytes x).length = LeWord.width α := length_leBytes _ _

@[simp] lemma fromLeBytes_toLeBytes (x : α) : fromLeBytes (toLeBytes x) = x := by
  rw [fromLeBytes, toLeBytes, ofLeBytes_leBytes, Nat.mod_eq_of_lt (LeWord.toNat_lt x),
    LeWord.ofNat_toNat]

lemma toLeBytes_fromLeBytes {bs : Bytes} (h : bs.length = LeWord.width α) :
    toLeBytes (fromLeBytes bs : α) = bs := by
  have hlt : ofLeBytes bs < 256 ^ LeWord.width α := h ▸ ofLeBytes_lt bs
  rw [toLeBytes, fromLeBytes, LeWord.toNat_ofNat _ hlt, ← h, leBytes_ofLeBytes]

/-- A word that was read from a slice is written as the slice. -/
lemma toLeBytes_slice {bytes : Bytes} {a b : ℕ} (hab : a + LeWord.width α = b)
    (hb : b ≤ bytes.length) : toLeBytes (fromLeBytes (slice bytes a b) : α) = slice bytes a b := by
  have hlen : (slice bytes a b).length = LeWord.width α := by
    rw [length_slice_of_le hb]
    omega
  exact toLeBytes_fromLeBytes hlen

/-- The number read from a byte string of the width of the word. -/
lemma toNat_fromLeBytes {bs : Bytes} (h : bs.length = LeWord.width α) :
    LeWord.toNat (fromLeBytes bs : α) = ofLeBytes bs :=
  LeWord.toNat_ofNat _ (h ▸ ofLeBytes_lt bs)

end LeWord

@[simp] lemma length_toLeBytes_u16 (x : UInt16) : (toLeBytes x).length = 2 := length_toLeBytes x
@[simp] lemma length_toLeBytes_u32 (x : UInt32) : (toLeBytes x).length = 4 := length_toLeBytes x
@[simp] lemma length_toLeBytes_u64 (x : UInt64) : (toLeBytes x).length = 8 := length_toLeBytes x

lemma toLeBytes_slice_u16 {bytes : Bytes} {a b : ℕ} (hab : a + 2 = b) (hb : b ≤ bytes.length) :
    toLeBytes (fromLeBytes (slice bytes a b) : UInt16) = slice bytes a b := toLeBytes_slice hab hb

lemma toLeBytes_slice_u32 {bytes : Bytes} {a b : ℕ} (hab : a + 4 = b) (hb : b ≤ bytes.length) :
    toLeBytes (fromLeBytes (slice bytes a b) : UInt32) = slice bytes a b := toLeBytes_slice hab hb

lemma toLeBytes_slice_u64 {bytes : Bytes} {a b : ℕ} (hab : a + 8 = b) (hb : b ≤ bytes.length) :
    toLeBytes (fromLeBytes (slice bytes a b) : UInt64) = slice bytes a b := toLeBytes_slice hab hb

/-! ## Big-endian words -/

section BigEndian

variable {α : Type} [LeWord α]

/-- `to_be_bytes`. -/
def toBeBytes (x : α) : Bytes := (toLeBytes x).reverse

/-- `from_be_bytes`. -/
def fromBeBytes (bs : Bytes) : α := fromLeBytes bs.reverse

lemma length_toBeBytes (x : α) : (toBeBytes x).length = LeWord.width α := by
  rw [toBeBytes, List.length_reverse, length_toLeBytes]

@[simp] lemma fromBeBytes_toBeBytes (x : α) : fromBeBytes (toBeBytes x) = x := by
  rw [fromBeBytes, toBeBytes, List.reverse_reverse, fromLeBytes_toLeBytes]

end BigEndian

@[simp] lemma length_toBeBytes_u64 (x : UInt64) : (toBeBytes x).length = 8 := length_toBeBytes x

end RaptorFec
