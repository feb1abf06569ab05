/-
Numbers as little-endian bytes, and windows of a list of bytes.

A number is stored byte by byte with shifts and loaded by joining its bytes with
shifts.  A window is the piece of a list at an offset; a store replaces the
window it falls on.
-/
import Mathlib.Algebra.Group.Nat.Defs
import Mathlib.Data.Nat.Notation

namespace VitaSX2.LittleEndian

/-! ### Numbers -/

/-- The lowest `n` bytes of a number. -/
def toBytes (n value : ℕ) : List UInt8 := (List.range n).map fun i => UInt8.ofNat (value >>> (8 * i))

/-- The number of some bytes, from the byte `i` on. -/
def joinFrom (i value : ℕ) : List UInt8 → ℕ
  | [] => value
  | byte :: bytes => joinFrom (i + 1) (value ||| byte.toNat <<< (8 * i)) bytes

def ofBytes (bytes : List UInt8) : ℕ := joinFrom 0 0 bytes

@[simp] lemma length_toBytes (n value : ℕ) : (toBytes n value).length = n := by simp [toBytes]

lemma toBytes_succ (n value : ℕ) :
    toBytes (n + 1) value = UInt8.ofNat value :: toBytes n (value / 256) := by
  rw [toBytes, List.range_succ_eq_map, List.map_cons, List.map_map]
  congr 1
  refine List.map_congr_left fun i _ => ?_
  show UInt8.ofNat (value >>> (8 * (i + 1))) = UInt8.ofNat ((value / 256) >>> (8 * i))
  rw [Nat.mul_add, Nat.add_comm, Nat.shiftRight_add, Nat.shiftRight_eq_div_pow value 8]

/-- Bytes join above what has been joined. -/
lemma joinFrom_eq (bytes : List UInt8) (i value : ℕ) (h : value < 2 ^ (8 * i)) :
    joinFrom i value bytes = value + 2 ^ (8 * i) * ofBytes bytes := by
  induction bytes generalizing i value with
  | nil => simp [joinFrom, ofBytes]
  | cons byte bytes ih =>
    have hbyte : byte.toNat < 2 ^ 8 := byte.toNat_lt
    have hjoin : ∀ j v, v < 2 ^ (8 * j) → v ||| byte.toNat <<< (8 * j) =
        v + 2 ^ (8 * j) * byte.toNat ∧ v + 2 ^ (8 * j) * byte.toNat < 2 ^ (8 * (j + 1)) := by
      rintro j v hv
      refine ⟨?_, ?_⟩
      · rw [Nat.or_comm, ← Nat.shiftLeft_add_eq_or_of_lt hv, Nat.shiftLeft_eq]
        rw [Nat.add_comm, Nat.mul_comm]
      · calc v + 2 ^ (8 * j) * byte.toNat < 2 ^ (8 * j) + 2 ^ (8 * j) * byte.toNat :=
              Nat.add_lt_add_right hv _
          _ = 2 ^ (8 * j) * (byte.toNat + 1) := by rw [Nat.mul_add, Nat.mul_one, Nat.add_comm]
          _ ≤ 2 ^ (8 * j) * 2 ^ 8 := Nat.mul_le_mul_left _ hbyte
          _ = 2 ^ (8 * (j + 1)) := by rw [← Nat.pow_add, Nat.mul_add]
    obtain ⟨hvalue, hlt⟩ := hjoin i value h
    obtain ⟨hzero, hlt₀⟩ := hjoin 0 0 (Nat.two_pow_pos 0)
    have hbytes : ofBytes (byte :: bytes) = byte.toNat + 2 ^ 8 * ofBytes bytes := by
      show joinFrom 1 (0 ||| byte.toNat <<< (8 * 0)) bytes = _
      rw [hzero, ih 1 _ hlt₀]
      simp
    show joinFrom (i + 1) (value ||| byte.toNat <<< (8 * i)) bytes = _
    rw [hvalue, ih (i + 1) _ hlt, hbytes, Nat.mul_add 8, Nat.pow_add, Nat.mul_add (2 ^ (8 * i))]
    simp [Nat.mul_assoc, Nat.add_assoc]

@[simp] lemma ofBytes_nil : ofBytes [] = 0 := rfl

lemma ofBytes_cons (byte : UInt8) (bytes : List UInt8) :
    ofBytes (byte :: bytes) = byte.toNat + 256 * ofBytes bytes := by
  have hbyte : byte.toNat < 2 ^ (8 * 1) := byte.toNat_lt
  rw [ofBytes, joinFrom]
  simpa using joinFrom_eq bytes 1 byte.toNat hbyte

/-- Loading what was stored. -/
theorem ofBytes_toBytes (n value : ℕ) : ofBytes (toBytes n value) = value % 256 ^ n := by
  induction n generalizing value with
  | zero => simp [toBytes, Nat.mod_one]
  | succ n ih =>
    have hbyte : (UInt8.ofNat value).toNat = value % 256 := UInt8.toNat_ofNat'
    rw [toBytes_succ, ofBytes_cons, ih, hbyte, Nat.pow_succ, Nat.mul_comm (256 ^ n)]
    exact Nat.mod_mul.symm

/-- Storing what was loaded. -/
theorem toBytes_ofBytes (bytes : List UInt8) : toBytes bytes.length (ofBytes bytes) = bytes := by
  induction bytes with
  | nil => rfl
  | cons byte bytes ih =>
    have hbyte : byte.toNat < 256 := byte.toNat_lt
    rw [List.length_cons, toBytes_succ, ofBytes_cons]
    congr 1
    · apply UInt8.toNat_inj.mp
      rw [UInt8.toNat_ofNat']
      omega
    · rw [show (byte.toNat + 256 * ofBytes bytes) / 256 = ofBytes bytes by omega]
      exact ih

lemma ofBytes_lt (bytes : List UInt8) : ofBytes bytes < 256 ^ bytes.length := by
  induction bytes with
  | nil => simp
  | cons byte bytes ih =>
    have hbyte : byte.toNat < 256 := byte.toNat_lt
    rw [ofBytes_cons, List.length_cons, Nat.pow_succ]
    omega

/-! ### Windows -/

variable {α : Type*}

/-- The `count` entries at an offset. -/
def window (list : List α) (offset count : ℕ) : List α := (list.drop offset).take count

/-- The entries at an offset are replaced. -/
def store (list : List α) (offset : ℕ) (data : List α) : List α :=
  list.take offset ++ (data ++ list.drop (offset + data.length))

@[simp] lemma window_zero (list : List α) (offset : ℕ) : window list offset 0 = [] := by
  simp [window]

lemma length_window {list : List α} {offset count : ℕ} (h : offset + count ≤ list.length) :
    (window list offset count).length = count := by
  simp only [window, List.length_take, List.length_drop]
  omega

/-- A window is cut in two. -/
lemma window_add (list : List α) (offset m n : ℕ) :
    window list offset (m + n) = window list offset m ++ window list (offset + m) n := by
  rw [window, List.take_add, List.drop_drop]
  rfl

/-- The window of a piece of a list. -/
lemma window_append (before data after : List α) {offset count : ℕ} (hoffset : offset = before.length)
    (hcount : count = data.length) : window (before ++ (data ++ after)) offset count = data := by
  subst hoffset hcount
  simp [window]

lemma window_append_left {list : List α} (after : List α) {offset count : ℕ}
    (h : offset + count ≤ list.length) :
    window (list ++ after) offset count = window list offset count := by
  rw [window, window, List.drop_append_of_le_length (by omega), List.take_append_of_le_length]
  rw [List.length_drop]
  omega

lemma window_append_right (before list : List α) (offset count : ℕ) :
    window (before ++ list) (before.length + offset) count = window list offset count := by
  simp [window, List.drop_append, List.drop_of_length_le (Nat.le_add_right _ _)]

lemma window_all (list : List α) : window list 0 list.length = list := by simp [window]

/-- A list is a window and what is behind it. -/
lemma window_append_drop (list : List α) (n : ℕ) : window list 0 n ++ list.drop n = list := by
  simp [window]

@[simp] lemma store_nil (list : List α) (offset : ℕ) : store list offset [] = list := by
  simp [store]

lemma length_store {list data : List α} {offset : ℕ} (h : offset + data.length ≤ list.length) :
    (store list offset data).length = list.length := by
  simp only [store, List.length_append, List.length_take, List.length_drop]
  omega

lemma store_append_left {list data : List α} (after : List α) {offset : ℕ}
    (h : offset + data.length ≤ list.length) :
    store (list ++ after) offset data = store list offset data ++ after := by
  rw [store, store, List.take_append_of_le_length (by omega), List.drop_append_of_le_length h]
  simp

lemma store_append_right (before list data : List α) (offset : ℕ) :
    store (before ++ list) (before.length + offset) data = before ++ store list offset data := by
  simp [store, List.take_append, List.drop_append, Nat.add_assoc,
    List.drop_of_length_le (Nat.le_add_right _ _), List.take_of_length_le (Nat.le_add_right _ _)]

/-- A store that falls on a piece replaces it. -/
lemma store_append (before old after data : List α) {offset : ℕ} (hoffset : offset = before.length)
    (hlength : data.length = old.length) :
    store (before ++ (old ++ after)) offset data = before ++ (data ++ after) := by
  subst hoffset
  simp [store, List.drop_append, hlength]

end VitaSX2.LittleEndian
