import Mathlib

/-!
# Byte strings: little-endian words, UTF-8 text and the FNV-1a fold

Byte strings are lists, so that a file, a record and the unread rest of a record
are all the same kind of value. Machine words are written least significant byte
first and truncated to the stated width, as a Rust `as` cast followed by
`to_le_bytes` does.
-/

namespace Vannak.Foundation

set_option autoImplicit false

abbrev Bytes := List UInt8

/-! ## Little-endian words -/

/-- The `width` least significant bytes of `n`, least significant first. -/
def leBytes : Nat → Nat → Bytes
  | 0, _ => []
  | width + 1, n => UInt8.ofNat n :: leBytes width (n / 256)

def ofLeBytes : Bytes → Nat
  | [] => 0
  | byte :: rest => byte.toNat + 256 * ofLeBytes rest

@[simp] theorem length_leBytes (width n : Nat) : (leBytes width n).length = width := by
  induction width generalizing n with
  | zero => rfl
  | succ width ih => rw [leBytes, List.length_cons, ih]

theorem ofLeBytes_leBytes (width n : Nat) : ofLeBytes (leBytes width n) = n % 256 ^ width := by
  induction width generalizing n with
  | zero => simp [leBytes, ofLeBytes, Nat.mod_one]
  | succ width ih =>
    have hHead : (UInt8.ofNat n).toNat = n % 256 := UInt8.toNat_ofNat'
    rw [leBytes, ofLeBytes, ih, hHead, pow_succ, Nat.mul_comm (256 ^ width) 256, Nat.mod_mul]

theorem ofLeBytes_leBytes_of_lt {width n : Nat} (h : n < 256 ^ width) :
    ofLeBytes (leBytes width n) = n := by
  rw [ofLeBytes_leBytes, Nat.mod_eq_of_lt h]

theorem ofLeBytes_lt (bytes : Bytes) : ofLeBytes bytes < 256 ^ bytes.length := by
  induction bytes with
  | nil => decide
  | cons byte rest ih =>
    have hByte := byte.toNat_lt
    rw [ofLeBytes, List.length_cons, Nat.pow_succ]
    omega

theorem leBytes_ofLeBytes (bytes : Bytes) : leBytes bytes.length (ofLeBytes bytes) = bytes := by
  induction bytes with
  | nil => rfl
  | cons byte rest ih =>
    have hByte := byte.toNat_lt
    have hDiv : (byte.toNat + 256 * ofLeBytes rest) / 256 = ofLeBytes rest := by omega
    have hHead : UInt8.ofNat (byte.toNat + 256 * ofLeBytes rest) = byte := by
      apply UInt8.toNat_inj.mp
      rw [UInt8.toNat_ofNat']
      omega
    rw [List.length_cons, ofLeBytes, leBytes, hDiv, hHead, ih]

/-- `u32::to_le_bytes`. -/
def u32Bytes (value : UInt32) : Bytes := leBytes 4 value.toNat

/-- `u64::to_le_bytes`. -/
def u64Bytes (value : UInt64) : Bytes := leBytes 8 value.toNat

/-- `u32::from_le_bytes` on a slice of four bytes. -/
def u32OfBytes (bytes : Bytes) : UInt32 := UInt32.ofNat (ofLeBytes bytes)

/-- `u64::from_le_bytes` on a slice of eight bytes. -/
def u64OfBytes (bytes : Bytes) : UInt64 := UInt64.ofNat (ofLeBytes bytes)

@[simp] theorem length_u32Bytes (value : UInt32) : (u32Bytes value).length = 4 := length_leBytes 4 _

@[simp] theorem length_u64Bytes (value : UInt64) : (u64Bytes value).length = 8 := length_leBytes 8 _

@[simp] theorem u32OfBytes_u32Bytes (value : UInt32) : u32OfBytes (u32Bytes value) = value := by
  rw [u32OfBytes, u32Bytes, ofLeBytes_leBytes_of_lt value.toNat_lt, UInt32.ofNat_toNat]

@[simp] theorem u64OfBytes_u64Bytes (value : UInt64) : u64OfBytes (u64Bytes value) = value := by
  rw [u64OfBytes, u64Bytes, ofLeBytes_leBytes_of_lt value.toNat_lt, UInt64.ofNat_toNat]

theorem u32Bytes_u32OfBytes {bytes : Bytes} (h : bytes.length = 4) :
    u32Bytes (u32OfBytes bytes) = bytes := by
  have hLt : ofLeBytes bytes < 2 ^ 32 := by simpa [h] using ofLeBytes_lt bytes
  rw [u32Bytes, u32OfBytes, UInt32.toNat_ofNat_of_lt' hLt, ← h, leBytes_ofLeBytes]

theorem u64Bytes_u64OfBytes {bytes : Bytes} (h : bytes.length = 8) :
    u64Bytes (u64OfBytes bytes) = bytes := by
  have hLt : ofLeBytes bytes < 2 ^ 64 := by simpa [h] using ofLeBytes_lt bytes
  rw [u64Bytes, u64OfBytes, UInt64.toNat_ofNat_of_lt' hLt, ← h, leBytes_ofLeBytes]

/-! ## UTF-8 text -/

/-- `str::as_bytes`. -/
def utf8Bytes (text : String) : Bytes := text.toUTF8.data.toList

/-- `str::from_utf8`: `none` on an ill-formed sequence. -/
def utf8Decode (bytes : Bytes) : Option String := String.fromUTF8? ⟨bytes.toArray⟩

@[simp] theorem utf8Decode_utf8Bytes (text : String) : utf8Decode (utf8Bytes text) = some text := by
  have hArray : (⟨(utf8Bytes text).toArray⟩ : ByteArray) = text.toUTF8 := by simp [utf8Bytes]
  rw [utf8Decode, hArray, String.toUTF8_eq_toByteArray, String.fromUTF8?, dif_pos text.isValidUTF8]
  rfl

theorem utf8Bytes_of_utf8Decode {bytes : Bytes} {text : String} (h : utf8Decode bytes = some text) :
    utf8Bytes text = bytes := by
  rw [utf8Decode, String.fromUTF8?] at h
  split at h
  · obtain rfl := Option.some.inj h
    simp [utf8Bytes, String.fromUTF8]
  · cases h

/-! ## FNV-1a -/

def fnvOffsetBasis : UInt64 := 0xcbf29ce484222325

def fnvPrime : UInt64 := 0x00000100000001b3

/-- One round: xor the byte in, then multiply modulo `2 ^ 64`. -/
def fnvStep (hash : UInt64) (byte : UInt8) : UInt64 := (hash ^^^ byte.toUInt64) * fnvPrime

def fnv1a (bytes : Bytes) : UInt64 := bytes.foldl fnvStep fnvOffsetBasis

end Vannak.Foundation
