import Warpstream.Lib.Base128

set_option autoImplicit false

/- Primitive encodings of the vendored `kbin` package. A Go `[]byte` that may be
nil is an `Option`; a machine integer is an `Int` kept in range by `Int.bmod`. -/
namespace Warpstream

abbrev Bytes := List UInt8

def int8 (i : Int) : Int := Int.bmod i (2 ^ 8)
def int16 (i : Int) : Int := Int.bmod i (2 ^ 16)
def int32 (i : Int) : Int := Int.bmod i (2 ^ 32)
def int64 (i : Int) : Int := Int.bmod i (2 ^ 64)

theorem int32_eq {i : Int} (lower : -2 ^ 31 ≤ i) (upper : i < 2 ^ 31) : int32 i = i := by
  unfold int32
  apply Int.bmod_eq_of_le <;> omega

theorem int64_eq {i : Int} (lower : -2 ^ 63 ≤ i) (upper : i < 2 ^ 63) : int64 i = i := by
  unfold int64
  apply Int.bmod_eq_of_le <;> omega

theorem int32_range (i : Int) : -2 ^ 31 ≤ int32 i ∧ int32 i < 2 ^ 31 := by
  have lower := Int.le_bmod (x := i) (m := 2 ^ 32) (by decide)
  have upper := Int.bmod_lt (x := i) (m := 2 ^ 32) (by decide)
  unfold int32
  omega

theorem int32_int32 (i : Int) : int32 (int32 i) = int32 i :=
  int32_eq (int32_range i).1 (int32_range i).2

theorem int64_range (i : Int) : -2 ^ 63 ≤ int64 i ∧ int64 i < 2 ^ 63 := by
  have lower := Int.le_bmod (x := i) (m := 2 ^ 64) (by decide)
  have upper := Int.bmod_lt (x := i) (m := 2 ^ 64) (by decide)
  unfold int64
  omega

/-- Differences of int64 values may wrap; adding the subtrahend back unwraps them. -/
theorem int64_sub_add (a b : Int) (lower : -2 ^ 63 ≤ a) (upper : a < 2 ^ 63) :
    int64 (b + int64 (a - b)) = a := by
  have wrapped : int64 (b + int64 (a - b)) = int64 (b + (a - b)) := by
    unfold int64
    rw [Int.add_bmod_bmod]
  rw [wrapped, show b + (a - b) = a by omega, int64_eq lower upper]

namespace Kbin

/-- `byte(u>>8(n-1)), ..., byte(u>>8), byte(u)`. -/
def bigEndian : Nat → Nat → Bytes
  | 0, _ => []
  | n + 1, u => UInt8.ofNat (u >>> (8 * n)) :: bigEndian n u

def bigEndianValue (bytes : Bytes) : Nat := bytes.foldl (fun u b => u * 256 + b.toNat) 0

@[simp] theorem bigEndian_length (n u : Nat) : (bigEndian n u).length = n := by
  induction n with
  | zero => rfl
  | succ n ih => simp only [bigEndian, List.length_cons, ih]

theorem bigEndian_foldl (n u acc : Nat) :
    (bigEndian n u).foldl (fun u b => u * 256 + b.toNat) acc =
      acc * 2 ^ (8 * n) + u % 2 ^ (8 * n) := by
  induction n generalizing acc with
  | zero => simp [bigEndian, Nat.mod_one]
  | succ n ih =>
      have power : 2 ^ (8 * (n + 1)) = 2 ^ (8 * n) * 256 := by
        rw [Nat.mul_add, Nat.pow_add]
      simp only [bigEndian, List.foldl_cons, ih, UInt8.toNat_ofNat', Nat.shiftRight_eq_div_pow]
      rw [power, Nat.mod_mul]
      ring

theorem bigEndianValue_bigEndian (n u : Nat) :
    bigEndianValue (bigEndian n u) = u % 2 ^ (8 * n) := by
  simpa [bigEndianValue] using bigEndian_foldl n u 0

/-- The unsigned word of width `8 * n` that carries a signed one. -/
def word (n : Nat) (i : Int) : Nat := (i % 2 ^ (8 * n)).toNat

def appendInt8 (dst : Bytes) (i : Int) : Bytes := dst ++ bigEndian 1 (word 1 i)
def appendInt16 (dst : Bytes) (i : Int) : Bytes := dst ++ bigEndian 2 (word 2 i)
def appendInt32 (dst : Bytes) (i : Int) : Bytes := dst ++ bigEndian 4 (word 4 i)
def appendInt64 (dst : Bytes) (i : Int) : Bytes := dst ++ bigEndian 8 (word 8 i)

def varintLen (i : Int) : Nat := Base128.uvarintLen (Base128.zigzag 32 i)
def varlongLen (i : Int) : Nat := Base128.uvarintLen (Base128.zigzag 64 i)

def appendVarint (dst : Bytes) (i : Int) : Bytes :=
  dst ++ Base128.appendUvarint (Base128.zigzag 32 i)

def appendVarlong (dst : Bytes) (i : Int) : Bytes :=
  dst ++ Base128.appendUvarint (Base128.zigzag 64 i)

def appendVarintString (dst s : Bytes) : Bytes :=
  appendVarint dst (int32 s.length) ++ s

def appendVarintBytes (dst : Bytes) : Option Bytes → Bytes
  | none => appendVarint dst (-1)
  | some b => appendVarint dst (int32 b.length) ++ b

/-- `kbin.Reader`. An exhausted reader turns bad, drops its source and yields
zero values from then on. -/
structure Reader where
  src : Bytes
  bad : Bool
deriving DecidableEq

namespace Reader

def fail : Reader := ⟨[], true⟩

/-- The shared body of `Int8`, `Int16`, `Int32` and `Int64`. -/
def fixed (n : Nat) (b : Reader) : Int × Reader :=
  if b.src.length < n then (0, fail)
  else (Int.bmod (bigEndianValue (b.src.take n)) (2 ^ (8 * n)), ⟨b.src.drop n, b.bad⟩)

def readInt8 (b : Reader) : Int × Reader := b.fixed 1
def readInt16 (b : Reader) : Int × Reader := b.fixed 2
def readInt32 (b : Reader) : Int × Reader := b.fixed 4
def readInt64 (b : Reader) : Int × Reader := b.fixed 8

def varint (b : Reader) : Int × Reader :=
  match Base128.uvarint 0x0f 4 0 0 b.src with
  | none => (0, fail)
  | some (u, n) => (Base128.unzigzag 32 u, ⟨b.src.drop n, b.bad⟩)

def varlong (b : Reader) : Int × Reader :=
  match Base128.uvarint 0x01 9 0 0 b.src with
  | none => (0, fail)
  | some (u, n) => (Base128.unzigzag 64 u, ⟨b.src.drop n, b.bad⟩)

def span (b : Reader) (l : Int) : Option Bytes × Reader :=
  if (b.src.length : Int) < l ∨ l < 0 then (none, fail)
  else (some (b.src.take l.toNat), ⟨b.src.drop l.toNat, b.bad⟩)

def varintBytes (b : Reader) : Option Bytes × Reader :=
  let (l, b) := b.varint
  if l < 0 then (none, b) else b.span l

def varintString (b : Reader) : Bytes × Reader :=
  let (s, b) := b.varintBytes
  (s.getD [], b)

def varintArrayLen (b : Reader) : Int × Reader :=
  let (r, b) := b.varint
  if (b.src.length : Int) < r then (0, fail) else (r, b)

end Reader

@[simp] theorem appendVarint_length (dst : Bytes) (i : Int) :
    (appendVarint dst i).length = dst.length + varintLen i := by
  simp only [appendVarint, List.length_append, Base128.appendUvarint_length, varintLen]

@[simp] theorem appendVarlong_length (dst : Bytes) (i : Int) :
    (appendVarlong dst i).length = dst.length + varlongLen i := by
  simp only [appendVarlong, List.length_append, Base128.appendUvarint_length, varlongLen]

@[simp] theorem appendVarintString_length (dst s : Bytes) :
    (appendVarintString dst s).length = dst.length + varintLen (int32 s.length) + s.length := by
  simp only [appendVarintString, List.length_append, appendVarint_length]

/-- Length of a nullable byte field; nil and empty both count zero. -/
def fieldLen (b : Option Bytes) : Nat := (b.getD []).length

@[simp] theorem fieldLen_none : fieldLen none = 0 := rfl
@[simp] theorem fieldLen_some (b : Bytes) : fieldLen (some b) = b.length := rfl

@[simp] theorem appendVarintBytes_length (dst : Bytes) (b : Option Bytes) :
    (appendVarintBytes dst b).length =
      dst.length + varintLen (int32 (fieldLen b)) + fieldLen b := by
  cases b with
  | none =>
      have same : varintLen (-1) = varintLen (int32 0) := by decide
      simp only [appendVarintBytes, appendVarint_length, fieldLen_none, same]
      rfl
  | some b => simp only [appendVarintBytes, List.length_append, appendVarint_length, fieldLen_some]

namespace Reader

theorem fixed_bigEndian (n : Nat) (i : Int) (rest : Bytes) (bad : Bool) :
    fixed n ⟨bigEndian n (word n i) ++ rest, bad⟩ = (Int.bmod i (2 ^ (8 * n)), ⟨rest, bad⟩) := by
  have positive : (0 : Int) < 2 ^ (8 * n) := by positivity
  have value : ((bigEndianValue (bigEndian n (word n i)) : Nat) : Int) = i % 2 ^ (8 * n) := by
    have bound := Int.emod_lt_of_pos i positive
    have nonneg := Int.emod_nonneg i (Int.ne_of_gt positive)
    have small : word n i < 2 ^ (8 * n) := by
      unfold word
      zify
      omega
    rw [bigEndianValue_bigEndian, Nat.mod_eq_of_lt small]
    unfold word
    omega
  have enough : ¬ (bigEndian n (word n i) ++ rest).length < n := by
    simp only [List.length_append, bigEndian_length]
    omega
  simp only [fixed, enough, ↓reduceIte]
  rw [List.take_left' (bigEndian_length _ _), List.drop_left' (bigEndian_length _ _), value]
  refine Prod.ext ?_ rfl
  have cast : ((2 ^ (8 * n) : Nat) : Int) = 2 ^ (8 * n) := by push_cast; rfl
  rw [← cast, Int.emod_bmod]

theorem varint_append (i : Int) (rest : Bytes) (bad : Bool)
    (lower : -2 ^ 31 ≤ i) (upper : i < 2 ^ 31) :
    varint ⟨Base128.appendUvarint (Base128.zigzag 32 i) ++ rest, bad⟩ = (i, ⟨rest, bad⟩) := by
  have small := Base128.zigzag_lt 32 i
  simp only [varint, Base128.uvarint_appendUvarint 0x0f 4 (Base128.zigzag 32 i) rest
    (by omega) (by decide)]
  rw [Base128.unzigzag_zigzag 31 i lower upper,
    List.drop_left' (Base128.appendUvarint_length _)]

theorem varlong_append (i : Int) (rest : Bytes) (bad : Bool)
    (lower : -2 ^ 63 ≤ i) (upper : i < 2 ^ 63) :
    varlong ⟨Base128.appendUvarint (Base128.zigzag 64 i) ++ rest, bad⟩ = (i, ⟨rest, bad⟩) := by
  have small := Base128.zigzag_lt 64 i
  simp only [varlong, Base128.uvarint_appendUvarint 0x01 9 (Base128.zigzag 64 i) rest
    (by omega) (by decide)]
  rw [Base128.unzigzag_zigzag 63 i lower upper,
    List.drop_left' (Base128.appendUvarint_length _)]

theorem span_append (b rest : Bytes) (bad : Bool) :
    span ⟨b ++ rest, bad⟩ b.length = (some b, ⟨rest, bad⟩) := by
  have inside : ¬ (((b ++ rest).length : Int) < b.length ∨ (b.length : Int) < 0) := by
    simp only [List.length_append]
    push_cast
    omega
  simp only [span, inside, ↓reduceIte, Int.toNat_natCast, List.take_left', List.drop_left']

theorem varintBytes_of_varint {b next : Reader} {l : Int} (read : b.varint = (l, next)) :
    b.varintBytes = if l < 0 then (none, next) else next.span l := by
  simp only [varintBytes, read]

theorem varintString_of_varintBytes {b next : Reader} {s : Option Bytes}
    (read : b.varintBytes = (s, next)) : b.varintString = (s.getD [], next) := by
  simp only [varintString, read]

theorem varintArrayLen_of_varint {b next : Reader} {r : Int} (read : b.varint = (r, next)) :
    b.varintArrayLen = if (next.src.length : Int) < r then (0, fail) else (r, next) := by
  simp only [varintArrayLen, read]

/-- A nullable field comes back as written: nil stays distinct from empty. -/
theorem varintBytes_append (b : Option Bytes) (rest : Bytes) (bad : Bool)
    (small : fieldLen b < 2 ^ 31) :
    varintBytes ⟨appendVarintBytes [] b ++ rest, bad⟩ = (b, ⟨rest, bad⟩) := by
  cases b with
  | none =>
      have read := varint_append (-1) rest bad (by omega) (by omega)
      simp only [appendVarintBytes, appendVarint, List.nil_append]
      rw [varintBytes_of_varint read, if_pos (by omega)]
  | some b =>
      rw [fieldLen_some] at small
      have exact32 : int32 b.length = b.length := int32_eq (by omega) (by omega)
      have read := varint_append (b.length : Int) (b ++ rest) bad (by omega) (by omega)
      simp only [appendVarintBytes, appendVarint, List.nil_append, List.append_assoc, exact32]
      rw [varintBytes_of_varint read, if_neg (by omega), span_append]

theorem varintString_append (s rest : Bytes) (bad : Bool) (small : s.length < 2 ^ 31) :
    varintString ⟨appendVarintString [] s ++ rest, bad⟩ = (s, ⟨rest, bad⟩) :=
  varintString_of_varintBytes (varintBytes_append (some s) rest bad small)

theorem varintArrayLen_append (r : Int) (rest : Bytes) (bad : Bool)
    (lower : 0 ≤ r) (upper : r < 2 ^ 31) (enough : r ≤ rest.length) :
    varintArrayLen ⟨Base128.appendUvarint (Base128.zigzag 32 r) ++ rest, bad⟩ =
      (r, ⟨rest, bad⟩) := by
  have read := varint_append r rest bad (by omega) upper
  rw [varintArrayLen_of_varint read, if_neg (by simp only; omega)]

end Reader

end Kbin

end Warpstream
