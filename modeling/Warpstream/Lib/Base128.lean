import Mathlib.Data.Nat.Size
import Mathlib.Tactic

set_option autoImplicit false

/- Little-endian base-128 numbers with a continuation bit, and the zigzag map
that folds signed words into unsigned ones. -/
namespace Base128

/-- Number of significant bits of `u`, zero for zero. -/
def bitLen (u : Nat) : Nat := if u = 0 then 0 else u.log2 + 1

theorem bitLen_le_iff (u k : Nat) : bitLen u ≤ k ↔ u < 2 ^ k := by
  unfold bitLen
  by_cases zero : u = 0
  · simp [zero]
  · simp only [zero, ↓reduceIte, Nat.succ_le_iff]
    exact Nat.log2_lt zero

/-- Bytes needed for a number of the given bit length. -/
def lenOfBits (bits : Nat) : Nat := max 1 ((bits + 6) / 7)

def uvarintLen (u : Nat) : Nat := lenOfBits (bitLen u)

theorem uvarintLen_pos (u : Nat) : 1 ≤ uvarintLen u := Nat.le_max_left _ _

theorem uvarintLen_le_iff (u n : Nat) (positive : 1 ≤ n) :
    uvarintLen u ≤ n ↔ u < 2 ^ (7 * n) := by
  rw [← bitLen_le_iff]
  unfold uvarintLen lenOfBits
  omega

theorem lt_pow_uvarintLen (u : Nat) : u < 2 ^ (7 * uvarintLen u) :=
  (uvarintLen_le_iff u _ (uvarintLen_pos u)).mp (Nat.le_refl _)

/-- The first `n - 1` bytes carry seven bits and the continuation bit, the last
one whatever is left of the number. -/
def uvarintBytes : Nat → Nat → List UInt8
  | 0, _ => []
  | 1, u => [UInt8.ofNat u]
  | n + 2, u => UInt8.ofNat (u &&& 0x7f ||| 0x80) :: uvarintBytes (n + 1) (u >>> 7)

@[simp] theorem uvarintBytes_length (n u : Nat) : (uvarintBytes n u).length = n := by
  induction n generalizing u with
  | zero => rfl
  | succ n ih =>
      cases n with
      | zero => rfl
      | succ n => simp only [uvarintBytes, List.length_cons, ih]

def appendUvarint (u : Nat) : List UInt8 := uvarintBytes (uvarintLen u) u

@[simp] theorem appendUvarint_length (u : Nat) : (appendUvarint u).length = uvarintLen u :=
  uvarintBytes_length _ _

/-- The unrolled decoder: at most `more` continued bytes come before a last byte
that may not exceed `lastMax`. The result is the number and the bytes read. -/
def uvarint (lastMax : Nat) : Nat → Nat → Nat → List UInt8 → Option (Nat × Nat)
  | _, _, _, [] => none
  | 0, read, x, b :: _ =>
      if b.toNat ≤ lastMax then some (x ||| b.toNat <<< (7 * read), read + 1) else none
  | more + 1, read, x, b :: rest =>
      if b.toNat &&& 0x80 = 0 then some (x ||| (b.toNat &&& 0x7f) <<< (7 * read), read + 1)
      else uvarint lastMax more (read + 1) (x ||| (b.toNat &&& 0x7f) <<< (7 * read)) rest

theorem and_low (u : Nat) : u &&& 0x7f = u % 128 := Nat.and_two_pow_sub_one_eq_mod u 7

theorem continued_byte (u : Nat) : (UInt8.ofNat (u &&& 0x7f ||| 0x80)).toNat = u % 128 + 128 := by
  have low : u % 128 < 2 ^ 7 := Nat.mod_lt _ (by decide)
  have joined := Nat.two_pow_add_eq_or_of_lt low 1
  have sum : u % 128 ||| 0x80 = 128 + u % 128 := by
    rw [Nat.or_comm]
    exact joined.symm
  rw [and_low, sum, UInt8.toNat_ofNat']
  omega

theorem high_bit (b : Nat) (byte : b < 256) : b &&& 0x80 = 0 ↔ b < 128 := by
  interval_cases b <;> decide

theorem or_shift (x y k : Nat) (low : x < 2 ^ k) : x ||| y <<< k = x + y * 2 ^ k := by
  rw [Nat.shiftLeft_eq, Nat.or_comm, Nat.mul_comm y, ← Nat.two_pow_add_eq_or_of_lt low y]
  omega

theorem pow_step (read : Nat) : 2 ^ (7 * (read + 1)) = 128 * 2 ^ (7 * read) := by
  rw [Nat.mul_add, Nat.pow_add]
  omega

/-- Reading a canonical encoding consumes exactly its bytes, whatever follows. -/
theorem uvarint_uvarintBytes (lastMax more n read x u : Nat) (rest : List UInt8)
    (fits : n + 1 ≤ more + 1) (small : u < 2 ^ (7 * (n + 1)))
    (last : n = more → u / 2 ^ (7 * n) ≤ lastMax) (low : x < 2 ^ (7 * read)) :
    uvarint lastMax more read x (uvarintBytes (n + 1) u ++ rest) =
      some (x + u * 2 ^ (7 * read), read + (n + 1)) := by
  induction n generalizing more read x u with
  | zero =>
      have byte : (UInt8.ofNat u).toNat = u := by
        rw [UInt8.toNat_ofNat']
        omega
      cases more with
      | zero =>
          have bound := last rfl
          simp only [Nat.mul_zero, Nat.pow_zero, Nat.div_one] at bound
          simp only [uvarintBytes, List.cons_append, uvarint, byte, bound, ↓reduceIte,
            or_shift _ _ _ low, Nat.zero_add]
      | succ more =>
          have clear : u &&& 0x80 = 0 := (high_bit u (by omega)).mpr (by omega)
          have seven : u &&& 0x7f = u := by
            rw [and_low]
            omega
          simp only [uvarintBytes, List.cons_append, uvarint, byte, clear, seven, ↓reduceIte,
            or_shift _ _ _ low, Nat.zero_add]
  | succ n ih =>
      cases more with
      | zero => omega
      | succ more =>
          have set : ¬ (u % 128 + 128) &&& 0x80 = 0 := by
            rw [high_bit _ (by omega)]
            omega
          have seven : (u % 128 + 128) &&& 0x7f = u % 128 := by
            rw [and_low]
            omega
          have shifted : u >>> 7 = u / 128 := Nat.shiftRight_eq_div_pow u 7
          have nextLow : x + u % 128 * 2 ^ (7 * read) < 2 ^ (7 * (read + 1)) := by
            have digit : u % 128 ≤ 127 := by omega
            have scaled := Nat.mul_le_mul_right (2 ^ (7 * read)) digit
            rw [pow_step]
            omega
          simp only [uvarintBytes, List.cons_append, uvarint, continued_byte, set, seven, shifted,
            ↓reduceIte, or_shift _ _ _ low]
          rw [ih more (read + 1) _ (u / 128) (by omega) ?_ ?_ nextLow]
          · have split := Nat.mod_add_div u 128
            rw [pow_step]
            congr 1
            refine Prod.ext ?_ (by simp only; omega)
            calc x + u % 128 * 2 ^ (7 * read) + u / 128 * (128 * 2 ^ (7 * read))
                = x + (u % 128 + 128 * (u / 128)) * 2 ^ (7 * read) := by ring
              _ = x + u * 2 ^ (7 * read) := by rw [split]
          · rw [pow_step] at small
            omega
          · intro atLimit
            have bound := last (by omega)
            rwa [pow_step, ← Nat.div_div_eq_div_mul] at bound

theorem uvarint_appendUvarint (lastMax more u : Nat) (rest : List UInt8)
    (small : u < (lastMax + 1) * 2 ^ (7 * more)) (lastByte : lastMax < 128) :
    uvarint lastMax more 0 0 (appendUvarint u ++ rest) = some (u, uvarintLen u) := by
  have wide : u < 2 ^ (7 * (more + 1)) := by
    have scaled := Nat.mul_le_mul_right (2 ^ (7 * more)) (show lastMax + 1 ≤ 128 by omega)
    rw [pow_step]
    omega
  have bounded := (uvarintLen_le_iff u (more + 1) (by omega)).mpr wide
  have positive := uvarintLen_pos u
  obtain ⟨n, length⟩ : ∃ n, uvarintLen u = n + 1 := ⟨uvarintLen u - 1, by omega⟩
  have size := lt_pow_uvarintLen u
  unfold appendUvarint
  rw [length] at size bounded ⊢
  rw [uvarint_uvarintBytes lastMax more n 0 0 u rest bounded size ?_ (by simp)]
  · simp
  · rintro rfl
    have quotient := (Nat.div_lt_iff_lt_mul (Nat.two_pow_pos (7 * n))).mpr small
    omega

/-- Sign folding at width `w`, `u(i) << 1 ^ u(i >> (w - 1))` on machine words. -/
def zigzag (w : Nat) (i : Int) : Nat :=
  (BitVec.ofInt w i <<< 1 ^^^ (BitVec.ofInt w i).sshiftRight (w - 1)).toNat

/-- The inverse, `(x >> 1) ^ -(x & 1)` read as a signed word. -/
def unzigzag (w x : Nat) : Int :=
  (BitVec.ofNat w x >>> 1 ^^^ -(BitVec.ofNat w x &&& 1#w)).toInt

theorem zigzag_lt (w : Nat) (i : Int) : zigzag w i < 2 ^ w := BitVec.isLt _

theorem sign_word_of_nonneg {w : Nat} (x : BitVec w) (clear : x.msb = false) :
    x.sshiftRight (w - 1) = 0#w := by
  apply BitVec.eq_of_getLsbD_eq
  intro k bound
  rw [BitVec.getLsbD_sshiftRight]
  by_cases inside : w - 1 + k < w
  · have top : w - 1 + k = w - 1 := by omega
    have bit : x.getLsbD (w - 1) = false := by
      rw [← BitVec.msb_eq_getLsbD_last]
      exact clear
    simp only [top, bit, clear, ite_self, Bool.and_false, BitVec.getLsbD_zero]
  · simp [inside, clear]

theorem sign_word_of_neg {w : Nat} (x : BitVec w) (set : x.msb = true) :
    x.sshiftRight (w - 1) = BitVec.allOnes w := by
  apply BitVec.eq_of_getLsbD_eq
  intro k bound
  rw [BitVec.getLsbD_sshiftRight]
  by_cases inside : w - 1 + k < w
  · have top : w - 1 + k = w - 1 := by omega
    have bit : x.getLsbD (w - 1) = true := by
      rw [← BitVec.msb_eq_getLsbD_last]
      exact set
    simp [top, bit, set, bound]
  · simp [inside, set, bound]

/-- Zigzag sends `0, -1, 1, -2, ...` to `0, 1, 2, 3, ...`. -/
theorem zigzag_value (w : Nat) (i : Int) (lower : -(2 ^ w : Int) ≤ i) (upper : i < 2 ^ w) :
    (zigzag (w + 1) i : Int) = if 0 ≤ i then 2 * i else -2 * i - 1 := by
  have power : (2 : Int) ^ (w + 1) = 2 * 2 ^ w := by ring
  have natPower : (2 : Nat) ^ (w + 1) = 2 * 2 ^ w := by ring
  have cast : ((2 ^ w : Nat) : Int) = 2 ^ w := by push_cast; rfl
  have positive : (0 : Int) < 2 ^ w := by positivity
  have word : (BitVec.ofInt (w + 1) i).toInt = i := by
    rw [BitVec.toInt_ofInt]
    apply Int.bmod_eq_of_le
    · push_cast
      rw [power]
      omega
    · push_cast
      rw [power]
      omega
  have natWord : ((BitVec.ofInt (w + 1) i).toNat : Int) = i % (2 * 2 ^ w) := by
    rw [BitVec.toNat_ofInt, Int.toNat_of_nonneg (Int.emod_nonneg _ (by positivity))]
    push_cast
    rw [power]
  have bound := (BitVec.ofInt (w + 1) i).isLt
  unfold zigzag
  by_cases sign : 0 ≤ i
  · have clear : (BitVec.ofInt (w + 1) i).msb = false := by
      rw [BitVec.msb_eq_toInt, word]
      simp [sign]
    have value : ((BitVec.ofInt (w + 1) i).toNat : Int) = i := by
      rw [natWord, Int.emod_eq_of_lt sign (by omega)]
    rw [sign_word_of_nonneg _ clear]
    simp only [BitVec.xor_zero, BitVec.toNat_shiftLeft, Nat.shiftLeft_eq, sign, ↓reduceIte]
    rw [Nat.mod_eq_of_lt (by omega)]
    push_cast
    omega
  · have set : (BitVec.ofInt (w + 1) i).msb = true := by
      rw [BitVec.msb_eq_toInt, word]
      simp only [decide_eq_true_eq]
      omega
    have value : ((BitVec.ofInt (w + 1) i).toNat : Int) = i + 2 * 2 ^ w := by
      rw [natWord, ← Int.add_emod_right, Int.emod_eq_of_lt (by omega) (by omega)]
    rw [sign_word_of_neg _ set, BitVec.xor_allOnes]
    simp only [BitVec.toNat_not, BitVec.toNat_shiftLeft, Nat.shiftLeft_eq, sign, ↓reduceIte,
      Nat.pow_one]
    have wrapped : (BitVec.ofInt (w + 1) i).toNat * 2 % 2 ^ (w + 1) =
        (BitVec.ofInt (w + 1) i).toNat * 2 - 2 ^ (w + 1) := by
      rw [Nat.mod_eq_sub_mod (by omega), Nat.mod_eq_of_lt (by omega)]
    rw [wrapped]
    omega

theorem unzigzag_even (w : Nat) (n : Nat) (small : n < 2 ^ w) :
    unzigzag (w + 1) (2 * n) = n := by
  have natPower : (2 : Nat) ^ (w + 1) = 2 * 2 ^ w := by ring
  have low : BitVec.ofNat (w + 1) (2 * n) &&& 1#(w + 1) = 0#(w + 1) := by
    apply BitVec.eq_of_toNat_eq
    simp only [BitVec.toNat_and, BitVec.toNat_ofNat, Nat.mod_eq_of_lt (show 2 * n < 2 ^ (w + 1) by omega),
      Nat.mod_eq_of_lt (show 1 < 2 ^ (w + 1) by have := Nat.two_pow_pos w; omega), Nat.and_one_is_mod,
      Nat.zero_mod]
    omega
  have half : (BitVec.ofNat (w + 1) (2 * n) >>> 1).toNat = n := by
    rw [BitVec.toNat_ushiftRight, BitVec.toNat_ofNat, Nat.mod_eq_of_lt (by omega),
      Nat.shiftRight_eq_div_pow]
    omega
  unfold unzigzag
  rw [low, BitVec.neg_zero, BitVec.xor_zero, BitVec.toInt_eq_toNat_of_lt (by rw [half]; omega), half]

theorem unzigzag_odd (w : Nat) (n : Nat) (small : n < 2 ^ w) :
    unzigzag (w + 1) (2 * n + 1) = -(n : Int) - 1 := by
  have natPower : (2 : Nat) ^ (w + 1) = 2 * 2 ^ w := by ring
  have low : BitVec.ofNat (w + 1) (2 * n + 1) &&& 1#(w + 1) = 1#(w + 1) := by
    apply BitVec.eq_of_toNat_eq
    simp only [BitVec.toNat_and, BitVec.toNat_ofNat,
      Nat.mod_eq_of_lt (show 2 * n + 1 < 2 ^ (w + 1) by omega),
      Nat.mod_eq_of_lt (show 1 < 2 ^ (w + 1) by have := Nat.two_pow_pos w; omega), Nat.and_one_is_mod]
    omega
  have half : (BitVec.ofNat (w + 1) (2 * n + 1) >>> 1).toNat = n := by
    rw [BitVec.toNat_ushiftRight, BitVec.toNat_ofNat, Nat.mod_eq_of_lt (by omega),
      Nat.shiftRight_eq_div_pow]
    omega
  unfold unzigzag
  have word : (~~~(BitVec.ofNat (w + 1) (2 * n + 1) >>> 1)).toNat = 2 ^ (w + 1) - 1 - n := by
    rw [BitVec.toNat_not, half]
  rw [low, BitVec.neg_one_eq_allOnes, BitVec.xor_allOnes, BitVec.toInt_eq_toNat_cond, word]
  rw [if_neg (by omega)]
  omega

theorem unzigzag_zigzag (w : Nat) (i : Int) (lower : -(2 ^ w : Int) ≤ i) (upper : i < 2 ^ w) :
    unzigzag (w + 1) (zigzag (w + 1) i) = i := by
  have value := zigzag_value w i lower upper
  have cast : ((2 ^ w : Nat) : Int) = 2 ^ w := by push_cast; rfl
  by_cases sign : 0 ≤ i
  · have even : zigzag (w + 1) i = 2 * i.toNat := by
      simp only [sign, ↓reduceIte] at value
      omega
    rw [even, unzigzag_even w _ (by omega)]
    omega
  · have odd : zigzag (w + 1) i = 2 * (-i - 1).toNat + 1 := by
      simp only [sign, ↓reduceIte] at value
      omega
    rw [odd, unzigzag_odd w _ (by omega)]
    omega

end Base128
