/-
Bit fields of a machine word.

A word is put together by `|||` from fields, each a narrow bit vector widened and
shifted to its place.  Reading a range of bits back gives the field that lies there and
nothing of the fields that lie elsewhere.
-/
import Mathlib.Algebra.Group.Nat.Defs
import Mathlib.Data.Nat.Notation

namespace VitaSX2.BitField

variable {n w : ℕ}

/-- The field `x` at bit `k` of a word of `n` bits. -/
def field (n k : ℕ) (x : BitVec w) : BitVec n := x.setWidth n <<< k

lemma getLsbD_field (k : ℕ) (x : BitVec w) (i : ℕ) :
    (field n k x).getLsbD i = (decide (i < n) && (decide (k ≤ i) && x.getLsbD (i - k))) := by
  rw [field, BitVec.getLsbD_shiftLeft, BitVec.getLsbD_setWidth]
  by_cases hi : i < n
  · have hshift : i - k < n := by omega
    by_cases hk : k ≤ i
    · simp [hi, hk, hshift]
    · simp [hk, Nat.lt_of_not_le hk]
  · simp [hi]

/-- A field is read back from its place. -/
lemma extract_field (k : ℕ) (x : BitVec w) (h : k + w ≤ n) :
    (field n k x).extractLsb' k w = x := by
  apply BitVec.eq_of_getLsbD_eq
  intro i hi
  rw [BitVec.getLsbD_extractLsb', getLsbD_field]
  have hn : k + i < n := by omega
  simp [hi, hn]

/-- Nothing of a field is read from another place. -/
lemma extract_field_of_apart (k p q : ℕ) (x : BitVec w) (h : p + q ≤ k ∨ k + w ≤ p) :
    (field n k x).extractLsb' p q = 0 := by
  apply BitVec.eq_of_getLsbD_eq
  intro i hi
  rw [BitVec.getLsbD_extractLsb', getLsbD_field]
  have hread : ¬k ≤ p + i ∨ x.getLsbD (p + i - k) = false := by
    rcases h with h | h
    · exact Or.inl (by omega)
    · exact Or.inr (BitVec.getLsbD_of_ge x _ (by omega))
  rcases hread with hread | hread <;> simp [hread]

/-- A range of bits read in two steps. -/
lemma extract_extract (x : BitVec n) (p q b : ℕ) (h : q + b ≤ w) :
    (x.extractLsb' p w).extractLsb' q b = x.extractLsb' (p + q) b := by
  apply BitVec.eq_of_getLsbD_eq
  intro i hi
  have hlt : q + i < w := by omega
  simp only [BitVec.getLsbD_extractLsb', hi, hlt, decide_true, Bool.true_and]
  congr 1
  omega

/-- A mask of the low bits keeps the narrow value. -/
lemma setWidth_and_mask (x : ℕ) :
    BitVec.ofNat n x &&& BitVec.ofNat n (2 ^ w - 1) = (BitVec.ofNat w x).setWidth n := by
  apply BitVec.eq_of_getLsbD_eq
  intro i hi
  simp only [BitVec.getLsbD_and, BitVec.getLsbD_setWidth, BitVec.getLsbD_ofNat,
    Nat.testBit_two_pow_sub_one, hi, decide_true, Bool.true_and]
  exact Bool.and_comm _ _

/-! ### Clearing bits -/

/-- The bits of a mask and the others make up the word. -/
lemma and_not_add_and (x m : BitVec n) : (x &&& ~~~ m).toNat + (x &&& m).toNat = x.toNat := by
  have hparts : (x &&& ~~~ m) + (x &&& m) = x := by
    rw [BitVec.add_eq_or_of_and_eq_zero]
    · ext i
      simp only [BitVec.getElem_or, BitVec.getElem_and, BitVec.getElem_not]
      cases x[i] <;> cases m[i] <;> rfl
    · ext i
      simp only [BitVec.getElem_and, BitVec.getElem_not, BitVec.getElem_zero]
      cases x[i] <;> cases m[i] <;> rfl
  have hsum : ((x &&& ~~~ m).toNat + (x &&& m).toNat) % 2 ^ n = x.toNat := by
    rw [← BitVec.toNat_add, hparts]
  have hclear : (x &&& ~~~ m).toNat ≤ x.toNat := by
    rw [BitVec.toNat_and]
    exact Nat.and_le_left
  have hkeep := (x &&& m).isLt
  -- A carry out of the word would leave less than the first part.
  by_cases hlt : (x &&& ~~~ m).toNat + (x &&& m).toNat < 2 ^ n
  · rwa [Nat.mod_eq_of_lt hlt] at hsum
  · rw [Nat.mod_eq_sub_mod (Nat.le_of_not_lt hlt),
      Nat.mod_eq_of_lt (by have hbound := (x &&& ~~~ m).isLt; omega)] at hsum
    omega

/-- Clearing the low bits rounds down to a multiple. -/
lemma toNat_and_not_mask (x : BitVec n) {k : ℕ} (hk : k < n) :
    (x &&& ~~~ BitVec.ofNat n (2 ^ k - 1)).toNat = x.toNat / 2 ^ k * 2 ^ k := by
  have hmask : (x &&& BitVec.ofNat n (2 ^ k - 1)).toNat = x.toNat % 2 ^ k := by
    have hpos := Nat.two_pow_pos k
    have hlt : 2 ^ k < 2 ^ n := Nat.pow_lt_pow_right Nat.one_lt_two hk
    rw [BitVec.toNat_and, BitVec.toNat_ofNat, Nat.mod_eq_of_lt (by omega),
      Nat.and_two_pow_sub_one_eq_mod]
  have hsum := and_not_add_and x (BitVec.ofNat n (2 ^ k - 1))
  have hdiv := Nat.div_add_mod' x.toNat (2 ^ k)
  omega

/-! ### Spreading bits -/

/-- A number whose bits are spread to `d` places is spread to twice as many. -/
lemma testBit_or_shiftRight {x y d : ℕ}
    (h : ∀ i, y.testBit i = true ↔ ∃ e < d, x.testBit (i + e) = true) (i : ℕ) :
    (y ||| y >>> d).testBit i = true ↔ ∃ e < d + d, x.testBit (i + e) = true := by
  rw [Nat.testBit_or, Nat.testBit_shiftRight, Bool.or_eq_true, h, h]
  constructor
  · rintro (⟨e, he, hbit⟩ | ⟨e, he, hbit⟩)
    · exact ⟨e, by omega, hbit⟩
    · exact ⟨d + e, by omega, by rwa [show i + (d + e) = d + i + e by omega]⟩
  · rintro ⟨e, he, hbit⟩
    by_cases hlt : e < d
    · exact Or.inl ⟨e, hlt, hbit⟩
    · exact Or.inr ⟨e - d, by omega, by rwa [show d + i + (e - d) = i + e by omega]⟩

/-- A number whose bits are spread to all places is one below a power of two. -/
lemma exists_two_pow_of_spread {x y d : ℕ} (hx : x < 2 ^ d)
    (h : ∀ i, y.testBit i = true ↔ ∃ e < d, x.testBit (i + e) = true) :
    ∃ k, y + 1 = 2 ^ k ∧ x < 2 ^ k := by
  by_cases hzero : x = 0
  · subst hzero
    refine ⟨0, ?_, Nat.one_pos⟩
    have hy : y = 0 := by
      refine Nat.eq_of_testBit_eq fun i => ?_
      rw [Nat.zero_testBit, ← Bool.not_eq_true, h]
      rintro ⟨e, -, hbit⟩
      rw [Nat.zero_testBit] at hbit
      cases hbit
    subst hy
    rfl
  · have hy : y = 2 ^ (x.log2 + 1) - 1 := by
      refine Nat.eq_of_testBit_eq fun i => Bool.eq_iff_iff.mpr ?_
      rw [h, Nat.testBit_two_pow_sub_one, decide_eq_true_iff]
      constructor
      · rintro ⟨e, -, hbit⟩
        have hle := (Nat.le_log2 hzero).mpr (Nat.ge_two_pow_of_testBit hbit)
        omega
      · intro hi
        have hlog := (Nat.log2_lt hzero).mpr hx
        refine ⟨x.log2 - i, by omega, ?_⟩
        rw [Nat.add_sub_cancel' (Nat.le_of_lt_succ hi)]
        exact Nat.testBit_log2 hzero
    have hpos := Nat.two_pow_pos (x.log2 + 1)
    exact ⟨x.log2 + 1, by omega, Nat.lt_log2_self⟩

end VitaSX2.BitField
