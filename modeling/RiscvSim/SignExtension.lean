import Mathlib.Tactic

/-!
Narrow values in wide words: sign extension, also as it is written by hand in C, when a
zero-extended value is sign-extended too, and the two halves of a word.
-/
namespace RiscvSim.Words

variable {w n : Nat}

theorem getLsbD_signExtend_setWidth (v : BitVec w) (positive : 0 < n) {v' : Nat} (i : Nat) (inside : i < v') :
    ((v.setWidth n).signExtend v').getLsbD i = v.getLsbD (min i (n-1)) := by
  rw [BitVec.getLsbD_signExtend]
  by_cases low : i < n
  · simp [inside,low,Nat.min_eq_left (show i ≤ n-1 by omega)]
  · simp [inside,low,BitVec.msb_setWidth,Nat.min_eq_right (show n-1 ≤ i by omega),positive]

theorem signExtend_signExtend {v' : Nat} (v : BitVec n) (wider : n ≤ w) :
    (v.signExtend w).signExtend v' = v.signExtend v' := by
  rw [BitVec.signExtend,BitVec.toInt_signExtend_of_le wider]
  rfl

theorem setWidth_signExtend {k : Nat} (v : BitVec n) (narrow : k ≤ n) (inside : n ≤ w) :
    (v.signExtend w).setWidth k = v.setWidth k := by
  apply BitVec.eq_of_getLsbD_eq
  intro i small
  rw [BitVec.getLsbD_setWidth,BitVec.getLsbD_setWidth,BitVec.getLsbD_signExtend]
  have here : i < w ∧ i < n := by omega
  simp [here]

/-! ### Extension by hand -/

theorem getLsbD_ones (k : Nat) : (BitVec.ofNat w (2^n-1)).getLsbD k = (decide (k < w) && decide (k < n)) := by
  rw [BitVec.getLsbD_ofNat,Nat.testBit_two_pow_sub_one]

theorem and_ne_zero (v mask : BitVec w) : v &&& mask ≠ 0 ↔ ∃ i < w, v.getLsbD i = true ∧ mask.getLsbD i = true := by
  constructor
  · intro nonzero
    by_contra none
    push Not at none
    refine nonzero (BitVec.eq_of_getLsbD_eq fun i inside => ?_)
    rw [BitVec.getLsbD_and]
    by_cases set : v.getLsbD i = true
    · simp [none i inside set]
    · simp [set]
  · rintro ⟨i,inside,set,masked⟩ zero
    have bit := congrArg (fun u : BitVec w => u.getLsbD i) zero
    simp only [BitVec.getLsbD_and,set,masked] at bit
    exact absurd bit (by simp)

/-- A mask whose lowest bit is `n` tests that bit of a value that has none above. -/
theorem and_ne_zero_iff {v mask : BitVec w} (top : ∀ i, n < i → v.getLsbD i = false)
    (low : ∀ i < n, mask.getLsbD i = false) (here : mask.getLsbD n = true) : v &&& mask ≠ 0 ↔ v.getLsbD n = true := by
  rw [and_ne_zero]
  constructor
  · rintro ⟨i,_,set,masked⟩
    rcases Nat.lt_trichotomy i n with less | same | more
    · simp [low i less] at masked
    · rwa [← same]
    · simp [top i more] at set
  · intro set
    exact ⟨n,BitVec.lt_of_getLsbD set,set,here⟩

/-- The test of the sign bit and the `or` with all bits above are the sign extension exactly if the sign is set or the
    value has no bits above it. -/
theorem or_high_eq_signExtend_iff {v mask : BitVec w} (positive : 0 < n) (low : ∀ i < n-1, mask.getLsbD i = false)
    (here : mask.getLsbD (n-1) = true) :
    (if v &&& mask ≠ 0 then v ||| BitVec.allOnes w <<< n else v) = (v.setWidth n).signExtend w ↔
      v.getLsbD (n-1) = true ∨ ∀ i, n ≤ i → v.getLsbD i = false := by
  by_cases set : v.getLsbD (n-1) = true
  · have masked : v &&& mask ≠ 0 := (and_ne_zero v mask).mpr ⟨n-1,BitVec.lt_of_getLsbD set,set,here⟩
    refine ⟨fun _ => .inl set,fun _ => ?_⟩
    apply BitVec.eq_of_getLsbD_eq
    intro i inside
    rw [if_pos masked,getLsbD_signExtend_setWidth v positive i inside]
    by_cases under : i < n
    · rw [Nat.min_eq_left (by omega)]
      simp [under]
    · rw [Nat.min_eq_right (by omega),set]
      simp [inside,under]
  · have clear_sign : v.getLsbD (n-1) = false := by simpa using set
    constructor
    · intro same
      refine .inr fun i past => ?_
      by_cases inside : i < w
      · have bit := congrArg (fun u : BitVec w => u.getLsbD i) same
        rw [getLsbD_signExtend_setWidth v positive i inside,Nat.min_eq_right (by omega),clear_sign] at bit
        split at bit
        · simp [inside,Nat.not_lt.mpr past] at bit
        · exact bit
      · exact BitVec.getLsbD_of_ge v i (by omega)
    · intro clear
      have top := clear.resolve_left set
      have unmasked : ¬ (v &&& mask ≠ 0) := by
        rw [and_ne_zero_iff (fun i more => top i (by omega)) low here]
        exact set
      apply BitVec.eq_of_getLsbD_eq
      intro i inside
      rw [if_neg unmasked,getLsbD_signExtend_setWidth v positive i inside]
      by_cases under : i < n
      · rw [Nat.min_eq_left (by omega)]
      · rw [Nat.min_eq_right (by omega),top i (by omega),clear_sign]

theorem or_high_eq_signExtend {v mask : BitVec w} (positive : 0 < n)
    (top : ∀ i, n ≤ i → v.getLsbD i = false) (low : ∀ i < n-1, mask.getLsbD i = false)
    (here : mask.getLsbD (n-1) = true) :
    (if v &&& mask ≠ 0 then v ||| BitVec.allOnes w <<< n else v) = (v.setWidth n).signExtend w :=
  (or_high_eq_signExtend_iff positive low here).mpr (.inr top)

theorem toNat_lt_two_pow_iff (v : BitVec w) : v.toNat < 2^n ↔ ∀ i, n ≤ i → v.getLsbD i = false := by
  constructor
  · intro small i past
    exact Nat.testBit_lt_two_pow (Nat.lt_of_lt_of_le small (Nat.pow_le_pow_right (by omega) past))
  · intro top
    exact Nat.lt_pow_two_of_testBit _ top

/-! ### Values that fit -/

/-- Zeros and the sign above a value are the same exactly if it is not negative. -/
theorem setWidth_eq_signExtend_iff (v : BitVec n) (wider : n < w) : v.setWidth w = v.signExtend w ↔ v.msb = false := by
  constructor
  · intro same
    have bit := congrArg (fun u : BitVec w => u.getLsbD n) same
    simpa [wider,BitVec.getLsbD_signExtend,-BitVec.getLsbD_eq_getElem] using bit.symm
  · intro clear
    exact (BitVec.signExtend_eq_setWidth_of_msb_false clear).symm

/-- A zero-extended value is the sign extension of a narrow one exactly if it is not negative. -/
theorem exists_signExtend_iff (v : BitVec n) (wider : n < w) :
    (∃ u : BitVec n, v.setWidth w = u.signExtend w) ↔ v.msb = false := by
  constructor
  · rintro ⟨u,same⟩
    have cut : v = u := by
      apply BitVec.eq_of_getLsbD_eq
      intro i inside
      have bit := congrArg (fun t : BitVec w => t.getLsbD i) same
      have within : i < w := by omega
      simpa only [BitVec.getLsbD_setWidth,BitVec.getLsbD_signExtend,within,inside,decide_true,Bool.true_and,
        if_true] using bit
    subst cut
    exact (setWidth_eq_signExtend_iff v wider).mp same
  · intro clear
    exact ⟨v,(setWidth_eq_signExtend_iff v wider).mpr clear⟩

/-- A value is the extension of its low bits exactly if they can hold it. -/
theorem signExtend_setWidth_eq_iff (v : BitVec w) (positive : 0 < n) (narrow : n ≤ w) :
    (v.setWidth n).signExtend w = v ↔ -2^(n-1) ≤ v.toInt ∧ v.toInt < 2^(n-1) := by
  constructor
  · intro same
    have read := BitVec.toInt_signExtend_of_le (x := v.setWidth n) narrow
    rw [same] at read
    rw [read]
    exact ⟨BitVec.le_toInt _,BitVec.toInt_lt⟩
  · rintro ⟨low,high⟩
    apply BitVec.eq_of_toInt_eq
    have half : ((2^n : Nat) : Int) = 2*2^(n-1) := by
      rw [← pow_succ',Nat.sub_add_cancel positive]
      push_cast
      rfl
    rw [BitVec.toInt_signExtend_of_le narrow,← BitVec.signExtend_eq_setWidth_of_le v narrow,BitVec.toInt_signExtend,
      Nat.min_eq_left narrow]
    apply Int.bmod_eq_of_le <;> omega

/-! ### Halves -/

/-- The upper half of a word. -/
def upper (v : BitVec (2*n)) : BitVec n := v.extractLsb' n n

theorem getLsbD_upper (v : BitVec (2*n)) (i : Nat) : (upper v).getLsbD i = v.getLsbD (n+i) := by
  unfold upper
  by_cases inside : i < n
  · simp [inside]
  · rw [BitVec.getLsbD_of_ge v _ (by omega)]
    simp [inside]

theorem upper_eq_iff (u v : BitVec (2*n)) : upper u = upper v ↔ ∀ i, n ≤ i → u.getLsbD i = v.getLsbD i := by
  constructor
  · intro same i past
    have bit := congrArg (fun t : BitVec n => t.getLsbD (i-n)) same
    simpa only [getLsbD_upper,Nat.add_sub_cancel' past] using bit
  · intro same
    apply BitVec.eq_of_getLsbD_eq
    intro i inside
    rw [getLsbD_upper,getLsbD_upper,same _ (by omega)]

/-- A short logical shift right of the word and of its low half are the same exactly if the upper half is zero. -/
theorem ushiftRight_low_iff (v : BitVec (2*n)) {s : Nat} (short : s < n) :
    v >>> s = (v.setWidth n >>> s).setWidth (2*n) ↔ upper v = 0 := by
  rw [show (0 : BitVec n) = upper (0 : BitVec (2*n)) by simp [upper],upper_eq_iff]
  constructor
  · intro same i past
    have bit := congrArg (fun u : BitVec (2*n) => u.getLsbD (i-s)) same
    have place : s + (i-s) = i := by omega
    rw [BitVec.getLsbD_ushiftRight,BitVec.getLsbD_setWidth,BitVec.getLsbD_ushiftRight,
      BitVec.getLsbD_setWidth,place] at bit
    rw [bit]
    simp [Nat.not_lt.mpr past]
  · intro zero
    apply BitVec.eq_of_getLsbD_eq
    intro i inside
    rw [BitVec.getLsbD_ushiftRight,BitVec.getLsbD_setWidth,BitVec.getLsbD_ushiftRight,BitVec.getLsbD_setWidth]
    by_cases low : s+i < n
    · simp [inside,low]
    · rw [zero (s+i) (by omega)]
      simp [low]

/-- A longer one is that of the upper half. -/
theorem ushiftRight_high_iff (v : BitVec (2*n)) (r : Nat) :
    v >>> (n+r) = (v.setWidth n >>> r).setWidth (2*n) ↔ upper v >>> r = v.setWidth n >>> r := by
  constructor
  · intro same
    apply BitVec.eq_of_getLsbD_eq
    intro i inside
    have bit := congrArg (fun u : BitVec (2*n) => u.getLsbD i) same
    have wide : i < 2*n := by omega
    rw [BitVec.getLsbD_ushiftRight,BitVec.getLsbD_setWidth,Nat.add_assoc,← getLsbD_upper] at bit
    rw [BitVec.getLsbD_ushiftRight,bit]
    simp [wide]
  · intro same
    apply BitVec.eq_of_getLsbD_eq
    intro i inside
    rw [BitVec.getLsbD_ushiftRight,BitVec.getLsbD_setWidth,Nat.add_assoc,← getLsbD_upper,
      ← BitVec.getLsbD_ushiftRight,same]
    simp [inside]

end RiscvSim.Words
