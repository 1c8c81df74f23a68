import Mathlib.Tactic

/-!
Little-endian byte buffers. A buffer is what a pointer reaches: the byte at each
distance from it. A bit vector and the buffer it is stored in determine each other
through `byteAt` and `value`; `copy` and `fill` are the C routines `memcpy` and
`memset` with the destination returned.
-/
namespace RiscvSim.Bytes

abbrev Byte := BitVec 8
/-- The bytes from a pointer on. -/
abbrev Buffer := Nat → Byte

variable {w : Nat}

/-- The byte of a value at a little-endian position. -/
def byteAt (v : BitVec w) (i : Nat) : Byte := v.extractLsb' (8*i) 8
/-- The little-endian value of the first `n` bytes of a buffer. -/
def value (w : Nat) (b : Buffer) : Nat → BitVec w
  | 0 => 0
  | n+1 => value w b n ||| (b n).setWidth w <<< (8*n)
/-- `memcpy (dst + off, src, n)`. -/
def copy (dst : Buffer) (off : Nat) (src : Buffer) (n : Nat) : Buffer :=
  fun i => if off ≤ i ∧ i < off+n then src (i-off) else dst i
/-- `memset (dst, c, n)`. -/
def fill (dst : Buffer) (c : Byte) (n : Nat) : Buffer :=
  fun i => if i < n then c else dst i
/-- The old value with its low `n` bytes replaced by those of the new one: a store
    of `n` bytes through a pointer to a wider object. -/
def storeLow (n : Nat) (old new : BitVec w) : BitVec w :=
  value w (fun i => if i < n then byteAt new i else byteAt old i) (w/8)

theorem value_succ (b : Buffer) (n : Nat) : value w b (n+1) = value w b n ||| (b n).setWidth w <<< (8*n) := rfl

theorem getLsbD_value (b : Buffer) (n k : Nat) :
    (value w b n).getLsbD k = (decide (k < w) && decide (k < 8*n) && (b (k/8)).getLsbD (k%8)) := by
  induction n with
  | zero => simp [value]
  | succ n ih =>
    rw [value_succ,BitVec.getLsbD_or,ih,BitVec.getLsbD_shiftLeft,BitVec.getLsbD_setWidth]
    by_cases inside : k < w
    · by_cases low : k < 8*n
      · have later : k < 8*(n+1) := by omega
        simp [inside,low,later]
      · by_cases here : k < 8*(n+1)
        · have byte : k/8 = n := by omega
          have bit : k-8*n = k%8 := by omega
          have width : k-8*n < w := by omega
          simp [inside,low,here,byte,bit]
          intro set
          omega
        · have past : (b n).getLsbD (k-8*n) = false := BitVec.getLsbD_of_ge _ _ (by omega)
          simp [low,here,past]
    · simp [inside]

theorem getLsbD_byteAt (v : BitVec w) (i k : Nat) :
    (byteAt v i).getLsbD k = (decide (k < 8) && v.getLsbD (8*i+k)) := by
  simp [byteAt]

/-- Reading back a byte of a little-endian value. -/
theorem byteAt_value (b : Buffer) (n i : Nat) (fits : 8*i+8 ≤ w) :
    byteAt (value w b n) i = if i < n then b i else 0 := by
  apply BitVec.eq_of_getLsbD_eq
  intro k small
  have byte : (8*i+k)/8 = i := by omega
  have bit : (8*i+k)%8 = k := by omega
  rw [getLsbD_byteAt,getLsbD_value,byte,bit]
  by_cases inside : i < n
  · have bound : 8*i+k < 8*n := by omega
    have width : 8*i+k < w := by omega
    simp [inside,bound,width,small]
  · have bound : ¬ 8*i+k < 8*n := by omega
    simp [inside,bound]

/-- A value of whole bytes is determined by them. -/
theorem eq_of_byteAt {u v : BitVec (8*n)} (same : ∀ i < n, byteAt u i = byteAt v i) : u = v := by
  apply BitVec.eq_of_getLsbD_eq
  intro k inside
  have agree := congrArg (fun c => c.getLsbD (k%8)) (same (k/8) (by omega))
  have split : 8*(k/8)+k%8 = k := by omega
  have bit : k%8 < 8 := by omega
  simp only [getLsbD_byteAt,split,bit,decide_true,Bool.true_and] at agree
  exact agree

theorem value_byteAt (v : BitVec (8*n)) : value (8*n) (byteAt v) n = v := by
  apply eq_of_byteAt
  intro i inside
  rw [byteAt_value _ _ _ (by omega),if_pos inside]

theorem byteAt_storeLow (n i : Nat) (old new : BitVec 64) (inside : i < 8) :
    byteAt (storeLow n old new) i = if i < n then byteAt new i else byteAt old i := by
  rw [storeLow,byteAt_value _ _ _ (by omega)]
  simp [inside]

theorem getLsbD_storeLow (n k : Nat) (old new : BitVec 64) :
    (storeLow n old new).getLsbD k = if k < 8*n then new.getLsbD k else old.getLsbD k := by
  have split : 8*(k/8)+k%8 = k := by omega
  have bit : k%8 < 8 := by omega
  have byte : (if k/8 < n then byteAt new (k/8) else byteAt old (k/8)).getLsbD (k%8) = if k < 8*n then new.getLsbD k
      else old.getLsbD k := by
    by_cases low : k < 8*n
    · rw [if_pos low,if_pos (by omega),getLsbD_byteAt,split,decide_eq_true bit,Bool.true_and]
    · rw [if_neg low,if_neg (by omega),getLsbD_byteAt,split,decide_eq_true bit,Bool.true_and]
  rw [storeLow,getLsbD_value,byte]
  by_cases inside : k < 64
  · simp [inside]
  · simp [inside,BitVec.getLsbD_of_ge old k (by omega),BitVec.getLsbD_of_ge new k (by omega)]

theorem byteAt_or (u v : BitVec w) (i : Nat) : byteAt (u ||| v) i = byteAt u i ||| byteAt v i := by
  apply BitVec.eq_of_getLsbD_eq
  intro k small
  rw [BitVec.getLsbD_or,getLsbD_byteAt,getLsbD_byteAt,getLsbD_byteAt,BitVec.getLsbD_or]
  simp [small]
theorem byteAt_shiftLeft (v : BitVec w) (n i : Nat) (fits : 8*i+8 ≤ w) :
    byteAt (v <<< (8*n)) i = if i < n then 0 else byteAt v (i-n) := by
  apply BitVec.eq_of_getLsbD_eq
  intro k small
  rw [getLsbD_byteAt,BitVec.getLsbD_shiftLeft]
  by_cases low : i < n
  · have under : 8*i+k < 8*n := by omega
    simp [low,under]
  · have above : ¬ 8*i+k < 8*n := by omega
    have width : 8*i+k < w := by omega
    have place : 8*i+k-8*n = 8*(i-n)+k := by omega
    rw [if_neg low,getLsbD_byteAt,place]
    simp [above,width]
/-- A wider value has the same bytes, and zeros above them. -/
theorem byteAt_setWidth {w' : Nat} (v : BitVec w) (i : Nat) (fits : 8*i+8 ≤ w') :
    byteAt (v.setWidth w') i = byteAt v i := by
  apply BitVec.eq_of_getLsbD_eq
  intro k small
  have inside : 8*i+k < w' := by omega
  rw [getLsbD_byteAt,getLsbD_byteAt,BitVec.getLsbD_setWidth]
  simp [inside]
theorem byteAt_past (v : BitVec w) (i : Nat) (past : w ≤ 8*i) : byteAt v i = 0 := by
  apply BitVec.eq_of_getLsbD_eq
  intro k small
  rw [getLsbD_byteAt,BitVec.getLsbD_of_ge v _ (by omega)]
  simp

theorem value_congr {b c : Buffer} {n : Nat} (same : ∀ i < n, b i = c i) : value w b n = value w c n := by
  induction n with
  | zero => rfl
  | succ n ih => rw [value_succ,value_succ,ih (fun i less => same i (by omega)),same n (by omega)]

theorem copy_inside {dst src : Buffer} {off n i : Nat} (low : off ≤ i) (high : i < off+n) :
    copy dst off src n i = src (i-off) := by
  simp [copy,low,high]
theorem copy_outside {dst src : Buffer} {off n i : Nat} (out : ¬ (off ≤ i ∧ i < off+n)) :
    copy dst off src n i = dst i := by
  simp [copy,out]

end RiscvSim.Bytes
