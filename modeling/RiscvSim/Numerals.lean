import RiscvSim.CText

/-!
The numbers and words of a command line. With base 0 the C library takes the base of a number from
its text: sixteen behind a `0x`, eight behind a `0`, ten otherwise. A text that spells a number
is a word of its own and is read as that number, with or without a minus before it, up to the ends
of the type.
-/
namespace RiscvSim.CText

/-! ### Reading -/

/-- The call `strcasecmp (a, b) == 0`. -/
def strcasecmp (a b : List Char) : Bool := a.map Char.toLower == b.map Char.toLower

/-- The base that the text announces, and the digits behind. -/
def radix : List Char → Nat × List Char
  | '0' :: 'x' :: rest => (16,rest)
  | '0' :: 'X' :: rest => (16,rest)
  | '0' :: rest => (8,rest)
  | s => (10,s)

/-- The number without its sign, up to the first character that is no digit of the base. -/
def magnitude (s : List Char) : Nat :=
  let (base,digits) := radix s
  number base (digits.takeWhile fun c => digit c < base)

/-- The sign, true for a minus, and the number behind it. -/
def numeral (s : List Char) : Bool × Nat :=
  let (negative,s) := signed (s.dropWhile isspace)
  (negative,magnitude s)

/-- The call `strtol (s, NULL, 0)`, with a `long` of 64 bits. -/
def strtol₀ (s : List Char) : Int :=
  let (negative,n) := numeral s
  if negative then max (-2^63) (-n) else min (2^63 - 1) n

/-- The calls `strtoul (s, NULL, 0)` and `strtoull (s, NULL, 0)`, both of 64 bits. A minus negates what is in range. -/
def strtoul₀ (s : List Char) : BitVec 64 :=
  let (negative,n) := numeral s
  if n ≥ 2^64 then BitVec.allOnes 64 else if negative then -BitVec.ofNat 64 n else BitVec.ofNat 64 n

/-! ### Printing -/

/-- The conversion `%llu`. -/
def decimal (n : Nat) : List Char := Nat.toDigits 10 n
/-- The conversion `%llx`. -/
def hexadecimal (n : Nat) : List Char := Nat.toDigits 16 n
/-- The conversion `%16llx`, for a width of 16. -/
def spaced (width n : Nat) : List Char := (hexadecimal n).leftpad width ' '
/-- The conversions `%016llX` and `%08X`, for their widths. -/
def capitals (width n : Nat) : List Char := (padded 16 width n).map Char.toUpper
/-- The conversion `%lld`. -/
def integer (n : Int) : List Char := if n < 0 then '-' :: decimal n.natAbs else decimal n.natAbs

/-! ### Spellings -/

/-- The texts for a number that are read whole: decimal digits, hex digits behind `0x` and octal digits behind `0`. -/
inductive Spells : List Char → Nat → Prop where
  | decimal (c : Char) (s : List Char) (head : c ≠ '0') (digits : ∀ d ∈ c :: s, digit d < 10) :
    Spells (c :: s) (number 10 (c :: s))
  | hexadecimal (x : Char) (s : List Char) (mark : x = 'x' ∨ x = 'X') (digits : ∀ d ∈ s, digit d < 16) :
    Spells ('0' :: x :: s) (number 16 s)
  | octal (s : List Char) (digits : ∀ d ∈ s, digit d < 8) : Spells ('0' :: s) (number 8 s)

theorem all_digits {base : Nat} {s : List Char} (digits : s.all (fun c => digit c < base) = true) :
    ∀ c ∈ s, digit c < base :=
  fun c here => of_decide_eq_true (List.all_eq_true.mp digits c here)

theorem takeWhile_digits {base : Nat} {s : List Char} (digits : ∀ c ∈ s, digit c < base) :
    s.takeWhile (fun c => digit c < base) = s := List.takeWhile_eq_self_iff.mpr (by simpa using digits)

/-- Digits behind a zero are octal. -/
theorem radix_octal {s : List Char} (digits : ∀ c ∈ s, digit c < 8) : radix ('0' :: s) = (8,s) := by
  unfold radix
  split
  · rename_i same
    cases same
    exact absurd (digits 'x' List.mem_cons_self) (by decide)
  · rename_i same
    cases same
    exact absurd (digits 'X' List.mem_cons_self) (by decide)
  · rename_i same
    cases same
    rfl
  · rename_i none
    exact absurd rfl (none s)

theorem radix_decimal {c : Char} (rest : List Char) (other : c ≠ '0') : radix (c :: rest) = (10,c :: rest) := by
  unfold radix
  split
  · rename_i same
    cases same
    exact absurd rfl other
  · rename_i same
    cases same
    exact absurd rfl other
  · rename_i same
    cases same
    exact absurd rfl other
  · rfl

/-- Digits of the base that is announced are all read. -/
theorem magnitude_digits {s digits : List Char} {base : Nat} (announced : radix s = (base,digits))
    (small : ∀ c ∈ digits, digit c < base) :
    magnitude s = number base digits := by
  unfold magnitude
  rw [announced]
  dsimp only
  rw [takeWhile_digits small]

section
variable {s : List Char} {n : Nat} (spells : Spells s n)
include spells

theorem spells_magnitude : magnitude s = n := by
  cases spells with
  | decimal c s head digits => exact magnitude_digits (radix_decimal s head) digits
  | hexadecimal x s mark digits => exact magnitude_digits (by rcases mark with rfl | rfl <;> rfl) digits
  | octal s digits => exact magnitude_digits (radix_octal digits) digits

theorem spells_head : ∃ c rest, s = c :: rest ∧ digit c < 10 := by
  cases spells with
  | decimal c s head digits => exact ⟨c,s,rfl,digits c List.mem_cons_self⟩
  | hexadecimal x s mark digits => exact ⟨'0',_,rfl,by decide⟩
  | octal s digits => exact ⟨'0',_,rfl,by decide⟩

theorem spells_chars : ∀ c ∈ s, digit c < 16 ∨ c = 'x' ∨ c = 'X' := by
  intro c here
  cases spells with
  | decimal d s head digits =>
    have small := digits c here
    exact .inl (by omega)
  | hexadecimal x s mark digits =>
    rcases List.mem_cons.mp here with rfl | here
    · exact .inl (by decide)
    rcases List.mem_cons.mp here with rfl | here
    · exact .inr mark
    · exact .inl (digits c here)
  | octal s digits =>
    rcases List.mem_cons.mp here with rfl | here
    · exact .inl (by decide)
    · have small := digits c here
      exact .inl (by omega)

theorem spells_unspaced : s.dropWhile isspace = s := by
  obtain ⟨c,rest,rfl,small⟩ := spells_head spells
  exact List.dropWhile_cons_of_neg (by simp [(digit_other (show 10 ≤ 16 by decide) small).1])

theorem spells_signed : signed s = (false,s) := by
  obtain ⟨c,rest,rfl,small⟩ := spells_head spells
  obtain ⟨-,minus,plus,-⟩ := digit_other (show 10 ≤ 16 by decide) small
  unfold signed
  split
  · rename_i same
    cases same
    exact absurd rfl minus
  · rename_i same
    cases same
    exact absurd rfl plus
  · rfl

theorem numeral_spells : numeral s = (false,n) := by
  unfold numeral
  rw [spells_unspaced spells,spells_signed spells]
  dsimp only
  rw [spells_magnitude spells]

theorem numeral_minus : numeral ('-' :: s) = (true,n) := by
  unfold numeral
  rw [List.dropWhile_cons_of_neg (by decide)]
  show (true,magnitude s) = (true,n)
  rw [spells_magnitude spells]

theorem strtol₀_spells : strtol₀ s = min (2^63 - 1) (n : Int) := by
  unfold strtol₀
  rw [numeral_spells spells]
  rfl
theorem strtol₀_minus : strtol₀ ('-' :: s) = max (-2^63) (-(n : Int)) := by
  unfold strtol₀
  rw [numeral_minus spells]
  rfl

theorem strtol₀_value (small : n < 2^63) : BitVec.ofInt 64 (strtol₀ s) = BitVec.ofNat 64 n := by
  rw [strtol₀_spells spells,min_eq_right (by omega),BitVec.ofInt_natCast]
theorem strtoul₀_value (small : n < 2^64) : strtoul₀ s = BitVec.ofNat 64 n := by
  unfold strtoul₀
  rw [numeral_spells spells]
  exact if_neg (by omega)

/-- A spelling is a word: it is not empty, and has no separators in it. -/
theorem spells_word (sep : List Char) (seps : sep.all (fun c => 16 ≤ digit c ∧ c ≠ 'x' ∧ c ≠ 'X') = true) :
    s ≠ [] ∧ ∀ c ∈ s, c ∉ sep := by
  constructor
  · obtain ⟨c,rest,rfl,-⟩ := spells_head spells
    exact List.cons_ne_nil _ _
  · intro c here separates
    obtain ⟨large,other,other'⟩ := of_decide_eq_true (List.all_eq_true.mp seps c separates)
    rcases spells_chars spells c here with small | x | x
    · omega
    · exact other x
    · exact other' x

end

/-- A spelling with or without a minus. -/
inductive SpellsInt : List Char → Int → Prop where
  | plain {s : List Char} {n : Nat} (spells : Spells s n) : SpellsInt s n
  | minus {s : List Char} {n : Nat} (spells : Spells s n) : SpellsInt ('-' :: s) (-n)

/-- A number as a `long`, cut at its ends, that is stored in 64 bits. -/
def long (x : Int) : BitVec 64 := BitVec.ofInt 64 (max (-2^63) (min (2^63 - 1) x))

theorem strtol₀_spellsInt {s : List Char} {x : Int} (spells : SpellsInt s x) :
    BitVec.ofInt 64 (strtol₀ s) = long x := by
  unfold long
  congr 1
  cases spells with
  | plain spells =>
    rw [strtol₀_spells spells]
    omega
  | minus spells =>
    rw [strtol₀_minus spells]
    omega

/-! ### Capitals -/

/-- The code of a hex digit. -/
theorem hex_code {c : Char} (hex : digit c < 16) :
    (48 ≤ c.toNat ∧ c.toNat ≤ 57) ∨ (97 ≤ c.toNat ∧ c.toNat ≤ 102) ∨ 65 ≤ c.toNat ∧ c.toNat ≤ 70 := by
  unfold digit at hex
  split_ifs at hex with number small large
  · exact .inl number
  · have low : 97 ≤ c.toNat := small.1
    exact .inr (.inl ⟨low,by simp at hex; omega⟩)
  · have low : 65 ≤ c.toNat := large.1
    exact .inr (.inr ⟨low,by simp at hex; omega⟩)
  · omega

theorem digit_toUpper {c : Char} (hex : digit c < 16) : digit c.toUpper = digit c := by
  have code := hex_code hex
  rw [← Char.ofNat_toNat c]
  generalize c.toNat = k at code
  rcases code with ⟨low,high⟩ | ⟨low,high⟩ | ⟨low,high⟩ <;> interval_cases k <;> decide

end RiscvSim.CText
