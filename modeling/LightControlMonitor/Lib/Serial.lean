import LightControlMonitor.Lib.Crc

/-!
# Bit-serial checks

A cyclic redundancy check takes one bit of the message at a time, the lowest bit of a byte first: the bit is added to the lowest bit of the register and the register shifts. If the taps have the highest bit, a shift loses nothing. Then the register tells apart all messages that differ in one place no longer than the register, and the only bits that bring it to zero are its own.

A check that takes whole bytes and one that looks the shifts of a byte up in a table are the bit-serial check, and so is one in a register wider than the taps.
-/

namespace Crc

variable {w : Nat}

/-- The lowest bits of a register, the first one lowest. -/
def word (w : Nat) (bits : List Bool) : BitVec w := (BitVec.ofBoolListLE bits).setWidth w

def serial (poly reg : BitVec w) (bits : List Bool) : BitVec w :=
  bits.foldl (fun reg bit => shift poly (reg ^^^ (BitVec.ofBool bit).setWidth w)) reg

def byteBits (byte : UInt8) : List Bool := List.ofFn fun i : Fin 8 => byte.toBitVec.getLsbD i

/-- The bytes in order, the lowest bit of a byte first. -/
def bits (bytes : List UInt8) : List Bool := bytes.flatMap byteBits

/-- Two lists of one length that differ, and only in one place of at most `len` entries. -/
def Differ {α : Type*} (len : Nat) (a b : List α) : Prop :=
  ∃ before u v after, a = before ++ u ++ after ∧ b = before ++ v ++ after ∧ u.length = v.length ∧ u.length ≤ len ∧ u ≠ v

theorem Differ.ne {α : Type*} {len : Nat} {a b : List α} (hdiffer : Differ len a b) : a ≠ b := by
  obtain ⟨before, u, v, after, rfl, rfl, -, -, hne⟩ := hdiffer
  exact fun heq => hne (List.append_cancel_left (List.append_cancel_right heq))

/-- Where two lists of two parts differ: behind the first part, in it, or across its end. -/
theorem Differ.append_cases {α : Type*} {len : Nat} {a a' b b' : List α} (hdiffer : Differ len (a ++ b) (a' ++ b'))
    (hlength : a.length = a'.length) :
    a = a' ∨ (b = b' ∧ Differ len a a') ∨
      ∃ before u u' v v' after, a = before ++ u ∧ a' = before ++ u' ∧ b = v ++ after ∧ b' = v' ++ after ∧
        u.length = u'.length ∧ v.length = v'.length ∧ 0 < u.length ∧ 0 < v.length ∧ u.length + v.length ≤ len := by
  obtain ⟨before, m, m', after, h, h', hm, hle, hne⟩ := hdiffer
  have htotal : a.length + b.length = before.length + m.length + after.length := by
    simpa [Nat.add_assoc] using congrArg List.length h
  have hfirst : ∀ {first rest}, before ++ m ++ after = first ++ rest → first.length = a.length → a = first ∧ b = rest :=
    fun heq hl => List.append_inj (h.trans heq) hl.symm
  have hfirst' : ∀ {first rest}, before ++ m' ++ after = first ++ rest → first.length = a.length →
      a' = first ∧ b' = rest := fun heq hl => List.append_inj (h'.trans heq) (hlength ▸ hl.symm)
  by_cases hbehind : a.length ≤ before.length
  · have hsplit : ∀ x, before ++ x ++ after = before.take a.length ++ (before.drop a.length ++ x ++ after) := by
      intro x
      rw [← List.append_assoc, ← List.append_assoc, List.take_append_drop]
    have htake := List.length_take_of_le hbehind
    exact .inl ((hfirst (hsplit m) htake).1.trans (hfirst' (hsplit m') htake).1.symm)
  by_cases hinside : before.length + m.length ≤ a.length
  · obtain ⟨k, hk⟩ : ∃ k, a.length = before.length + m.length + k := ⟨_, (Nat.add_sub_of_le hinside).symm⟩
    have hsplit : ∀ x, before ++ x ++ after = before ++ x ++ after.take k ++ after.drop k := by
      intro x
      rw [List.append_assoc (before ++ x), List.take_append_drop]
    have htake : (after.take k).length = k := List.length_take_of_le (by omega)
    obtain ⟨ha, hb⟩ := hfirst (hsplit m) (by simp only [List.length_append]; omega)
    obtain ⟨ha', hb'⟩ := hfirst' (hsplit m') (by simp only [List.length_append]; omega)
    exact .inr (.inl ⟨hb.trans hb'.symm, before, m, m', after.take k, ha, ha', hm, hle, hne⟩)
  · obtain ⟨k, hk⟩ : ∃ k, a.length = before.length + k := ⟨_, (Nat.add_sub_of_le (by omega)).symm⟩
    have hsplit : ∀ x, before ++ x ++ after = before ++ x.take k ++ (x.drop k ++ after) := by
      intro x
      rw [List.append_assoc, List.append_assoc, ← List.append_assoc (x.take k), List.take_append_drop]
    have htake : (m.take k).length = k := List.length_take_of_le (by omega)
    have htake' : (m'.take k).length = k := List.length_take_of_le (by omega)
    obtain ⟨ha, hb⟩ := hfirst (hsplit m) (by simp only [List.length_append]; omega)
    obtain ⟨ha', hb'⟩ := hfirst' (hsplit m') (by simp only [List.length_append]; omega)
    refine .inr (.inr ⟨before, m.take k, m'.take k, m.drop k, m'.drop k, after, ha, ha', hb, hb',
      htake.trans htake'.symm, ?_, ?_, ?_, ?_⟩)
    · rw [List.length_drop, List.length_drop, hm]
    · omega
    · rw [List.length_drop]
      omega
    · rw [List.length_drop]
      omega

/-! ### Shifts -/

theorem getLsbD_shift (poly reg : BitVec w) (i : Nat) :
    (shift poly reg).getLsbD i = ((reg.getLsbD (i + 1)) ^^ (reg.getLsbD 0 && poly.getLsbD i)) := by
  unfold shift
  cases reg.getLsbD 0 <;> simp [Nat.add_comm]

theorem shift_injective {poly : BitVec w} (hpoly : poly.getLsbD (w - 1) = true) : Function.Injective (shift poly) := by
  intro x y heq
  have hbit : ∀ i, (x.getLsbD (i + 1) ^^ (x.getLsbD 0 && poly.getLsbD i)) =
      (y.getLsbD (i + 1) ^^ (y.getLsbD 0 && poly.getLsbD i)) := by
    intro i
    rw [← getLsbD_shift, ← getLsbD_shift, heq]
  -- the highest bit after a shift is the bit that was lost
  have hlow : x.getLsbD 0 = y.getLsbD 0 := by
    have htop := hbit (w - 1)
    rwa [BitVec.getLsbD_of_ge x _ (by omega), BitVec.getLsbD_of_ge y _ (by omega), hpoly, Bool.and_true, Bool.and_true,
      Bool.false_xor, Bool.false_xor] at htop
  apply BitVec.eq_of_getLsbD_eq
  rintro (_ | i) -
  · exact hlow
  · have hi := hbit i
    rw [hlow] at hi
    exact Bool.xor_left_inj.mp hi

theorem shift_shiftLeft_one {x : BitVec w} (hclear : x.getLsbD (w - 1) = false) (poly : BitVec w) :
    shift poly (x <<< 1) = x := by
  apply BitVec.eq_of_getLsbD_eq
  intro i hi
  rw [getLsbD_shift, BitVec.getLsbD_shiftLeft, BitVec.getLsbD_shiftLeft]
  by_cases hlast : i + 1 < w
  · simp [hlast]
  · obtain rfl : i = w - 1 := by omega
    simp [hclear]

theorem shift_iterate_shiftLeft {x : BitVec w} {n : Nat} (hclear : ∀ i, w - n ≤ i → x.getLsbD i = false)
    (poly : BitVec w) : (shift poly)^[n] (x <<< n) = x := by
  induction n with
  | zero => simp
  | succ n ih =>
    have hone : (x <<< n).getLsbD (w - 1) = false := by
      rw [BitVec.getLsbD_shiftLeft, hclear (w - 1 - n) (by omega), Bool.and_false]
    rw [Function.iterate_succ_apply, BitVec.shiftLeft_add, shift_shiftLeft_one hone]
    exact ih fun i hi => hclear i (by omega)

theorem shift_iterate_xor (poly : BitVec w) (n : Nat) (x y : BitVec w) :
    (shift poly)^[n] (x ^^^ y) = (shift poly)^[n] x ^^^ (shift poly)^[n] y := (shift_xor poly).iterate n x y

/-! ### Words -/

theorem getLsbD_word (bits : List Bool) (i : Nat) :
    (word w bits).getLsbD i = (decide (i < w) && bits.getD i false) := by
  rw [word, BitVec.getLsbD_setWidth, BitVec.getLsbD_ofBoolListLE]

theorem word_cons (bit : Bool) (bits : List Bool) :
    word w (bit :: bits) = (BitVec.ofBool bit).setWidth w ^^^ (word w bits <<< 1) := by
  apply BitVec.eq_of_getLsbD_eq
  intro i hi
  rw [BitVec.getLsbD_xor, BitVec.getLsbD_setWidth, BitVec.getLsbD_ofBool, BitVec.getLsbD_shiftLeft, getLsbD_word,
    getLsbD_word]
  rcases i with _ | i
  · simp [hi]
  · simp [hi, show i < w by omega]

theorem word_injective {u v : List Bool} (hlength : u.length = v.length) (hle : u.length ≤ w)
    (hword : word w u = word w v) : u = v := by
  apply List.ext_getElem hlength
  intro i hu hv
  have hbit := congrArg (fun x => x.getLsbD i) hword
  simp only [getLsbD_word, show i < w by omega, decide_true, Bool.true_and] at hbit
  rwa [List.getD_eq_getElem _ _ hu, List.getD_eq_getElem _ _ hv] at hbit

theorem length_byteBits (byte : UInt8) : (byteBits byte).length = 8 := List.length_ofFn

theorem getD_byteBits (byte : UInt8) (i : Nat) : (byteBits byte).getD i false = byte.toBitVec.getLsbD i := by
  by_cases hi : i < 8
  · rw [byteBits, List.getD_eq_getElem _ _ (by rwa [List.length_ofFn]), List.getElem_ofFn]
  · rw [BitVec.getLsbD_of_ge _ _ (Nat.not_lt.mp hi)]
    simp [byteBits, hi]

theorem word_byteBits (byte : UInt8) : word w (byteBits byte) = byte.toBitVec.setWidth w := by
  apply BitVec.eq_of_getLsbD_eq
  intro i _
  rw [getLsbD_word, getD_byteBits, BitVec.getLsbD_setWidth]

/-! ### The serial check -/

variable {poly : BitVec w}

theorem serial_append (poly reg : BitVec w) (a b : List Bool) :
    serial poly reg (a ++ b) = serial poly (serial poly reg a) b := List.foldl_append

/-- Bits that fit the register can be added to it at once. -/
theorem serial_of_length_le {bits : List Bool} (hle : bits.length ≤ w) (reg : BitVec w) :
    serial poly reg bits = (shift poly)^[bits.length] (reg ^^^ word w bits) := by
  induction bits generalizing reg with
  | nil => simp [serial, word, BitVec.ofBoolListLE]
  | cons bit bits ih =>
    have hclear : (word w bits).getLsbD (w - 1) = false := by
      rw [List.length_cons] at hle
      rw [getLsbD_word, List.getD_eq_default _ _ (by omega), Bool.and_false]
    change serial poly (shift poly (reg ^^^ (BitVec.ofBool bit).setWidth w)) bits = _
    have hfirst : shift poly (reg ^^^ (BitVec.ofBool bit).setWidth w) ^^^ word w bits =
        shift poly (reg ^^^ word w (bit :: bits)) := by
      rw [word_cons, ← BitVec.xor_assoc]
      nth_rewrite 1 [← shift_shiftLeft_one hclear poly]
      exact (shift_xor poly _ _).symm
    rw [ih (Nat.le_of_succ_le hle), hfirst, List.length_cons, Function.iterate_succ_apply]

theorem serial_injective (hpoly : poly.getLsbD (w - 1) = true) (bits : List Bool) :
    Function.Injective fun reg => serial poly reg bits := by
  induction bits with
  | nil => exact fun x y heq => heq
  | cons bit bits ih => exact fun x y heq => (BitVec.xor_left_inj _).mp (shift_injective hpoly (ih heq))

/-- A difference that fits the register is seen in it, wherever it is. -/
theorem serial_ne (hpoly : poly.getLsbD (w - 1) = true) {a b : List Bool} (hdiffer : Differ w a b) (reg : BitVec w) :
    serial poly reg a ≠ serial poly reg b := by
  obtain ⟨before, u, v, after, rfl, rfl, hlength, hle, hne⟩ := hdiffer
  intro heq
  simp only [serial_append] at heq
  have hmiddle := serial_injective hpoly after heq
  have hlast : v.length ≤ w := hlength ▸ hle
  rw [serial_of_length_le hle, serial_of_length_le hlast, ← hlength] at hmiddle
  have hword := (shift_injective hpoly).iterate u.length hmiddle
  exact hne (word_injective hlength hle ((BitVec.xor_right_inj _).mp hword))

/-- The bits that bring the register to zero are the register. -/
theorem serial_eq_zero_iff (hpoly : poly.getLsbD (w - 1) = true) {bits : List Bool} (hle : bits.length ≤ w)
    (reg : BitVec w) : serial poly reg bits = 0 ↔ reg = word w bits := by
  have hzero : (shift poly)^[bits.length] 0 = 0 := by
    have hshift := shift_iterate_shiftLeft (show ∀ i, w - bits.length ≤ i → (0 : BitVec w).getLsbD i = false by simp)
      poly
    simpa using hshift
  rw [serial_of_length_le hle]
  constructor
  · intro h
    exact BitVec.xor_eq_zero_iff.mp ((shift_injective hpoly).iterate bits.length (h.trans hzero.symm))
  · rintro rfl
    rw [BitVec.xor_self]
    exact hzero

theorem serial_byteBits (hle : 8 ≤ w) (reg : BitVec w) (byte : UInt8) :
    serial poly reg (byteBits byte) = (shift poly)^[8] (reg ^^^ byte.toBitVec.setWidth w) := by
  rw [serial_of_length_le (by rwa [length_byteBits]), length_byteBits, word_byteBits]

/-! ### Bytes -/

theorem bits_append (m n : List UInt8) : bits (m ++ n) = bits m ++ bits n := List.flatMap_append

/-- A loop over bytes that takes the bits of each byte takes the bits of the message. -/
theorem serial_foldl {α : Type*} {next : α → UInt8 → α} {register : α → BitVec w}
    (hnext : ∀ a byte, register (next a byte) = serial poly (register a) (byteBits byte)) (bytes : List UInt8) (a : α) :
    register (bytes.foldl next a) = serial poly (register a) (bits bytes) := by
  induction bytes generalizing a with
  | nil => rfl
  | cons byte bytes ih =>
    change register (bytes.foldl next (next a byte)) = serial poly (register a) (byteBits byte ++ bits bytes)
    rw [serial_append, ← hnext, ih]

theorem byteBits_injective : Function.Injective byteBits := by
  intro x y heq
  have hword := congrArg (word 8) heq
  rw [word_byteBits, word_byteBits, BitVec.setWidth_eq, BitVec.setWidth_eq] at hword
  exact UInt8.toBitVec_inj.mp hword

theorem length_bits (bytes : List UInt8) : (bits bytes).length = 8 * bytes.length := by
  induction bytes with
  | nil => rfl
  | cons byte bytes ih =>
    change (byteBits byte ++ bits bytes).length = _
    rw [List.length_append, length_byteBits, ih, List.length_cons]
    omega

theorem bits_injective {m n : List UInt8} (hbits : bits m = bits n) : m = n := by
  have hlength : m.length = n.length := by
    have := congrArg List.length hbits
    rw [length_bits, length_bits] at this
    omega
  induction m generalizing n with
  | nil => exact (List.length_eq_zero_iff.mp hlength.symm).symm
  | cons x m ih =>
    obtain ⟨y, n, rfl⟩ := List.exists_cons_of_length_eq_add_one hlength.symm
    change byteBits x ++ bits m = byteBits y ++ bits n at hbits
    obtain ⟨hhead, htail⟩ := List.append_inj hbits (by rw [length_byteBits, length_byteBits])
    rw [byteBits_injective hhead, ih htail (Nat.succ.inj hlength)]

/-- Bytes that differ in one place differ in the bits of that place. -/
theorem Differ.bits {len : Nat} {m n : List UInt8} (hdiffer : Differ len m n) :
    Differ (8 * len) (Crc.bits m) (Crc.bits n) := by
  obtain ⟨before, u, v, after, rfl, rfl, hlength, hle, hne⟩ := hdiffer
  refine ⟨Crc.bits before, Crc.bits u, Crc.bits v, Crc.bits after, ?_, ?_, ?_, ?_, fun heq => hne (bits_injective heq)⟩
  · rw [bits_append, bits_append]
  · rw [bits_append, bits_append]
  · rw [length_bits, length_bits, hlength]
  · rw [length_bits]
    omega

/-! ### Words of two bytes -/

theorem toBitVec_bytes (hi lo : UInt8) :
    (hi.toUInt16 <<< 8 ||| lo.toUInt16).toBitVec = hi.toBitVec ++ lo.toBitVec := by
  apply BitVec.eq_of_getLsbD_eq
  intro i hi16
  simp only [UInt16.toBitVec_or, UInt16.toBitVec_shiftLeft, UInt8.toBitVec_toUInt16, BitVec.getLsbD_or,
    BitVec.getLsbD_append, BitVec.getLsbD_setWidth, hi16, decide_true, Bool.true_and]
  change ((hi.toBitVec.setWidth 16 <<< 8).getLsbD i || lo.toBitVec.getLsbD i) = _
  rw [BitVec.getLsbD_shiftLeft, BitVec.getLsbD_setWidth]
  by_cases hlow : i < 8
  · simp [hlow]
  · simp [hlow, hi16, BitVec.getLsbD_of_ge lo.toBitVec i (Nat.not_lt.mp hlow), show i - 8 < 16 by omega]

theorem toBitVec_split (v : UInt16) : v.toBitVec = (v >>> 8).toUInt8.toBitVec ++ v.toUInt8.toBitVec := by
  apply BitVec.eq_of_getLsbD_eq
  intro i hi
  rw [BitVec.getLsbD_append, UInt16.toBitVec_toUInt8, UInt16.toBitVec_toUInt8, BitVec.getLsbD_setWidth,
    BitVec.getLsbD_setWidth]
  change _ = if i < 8 then _ else (_ && (v.toBitVec >>> 8).getLsbD (i - 8))
  rw [BitVec.getLsbD_ushiftRight]
  split
  · simp [*]
  · rw [show 8 + (i - 8) = i by omega]
    simp [show i - 8 < 8 by omega]

theorem append_inj {hi hi' lo lo' : UInt8} :
    hi.toBitVec ++ lo.toBitVec = hi'.toBitVec ++ lo'.toBitVec ↔ hi = hi' ∧ lo = lo' := by
  constructor
  · intro heq
    have hhigh := congrArg (BitVec.extractLsb' 8 8) heq
    have hlow := congrArg (BitVec.extractLsb' 0 8) heq
    rw [BitVec.extractLsb'_append_eq_left, BitVec.extractLsb'_append_eq_left] at hhigh
    rw [BitVec.extractLsb'_append_eq_right, BitVec.extractLsb'_append_eq_right] at hlow
    exact ⟨UInt8.toBitVec_inj.mp hhigh, UInt8.toBitVec_inj.mp hlow⟩
  · rintro ⟨rfl, rfl⟩
    rfl

theorem word_bits_pair (a b : UInt8) : word 16 (bits [a, b]) = b.toBitVec ++ a.toBitVec := by
  apply BitVec.eq_of_getLsbD_eq
  intro i hi
  have hbits : bits [a, b] = byteBits a ++ byteBits b := by
    simp [bits]
  rw [getLsbD_word, hbits, BitVec.getLsbD_append]
  by_cases hlow : i < 8
  · rw [List.getD_append _ _ _ _ (by rwa [length_byteBits]), getD_byteBits]
    simp [hi, hlow]
  · rw [List.getD_append_right _ _ _ _ (by rw [length_byteBits]; omega), length_byteBits, getD_byteBits]
    simp [hi, hlow]

/-! ### Wider registers -/

theorem shift_setWidth {v : Nat} (hle : w ≤ v) (reg : BitVec w) :
    shift (poly.setWidth v) (reg.setWidth v) = (shift poly reg).setWidth v := by
  apply BitVec.eq_of_getLsbD_eq
  intro i hi
  simp only [getLsbD_shift, BitVec.getLsbD_setWidth, hi, decide_true, Bool.true_and, show 0 < v by omega]
  by_cases hlast : i + 1 < v
  · simp [hlast]
  · rw [BitVec.getLsbD_of_ge reg _ (by omega)]
    simp

/-- The register never holds more than the width of the taps. -/
theorem serial_setWidth {v : Nat} (hpos : 0 < w) (hle : w ≤ v) (reg : BitVec w) (bits : List Bool) :
    serial (poly.setWidth v) (reg.setWidth v) bits = (serial poly reg bits).setWidth v := by
  induction bits generalizing reg with
  | nil => rfl
  | cons bit bits ih =>
    have hbit : (BitVec.ofBool bit).setWidth v = ((BitVec.ofBool bit).setWidth w).setWidth v := by
      apply BitVec.eq_of_getLsbD_eq
      intro i hi
      simp only [BitVec.getLsbD_setWidth, hi, decide_true, Bool.true_and]
      rcases i with _ | i
      · simp [hpos]
      · simp
    change serial _ (shift _ (reg.setWidth v ^^^ (BitVec.ofBool bit).setWidth v)) bits = _
    rw [hbit, ← BitVec.setWidth_xor, shift_setWidth hle, ih]
    rfl

/-! ### Tables of a sixteen bit check -/

/-- `shift` on numbers. -/
def shiftNat (poly reg : Nat) : Nat := if reg % 2 = 1 then (reg / 2) ^^^ poly else reg / 2

theorem toNat_shift (poly reg : BitVec w) : (shift poly reg).toNat = shiftNat poly.toNat reg.toNat := by
  unfold shift shiftNat
  rw [BitVec.getLsbD, Nat.testBit_zero]
  by_cases hodd : reg.toNat % 2 = 1
  · simp [hodd, Nat.shiftRight_eq_div_pow]
  · simp [hodd, Nat.shiftRight_eq_div_pow]

theorem toNat_shift_iterate (poly reg : BitVec w) (n : Nat) :
    ((shift poly)^[n] reg).toNat = (shiftNat poly.toNat)^[n] reg.toNat :=
  (show Function.Semiconj BitVec.toNat (shift poly) (shiftNat poly.toNat) from toNat_shift poly).iterate_right n reg

/-- Two tables with the low and the high byte of eight shifts of a byte. -/
structure ByteTables (poly : BitVec 16) where
  lo : UInt8 → UInt8
  hi : UInt8 → UInt8
  shifts : ∀ i, (hi i).toBitVec ++ (lo i).toBitVec = (shift poly)^[8] (i.toBitVec.setWidth 16)

theorem get_of_toList {table : Vector UInt8 256} {f : Nat → UInt8} (htable : table.toList = (List.range 256).map f)
    (i : UInt8) : table.get i.toFin = f i.toNat := by
  have hentry := congrArg (fun entries => entries[i.toNat]?) htable
  rw [List.getElem?_map, List.getElem?_range i.toNat_lt, Vector.getElem?_toList,
    Vector.getElem?_eq_getElem i.toNat_lt] at hentry
  exact Option.some.inj hentry

theorem append_ofNat (reg : BitVec 16) :
    (UInt8.ofNat (reg.toNat >>> 8)).toBitVec ++ (UInt8.ofNat reg.toNat).toBitVec = reg := by
  apply BitVec.eq_of_getLsbD_eq
  intro i hi
  change (BitVec.ofNat 8 (reg.toNat >>> 8) ++ BitVec.ofNat 8 reg.toNat).getLsbD i = _
  rw [BitVec.getLsbD_append, BitVec.getLsbD_ofNat, BitVec.getLsbD_ofNat, Nat.testBit_shiftRight, BitVec.testBit_toNat,
    BitVec.testBit_toNat]
  split
  · simp [*]
  · rw [show 8 + (i - 8) = i by omega]
    simp [show i - 8 < 8 by omega]

/-- Tables that list the shifts of the bytes in order. -/
def ByteTables.ofVectors {poly : BitVec 16} (lo hi : Vector UInt8 256)
    (hlo : lo.toList = (List.range 256).map fun n => UInt8.ofNat ((shiftNat poly.toNat)^[8] n))
    (hhi : hi.toList = (List.range 256).map fun n => UInt8.ofNat ((shiftNat poly.toNat)^[8] n >>> 8)) :
    ByteTables poly where
  lo i := lo.get i.toFin
  hi i := hi.get i.toFin
  shifts i := by
    have hshift : ((shift poly)^[8] (i.toBitVec.setWidth 16)).toNat = (shiftNat poly.toNat)^[8] i.toNat := by
      rw [toNat_shift_iterate, BitVec.toNat_setWidth_of_le (by decide)]
      rfl
    rw [get_of_toList hlo, get_of_toList hhi, ← hshift]
    exact append_ofNat _

theorem ByteTables.xor {poly : BitVec 16} (t : ByteTables poly) (i j : UInt8) :
    t.hi (i ^^^ j) = t.hi i ^^^ t.hi j ∧ t.lo (i ^^^ j) = t.lo i ^^^ t.lo j := by
  rw [← append_inj, t.shifts, UInt8.toBitVec_xor, UInt8.toBitVec_xor, UInt8.toBitVec_xor, BitVec.setWidth_xor,
    shift_iterate_xor, ← t.shifts, ← t.shifts, BitVec.xor_append]

/-- A lookup is a byte of the serial check. -/
theorem ByteTables.lookup {poly : BitVec 16} (t : ByteTables poly) (hi lo byte : UInt8) :
    (t.hi (lo ^^^ byte)).toBitVec ++ (hi ^^^ t.lo (lo ^^^ byte)).toBitVec =
      serial poly (hi.toBitVec ++ lo.toBitVec) (byteBits byte) := by
  have hsplit : (hi.toBitVec ++ lo.toBitVec) ^^^ byte.toBitVec.setWidth 16 =
      (lo ^^^ byte).toBitVec.setWidth 16 ^^^ (hi.toBitVec.setWidth 16 <<< 8) := by
    apply BitVec.eq_of_getLsbD_eq
    intro i hbit
    simp only [BitVec.getLsbD_xor, BitVec.getLsbD_append, BitVec.getLsbD_setWidth, BitVec.getLsbD_shiftLeft,
      UInt8.toBitVec_xor, hbit, decide_true, Bool.true_and]
    by_cases hlow : i < 8
    · simp [hlow]
    · simp [hlow, BitVec.getLsbD_of_ge _ i (Nat.not_lt.mp hlow), show i - 8 < 16 by omega]
  have hhigh : (shift poly)^[8] (hi.toBitVec.setWidth 16 <<< 8) = hi.toBitVec.setWidth 16 := by
    apply shift_iterate_shiftLeft
    intro i hi8
    rw [BitVec.getLsbD_setWidth, BitVec.getLsbD_of_ge _ i hi8, Bool.and_false]
  rw [serial_byteBits (by decide), hsplit, shift_iterate_xor, hhigh, ← t.shifts]
  apply BitVec.eq_of_getLsbD_eq
  intro i hbit
  simp only [BitVec.getLsbD_xor, BitVec.getLsbD_append, BitVec.getLsbD_setWidth, UInt8.toBitVec_xor, hbit, decide_true,
    Bool.true_and]
  by_cases hlow : i < 8
  · simp [hlow, Bool.xor_comm]
  · simp [hlow, BitVec.getLsbD_of_ge _ i (Nat.not_lt.mp hlow)]

end Crc
