import LightControlMonitor.Lib.Digits

/-!
# Decimal numbers on the display

`num2String` writes a number from its last digit on, with the point where the decimals end, and `oled_displaynumber` sends the buffer backwards. When the number has fewer digits than decimals, the loop that fills up with zeros counts one place too few and writes one zero too many.
-/

namespace LightControlMonitor.Oled

def digit (n : Nat) : UInt8 := UInt8.ofNat (n + 0x30)

def point : UInt8 := 0x2e

/-- `buff[num++] = c`; the list holds `buff[1]` to `buff[num - 1]`, and `none` leaves the buffer. -/
def put (buff : List UInt8) (c : UInt8) : Option (List UInt8) :=
  if buff.length + 1 < 64 then some (buff ++ [c]) else none

/-- The digits with the point; the number is `cnt`. -/
def digitLoop (dicNum data : Nat) (buff : List UInt8) (cnt : Nat) : Option (List UInt8 × Nat) :=
  if data = 0 then some (buff, cnt)
  else
    (put buff (digit (data % 10))).bind fun written =>
      (if written.length = dicNum then put written point else some written).bind fun pointed =>
        digitLoop dicNum (data / 10) pointed (cnt + 1)
termination_by data
decreasing_by omega

/-- `while (num - 2 < dicNum)`. -/
def zeroLoop (dicNum : Nat) (buff : List UInt8) : Option (List UInt8) :=
  if buff.length < dicNum + 1 then
    if buff.length + 1 < 64 then zeroLoop dicNum (buff ++ [digit 0]) else none
  else some buff
termination_by dicNum + 1 - buff.length
decreasing_by
  rw [List.length_append, List.length_singleton]
  omega

/-- The buffer behind the length in `buff[0]`. -/
def num2String (data : UInt16) (dicNum : UInt8) : Option (List UInt8) :=
  if data = 0 then some [digit 0]
  else
    (digitLoop dicNum.toNat data.toNat [] 0).bind fun r =>
      if r.2 < dicNum.toNat then
        (zeroLoop dicNum.toNat r.1).bind fun filled => (put filled point).bind fun pointed => put pointed (digit 0)
      else if r.2 = dicNum.toNat then put r.1 (digit 0)
      else some r.1

structure OledPos where
  xPos : UInt8
  yPos : UInt8

/-- The entry of `cmd_table` for `CMD_LOCAL_CHAR_DISP`. -/
def CMD_LOCAL_CHAR_DISP : UInt8 := 0x5b

/-- The bytes sent and `g_oled_pos`. -/
def oledDisplaynumber (y x : UInt8) (data : UInt16) (dicNum : UInt8) : Option (List UInt8 × OledPos) :=
  (num2String data dicNum).map fun pstr =>
    let len := UInt8.ofNat pstr.length
    ([CMD_LOCAL_CHAR_DISP, y * 16, x * 8, 16, 8, len, 0] ++ pstr.reverse, { xPos := x + len, yPos := y })

/-! ### Decimal notation -/

/-- A number without leading zeros. -/
def integer (n : Nat) : List UInt8 := if n = 0 then [digit 0] else ((Nat.digits 10 n).map digit).reverse

/-- The notation of `n / 10 ^ d` with exactly `d` decimals. -/
def decimal (n d : Nat) : List UInt8 :=
  integer (n / 10 ^ d) ++ if d = 0 then [] else point :: ((Digits.low 10 d n).map digit).reverse

/-- The characters behind the command and its six arguments. -/
def Rendered (y x : UInt8) (data : UInt16) (dicNum : UInt8) : Prop :=
  (oledDisplaynumber y x data dicNum).map (fun r => r.1.drop 7) = some (decimal data.toNat dicNum.toNat)

/-! ### The loops -/

theorem put_eq {buff : List UInt8} (hroom : buff.length + 1 < 64) (c : UInt8) : put buff c = some (buff ++ [c]) :=
  if_pos hroom

/-- One round of the loop: a digit, and the point behind it if its place is reached. -/
theorem digitLoop_step {dicNum data : Nat} {buff : List UInt8} (cnt : Nat) (hne : data ≠ 0)
    (hroom : buff.length < 62) :
    digitLoop dicNum data buff cnt =
      digitLoop dicNum (data / 10)
        (buff ++ digit (data % 10) :: if buff.length + 1 = dicNum then [point] else []) (cnt + 1) := by
  have hwritten : (buff ++ [digit (data % 10)]).length = buff.length + 1 := by simp
  rw [digitLoop, if_neg hne, put_eq (by omega), Option.bind_some, hwritten]
  by_cases hplace : buff.length + 1 = dicNum
  · rw [if_pos hplace, if_pos hplace, put_eq (by rw [hwritten]; omega), Option.bind_some, List.append_assoc]
    rfl
  · rw [if_neg hplace, if_neg hplace, Option.bind_some]

/-- The place of the point is behind or never reached: the loop writes the digits. -/
theorem digitLoop_digits {dicNum data : Nat} {buff : List UInt8} (cnt : Nat)
    (hplace : dicNum ≤ buff.length ∨ buff.length + (Nat.digits 10 data).length < dicNum)
    (hroom : buff.length + (Nat.digits 10 data).length < 63) :
    digitLoop dicNum data buff cnt =
      some (buff ++ (Nat.digits 10 data).map digit, cnt + (Nat.digits 10 data).length) := by
  induction data using Nat.strong_induction_on generalizing buff cnt with
  | _ data ih =>
    by_cases hne : data = 0
    · rw [digitLoop, if_pos hne]
      simp [hne]
    · have hdigits := Nat.digits_def' (b := 10) (by decide) (Nat.pos_of_ne_zero hne)
      rw [hdigits, List.length_cons] at hplace hroom
      have hwritten : (buff ++ [digit (data % 10)]).length = buff.length + 1 := by simp
      rw [digitLoop_step cnt hne (by omega), if_neg (by omega),
        ih (data / 10) (by omega) (cnt + 1) (by rw [hwritten]; omega) (by rw [hwritten]; omega), hdigits]
      simp
      omega

/-- The place of the point is reached: it stands between the digits. -/
theorem digitLoop_point {dicNum data : Nat} {buff : List UInt8} {k : Nat} (cnt : Nat)
    (hplace : dicNum = buff.length + (k + 1)) (hreached : k + 1 ≤ (Nat.digits 10 data).length)
    (hroom : buff.length + (Nat.digits 10 data).length < 62) :
    digitLoop dicNum data buff cnt =
      some (buff ++ ((Nat.digits 10 data).take (k + 1)).map digit ++
        point :: ((Nat.digits 10 data).drop (k + 1)).map digit, cnt + (Nat.digits 10 data).length) := by
  induction k generalizing data buff cnt with
  | zero =>
    have hne : data ≠ 0 := by
      rintro rfl
      simp at hreached
    have hdigits := Nat.digits_def' (b := 10) (by decide) (Nat.pos_of_ne_zero hne)
    rw [hdigits, List.length_cons] at hroom
    have hpointed : (buff ++ [digit (data % 10), point]).length = buff.length + 2 := by simp
    rw [digitLoop_step cnt hne (by omega), if_pos hplace.symm,
      digitLoop_digits (cnt + 1) (by rw [hpointed]; omega) (by rw [hpointed]; omega), hdigits]
    simp
    omega
  | succ k ih =>
    have hne : data ≠ 0 := by
      rintro rfl
      simp at hreached
    have hdigits := Nat.digits_def' (b := 10) (by decide) (Nat.pos_of_ne_zero hne)
    rw [hdigits, List.length_cons] at hreached hroom
    have hwritten : (buff ++ [digit (data % 10)]).length = buff.length + 1 := by simp
    rw [digitLoop_step cnt hne (by omega), if_neg (by omega),
      ih (cnt + 1) (by rw [hwritten]; omega) (by omega) (by rw [hwritten]; omega), hdigits]
    simp
    omega

theorem zeroLoop_eq {dicNum k : Nat} {buff : List UInt8} (hroom : dicNum < 62) (hk : buff.length + k = dicNum + 1) :
    zeroLoop dicNum buff = some (buff ++ List.replicate k (digit 0)) := by
  induction k generalizing buff with
  | zero =>
    rw [zeroLoop, if_neg (by omega)]
    simp
  | succ k ih =>
    have hwritten : (buff ++ [digit 0]).length = buff.length + 1 := by simp
    rw [zeroLoop, if_pos (by omega), if_pos (by omega), ih (by rw [hwritten]; omega), List.replicate_succ]
    simp

/-! ### The buffer -/

variable {data : UInt16} {dicNum : UInt8}

theorem digits_length_le (data : UInt16) : (Nat.digits 10 data.toNat).length ≤ 5 :=
  (Nat.digits_length_le_iff (by decide) _).mpr (data.toNat_lt.trans (by decide))

theorem digits_length_pos (hpos : 0 < data.toNat) : 0 < (Nat.digits 10 data.toNat).length :=
  List.length_pos_iff.mpr (Nat.digits_ne_nil_iff_ne_zero.mpr hpos.ne')

theorem ne_zero_of_pos (hpos : 0 < data.toNat) : data ≠ 0 := by
  rintro rfl
  exact Nat.lt_irrefl 0 hpos

theorem integer_reverse (n : Nat) :
    (integer n).reverse = (Nat.digits 10 n).map digit ++ if n = 0 then [digit 0] else [] := by
  unfold integer
  split
  · rename_i hzero
    rw [hzero]
    rfl
  · rw [List.reverse_reverse, List.append_nil]

theorem decimal_reverse (n : Nat) {d : Nat} (hd : d ≠ 0) :
    (decimal n d).reverse = (Digits.low 10 d n).map digit ++ point :: (integer (n / 10 ^ d)).reverse := by
  rw [decimal, if_neg hd]
  simp

theorem num2String_zero (hpos : 0 < data.toNat) (hdicNum : dicNum.toNat = 0) :
    num2String data dicNum = some (decimal data.toNat 0).reverse := by
  have hlength := digits_length_le data
  have hcnt := digits_length_pos hpos
  rw [num2String, if_neg (ne_zero_of_pos hpos),
    digitLoop_digits 0 (.inl (by rw [hdicNum]; exact Nat.zero_le _)) (by rw [List.length_nil]; omega), Option.bind_some,
    if_neg (by omega), if_neg (by omega), decimal, if_pos rfl, List.append_nil, pow_zero, Nat.div_one, integer_reverse,
    if_neg hpos.ne', List.append_nil, List.nil_append]

/-- As many digits as decimals or more: every digit has its place, and a zero is added where none is left in front of the point. -/
theorem num2String_enough (hpos : 0 < data.toNat) {k : Nat} (hdicNum : dicNum.toNat = k + 1)
    (henough : k + 1 ≤ (Nat.digits 10 data.toNat).length) :
    num2String data dicNum = some (decimal data.toNat (k + 1)).reverse := by
  have hlength := digits_length_le data
  have hloop : digitLoop dicNum.toNat data.toNat [] 0 = _ :=
    digitLoop_point 0 (by simpa using hdicNum) henough (by rw [List.length_nil]; omega)
  have hquotient : data.toNat / 10 ^ (k + 1) = 0 ↔ (Nat.digits 10 data.toNat).length = k + 1 := by
    rw [Nat.div_eq_zero_iff_lt (Nat.pow_pos (by decide)), ← Nat.digits_length_le_iff (by decide)]
    omega
  rw [num2String, if_neg (ne_zero_of_pos hpos), hloop, Option.bind_some, if_neg (by omega),
    decimal_reverse _ (Nat.succ_ne_zero k), integer_reverse, ← Digits.take_digits (by decide) henough,
    ← Digits.drop_digits (by decide)]
  split
  · rename_i hequal
    rw [put_eq (by simp; omega), if_pos (hquotient.mpr (by omega))]
    simp
  · rename_i hmore
    rw [if_neg (fun hzero => hmore (by rw [hquotient] at hzero; omega))]
    simp

/-- Fewer digits than decimals: one zero too many. -/
theorem num2String_padded (hpos : 0 < data.toNat) (hdicNum : dicNum.toNat ≤ 20) {k : Nat}
    (hfew : (Nat.digits 10 data.toNat).length + k = dicNum.toNat + 1) (hk : 1 < k) :
    num2String data dicNum =
      some ((Nat.digits 10 data.toNat).map digit ++ List.replicate k (digit 0) ++ [point, digit 0]) := by
  have hloop : digitLoop dicNum.toNat data.toNat [] 0 = _ :=
    digitLoop_digits 0 (.inr (by rw [List.length_nil]; omega)) (by rw [List.length_nil]; omega)
  have hzeros : zeroLoop dicNum.toNat ([] ++ (Nat.digits 10 data.toNat).map digit) = _ :=
    zeroLoop_eq (by omega) (by simpa using hfew)
  rw [num2String, if_neg (ne_zero_of_pos hpos), hloop, Option.bind_some, if_pos (by dsimp only; omega), hzeros,
    Option.bind_some, put_eq (by simp; omega), Option.bind_some, put_eq (by simp; omega)]
  simp

theorem rendered_of_num2String {buff : List UInt8} (hbuff : num2String data dicNum = some buff) (y x : UInt8) :
    Rendered y x data dicNum ↔ buff = (decimal data.toNat dicNum.toNat).reverse := by
  rw [Rendered, oledDisplaynumber, hbuff, Option.map_some, Option.map_some, Option.some.injEq, List.reverse_eq_iff.symm]
  exact Iff.rfl

theorem length_decimal {n d : Nat} (hd : d ≠ 0) : (decimal n d).length = (integer (n / 10 ^ d)).length + 1 + d := by
  rw [decimal, if_neg hd]
  simp
  omega

/-- The display shows the number exactly when it has as many digits as decimals. -/
theorem rendered_iff (y x : UInt8) (hpos : 0 < data.toNat) (hdicNum : dicNum.toNat ≤ 20) :
    Rendered y x data dicNum ↔ dicNum.toNat = 0 ∨ 10 ^ (dicNum.toNat - 1) ≤ data.toNat := by
  cases hd : dicNum.toNat with
  | zero =>
    refine iff_of_true ?_ (.inl rfl)
    rw [rendered_of_num2String (num2String_zero hpos hd), hd]
  | succ k =>
    rw [Nat.add_sub_cancel, ← Nat.lt_digits_length_iff (by decide), or_iff_right (Nat.succ_ne_zero k)]
    by_cases henough : k + 1 ≤ (Nat.digits 10 data.toNat).length
    · refine iff_of_true ?_ henough
      rw [rendered_of_num2String (num2String_enough hpos hd henough), hd]
    · refine iff_of_false ?_ henough
      obtain ⟨zeros, hzeros⟩ : ∃ zeros, (Nat.digits 10 data.toNat).length + zeros = dicNum.toNat + 1 :=
        ⟨_, Nat.add_sub_of_le (by omega)⟩
      rw [rendered_of_num2String (num2String_padded hpos hdicNum hzeros (by omega)), hd]
      intro heq
      have hlength := congrArg List.length heq
      have hsmall : data.toNat / 10 ^ (k + 1) = 0 :=
        Nat.div_eq_of_lt ((Nat.digits_length_le_iff (by decide) _).mp (by omega))
      rw [List.length_reverse, length_decimal (Nat.succ_ne_zero k), hsmall] at hlength
      simp [integer] at hlength
      omega

theorem rendered_twentyFive :
    Rendered 0 0 25 2 ↔ (2 : UInt8).toNat = 0 ∨ 10 ^ ((2 : UInt8).toNat - 1) ≤ (25 : UInt16).toNat :=
  rendered_iff 0 0 (by decide) (by decide)

/-- With two decimals, 5 is shown as `0.005`. -/
theorem not_rendered_five : ¬ Rendered 0 0 5 2 := by
  have hbuff : num2String 5 2 = some [0x35, 0x30, 0x30, 0x2e, 0x30] := by
    simp [num2String, digitLoop, zeroLoop, put, digit, point]
  rw [rendered_of_num2String hbuff]
  decide

end LightControlMonitor.Oled
