import Mathlib.Data.Nat.Notation

/-!
# Counting the characters of a text

`get_char_number` for texts of ASCII characters and of GBK characters of two bytes. Its loop steps over a byte in the test and classifies the byte behind it, so the first byte of a text is never counted and the terminator is looked at. A trail byte up to `0x7e` counts as an ASCII character, and one from `0x81` on counts towards the pairs of high bytes.
-/

namespace LightControlMonitor.Oled

structure OledChar where
  totalBytes : UInt8
  charNumber : UInt8
  deriving DecidableEq

def isAscii (c : UInt8) : Bool := 0x20 ≤ c ∧ c ≤ 0x7f

def isGbk (c : UInt8) : Bool := 0x81 ≤ c ∧ c ≤ 0xfe

/-- `len` and `even_flag`. -/
structure Counters where
  len : Nat
  evenFlag : Nat

def classify (n : Counters) (c : UInt8) : Counters :=
  if isAscii c then { n with len := n.len + 1 }
  else if isGbk c then { len := if n.evenFlag % 2 = 0 then n.len + 1 else n.len, evenFlag := n.evenFlag + 1 }
  else n

/-- The loop over the memory from `s` on: `len` and the bytes `s` moves over; `none` leaves the memory. -/
def countLoop (n : Counters) : List UInt8 → Option (Nat × Nat)
  | [] => none
  | [c] => if c = 0 then some (n.len, 1) else none
  | c :: next :: rest =>
    if c = 0 then some (n.len, 1)
    else (countLoop (classify n next) (next :: rest)).map fun r => (r.1, r.2 + 1)

def getCharNumber (str : List UInt8) : Option OledChar :=
  (countLoop ⟨0, 0⟩ str).map fun r => { charNumber := UInt8.ofNat r.1, totalBytes := UInt8.ofNat (r.2 - 1) }

/-! ### Texts -/

inductive Glyph
  | single (c : UInt8) (hc : 0x20 ≤ c ∧ c ≤ 0x7f)
  | double (lead trail : UInt8) (hlead : 0x81 ≤ lead ∧ lead ≤ 0xfe)
      (htrail : 0x40 ≤ trail ∧ trail ≤ 0xfe ∧ trail ≠ 0x7f)

def Glyph.bytes : Glyph → List UInt8
  | .single c _ => [c]
  | .double lead trail _ _ => [lead, trail]

def encode (text : List Glyph) : List UInt8 := text.flatMap Glyph.bytes

/-- A trail byte from the range of the ASCII characters. -/
def Glyph.lowTrail : Glyph → Bool
  | .single _ _ => false
  | .double _ trail _ _ => isAscii trail

/-- A trail byte that is in neither range. -/
def Glyph.oddTrail : Glyph → Bool
  | .single _ _ => false
  | .double _ trail _ _ => trail = 0x80

/-- The two numbers are those of the text, whatever follows it in memory. -/
def CharsCounted (text : List Glyph) (beyond : List UInt8) : Prop :=
  ∃ number, getCharNumber (encode text ++ 0 :: beyond) = some number ∧ number.charNumber.toNat = text.length ∧
    number.totalBytes.toNat = (encode text).length

/-- When the errors of the loop cancel. -/
def ErrorsCancel (text : List Glyph) : Prop :=
  match text with
  | [] => True
  | .single _ _ :: _ =>
    text.countP Glyph.lowTrail = text.countP Glyph.oddTrail + 1 ∨
      text.countP Glyph.lowTrail = text.countP Glyph.oddTrail + 2
  | .double _ _ _ _ :: _ =>
    text.countP Glyph.lowTrail = text.countP Glyph.oddTrail ∨
      text.countP Glyph.lowTrail = text.countP Glyph.oddTrail + 1

/-! ### The loop -/

theorem isAscii_iff (c : UInt8) : isAscii c = true ↔ 0x20 ≤ c.toNat ∧ c.toNat ≤ 0x7f := by
  simp [isAscii, UInt8.le_iff_toNat_le]

theorem isGbk_iff (c : UInt8) : isGbk c = true ↔ 0x81 ≤ c.toNat ∧ c.toNat ≤ 0xfe := by
  simp [isGbk, UInt8.le_iff_toNat_le]

theorem isGbk_eq_false {c : UInt8} (hlow : c.toNat < 0x81) : isGbk c = false := by
  rw [Bool.eq_false_iff, ne_eq, isGbk_iff]
  omega

theorem isAscii_eq_false {c : UInt8} (hhigh : 0x7f < c.toNat) : isAscii c = false := by
  rw [Bool.eq_false_iff, ne_eq, isAscii_iff]
  omega

/-- The counters after `ascii` ASCII bytes and `high` high bytes: every other high byte is counted, the first one included. -/
def Counters.of (ascii high : Nat) : Counters := ⟨ascii + (high + 1) / 2, high⟩

theorem half_succ (ascii high : Nat) :
    (if high % 2 = 0 then ascii + (high + 1) / 2 + 1 else ascii + (high + 1) / 2) = ascii + (high + 1 + 1) / 2 := by
  split <;> omega

theorem classify_of (ascii high : Nat) (c : UInt8) :
    classify (.of ascii high) c = .of (ascii + (isAscii c).toNat) (high + (isGbk c).toNat) := by
  simp only [classify, Counters.of]
  cases hascii : isAscii c with
  | true =>
    rw [if_pos rfl, isGbk_eq_false (by rw [isAscii_iff] at hascii; omega)]
    simp only [Bool.toNat_true, Bool.toNat_false, Nat.add_zero, Counters.mk.injEq, and_true]
    omega
  | false =>
    rw [if_neg Bool.false_ne_true]
    cases isGbk c with
    | true =>
      rw [if_pos rfl]
      simp only [Bool.toNat_true, Bool.toNat_false, Nat.add_zero, Counters.mk.injEq, and_true]
      exact half_succ ascii high
    | false => rfl

/-- Every byte of the text but the first one is counted. -/
theorem countLoop_of {bytes : List UInt8} (hbytes : ∀ c ∈ bytes, c ≠ 0) (beyond : List UInt8) {c : UInt8} (hc : c ≠ 0)
    (ascii high : Nat) :
    countLoop (.of ascii high) (c :: (bytes ++ 0 :: beyond)) =
      some (ascii + bytes.countP isAscii + (high + bytes.countP isGbk + 1) / 2, bytes.length + 2) := by
  induction bytes generalizing c ascii high with
  | nil =>
    rw [List.nil_append, countLoop, if_neg hc, classify_of]
    cases beyond <;> rfl
  | cons next bytes ih =>
    have hrest := ih (fun d hd => hbytes d (List.mem_cons_of_mem _ hd)) (hbytes next List.mem_cons_self)
      (ascii + (isAscii next).toNat) (high + (isGbk next).toNat)
    rw [List.cons_append, countLoop, if_neg hc, classify_of, hrest, List.countP_cons, List.countP_cons, Option.map_some]
    have hcount : ∀ b : Bool, b.toNat = if b then 1 else 0 := by decide
    simp only [hcount, List.length_cons, Nat.add_assoc, Nat.add_comm, Nat.add_left_comm]

/-! ### The bytes of a text -/

theorem Glyph.bytes_ne_zero (g : Glyph) : ∀ c ∈ g.bytes, c ≠ 0 := by
  rintro c hmem rfl
  cases g with
  | single c hc =>
    rw [Glyph.bytes, List.mem_singleton] at hmem
    subst hmem
    exact absurd hc.1 (by decide)
  | double lead trail hlead htrail =>
    rw [Glyph.bytes, List.mem_cons, List.mem_singleton] at hmem
    obtain rfl | rfl := hmem
    · exact absurd hlead.1 (by decide)
    · exact absurd htrail.1 (by decide)

theorem encode_ne_zero (text : List Glyph) : ∀ c ∈ encode text, c ≠ 0 := by
  intro c hmem
  obtain ⟨g, -, hg⟩ := List.mem_flatMap.mp hmem
  exact g.bytes_ne_zero c hg

theorem trail_weight {trail : UInt8} (htrail : 0x40 ≤ trail ∧ trail ≤ 0xfe) :
    2 * (isAscii trail).toNat + (isGbk trail).toNat + (decide (trail = 0x80)).toNat = 1 + (isAscii trail).toNat := by
  rw [UInt8.le_iff_toNat_le, UInt8.le_iff_toNat_le] at htrail
  have hodd : trail = 0x80 ↔ trail.toNat = 0x80 := UInt8.toNat_inj.symm
  have hlow : (0x40 : UInt8).toNat = 0x40 := rfl
  have hhigh : (0xfe : UInt8).toNat = 0xfe := rfl
  by_cases hascii : trail.toNat ≤ 0x7f
  · have hgbk : isGbk trail = false := isGbk_eq_false (by omega)
    have hne : ¬ trail = 0x80 := by
      rw [hodd]
      omega
    rw [(isAscii_iff trail).mpr (by omega), hgbk, decide_eq_false hne]
    rfl
  · by_cases heq : trail = 0x80
    · subst heq
      rfl
    · have hlow : isAscii trail = false := isAscii_eq_false (by omega)
      rw [hodd] at heq
      rw [hlow, (isGbk_iff trail).mpr (by omega), decide_eq_false (by rwa [hodd])]
      rfl

/-- Twice the ASCII bytes and once the high ones: two for a character, one more for a low trail byte and one less for an odd one. -/
theorem Glyph.weight (g : Glyph) :
    2 * g.bytes.countP isAscii + g.bytes.countP isGbk + g.oddTrail.toNat = 2 + g.lowTrail.toNat := by
  have hcount : ∀ (p : UInt8 → Bool) c, [c].countP p = (p c).toNat := by
    intro p c
    rw [List.countP_singleton]
    cases p c <;> rfl
  cases g with
  | single c hc =>
    have hascii : isAscii c = true := decide_eq_true hc
    rw [Glyph.bytes, hcount, hcount, hascii, isGbk_eq_false (by rw [isAscii_iff] at hascii; omega)]
    rfl
  | double lead trail hlead htrail =>
    have hgbk : isGbk lead = true := decide_eq_true hlead
    have hascii : isAscii lead = false := isAscii_eq_false (by rw [isGbk_iff] at hgbk; omega)
    have hweight := trail_weight ⟨htrail.1, htrail.2.1⟩
    rw [Glyph.bytes, ← List.singleton_append, List.countP_append, List.countP_append, hcount, hcount, hcount, hcount,
      hascii, hgbk, Glyph.oddTrail, Glyph.lowTrail]
    simp only [Bool.toNat_true, Bool.toNat_false]
    omega

theorem encode_weight (text : List Glyph) :
    2 * (encode text).countP isAscii + (encode text).countP isGbk + text.countP Glyph.oddTrail =
      2 * text.length + text.countP Glyph.lowTrail := by
  induction text with
  | nil => rfl
  | cons g text ih =>
    have hg := g.weight
    have hcount : ∀ b : Bool, b.toNat = if b then 1 else 0 := by decide
    rw [hcount, hcount] at hg
    rw [encode, List.flatMap_cons, ← encode, List.countP_append, List.countP_append, List.countP_cons, List.countP_cons,
      List.length_cons]
    omega

theorem getCharNumber_cons {c : UInt8} {bytes : List UInt8} (hbytes : ∀ d ∈ c :: bytes, d ≠ 0) (beyond : List UInt8) :
    getCharNumber (c :: bytes ++ 0 :: beyond) =
      some { charNumber := UInt8.ofNat (bytes.countP isAscii + (bytes.countP isGbk + 1) / 2)
             totalBytes := UInt8.ofNat (bytes.length + 1) } := by
  have hloop := countLoop_of (fun d hd => hbytes d (List.mem_cons_of_mem _ hd)) beyond (hbytes c List.mem_cons_self) 0 0
  rw [Nat.zero_add, Nat.zero_add] at hloop
  rw [getCharNumber, List.cons_append]
  exact congrArg (Option.map _) hloop

theorem countP_add_le (bytes : List UInt8) : bytes.countP isAscii + bytes.countP isGbk ≤ bytes.length := by
  induction bytes with
  | nil => exact Nat.le_refl 0
  | cons c bytes ih =>
    rw [List.countP_cons, List.countP_cons, List.length_cons]
    cases hascii : isAscii c with
    | true =>
      rw [isGbk_eq_false (by rw [isAscii_iff] at hascii; omega), if_pos rfl, if_neg Bool.false_ne_true]
      omega
    | false =>
      rw [if_neg Bool.false_ne_true]
      split <;> omega

/-- The numbers fit into the bytes of `oled_char_t` exactly when the text has at most 255 bytes. -/
theorem charsCounted_cons {text : List Glyph} {c : UInt8} {bytes : List UInt8} (htext : encode text = c :: bytes)
    (beyond : List UInt8) :
    CharsCounted text beyond ↔
      (encode text).length ≤ 255 ∧ bytes.countP isAscii + (bytes.countP isGbk + 1) / 2 = text.length := by
  have hnumber := getCharNumber_cons (htext ▸ encode_ne_zero text) beyond
  have hle := countP_add_le bytes
  rw [CharsCounted, htext, hnumber, List.length_cons]
  constructor
  · rintro ⟨number, heq, hchars, hbytes⟩
    obtain rfl := Option.some.inj heq
    rw [UInt8.toNat_ofNat'] at hchars hbytes
    omega
  · rintro ⟨hshort, hcount⟩
    refine ⟨_, rfl, ?_, ?_⟩
    · rw [UInt8.toNat_ofNat', hcount]
      omega
    · rw [UInt8.toNat_ofNat']
      omega

/-- Where the two numbers are right: on short texts whose low trail bytes make up for the first character, which is not counted, and for the high bytes they take from the pairs. -/
theorem charsCounted_iff (text : List Glyph) (beyond : List UInt8) :
    CharsCounted text beyond ↔ (encode text).length ≤ 255 ∧ ErrorsCancel text := by
  cases text with
  | nil =>
    have hempty : getCharNumber (encode [] ++ 0 :: beyond) = some ⟨0, 0⟩ := by cases beyond <;> rfl
    exact iff_of_true ⟨_, hempty, rfl, rfl⟩ ⟨Nat.zero_le _, trivial⟩
  | cons g text =>
    have hweight := encode_weight text
    cases g with
    | single c hc =>
      have htext : encode (.single c hc :: text) = c :: encode text := rfl
      have hlow : (Glyph.single c hc :: text).countP Glyph.lowTrail = text.countP Glyph.lowTrail :=
        List.countP_cons_of_neg Bool.false_ne_true
      have hodd : (Glyph.single c hc :: text).countP Glyph.oddTrail = text.countP Glyph.oddTrail :=
        List.countP_cons_of_neg Bool.false_ne_true
      rw [charsCounted_cons htext, ErrorsCancel, hlow, hodd, List.length_cons]
      refine and_congr_right fun _ => ?_
      omega
    | double lead trail hlead htrail =>
      have htext : encode (.double lead trail hlead htrail :: text) = lead :: trail :: encode text := rfl
      have htrailWeight := trail_weight ⟨htrail.1, htrail.2.1⟩
      have hcount : ∀ b : Bool, b.toNat = if b then 1 else 0 := by decide
      rw [charsCounted_cons htext, ErrorsCancel, List.countP_cons, List.countP_cons, List.countP_cons, List.countP_cons,
        List.length_cons, Glyph.lowTrail, Glyph.oddTrail, ← hcount, ← hcount, ← hcount]
      refine and_congr_right fun _ => ?_
      omega

theorem letterA_range : (0x20 : UInt8) ≤ 0x41 ∧ (0x41 : UInt8) ≤ 0x7f := by decide

def letterA : Glyph := .single 0x41 letterA_range

/-- The letter `A` is counted as no character. -/
theorem not_charsCounted_letterA : ¬ CharsCounted [letterA] [] := by
  rintro ⟨number, hnumber, hchars, -⟩
  obtain rfl := Option.some.inj hnumber
  revert hchars
  decide

end LightControlMonitor.Oled
