import LightControlMonitor.Lib.ShiftRegister
import LightControlMonitor.Oled.Decimal

/-!
# The lines to the display

`spi_send_byte` of `spi_driver.c` writes the pins in mode 3: the clock idles high and the display samples the data line when it rises. On it the functions of `oled_driver.c` send commands, each a first byte and its arguments, where only a text says in its arguments how long it is.

`Display` is the other end as the comments of the two files describe it: a shift register behind the pins, and behind that a reader of commands. What a sequence of commands writes to the pins is read there as these commands.
-/

namespace LightControlMonitor.Oled

/-! ### The pins -/

inductive PinWrite
  | cs (level : Bool)
  | clk (level : Bool)
  | sdi (level : Bool)

/-- The loop of `spi_send_byte` with `n` rounds to go. -/
def spiLoop : Nat → UInt8 → List PinWrite
  | 0, _ => []
  | n + 1, data => .clk false :: .sdi (data &&& 0x80 ≠ 0) :: .clk true :: spiLoop n (data <<< 1)

def spiSendByte (data : UInt8) : List PinWrite := .cs false :: (spiLoop 8 data ++ [.cs true])

/-- The pins written by a sequence of `oled_data_send`; the waits on the busy pin write nothing. -/
def sendBytes (bytes : List UInt8) : List PinWrite := bytes.flatMap spiSendByte

/-- The levels of the pins, and the bits sampled since the last byte or edge of the select line. -/
structure SpiSlave where
  cs : Bool
  clk : Bool
  sdi : Bool
  count : Nat
  reg : BitVec 8

def SpiSlave.write (s : SpiSlave) : PinWrite → SpiSlave × List UInt8
  | .cs level => ({ s with cs := level, count := 0 }, [])
  | .sdi level => ({ s with sdi := level }, [])
  | .clk level =>
    if s.cs = false ∧ s.clk = false ∧ level = true then
      let reg := s.reg.shiftConcat s.sdi
      if s.count + 1 = 8 then ({ s with clk := level, reg, count := 0 }, [⟨reg⟩])
      else ({ s with clk := level, reg, count := s.count + 1 }, [])
    else ({ s with clk := level }, [])

/-- The bytes taken while the pins are written. -/
def SpiSlave.run (s : SpiSlave) : List PinWrite → SpiSlave × List UInt8
  | [] => (s, [])
  | pin :: pins => ((SpiSlave.run (s.write pin).1 pins).1, (s.write pin).2 ++ (SpiSlave.run (s.write pin).1 pins).2)

/-! ### The commands -/

/-- The entries of `cmd_table` that are sent. -/
def CMD_DISP_ON : UInt8 := 0x51
def CMD_DISP_OFF : UInt8 := 0x50
def CMD_CLR : UInt8 := 0x58

def oledClear : List UInt8 := [CMD_CLR]

def drawCircle (x y r fil z : UInt8) : List UInt8 := [0x64, x, y, r, fil, z]

def drawLine (y1 x1 y2 x2 fill : UInt8) : List UInt8 := [0x61, y1, x1, y2, x2, fill]

def drawRec (y1 x1 y2 x2 fill display : UInt8) : List UInt8 :=
  (if fill ≠ 0 then 0x63 else 0x62) :: [y1, x1, y2, x2, display]

def interChhzes (y x m n rev : UInt8) (s : List UInt8) : List UInt8 :=
  [CMD_LOCAL_CHAR_DISP, y, x, m, n, UInt8.ofNat s.length, rev] ++ s

/-- The bytes sent and `g_oled_pos`. -/
def oledDisplayChar (charWith y x : UInt8) (s : List UInt8) : List UInt8 × OledPos :=
  let len := UInt8.ofNat s.length
  ([CMD_LOCAL_CHAR_DISP, (y - 1) * charWith, (x - 1) * charWith, if charWith > 8 then charWith else charWith * 2,
      charWith, len, 0] ++ s,
    { xPos := x + len, yPos := y })

inductive OledCmd
  | dispOff
  | dispOn
  | clear
  | line (y1 x1 y2 x2 fill : UInt8)
  | rectangle (y1 x1 y2 x2 fill display : UInt8)
  | circle (x y r fil z : UInt8)
  | chars (y x m n rev : UInt8) (s : List UInt8)
  deriving DecidableEq

def OledCmd.bytes : OledCmd → List UInt8
  | .dispOff => [CMD_DISP_OFF]
  | .dispOn => [CMD_DISP_ON]
  | .clear => oledClear
  | .line y1 x1 y2 x2 fill => drawLine y1 x1 y2 x2 fill
  | .rectangle y1 x1 y2 x2 fill display => drawRec y1 x1 y2 x2 fill display
  | .circle x y r fil z => drawCircle x y r fil z
  | .chars y x m n rev s => interChhzes y x m n rev s

/-- The length of a text fits its argument, and a rectangle is filled or not. -/
def OledCmd.WellFormed : OledCmd → Prop
  | .chars _ _ _ _ _ s => s.length < 256
  | .rectangle _ _ _ _ fill _ => fill = 0 ∨ fill = 1
  | _ => True

instance OledCmd.instDecidableWellFormed : (cmd : OledCmd) → Decidable cmd.WellFormed
  | .chars _ _ _ _ _ s => inferInstanceAs (Decidable (s.length < 256))
  | .rectangle _ _ _ _ fill _ => inferInstanceAs (Decidable (fill = 0 ∨ fill = 1))
  | .dispOff => inferInstanceAs (Decidable True)
  | .dispOn => inferInstanceAs (Decidable True)
  | .clear => inferInstanceAs (Decidable True)
  | .line _ _ _ _ _ => inferInstanceAs (Decidable True)
  | .circle _ _ _ _ _ => inferInstanceAs (Decidable True)

/-- The command whose bytes these are. -/
def readCmd : List UInt8 → Option OledCmd
  | [cmd] =>
    if cmd = 0x50 then some .dispOff else if cmd = 0x51 then some .dispOn else if cmd = 0x58 then some .clear else none
  | [cmd, a, b, c, d, e] =>
    if cmd = 0x61 then some (.line a b c d e)
    else if cmd = 0x62 then some (.rectangle a b c d 0 e)
    else if cmd = 0x63 then some (.rectangle a b c d 1 e)
    else if cmd = 0x64 then some (.circle a b c d e)
    else none
  | cmd :: y :: x :: m :: n :: len :: rev :: s =>
    if cmd = 0x5b ∧ s.length = len.toNat then some (.chars y x m n rev s) else none
  | _ => none

/-- The bytes of a command that has begun, and the commands read. -/
structure Reader where
  buffer : List UInt8
  cmds : List OledCmd

def Reader.feed (r : Reader) (byte : UInt8) : Reader :=
  match readCmd (r.buffer ++ [byte]) with
  | some cmd => { buffer := [], cmds := r.cmds ++ [cmd] }
  | none => { r with buffer := r.buffer ++ [byte] }

structure Display where
  slave : SpiSlave
  reader : Reader

def Display.run (d : Display) (pins : List PinWrite) : Display where
  slave := (d.slave.run pins).1
  reader := (d.slave.run pins).2.foldl Reader.feed d.reader

/-- Not selected, the clock high and no command begun. -/
structure Display.Idle (d : Display) : Prop where
  cs : d.slave.cs = true
  clk : d.slave.clk = true
  buffer : d.reader.buffer = []

/-! ### Bytes through the pins -/

theorem SpiSlave.run_append (s : SpiSlave) (pins pins' : List PinWrite) :
    s.run (pins ++ pins') = (((s.run pins).1.run pins').1, (s.run pins).2 ++ ((s.run pins).1.run pins').2) := by
  induction pins generalizing s with
  | nil => rfl
  | cons pin pins ih => rw [List.cons_append, SpiSlave.run, SpiSlave.run, ih, List.append_assoc]

theorem data_bit (data : UInt8) : decide (data &&& 0x80 ≠ 0) = data.toBitVec.msb := by
  have hmask : (data &&& 0x80).toBitVec = if data.toBitVec.getLsbD 7 then BitVec.twoPow 8 7 else 0#8 :=
    BitVec.and_twoPow data.toBitVec 7
  rw [BitVec.msb_eq_getLsbD_last, Bool.eq_iff_iff, decide_eq_true_iff, ne_eq, ← UInt8.toBitVec_inj, hmask]
  cases data.toBitVec.getLsbD 7 <;> simp

theorem toBitVec_double (data : UInt8) : (data <<< 1).toBitVec = data.toBitVec <<< 1 := by
  rw [UInt8.toBitVec_shiftLeft]
  rfl

/-- One round of the loop brings one bit into the register, and the eighth a byte. -/
theorem SpiSlave.run_round {s : SpiSlave} (hcs : s.cs = false) (bit : Bool) (pins : List PinWrite) :
    s.run (.clk false :: .sdi bit :: .clk true :: pins) =
      if s.count + 1 = 8 then
        ((SpiSlave.run ⟨s.cs, true, bit, 0, s.reg.shiftConcat bit⟩ pins).1,
          ⟨s.reg.shiftConcat bit⟩ :: (SpiSlave.run ⟨s.cs, true, bit, 0, s.reg.shiftConcat bit⟩ pins).2)
      else SpiSlave.run ⟨s.cs, true, bit, s.count + 1, s.reg.shiftConcat bit⟩ pins := by
  split_ifs with hcount <;> simp [SpiSlave.run, SpiSlave.write, hcs, hcount]

/-- The rounds that are left bring the rest of the byte. -/
theorem SpiSlave.run_loop {s : SpiSlave} {n : Nat} (hcs : s.cs = false) (hcount : s.count + (n + 1) = 8) (data : UInt8) :
    ∃ sdi, s.run (spiLoop (n + 1) data) =
      (⟨s.cs, true, sdi, 0, ShiftRegister.input s.reg (ShiftRegister.out (n + 1) data.toBitVec)⟩,
        [⟨ShiftRegister.input s.reg (ShiftRegister.out (n + 1) data.toBitVec)⟩]) := by
  induction n generalizing s data with
  | zero =>
    refine ⟨data.toBitVec.msb, ?_⟩
    rw [spiLoop, data_bit, SpiSlave.run_round hcs, if_pos (by omega)]
    rfl
  | succ n ih =>
    obtain ⟨sdi, hrest⟩ := ih (s := ⟨s.cs, true, data.toBitVec.msb, s.count + 1, s.reg.shiftConcat data.toBitVec.msb⟩)
      hcs (by dsimp only; omega) (data <<< 1)
    rw [toBitVec_double] at hrest
    refine ⟨sdi, ?_⟩
    rw [spiLoop, data_bit, SpiSlave.run_round hcs, if_neg (by omega), hrest,
      ShiftRegister.input_out_succ s.reg (n + 1) data.toBitVec]

/-- A byte arrives as it was sent, and the clock idles high again. -/
theorem SpiSlave.run_byte (s : SpiSlave) (data : UInt8) :
    ∃ s', s'.cs = true ∧ s'.clk = true ∧ s.run (spiSendByte data) = (s', [data]) := by
  have hcount : (⟨false, s.clk, s.sdi, 0, s.reg⟩ : SpiSlave).count + (7 + 1) = 8 := by simp only
  obtain ⟨sdi, hloop⟩ := SpiSlave.run_loop (s := ⟨false, s.clk, s.sdi, 0, s.reg⟩) (by simp only) hcount data
  rw [ShiftRegister.input_out] at hloop
  refine ⟨⟨true, true, sdi, 0, data.toBitVec⟩, rfl, rfl, ?_⟩
  have hselect : s.write (.cs false) = (⟨false, s.clk, s.sdi, 0, s.reg⟩, []) := rfl
  rw [spiSendByte, SpiSlave.run, hselect, SpiSlave.run_append, hloop]
  rfl

theorem SpiSlave.run_bytes {s : SpiSlave} (hcs : s.cs = true) (hclk : s.clk = true) (data : List UInt8) :
    ∃ s', s'.cs = true ∧ s'.clk = true ∧ s.run (sendBytes data) = (s', data) := by
  induction data generalizing s with
  | nil => exact ⟨s, hcs, hclk, rfl⟩
  | cons byte data ih =>
    obtain ⟨s₁, hcs₁, hclk₁, hbyte⟩ := SpiSlave.run_byte s byte
    obtain ⟨s₂, hcs₂, hclk₂, hrest⟩ := ih hcs₁ hclk₁
    refine ⟨s₂, hcs₂, hclk₂, ?_⟩
    rw [sendBytes, List.flatMap_cons, SpiSlave.run_append, hbyte]
    change ((s₁.run (sendBytes data)).1, [byte] ++ (s₁.run (sendBytes data)).2) = _
    rw [hrest]
    rfl

/-! ### Commands through the bytes -/

variable {cmd : OledCmd} {r : Reader}

/-- A text is read when its last character has arrived. -/
theorem Reader.feed_text (cmds : List OledCmd) (y x m n len rev : UInt8) {front s : List UInt8}
    (hlength : front.length + s.length = len.toNat) (hne : s ≠ []) :
    s.foldl Reader.feed ⟨[CMD_LOCAL_CHAR_DISP, y, x, m, n, len, rev] ++ front, cmds⟩ =
      ⟨[], cmds ++ [.chars y x m n rev (front ++ s)]⟩ := by
  induction s generalizing front with
  | nil => exact absurd rfl hne
  | cons byte s ih =>
    rw [List.length_cons] at hlength
    have hread : readCmd ([CMD_LOCAL_CHAR_DISP, y, x, m, n, len, rev] ++ front ++ [byte]) =
        if (front ++ [byte]).length = len.toNat then some (.chars y x m n rev (front ++ [byte])) else none := by
      simp [readCmd, CMD_LOCAL_CHAR_DISP]
    rw [List.foldl_cons, Reader.feed, hread, List.length_append, List.length_singleton]
    cases s with
    | nil =>
      rw [if_pos (by simpa using hlength)]
      rfl
    | cons byte' s =>
      rw [List.length_cons] at hlength
      have hrest : (front ++ [byte]).length + (byte' :: s).length = len.toNat := by
        rw [List.length_append, List.length_singleton, List.length_cons]
        omega
      rw [if_neg (by omega), List.append_assoc, ih hrest (List.cons_ne_nil byte' s), List.append_assoc]
      rfl

/-- A text of some length waits for its characters. -/
theorem Reader.feed_head (cmds : List OledCmd) (y x m n rev : UInt8) {len : UInt8} (hlen : len.toNat ≠ 0) :
    [CMD_LOCAL_CHAR_DISP, y, x, m, n, len, rev].foldl Reader.feed ⟨[], cmds⟩ =
      ⟨[CMD_LOCAL_CHAR_DISP, y, x, m, n, len, rev], cmds⟩ := by
  have hread : readCmd [CMD_LOCAL_CHAR_DISP, y, x, m, n, len, rev] = none :=
    if_neg fun h => hlen h.2.symm
  have hsix : [CMD_LOCAL_CHAR_DISP, y, x, m, n, len].foldl Reader.feed ⟨[], cmds⟩ =
      ⟨[CMD_LOCAL_CHAR_DISP, y, x, m, n, len], cmds⟩ := rfl
  have hsplit : [CMD_LOCAL_CHAR_DISP, y, x, m, n, len, rev] = [CMD_LOCAL_CHAR_DISP, y, x, m, n, len] ++ [rev] := rfl
  rw [hsplit, List.foldl_append, hsix, List.foldl_cons, List.foldl_nil, Reader.feed]
  dsimp only
  rw [← hsplit, hread]

/-- Every command is read as it was sent. -/
theorem Reader.feed_bytes (hbuffer : r.buffer = []) (hformed : cmd.WellFormed) :
    cmd.bytes.foldl Reader.feed r = { buffer := [], cmds := r.cmds ++ [cmd] } := by
  obtain ⟨buffer, cmds⟩ := r
  obtain rfl : buffer = [] := hbuffer
  cases cmd with
  | dispOff => rfl
  | dispOn => rfl
  | clear => rfl
  | line y1 x1 y2 x2 fill => rfl
  | rectangle y1 x1 y2 x2 fill display =>
    rcases hformed with rfl | rfl
    · rfl
    · rfl
  | circle x y radius fil z => rfl
  | chars y x m n rev s =>
    have hlength : (UInt8.ofNat s.length).toNat = s.length := UInt8.toNat_ofNat_of_lt hformed
    rw [OledCmd.bytes, interChhzes, List.foldl_append]
    cases s with
    | nil => rfl
    | cons byte s =>
      rw [Reader.feed_head cmds y x m n rev (by rw [hlength]; exact Nat.succ_ne_zero _)]
      exact @Reader.feed_text cmds y x m n _ rev [] (byte :: s) (by rw [hlength, List.length_nil, Nat.zero_add])
        (List.cons_ne_nil byte s)

/-! ### The commands arrive -/

variable {d : Display}

theorem Reader.feed_commands {cmds : List OledCmd} (hbuffer : r.buffer = []) (hformed : ∀ cmd ∈ cmds, cmd.WellFormed) :
    (cmds.flatMap OledCmd.bytes).foldl Reader.feed r = { buffer := [], cmds := r.cmds ++ cmds } := by
  induction cmds generalizing r with
  | nil =>
    rw [List.append_nil, ← hbuffer]
    rfl
  | cons cmd cmds ih =>
    obtain ⟨hcmd, hcmds⟩ := List.forall_mem_cons.mp hformed
    rw [List.flatMap_cons, List.foldl_append, Reader.feed_bytes hbuffer hcmd, ih rfl hcmds, List.append_assoc]
    rfl

theorem Display.run_append (d : Display) (pins pins' : List PinWrite) :
    d.run (pins ++ pins') = (d.run pins).run pins' := by
  simp only [Display.run, SpiSlave.run_append, List.foldl_append]

theorem Display.run_commands {cmds : List OledCmd} (hidle : d.Idle) (hformed : ∀ cmd ∈ cmds, cmd.WellFormed) :
    (d.run (sendBytes (cmds.flatMap OledCmd.bytes))).Idle ∧
      (d.run (sendBytes (cmds.flatMap OledCmd.bytes))).reader.cmds = d.reader.cmds ++ cmds := by
  obtain ⟨s', hcs, hclk, hrun⟩ := SpiSlave.run_bytes hidle.cs hidle.clk (cmds.flatMap OledCmd.bytes)
  have hread := Reader.feed_commands hidle.buffer hformed
  refine ⟨⟨?_, ?_, ?_⟩, ?_⟩
  · rw [Display.run, hrun, hcs]
  · rw [Display.run, hrun, hclk]
  · rw [Display.run, hrun, hread]
  · rw [Display.run, hrun, hread]

/-- A command that has been read stays read. -/
theorem Display.cmds_isPrefix (d : Display) (pins : List PinWrite) : d.reader.cmds <+: (d.run pins).reader.cmds := by
  rw [Display.run]
  generalize (d.slave.run pins).2 = bytes
  generalize d.reader = reader
  induction bytes generalizing reader with
  | nil => exact List.prefix_refl _
  | cons byte bytes ih =>
    refine List.IsPrefix.trans ?_ (ih (reader.feed byte))
    rw [Reader.feed]
    split
    · exact List.prefix_append _ _
    · exact List.prefix_refl _

/-- What is sent is read, and while it is being sent the display has read a part of it from the front, never anything else. -/
theorem commands_arrive {cmds : List OledCmd} (hidle : d.Idle) (hformed : ∀ cmd ∈ cmds, cmd.WellFormed) :
    ((d.run (sendBytes (cmds.flatMap OledCmd.bytes))).Idle ∧
      (d.run (sendBytes (cmds.flatMap OledCmd.bytes))).reader.cmds = d.reader.cmds ++ cmds) ∧
    ∀ pins pins', pins ++ pins' = sendBytes (cmds.flatMap OledCmd.bytes) →
      (d.run pins).reader.cmds <+: d.reader.cmds ++ cmds := by
  have hsent := Display.run_commands hidle hformed
  refine ⟨hsent, fun pins pins' hsplit => ?_⟩
  rw [← hsent.2, ← hsplit, Display.run_append]
  exact Display.cmds_isPrefix _ _

def Display.start : Display := ⟨⟨true, true, false, 0, 0⟩, ⟨[], []⟩⟩

theorem Display.start_idle : Display.start.Idle := ⟨rfl, rfl, rfl⟩

theorem commands_arrive_text :
    ((Display.start.run (sendBytes ([OledCmd.clear, .chars 24 0 16 8 0 [0x30, 0x31], .circle 32 32 8 1 0].flatMap
        OledCmd.bytes))).Idle ∧
      (Display.start.run (sendBytes ([OledCmd.clear, .chars 24 0 16 8 0 [0x30, 0x31], .circle 32 32 8 1 0].flatMap
        OledCmd.bytes))).reader.cmds = Display.start.reader.cmds ++
          [OledCmd.clear, .chars 24 0 16 8 0 [0x30, 0x31], .circle 32 32 8 1 0]) ∧
    ∀ pins pins', pins ++ pins' = sendBytes ([OledCmd.clear, .chars 24 0 16 8 0 [0x30, 0x31],
        .circle 32 32 8 1 0].flatMap OledCmd.bytes) →
      (Display.start.run pins).reader.cmds <+: Display.start.reader.cmds ++
        [OledCmd.clear, .chars 24 0 16 8 0 [0x30, 0x31], .circle 32 32 8 1 0] :=
  commands_arrive Display.start_idle (by decide)

end LightControlMonitor.Oled
