import LightControlMonitor.Lms.Burst
import LightControlMonitor.Lms.Submitters

/-!
# The documented layout of a command

`lms.h` and `lms.c` give the layout of a long frame: the sync byte is the Hamming code of the group and the frame type, the second byte is a start bit and seven segment bits, the third one the order and the check. The sync byte and the third byte are as documented, and the sync decoder corrects every single bit error. `build_ctrl_cmd` sends the segment address as it is, so the start bit is there only if the caller has put it there.
-/

namespace LightControlMonitor.Lms

open Transition (Reaches)

/-- `Errorpattern[]`: for every syndrome the wrong bit, counted from 1. -/
def errorpattern : Vector UInt8 8 := #v[0x00, 0x01, 0x02, 0x04, 0x03, 0x05, 0x06, 0x07]

/-- `ID 0 0 0 0 g2 g1 g0` from a code word. -/
def syncInfo (rxSyncFrame : UInt8) : UInt8 :=
  ((rxSyncFrame >>> (4 : UInt8)) &&& 0x07) ||| ((rxSyncFrame <<< (4 : UInt8)) &&& 0x80)

/-- `DeSyncFrame`: the frame type in bit 7, the error flag in bit 6 and the group in the low bits. -/
def deSyncFrame (byValue : UInt8) : Option UInt8 :=
  let rxSyncFrame := byValue &&& 0x7f
  let tap (shift bit : UInt8) : UInt8 := (rxSyncFrame >>> shift) &&& bit
  let s2 := tap 4 0x04 ^^^ tap 3 0x04 ^^^ tap 2 0x04 ^^^ tap 0 0x04
  let s1 := tap 5 0x02 ^^^ tap 4 0x02 ^^^ tap 2 0x02 ^^^ tap 0 0x02
  let s0 := tap 6 0x01 ^^^ tap 4 0x01 ^^^ tap 3 0x01 ^^^ tap 0 0x01
  errorpattern[(s2 ||| s1 ||| s0).toNat]?.map fun errorBitLocation =>
    if errorBitLocation = 0x00 then syncInfo rxSyncFrame
    else
      let corrected : UInt8 := rxSyncFrame ^^^ ((1 : UInt8) <<< (errorBitLocation - 1))
      if txSyncFrame.toList.count corrected = 1 then syncInfo corrected ||| 0x40 else 0xf0

/-! ### The layout -/

/-- `b0 = 0 g2 g1 g0 1 c2 c1 c0`, decoded without an error and with one. -/
structure SyncByte (group b0 : UInt8) : Prop where
  startBit : b0 &&& 0x80 = 0
  groupBits : (b0 >>> (4 : UInt8)) &&& 0x07 = group
  idBit : b0 &&& 0x08 = 0x08
  decoded : deSyncFrame b0 = some (0x80 ||| group)
  corrected : ∀ i < 7, deSyncFrame (b0 ^^^ UInt8.ofNat (1 <<< i)) = some (0xC0 ||| group)

/-- The start bit 1 and the seven segment bits. -/
def SegmentByte (seg b1 : UInt8) : Prop := b1 = 0x80 ||| (seg &&& 0x7f)

/-- The order in the high nibble and the check of both bytes in the low one. -/
structure OrderByte (order b1 b2 : UInt8) : Prop where
  orderBits : b2 >>> (4 : UInt8) = order
  check : b2 &&& 0x0f = crc4Itu [b1, order <<< (4 : UInt8)]

/-- Three bytes are a command as the headers describe it. -/
structure FrameLayout (call : Call) (bytes : List UInt8) : Prop where
  layout : ∃ b0 b1 b2, bytes = [b0, b1, b2] ∧ SyncByte call.groupId b0 ∧ SegmentByte call.segId b1 ∧
    OrderByte call.cmd b1 b2

theorem syncByte_sync {call : Call} (hgroup : call.groupId < 8) : SyncByte call.groupId call.sync := by
  have hall : ∀ n < 8, let group := UInt8.ofNat n
      let b0 := (genSyncFrame group longCmd).getD 0
      b0 &&& 0x80 = 0 ∧ (b0 >>> (4 : UInt8)) &&& 0x07 = group ∧ b0 &&& 0x08 = 0x08 ∧
        deSyncFrame b0 = some (0x80 ||| group) ∧
        ∀ i < 7, deSyncFrame (b0 ^^^ UInt8.ofNat (1 <<< i)) = some (0xC0 ||| group) := by
    decide +kernel
  have hn := hall call.groupId.toNat hgroup
  rw [UInt8.ofNat_toNat] at hn
  obtain ⟨hstart, hgroup, hid, hdecoded, hcorrected⟩ := hn
  exact ⟨hstart, hgroup, hid, hdecoded, hcorrected⟩

theorem orderByte_frame {call : Call} (hcmd : call.cmd < 16) :
    OrderByte call.cmd call.segId (call.cmd <<< 4 ||| crc4Itu [call.segId, call.cmd <<< 4]) := by
  have hcrc : crc4Itu [call.segId, call.cmd <<< 4] < 16 := crc4Byte_lt (crc4Byte 0 call.segId) (call.cmd <<< 4)
  refine ⟨?_, ?_⟩
  · have hall : ∀ m < 16, ∀ n < 16, (UInt8.ofNat m <<< 4 ||| UInt8.ofNat n) >>> 4 = UInt8.ofNat m := by
      decide +kernel
    simpa using hall call.cmd.toNat hcmd _ hcrc
  · rw [UInt8.or_comm]
    exact (order_nibble call.cmd _ hcrc).2

theorem segmentByte_self (seg : UInt8) : SegmentByte seg seg ↔ 0x80 ≤ seg := by
  have hall : ∀ n < 256, UInt8.ofNat n = 0x80 ||| (UInt8.ofNat n &&& 0x7f) ↔ 0x80 ≤ UInt8.ofNat n := by
    decide +kernel
  simpa [SegmentByte] using hall seg.toNat seg.toNat_lt

/-- The frame of a call has the layout exactly if the segment byte comes with the start bit. -/
theorem frameLayout_frame {call : Call} (hgroup : call.groupId < 8) (hcmd : call.cmd < 16) :
    FrameLayout call call.frame ↔ 0x80 ≤ call.segId := by
  rw [← segmentByte_self]
  constructor
  · rintro ⟨b0, b1, b2, heq, -, hseg, -⟩
    simp only [Call.frame, List.cons.injEq] at heq
    rwa [← heq.2.1] at hseg
  · intro hseg
    exact ⟨_, _, _, rfl, syncByte_sync hgroup, hseg, orderByte_frame hcmd⟩

/-! ### Runs -/

/-- When the lock is given back, the last three bytes on the wire are the frame of the last accepted command, and they have the documented layout exactly if its segment byte came with the start bit. -/
theorem transmitted_layout {as : List (Action Unit)} {es out : List Event} {w w' : World Unit} {a : Action Unit}
    (hreach : Reaches (system Unit) as es w) (hstep : w.step a = some (w', out))
    (hlocked : w.board.lms.cmdInfo.writeLock = true) (hfree : w'.board.lms.cmdInfo.writeLock = false) :
    ∃ calls call before frame, accepted es = calls ++ [call] ∧ wire es = before ++ frame ∧ frame.length = 3 ∧
      (call.cmd < 16 → (FrameLayout call frame ↔ 0x80 ≤ call.segId)) := by
  obtain ⟨items, howner⟩ := owner_of_reaches (hreach.restrict fun s a _ => alone_of_subsingleton s a)
  obtain ⟨items', call, hcalls, hwire⟩ := howner.unlock hstep hlocked hfree
  rw [itemCalls_frame] at hcalls
  rw [itemBytes_concat] at hwire
  have hgroup : call.groupId < 8 :=
    submitted_group hreach call ((submitted_of_reaches hreach).calls call (by simp [hcalls]))
  exact ⟨_, call, _, _, hcalls, hwire, rfl, frameLayout_frame hgroup⟩

/-- `oneCommand` and the timer expiration that gives the lock back. -/
def afterCommand : World Unit := (((system Unit).exec World.start oneCommand).get oneCommand_isSome).1

def commandHistory : List Event := (((system Unit).exec World.start oneCommand).get oneCommand_isSome).2

theorem afterCommand_reaches : Reaches (system Unit) oneCommand commandHistory afterCommand :=
  Reaches.of_exec World.start_initial oneCommand_isSome

theorem afterCommand_isSome : (afterCommand.step .txDelay).isSome := by
  decide +kernel

theorem transmitted_layout_once :
    ∃ calls call before frame, accepted commandHistory = calls ++ [call] ∧ wire commandHistory = before ++ frame ∧
      frame.length = 3 ∧ (call.cmd < 16 → (FrameLayout call frame ↔ 0x80 ≤ call.segId)) :=
  transmitted_layout afterCommand_reaches (Option.some_get afterCommand_isSome).symm (by decide +kernel)
    (by decide +kernel)

/-- Segment 1 goes out as 0x01, without the start bit. -/
theorem not_transmitted_layout :
    ¬ ∀ (as : List (Action Unit)) (es out : List Event) (w w' : World Unit) (a : Action Unit),
      Reaches (system Unit) as es w → w.step a = some (w', out) → w.board.lms.cmdInfo.writeLock = true →
      w'.board.lms.cmdInfo.writeLock = false →
      ∃ calls call before frame, accepted es = calls ++ [call] ∧ wire es = before ++ frame ∧ frame.length = 3 ∧
        (call.segId < 128 → call.cmd < 16 → FrameLayout call frame) := by
  intro h
  obtain ⟨calls, call, before, frame, hcalls, hwire, hlength, hlayout⟩ :=
    h _ _ _ _ _ _ afterCommand_reaches (Option.some_get afterCommand_isSome).symm (by decide +kernel)
      (by decide +kernel)
  have haccepted : accepted commandHistory = [] ++ [⟨0, 1, 2⟩] := by
    decide +kernel
  have hbytes : wire commandHistory = [] ++ [0x0b, 0x01, 0x2f] := by
    decide +kernel
  obtain ⟨-, hcall⟩ := List.append_inj' (hcalls.symm.trans haccepted) rfl
  obtain ⟨-, rfl⟩ := List.append_inj' (hwire.symm.trans hbytes) hlength
  obtain rfl : call = ⟨0, 1, 2⟩ := by simpa using hcall
  obtain ⟨b0, b1, b2, heq, -, hseg, -⟩ := hlayout (by decide) (by decide)
  simp only [List.cons.injEq] at heq
  rw [SegmentByte, ← heq.2.1] at hseg
  exact absurd hseg (by decide)

end LightControlMonitor.Lms
