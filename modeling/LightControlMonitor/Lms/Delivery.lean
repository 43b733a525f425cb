import LightControlMonitor.Lms.Phase

/-!
# Delivery of the lamp commands

The command buffer has one owner at a time: nobody, the thread that is filling it, or the sender. `Owner` says so and ties each case to the history, so that the bytes on the wire are at every moment whole polls and whole frames, and of the frame being sent a prefix.

A thread that passes the test of `write_lock` sets the lock three statements later. Between the two another thread could pass the test as well, so the invariant needs that a thread passes the test only while no other thread is past it. With one submitting thread that is always so.
-/

namespace LightControlMonitor.Lms

open Transition (Reaches Run)

variable {ι : Type}

/-! ### The history of the bus -/

/-- The bytes handed to `lms_uart_send_byte`, oldest first. -/
def wire (es : List Event) : List UInt8 :=
  es.filterMap fun
    | .transmit byte _ _ => some byte
    | _ => none

/-- The calls that found `write_lock = 0`, oldest first. -/
def accepted (es : List Event) : List Call :=
  es.filterMap fun
    | .accept call => some call
    | _ => none

@[simp] theorem wire_sent (byte : UInt8) (state : LmsState) (dir : Dir) :
    wire [.pin .send, .transmit byte state dir] = [byte] := rfl

@[simp] theorem accepted_sent (byte : UInt8) (state : LmsState) (dir : Dir) :
    accepted [.pin .send, .transmit byte state dir] = [] := rfl

@[simp] theorem wire_accept (call : Call) : wire [.accept call] = [] := rfl

@[simp] theorem accepted_accept (call : Call) : accepted [.accept call] = [call] := rfl

@[simp] theorem wire_append (es fs : List Event) : wire (es ++ fs) = wire es ++ wire fs :=
  List.filterMap_append

@[simp] theorem accepted_append (es fs : List Event) : accepted (es ++ fs) = accepted es ++ accepted fs :=
  List.filterMap_append

/-- One complete transmission. -/
inductive Item
  | poll
  | frame (call : Call)

def Item.bytes : Item → List UInt8
  | .poll => [pollByte]
  | .frame call => call.frame

def itemBytes (items : List Item) : List UInt8 := items.flatMap Item.bytes

def itemCalls (items : List Item) : List Call :=
  items.filterMap fun
    | .poll => none
    | .frame call => some call

@[simp] theorem itemBytes_concat (items : List Item) (item : Item) :
    itemBytes (items ++ [item]) = itemBytes items ++ item.bytes := by
  simp [itemBytes]

@[simp] theorem itemCalls_poll (items : List Item) : itemCalls (items ++ [.poll]) = itemCalls items := by
  simp [itemCalls]

@[simp] theorem itemCalls_frame (items : List Item) (call : Call) :
    itemCalls (items ++ [.frame call]) = itemCalls items ++ [call] := by
  simp [itemCalls]

/-- The bytes are whole polls and the whole frames of the first calls, in order, then a prefix of the frame of the next call. -/
def Delivered (bytes : List UInt8) (calls : List Call) : Prop :=
  ∃ items rest tail, calls = itemCalls items ++ rest ∧ bytes = itemBytes items ++ tail ∧
    (tail = [] ∨ ∃ call later, rest = call :: later ∧ tail <+: call.frame)

/-- Every call has its whole frame among the bytes, and the bytes end with the frame of the last call. -/
def AllSent (bytes : List UInt8) (calls : List Call) : Prop :=
  ∃ items call, calls = itemCalls (items ++ [.frame call]) ∧ bytes = itemBytes (items ++ [.frame call])

/-! ### The owner of the command buffer -/

/-- The thread is past the test of the lock. -/
def Local.Active (l : Local) : Prop := l.next ≠ .testLock

def World.Idle (w : World ι) (i : ι) : Prop := ∀ l, w.threads i = some l → ¬ l.Active

/-- What the statements before `l.next` have written. -/
def Local.Filled (l : Local) (cmd : CmdT) : Prop :=
  let temp := l.tempBuf0 = l.call.segId ∧ l.tempBuf1 = l.call.cmd <<< 4
  let args := cmd.groupId = l.call.groupId ∧ cmd.segId = l.call.segId ∧ cmd.cmdToSend = l.call.cmd
  match l.next with
  | .testLock => True
  | .tempBuf0 => cmd.writeLock = false
  | .tempBuf1 => cmd.writeLock = false ∧ l.tempBuf0 = l.call.segId
  | .setLock => cmd.writeLock = false ∧ temp
  | .setGroupId => cmd.writeLock = true ∧ temp
  | .setSegId => cmd.writeLock = true ∧ temp ∧ cmd.groupId = l.call.groupId
  | .setCmdToSend => cmd.writeLock = true ∧ temp ∧ cmd.groupId = l.call.groupId ∧ cmd.segId = l.call.segId
  | .cmdData0 => cmd.writeLock = true ∧ temp ∧ args
  | .cmdData1 => cmd.writeLock = true ∧ temp ∧ args ∧ cmd.cmdData[0]? = some l.call.sync
  | .cmdData2 =>
    cmd.writeLock = true ∧ temp ∧ args ∧ cmd.cmdData[0]? = some l.call.sync ∧ cmd.cmdData[1]? = some l.call.segId
  | .setTxLs => cmd.writeLock = true ∧ args ∧ cmd.cmdData.toList = l.call.frame

/-- The command the buffer was filled for. -/
def CmdT.call (cmd : CmdT) : Call := ⟨cmd.groupId, cmd.segId, cmd.cmdToSend⟩

/-- A completely built frame. -/
def CmdT.Built (cmd : CmdT) : Prop := cmd.writeLock = true ∧ cmd.cmdData.toList = cmd.call.frame

/-- Who owns the command buffer after the history `es`, whose complete transmissions are `items`. -/
inductive Owner (items : List Item) (es : List Event) (w : World ι) : Prop
  | free (hsend : w.board.lms.sendState = .txSs) (hindex : w.board.lms.cmdInfo.cmdCurrentSendIndex = 0)
      (hlock : w.board.lms.cmdInfo.writeLock = false) (hidle : ∀ i, w.Idle i)
      (hwire : wire es = itemBytes items) (hcalls : accepted es = itemCalls items)
  | filling (i : ι) (l : Local)
      (hsend : w.board.lms.sendState = .txSs) (hindex : w.board.lms.cmdInfo.cmdCurrentSendIndex = 0)
      (hthread : w.threads i = some l) (hactive : l.Active) (hidle : ∀ j, j ≠ i → w.Idle j)
      (hfilled : l.Filled w.board.lms.cmdInfo)
      (hwire : wire es = itemBytes items) (hcalls : accepted es = itemCalls items ++ [l.call])
  | sending
      (hsend : w.board.lms.sendState = .txLs) (hindex : w.board.lms.cmdInfo.cmdCurrentSendIndex ≤ 3)
      (hbuilt : w.board.lms.cmdInfo.Built) (hidle : ∀ i, w.Idle i)
      (hwire : wire es = itemBytes items ++
        w.board.lms.cmdInfo.call.frame.take w.board.lms.cmdInfo.cmdCurrentSendIndex)
      (hcalls : accepted es = itemCalls items ++ [w.board.lms.cmdInfo.call])

/-- A thread passes the test of the lock only while no thread is past it. -/
def Alone (w : World ι) : Action ι → Prop
  | .stmt i =>
    ∀ l, w.threads i = some l → l.next = .testLock → w.board.lms.cmdInfo.writeLock = false → ∀ j, w.Idle j
  | _ => True

theorem Owner.initial {w : World ι} (hinit : w.Initial) : Owner [] [] w := by
  obtain ⟨hlms, -, -, hthreads⟩ := hinit
  refine .free ?_ ?_ ?_ (fun i l hl => ?_) rfl rfl
  · simp [hlms, lmsInit]
  · simp [hlms, lmsInit]
  · simp [hlms, lmsInit]
  · simp [hthreads i] at hl

/-- A step that leaves the buffer, the send state, the threads and the wire alone keeps the owner. -/
theorem Owner.congr {items : List Item} {es out : List Event} {w : World ι} {b : Board} (h : Owner items es w)
    (hcmd : b.lms.cmdInfo = w.board.lms.cmdInfo) (hsend : b.lms.sendState = w.board.lms.sendState)
    (hwire : wire out = []) (hcalls : accepted out = []) : Owner items (es ++ out) { w with board := b } := by
  cases h with
  | free h₁ h₂ h₃ h₄ h₅ h₆ =>
    exact .free (hsend ▸ h₁) (hcmd ▸ h₂) (hcmd ▸ h₃) h₄ (by simp [h₅, hwire]) (by simp [h₆, hcalls])
  | filling i l h₁ h₂ h₃ h₄ h₅ h₆ h₇ h₈ =>
    exact .filling i l (hsend ▸ h₁) (hcmd ▸ h₂) h₃ h₄ h₅ (hcmd ▸ h₆) (by simp [h₇, hwire]) (by simp [h₈, hcalls])
  | sending h₁ h₂ h₃ h₄ h₅ h₆ =>
    exact .sending (hsend ▸ h₁) (hcmd ▸ h₂) (hcmd ▸ h₃) h₄ (by simp [h₅, hwire, hcmd]) (by simp [h₆, hcalls, hcmd])

/-- A zero crossing sends nothing and does not touch the command buffer. -/
theorem lmsStateMachine_quiet {b b' : Board} {reg : Option UInt8} {out : List Event}
    (hstep : lmsStateMachine b reg = some (b', out)) :
    b'.lms.cmdInfo = b.lms.cmdInfo ∧ b'.lms.sendState = b.lms.sendState ∧ wire out = [] ∧ accepted out = [] := by
  rcases lmsStateMachine_cases hstep with ⟨-, rfl, rfl⟩ | ⟨-, rfl, rfl⟩ | ⟨-, -, rfl, rfl⟩ | ⟨-, -, rfl, rfl⟩ |
    ⟨-, -, hstore⟩ | ⟨-, -, rfl, rfl⟩
  case inr.inr.inr.inr.inl =>
    obtain ⟨rfl, _, _, -, -, rfl⟩ := storeReply_cases hstore
    exact ⟨rfl, rfl, rfl, rfl⟩
  all_goals exact ⟨rfl, rfl, rfl, rfl⟩

/-- The sender polls when it does not own the buffer, sends the next byte of the frame when it does, and gives the buffer back after the third. -/
theorem Owner.txDelay {items : List Item} {es out : List Event} {w : World ι} {b : Board} (h : Owner items es w)
    (hstep : sendStateMachine (timer0TxDelayStop w.board) = some (b, out)) :
    ∃ items', Owner items' (es ++ out) { w with board := b } := by
  rcases sendStateMachine_cases hstep with ⟨hss, rfl, rfl⟩ | ⟨hls, hle, byte, hbyte, rfl, rfl⟩ | ⟨hls, hgt, rfl, rfl⟩
  · refine ⟨items ++ [.poll], ?_⟩
    cases h with
    | free _ h₂ h₃ h₄ h₅ h₆ => exact .free hss h₂ h₃ h₄ (by simp [h₅, Item.bytes]) (by simp [h₆])
    | filling i l _ h₂ h₃ h₄ h₅ h₆ h₇ h₈ =>
      exact .filling i l hss h₂ h₃ h₄ h₅ h₆ (by simp [h₇, Item.bytes]) (by simp [h₈])
    | sending h₁ => simp [h₁] at hss
  · cases h with
    | free h₁ => simp [h₁] at hls
    | filling i l h₁ => simp [h₁] at hls
    | sending _ _ h₃ h₄ h₅ h₆ =>
      have hcalls : accepted (es ++ [.pin .send, .transmit byte w.board.lms.state .send]) =
          itemCalls items ++ [w.board.lms.cmdInfo.call] := by
        rw [accepted_append, h₆, accepted_sent, List.append_nil]
      refine ⟨items, .sending hls (Nat.succ_le_succ hle) h₃ h₄ ?_ hcalls⟩
      have hnext : w.board.lms.cmdInfo.call.frame[w.board.lms.cmdInfo.cmdCurrentSendIndex]? = some byte := by
        rw [← h₃.2, Vector.getElem?_toList]
        exact hbyte
      change _ = itemBytes items ++
        w.board.lms.cmdInfo.call.frame.take (w.board.lms.cmdInfo.cmdCurrentSendIndex + 1)
      rw [List.take_add_one, hnext, wire_append, h₅, wire_sent, List.append_assoc]
      rfl
  · cases h with
    | free h₁ => simp [h₁] at hls
    | filling i l h₁ => simp [h₁] at hls
    | sending _ h₂ h₃ h₄ h₅ h₆ =>
      have hthree : w.board.lms.cmdInfo.cmdCurrentSendIndex = 3 := Nat.le_antisymm h₂ hgt
      refine ⟨items ++ [.frame w.board.lms.cmdInfo.call], .free rfl rfl rfl h₄ ?_ (by simp [h₆])⟩
      rw [List.append_nil, h₅, hthree, itemBytes_concat]
      rfl

theorem World.idle_update_self {w : World ι} [DecidableEq ι] {b : Board} {i : ι} {t : Option Local}
    (ht : ∀ l, t = some l → ¬ l.Active) : World.Idle ⟨b, Function.update w.threads i t⟩ i := by
  intro l hl
  exact ht l (by simpa using hl)

theorem World.idle_update_of_ne {w : World ι} [DecidableEq ι] {b : Board} {i j : ι} {t : Option Local}
    (hne : j ≠ i) (hidle : w.Idle j) : World.Idle ⟨b, Function.update w.threads i t⟩ j := by
  intro l hl
  exact hidle l (by simpa [Function.update_of_ne hne] using hl)

/-- A statement behind the test writes what `Filled` asks for at the next one; the last one hands the buffer over. -/
theorem Local.exec_filled {l : Local} {l' : Option Local} {lms lms' : LmsT} {out : List Event}
    (hactive : l.Active) (hfilled : l.Filled lms.cmdInfo) (hexec : l.exec lms = some (l', lms', out)) :
    out = [] ∧ lms'.cmdInfo.cmdCurrentSendIndex = lms.cmdInfo.cmdCurrentSendIndex ∧
      ((∃ m, l' = some m ∧ m.Active ∧ m.call = l.call ∧ m.Filled lms'.cmdInfo ∧ lms'.sendState = lms.sendState) ∨
        (l' = none ∧ lms'.sendState = .txLs ∧ lms'.cmdInfo.Built ∧ lms'.cmdInfo.call = l.call)) := by
  obtain ⟨call, temp0, temp1, next⟩ := l
  cases next with
  | testLock => exact absurd rfl hactive
  | cmdData0 =>
    obtain ⟨sync, hsync, heq⟩ := Option.map_eq_some_iff.mp hexec
    simp only [Prod.mk.injEq] at heq
    obtain ⟨rfl, rfl, rfl⟩ := heq
    refine ⟨rfl, rfl, .inl ⟨_, rfl, by simp [Local.Active], rfl, ?_, rfl⟩⟩
    simpa [Local.Filled, Call.sync, show genSyncFrame call.groupId longCmd = some sync from hsync] using hfilled
  | cmdData2 =>
    simp only [Local.exec, Option.some.injEq, Prod.mk.injEq] at hexec
    obtain ⟨rfl, rfl, rfl⟩ := hexec
    refine ⟨rfl, rfl, .inl ⟨_, rfl, by simp [Local.Active], rfl, ?_, rfl⟩⟩
    obtain ⟨hlock, ⟨(htemp0 : temp0 = call.segId), (htemp1 : temp1 = call.cmd <<< 4)⟩, hargs, hdata0, hdata1⟩ := hfilled
    refine ⟨hlock, hargs, ?_⟩
    change (lms.cmdInfo.cmdData.set 2 _).toList = _
    rw [toList_set_two hdata0 hdata1, htemp0, htemp1, UInt8.or_comm]
    rfl
  | setLock =>
    simp only [Local.exec, Option.some.injEq, Prod.mk.injEq] at hexec
    obtain ⟨rfl, rfl, rfl⟩ := hexec
    exact ⟨rfl, rfl, .inl ⟨_, rfl, by simp [Local.Active], rfl, ⟨rfl, hfilled.2⟩, rfl⟩⟩
  | setTxLs =>
    simp only [Local.exec, Option.some.injEq, Prod.mk.injEq] at hexec
    obtain ⟨rfl, rfl, rfl⟩ := hexec
    obtain ⟨hlock, ⟨hgroup, hseg, hcmd⟩, hdata⟩ := hfilled
    have hcall : lms.cmdInfo.call = call := by
      rw [CmdT.call, hgroup, hseg, hcmd]
    exact ⟨rfl, rfl, .inr ⟨rfl, rfl, ⟨hlock, by rw [hcall]; exact hdata⟩, hcall⟩⟩
  | _ =>
    simp only [Local.exec, Option.some.injEq, Prod.mk.injEq] at hexec
    obtain ⟨rfl, rfl, rfl⟩ := hexec
    refine ⟨rfl, rfl, .inl ⟨_, rfl, by simp [Local.Active], rfl, ?_, rfl⟩⟩
    simpa [Local.Filled] using hfilled

/-- A thread past the test owns the buffer. -/
theorem Owner.of_active {items : List Item} {es : List Event} {w : World ι} {i : ι} {l : Local}
    (h : Owner items es w) (hthread : w.threads i = some l) (hactive : l.Active) :
    w.board.lms.sendState = .txSs ∧ w.board.lms.cmdInfo.cmdCurrentSendIndex = 0 ∧ (∀ j, j ≠ i → w.Idle j) ∧
      l.Filled w.board.lms.cmdInfo ∧ wire es = itemBytes items ∧ accepted es = itemCalls items ++ [l.call] := by
  cases h with
  | free _ _ _ hidle => exact absurd hactive (hidle i l hthread)
  | sending _ _ _ hidle => exact absurd hactive (hidle i l hthread)
  | filling j m h₁ h₂ hm _ hidle h₆ h₇ h₈ =>
    by_cases heq : i = j
    · subst j
      obtain rfl : l = m := Option.some.inj (hthread.symm.trans hm)
      exact ⟨h₁, h₂, hidle, h₆, h₇, h₈⟩
    · exact absurd hactive (hidle i heq l hthread)

section Step

variable [DecidableEq ι]

/-- A thread that is not past the test may enter or leave the function. -/
theorem Owner.update_idle {items : List Item} {es : List Event} {w : World ι} {i : ι} {t : Option Local}
    (h : Owner items es w) (hidle : w.Idle i) (ht : ∀ l, t = some l → ¬ l.Active) :
    Owner items es ⟨w.board, Function.update w.threads i t⟩ := by
  have hall : ∀ j, w.Idle j → World.Idle ⟨w.board, Function.update w.threads i t⟩ j := by
    intro j hj
    by_cases heq : j = i
    · subst j
      exact World.idle_update_self ht
    · exact World.idle_update_of_ne heq hj
  cases h with
  | free h₁ h₂ h₃ h₄ h₅ h₆ => exact .free h₁ h₂ h₃ (fun j => hall j (h₄ j)) h₅ h₆
  | sending h₁ h₂ h₃ h₄ h₅ h₆ => exact .sending h₁ h₂ h₃ (fun j => hall j (h₄ j)) h₅ h₆
  | filling j l h₁ h₂ h₃ h₄ h₅ h₆ h₇ h₈ =>
    have hne : j ≠ i := fun heq => hidle l (heq ▸ h₃) h₄
    exact .filling j l h₁ h₂ (by simpa [Function.update_of_ne hne] using h₃) h₄ (fun k hk => hall k (h₅ k hk)) h₆ h₇ h₈

/-- The owner of the buffer fills it further, or hands it to the sender. -/
theorem Owner.fill {items : List Item} {es out : List Event} {w : World ι} {i : ι} {l : Local} {l' : Option Local}
    {lms' : LmsT} (h : Owner items es w) (hthread : w.threads i = some l) (hactive : l.Active)
    (hexec : l.exec w.board.lms = some (l', lms', out)) :
    Owner items (es ++ out) ⟨{ w.board with lms := lms' }, Function.update w.threads i l'⟩ := by
  obtain ⟨hsend, hindex, hidle, hfilled, hwire, hcalls⟩ := h.of_active hthread hactive
  obtain ⟨rfl, hindex', hcases⟩ := Local.exec_filled hactive hfilled hexec
  rw [hindex] at hindex'
  have hothers := fun j hne => World.idle_update_of_ne (b := { w.board with lms := lms' }) (t := l') hne (hidle j hne)
  rcases hcases with ⟨m, rfl, hm, hcall, hfilled', hsend'⟩ | ⟨rfl, hsend', hbuilt, hcall⟩
  · exact .filling i m (hsend'.trans hsend) hindex' (by simp) hm hothers hfilled' (by simpa using hwire)
      (by simpa [hcall] using hcalls)
  · refine .sending hsend' (by simp [hindex']) hbuilt (fun j => ?_) (by simpa [hindex'] using hwire)
      (by simpa [hcall] using hcalls)
    by_cases heq : j = i
    · subst j
      exact World.idle_update_self (by simp)
    · exact hothers j heq

/-- A thread that passes the test becomes the owner. -/
theorem Owner.acquire {items : List Item} {es : List Event} {w : World ι} {i : ι} (h : Owner items es w)
    (hfree : ¬ w.board.lms.cmdInfo.writeLock = true) (hidle : ∀ j, w.Idle j) (l : Local) :
    Owner items (es ++ [Event.accept l.call])
      ⟨w.board, Function.update w.threads i (some { l with next := .tempBuf0 })⟩ := by
  cases h with
  | filling j m _ _ hm hactive => exact absurd hactive (hidle j m hm)
  | sending _ _ hbuilt => exact absurd hbuilt.1 hfree
  | free hsend hindex _ _ hwire hcalls =>
    refine .filling i _ hsend hindex (by simp; rfl) (by simp [Local.Active])
      (fun j hne => World.idle_update_of_ne hne (hidle j)) (by simpa [Local.Filled] using hfree) ?_ ?_
    · simpa using hwire
    · simp [hcalls]

theorem Owner.stmt {items : List Item} {es out : List Event} {w : World ι} {i : ι} {l : Local} {l' : Option Local}
    {lms' : LmsT} (h : Owner items es w) (halone : Alone w (.stmt i)) (hthread : w.threads i = some l)
    (hexec : l.exec w.board.lms = some (l', lms', out)) :
    Owner items (es ++ out) ⟨{ w.board with lms := lms' }, Function.update w.threads i l'⟩ := by
  by_cases hactive : l.Active
  · exact h.fill hthread hactive hexec
  · have htest : l.next = .testLock := not_not.mp hactive
    simp only [Local.exec, htest] at hexec
    split at hexec
    · -- the buffer is taken: the call returns
      simp only [Option.some.injEq, Prod.mk.injEq] at hexec
      obtain ⟨rfl, rfl, rfl⟩ := hexec
      have hidle : w.Idle i := fun m hm => by
        obtain rfl : l = m := Option.some.inj (hthread.symm.trans hm)
        exact hactive
      rw [List.append_nil]
      exact h.update_idle hidle (by simp)
    · rename_i hlock
      simp only [Option.some.injEq, Prod.mk.injEq] at hexec
      obtain ⟨rfl, rfl, rfl⟩ := hexec
      exact h.acquire hlock (halone l hthread htest (by simpa using hlock)) l

theorem Owner.step {items : List Item} {es out : List Event} {w w' : World ι} {a : Action ι}
    (h : Owner items es w) (henabled : Enabled w a) (halone : Alone w a) (hstep : w.step a = some (w', out)) :
    ∃ items', Owner items' (es ++ out) w' := by
  cases a with
  | tick reg =>
    obtain ⟨b', hb, rfl⟩ := step_tick hstep
    obtain ⟨hcmd, hsend, hwire, hcalls⟩ := lmsStateMachine_quiet hb
    exact ⟨items, h.congr hcmd hsend hwire hcalls⟩
  | txDelay =>
    obtain ⟨b', hb, rfl⟩ := step_txDelay hstep
    exact h.txDelay hb
  | call i args =>
    obtain ⟨rfl, rfl⟩ := step_call hstep
    rw [List.append_nil]
    exact ⟨items, h.update_idle (by simp [World.Idle, henabled.1]) (by simp [Local.Active])⟩
  | stmt i =>
    obtain ⟨l, l', lms', hl, hexec, rfl⟩ := step_stmt hstep
    exact ⟨items, h.stmt halone hl hexec⟩

theorem owner_of_reaches {as : List (Action ι)} {es : List Event} {w : World ι}
    (hreach : Reaches ((system ι).restrict Alone) as es w) : ∃ items, Owner items es w :=
  hreach.invariant (fun _ es w => ∃ items, Owner items es w) (fun _ hinit => ⟨[], .initial hinit⟩)
    (fun ⟨_, h⟩ henabled hstep => h.step henabled.1 henabled.2 hstep)

end Step

theorem Owner.delivered {items : List Item} {es : List Event} {w : World ι} (h : Owner items es w) :
    Delivered (wire es) (accepted es) := by
  cases h with
  | free _ _ _ _ hwire hcalls => exact ⟨items, [], [], by simpa using hcalls, by simpa using hwire, .inl rfl⟩
  | filling _ l _ _ _ _ _ _ hwire hcalls => exact ⟨items, [l.call], [], hcalls, by simpa using hwire, .inl rfl⟩
  | sending _ _ _ _ hwire hcalls =>
    exact ⟨items, _, _, hcalls, hwire, .inr ⟨_, [], rfl, List.take_prefix ..⟩⟩

/-- No statement of `build_ctrl_cmd` gives the lock back. -/
theorem Local.exec_locked {l : Local} {l' : Option Local} {lms lms' : LmsT} {out : List Event}
    (hexec : l.exec lms = some (l', lms', out)) (hlock : lms.cmdInfo.writeLock = true) :
    lms'.cmdInfo.writeLock = true := by
  unfold Local.exec at hexec
  split at hexec
  case h_1 =>
    simp only [hlock, if_true, Option.some.injEq, Prod.mk.injEq] at hexec
    rw [← hexec.2.1]
    exact hlock
  case h_8 =>
    obtain ⟨sync, -, heq⟩ := Option.map_eq_some_iff.mp hexec
    simp only [Prod.mk.injEq] at heq
    rw [← heq.2.1]
    exact hlock
  all_goals
    simp only [Option.some.injEq, Prod.mk.injEq] at hexec
    obtain ⟨-, rfl, -⟩ := hexec
    first | exact hlock | rfl

/-- The lock falls when the sender has put the third byte of the frame on the wire that took the lock, the frame of the last accepted call. -/
theorem Owner.unlock [DecidableEq ι] {items : List Item} {es out : List Event} {w w' : World ι} {a : Action ι}
    (h : Owner items es w) (hstep : w.step a = some (w', out)) (hlocked : w.board.lms.cmdInfo.writeLock = true)
    (hfree : w'.board.lms.cmdInfo.writeLock = false) : AllSent (wire es) (accepted es) := by
  cases a with
  | tick reg =>
    obtain ⟨b', hb, rfl⟩ := step_tick hstep
    simp [(lmsStateMachine_quiet hb).1, hlocked] at hfree
  | call i args =>
    obtain ⟨-, rfl⟩ := step_call hstep
    simp [hlocked] at hfree
  | stmt i =>
    obtain ⟨l, l', lms', -, hexec, rfl⟩ := step_stmt hstep
    simp [Local.exec_locked hexec hlocked] at hfree
  | txDelay =>
    obtain ⟨b', hb, rfl⟩ := step_txDelay hstep
    rcases sendStateMachine_cases hb with ⟨-, -, rfl⟩ | ⟨-, -, byte, -, -, rfl⟩ | ⟨hls, hgt, -, rfl⟩
    · simp [hlocked] at hfree
    · simp [hlocked] at hfree
    · cases h with
      | free hss => simp [hss] at hls
      | filling _ _ hss => simp [hss] at hls
      | sending _ hle _ _ hwire hcalls =>
        have hthree : w.board.lms.cmdInfo.cmdCurrentSendIndex = 3 := Nat.le_antisymm hle hgt
        rw [hthree] at hwire
        refine ⟨items, w.board.lms.cmdInfo.call, by simp [hcalls], ?_⟩
        rw [itemBytes_concat, hwire]
        rfl

/-! ### One submitting thread -/

theorem alone_of_subsingleton [Subsingleton ι] (w : World ι) (a : Action ι) : Alone w a := by
  cases a with
  | stmt i =>
    intro l hthread htest _ j m hm
    obtain rfl := Subsingleton.elim i j
    obtain rfl : l = m := Option.some.inj (hthread.symm.trans hm)
    exact not_not.mpr htest
  | _ => trivial

/-- With one submitting thread the wire carries whole polls and the whole frames of the accepted calls in acceptance order, up to a prefix of the last one, and the lock is given back only once the whole frames of all accepted calls, that of the last one included, are on the wire. -/
theorem commands_delivered {as : List (Action Unit)} {es : List Event} {w : World Unit}
    (hreach : Reaches (system Unit) as es w) :
    Delivered (wire es) (accepted es) ∧
      ∀ a w' out, Enabled w a → w.step a = some (w', out) → w.board.lms.cmdInfo.writeLock = true →
        w'.board.lms.cmdInfo.writeLock = false → AllSent (wire es) (accepted es) := by
  obtain ⟨items, howner⟩ := owner_of_reaches (hreach.restrict fun s a _ => alone_of_subsingleton s a)
  exact ⟨howner.delivered, fun a w' out _ hstep => howner.unlock hstep⟩

/-- A whole call, then the zero crossings and timer expirations that send its frame. -/
def oneCommand : List (Action Unit) :=
  [.tick none, .tick none, .call () ⟨0, 1, 2⟩] ++ List.replicate 11 (.stmt ()) ++
    [.txDelay, .tick none, .txDelay, .tick none, .txDelay, .tick none]

theorem oneCommand_isSome : ((system Unit).exec World.start oneCommand).isSome := by
  decide +kernel

theorem commands_delivered_once : Delivered [0x0b, 0x01, 0x2f] [⟨0, 1, 2⟩] := by
  have hwire : wire (((system Unit).exec World.start oneCommand).get oneCommand_isSome).2 = [0x0b, 0x01, 0x2f] := by
    decide +kernel
  have hcalls : accepted (((system Unit).exec World.start oneCommand).get oneCommand_isSome).2 = [⟨0, 1, 2⟩] := by
    decide +kernel
  rw [← hwire, ← hcalls]
  exact (commands_delivered (Reaches.of_exec World.start_initial oneCommand_isSome)).1

end LightControlMonitor.Lms
