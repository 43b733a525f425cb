import LightControlMonitor.Kernel.CanSend

/-!
# Writes to a CAN port

What `rt_can_write` returns, and that it does not get stuck. The number it returns counts the frames of the call that have been on the bus, which are its first ones. A thread needs a bounded number of steps for a frame, and as long as a write is in progress some thread can run or some mailbox has a frame to send.
-/

namespace LightControlMonitor.Kernel

open Transition (Reaches System)

variable {τ μ : Type*}

/-! ### The frames of a line -/

def Line.calledOf (es : List (LineEvent μ)) : List (List μ) :=
  es.filterMap fun e =>
    match e with
    | .called data => some data
    | _ => none

def Line.returnedOf (es : List (LineEvent μ)) : List Nat :=
  es.filterMap fun e =>
    match e with
    | .returned count => some count
    | _ => none

def Line.transmittedOf (es : List (LineEvent μ)) : List μ :=
  es.filterMap fun e =>
    match e with
    | .transmitted msg => some msg
    | _ => none

def Line.droppedOf (es : List (LineEvent μ)) : List μ :=
  es.filterMap fun e =>
    match e with
    | .dropped msg => some msg
    | _ => none

/-- The calls that have returned, each with the number it returned: the frames up to that number were sent, and the next one, if there is one, was dropped. -/
structure Line.Returned (es : List (LineEvent μ)) (calls : List (List μ × Nat)) : Prop where
  returned : Line.returnedOf es = calls.map Prod.snd
  dropped : Line.droppedOf es = calls.filterMap fun c => c.1[c.2]?
  count_le : ∀ c ∈ calls, c.2 ≤ c.1.length

def LinePhase.isSent : LinePhase → Bool
  | .finished true => true
  | _ => false

/-- The returned calls, and the call in progress with the frames behind and before it. -/
def Line.Account (es : List (LineEvent μ)) : Option (LineCall μ) → Prop
  | none => ∃ calls, Line.Returned es calls ∧ Line.calledOf es = calls.map Prod.fst ∧
      Line.transmittedOf es = calls.flatMap fun c => c.1.take c.2
  | some call => ∃ calls front, Line.Returned es calls ∧ front.length = call.sent ∧ call.data ≠ [] ∧
      Line.calledOf es = calls.map Prod.fst ++ [front ++ call.data] ∧
      Line.transmittedOf es =
        (calls.flatMap fun c => c.1.take c.2) ++ front ++ if call.phase.isSent then call.data.take 1 else []

section Account

variable {es out : List (LineEvent μ)} {line line' : Option (LineCall μ)} {a : LineAction μ} {msg : μ} {rest : List μ}
  {sent : Nat}

theorem Line.calledOf_append (es out : List (LineEvent μ)) :
    Line.calledOf (es ++ out) = Line.calledOf es ++ Line.calledOf out :=
  List.filterMap_append

theorem Line.returnedOf_append (es out : List (LineEvent μ)) :
    Line.returnedOf (es ++ out) = Line.returnedOf es ++ Line.returnedOf out :=
  List.filterMap_append

theorem Line.transmittedOf_append (es out : List (LineEvent μ)) :
    Line.transmittedOf (es ++ out) = Line.transmittedOf es ++ Line.transmittedOf out :=
  List.filterMap_append

theorem Line.droppedOf_append (es out : List (LineEvent μ)) :
    Line.droppedOf (es ++ out) = Line.droppedOf es ++ Line.droppedOf out :=
  List.filterMap_append

theorem Line.Returned.same {calls : List (List μ × Nat)} (h : Line.Returned es calls) (hreturned : Line.returnedOf out = [])
    (hdropped : Line.droppedOf out = []) : Line.Returned (es ++ out) calls where
  returned := by rw [Line.returnedOf_append, hreturned, List.append_nil, h.returned]
  dropped := by rw [Line.droppedOf_append, hdropped, List.append_nil, h.dropped]
  count_le := h.count_le

theorem Line.Returned.snoc {calls : List (List μ × Nat)} (h : Line.Returned es calls) {data : List μ} {count : Nat}
    (hreturned : Line.returnedOf out = [count]) (hdropped : Line.droppedOf out = data[count]?.toList)
    (hle : count ≤ data.length) : Line.Returned (es ++ out) (calls ++ [(data, count)]) where
  returned := by rw [Line.returnedOf_append, hreturned, h.returned, List.map_append]; rfl
  dropped := by
    rw [Line.droppedOf_append, hdropped, h.dropped, List.filterMap_append]
    cases hget : data[count]? <;> simp [hget]
  count_le c hc := by
    rcases List.mem_append.mp hc with hc | hc
    · exact h.count_le c hc
    · obtain rfl := List.mem_singleton.mp hc
      exact hle

/-- A call without frames returns at once. -/
theorem Line.Account.call_nil (h : Line.Account es none) : Line.Account (es ++ [.called [], .returned 0]) none := by
  obtain ⟨calls, hreturned, hcalled, htransmitted⟩ := h
  refine ⟨calls ++ [([], 0)], hreturned.snoc rfl rfl (Nat.le_refl 0), ?_, ?_⟩
  · rw [Line.calledOf_append, hcalled, List.map_append]
    rfl
  · rw [Line.transmittedOf_append, htransmitted, List.flatMap_append]
    rfl

theorem Line.Account.call (h : Line.Account es none) (msg : μ) (rest : List μ) :
    Line.Account (es ++ [.called (msg :: rest)]) (some ⟨.ready, msg :: rest, 0⟩) := by
  obtain ⟨calls, hreturned, hcalled, htransmitted⟩ := h
  refine ⟨calls, [], hreturned.same rfl rfl, rfl, List.cons_ne_nil msg rest, ?_, ?_⟩
  · rw [Line.calledOf_append, hcalled]
    rfl
  · rw [Line.transmittedOf_append, htransmitted, List.append_nil]
    rfl

/-- The frame at the head is accepted, refused or sent, while the call stays in progress. -/
theorem Line.Account.goes {call : LineCall μ} {phase : LinePhase} (h : Line.Account es (some call))
    (hwaits : call.phase.isSent = false) (hcalled : Line.calledOf out = []) (hreturned : Line.returnedOf out = [])
    (hdropped : Line.droppedOf out = [])
    (htransmitted : Line.transmittedOf out = if phase.isSent then call.data.take 1 else []) :
    Line.Account (es ++ out) (some { call with phase }) := by
  obtain ⟨calls, front, hreturned', hfront, hdata, hcalled', htransmitted'⟩ := h
  refine ⟨calls, front, hreturned'.same hreturned hdropped, hfront, hdata, ?_, ?_⟩
  · rw [Line.calledOf_append, hcalled, hcalled', List.append_nil]
  · rw [Line.transmittedOf_append, htransmitted, htransmitted', hwaits]
    simp

theorem Line.Account.last (h : Line.Account es (some ⟨.finished true, [msg], sent⟩)) :
    Line.Account (es ++ [.sent msg, .returned (sent + 1)]) none := by
  obtain ⟨calls, front, hreturned, hfront, hdata, hcalled, htransmitted⟩ := h
  have hfront : front.length = sent := hfront
  have hlength : (front ++ [msg]).length = sent + 1 := by
    rw [List.length_append, hfront]
    rfl
  refine ⟨calls ++ [(front ++ [msg], sent + 1)], hreturned.snoc rfl ?_ (Nat.le_of_eq hlength.symm), ?_, ?_⟩
  · rw [List.getElem?_eq_none (Nat.le_of_eq hlength)]
    rfl
  · rw [Line.calledOf_append, hcalled, List.map_append]
    exact List.append_nil _
  · rw [Line.transmittedOf_append, htransmitted, List.flatMap_append, List.flatMap_singleton,
      List.take_of_length_le (Nat.le_of_eq hlength)]
    simp [LinePhase.isSent, Line.transmittedOf]

theorem Line.Account.next (h : Line.Account es (some ⟨.finished true, msg :: rest, sent⟩)) (hnil : rest ≠ []) :
    Line.Account (es ++ [.sent msg]) (some ⟨.ready, rest, sent + 1⟩) := by
  obtain ⟨calls, front, hreturned, hfront, hdata, hcalled, htransmitted⟩ := h
  refine ⟨calls, front ++ [msg], hreturned.same rfl rfl, ?_, hnil, ?_, ?_⟩
  · rw [List.length_append, hfront]
    rfl
  · rw [Line.calledOf_append, hcalled]
    simp [Line.calledOf]
  · rw [Line.transmittedOf_append, htransmitted]
    simp [LinePhase.isSent, Line.transmittedOf]

/-- A frame that was not sent ends its call. -/
theorem Line.Account.drop (h : Line.Account es (some ⟨.finished false, msg :: rest, sent⟩)) :
    Line.Account (es ++ [.dropped msg, .returned sent]) none := by
  obtain ⟨calls, front, hreturned, hfront, hdata, hcalled, htransmitted⟩ := h
  have hfront : front.length = sent := hfront
  refine ⟨calls ++ [(front ++ msg :: rest, sent)], hreturned.snoc rfl ?_ ?_, ?_, ?_⟩
  · rw [← hfront, List.getElem?_append_right (Nat.le_refl _), Nat.sub_self]
    rfl
  · rw [List.length_append, hfront]
    exact Nat.le_add_right _ _
  · rw [Line.calledOf_append, hcalled, List.map_append]
    exact List.append_nil _
  · rw [Line.transmittedOf_append, htransmitted, List.flatMap_append, List.flatMap_singleton, ← hfront,
      List.take_left]
    simp [LinePhase.isSent, Line.transmittedOf]

theorem Line.Account.step (h : Line.Account es line) (hstep : lineStep line a = some (line', out)) :
    Line.Account (es ++ out) line' := by
  unfold lineStep at hstep
  split at hstep
  · obtain ⟨rfl, rfl⟩ := Prod.mk.inj (Option.some.inj hstep)
    exact h.call_nil
  · rename_i msg rest
    obtain ⟨rfl, rfl⟩ := Prod.mk.inj (Option.some.inj hstep)
    exact h.call msg rest
  · obtain ⟨rfl, rfl⟩ := Prod.mk.inj (Option.some.inj hstep)
    exact h.goes rfl rfl rfl rfl rfl
  · obtain ⟨rfl, rfl⟩ := Prod.mk.inj (Option.some.inj hstep)
    exact h.goes rfl rfl rfl rfl rfl
  · obtain ⟨rfl, rfl⟩ := Prod.mk.inj (Option.some.inj hstep)
    exact h.goes rfl rfl rfl rfl rfl
  · obtain ⟨rfl, rfl⟩ := Prod.mk.inj (Option.some.inj hstep)
    exact h.goes rfl rfl rfl rfl rfl
  · obtain ⟨rfl, rfl⟩ := Prod.mk.inj (Option.some.inj hstep)
    exact h.last
  · rename_i hnil
    obtain ⟨rfl, rfl⟩ := Prod.mk.inj (Option.some.inj hstep)
    exact h.next hnil
  · obtain ⟨rfl, rfl⟩ := Prod.mk.inj (Option.some.inj hstep)
    exact h.drop
  · contradiction

theorem Line.Account.of_reaches {as : List (LineAction μ)} (hreach : Reaches (lineSystem μ) as es line) :
    Line.Account es line := by
  refine hreach.invariant (fun _ es line => Line.Account es line) (fun line hinit => ?_) ?_
  · obtain rfl : line = none := hinit
    exact ⟨[], ⟨rfl, rfl, fun c hc => by contradiction⟩, rfl, rfl⟩
  · exact fun h _ hstep => h.step hstep

end Account

variable [DecidableEq τ] {n : Nat} {as : List (CanTxAction τ μ)} {es : List (τ × LineEvent μ)} {s : CanTx τ μ}

/-- For every thread, the number a write returned counts the frames that have been on the bus for it, which are the first frames of the call in their order; a write that returned less dropped the next frame, which has not been on the bus. While a write is in progress the bus has had the frames it has counted so far, and perhaps the one after them. -/
theorem can_writes_count_transmitted (hreach : Reaches (canTxSystem τ μ n) as es s) (t : τ) :
    ∃ calls, Line.Returned (eventsOf t es) calls ∧
      (s.calls t = none → Line.calledOf (eventsOf t es) = calls.map Prod.fst ∧
        Line.transmittedOf (eventsOf t es) = calls.flatMap fun c => c.1.take c.2) ∧
      ∀ call, s.calls t = some call → ∃ data, Line.calledOf (eventsOf t es) = calls.map Prod.fst ++ [data] ∧
        data.drop call.sent = call.data ∧ ∃ count, (count = call.sent ∨ count = call.sent + 1) ∧
          Line.transmittedOf (eventsOf t es) = (calls.flatMap fun c => c.1.take c.2) ++ data.take count := by
  obtain ⟨as', hline⟩ := (CanTx.Inv.of_reaches hreach).2 t
  have haccount := Line.Account.of_reaches hline
  cases hcall : s.calls t with
  | none =>
    have hnone : s.line t = none := by rw [CanTx.line, hcall]; rfl
    rw [hnone] at haccount
    obtain ⟨calls, hreturned, hcalled, htransmitted⟩ := haccount
    exact ⟨calls, hreturned, fun _ => ⟨hcalled, htransmitted⟩, fun _ h => by contradiction⟩
  | some call =>
    rw [CanTx.line_eq hcall] at haccount
    obtain ⟨calls, front, hreturned, hfront, hdata, hcalled, htransmitted⟩ := haccount
    have hfront : front.length = call.sent := hfront
    refine ⟨calls, hreturned, fun h => by contradiction, fun call' hcall' => ?_⟩
    obtain rfl := Option.some.inj hcall'
    refine ⟨front ++ call.data, hcalled, ?_, ?_⟩
    · rw [← hfront, List.drop_left]
    · rw [htransmitted, ← hfront]
      split_ifs
      · refine ⟨front.length + 1, .inr rfl, ?_⟩
        rw [List.take_length_add_append, List.append_assoc]
      · refine ⟨front.length, .inl rfl, ?_⟩
        rw [List.take_left, List.append_nil]

/-- A write of two frames of which the second is refused, so that it returns 1. -/
theorem can_writes_count_transmitted_refused :
    ∃ (s : CanTx Bool Nat) (es : List (Bool × LineEvent Nat)), Reaches (canTxSystem Bool Nat 1)
        [.write true [7, 8], .run true, .run true, .run true, .send true true, .isr 0 true, .run true, .run true, .run true,
          .run true, .run true, .run true, .send true false, .run true, .run true] es s ∧
      Line.returnedOf (eventsOf true es) = [1] ∧
      ∃ calls, Line.Returned (eventsOf true es) calls ∧
        Line.transmittedOf (eventsOf true es) = calls.flatMap fun c => c.1.take c.2 := by
  have hreach : Reaches (canTxSystem Bool Nat 1)
      [.write true [7, 8], .run true, .run true, .run true, .send true true, .isr 0 true, .run true, .run true, .run true,
        .run true, .run true, .run true, .send true false, .run true, .run true] _ _ :=
    ⟨⟨rtCanOpenTx ⟨id, id⟩ 1, fun _ => ⟨rtCompletionInit, .ok⟩, rtSemInit 1, fun _ => none, fun _ => none⟩,
      ⟨by decide, ⟨_, rfl⟩, rfl, fun _ => rfl, fun _ => rfl⟩, System.exec_run rfl⟩
  obtain ⟨calls, hreturned, hdone, -⟩ := can_writes_count_transmitted hreach true
  exact ⟨_, _, hreach, rfl, calls, hreturned, (hdone rfl).2⟩

/-! ### Progress -/

/-- The steps a thread may still need for its frame. -/
def TxPc.left : TxPc → Nat
  | .take => 8
  | .semWait => 7
  | .remove => 7
  | .prepare _ => 6
  | .send _ => 5
  | .wait _ => 4
  | .suspended _ => 3
  | .resumed _ => 3
  | .refused _ => 2
  | .putBack _ => 2
  | .release _ => 1

def TxCall.left (call : TxCall μ) : Nat := call.pc.left + 8 * (call.data.length - 1)

def CanTx.left (s : CanTx τ μ) (t : τ) : Nat := (s.calls t).elim 0 TxCall.left

/-- The steps of a thread. -/
def stepsOf (t : τ) (as : List (CanTxAction τ μ)) : Nat :=
  as.countP fun a =>
    match a with
    | .run t' => t' = t
    | .send t' _ => t' = t
    | _ => false

/-- The frames a thread has called for. -/
def framesOf (t : τ) : List (CanTxAction τ μ) → Nat
  | [] => 0
  | .write t' data :: as => (if t' = t then data.length else 0) + framesOf t as
  | _ :: as => framesOf t as

theorem framesOf_append (t : τ) (as bs : List (CanTxAction τ μ)) :
    framesOf t (as ++ bs) = framesOf t as + framesOf t bs := by
  induction as with
  | nil => exact (Nat.zero_add _).symm
  | cons a as ih =>
    cases a with
    | write t' data =>
      rw [List.cons_append, framesOf, framesOf, ih, Nat.add_assoc]
    | _ => exact ih

theorem CanTx.left_setCall (s : CanTx τ μ) (t x : τ) (call : Option (TxCall μ)) :
    (s.setCall t call).left x = if x = t then call.elim 0 TxCall.left else s.left x := by
  split_ifs with heq
  · rw [heq, CanTx.left, CanTx.setCall_self]
  · rw [CanTx.left, CanTx.setCall_of_ne s heq]
    rfl

omit [DecidableEq τ] in
theorem CanTx.left_eq {t : τ} {call : TxCall μ} (hcall : s.calls t = some call) : s.left t = call.left := by
  rw [CanTx.left, hcall]
  rfl

/-- A thread that goes on to a place with fewer steps left. -/
theorem CanTx.left_goes {t : τ} {call : TxCall μ} (hcall : s.calls t = some call) {s₁ : CanTx τ μ}
    (hcalls : ∀ x, s₁.left x ≤ s.left x) {next : Option (TxCall μ)} (hnext : next.elim 0 TxCall.left < call.left) (x : τ) :
    (if t = x then 1 else 0) + (s₁.setCall t next).left x ≤ s.left x := by
  rw [CanTx.left_setCall]
  by_cases heq : x = t
  · subst heq
    rw [if_pos rfl, if_pos rfl, CanTx.left_eq hcall]
    omega
  · rw [if_neg (Ne.symm heq), if_neg heq, Nat.zero_add]
    exact hcalls x

theorem CanTx.Inv.left_release (h : s.Inv n) {t : τ} {call : TxCall μ} {ok : Bool} (hcall : s.calls t = some call)
    (hpc : call.pc = .release ok) {s' : CanTx τ μ} {out : List (τ × LineEvent μ)}
    (hstep : s.release t call ok = some (s', out)) (x : τ) : (if t = x then 1 else 0) + s'.left x ≤ s.left x := by
  have hreleased := h.semRelease (by rw [CanTx.role_eq hcall, hpc]; rfl : s.role t = .token)
  have hothers : ∀ x, (CanTx.resume { s with sem := s.sem.release.1 } s.sem.release.2.1 .remove).left x ≤ s.left x := by
    intro x
    rcases hreleased.others x with hsame | ⟨call', hcall', hpc', hresumed⟩
    · simp only [CanTx.left, hsame, Nat.le_refl]
    · simp only [CanTx.left_eq hcall', CanTx.left_eq hresumed, TxCall.left, TxPc.left, hpc', Nat.le_refl]
  have hleft : call.left = 1 + 8 * (call.data.length - 1) := by rw [TxCall.left, hpc]; rfl
  unfold CanTx.release at hstep
  dsimp only at hstep
  cases hmsgs : call.data with
  | nil => exact absurd hmsgs (h.boxes.relies t call hcall).1
  | cons msg rest =>
    rw [hmsgs] at hstep hleft
    dsimp only at hstep
    split_ifs at hstep with hok hlast <;> obtain ⟨rfl, rfl⟩ := Prod.mk.inj (Option.some.inj hstep)
    · refine CanTx.left_goes hcall hothers ?_ x
      rw [hleft]
      exact Nat.lt_of_lt_of_le Nat.one_pos (Nat.le_add_right 1 _)
    · refine CanTx.left_goes hcall hothers ?_ x
      have hpos : 0 < rest.length := List.length_pos_iff.mpr fun hnil => hlast (by rw [hnil]; rfl)
      rw [hleft, Option.elim_some, TxCall.left, TxPc.left, List.length_cons]
      dsimp only
      omega
    · refine CanTx.left_goes hcall hothers ?_ x
      rw [hleft]
      exact Nat.lt_of_lt_of_le Nat.one_pos (Nat.le_add_right 1 _)

theorem TxCall.left_lt {call : TxCall μ} {pc : TxPc} (hlt : pc.left < call.pc.left) :
    (some { call with pc := pc }).elim 0 TxCall.left < call.left :=
  Nat.add_lt_add_right hlt _

theorem CanTx.Inv.left_run (h : s.Inv n) {t : τ} {call : TxCall μ} (hcall : s.calls t = some call) {s' : CanTx τ μ}
    {out : List (τ × LineEvent μ)} (hstep : s.run t call = some (s', out)) (x : τ) :
    (if t = x then 1 else 0) + s'.left x ≤ s.left x := by
  have hsame : ∀ x, s.left x ≤ s.left x := fun x => Nat.le_refl _
  unfold CanTx.run at hstep
  cases hpc : call.pc with
  | take =>
    rw [hpc] at hstep
    obtain ⟨rfl, rfl⟩ := Prod.mk.inj (Option.some.inj hstep)
    refine CanTx.left_goes hcall hsame (TxCall.left_lt ?_) x
    rw [hpc]
    split_ifs <;> decide
  | remove =>
    rw [hpc] at hstep
    dsimp only at hstep
    split at hstep
    · contradiction
    · obtain ⟨rfl, rfl⟩ := Prod.mk.inj (Option.some.inj hstep)
      exact CanTx.left_goes hcall hsame (TxCall.left_lt (by rw [hpc]; exact Nat.lt_succ_self 6)) x
  | prepare no =>
    rw [hpc] at hstep
    obtain ⟨rfl, rfl⟩ := Prod.mk.inj (Option.some.inj hstep)
    exact CanTx.left_goes hcall hsame (TxCall.left_lt (by rw [hpc]; exact Nat.lt_succ_self 5)) x
  | refused no =>
    rw [hpc] at hstep
    obtain ⟨rfl, rfl⟩ := Prod.mk.inj (Option.some.inj hstep)
    exact CanTx.left_goes hcall hsame (TxCall.left_lt (by rw [hpc]; exact Nat.lt_succ_self 1)) x
  | wait no =>
    rw [hpc] at hstep
    obtain ⟨waiting, -, heq⟩ := Option.map_eq_some_iff.mp hstep
    obtain ⟨rfl, rfl⟩ := Prod.mk.inj heq
    refine CanTx.left_goes hcall hsame (TxCall.left_lt ?_) x
    rw [hpc]
    split_ifs <;> simp [TxPc.left]
  | resumed no =>
    rw [hpc] at hstep
    obtain ⟨rfl, rfl⟩ := Prod.mk.inj (Option.some.inj hstep)
    exact CanTx.left_goes hcall hsame (TxCall.left_lt (by rw [hpc]; exact Nat.lt_succ_self 2)) x
  | putBack no =>
    rw [hpc] at hstep
    obtain ⟨rfl, rfl⟩ := Prod.mk.inj (Option.some.inj hstep)
    exact CanTx.left_goes hcall hsame (TxCall.left_lt (by rw [hpc]; exact Nat.lt_succ_self 1)) x
  | release ok =>
    rw [hpc] at hstep
    exact h.left_release hcall hpc hstep x
  | semWait => rw [hpc] at hstep; contradiction
  | send no => rw [hpc] at hstep; contradiction
  | suspended no => rw [hpc] at hstep; contradiction

theorem CanTx.left_write {t : τ} {data : List μ} {s' : CanTx τ μ} {out : List (τ × LineEvent μ)}
    (hstep : s.rtCanWrite t data = (s', out)) (x : τ) :
    s'.left x ≤ s.left x + 8 * if t = x then data.length else 0 := by
  unfold CanTx.rtCanWrite at hstep
  split_ifs at hstep with hempty
  · obtain ⟨rfl, rfl⟩ := Prod.mk.inj hstep
    exact Nat.le_add_right _ _
  · obtain ⟨rfl, rfl⟩ := Prod.mk.inj hstep
    rw [CanTx.left_setCall]
    by_cases heq : x = t
    · have hpos : 0 < data.length := List.length_pos_iff.mpr fun hnil => hempty (by rw [hnil]; rfl)
      rw [if_pos heq, if_pos heq.symm, Option.elim_some, TxCall.left, TxPc.left]
      dsimp only
      omega
    · rw [if_neg heq]
      exact Nat.le_add_right _ _

theorem CanTx.left_sendmsg {t : τ} {call : TxCall μ} (hcall : s.calls t = some call) {accepted : Bool}
    {s' : CanTx τ μ} {out : List (τ × LineEvent μ)} (hstep : s.sendmsg t call accepted = some (s', out)) (x : τ) :
    (if t = x then 1 else 0) + s'.left x ≤ s.left x := by
  have hsame : ∀ x, s.left x ≤ s.left x := fun x => Nat.le_refl _
  unfold CanTx.sendmsg at hstep
  split at hstep
  · rename_i no msg rest hpc hmsgs
    split_ifs at hstep
    · obtain ⟨rfl, rfl⟩ := Prod.mk.inj (Option.some.inj hstep)
      exact CanTx.left_goes hcall hsame (TxCall.left_lt (by rw [hpc]; exact Nat.lt_succ_self 4)) x
    · obtain ⟨rfl, rfl⟩ := Prod.mk.inj (Option.some.inj hstep)
      exact CanTx.left_goes hcall hsame (TxCall.left_lt (by rw [hpc]; exact (by decide : 2 < 5))) x
  · contradiction

/-- The interrupt takes nothing off, and a call that it wakes has no more left than before. -/
theorem CanTx.Inv.left_isr (h : s.Inv n) {no : Nat} {sent : Bool} {s' : CanTx τ μ} {out : List (τ × LineEvent μ)}
    (hstep : canTxStep s (.isr no sent) = some (s', out)) (x : τ) : s'.left x ≤ s.left x := by
  obtain ⟨⟨t, msg⟩, hbox, heq⟩ := Option.map_eq_some_iff.mp hstep
  obtain ⟨call, rest, hcall, -, hwaits, hbus⟩ := h.boxes.onBus hbox
  rw [CanTx.isr_eq hcall hwaits hbus] at heq
  obtain ⟨rfl, rfl⟩ := Prod.mk.inj heq
  rw [CanTx.left_setCall]
  by_cases heq : x = t
  · rw [if_pos heq, heq, CanTx.left_eq hcall]
    have hwoken : call.pc.woken.left ≤ call.pc.left := by
      rcases hwaits with hpc | hpc <;> rw [hpc] <;> exact Nat.le_refl _
    exact Nat.add_le_add_right hwoken _
  · rw [if_neg heq]
    exact Nat.le_refl _

theorem CanTx.Inv.left_step (h : s.Inv n) {a : CanTxAction τ μ} {s' : CanTx τ μ} {out : List (τ × LineEvent μ)}
    (hstep : canTxStep s a = some (s', out)) (x : τ) : stepsOf x [a] + s'.left x ≤ s.left x + 8 * framesOf x [a] := by
  cases a with
  | write t data =>
    have hframes : framesOf x [CanTxAction.write t data] = if t = x then data.length else 0 := Nat.add_zero _
    have hsteps : stepsOf x [CanTxAction.write t data] = 0 := rfl
    rw [hframes, hsteps, Nat.zero_add]
    exact CanTx.left_write (Option.some.inj hstep) x
  | run t =>
    obtain ⟨call, hcall, hrun⟩ := Option.bind_eq_some_iff.mp hstep
    have hleft := h.left_run hcall hrun x
    have hsteps : stepsOf x [(.run t : CanTxAction τ μ)] = if t = x then 1 else 0 := by
      rw [stepsOf, List.countP_singleton]
      simp
    omega
  | send t accepted =>
    obtain ⟨call, hcall, hsend⟩ := Option.bind_eq_some_iff.mp hstep
    have hleft := CanTx.left_sendmsg hcall hsend x
    have hsteps : stepsOf x [(.send t accepted : CanTxAction τ μ)] = if t = x then 1 else 0 := by
      rw [stepsOf, List.countP_singleton]
      simp
    omega
  | isr no sent =>
    have hsteps : stepsOf x [(.isr no sent : CanTxAction τ μ)] = 0 := rfl
    rw [hsteps, Nat.zero_add]
    exact Nat.le_add_right_of_le (h.left_isr hstep x)

omit [DecidableEq τ] in
theorem CanTx.Inv.active (h : s.Inv n) {t : τ} {call : TxCall μ} (hcall : s.calls t = some call)
    (hne : call.pc ≠ .semWait) : ∃ a, (∀ t data, a ≠ .write t data) ∧ s.Enabled a := by
  have hruns : call.pc.runs = true → ∃ a, (∀ t data, a ≠ .write t data) ∧ s.Enabled a := by
    intro hruns
    refine ⟨.run t, fun _ _ heq => by contradiction, ?_⟩
    rw [CanTx.Enabled, hcall]
    exact hruns
  cases hpc : call.pc with
  | semWait => exact absurd hpc hne
  | send no =>
    refine ⟨.send t true, fun _ _ heq => by contradiction, ?_⟩
    rw [CanTx.Enabled, hcall, Option.any_some, hpc]
    rfl
  | suspended no =>
    obtain ⟨hdata, hrelies⟩ := h.boxes.relies t call hcall
    rw [hpc] at hrelies
    have hbus : OnBus s.buffer s.boxes t call.data no [t] := hrelies
    obtain ⟨msg, rest, hmsgs⟩ := List.exists_cons_of_ne_nil hdata
    refine ⟨.isr no true, fun _ _ heq => by contradiction, ?_⟩
    rw [CanTx.Enabled, hbus.box, hmsgs]
    rfl
  | _ => exact hruns (by rw [hpc]; rfl)

omit [DecidableEq τ] in
/-- A thread that waits for a token waits for a thread that does not. -/
theorem CanTx.Inv.progress (h : s.Inv n) (hpos : 0 < n) {t : τ} {call : TxCall μ} (hcall : s.calls t = some call) :
    ∃ a, (∀ t data, a ≠ .write t data) ∧ s.Enabled a := by
  by_cases hpc : call.pc = .semWait
  · obtain ⟨free, tokens, hnodes, htokens⟩ := h.lists
    have hmem : t ∈ s.sem.suspendThread := by
      rw [htokens.waiting_iff, CanTx.role_eq hcall, hpc]
      rfl
    have hzero := htokens.value_eq (List.ne_nil_of_mem hmem)
    have hcount := htokens.count_eq
    cases tokens with
    | nil =>
      obtain rfl : free = [] := List.length_eq_zero_iff.mp (by rw [hcount, hzero]; rfl)
      rcases hnodes.cover 0 hpos with hfree | ⟨t', hholds⟩
      · contradiction
      · obtain ⟨call', hcall', hno⟩ := Option.bind_eq_some_iff.mp hholds
        refine h.active hcall' fun heq => ?_
        rw [heq] at hno
        contradiction
    | cons t' tokens =>
      have htoken := (htokens.mem_iff t').mp List.mem_cons_self
      obtain ⟨call', hcall', hrole⟩ := CanTx.call_of_role (by rw [htoken]; decide : s.role t' ≠ .other)
      refine h.active hcall' fun heq => ?_
      rw [htoken, heq] at hrole
      contradiction
  · exact h.active hcall hpc

/-- A thread makes at most eight steps for a frame, and as long as a write is in progress there is a step to make, by a thread or by a mailbox. -/
theorem can_writes_end (hreach : Reaches (canTxSystem τ μ n) as es s) :
    (∀ t, stepsOf t as + s.left t ≤ 8 * framesOf t as) ∧
      (0 < n → ∀ t, s.calls t ≠ none → 0 < s.left t ∧
        ∃ a, (∀ t data, a ≠ .write t data) ∧ (canTxSystem τ μ n).enabled s a) := by
  have hinv : s.Inv n ∧ ∀ t, stepsOf t as + s.left t ≤ 8 * framesOf t as := by
    refine hreach.invariant (fun as _ s => s.Inv n ∧ ∀ t, stepsOf t as + s.left t ≤ 8 * framesOf t as) ?_ ?_
    · intro s hinit
      refine ⟨.init hinit, fun t => ?_⟩
      rw [CanTx.left, hinit.2.2.2.1]
      exact Nat.le_refl 0
    · rintro as es s a out s' ⟨hinv, hbound⟩ henabled hstep
      obtain ⟨t₀, s'', outs, hnext, hinv', -⟩ := hinv.step henabled
      obtain ⟨rfl, rfl⟩ := Prod.mk.inj (Option.some.inj (hnext.symm.trans hstep))
      refine ⟨hinv', fun t => ?_⟩
      have hleft := hinv.left_step hstep t
      have hold := hbound t
      have hsteps : stepsOf t (as ++ [a]) = stepsOf t as + stepsOf t [a] := List.countP_append
      have hframes := framesOf_append t as [a]
      omega
  refine ⟨hinv.2, fun hpos t hbusy => ?_⟩
  obtain ⟨call, hcall⟩ := Option.ne_none_iff_exists'.mp hbusy
  refine ⟨?_, hinv.1.progress hpos hcall⟩
  rw [CanTx.left_eq hcall, TxCall.left]
  have hpc : 0 < call.pc.left := by cases call.pc <;> simp [TxPc.left]
  omega

/-- The first of two writers is suspended until its frame is sent, and the second until then. -/
theorem can_writes_end_waiting :
    ∃ s : CanTx Bool Nat, Reaches (canTxSystem Bool Nat 1)
        [.write true [7], .write false [8], .run true, .run true, .run true, .send true true, .run false, .run true]
        [(true, .called [7]), (false, .called [8]), (true, .accepted 7)] s ∧
      ∃ a, (∀ t data, a ≠ .write t data) ∧ (canTxSystem Bool Nat 1).enabled s a := by
  have hreach : Reaches (canTxSystem Bool Nat 1)
      [.write true [7], .write false [8], .run true, .run true, .run true, .send true true, .run false, .run true]
      [(true, .called [7]), (false, .called [8]), (true, .accepted 7)] _ :=
    ⟨⟨rtCanOpenTx ⟨id, id⟩ 1, fun _ => ⟨rtCompletionInit, .ok⟩, rtSemInit 1, fun _ => none, fun _ => none⟩,
      ⟨by decide, ⟨_, rfl⟩, rfl, fun _ => rfl, fun _ => rfl⟩, System.exec_run rfl⟩
  exact ⟨_, hreach, ((can_writes_end hreach).2 Nat.one_pos false (Option.some_ne_none _)).2⟩

end LightControlMonitor.Kernel
