/-
  AppCore.Channel.Fifo

  The critical sections of a channel against the bounded list of `Lib.Fifo`: the
  `count` slots from `head` on are the list, and each section is one step of it.
-/

import AppCore.Channel.Model
import Mathlib.Data.List.ReduceOption

namespace AppCore
namespace Channel

variable {n : Nat}

/-- The queued buffers, oldest first. -/
def SysChannel.items (ch : SysChannel n) : List (Fin n) :=
  (Ring.window ch.queue ch.capacity ch.head ch.count).reduceOption

/-- The bounded list a channel stands for. -/
def SysChannel.fifo (ch : SysChannel n) : Fifo.State (Fin n) where
  items := ch.items
  capacity := ch.capacity
  closed := ch.closed
  dropOldest := decide (ch.fullPolicy = fullDropOldest)

/-- What holds of every channel between two critical sections. -/
structure SysChannel.Valid (P : Platform) (ch : SysChannel n) : Prop where
  capacity_pos : 0 < ch.capacity
  capacity_le : ch.capacity ≤ P.sizeMax / P.pointerSize
  head_lt : ch.head < ch.capacity
  count_le : ch.count ≤ ch.capacity
  filled : Ring.window ch.queue ch.capacity ch.head ch.count = ch.items.map some

theorem reduceOption_map_some {α : Type*} (l : List α) : (l.map some).reduceOption = l := by
  rw [List.reduceOption, List.filterMap_map]
  exact List.filterMap_some

section Sections

variable {P : Platform} {ch : SysChannel n}

theorem SysChannel.Valid.length_items (h : ch.Valid P) : ch.items.length = ch.count := by
  have hlen := congrArg List.length h.filled
  rw [Ring.length_window, List.length_map] at hlen
  exact hlen.symm

/-- The index arithmetic does not leave `size_t`. -/
theorem SysChannel.Valid.index_eq (h : ch.Valid P) {i : Nat} (hi : i ≤ ch.capacity) :
    ch.index P i = (ch.head + i) % ch.capacity := by
  have hps := P.two_le_pointerSize
  have hmul : ch.capacity * P.pointerSize ≤ P.sizeMax :=
    (Nat.le_div_iff_mul_le (by omega)).mp h.capacity_le
  have htwo : ch.capacity * 2 ≤ ch.capacity * P.pointerSize := Nat.mul_le_mul_left _ hps
  have hhead := h.head_lt
  rw [SysChannel.index, Platform.wrap_of_le (by omega)]

theorem SysChannel.Valid.withStats (h : ch.Valid P) (stats : ChannelStats) :
    SysChannel.Valid P { ch with stats := stats } :=
  ⟨h.capacity_pos, h.capacity_le, h.head_lt, h.count_le, h.filled⟩

theorem SysChannel.Valid.withReferences (h : ch.Valid P) (referenceCount : Nat) :
    SysChannel.Valid P { ch with referenceCount := referenceCount } :=
  ⟨h.capacity_pos, h.capacity_le, h.head_lt, h.count_le, h.filled⟩

theorem SysChannel.Valid.close (h : ch.Valid P) : (sysChannelClose ch).Valid P :=
  ⟨h.capacity_pos, h.capacity_le, h.head_lt, h.count_le, h.filled⟩

/-- `sys_channel_create_with_config` makes an empty open list. -/
theorem sysChannelCreateWithConfig_spec (P : Platform) (config : Option ChannelConfig)
    (outChannel : Bool) (environment : SysErr) :
    (∃ (ch : SysChannel n) (config' : ChannelConfig), config = some config' ∧
        sysChannelCreateWithConfig P config outChannel environment = (.ok, some ch) ∧
        ch.Valid P ∧ ch.fifo = ⟨[], config'.capacity, false,
          decide (config'.fullPolicy = fullDropOldest)⟩ ∧ ch.referenceCount = 1) ∨
      ∃ ret, ret ≠ .ok ∧
        sysChannelCreateWithConfig P config outChannel environment =
          (ret, (none : Option (SysChannel n))) := by
  unfold sysChannelCreateWithConfig
  by_cases hout : outChannel = false
  · rw [if_pos hout]
    exact Or.inr ⟨_, by decide, rfl⟩
  · rw [if_neg hout]
    cases config with
    | none => exact Or.inr ⟨_, by decide, rfl⟩
    | some config =>
        by_cases hbad : config.capacity = 0 ∨ config.capacity > P.sizeMax / P.pointerSize ∨
            config.fullPolicy > fullDropOldest
        · simp only [if_pos hbad]
          exact Or.inr ⟨_, by decide, rfl⟩
        · simp only [if_neg hbad]
          by_cases henv : environment ≠ .ok
          · rw [if_pos henv]
            exact Or.inr ⟨_, henv, rfl⟩
          · rw [if_neg henv]
            push Not at hbad
            refine Or.inl ⟨_, config, rfl, rfl, ?_, rfl, rfl⟩
            exact ⟨Nat.pos_of_ne_zero hbad.1, hbad.2.1, Nat.pos_of_ne_zero hbad.1,
              Nat.zero_le _, rfl⟩

/-- Taking the head of a queue that is not empty takes the first element. -/
theorem SysChannel.Valid.takeHead (h : ch.Valid P) (hcount : 0 < ch.count) :
    ∃ x rest, ch.items = x :: rest ∧ (ch.takeHead P).1 = some x ∧
      (ch.takeHead P).2.Valid P ∧ (ch.takeHead P).2.fifo = { ch.fifo with items := rest } := by
  have hcap := h.capacity_pos
  have hle := h.count_le
  have hcons : Ring.window ch.queue ch.capacity ch.head ch.count = _ := Ring.window_cons hcount
  rw [Nat.mod_eq_of_lt h.head_lt] at hcons
  have hpop : Ring.window (Function.update ch.queue ch.head none) ch.capacity _ _ = _ :=
    Ring.window_pop h.head_lt hcount hle none
  have hfilled := h.filled
  cases hitems : ch.items with
  | nil =>
      have hlen := h.length_items
      rw [hitems, List.length_nil] at hlen
      omega
  | cons x rest =>
      rw [hitems, List.map_cons, hcons, List.cons.injEq] at hfilled
      obtain ⟨hx, hrest⟩ := hfilled
      have hwindow : Ring.window (ch.takeHead P).2.queue (ch.takeHead P).2.capacity
          (ch.takeHead P).2.head (ch.takeHead P).2.count = rest.map some := by
        simp only [SysChannel.takeHead]
        rw [h.index_eq (by omega), hpop, hrest]
      have hrest' : (ch.takeHead P).2.items = rest := by
        rw [SysChannel.items, hwindow, reduceOption_map_some]
      refine ⟨x, rest, rfl, hx, ⟨hcap, h.capacity_le, ?_, ?_, ?_⟩, ?_⟩
      · show ch.index P 1 < ch.capacity
        rw [h.index_eq (by omega)]
        exact Nat.mod_lt _ hcap
      · show ch.count - 1 ≤ ch.capacity
        omega
      · rw [hrest', hwindow]
      · rw [SysChannel.fifo, hrest']
        rfl

/-- Writing the slot behind the queue appends to the list. -/
theorem SysChannel.Valid.push (h : ch.Valid P) (hlt : ch.count < ch.capacity) (buffer : Fin n)
    (stats : ChannelStats) :
    SysChannel.Valid P { ch with
        queue := Function.update ch.queue (ch.index P ch.count) (some buffer)
        count := ch.count + 1
        stats := stats } ∧
      SysChannel.fifo { ch with
        queue := Function.update ch.queue (ch.index P ch.count) (some buffer)
        count := ch.count + 1
        stats := stats } = { ch.fifo with items := ch.fifo.items ++ [buffer] } := by
  have hpush : Ring.window (Function.update ch.queue ((ch.head + ch.count) % ch.capacity)
      (some buffer)) ch.capacity ch.head (ch.count + 1) = _ := Ring.window_push hlt (some buffer)
  rw [h.filled, ← h.index_eq (by omega)] at hpush
  have hitems : SysChannel.items { ch with
      queue := Function.update ch.queue (ch.index P ch.count) (some buffer)
      count := ch.count + 1
      stats := stats } = ch.items ++ [buffer] := by
    unfold SysChannel.items
    rw [hpush, List.reduceOption_append, reduceOption_map_some]
    rfl
  constructor
  · refine ⟨h.capacity_pos, h.capacity_le, h.head_lt, hlt, ?_⟩
    rw [hitems, hpush, List.map_append]
    rfl
  · rw [SysChannel.fifo, hitems]
    rfl

/-! ## Sending -/

/-- What a critical section of a send does to the list. -/
inductive SendSpec (q : Fifo.State (Fin n)) (buffer : Fin n) :
    SendOutcome n → List (Fifo.Obs (Fin n)) → Fifo.State (Fin n) → Prop
  | waits : q.closed = false → q.items.length = q.capacity → SendSpec q buffer (.wait none) [] q
  | failed {ret} : ret ≠ .ok → SendSpec q buffer (.leave ret [buffer]) [] q
  | pushed : q.closed = false → q.items.length < q.capacity →
      SendSpec q buffer (.leave .ok []) [.accepted buffer]
        { q with items := q.items ++ [buffer] }
  | replaced {oldest rest} : q.closed = false → q.dropOldest = true →
      q.items = oldest :: rest → q.items.length = q.capacity →
      SendSpec q buffer (.leave .ok [oldest]) [.dropped oldest, .accepted buffer]
        { q with items := rest ++ [buffer] }

/-- Every critical section of a send is a step of the list. -/
theorem SendSpec.step {q q' : Fifo.State (Fin n)} {buffer : Fin n} {outcome : SendOutcome n}
    {obs : List (Fifo.Obs (Fin n))} (h : SendSpec q buffer outcome obs q') :
    Fifo.Step q obs q' := by
  cases h with
  | waits => exact Fifo.Step.stutter
  | failed => exact Fifo.Step.stutter
  | pushed hopen hlt => exact Fifo.Step.push hopen hlt
  | replaced hopen hdrop hitems hfull => exact Fifo.Step.replace hopen hdrop hitems hfull

/-- The result of a critical section of a send. -/
def Sends (P : Platform) (ch : SysChannel n) (buffer : Fin n)
    (r : SysChannel n × SendOutcome n × List (Fifo.Obs (Fin n))) : Prop :=
  r.1.Valid P ∧ SendSpec ch.fifo buffer r.2.1 r.2.2 r.1.fifo

/-- The accepting end of the loop of a send. -/
theorem sendLoop_accepts (h : ch.Valid P) (hlt : ch.count < ch.capacity)
    (hopen : ch.closed = false) (buffer : Fin n) (dropped : Option (Fin n)) (timeoutMs : Int) :
    ∃ ch', sendLoop P buffer dropped timeoutMs ch =
        (ch', .leave .ok dropped.toList, [.accepted buffer]) ∧ ch'.Valid P ∧
      ch'.fifo = { ch.fifo with items := ch.fifo.items ++ [buffer] } := by
  have hfull : ¬(ch.count = ch.capacity ∧ ch.closed = false) := by omega
  have hclosed : ¬ ch.closed = true := by simp [hopen]
  unfold sendLoop
  rw [if_neg hfull, if_neg hclosed]
  obtain ⟨hvalid, hfifo⟩ := h.push hlt buffer { ch.stats with
    sentCount := ch.stats.sentCount + 1
    highWatermark := if ch.count + 1 > ch.stats.highWatermark then ch.count + 1
      else ch.stats.highWatermark }
  exact ⟨_, rfl, hvalid, hfifo⟩

/-- The loop of a send that has dropped nothing. -/
theorem sendLoop_spec (h : ch.Valid P) (buffer : Fin n) (timeoutMs : Int) :
    Sends P ch buffer (sendLoop P buffer none timeoutMs ch) := by
  have hlen := h.length_items
  by_cases hfull : ch.count = ch.capacity ∧ ch.closed = false
  · unfold sendLoop waitForChannelState
    rw [if_pos hfull]
    by_cases ht : timeoutMs = 0
    · rw [if_pos ht]
      exact ⟨h, SendSpec.failed (by decide)⟩
    · rw [if_neg ht]
      exact ⟨h, SendSpec.waits hfull.2 (hlen.trans hfull.1)⟩
  · by_cases hclosed : ch.closed = true
    · unfold sendLoop
      rw [if_neg hfull, if_pos hclosed]
      exact ⟨h, SendSpec.failed (by decide)⟩
    · have hopen : ch.closed = false := by simpa using hclosed
      have hle := h.count_le
      have hlt : ch.count < ch.capacity := by
        by_contra hge
        exact hfull ⟨by omega, hopen⟩
      obtain ⟨ch', heq, hvalid, hfifo⟩ := sendLoop_accepts h hlt hopen buffer none timeoutMs
      have hspec : SendSpec ch.fifo buffer (.leave .ok []) [.accepted buffer] _ :=
        SendSpec.pushed hopen (by show ch.items.length < ch.capacity; omega)
      rw [← hfifo] at hspec
      rw [heq]
      exact ⟨hvalid, hspec⟩

/-- A send that wakes up has dropped nothing so far. -/
theorem sendWake_spec (h : ch.Valid P) (buffer : Fin n) (timeoutMs ret : Int) :
    Sends P ch buffer (sendWake P buffer none timeoutMs ret ch) := by
  unfold sendWake
  by_cases hret : waitResult ret ≠ .ok
  · rw [if_pos hret]
    unfold sendWaitFailed
    by_cases ht : waitResult ret = .timeout
    · rw [if_pos ht]
      exact ⟨h.withStats _, SendSpec.failed hret⟩
    · rw [if_neg ht]
      exact ⟨h, SendSpec.failed hret⟩
  · rw [if_neg hret]
    exact sendLoop_spec h buffer timeoutMs

theorem sendEnter_spec (h : ch.Valid P) (buffer : Fin n) (timeoutMs : Int) :
    Sends P ch buffer (sendEnter P buffer timeoutMs ch) := by
  by_cases hfull : ch.count = ch.capacity
  · have hfullCount := h.withStats { ch.stats with fullCount := ch.stats.fullCount + 1 }
    unfold sendEnter
    simp only [if_pos hfull]
    by_cases hdrop : ch.fullPolicy = fullDropOldest ∧ ch.closed = false
    · rw [if_pos ⟨hfull, hdrop⟩]
      have hpos := h.capacity_pos
      obtain ⟨x, rest, hx, hhead, hvalid, hrest⟩ :=
        hfullCount.takeHead (by show 0 < ch.count; omega)
      generalize htaken : SysChannel.takeHead P { ch with
        stats := { ch.stats with fullCount := ch.stats.fullCount + 1 } } = taken
      have hcount : taken.2.count < taken.2.capacity := by
        rw [← htaken]
        show ch.count - 1 < ch.capacity
        omega
      have hopen : taken.2.closed = false := by
        rw [← htaken]
        exact hdrop.2
      rw [htaken] at hhead hvalid hrest
      obtain ⟨oldest, popped⟩ := taken
      obtain ⟨ch', heq, hvalid', hfifo⟩ := sendLoop_accepts (hvalid.withStats { popped.stats with
        droppedCount := popped.stats.droppedCount + 1 }) hcount hopen buffer oldest timeoutMs
      have hspec : SendSpec ch.fifo buffer (.leave .ok [x])
          [.dropped x, .accepted buffer] { ch.fifo with items := rest ++ [buffer] } :=
        SendSpec.replaced hdrop.2 (decide_eq_true hdrop.1) hx (h.length_items.trans hfull)
      have hfifo' : ch'.fifo = { ch.fifo with items := rest ++ [buffer] } := by
        rw [hfifo]
        show { popped.fifo with items := popped.fifo.items ++ [buffer] } = _
        rw [hrest]
        rfl
      obtain rfl : oldest = some x := hhead
      simp only [heq]
      rw [← hfifo'] at hspec
      exact ⟨hvalid', hspec⟩
    · rw [if_neg (fun hall => hdrop hall.2)]
      exact sendLoop_spec hfullCount buffer timeoutMs
  · unfold sendEnter
    simp only [hfull, if_false, false_and]
    exact sendLoop_spec h buffer timeoutMs

/-! ## Receiving -/

/-- What a critical section of a receive does to the list. -/
inductive ReceiveSpec (q : Fifo.State (Fin n)) :
    ReceiveOutcome n → List (Fifo.Obs (Fin n)) → Fifo.State (Fin n) → Prop
  | waits : q.closed = false → q.items = [] → ReceiveSpec q .wait [] q
  | failed {ret} : ret ≠ .ok → ret ≠ .closed → ReceiveSpec q (.leave ret none) [] q
  | closed : q.closed = true → q.items = [] → ReceiveSpec q (.leave .closed none) [] q
  | popped {x rest} : q.items = x :: rest →
      ReceiveSpec q (.leave .ok (some x)) [.received x] { q with items := rest }

theorem ReceiveSpec.step {q q' : Fifo.State (Fin n)} {outcome : ReceiveOutcome n}
    {obs : List (Fifo.Obs (Fin n))} (h : ReceiveSpec q outcome obs q') : Fifo.Step q obs q' := by
  cases h with
  | waits => exact Fifo.Step.stutter
  | failed => exact Fifo.Step.stutter
  | closed => exact Fifo.Step.stutter
  | popped hitems => exact Fifo.Step.pop hitems

/-- How a receive ends that finds these elements in a closed list. -/
def closedReceive : List (Fin n) → ReceiveOutcome n
  | [] => .leave .closed none
  | x :: _ => .leave .ok (some x)

/-- The result of a critical section of a receive; `drains` says that its wait, if there
    was one, did not fail. -/
def Receives (P : Platform) (ch : SysChannel n) (drains : Prop)
    (r : SysChannel n × ReceiveOutcome n × List (Fifo.Obs (Fin n))) : Prop :=
  r.1.Valid P ∧ ReceiveSpec ch.fifo r.2.1 r.2.2 r.1.fifo ∧
    (ch.closed = true → drains → r.2.1 = closedReceive ch.items)

theorem receiveLoop_spec (h : ch.Valid P) (timeoutMs : Int) :
    Receives P ch True (receiveLoop P timeoutMs ch) := by
  have hlen := h.length_items
  have hnil : ch.count = 0 → ch.items = [] := fun hz => List.length_eq_zero_iff.mp (hlen.trans hz)
  unfold receiveLoop
  by_cases hempty : ch.count = 0 ∧ ch.closed = false
  · have hopen : ch.closed ≠ true := by simp [hempty.2]
    rw [if_pos hempty]
    unfold waitForChannelState
    by_cases ht : timeoutMs = 0
    · rw [if_pos ht]
      exact ⟨h.withStats _, ReceiveSpec.failed (by decide) (by decide), fun hc => absurd hc hopen⟩
    · rw [if_neg ht]
      exact ⟨h, ReceiveSpec.waits hempty.2 (hnil hempty.1), fun hc => absurd hc hopen⟩
  · rw [if_neg hempty]
    by_cases hclosed : ch.count = 0 ∧ ch.closed = true
    · rw [if_pos hclosed]
      refine ⟨h, ReceiveSpec.closed hclosed.2 (hnil hclosed.1), fun _ _ => ?_⟩
      rw [hnil hclosed.1]
      rfl
    · rw [if_neg hclosed]
      have hpos : 0 < ch.count := by
        by_contra hz
        have hz : ch.count = 0 := by omega
        cases hc : ch.closed with
        | false => exact hempty ⟨hz, hc⟩
        | true => exact hclosed ⟨hz, hc⟩
      obtain ⟨x, rest, hx, hhead, hvalid, hrest⟩ := h.takeHead hpos
      generalize ch.takeHead P = taken at hhead hvalid hrest
      obtain ⟨out, popped⟩ := taken
      obtain rfl : out = some x := hhead
      have hspec : ReceiveSpec ch.fifo (.leave .ok (some x)) [.received x]
          { ch.fifo with items := rest } := ReceiveSpec.popped hx
      rw [← hrest] at hspec
      refine ⟨hvalid.withStats _, hspec, fun _ _ => ?_⟩
      rw [hx]
      rfl

theorem waitResult_ne_closed (ret : Int) : waitResult ret ≠ .closed := by
  unfold waitResult waitError
  exact ite_ne (by decide) (ite_ne (by decide) (sysErrorFromErrno_ne_closed ret))

theorem receiveWake_spec (h : ch.Valid P) (timeoutMs ret : Int) :
    Receives P ch (ret = 0) (receiveWake P timeoutMs ret ch) := by
  unfold receiveWake
  by_cases hret : waitResult ret ≠ .ok
  · rw [if_pos hret]
    refine ⟨h.withStats _, ReceiveSpec.failed hret (waitResult_ne_closed ret), fun _ hz => ?_⟩
    rw [hz] at hret
    exact absurd rfl hret
  · rw [if_neg hret]
    obtain ⟨hvalid, hspec, hclosed⟩ := receiveLoop_spec h timeoutMs
    exact ⟨hvalid, hspec, fun hc _ => hclosed hc trivial⟩

end Sections

end Channel
end AppCore
