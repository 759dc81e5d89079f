/-
  AppCore.Channel.CallSteps

  Which call a step belongs to, the steps a send takes, and what its critical sections
  have done when they wait or fail.
-/

import AppCore.Channel.Sections

namespace AppCore
namespace Channel

variable {C K : Type*} {n : Nat}

/-- The call that is in this state, once it has started. -/
def CallState.call : CallState C n → Option (Call C n)
  | .notStarted => none
  | .sendLock c buffer timeoutMs => some (.send (some c) (some buffer) timeoutMs)
  | .sendWait c buffer _ timeoutMs => some (.send (some c) (some buffer) timeoutMs)
  | .sendRelease c buffer timeoutMs _ _ => some (.send (some c) (some buffer) timeoutMs)
  | .receiveWait c timeoutMs => some (.receive (some c) true timeoutMs)
  | .retaining c _ => some (.retain (some c))
  | .tearingDown c => some (.release (some c))
  | .idleWait timeoutMs => some (.poolWaitIdle timeoutMs)
  | .returned call _ _ => some call

/-- The call is a send, or can still become one. -/
def CallState.MaySend : CallState C n → Prop
  | .notStarted => True
  | .sendLock .. => True
  | .sendWait .. => True
  | .sendRelease .. => True
  | .returned (.send _ _ _) _ _ => True
  | _ => False

/-- A step that the send `k` takes. -/
inductive SendStep [DecidableEq C] [DecidableEq K] (P : Platform) (k : K) (s : System C K n) :
    Event C K n → System C K n → Prop
  | refused {channel buffer timeoutMs ret} : s.calls k = .notStarted →
      ret = .invalidParam ∨ ret = .state ∨ ret = .overflow →
      SendStep P k s (.call k (.send channel buffer timeoutMs))
        (s.setCall k (.returned (.send channel buffer timeoutMs) ret none))
  | retained {c buffer timeoutMs pool ch} : s.calls k = .notStarted →
      s.channels c = .live ch → sysBufferRetain P (some buffer) s.pool = (.ok, pool) →
      SendStep P k s (.call k (.send (some c) (some buffer) timeoutMs))
        ({ s with pool := pool }.setCall k (.sendLock c buffer timeoutMs))
  | entered {c buffer timeoutMs ch r} : s.calls k = .sendLock c buffer timeoutMs →
      s.channels c = .live ch → sendEnter P buffer timeoutMs ch = r →
      SendStep P k s (.proceed k) (((s.setChannel c (.live r.1)).setCall k
        (afterSend c buffer timeoutMs r.2.1)).observe k c r.2.2)
  | woken {c buffer timeoutMs ret ch r} : s.calls k = .sendWait c buffer none timeoutMs →
      s.channels c = .live ch → sendWake P buffer none timeoutMs ret ch = r →
      SendStep P k s (.wake k ret) (((s.setChannel c (.live r.1)).setCall k
        (afterSend c buffer timeoutMs r.2.1)).observe k c r.2.2)
  | released {c buffer timeoutMs ret x rest} :
      s.calls k = .sendRelease c buffer timeoutMs ret (x :: rest) →
      SendStep P k s (.proceed k) ({ s with pool := sysBufferRelease P (some x) s.pool }.setCall k
        (.sendRelease c buffer timeoutMs ret rest))
  | returned {c buffer timeoutMs ret} : s.calls k = .sendRelease c buffer timeoutMs ret [] →
      SendStep P k s (.proceed k)
        (s.setCall k (.returned (.send (some c) (some buffer) timeoutMs) ret none))

section Inversion

variable [DecidableEq C] [DecidableEq K] {P : Platform} {s s' : System C K n} {k : K}

omit [DecidableEq C] in
theorem setCall_calls (t : System C K n) (st : CallState C n) : (t.setCall k st).calls k = st :=
  Function.update_self ..

theorem sendSection_eq {c : C} {buffer : Fin n} {timeoutMs : Int}
    {run : SysChannel n → SysChannel n × SendOutcome n × List (Fifo.Obs (Fin n))}
    (h : s.sendSection k c buffer timeoutMs run = some s') :
    ∃ ch, s.channels c = .live ch ∧ s' = ((s.setChannel c (.live (run ch).1)).setCall k
      (afterSend c buffer timeoutMs (run ch).2.1)).observe k c (run ch).2.2 := by
  unfold System.sendSection at h
  cases hlive : s.channels c with
  | absent => simp [hlive] at h
  | dying ch i => simp [hlive] at h
  | freed => simp [hlive] at h
  | live ch =>
      refine ⟨ch, rfl, ?_⟩
      simp only [hlive, Option.some.injEq] at h
      generalize run ch = r at h ⊢
      obtain ⟨ch', outcome, os⟩ := r
      subst h
      cases outcome with
      | wait dropped => rfl
      | leave ret releases => rfl

omit [DecidableEq C] [DecidableEq K] in
theorem sysBufferRetain_refuses {buffer : Option (Fin n)} {pool pool' : Pool n} {ret : SysErr}
    (h : sysBufferRetain P buffer pool = (ret, pool')) (hret : ret ≠ .ok) :
    pool' = pool ∧ (ret = .invalidParam ∨ ret = .state ∨ ret = .overflow) := by
  cases buffer with
  | none =>
      simp only [sysBufferRetain, Prod.mk.injEq] at h
      exact ⟨h.2.symm, Or.inl h.1.symm⟩
  | some b =>
      simp only [sysBufferRetain] at h
      split at h
      · simp only [Prod.mk.injEq] at h
        exact ⟨h.2.symm, Or.inr (Or.inl h.1.symm)⟩
      · split at h
        · simp only [Prod.mk.injEq] at h
          exact ⟨h.2.symm, Or.inr (Or.inr h.1.symm)⟩
        · simp only [Prod.mk.injEq] at h
          exact absurd h.1.symm hret

/-- The first step of a send. -/
theorem send_sendStep {channel : Option C} {buffer : Option (Fin n)} {timeoutMs : Int}
    (hk : s.calls k = .notStarted)
    (h : enter P s k (.send channel buffer timeoutMs) = some s') :
    SendStep P k s (.call k (.send channel buffer timeoutMs)) s' := by
  cases enter_cases h with
  | sendInvalid _ => exact SendStep.refused hk (Or.inl rfl)
  | sendRetained hlive hret => exact SendStep.retained hk hlive hret
  | sendRefused _ hret hne =>
      obtain ⟨hpool, hwhy⟩ := sysBufferRetain_refuses hret hne
      rw [hpool]
      exact SendStep.refused hk hwhy

/-! ## The call a step belongs to -/

theorem receiveSection_call {c : C} {timeoutMs : Int}
    {run : SysChannel n → SysChannel n × ReceiveOutcome n × List (Fifo.Obs (Fin n))}
    (h : s.receiveSection k c timeoutMs run = some s') :
    (s'.calls k).call = some (.receive (some c) true timeoutMs) := by
  cases hlive : s.channels c with
  | absent => simp [System.receiveSection, hlive] at h
  | dying ch i => simp [System.receiveSection, hlive] at h
  | freed => simp [System.receiveSection, hlive] at h
  | live ch =>
      rw [receiveSection_calls hlive h]
      cases (run ch).2.1 with
      | wait => rfl
      | leave ret out => rfl

theorem sendSection_call {c : C} {buffer : Fin n} {timeoutMs : Int}
    {run : SysChannel n → SysChannel n × SendOutcome n × List (Fifo.Obs (Fin n))}
    (h : s.sendSection k c buffer timeoutMs run = some s') :
    (s'.calls k).call = some (.send (some c) (some buffer) timeoutMs) := by
  obtain ⟨ch, -, rfl⟩ := sendSection_eq h
  show ((System.setCall _ k _).calls k).call = _
  rw [setCall_calls]
  cases (run ch).2.1 with
  | wait dropped => rfl
  | leave ret releases => rfl

omit [DecidableEq C] in
theorem retainSection_call {c : C} {references : Nat} :
    ((s.retainSection P k c references).calls k).call = some (.retain (some c)) := by
  unfold System.retainSection
  cases channelRetainLoop P references with
  | some ret => exact congrArg CallState.call (setCall_calls ..)
  | none => exact congrArg CallState.call (setCall_calls ..)

/-- The first section of a call leaves it in a state of this call. -/
theorem enter_call {call : Call C n} (h : enter P s k call = some s') :
    (s'.calls k).call = some call := by
  have hset : ∀ (t : System C K n) st, st.call = some call →
      ((t.setCall k st).calls k).call = some call := by
    intro t st hst
    rw [setCall_calls]
    exact hst
  cases enter_cases h with
  | receive hsection => exact receiveSection_call hsection
  | retain _ => exact retainSection_call
  | _ => exact hset _ _ rfl

theorem proceed_call (h : proceed P s k = some s') : (s'.calls k).call = (s.calls k).call := by
  cases proceed_cases h with
  | sendLock hk hsection =>
      rw [hk]
      exact sendSection_call hsection
  | sendReleases hk =>
      rw [setCall_calls, hk]
      rfl
  | sendReturns hk =>
      rw [setCall_calls, hk]
      rfl
  | tears _ _ _ => rfl
  | freed hk _ _ =>
      rw [setCall_calls, hk]
      rfl

theorem exchange_call {spurious : Bool} (h : exchange P s k spurious = some s') :
    (s'.calls k).call = (s.calls k).call := by
  cases exchange_cases h with
  | exchanged hk _ _ =>
      rw [setCall_calls, hk]
      rfl
  | again hk _ _ =>
      rw [hk]
      exact retainSection_call

/-- The call is a retain. -/
theorem exchange_retain {spurious : Bool} (h : exchange P s k spurious = some s') :
    ∃ c, (s.calls k).call = some (.retain (some c)) := by
  cases exchange_cases h with
  | @exchanged c references ch hk _ _ => exact ⟨c, congrArg CallState.call hk⟩
  | @again c references ch hk _ _ => exact ⟨c, congrArg CallState.call hk⟩

theorem wake_call {ret : Int} (h : wake P s k ret = some s') :
    (s'.calls k).call = (s.calls k).call := by
  cases wake_cases h with
  | send hk hsection =>
      rw [hk]
      exact sendSection_call hsection
  | receive hk hsection =>
      rw [hk]
      exact receiveSection_call hsection
  | idle hk _ =>
      rw [setCall_calls, hk]
      rfl
  | idleWaits _ _ => rfl

omit [DecidableEq C] [DecidableEq K] in
/-- A state of a call that is no send. -/
theorem not_maySend_of_call {st : CallState C n} {call : Call C n} (hst : st.call = some call)
    (hcall : ∀ channel buffer timeoutMs, call ≠ .send channel buffer timeoutMs) :
    ¬ st.MaySend := by
  intro hsend
  cases st with
  | notStarted => cases hst
  | sendLock c buffer timeoutMs => exact hcall _ _ _ (Option.some.inj hst).symm
  | sendWait c buffer dropped timeoutMs => exact hcall _ _ _ (Option.some.inj hst).symm
  | sendRelease c buffer timeoutMs ret releases => exact hcall _ _ _ (Option.some.inj hst).symm
  | returned call' ret out =>
      cases call' with
      | send channel buffer timeoutMs => exact hcall _ _ _ (Option.some.inj hst).symm
      | _ => exact hsend
  | _ => exact hsend

/-- A step that leaves its call in a send is a step of that send. -/
theorem next_sendStep {e : Event C K n} (hs : s.Sound P) (h : next P s e = some s')
    (hsend : (s'.calls e.actor).MaySend) : SendStep P e.actor s e s' := by
  have hno : ∀ {k call}, (s'.calls k).call = some call → (s'.calls k).MaySend →
      ∃ channel buffer timeoutMs, call = .send channel buffer timeoutMs := by
    intro k call hcall hmay
    by_contra hother
    push Not at hother
    exact not_maySend_of_call hcall hother hmay
  cases e with
  | call k call =>
      simp only [next] at h
      split at h
      · next hk =>
          obtain ⟨channel, buffer, timeoutMs, rfl⟩ := hno (enter_call h) hsend
          exact send_sendStep hk h
      · cases h
  | proceed k =>
      have hsend : (s'.calls k).MaySend := hsend
      have hcall := proceed_call h
      cases proceed_cases h with
      | sendLock hk hsection =>
          obtain ⟨ch, hlive, rfl⟩ := sendSection_eq hsection
          exact SendStep.entered hk hlive rfl
      | sendReleases hk => exact SendStep.released hk
      | sendReturns hk => exact SendStep.returned hk
      | tears hk _ _ =>
          rw [hk] at hcall
          obtain ⟨_, _, _, hother⟩ := hno hcall hsend
          cases hother
      | freed hk _ _ =>
          rw [hk] at hcall
          obtain ⟨_, _, _, hother⟩ := hno hcall hsend
          cases hother
  | exchange k spurious =>
      obtain ⟨c, hretain⟩ := exchange_retain h
      obtain ⟨_, _, _, hother⟩ := hno ((exchange_call h).trans hretain) hsend
      cases hother
  | wake k ret =>
      have hsend : (s'.calls k).MaySend := hsend
      have hcall := wake_call h
      cases wake_cases h with
      | @send c buffer dropped timeoutMs _ hk hsection =>
          have hund := hs.undropped k
          rw [hk] at hund
          obtain rfl : dropped = none := hund
          obtain ⟨ch, hlive, rfl⟩ := sendSection_eq hsection
          exact SendStep.woken hk hlive rfl
      | receive hk _ =>
          rw [hk] at hcall
          obtain ⟨_, _, _, hother⟩ := hno hcall hsend
          cases hother
      | idle hk _ =>
          rw [hk] at hcall
          obtain ⟨_, _, _, hother⟩ := hno hcall hsend
          cases hother
      | idleWaits hk _ =>
          obtain ⟨_, _, _, hother⟩ := hno (congrArg CallState.call hk) hsend
          cases hother

end Inversion

/-! ## Sections that do not succeed -/

/-- The statistics after one more full queue, or one more timeout. -/
def ChannelStats.counted (full timeout : Bool) (stats : ChannelStats) : ChannelStats :=
  { stats with
    fullCount := if full then stats.fullCount + 1 else stats.fullCount
    timeoutCount := if timeout then stats.timeoutCount + 1 else stats.timeoutCount }

/-- A section of a send that waits or fails: it has moved nothing, and has counted a full
    queue or a timeout. -/
structure SendFails (ch : SysChannel n) (buffer : Fin n) (full timeout : Bool)
    (r : SysChannel n × SendOutcome n × List (Fifo.Obs (Fin n))) : Prop where
  channel : r.1 = { ch with stats := ch.stats.counted full timeout }
  outcome : (r.2.1 = .wait none ∧ timeout = false) ∨
    ∃ ret, ret ≠ .ok ∧ r.2.1 = .leave ret [buffer] ∧ (ret = .timeout ↔ timeout = true)

section Sections

variable {P : Platform} {ch : SysChannel n}

theorem sendLoop_result (ch : SysChannel n) (buffer : Fin n) (timeoutMs : Int) :
    SendFails ch buffer false false (sendLoop P buffer none timeoutMs ch) ∨
      ∃ releases, (sendLoop P buffer none timeoutMs ch).2.1 = .leave .ok releases := by
  unfold sendLoop
  split
  · unfold waitForChannelState
    by_cases ht : timeoutMs = 0
    · rw [if_pos ht]
      exact Or.inl ⟨rfl, Or.inr ⟨.queueFull, by decide, rfl, by decide⟩⟩
    · rw [if_neg ht]
      exact Or.inl ⟨rfl, Or.inl ⟨rfl, rfl⟩⟩
  · split
    · exact Or.inl ⟨rfl, Or.inr ⟨.closed, by decide, rfl, by decide⟩⟩
    · exact Or.inr ⟨_, rfl⟩

/-- The loop of a send that does not wait. -/
theorem sendLoop_leaves (ch : SysChannel n)
    (hfree : ¬ (ch.count = ch.capacity ∧ ch.closed = false)) (buffer : Fin n)
    (dropped : Option (Fin n)) (timeoutMs : Int) :
    ∃ ret releases, (sendLoop P buffer dropped timeoutMs ch).2.1 = .leave ret releases ∧
      ret = if ch.closed = true then .closed else .ok := by
  unfold sendLoop
  rw [if_neg hfree]
  split
  · exact ⟨_, _, rfl, rfl⟩
  · exact ⟨_, _, rfl, rfl⟩

/-- Under `DROP_OLDEST` the first section of a send is its last one. -/
theorem sendEnter_dropOldest (hvalid : ch.Valid P) (buffer : Fin n) (timeoutMs : Int)
    (hpolicy : ch.fullPolicy = fullDropOldest) :
    ∃ ret releases, (sendEnter P buffer timeoutMs ch).2.1 = .leave ret releases ∧
      (ret = .ok ∨ ret = .closed) := by
  have hpos := hvalid.capacity_pos
  have hle := hvalid.count_le
  -- the loop finds a free slot, or the channel closed
  have hloop : ∀ (ch' : SysChannel n) (dropped : Option (Fin n)),
      ¬ (ch'.count = ch'.capacity ∧ ch'.closed = false) →
      ∃ ret releases, (sendLoop P buffer dropped timeoutMs ch').2.1 = .leave ret releases ∧
        (ret = .ok ∨ ret = .closed) := by
    intro ch' dropped hfree
    obtain ⟨ret, releases, hout, hret⟩ :=
      sendLoop_leaves (P := P) ch' hfree buffer dropped timeoutMs
    refine ⟨ret, releases, hout, ?_⟩
    split at hret
    · exact Or.inr hret
    · exact Or.inl hret
  by_cases hfull : ch.count = ch.capacity
  · unfold sendEnter
    simp only [if_pos hfull]
    by_cases hopen : ch.closed = false
    · rw [if_pos ⟨hfull, hpolicy, hopen⟩]
      apply hloop
      rintro ⟨hcount, -⟩
      have hcount : ch.count - 1 = ch.capacity := hcount
      omega
    · rw [if_neg fun hall => hopen hall.2.2]
      exact hloop _ _ fun hall => hopen hall.2
  · unfold sendEnter
    simp only [hfull, if_false, false_and]
    exact hloop _ _ fun hall => hfull hall.1

theorem sendEnter_result (hvalid : ch.Valid P) (buffer : Fin n) (timeoutMs : Int) :
    SendFails ch buffer (decide (ch.count = ch.capacity)) false
        (sendEnter P buffer timeoutMs ch) ∨
      ∃ releases, (sendEnter P buffer timeoutMs ch).2.1 = .leave .ok releases := by
  by_cases hfull : ch.count = ch.capacity
  · rw [decide_eq_true hfull]
    unfold sendEnter
    simp only [if_pos hfull]
    by_cases hdrop : ch.fullPolicy = fullDropOldest ∧ ch.closed = false
    · -- the dropped buffer makes room
      have hpos := hvalid.capacity_pos
      rw [if_pos ⟨hfull, hdrop⟩]
      have hfree : ¬ ((ch.takeHead P).2.count = (ch.takeHead P).2.capacity ∧
          (ch.takeHead P).2.closed = false) := by
        rintro ⟨hcount, -⟩
        have hcount : ch.count - 1 = ch.capacity := hcount
        omega
      obtain ⟨ret, releases, hout, hret⟩ := sendLoop_leaves (P := P) { (ch.takeHead P).2 with
        stats := { ch.stats with
          fullCount := ch.stats.fullCount + 1, droppedCount := ch.stats.droppedCount + 1 } }
        hfree buffer (ch.queue ch.head) timeoutMs
      have hopen : ¬ ch.closed = true := by simp [hdrop.2]
      obtain rfl : ret = .ok := hret.trans (if_neg hopen)
      exact Or.inr ⟨releases, hout⟩
    · rw [if_neg fun hall => hdrop hall.2]
      rcases sendLoop_result (P := P) { ch with
        stats := { ch.stats with fullCount := ch.stats.fullCount + 1 } } buffer timeoutMs with
        hfails | hok
      · exact Or.inl ⟨hfails.channel, hfails.outcome⟩
      · exact Or.inr hok
  · rw [decide_eq_false hfull]
    unfold sendEnter
    simp only [hfull, if_false, false_and]
    exact sendLoop_result ch buffer timeoutMs

theorem sendWake_result (ch : SysChannel n) (buffer : Fin n) (timeoutMs ret : Int) :
    SendFails ch buffer false (decide (waitResult ret = .timeout))
        (sendWake P buffer none timeoutMs ret ch) ∨
      ∃ releases, (sendWake P buffer none timeoutMs ret ch).2.1 = .leave .ok releases := by
  unfold sendWake
  by_cases hret : waitResult ret ≠ .ok
  · rw [if_pos hret]
    left
    unfold sendWaitFailed
    by_cases ht : waitResult ret = .timeout
    · rw [if_pos ht, decide_eq_true ht]
      exact ⟨rfl, Or.inr ⟨_, hret, rfl, by rw [ht]; decide⟩⟩
    · rw [if_neg ht, decide_eq_false ht]
      exact ⟨rfl, Or.inr ⟨_, hret, rfl, by simp [ht]⟩⟩
  · rw [if_neg hret]
    rw [not_not] at hret
    rw [hret]
    exact sendLoop_result ch buffer timeoutMs

end Sections

end Channel
end AppCore
