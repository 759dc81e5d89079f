/-
  AppCore.Channel.Timeout

  When a call with a positive timeout returns `SYS_ERR_TIMEOUT`.  The three loops that
  wait return as soon as `pthread_cond_timedwait` does not return 0, without another
  look at what they wait for.
-/

import AppCore.Channel.CallSteps

namespace AppCore
namespace Channel

variable {C K : Type*} {n : Nat}

/-- A call that waits for a limited time if it has to. -/
def Call.Timed : Call C n → Prop
  | .send _ _ timeoutMs => 0 < timeoutMs
  | .receive _ _ timeoutMs => 0 < timeoutMs
  | .poolWaitIdle timeoutMs => 0 < timeoutMs
  | _ => False

/-- The call has decided to return `SYS_ERR_TIMEOUT` after a limited time. -/
def CallState.TimedOut : CallState C n → Prop
  | .sendRelease _ _ timeoutMs ret _ => 0 < timeoutMs ∧ ret = .timeout
  | .returned call ret _ => call.Timed ∧ ret = .timeout
  | _ => False

/-- What the call would wait for is not there: the channel is open and full for a send,
    open and empty for a receive, and some buffer is in use. -/
def System.Lacks (s : System C K n) : Call C n → Prop
  | .send (some c) _ _ =>
    ∃ ch, s.channels c = .live ch ∧ ch.closed = false ∧ ch.count = ch.capacity
  | .receive (some c) _ _ => ∃ ch, s.channels c = .live ch ∧ ch.closed = false ∧ ch.count = 0
  | .poolWaitIdle _ => ∃ b, s.pool.count b ≠ 0
  | _ => False

/-- A step that times a call out only when what it waits for is not there. -/
def TrueTimeout (x : System C K n × Event C K n × System C K n) : Prop :=
  ∀ k call, ¬ (x.1.calls k).TimedOut → (x.2.2.calls k).TimedOut →
    (x.2.2.calls k).call = some call → x.1.Lacks call

/-- If the step is a limited wait that returns `ETIMEDOUT`, what the call waits for is not
    there when it has the mutex again. -/
def WaitsInVain (x : System C K n × Event C K n × System C K n) : Prop :=
  ∀ k call, x.2.1 = .wake k ETIMEDOUT → (x.1.calls k).call = some call → call.Timed →
    x.1.Lacks call

section Waits

variable {P : Platform} {ch : SysChannel n} {pool : Pool n} {timeoutMs ret : Int}

theorem sysErrorFromErrno_ne_timeout (h : ret ≠ ETIMEDOUT) : sysErrorFromErrno ret ≠ .timeout := by
  unfold sysErrorFromErrno
  simp only [if_neg h]
  repeat' apply ite_ne
  all_goals decide

/-- Only `ETIMEDOUT` becomes `SYS_ERR_TIMEOUT`. -/
theorem waitError_eq_timeout (h : waitError ret = .timeout) : ret = ETIMEDOUT := by
  by_contra hne
  rw [waitError, if_neg hne] at h
  exact sysErrorFromErrno_ne_timeout hne h

theorem waitResult_eq_timeout (h : waitResult ret = .timeout) : ret = ETIMEDOUT := by
  unfold waitResult at h
  split at h
  · cases h
  · exact waitError_eq_timeout h

/-- The loop of a receive with a limited wait does not time out by itself. -/
theorem receiveLoop_ne_timeout (ht : 0 < timeoutMs) (out : Option (Fin n)) :
    (receiveLoop P timeoutMs ch).2.1 ≠ .leave .timeout out := by
  have hne : timeoutMs ≠ 0 := by omega
  unfold receiveLoop waitForChannelState
  rw [if_neg hne]
  split
  · intro h
    cases h
  · split
    · intro h
      cases h
    · intro h
      cases h

theorem receiveWake_timeout (ht : 0 < timeoutMs) {out : Option (Fin n)}
    (h : (receiveWake P timeoutMs ret ch).2.1 = .leave .timeout out) : ret = ETIMEDOUT := by
  unfold receiveWake at h
  split at h
  · exact waitResult_eq_timeout (ReceiveOutcome.leave.inj h).1
  · exact absurd h (receiveLoop_ne_timeout ht out)

theorem waitIdleLoop_ne_timeout : waitIdleLoop timeoutMs pool ≠ some .timeout := by
  unfold waitIdleLoop
  split
  · split
    · intro h
      cases h
    · intro h
      cases h
  · intro h
    cases h

theorem waitIdleWake_timeout (h : waitIdleWake timeoutMs ret pool = some .timeout) :
    ret = ETIMEDOUT := by
  unfold waitIdleWake at h
  split at h
  · exact waitError_eq_timeout (Option.some.inj h)
  · exact absurd h waitIdleLoop_ne_timeout

end Waits

section Steps

variable [DecidableEq C] [DecidableEq K] {P : Platform} {s s' : System C K n}
  {e : Event C K n} {k : K}

omit [DecidableEq C] [DecidableEq K] in
theorem CallState.TimedOut.timed {st : CallState C n} {call : Call C n} (h : st.TimedOut)
    (hcall : st.call = some call) : call.Timed := by
  cases st with
  | sendRelease c buffer timeoutMs ret releases =>
      obtain rfl := Option.some.inj hcall
      exact h.1
  | returned call' ret out =>
      obtain rfl := Option.some.inj hcall
      exact h.1
  | _ => exact h.elim

omit [DecidableEq C] [DecidableEq K] in
/-- A section of a send times out only if it says so. -/
theorem afterSend_timedOut {c : C} {buffer : Fin n} {timeoutMs : Int} {ch : SysChannel n}
    {full timeout : Bool} {r : SysChannel n × SendOutcome n × List (Fifo.Obs (Fin n))}
    (hr : SendFails ch buffer full timeout r ∨ ∃ releases, r.2.1 = .leave .ok releases)
    (h : (afterSend c buffer timeoutMs r.2.1).TimedOut) : timeout = true := by
  rcases hr with hfails | ⟨releases, hok⟩
  · rcases hfails.outcome with ⟨hout, -⟩ | ⟨ret, -, hout, htimeout⟩
    · rw [hout] at h
      exact h.elim
    · rw [hout] at h
      exact htimeout.mp h.2
  · rw [hok] at h
    cases h.2

/-- A call does not time out in its first section. -/
theorem enter_not_timedOut {call : Call C n} (h : enter P s k call = some s') :
    ¬ (s'.calls k).TimedOut := by
  intro hout
  have htimed := hout.timed (enter_call h)
  have hset : ∀ (t : System C K n) st, ((t.setCall k st).calls k).TimedOut → st.TimedOut := by
    intro t st hst
    rwa [setCall_calls] at hst
  cases enter_cases h with
  | idle hloop =>
      obtain ⟨-, rfl⟩ := hset _ _ hout
      exact waitIdleLoop_ne_timeout hloop
  | idleWaits _ => exact hset _ _ hout
  | sendInvalid _ => cases (hset _ _ hout).2
  | sendRetained _ _ => exact hset _ _ hout
  | sendRefused _ hret hne =>
      obtain ⟨-, rfl⟩ := hset _ _ hout
      rcases (sysBufferRetain_refuses hret hne).2 with h | h | h <;> cases h
  | receiveInvalid _ => cases (hset _ _ hout).2
  | @receive c timeoutMs _ hsection =>
      cases hlive : s.channels c with
      | live ch =>
          rw [receiveSection_calls hlive hsection] at hout
          cases hloop : (receiveLoop P timeoutMs ch).2.1 with
          | wait =>
              rw [hloop] at hout
              exact hout
          | leave ret out =>
              rw [hloop] at hout
              obtain ⟨-, rfl⟩ := hout
              exact receiveLoop_ne_timeout htimed out hloop
      | _ => simp [System.receiveSection, hlive] at hsection
  | _ => exact htimed

/-- A call that goes on without having waited does not time out then. -/
theorem proceed_not_timedOut (hs : s.Sound P) (h : proceed P s k = some s')
    (hbefore : ¬ (s.calls k).TimedOut) : ¬ (s'.calls k).TimedOut := by
  intro hout
  have hcall := proceed_call h
  cases proceed_cases h with
  | @sendLock c buffer timeoutMs _ hk hsection =>
      obtain ⟨ch, hlive, rfl⟩ := sendSection_eq hsection
      have hvalid := hs.valid c ch (by rw [hlive]; rfl)
      change ((System.setCall _ k _).calls k).TimedOut at hout
      rw [setCall_calls] at hout
      cases afterSend_timedOut (sendEnter_result hvalid buffer timeoutMs) hout
  | sendReleases hk =>
      rw [hk] at hbefore
      rw [setCall_calls] at hout
      exact hbefore hout
  | sendReturns hk =>
      rw [hk] at hbefore
      rw [setCall_calls] at hout
      exact hbefore hout
  | tears hk _ _ =>
      rw [hk] at hcall
      exact hout.timed hcall
  | freed hk _ _ =>
      rw [hk] at hcall
      exact hout.timed hcall

/-- A wait times its call out only by `ETIMEDOUT`. -/
theorem wake_timedOut {ret : Int} (hs : s.Sound P) (h : wake P s k ret = some s')
    (hout : (s'.calls k).TimedOut) : ret = ETIMEDOUT := by
  have hcall := wake_call h
  cases wake_cases h with
  | @send c buffer dropped timeoutMs _ hk hsection =>
      have hund := hs.undropped k
      rw [hk] at hund
      obtain rfl : dropped = none := hund
      obtain ⟨ch, hlive, rfl⟩ := sendSection_eq hsection
      change ((System.setCall _ k _).calls k).TimedOut at hout
      rw [setCall_calls] at hout
      have htimeout := afterSend_timedOut (sendWake_result (P := P) ch buffer timeoutMs ret) hout
      exact waitResult_eq_timeout (of_decide_eq_true htimeout)
  | @receive c timeoutMs _ hk hsection =>
      rw [hk] at hcall
      have htimed : 0 < timeoutMs := hout.timed hcall
      cases hlive : s.channels c with
      | live ch =>
          rw [receiveSection_calls hlive hsection] at hout
          cases hwake : (receiveWake P timeoutMs ret ch).2.1 with
          | wait =>
              rw [hwake] at hout
              exact hout.elim
          | leave ret' out =>
              rw [hwake] at hout
              obtain ⟨-, rfl⟩ := hout
              exact receiveWake_timeout htimed hwake
      | _ => simp [System.receiveSection, hlive] at hsection
  | idle hk hwake =>
      rw [setCall_calls] at hout
      obtain ⟨-, rfl⟩ := hout
      exact waitIdleWake_timeout hwake
  | idleWaits hk _ =>
      rw [hk] at hout
      exact hout.elim

/-- A limited wait that returns `ETIMEDOUT` times its call out, whatever it finds. -/
theorem wake_etimedout (h : wake P s k ETIMEDOUT = some s') {call : Call C n}
    (hcall : (s.calls k).call = some call) (htimed : call.Timed) :
    ¬ (s.calls k).TimedOut ∧ (s'.calls k).TimedOut := by
  cases wake_cases h with
  | send hk hsection =>
      rw [hk] at hcall ⊢
      obtain rfl := Option.some.inj hcall
      obtain ⟨ch, hlive, rfl⟩ := sendSection_eq hsection
      refine ⟨id, ?_⟩
      change ((System.setCall _ k _).calls k).TimedOut
      rw [setCall_calls]
      exact ⟨htimed, rfl⟩
  | @receive c timeoutMs _ hk hsection =>
      rw [hk] at hcall ⊢
      obtain rfl := Option.some.inj hcall
      cases hlive : s.channels c with
      | live ch =>
          rw [receiveSection_calls hlive hsection]
          exact ⟨id, htimed, rfl⟩
      | _ => simp [System.receiveSection, hlive] at hsection
  | @idle timeoutMs err hk hwake =>
      rw [hk] at hcall ⊢
      obtain rfl := Option.some.inj hcall
      obtain rfl : SysErr.timeout = err := Option.some.inj hwake
      rw [setCall_calls]
      exact ⟨id, htimed, rfl⟩
  | idleWaits _ hwake => cases hwake

/-- A step times a call out truly exactly if a limited wait ends in vain in it. -/
theorem trueTimeout_iff_waitsInVain (hs : s.Sound P)
    (hstep : (channelMachine C K n P).step s e s') :
    TrueTimeout (s, e, s') ↔ WaitsInVain (s, e, s') := by
  have hnext : next P s e = some s' := hstep.1
  constructor
  · intro htrue k call he hcall htimed
    dsimp only at he hcall
    subst he
    obtain ⟨hbefore, hafter⟩ := wake_etimedout hnext hcall htimed
    exact htrue k call hbefore hafter ((wake_call hnext).trans hcall)
  · intro hvain k call hbefore hafter hcall
    dsimp only at hbefore hafter hcall
    obtain ⟨st, hmoves⟩ := next_acts hs hnext
    by_cases hk : k = e.actor
    · cases e with
      | call k' call' =>
          obtain rfl : k = k' := hk
          simp only [next] at hnext
          split at hnext
          · exact absurd hafter (enter_not_timedOut hnext)
          · cases hnext
      | proceed k' =>
          obtain rfl : k = k' := hk
          exact absurd hafter (proceed_not_timedOut hs hnext hbefore)
      | exchange k' spurious =>
          obtain rfl : k = k' := hk
          -- a retain has no limit
          obtain ⟨c, hretain⟩ := exchange_retain hnext
          exact (hafter.timed ((exchange_call hnext).trans hretain)).elim
      | wake k' ret =>
          obtain rfl : k = k' := hk
          obtain rfl := wake_timedOut hs hnext hafter
          exact hvain k call rfl ((wake_call hnext).symm.trans hcall) (hafter.timed hcall)
    · rw [hmoves.calls, Function.update_of_ne hk] at hafter
      exact absurd hafter hbefore

end Steps

/-- In a run every timeout is true exactly if every limited wait that returns `ETIMEDOUT`
    has been in vain. -/
theorem timeouts_true_iff [DecidableEq C] [DecidableEq K] {P : Platform} {s : System C K n}
    {p : List (System C K n × Event C K n × System C K n)}
    (h : (channelMachine C K n P).Path p s) :
    (∀ x ∈ p, TrueTimeout x) ↔ ∀ x ∈ p, WaitsInVain x := by
  have hiff : ∀ x ∈ p, (TrueTimeout x ↔ WaitsInVain x) := by
    intro x hx
    obtain ⟨hreach, hstep⟩ := h.step_of_mem hx
    exact trueTimeout_iff_waitsInVain (sound_of_reachable hreach) hstep
  exact ⟨fun hall x hx => (hiff x hx).mp (hall x hx), fun hall x hx => (hiff x hx).mpr (hall x hx)⟩

/-- A receive that times out on a channel that stays empty. -/
theorem timeouts_true_iff_empty :
    ∃ (p : List (System Unit (Fin 5) 1 × Event Unit (Fin 5) 1 × System Unit (Fin 5) 1))
      (s : System Unit (Fin 5) 1), (channelMachine Unit (Fin 5) 1 Platform.lp64).Path p s ∧
        s.calls 1 = .returned (.receive (some ()) true 10) .timeout none ∧
          ∀ x ∈ p, TrueTimeout x := by
  have hrun : ∃ s₁ s₂ s₃ : System Unit (Fin 5) 1,
      next Platform.lp64 System.sample (.call 0 (.create () (some ⟨1, 0⟩) true .ok)) = some s₁ ∧
      next Platform.lp64 s₁ (.call 1 (.receive (some ()) true 10)) = some s₂ ∧
      next Platform.lp64 s₂ (.wake 1 ETIMEDOUT) = some s₃ ∧
      s₂.calls 1 = .receiveWait () 10 ∧ (∃ ch, s₂.channels () = .live ch ∧ ch.closed = false ∧
        ch.count = 0) ∧ s₃.calls 1 = .returned (.receive (some ()) true 10) .timeout none :=
    ⟨_, _, _, rfl, rfl, rfl, rfl, ⟨_, rfl, rfl, rfl⟩, rfl⟩
  obtain ⟨s₁, s₂, s₃, h₁, h₂, h₃, hwait, hempty, hout⟩ := hrun
  have t₁ : (channelMachine Unit (Fin 5) 1 Platform.lp64).step System.sample _ s₁ := ⟨h₁, trivial⟩
  have t₂ : (channelMachine Unit (Fin 5) 1 Platform.lp64).step s₁ _ s₂ := ⟨h₂, trivial⟩
  have t₃ : (channelMachine Unit (Fin 5) 1 Platform.lp64).step s₂ _ s₃ := ⟨h₃, trivial⟩
  have hpath := (((Machine.Path.start System.sample_fresh).snoc t₁).snoc t₂).snoc t₃
  refine ⟨_, s₃, hpath, hout, (timeouts_true_iff hpath).mpr fun x hx => ?_⟩
  simp only [List.nil_append, List.cons_append, List.mem_cons, List.not_mem_nil, or_false] at hx
  rcases hx with rfl | rfl | rfl
  · intro k call he
    cases he
  · intro k call he
    cases he
  · intro k call he hcall _
    cases he
    have hcall : (s₂.calls 1).call = some call := hcall
    rw [hwait] at hcall
    obtain rfl := Option.some.inj hcall
    exact hempty

/-- Two receives wait, and a send puts a buffer into the queue.  The first receive is
    still to resume when the wait of the second one ends with `ETIMEDOUT`: it returns
    `SYS_ERR_TIMEOUT` next to the buffer. -/
theorem receive_times_out_beside_buffer :
    ∃ (s s' : System Unit (Fin 5) 1) (ch : SysChannel 1),
      (channelMachine Unit (Fin 5) 1 Platform.lp64).Reachable s ∧
      (channelMachine Unit (Fin 5) 1 Platform.lp64).step s (.wake 3 ETIMEDOUT) s' ∧
      s'.calls 3 = .returned (.receive (some ()) true 10) .timeout none ∧
      s.channels () = .live ch ∧ ch.closed = false ∧ ch.items = [0] ∧
      ¬ TrueTimeout (s, Event.wake 3 ETIMEDOUT, s') := by
  have hlast : Machine.Along (next Platform.lp64) LastRelease System.sample
      [.call 0 (.create () (some ⟨1, 0⟩) true .ok), .call 1 (.bufferAcquire true),
        .call 2 (.receive (some ()) true 10), .call 3 (.receive (some ()) true 10),
        .call 4 (.send (some ()) (some 0) 0), .proceed 4] := by
    exact ⟨trivial, fun _ _ => ⟨trivial, fun _ _ => ⟨trivial, fun _ _ => ⟨trivial, fun _ _ =>
      ⟨trivial, fun _ _ => ⟨trivial, fun _ _ => trivial⟩⟩⟩⟩⟩⟩
  have hexec : ∃ s, Machine.exec (next Platform.lp64) System.sample
      [.call 0 (.create () (some ⟨1, 0⟩) true .ok), .call 1 (.bufferAcquire true),
        .call 2 (.receive (some ()) true 10), .call 3 (.receive (some ()) true 10),
        .call 4 (.send (some ()) (some 0) 0), .proceed 4] = some s ∧
      ∃ s' ch, next Platform.lp64 s (.wake 3 ETIMEDOUT) = some s' ∧
        s.calls 3 = .receiveWait () 10 ∧
        s'.calls 3 = .returned (.receive (some ()) true 10) .timeout none ∧
        s.channels () = .live ch ∧ ch.closed = false ∧ ch.items = [0] ∧ ch.count = 1 :=
    ⟨_, rfl, _, _, rfl, rfl, rfl, rfl, rfl, rfl, rfl⟩
  obtain ⟨s, hexec, s', ch, hstep, hwait, hout, hlive, hopen, hitems, hcount⟩ := hexec
  refine ⟨s, s', ch, ⟨_, _, System.sample_fresh, Machine.Run.of_exec_along hexec hlast⟩,
    ⟨hstep, trivial⟩, hout, hlive, hopen, hitems, fun htrue => ?_⟩
  have hbefore : ¬ (s.calls 3).TimedOut := by
    rw [hwait]
    exact id
  have hafter : (s'.calls 3).TimedOut := by
    rw [hout]
    exact ⟨show (0 : Int) < 10 by decide, rfl⟩
  obtain ⟨ch', hlive', -, hempty⟩ := htrue 3 _ hbefore hafter (by rw [hout]; rfl)
  have hlive' : s.channels () = .live ch' := hlive'
  obtain rfl := ChannelSlot.live.inj (hlive.symm.trans hlive')
  rw [hcount] at hempty
  cases hempty

end Channel
end AppCore
