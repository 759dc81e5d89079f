/-
  AppCore.Channel.Sections

  What an atomic step does to one channel.  Either the acting call runs one of the
  critical sections of that channel, or the channel is as before and the acting call
  was not about to enter it and does not wait on it now, or the channel was created.  The sleepers
  of `Wakeup` and the counters of `Statistics` are followed through `next_acts`.
-/

import AppCore.Channel.Delivery

namespace AppCore
namespace Channel

variable {C K : Type*} {n : Nat}

/-- The call that takes a step. -/
def Event.actor : Event C K n → K
  | .call k _ => k
  | .proceed k => k
  | .exchange k _ => k
  | .wake k _ => k

/-- The call waits on `not_empty` of the channel `c`. -/
def CallState.OnNotEmpty (c : C) : CallState C n → Prop
  | .receiveWait c' _ => c' = c
  | _ => False

/-- The call waits on `not_full` of the channel `c`. -/
def CallState.OnNotFull (c : C) : CallState C n → Prop
  | .sendWait c' _ _ _ => c' = c
  | _ => False

/-- The call waits on a condition variable of the channel `c`. -/
def CallState.Waits (c : C) (st : CallState C n) : Prop := st.OnNotEmpty c ∨ st.OnNotFull c

/-- The next step of the call is a critical section of the channel `c`. -/
def CallState.At (c : C) : CallState C n → Prop
  | .sendLock c' _ _ => c' = c
  | .sendWait c' _ _ _ => c' = c
  | .receiveWait c' _ => c' = c
  | _ => False

theorem CallState.Waits.at {c : C} {st : CallState C n} (h : st.Waits c) : st.At c := by
  cases st with
  | sendWait c' buffer dropped timeoutMs => exact h.elim (fun h => h.elim) id
  | receiveWait c' timeoutMs => exact h.elim id fun h => h.elim
  | _ => exact (h.elim id id).elim

theorem CallState.Waits.uses {c : C} {st : CallState C n} (h : st.Waits c) : st.Uses c := by
  cases st with
  | sendWait c' buffer dropped timeoutMs => exact h.elim (fun h => h.elim) id
  | receiveWait c' timeoutMs => exact h.elim id fun h => h.elim
  | _ => exact (h.elim id id).elim

/-- Where a call is after a section of a send. -/
def afterSend (c : C) (buffer : Fin n) (timeoutMs : Int) : SendOutcome n → CallState C n
  | .wait dropped => .sendWait c buffer dropped timeoutMs
  | .leave ret releases => .sendRelease c buffer timeoutMs ret releases

/-- A section of the channel `c`: its event, the call and the channel before it, the call
    and the channel after it, and what it did to the queue. -/
inductive Acts (P : Platform) (c : C) : Event C K n → CallState C n → SysChannel n →
    CallState C n → SysChannel n → List (Fifo.Obs (Fin n)) → Prop
  | sendEnter {k buffer timeoutMs ch r} : sendEnter P buffer timeoutMs ch = r →
      Acts P c (.proceed k) (.sendLock c buffer timeoutMs) ch
        (afterSend c buffer timeoutMs r.2.1) r.1 r.2.2
  | sendWake {k buffer timeoutMs ret ch r} : sendWake P buffer none timeoutMs ret ch = r →
      Acts P c (.wake k ret) (.sendWait c buffer none timeoutMs) ch
        (afterSend c buffer timeoutMs r.2.1) r.1 r.2.2
  | receiveEnter {k timeoutMs ch r} : receiveLoop P timeoutMs ch = r →
      Acts P c (.call k (.receive (some c) true timeoutMs)) .notStarted ch
        (afterReceive c timeoutMs r.2.1) r.1 r.2.2
  | receiveWake {k timeoutMs ret ch r} : receiveWake P timeoutMs ret ch = r →
      Acts P c (.wake k ret) (.receiveWait c timeoutMs) ch
        (afterReceive c timeoutMs r.2.1) r.1 r.2.2
  | close {k ch} :
      Acts P c (.call k (.close (some c))) .notStarted ch
        (.returned (.close (some c)) .ok none) (sysChannelClose ch) []
  /-- `sys_channel_retain` and `sys_channel_release` change the reference count only. -/
  | references {e st st' ch references} : ¬ st.At c → ¬ st'.Waits c →
      Acts P c e st ch st' { ch with referenceCount := references } []

/-- What a step from `s` to `s'`, which takes the acting call to `st`, means for a channel
    that is live after it. -/
inductive ActsOn [DecidableEq C] (P : Platform) (s : System C K n) (e : Event C K n)
    (s' : System C K n) (st : CallState C n) (c : C) (ch' : SysChannel n) : Prop
  | acts {ch os} : s.channels c = .live ch → Acts P c e (s.calls e.actor) ch st ch' os →
      s'.obs c = s.obs c ++ os → ActsOn P s e s' st c ch'
  | idle : s.channels c = .live ch' → s'.obs c = s.obs c → ¬ (s.calls e.actor).At c →
      ¬ st.Waits c → ActsOn P s e s' st c ch'
  | created {config environment} : s.channels c = .absent → s'.obs c = s.obs c →
      sysChannelCreateWithConfig P config true environment = (.ok, some ch') →
      ¬ st.Waits c → ActsOn P s e s' st c ch'

section Inversion

variable [DecidableEq C] [DecidableEq K] {P : Platform} {s s' : System C K n}
  {e : Event C K n} {k : K} {st : CallState C n}

/-- The step moves the acting call to `st`, and is a section of every channel it wrote. -/
structure Moves (P : Platform) (s : System C K n) (e : Event C K n) (s' : System C K n)
    (st : CallState C n) : Prop where
  calls : s'.calls = Function.update s.calls e.actor st
  acts : ∀ c ch', s'.channels c = .live ch' → ActsOn P s e s' st c ch'

omit [DecidableEq K] in
theorem obs_of_record (hrec : s'.record = s.record) (c : C) : s'.obs c = s.obs c := by
  rw [System.obs, System.obs, hrec]

/-- A step that writes no channel. -/
theorem Moves.quiet (hcalls : s'.calls = Function.update s.calls e.actor st)
    (hchannels : s'.channels = s.channels) (hrec : s'.record = s.record)
    (hbefore : ∀ c, ¬ (s.calls e.actor).At c) (hafter : ∀ c, ¬ st.Waits c) :
    Moves P s e s' st := by
  refine ⟨hcalls, fun c ch' hlive => ?_⟩
  rw [hchannels] at hlive
  exact ActsOn.idle hlive (obs_of_record hrec c) (hbefore c) (hafter c)

/-- A step that writes one channel, and waited for no other. -/
theorem Moves.write {c : C} {slot : ChannelSlot n} {os : List (Fifo.Obs (Fin n))}
    (hcalls : s'.calls = Function.update s.calls e.actor st)
    (hchannels : s'.channels = Function.update s.channels c slot)
    (hrec : s'.record = s.record ++ os.map fun o => (e.actor, c, o))
    (hbefore : ∀ c', (s.calls e.actor).At c' → c' = c) (hafter : ∀ c', st.Waits c' → c' = c)
    (hslot : ∀ ch', slot = .live ch' → s'.obs c = s.obs c ++ os → ActsOn P s e s' st c ch') :
    Moves P s e s' st := by
  refine ⟨hcalls, fun c' ch' hlive => ?_⟩
  have hobs := obs_append hrec c'
  rw [hchannels] at hlive
  by_cases hc : c = c'
  · subst hc
    rw [Function.update_self] at hlive
    rw [if_pos rfl] at hobs
    exact hslot ch' hlive hobs
  · rw [Function.update_of_ne (Ne.symm hc)] at hlive
    rw [if_neg hc, List.append_nil] at hobs
    exact ActsOn.idle hlive hobs (fun hw => hc (hbefore c' hw).symm)
      (fun hw => hc (hafter c' hw).symm)

omit [DecidableEq C] in
theorem afterSend_waits {c c' : C} {buffer : Fin n} {timeoutMs : Int} {outcome : SendOutcome n}
    (h : (afterSend c buffer timeoutMs outcome).Waits c') : c' = c := by
  cases outcome with
  | wait dropped => exact h.elim (fun h => h.elim) Eq.symm
  | leave ret releases => exact h.elim (fun h => h.elim) fun h => h.elim

omit [DecidableEq C] in
theorem afterReceive_waits {c c' : C} {timeoutMs : Int} {outcome : ReceiveOutcome n}
    (h : (afterReceive c timeoutMs outcome).Waits c') : c' = c := by
  cases outcome with
  | wait => exact h.elim Eq.symm fun h => h.elim
  | leave ret out => exact h.elim (fun h => h.elim) fun h => h.elim

omit [DecidableEq C] [DecidableEq K] in
theorem not_at_notStarted (hk : s.calls k = .notStarted) (c : C) :
    ¬ (s.calls k).At c := by
  rw [hk]
  exact id

omit [DecidableEq C] [DecidableEq K] in
theorem not_waits_returned {call : Call C n} {ret : SysErr} {out : Option (Fin n)} (c : C) :
    ¬ (CallState.returned call ret out).Waits c := fun h => h.elim id id

/-- A section of a send. -/
theorem sendSection_moves {c : C} {buffer : Fin n} {timeoutMs : Int}
    {run : SysChannel n → SysChannel n × SendOutcome n × List (Fifo.Obs (Fin n))}
    (hbefore : ∀ c', (s.calls e.actor).At c' → c' = c)
    (hacts : ∀ ch, Acts P c e (s.calls e.actor) ch (afterSend c buffer timeoutMs (run ch).2.1)
      (run ch).1 (run ch).2.2)
    (h : s.sendSection e.actor c buffer timeoutMs run = some s') :
    ∃ st, Moves P s e s' st := by
  unfold System.sendSection at h
  cases hlive : s.channels c with
  | absent => simp [hlive] at h
  | dying ch i => simp [hlive] at h
  | freed => simp [hlive] at h
  | live ch =>
      have hact := hacts ch
      simp only [hlive, Option.some.injEq] at h
      generalize run ch = r at h hact
      obtain ⟨ch₁, outcome, os⟩ := r
      subst h
      refine ⟨afterSend c buffer timeoutMs outcome, Moves.write ?_ rfl rfl
        hbefore (fun c' => afterSend_waits) ?_⟩
      · cases outcome with
        | wait dropped => rfl
        | leave ret releases => rfl
      · intro ch' hslot hobs
        obtain rfl : ch₁ = ch' := ChannelSlot.live.inj hslot
        exact ActsOn.acts hlive hact hobs

/-- A section of a receive. -/
theorem receiveSection_moves {c : C} {timeoutMs : Int}
    {run : SysChannel n → SysChannel n × ReceiveOutcome n × List (Fifo.Obs (Fin n))}
    (hbefore : ∀ c', (s.calls e.actor).At c' → c' = c)
    (hacts : ∀ ch, Acts P c e (s.calls e.actor) ch (afterReceive c timeoutMs (run ch).2.1)
      (run ch).1 (run ch).2.2)
    (h : s.receiveSection e.actor c timeoutMs run = some s') : ∃ st, Moves P s e s' st := by
  unfold System.receiveSection at h
  cases hlive : s.channels c with
  | absent => simp [hlive] at h
  | dying ch i => simp [hlive] at h
  | freed => simp [hlive] at h
  | live ch =>
      have hact := hacts ch
      simp only [hlive] at h
      generalize run ch = r at h hact
      obtain ⟨ch₁, outcome, os⟩ := r
      -- the two ends differ in what the caller holds, which no channel shows
      have hsection : ∀ t : System C K n,
          t.calls = Function.update s.calls e.actor (afterReceive c timeoutMs outcome) →
          t.channels = Function.update s.channels c (.live ch₁) →
          t.record = s.record ++ os.map (fun o => (e.actor, c, o)) →
          Moves P s e t (afterReceive c timeoutMs outcome) := by
        intro t hcalls hchannels hrec
        refine Moves.write hcalls hchannels hrec hbefore (fun c' => afterReceive_waits) ?_
        intro ch' hslot hobs
        obtain rfl : ch₁ = ch' := ChannelSlot.live.inj hslot
        exact ActsOn.acts hlive hact hobs
      cases outcome with
      | wait =>
          simp only [Option.some.injEq] at h
          subst h
          exact ⟨_, hsection _ rfl rfl rfl⟩
      | leave ret out =>
          simp only [Option.some.injEq] at h
          subst h
          exact ⟨_, hsection _ rfl rfl rfl⟩

/-- A step that writes one channel and moves nothing through it. -/
theorem Moves.set {c : C} {slot : ChannelSlot n}
    (hcalls : s'.calls = Function.update s.calls e.actor st)
    (hchannels : s'.channels = Function.update s.channels c slot) (hrec : s'.record = s.record)
    (hbefore : ∀ c', ¬ (s.calls e.actor).At c') (hafter : ∀ c', ¬ st.Waits c')
    (hslot : ∀ ch', slot = .live ch' → s'.obs c = s.obs c → ActsOn P s e s' st c ch') :
    Moves P s e s' st := by
  have hrec' : s'.record = s.record ++ [].map fun o => (e.actor, c, o) := by
    rw [hrec, List.map_nil, List.append_nil]
  refine Moves.write hcalls hchannels hrec' (fun c' hw => (hbefore c' hw).elim)
    (fun c' hw => (hafter c' hw).elim) fun ch' hlive hobs => ?_
  rw [List.append_nil] at hobs
  exact hslot ch' hlive hobs

/-- A write of the reference count. -/
theorem Moves.references {c : C} {ch : SysChannel n} {references : Nat}
    (hcalls : s'.calls = Function.update s.calls e.actor st)
    (hlive : s.channels c = .live ch)
    (hchannels : s'.channels =
      Function.update s.channels c (.live { ch with referenceCount := references }))
    (hrec : s'.record = s.record)
    (hbefore : ∀ c', ¬ (s.calls e.actor).At c') (hafter : ∀ c', ¬ st.Waits c') :
    Moves P s e s' st := by
  refine Moves.set hcalls hchannels hrec hbefore hafter fun ch' hslot hobs => ?_
  obtain rfl := ChannelSlot.live.inj hslot
  exact ActsOn.acts hlive (Acts.references (hbefore c) (hafter c))
    (hobs.trans (List.append_nil _).symm)

/-! ## The steps -/

/-- `sys_channel_retain` at the head of its loop. -/
theorem retainSection_moves {c : C} {ch : SysChannel n} {references references' : Nat}
    (hlive : s.channels c = .live ch) (hbefore : ∀ c', ¬ (s.calls e.actor).At c')
    (h : (s.setChannel c (.live { ch with referenceCount := references })).retainSection P
      e.actor c references' = s') : ∃ st, Moves P s e s' st := by
  unfold System.retainSection at h
  cases hloop : channelRetainLoop P references' with
  | some ret =>
      simp only [hloop] at h
      subst h
      exact ⟨_, Moves.references rfl hlive rfl rfl hbefore not_waits_returned⟩
  | none =>
      simp only [hloop] at h
      subst h
      exact ⟨_, Moves.references rfl hlive rfl rfl hbefore fun c' h => h.elim id id⟩

/-- A call that returns in its first section and writes no channel. -/
theorem Moves.answer {call : Call C n} {ret : SysErr} {out : Option (Fin n)}
    (hk : s.calls e.actor = .notStarted)
    (hcalls : s'.calls = Function.update s.calls e.actor (.returned call ret out))
    (hchannels : s'.channels = s.channels) (hrec : s'.record = s.record) :
    ∃ st, Moves P s e s' st :=
  ⟨_, Moves.quiet hcalls hchannels hrec (not_at_notStarted hk) not_waits_returned⟩

theorem enter_moves {call : Call C n} (hk : s.calls k = .notStarted)
    (h : enter P s k call = some s') : ∃ st, Moves P s (.call k call) s' st := by
  have hbefore := not_at_notStarted hk
  cases enter_cases h with
  | bufferAcquire _ => exact Moves.answer hk rfl rfl rfl
  | bufferRetain _ => exact Moves.answer hk rfl rfl rfl
  | bufferRelease => exact Moves.answer hk rfl rfl rfl
  | idle _ => exact Moves.answer hk rfl rfl rfl
  | idleWaits _ => exact ⟨_, Moves.quiet rfl rfl rfl hbefore fun c' h => h.elim id id⟩
  | @created c config outChannel environment ret ch habsent hcreate =>
      have hout : outChannel = true := by
        cases outChannel with
        | true => rfl
        | false => cases hcreate
      subst hout
      refine ⟨_, Moves.set rfl rfl rfl hbefore not_waits_returned fun ch' hlive hobs => ?_⟩
      obtain rfl : ch = ch' := ChannelSlot.live.inj hlive
      obtain rfl : ret = .ok := by
        rcases sysChannelCreateWithConfig_spec (n := n) P config true environment with
          ⟨ch', config', -, heq, -⟩ | ⟨ret', -, heq⟩
        · rw [hcreate] at heq
          exact congrArg Prod.fst heq
        · rw [hcreate] at heq
          cases heq
      exact ActsOn.created habsent hobs hcreate (not_waits_returned c)
  | notCreated _ _ => exact Moves.answer hk rfl rfl rfl
  | sendInvalid _ => exact Moves.answer hk rfl rfl rfl
  | sendRetained _ _ => exact ⟨_, Moves.quiet rfl rfl rfl hbefore fun c' h => h.elim id id⟩
  | sendRefused _ _ _ => exact Moves.answer hk rfl rfl rfl
  | receiveInvalid _ => exact Moves.answer hk rfl rfl rfl
  | @receive c timeoutMs _ hsection =>
      refine receiveSection_moves (c := c) (fun c' hw => (hbefore c' hw).elim) (fun ch => ?_)
        hsection
      simp only [Event.actor, hk]
      exact Acts.receiveEnter rfl
  | close hlive =>
      refine ⟨_, Moves.set rfl rfl rfl hbefore not_waits_returned fun ch' hslot hobs => ?_⟩
      obtain rfl := ChannelSlot.live.inj hslot
      refine ActsOn.acts hlive ?_ (hobs.trans (List.append_nil _).symm)
      simp only [Event.actor, hk]
      exact Acts.close
  | closeNull => exact Moves.answer hk rfl rfl rfl
  | @retain c ch hlive =>
      have hself : (s.setChannel c (.live ch)).retainSection P k c ch.referenceCount =
          s.retainSection P k c ch.referenceCount := by
        rw [setChannel_self hlive]
      exact retainSection_moves hlive hbefore hself
  | retainNull => exact Moves.answer hk rfl rfl rfl
  | release hlive hsub _ =>
      obtain ⟨-, heq⟩ := channelFetchSub_withReferences hsub
      rw [heq]
      exact ⟨_, Moves.references rfl hlive rfl rfl hbefore not_waits_returned⟩
  | lastRelease _ _ =>
      refine ⟨_, Moves.set rfl rfl rfl hbefore (fun c' hw => hw.elim id id) fun ch' hslot => ?_⟩
      cases hslot
  | releaseNull => exact Moves.answer hk rfl rfl rfl

theorem proceed_moves (h : proceed P s k = some s') : ∃ st, Moves P s (.proceed k) s' st := by
  cases proceed_cases h with
  | @sendLock c buffer timeoutMs _ hk hsection =>
      refine sendSection_moves (e := .proceed k) (c := c) ?_ (fun ch => ?_) hsection
      · intro c' hw
        simp only [Event.actor, hk] at hw
        exact hw.symm
      · simp only [Event.actor, hk]
        exact Acts.sendEnter rfl
  | sendReleases hk =>
      have hbefore : ∀ c', ¬ (s.calls k).At c' := fun c' hw => by
        rw [hk] at hw
        exact hw
      exact ⟨_, Moves.quiet rfl rfl rfl hbefore fun c' h => h.elim id id⟩
  | sendReturns hk =>
      have hbefore : ∀ c', ¬ (s.calls k).At c' := fun c' hw => by
        rw [hk] at hw
        exact hw
      exact ⟨_, Moves.quiet rfl rfl rfl hbefore not_waits_returned⟩
  | @tears c ch i hk _ _ =>
      have hbefore : ∀ c', ¬ (s.calls k).At c' := fun c' hw => by
        rw [hk] at hw
        exact hw
      refine ⟨s.calls k, Moves.set (c := c) (Function.update_eq_self ..).symm rfl rfl
        hbefore (fun c' hw => hbefore c' hw.at) fun ch' hslot => ?_⟩
      cases hslot
  | @freed c ch i hk _ _ =>
      have hbefore : ∀ c', ¬ (s.calls k).At c' := fun c' hw => by
        rw [hk] at hw
        exact hw
      refine ⟨_, Moves.set (c := c) rfl rfl rfl hbefore not_waits_returned
        fun ch' hslot => ?_⟩
      cases hslot

theorem exchange_moves {spurious : Bool} (h : exchange P s k spurious = some s') :
    ∃ st, Moves P s (.exchange k spurious) s' st := by
  have hbefore : ∀ c references, s.calls k = .retaining c references →
      ∀ c', ¬ (s.calls k).At c' := by
    intro c references hk c' hw
    rw [hk] at hw
    exact hw
  cases exchange_cases h with
  | exchanged hk hlive _ =>
      exact ⟨_, Moves.references rfl hlive rfl rfl (hbefore _ _ hk) not_waits_returned⟩
  | again hk hlive _ => exact retainSection_moves hlive (hbefore _ _ hk) rfl

theorem wake_moves {ret : Int} (hs : s.Sound P) (h : wake P s k ret = some s') :
    ∃ st, Moves P s (.wake k ret) s' st := by
  cases wake_cases h with
  | @send c buffer dropped timeoutMs _ hk hsection =>
      have hund := hs.undropped k
      rw [hk] at hund
      obtain rfl : dropped = none := hund
      refine sendSection_moves (e := .wake k ret) (c := c) ?_ (fun ch => ?_) hsection
      · intro c' hw
        simp only [Event.actor, hk] at hw
        exact hw.symm
      · simp only [Event.actor, hk]
        exact Acts.sendWake rfl
  | @receive c timeoutMs _ hk hsection =>
      refine receiveSection_moves (e := .wake k ret) (c := c) ?_ (fun ch => ?_) hsection
      · intro c' hw
        simp only [Event.actor, hk] at hw
        exact hw.symm
      · simp only [Event.actor, hk]
        exact Acts.receiveWake rfl
  | idle hk _ =>
      have hbefore : ∀ c', ¬ (s.calls k).At c' := fun c' hw => by
        rw [hk] at hw
        exact hw
      exact ⟨_, Moves.quiet rfl rfl rfl hbefore not_waits_returned⟩
  | idleWaits hk _ =>
      have hbefore : ∀ c', ¬ (s.calls k).At c' := fun c' hw => by
        rw [hk] at hw
        exact hw
      exact ⟨s.calls k, Moves.quiet (Function.update_eq_self ..).symm rfl rfl hbefore
        fun c' hw => hbefore c' hw.at⟩

/-- Every step moves its acting call, and is a section of each channel it writes. -/
theorem next_acts (hs : s.Sound P) (h : next P s e = some s') : ∃ st, Moves P s e s' st := by
  cases e with
  | call k call =>
      simp only [next] at h
      by_cases hk : s.calls k = .notStarted
      · rw [if_pos hk] at h
        exact enter_moves hk h
      · rw [if_neg hk] at h
        cases h
  | proceed k => exact proceed_moves h
  | exchange k spurious => exact exchange_moves h
  | wake k ret => exact wake_moves hs h

end Inversion

end Channel
end AppCore
