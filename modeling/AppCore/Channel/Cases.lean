/-
  AppCore.Channel.Cases

  The sections of a call case by case: what each of them finds, and the system it leaves.
-/

import AppCore.Channel.System

namespace AppCore
namespace Channel

variable {C K : Type*} {n : Nat} [DecidableEq C] [DecidableEq K]

/-- The first section of a call: what it finds, and the system it leaves. -/
inductive EnterStep (P : Platform) (s : System C K n) (k : K) : Call C n → System C K n → Prop
  | bufferAcquire {outBuffer pool out} {ret : SysErr} :
      sysBufferAcquire P outBuffer s.pool = (ret, pool, out) →
      EnterStep P s k (.bufferAcquire outBuffer)
        (({ s with pool := pool, held := gain s.held out }).setCall k
          (.returned (.bufferAcquire outBuffer) ret out))
  | bufferRetain {buffer pool} {ret : SysErr} : sysBufferRetain P buffer s.pool = (ret, pool) →
      EnterStep P s k (.bufferRetain buffer)
        (({ s with
            pool := pool
            held := if ret = SysErr.ok then gain s.held buffer else s.held }).setCall k
          (.returned (.bufferRetain buffer) ret none))
  | bufferRelease {buffer} :
      EnterStep P s k (.bufferRelease buffer)
        (({ s with pool := sysBufferRelease P buffer s.pool, held := lose s.held buffer }).setCall k
          (.returned (.bufferRelease buffer) .ok none))
  | idle {timeoutMs ret} : waitIdleLoop timeoutMs s.pool = some ret →
      EnterStep P s k (.poolWaitIdle timeoutMs)
        (s.setCall k (.returned (.poolWaitIdle timeoutMs) ret none))
  | idleWaits {timeoutMs} : waitIdleLoop timeoutMs s.pool = none →
      EnterStep P s k (.poolWaitIdle timeoutMs) (s.setCall k (.idleWait timeoutMs))
  | created {c config outChannel environment ret ch} : s.channels c = .absent →
      sysChannelCreateWithConfig P config outChannel environment = (ret, some ch) →
      EnterStep P s k (.create c config outChannel environment)
        ((s.setChannel c (.live ch)).setCall k
          (.returned (.create c config outChannel environment) ret none))
  | notCreated {c config outChannel environment ret} : s.channels c = .absent →
      sysChannelCreateWithConfig (n := n) P config outChannel environment = (ret, none) →
      EnterStep P s k (.create c config outChannel environment)
        (s.setCall k (.returned (.create c config outChannel environment) ret none))
  /-- A parameter is `NULL`. -/
  | sendInvalid {channel buffer timeoutMs} : channel = none ∨ buffer = none →
      EnterStep P s k (.send channel buffer timeoutMs)
        (s.setCall k (.returned (.send channel buffer timeoutMs) .invalidParam none))
  | sendRetained {c buffer timeoutMs ch pool} : s.channels c = .live ch →
      sysBufferRetain P (some buffer) s.pool = (.ok, pool) →
      EnterStep P s k (.send (some c) (some buffer) timeoutMs)
        (({ s with pool := pool }).setCall k (.sendLock c buffer timeoutMs))
  | sendRefused {c buffer timeoutMs ch pool} {ret : SysErr} : s.channels c = .live ch →
      sysBufferRetain P (some buffer) s.pool = (ret, pool) → ret ≠ .ok →
      EnterStep P s k (.send (some c) (some buffer) timeoutMs)
        (({ s with pool := pool }).setCall k
          (.returned (.send (some c) (some buffer) timeoutMs) ret none))
  /-- A parameter is `NULL`. -/
  | receiveInvalid {channel outBuffer timeoutMs} : channel = none ∨ outBuffer = false →
      EnterStep P s k (.receive channel outBuffer timeoutMs)
        (s.setCall k (.returned (.receive channel outBuffer timeoutMs) .invalidParam none))
  | receive {c timeoutMs s'} :
      s.receiveSection k c timeoutMs (receiveLoop P timeoutMs) = some s' →
      EnterStep P s k (.receive (some c) true timeoutMs) s'
  | close {c ch} : s.channels c = .live ch →
      EnterStep P s k (.close (some c))
        ((s.setChannel c (.live (sysChannelClose ch))).setCall k
          (.returned (.close (some c)) .ok none))
  | closeNull :
      EnterStep P s k (.close none) (s.setCall k (.returned (.close none) .ok none))
  | retain {c ch} : s.channels c = .live ch →
      EnterStep P s k (.retain (some c)) (s.retainSection P k c ch.referenceCount)
  | retainNull :
      EnterStep P s k (.retain none) (s.setCall k (.returned (.retain none) .invalidParam none))
  | release {c ch ch' references} : s.channels c = .live ch →
      channelFetchSub P ch = (references, ch') → references ≠ 1 →
      EnterStep P s k (.release (some c))
        ((s.setChannel c (.live ch')).setCall k (.returned (.release (some c)) .ok none))
  | lastRelease {c ch ch'} : s.channels c = .live ch → channelFetchSub P ch = (1, ch') →
      EnterStep P s k (.release (some c))
        ((s.setChannel c (.dying ch' 0)).setCall k (.tearingDown c))
  | releaseNull :
      EnterStep P s k (.release none) (s.setCall k (.returned (.release none) .ok none))

/-- The next section of the call `k`. -/
inductive ProceedStep (P : Platform) (s : System C K n) (k : K) : System C K n → Prop
  | sendLock {c buffer timeoutMs s'} : s.calls k = .sendLock c buffer timeoutMs →
      s.sendSection k c buffer timeoutMs (sendEnter P buffer timeoutMs) = some s' →
      ProceedStep P s k s'
  | sendReleases {c buffer timeoutMs ret x rest} :
      s.calls k = .sendRelease c buffer timeoutMs ret (x :: rest) →
      ProceedStep P s k (({ s with pool := sysBufferRelease P (some x) s.pool }).setCall k
        (.sendRelease c buffer timeoutMs ret rest))
  | sendReturns {c buffer timeoutMs ret} : s.calls k = .sendRelease c buffer timeoutMs ret [] →
      ProceedStep P s k (s.setCall k (.returned (.send (some c) (some buffer) timeoutMs) ret none))
  /-- One more buffer of a channel that is torn down. -/
  | tears {c ch i} : s.calls k = .tearingDown c → s.channels c = .dying ch i → i < ch.count →
      ProceedStep P s k
        (({ s with pool := sysBufferRelease P (ch.queue (ch.index P i)) s.pool }).setChannel c
          (.dying ch (i + 1)))
  | freed {c ch i} : s.calls k = .tearingDown c → s.channels c = .dying ch i → ¬ i < ch.count →
      ProceedStep P s k
        ((s.setChannel c .freed).setCall k (.returned (.release (some c)) .ok none))

/-- The compare-and-exchange of a `sys_channel_retain`. -/
inductive ExchangeStep (P : Platform) (s : System C K n) (k : K) (spurious : Bool) :
    System C K n → Prop
  | exchanged {c references ch} : s.calls k = .retaining c references →
      s.channels c = .live ch → ch.referenceCount = references ∧ spurious = false →
      ExchangeStep P s k spurious
        ((s.setChannel c (.live { ch with referenceCount := references + 1 })).setCall k
          (.returned (.retain (some c)) .ok none))
  /-- It has failed, and the loop goes on with the value it has read. -/
  | again {c references ch} : s.calls k = .retaining c references → s.channels c = .live ch →
      ¬ (ch.referenceCount = references ∧ spurious = false) →
      ExchangeStep P s k spurious
        ((s.setChannel c (.live ch)).retainSection P k c ch.referenceCount)

/-- A wait has returned `ret`. -/
inductive WakeStep (P : Platform) (s : System C K n) (k : K) (ret : Int) : System C K n → Prop
  | send {c buffer dropped timeoutMs s'} : s.calls k = .sendWait c buffer dropped timeoutMs →
      s.sendSection k c buffer timeoutMs (sendWake P buffer dropped timeoutMs ret) = some s' →
      WakeStep P s k ret s'
  | receive {c timeoutMs s'} : s.calls k = .receiveWait c timeoutMs →
      s.receiveSection k c timeoutMs (receiveWake P timeoutMs ret) = some s' →
      WakeStep P s k ret s'
  | idle {timeoutMs err} : s.calls k = .idleWait timeoutMs →
      waitIdleWake timeoutMs ret s.pool = some err →
      WakeStep P s k ret (s.setCall k (.returned (.poolWaitIdle timeoutMs) err none))
  | idleWaits {timeoutMs} : s.calls k = .idleWait timeoutMs →
      waitIdleWake timeoutMs ret s.pool = none → WakeStep P s k ret s

section Cases

variable {P : Platform} {s s' : System C K n} {k : K}

theorem enter_cases {call : Call C n} (h : enter P s k call = some s') :
    EnterStep P s k call s' := by
  unfold enter at h
  dsimp only at h
  split at h
  · obtain rfl := Option.some.inj h
    exact EnterStep.bufferAcquire rfl
  · obtain rfl := Option.some.inj h
    exact EnterStep.bufferRetain rfl
  · obtain rfl := Option.some.inj h
    exact EnterStep.bufferRelease
  · split at h
    · rename_i hloop
      obtain rfl := Option.some.inj h
      exact EnterStep.idle hloop
    · rename_i hloop
      obtain rfl := Option.some.inj h
      exact EnterStep.idleWaits hloop
  · split at h
    · rename_i habsent
      split at h
      · rename_i hcreate
        obtain rfl := Option.some.inj h
        exact EnterStep.created habsent hcreate
      · rename_i hcreate
        obtain rfl := Option.some.inj h
        exact EnterStep.notCreated habsent hcreate
    · cases h
  · -- a send on a channel
    split at h
    · rename_i hlive
      split at h
      · rename_i hok
        obtain rfl := Option.some.inj h
        exact EnterStep.sendRetained hlive (Prod.ext hok rfl)
      · rename_i hok
        obtain rfl := Option.some.inj h
        exact EnterStep.sendRefused hlive rfl hok
    · cases h
  · rename_i channel buffer timeoutMs hnull
    obtain rfl := Option.some.inj h
    refine EnterStep.sendInvalid ?_
    cases channel with
    | none => exact Or.inl rfl
    | some c =>
        cases buffer with
        | none => exact Or.inr rfl
        | some b => exact absurd rfl (hnull c b rfl)
  · exact EnterStep.receive h
  · rename_i channel outBuffer timeoutMs hnull
    obtain rfl := Option.some.inj h
    refine EnterStep.receiveInvalid ?_
    cases channel with
    | none => exact Or.inl rfl
    | some c =>
        cases outBuffer with
        | false => exact Or.inr rfl
        | true => exact absurd rfl (hnull c rfl)
  · split at h
    · rename_i hlive
      obtain rfl := Option.some.inj h
      exact EnterStep.close hlive
    · cases h
  · obtain rfl := Option.some.inj h
    exact EnterStep.closeNull
  · split at h
    · rename_i hlive
      obtain rfl := Option.some.inj h
      exact EnterStep.retain hlive
    · cases h
  · obtain rfl := Option.some.inj h
    exact EnterStep.retainNull
  · split at h
    · rename_i hlive
      split at h
      · rename_i hone
        obtain rfl := Option.some.inj h
        exact EnterStep.release hlive rfl hone
      · rename_i hone
        obtain rfl := Option.some.inj h
        exact EnterStep.lastRelease hlive (Prod.ext (not_not.mp hone) rfl)
    · cases h
  · obtain rfl := Option.some.inj h
    exact EnterStep.releaseNull

theorem proceed_cases (h : proceed P s k = some s') : ProceedStep P s k s' := by
  unfold proceed at h
  split at h
  · rename_i hk
    exact ProceedStep.sendLock hk h
  · rename_i hk
    obtain rfl := Option.some.inj h
    exact ProceedStep.sendReleases hk
  · rename_i hk
    obtain rfl := Option.some.inj h
    exact ProceedStep.sendReturns hk
  · rename_i hk
    split at h
    · rename_i hdying
      split at h
      · rename_i hi
        obtain rfl := Option.some.inj h
        exact ProceedStep.tears hk hdying hi
      · rename_i hi
        obtain rfl := Option.some.inj h
        exact ProceedStep.freed hk hdying hi
    · cases h
  · cases h

theorem exchange_cases {spurious : Bool} (h : exchange P s k spurious = some s') :
    ExchangeStep P s k spurious s' := by
  unfold exchange at h
  split at h
  · rename_i hk
    split at h
    · rename_i references _ ch hlive
      by_cases hx : ch.referenceCount = references ∧ spurious = false
      · simp only [channelExchange, if_pos hx, if_true] at h
        obtain rfl := Option.some.inj h
        exact ExchangeStep.exchanged hk hlive hx
      · simp only [channelExchange, if_neg hx, Bool.false_eq_true, if_false] at h
        obtain rfl := Option.some.inj h
        exact ExchangeStep.again hk hlive hx
    · cases h
  · cases h

theorem wake_cases {ret : Int} (h : wake P s k ret = some s') : WakeStep P s k ret s' := by
  unfold wake at h
  split at h
  · rename_i hk
    exact WakeStep.send hk h
  · rename_i hk
    exact WakeStep.receive hk h
  · rename_i hk
    split at h
    · rename_i hwake
      obtain rfl := Option.some.inj h
      exact WakeStep.idle hk hwake
    · rename_i hwake
      obtain rfl := Option.some.inj h
      exact WakeStep.idleWaits hk hwake
  · cases h

end Cases

end Channel
end AppCore
