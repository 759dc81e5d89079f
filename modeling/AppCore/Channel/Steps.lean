/-
  AppCore.Channel.Steps

  What an atomic step can do.  Every step moves one call and changes the pool, or one
  channel, or one channel that is torn down; the invariants of `Delivery` and
  `Ownership` follow from `next_effect` without a look at the code of the step.
-/

import AppCore.Channel.Cases

namespace AppCore
namespace Channel

variable {C K : Type*} {n : Nat}

/-- The references a call has taken and not given back. -/
def CallState.refs : CallState C n → List (Fin n)
  | .sendLock _ buffer _ => [buffer]
  | .sendWait _ buffer dropped _ => buffer :: dropped.toList
  | .sendRelease _ _ _ _ releases => releases
  | _ => []

/-- The references in the queue of a channel. -/
def ChannelSlot.refs : ChannelSlot n → List (Fin n)
  | .live ch => ch.items
  | .dying ch i => ch.items.drop i
  | _ => []

/-- The channel object, while there is one. -/
def ChannelSlot.object : ChannelSlot n → Option (SysChannel n)
  | .live ch => some ch
  | .dying ch _ => some ch
  | _ => none

/-- What a call has done to the channels when it returns `ret` and `out`. -/
def Call.Reports (ret : SysErr) (out : Option (Fin n)) (r : List (C × Fifo.Obs (Fin n))) :
    Call C n → Prop
  | .send (some c) (some buffer) _ =>
    (ret = .ok ∧ (r = [(c, .accepted buffer)] ∨
      ∃ oldest, r = [(c, .dropped oldest), (c, .accepted buffer)])) ∨ (ret ≠ .ok ∧ r = [])
  | .send _ _ _ => ret ≠ .ok ∧ r = []
  | .receive (some c) true _ =>
    (ret = .ok ∧ ∃ buffer, out = some buffer ∧ r = [(c, .received buffer)]) ∨
      (ret ≠ .ok ∧ out = none ∧ r = [])
  | .receive _ _ _ => ret ≠ .ok ∧ out = none ∧ r = []
  | _ => r = []

/-- What a call has done to the channels so far. -/
def CallState.Reports (r : List (C × Fifo.Obs (Fin n))) : CallState C n → Prop
  | .sendRelease c buffer timeoutMs ret _ =>
    Call.Reports ret none r (.send (some c) (some buffer) timeoutMs)
  | .returned call ret out => call.Reports ret out r
  | _ => r = []

/-- A send that waits has dropped nothing. -/
def CallState.Undropped : CallState C n → Prop
  | .sendWait _ _ dropped _ => dropped = none
  | _ => True

/-- What holds in every state, apart from the reference counts. -/
structure System.Sound (P : Platform) (s : System C K n) : Prop where
  valid : ∀ c ch, (s.channels c).object = some ch → ch.Valid P
  live : ∀ k c, (s.calls k).Uses c → ∃ ch, s.channels c = .live ch
  undropped : ∀ k, (s.calls k).Undropped

/-- The call `k` may go on to `st` when it has done `obs` to the channels. -/
structure Advances (s : System C K n) (k : K) (st : CallState C n)
    (obs : List (C × Fifo.Obs (Fin n))) : Prop where
  reports : ∀ r, (s.calls k).Reports r → st.Reports (r ++ obs)
  uses : ∀ c, st.Uses c → (s.calls k).Uses c ∨ ∃ ch, s.channels c = .live ch
  undropped : st.Undropped

/-- The changes of the pool, with the references they hand out and take back. -/
inductive PoolStep (P : Platform) (pool : Pool n) :
    List (Fin n) → List (Fin n) → Pool n → Prop
  | same : PoolStep P pool [] [] pool
  | acquired {outBuffer b pool'} : sysBufferAcquire P outBuffer pool = (.ok, pool', some b) →
      PoolStep P pool [b] [] pool'
  | retained {b pool'} : sysBufferRetain P (some b) pool = (.ok, pool') →
      PoolStep P pool [b] [] pool'
  | released {b} : PoolStep P pool [] [b] (sysBufferRelease P (some b) pool)

variable [DecidableEq C] [DecidableEq K]

/-- The effects of an atomic step.  `holds` says that a buffer that is released was held. -/
inductive Effect (P : Platform) (holds : Prop) (s : System C K n) : System C K n → Prop
  | pool {k st pool' held' gained lost} : Advances s k st [] →
      PoolStep P s.pool gained lost pool' →
      (holds → ∀ i, held' i + st.refs.count i + lost.count i =
        s.held i + (s.calls k).refs.count i + gained.count i) →
      Effect P holds s { s with
        pool := pool', calls := Function.update s.calls k st, held := held' }
  | channel {k c st ch ch' held' obs} : Advances s k st (obs.map fun o => (c, o)) →
      s.channels c = .live ch → ch'.Valid P → Fifo.Step ch.fifo obs ch'.fifo →
      (∀ i, held' i + st.refs.count i + ch'.items.count i =
        s.held i + (s.calls k).refs.count i + ch.items.count i) →
      Effect P holds s { s with
        channels := Function.update s.channels c (.live ch')
        calls := Function.update s.calls k st
        held := held'
        record := s.record ++ obs.map fun o => (k, c, o) }
  | created {k c st ch} : Advances s k st [] → st.refs = (s.calls k).refs →
      s.channels c = .absent → ch.Valid P → ch.items = [] →
      Effect P holds s { s with
        channels := Function.update s.channels c (.live ch)
        calls := Function.update s.calls k st }
  | dying {k c ch ch'} : s.calls k = .notStarted → (∀ k, ¬ (s.calls k).Uses c) →
      s.channels c = .live ch → ch'.Valid P → ch'.items = ch.items →
      Effect P holds s { s with
        channels := Function.update s.channels c (.dying ch' 0)
        calls := Function.update s.calls k (.tearingDown c) }
  | torn {c ch i x} : s.channels c = .dying ch i →
      ch.items.drop i = x :: ch.items.drop (i + 1) →
      Effect P holds s { s with
        pool := sysBufferRelease P (some x) s.pool
        channels := Function.update s.channels c (.dying ch (i + 1)) }
  | freed {k c ch i} : s.calls k = .tearingDown c → s.channels c = .dying ch i →
      ch.items.drop i = [] →
      Effect P holds s { s with
        channels := Function.update s.channels c .freed
        calls := Function.update s.calls k (.returned (.release (some c)) .ok none) }

section Inversion

variable {P : Platform} {s s' : System C K n} {k : K} {c : C} {st : CallState C n}
  {ch : SysChannel n} {holds : Prop}

omit [DecidableEq C] [DecidableEq K] in
/-- A call that has not done anything to a channel so far. -/
theorem Advances.ofNone {obs : List (C × Fifo.Obs (Fin n))}
    (hold : ∀ r, (s.calls k).Reports r → r = []) (hnew : st.Reports obs)
    (huses : ∀ c, st.Uses c → (s.calls k).Uses c ∨ ∃ ch, s.channels c = .live ch)
    (hund : st.Undropped) : Advances s k st obs := by
  refine ⟨fun r hr => ?_, huses, hund⟩
  rw [hold r hr]
  exact hnew

omit [DecidableEq C] [DecidableEq K] in
theorem Advances.ofNotStarted (hk : s.calls k = .notStarted) (hnew : st.Reports [])
    (huses : ∀ c, st.Uses c → ∃ ch, s.channels c = .live ch) (hund : st.Undropped) :
    Advances s k st [] := by
  refine Advances.ofNone (fun r hr => ?_) hnew (fun c hc => Or.inr (huses c hc)) hund
  rw [hk] at hr
  exact hr

omit [DecidableEq C] [DecidableEq K] in
/-- A call that returns at once and reports nothing. -/
theorem Advances.answer (hk : s.calls k = .notStarted) {call : Call C n} {ret : SysErr}
    {out : Option (Fin n)} (hnew : call.Reports ret out []) :
    Advances s k (.returned call ret out) [] :=
  Advances.ofNotStarted hk hnew (fun _ h => h.elim) trivial

/-- A step that moves one call only. -/
theorem Effect.quiet (hadv : Advances s k st []) (hrefs : st.refs = (s.calls k).refs) :
    Effect P holds s (s.setCall k st) := by
  have heff : Effect P holds s { s with
      pool := s.pool, calls := Function.update s.calls k st, held := s.held } :=
    Effect.pool hadv PoolStep.same fun _ i => by rw [hrefs]
  exact heff

omit [DecidableEq C] [DecidableEq K] in
theorem refs_notStarted (hk : s.calls k = .notStarted) : (s.calls k).refs = [] := by
  rw [hk]
  rfl

/-- A call that is answered without an effect. -/
theorem Effect.answer (hk : s.calls k = .notStarted) {call : Call C n} {ret : SysErr}
    {out : Option (Fin n)} (hnew : call.Reports ret out []) :
    Effect P holds s (s.setCall k (.returned call ret out)) :=
  Effect.quiet (Advances.answer hk hnew) (refs_notStarted hk).symm

theorem gain_count (held : Fin n → Nat) (b i : Fin n) :
    gain held (some b) i = held i + [b].count i := by
  by_cases hi : i = b
  · subst hi
    simp [gain]
  · simp [gain, hi, Ne.symm hi]

theorem lose_count {held : Fin n → Nat} {b : Fin n} (hb : 0 < held b) (i : Fin n) :
    lose held (some b) i + [b].count i = held i := by
  by_cases hi : i = b
  · subst hi
    simp only [lose, Function.update_self, List.count_singleton_self]
    omega
  · simp [lose, hi, Ne.symm hi]

theorem count_cons_eq (x i : Fin n) (rest : List (Fin n)) :
    (x :: rest).count i = [x].count i + rest.count i := by
  rw [← List.count_append]
  rfl

/-! ## Channel sections -/

/-- A section that keeps the queue and moves no reference. -/
theorem Effect.touch {ch' : SysChannel n} (hadv : Advances s k st [])
    (hrefs : st.refs = (s.calls k).refs) (hlive : s.channels c = .live ch)
    (hvalid : ch'.Valid P) (hstep : Fifo.Step ch.fifo [] ch'.fifo) (hitems : ch'.items = ch.items) :
    Effect P holds s ((s.setChannel c (.live ch')).setCall k st) := by
  have heff : Effect P holds s { s with
      channels := Function.update s.channels c (.live ch')
      calls := Function.update s.calls k st
      held := s.held
      record := s.record ++ [].map fun o => (k, c, o) } :=
    Effect.channel hadv hlive hvalid hstep fun i => by rw [hrefs, hitems]
  rw [List.map_nil, List.append_nil] at heff
  exact heff

/-- The sections of a send. -/
theorem sendSection_effect {buffer : Fin n} {timeoutMs : Int}
    {run : SysChannel n → SysChannel n × SendOutcome n × List (Fifo.Obs (Fin n))}
    (hs : s.Sound P) (hrefs : (s.calls k).refs = [buffer])
    (hold : ∀ r, (s.calls k).Reports r → r = []) (huse : (s.calls k).Uses c)
    (hrun : ∀ ch, ch.Valid P → Sends P ch buffer (run ch))
    (h : s.sendSection k c buffer timeoutMs run = some s') : Effect P holds s s' := by
  obtain ⟨ch, hlive⟩ := hs.live k c huse
  obtain ⟨hvalid, hspec⟩ := hrun ch (hs.valid c ch (by rw [hlive]; rfl))
  simp only [System.sendSection, hlive, Option.some.injEq] at h
  generalize run ch = r at h hvalid hspec
  obtain ⟨ch', outcome, obs⟩ := r
  have hstep : Fifo.Step ch.fifo obs ch'.fifo := hspec.step
  -- what is left of each outcome: the report of the call, and where the reference is
  have hsection : ∀ st : CallState C n, st.Reports (obs.map fun o => (c, o)) →
      (∀ c', st.Uses c' → c' = c) → st.Undropped →
      (∀ i, st.refs.count i + ch'.fifo.items.count i = [buffer].count i + ch.items.count i) →
      Effect P holds s (((s.setChannel c (.live ch')).setCall k st).observe k c obs) := by
    intro st hrep huses hund hcount
    refine Effect.channel (Advances.ofNone hold hrep ?_ hund) hlive hvalid hstep ?_
    · intro c' hc'
      rw [huses c' hc']
      exact Or.inl huse
    · intro i
      have hi := hcount i
      rw [hrefs]
      show s.held i + st.refs.count i + ch'.fifo.items.count i = _
      omega
  subst h
  dsimp only at hspec ⊢
  generalize ch'.fifo = q' at hspec hsection
  cases hspec with
  | waits =>
      apply hsection
      · rfl
      · exact fun c' hc' => hc'.symm
      · rfl
      · exact fun i => rfl
  | failed hret =>
      apply hsection
      · exact Or.inr ⟨hret, rfl⟩
      · exact fun c' hc' => hc'.elim
      · trivial
      · exact fun i => rfl
  | pushed =>
      apply hsection
      · exact Or.inl ⟨rfl, Or.inl rfl⟩
      · exact fun c' hc' => hc'.elim
      · trivial
      · intro i
        show [].count i + (ch.items ++ [buffer]).count i = _
        rw [List.count_append, List.count_nil]
        omega
  | @replaced oldest rest _ _ hitems _ =>
      have hitems : ch.items = oldest :: rest := hitems
      apply hsection
      · exact Or.inl ⟨rfl, Or.inr ⟨oldest, rfl⟩⟩
      · exact fun c' hc' => hc'.elim
      · trivial
      · intro i
        show [oldest].count i + (rest ++ [buffer]).count i = _
        rw [List.count_append, hitems, count_cons_eq oldest i rest]
        omega

/-- The sections of a receive. -/
theorem receiveSection_effect {timeoutMs : Int} {drains : Prop}
    {run : SysChannel n → SysChannel n × ReceiveOutcome n × List (Fifo.Obs (Fin n))}
    (hs : s.Sound P) (hrefs : (s.calls k).refs = [])
    (hold : ∀ r, (s.calls k).Reports r → r = [])
    (hrun : ∀ ch, ch.Valid P → Receives P ch drains (run ch))
    (h : s.receiveSection k c timeoutMs run = some s') : Effect P holds s s' := by
  unfold System.receiveSection at h
  cases hlive : s.channels c with
  | absent => simp [hlive] at h
  | dying ch i => simp [hlive] at h
  | freed => simp [hlive] at h
  | live ch =>
      obtain ⟨hvalid, hspec, -⟩ := hrun ch (hs.valid c ch (by rw [hlive]; rfl))
      simp only [hlive] at h
      generalize run ch = r at h hvalid hspec
      obtain ⟨ch', outcome, obs⟩ := r
      have hstep : Fifo.Step ch.fifo obs ch'.fifo := hspec.step
      -- what is left of each outcome: the report of the call, and who holds the buffer
      have hsection : ∀ (st : CallState C n) (held' : Fin n → Nat),
          st.Reports (obs.map fun o => (c, o)) → (∀ c', st.Uses c' → c' = c) → st.Undropped →
          (∀ i, held' i + st.refs.count i + ch'.fifo.items.count i =
            s.held i + ch.items.count i) →
          Effect P holds s
            ((({ s with held := held' }.setChannel c (.live ch')).setCall k st).observe k c
              obs) := by
        intro st held' hrep huses hund hcount
        refine Effect.channel (Advances.ofNone hold hrep ?_ hund) hlive hvalid hstep ?_
        · intro c' hc'
          rw [huses c' hc']
          exact Or.inr ⟨ch, hlive⟩
        · intro i
          rw [hrefs]
          exact hcount i
      dsimp only at hspec h
      generalize ch'.fifo = q' at hspec hsection
      cases hspec with
      | waits =>
          simp only [Option.some.injEq] at h
          subst h
          refine hsection _ s.held ?_ ?_ ?_ ?_
          · rfl
          · exact fun c' hc' => hc'.symm
          · trivial
          · exact fun i => rfl
      | failed hret =>
          simp only [Option.some.injEq] at h
          subst h
          refine hsection _ _ ?_ ?_ ?_ ?_
          · exact Or.inr ⟨hret, rfl, rfl⟩
          · exact fun c' hc' => hc'.elim
          · trivial
          · exact fun i => rfl
      | closed =>
          simp only [Option.some.injEq] at h
          subst h
          refine hsection _ _ ?_ ?_ ?_ ?_
          · exact Or.inr ⟨by decide, rfl, rfl⟩
          · exact fun c' hc' => hc'.elim
          · trivial
          · exact fun i => rfl
      | @popped x rest hitems =>
          simp only [Option.some.injEq] at h
          subst h
          have hitems : ch.items = x :: rest := hitems
          refine hsection _ _ ?_ ?_ ?_ ?_
          · exact Or.inl ⟨rfl, x, rfl, rfl⟩
          · exact fun c' hc' => hc'.elim
          · trivial
          · intro i
            show gain s.held (some x) i + [].count i + rest.count i = _
            rw [gain_count, List.count_nil, hitems, count_cons_eq x i rest]
            omega

/-! ## The steps -/

/-- `sys_channel_retain` at the head of its loop. -/
theorem retainSection_effect {ch' : SysChannel n} {references : Nat}
    (hold : ∀ r, (s.calls k).Reports r → r = []) (hrefs : (s.calls k).refs = [])
    (hlive : s.channels c = .live ch) (hvalid : ch'.Valid P) (hfifo : ch'.fifo = ch.fifo) :
    Effect P holds s ((s.setChannel c (.live ch')).retainSection P k c references) := by
  have hstep : Fifo.Step ch.fifo [] ch'.fifo := by
    rw [hfifo]
    exact Fifo.Step.stutter
  have hitems : ch'.items = ch.items := congrArg Fifo.State.items hfifo
  unfold System.retainSection
  cases channelRetainLoop P references with
  | some ret =>
      refine Effect.touch (Advances.ofNone hold rfl (fun _ h => h.elim) trivial) hrefs.symm
        hlive hvalid hstep hitems
  | none =>
      refine Effect.touch (Advances.ofNone hold rfl (fun c' hc' => ?_) trivial) hrefs.symm
        hlive hvalid hstep hitems
      have hc' : c = c' := hc'
      exact Or.inr ⟨ch, hc' ▸ hlive⟩

omit [DecidableEq K] in
/-- A channel that is not written stays as it is. -/
theorem setChannel_self (hlive : s.channels c = .live ch) : s.setChannel c (.live ch) = s := by
  rw [System.setChannel, ← hlive, Function.update_eq_self]

/-! ## The first sections -/

theorem bufferAcquire_effect {outBuffer : Bool} {ret : SysErr} {pool' : Pool n}
    {out : Option (Fin n)} (hk : s.calls k = .notStarted)
    (hacq : sysBufferAcquire P outBuffer s.pool = (ret, pool', out)) :
    Effect P holds s (({ s with pool := pool', held := gain s.held out }).setCall k
      (.returned (.bufferAcquire outBuffer) ret out)) := by
  have hrefs := refs_notStarted hk
  rcases sysBufferAcquire_result P outBuffer s.pool with ⟨b, p, heq⟩ | ⟨e, heq⟩
  · obtain ⟨rfl, rfl, rfl⟩ : ret = .ok ∧ pool' = p ∧ out = some b := by
      simpa [hacq] using heq
    refine Effect.pool (Advances.answer hk rfl) (PoolStep.acquired hacq) fun _ i => ?_
    rw [hrefs]
    exact congrArg (· + 0 + 0) (gain_count s.held b i)
  · obtain ⟨rfl, rfl, rfl⟩ : ret = e ∧ pool' = s.pool ∧ out = none := by
      simpa [hacq] using heq
    exact Effect.answer hk rfl

theorem bufferRetain_effect {buffer : Option (Fin n)} {ret : SysErr} {pool' : Pool n}
    (hk : s.calls k = .notStarted) (hret : sysBufferRetain P buffer s.pool = (ret, pool')) :
    Effect P holds s
      (({ s with
          pool := pool', held := if ret = SysErr.ok then gain s.held buffer else s.held }).setCall k
        (.returned (.bufferRetain buffer) ret none)) := by
  have hrefs := refs_notStarted hk
  rcases sysBufferRetain_result P buffer s.pool with ⟨b, rfl, heq⟩ | ⟨hne, heq⟩
  · rw [hret] at heq
    obtain rfl : ret = .ok := heq
    refine Effect.pool (Advances.answer hk rfl) (PoolStep.retained hret) fun _ i => ?_
    rw [hrefs]
    exact congrArg (· + 0 + 0) (gain_count s.held b i)
  · rw [hret] at hne heq
    obtain rfl : pool' = s.pool := heq
    rw [if_neg hne]
    exact Effect.answer hk rfl

theorem bufferRelease_effect {buffer : Option (Fin n)} (hk : s.calls k = .notStarted) :
    Effect P (Holds s (.call k (.bufferRelease buffer))) s
      (({ s with pool := sysBufferRelease P buffer s.pool, held := lose s.held buffer }).setCall k
        (.returned (.bufferRelease buffer) .ok none)) := by
  cases buffer with
  | none => exact Effect.answer hk rfl
  | some b =>
      refine Effect.pool (Advances.answer hk rfl) PoolStep.released fun hholds i => ?_
      rw [refs_notStarted hk]
      exact lose_count hholds i

theorem create_effect {config : Option ChannelConfig} {outChannel : Bool} {environment ret : SysErr}
    {ch : SysChannel n} (hk : s.calls k = .notStarted) (habsent : s.channels c = .absent)
    (hcreate : sysChannelCreateWithConfig P config outChannel environment = (ret, some ch)) :
    Effect P holds s ((s.setChannel c (.live ch)).setCall k
      (.returned (.create c config outChannel environment) ret none)) := by
  rcases sysChannelCreateWithConfig_spec (n := n) P config outChannel environment with
    ⟨ch', config', -, heq, hvalid, hfifo, -⟩ | ⟨ret', -, heq⟩
  · rw [hcreate] at heq
    obtain rfl : ch = ch' := Option.some.inj (congrArg Prod.snd heq)
    refine Effect.created (Advances.answer hk rfl) (refs_notStarted hk).symm habsent hvalid ?_
    exact congrArg Fifo.State.items hfifo
  · rw [hcreate] at heq
    cases heq

/-- A send that cannot retain its buffer leaves the pool as it is. -/
theorem sendRefused_effect {buffer : Fin n} {timeoutMs : Int} {ret : SysErr} {pool' : Pool n}
    (hk : s.calls k = .notStarted) (hret : sysBufferRetain P (some buffer) s.pool = (ret, pool'))
    (hne : ret ≠ .ok) :
    Effect P holds s (({ s with pool := pool' }).setCall k
      (.returned (.send (some c) (some buffer) timeoutMs) ret none)) := by
  have hpool : pool' = s.pool := by
    rcases sysBufferRetain_result P (some buffer) s.pool with ⟨b, -, heq⟩ | ⟨-, heq⟩
    · rw [hret] at heq
      exact absurd heq hne
    · rw [hret] at heq
      exact heq
  rw [hpool]
  exact Effect.answer hk (Or.inr ⟨hne, rfl⟩)

/-- The references of a channel are counted next to its queue. -/
theorem channelFetchSub_withReferences {ch ch' : SysChannel n} {references : Nat}
    (h : channelFetchSub P ch = (references, ch')) :
    references = ch.referenceCount ∧ ch' = { ch with referenceCount := ch'.referenceCount } := by
  unfold channelFetchSub at h
  cases h
  exact ⟨rfl, rfl⟩

theorem enter_effect {call : Call C n} (hs : s.Sound P) (hk : s.calls k = .notStarted)
    (hlast : LastRelease s (.call k call)) (h : enter P s k call = some s') :
    Effect P (Holds s (.call k call)) s s' := by
  have hrefs := refs_notStarted hk
  have hold : ∀ r, (s.calls k).Reports r → r = [] := fun r hr => by rw [hk] at hr; exact hr
  have hvalid : ∀ c ch, s.channels c = .live ch → ch.Valid P := fun c ch hlive =>
    hs.valid c ch (by rw [hlive]; rfl)
  cases enter_cases h with
  | bufferAcquire hacq => exact bufferAcquire_effect hk hacq
  | bufferRetain hret => exact bufferRetain_effect hk hret
  | bufferRelease => exact bufferRelease_effect hk
  | idle _ => exact Effect.answer hk rfl
  | idleWaits _ =>
      exact Effect.quiet (Advances.ofNotStarted hk rfl (fun _ h => h.elim) trivial) hrefs.symm
  | created habsent hcreate => exact create_effect hk habsent hcreate
  | notCreated _ _ => exact Effect.answer hk rfl
  | @sendInvalid channel _ _ hnull =>
      refine Effect.answer hk ?_
      rcases hnull with rfl | rfl
      · exact ⟨by decide, rfl⟩
      · cases channel with
        | none => exact ⟨by decide, rfl⟩
        | some c => exact ⟨by decide, rfl⟩
  | @sendRetained c buffer timeoutMs ch pool' hlive hret =>
      -- the reference is the call's until it has left its critical section
      refine Effect.pool (Advances.ofNotStarted hk rfl ?_ trivial) (PoolStep.retained hret)
        fun _ i => ?_
      · intro c' hc'
        have hc' : c = c' := hc'
        exact ⟨ch, hc' ▸ hlive⟩
      · rw [hrefs]
        rfl
  | sendRefused _ hret hne => exact sendRefused_effect hk hret hne
  | @receiveInvalid channel _ _ hnull =>
      refine Effect.answer hk ?_
      rcases hnull with rfl | rfl
      · exact ⟨by decide, rfl, rfl⟩
      · cases channel with
        | none => exact ⟨by decide, rfl, rfl⟩
        | some c => exact ⟨by decide, rfl, rfl⟩
  | @receive c timeoutMs _ hsection =>
      exact receiveSection_effect hs hrefs hold (fun ch hvalid => receiveLoop_spec hvalid timeoutMs)
        hsection
  | @close c ch hlive =>
      have hstep : Fifo.Step ch.fifo [] (sysChannelClose ch).fifo := Fifo.Step.close
      exact Effect.touch (Advances.answer hk rfl) hrefs.symm hlive (hvalid c ch hlive).close hstep
        rfl
  | closeNull => exact Effect.answer hk rfl
  | @retain c ch hlive =>
      have heff : Effect P (Holds s (.call k (.retain (some c)))) s
          ((s.setChannel c (.live ch)).retainSection P k c ch.referenceCount) :=
        retainSection_effect hold hrefs hlive (hvalid c ch hlive) rfl
      rw [setChannel_self hlive] at heff
      exact heff
  | retainNull => exact Effect.answer hk rfl
  | @release c ch ch' references hlive hsub _ =>
      obtain ⟨-, heq⟩ := channelFetchSub_withReferences hsub
      rw [heq]
      exact Effect.touch (Advances.answer hk rfl) hrefs.symm hlive
        ((hvalid c ch hlive).withReferences _) Fifo.Step.stutter rfl
  | @lastRelease c ch ch' hlive hsub =>
      obtain ⟨hone, heq⟩ := channelFetchSub_withReferences hsub
      rw [heq]
      exact Effect.dying hk (hlast ch hlive hone.symm) hlive
        ((hvalid c ch hlive).withReferences _) rfl
  | releaseNull => exact Effect.answer hk rfl

omit [DecidableEq C] [DecidableEq K] in
/-- One more of the queued buffers of a channel that is torn down. -/
theorem teardown_effect {i : Nat} (hs : s.Sound P) (hdying : s.channels c = .dying ch i)
    (hi : i < ch.count) :
    ∃ x, ch.queue (ch.index P i) = some x ∧ ch.items.drop i = x :: ch.items.drop (i + 1) := by
  have hvalid := hs.valid c ch (by rw [hdying]; rfl)
  have hle := hvalid.count_le
  have hlen := hvalid.length_items
  have hi' : i < ch.items.length := by omega
  refine ⟨ch.items[i], ?_, List.drop_eq_getElem_cons hi'⟩
  have hget := congrArg (fun l => l[i]?) hvalid.filled
  simp only [Ring.window, List.getElem?_map, List.getElem?_range hi,
    List.getElem?_eq_getElem hi', Option.map_some, Option.some.injEq] at hget
  rw [hvalid.index_eq (by omega)]
  exact hget

omit [DecidableEq C] [DecidableEq K] in
/-- A send gives up its references once it has left its critical section. -/
theorem sendRelease_advances {buffer : Fin n} {timeoutMs : Int} {ret : SysErr}
    {releases : List (Fin n)} {st : CallState C n}
    (hk : s.calls k = .sendRelease c buffer timeoutMs ret releases)
    (hrep : ∀ r, CallState.Reports r (.sendRelease c buffer timeoutMs ret releases) →
      st.Reports r) (huses : ∀ c, ¬ st.Uses c) (hund : st.Undropped) : Advances s k st [] := by
  refine ⟨fun r hr => ?_, fun c hc => (huses c hc).elim, hund⟩
  rw [hk] at hr
  rw [List.append_nil]
  exact hrep r hr

theorem proceed_effect (hs : s.Sound P) (h : proceed P s k = some s') : Effect P holds s s' := by
  cases proceed_cases h with
  | @sendLock c buffer timeoutMs _ hk hsection =>
      exact sendSection_effect hs (by rw [hk]; rfl) (fun r hr => by rw [hk] at hr; exact hr)
        (by rw [hk]; rfl) (fun ch hvalid => sendEnter_spec hvalid buffer timeoutMs) hsection
  | @sendReleases c buffer timeoutMs ret x rest hk =>
      have hadv : Advances s k (.sendRelease c buffer timeoutMs ret rest) [] :=
        sendRelease_advances hk (fun r hr => hr) (fun _ h => h) trivial
      refine Effect.pool hadv PoolStep.released fun _ i => ?_
      rw [hk]
      show s.held i + rest.count i + [x].count i = s.held i + (x :: rest).count i + 0
      rw [count_cons_eq x i rest]
      omega
  | @sendReturns c buffer timeoutMs ret hk =>
      have hadv : Advances s k (.returned (.send (some c) (some buffer) timeoutMs) ret none) [] :=
        sendRelease_advances hk (fun r hr => hr) (fun _ h => h) trivial
      exact Effect.quiet hadv (by rw [hk]; rfl)
  | tears hk hdying hi =>
      obtain ⟨x, hx, hdrop⟩ := teardown_effect hs hdying hi
      rw [hx]
      exact Effect.torn hdying hdrop
  | freed hk hdying hi =>
      have hlen := (hs.valid _ _ (by rw [hdying]; rfl)).length_items
      exact Effect.freed hk hdying (List.drop_eq_nil_of_le (by omega))

theorem exchange_effect {spurious : Bool} (hs : s.Sound P)
    (h : exchange P s k spurious = some s') : Effect P holds s s' := by
  cases exchange_cases h with
  | exchanged hk hlive _ =>
      have hold : ∀ r, (s.calls k).Reports r → r = [] := fun r hr => by rw [hk] at hr; exact hr
      have hrefs : (s.calls k).refs = [] := by rw [hk]; rfl
      have hvalid := hs.valid _ _ (by rw [hlive]; rfl)
      exact Effect.touch (Advances.ofNone hold rfl (fun _ h => h.elim) trivial) hrefs.symm hlive
        (hvalid.withReferences _) Fifo.Step.stutter rfl
  | again hk hlive _ =>
      have hold : ∀ r, (s.calls k).Reports r → r = [] := fun r hr => by rw [hk] at hr; exact hr
      have hrefs : (s.calls k).refs = [] := by rw [hk]; rfl
      have hvalid := hs.valid _ _ (by rw [hlive]; rfl)
      exact retainSection_effect hold hrefs hlive hvalid rfl

theorem wake_effect {ret : Int} (hs : s.Sound P) (h : wake P s k ret = some s') :
    Effect P holds s s' := by
  cases wake_cases h with
  | @send c buffer dropped timeoutMs _ hk hsection =>
      have hund := hs.undropped k
      rw [hk] at hund
      obtain rfl : dropped = none := hund
      exact sendSection_effect hs (by rw [hk]; rfl) (fun r hr => by rw [hk] at hr; exact hr)
        (by rw [hk]; rfl) (fun ch hvalid => sendWake_spec hvalid buffer timeoutMs ret) hsection
  | @receive c timeoutMs _ hk hsection =>
      exact receiveSection_effect hs (by rw [hk]; rfl) (fun r hr => by rw [hk] at hr; exact hr)
        (fun ch hvalid => receiveWake_spec hvalid timeoutMs ret) hsection
  | idle hk _ =>
      have hold : ∀ r, (s.calls k).Reports r → r = [] := fun r hr => by rw [hk] at hr; exact hr
      exact Effect.quiet (Advances.ofNone hold rfl (fun _ h => h.elim) trivial) (by rw [hk]; rfl)
  | @idleWaits timeoutMs hk _ =>
      have hold : ∀ r, (s.calls k).Reports r → r = [] := fun r hr => by rw [hk] at hr; exact hr
      have heff : Effect P holds s (s.setCall k (.idleWait timeoutMs)) :=
        Effect.quiet (Advances.ofNone hold rfl (fun _ h => h.elim) trivial) (by rw [hk])
      rw [System.setCall, ← hk, Function.update_eq_self] at heff
      exact heff

/-- Every step that keeps the contract has one of the effects. -/
theorem next_effect {e : Event C K n} (hs : s.Sound P) (hlast : LastRelease s e)
    (h : next P s e = some s') : Effect P (Holds s e) s s' := by
  cases e with
  | call k call =>
      simp only [next] at h
      by_cases hk : s.calls k = .notStarted
      · rw [if_pos hk] at h
        exact enter_effect hs hk hlast h
      · rw [if_neg hk] at h
        cases h
  | proceed k => exact proceed_effect hs h
  | exchange k spurious => exact exchange_effect hs h
  | wake k ret => exact wake_effect hs h

end Inversion

end Channel
end AppCore
