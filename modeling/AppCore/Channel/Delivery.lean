/-
  AppCore.Channel.Delivery

  Every channel is a bounded first-in first-out list, under all interleavings: each
  atomic step is a step of `Fifo`, what went in has come out or is still queued, in
  order, and every call did to the list what it reports.
-/

import AppCore.Channel.Steps

namespace AppCore
namespace Channel

variable {C K : Type*} {n : Nat} [DecidableEq C] [DecidableEq K] {P : Platform} {holds : Prop}

/-- What the call `k` did to the channels. -/
def System.recordOf (s : System C K n) (k : K) : List (C × Fifo.Obs (Fin n)) :=
  s.record.filterMap fun x => if x.1 = k then some x.2 else none

/-- What was done to the channel `c`. -/
def System.obs (s : System C K n) (c : C) : List (Fifo.Obs (Fin n)) :=
  s.record.filterMap fun x => if x.2.1 = c then some x.2.2 else none

/-- How far a channel object is in its life. -/
def ChannelSlot.stage : ChannelSlot n → Nat
  | .absent => 0
  | .live _ => 1
  | .dying _ _ => 2
  | .freed => 3

theorem ChannelSlot.live_of_stage {slot : ChannelSlot n} (h : slot.stage = 1) :
    ∃ ch, slot = .live ch := by
  cases slot with
  | absent => cases h
  | live ch => exact ⟨ch, rfl⟩
  | dying ch i => cases h
  | freed => cases h

theorem ChannelSlot.absent_of_stage {slot : ChannelSlot n} (h : slot.stage ≤ 0) :
    slot = .absent := by
  cases slot with
  | absent => rfl
  | live ch => exact absurd h (Nat.not_succ_le_zero 0)
  | dying ch i => exact absurd h (Nat.not_succ_le_zero 1)
  | freed => exact absurd h (Nat.not_succ_le_zero 2)

section Record

variable {s s' : System C K n} {k : K} {c : C} {obs : List (Fifo.Obs (Fin n))}

omit [DecidableEq C] in
theorem recordOf_append (hrec : s'.record = s.record ++ obs.map fun o => (k, c, o)) (k' : K) :
    s'.recordOf k' = s.recordOf k' ++ if k = k' then obs.map fun o => (c, o) else [] := by
  rw [System.recordOf, hrec, List.filterMap_append, List.filterMap_map]
  congr 1
  by_cases hk : k = k'
  · simp [hk]
  · simp [hk]

omit [DecidableEq K] in
theorem obs_append (hrec : s'.record = s.record ++ obs.map fun o => (k, c, o)) (c' : C) :
    s'.obs c' = s.obs c' ++ if c = c' then obs else [] := by
  rw [System.obs, hrec, List.filterMap_append, List.filterMap_map]
  congr 1
  by_cases hc : c = c'
  · simp [hc]
  · simp [hc]

end Record

/-! ## The steps keep the channels sound -/

section Sound

variable {s s' : System C K n} {channels : C → ChannelSlot n} {calls : K → CallState C n}

omit [DecidableEq K] in
theorem valid_update {c : C} {slot : ChannelSlot n}
    (h : ∀ c ch, (channels c).object = some ch → ch.Valid P)
    (hslot : ∀ ch, slot.object = some ch → ch.Valid P) :
    ∀ c' ch, (Function.update channels c slot c').object = some ch → ch.Valid P := by
  intro c' ch hobj
  by_cases hc : c' = c
  · subst hc
    rw [Function.update_self] at hobj
    exact hslot ch hobj
  · rw [Function.update_of_ne hc] at hobj
    exact h c' ch hobj

omit [DecidableEq C] in
theorem live_update {k : K} {st : CallState C n}
    (h : ∀ k c, (calls k).Uses c → ∃ ch, channels c = .live ch)
    (hk : ∀ c, st.Uses c → ∃ ch, channels c = .live ch) :
    ∀ k' c, (Function.update calls k st k').Uses c → ∃ ch, channels c = .live ch := by
  intro k' c huse
  by_cases hk' : k' = k
  · subst hk'
    rw [Function.update_self] at huse
    exact hk c huse
  · rw [Function.update_of_ne hk'] at huse
    exact h k' c huse

omit [DecidableEq C] in
theorem undropped_update {k : K} {st : CallState C n} (h : ∀ k, (calls k).Undropped)
    (hk : st.Undropped) : ∀ k', (Function.update calls k st k').Undropped := by
  intro k'
  by_cases hk' : k' = k
  · subst hk'
    rw [Function.update_self]
    exact hk
  · rw [Function.update_of_ne hk']
    exact h k'

omit [DecidableEq K] in
/-- A channel that was created or written is live. -/
theorem live_setChannel {c c' : C} {ch : SysChannel n} (h : ∃ ch, channels c' = .live ch) :
    ∃ ch', Function.update channels c (.live ch) c' = .live ch' := by
  by_cases hc : c' = c
  · subst hc
    exact ⟨ch, Function.update_self ..⟩
  · rw [Function.update_of_ne hc]
    exact h

omit [DecidableEq K] in
/-- A channel that is torn down is no live one. -/
theorem live_setOther {c c' : C} {slot : ChannelSlot n} (h : ∃ ch, channels c' = .live ch)
    (hc : c' ≠ c) : ∃ ch', Function.update channels c slot c' = .live ch' := by
  rw [Function.update_of_ne hc]
  exact h

theorem System.Sound.effect (hs : s.Sound P) (h : Effect P holds s s') : s'.Sound P := by
  have hlive : ∀ {k st obs}, Advances s k st obs → ∀ c, st.Uses c →
      ∃ ch, s.channels c = .live ch := by
    intro k st obs hadv c huse
    rcases hadv.uses c huse with hold | hnew
    · exact hs.live k c hold
    · exact hnew
  have hother : ∀ {c c' ch i}, s.channels c = .dying ch i →
      (∃ ch, s.channels c' = .live ch) → c' ≠ c := by
    rintro c c' ch i hdying ⟨ch', hl⟩ rfl
    rw [hdying] at hl
    cases hl
  cases h with
  | pool hadv =>
      exact ⟨hs.valid, live_update hs.live (hlive hadv),
        undropped_update hs.undropped hadv.undropped⟩
  | @channel k c st ch ch' held' obs hadv hl hvalid =>
      refine ⟨valid_update hs.valid fun ch hch => ?_, live_update ?_ ?_,
        undropped_update hs.undropped hadv.undropped⟩
      · obtain rfl : ch' = ch := Option.some.inj hch
        exact hvalid
      · exact fun k' c' huse => live_setChannel (hs.live k' c' huse)
      · exact fun c' huse => live_setChannel (hlive hadv c' huse)
  | @created k c st ch' hadv _ _ hvalid =>
      refine ⟨valid_update hs.valid fun ch hch => ?_, live_update ?_ ?_,
        undropped_update hs.undropped hadv.undropped⟩
      · obtain rfl : ch' = ch := Option.some.inj hch
        exact hvalid
      · exact fun k' c' huse => live_setChannel (hs.live k' c' huse)
      · exact fun c' huse => live_setChannel (hlive hadv c' huse)
  | @dying k c ch ch' _ hfree _ hvalid =>
      refine ⟨valid_update hs.valid fun ch hch => ?_, live_update ?_ fun _ h => h.elim,
        undropped_update hs.undropped trivial⟩
      · obtain rfl : ch' = ch := Option.some.inj hch
        exact hvalid
      · intro k' c' huse
        refine live_setOther (hs.live k' c' huse) ?_
        rintro rfl
        exact hfree k' huse
  | @torn c ch i x hdying =>
      refine ⟨valid_update hs.valid fun ch' hch => ?_, ?_, hs.undropped⟩
      · exact hs.valid c ch' (by rw [hdying]; exact hch)
      · intro k' c' huse
        have hl := hs.live k' c' huse
        exact live_setOther hl (hother hdying hl)
  | @freed k c ch i _ hdying =>
      refine ⟨valid_update hs.valid (fun ch' hch => nomatch hch), live_update ?_ fun _ h => h.elim,
        undropped_update hs.undropped trivial⟩
      intro k' c' huse
      have hl := hs.live k' c' huse
      exact live_setOther hl (hother hdying hl)

theorem System.Sound.step {e : Event C K n} (hs : s.Sound P)
    (h : (channelMachine C K n P).step s e s') :
    Effect P (Holds s e) s s' ∧ s'.Sound P := by
  have heff := next_effect hs h.2 h.1
  exact ⟨heff, hs.effect heff⟩

omit [DecidableEq C] [DecidableEq K] in
theorem System.Fresh.sound (h : s.Fresh P) : s.Sound P := by
  obtain ⟨-, hchannels, hcalls, -, -⟩ := h
  refine ⟨fun c ch hobj => ?_, fun k c huse => ?_, fun k => ?_⟩
  · rw [hchannels] at hobj
    cases hobj
  · rw [hcalls] at huse
    exact huse.elim
  · rw [hcalls]
    exact trivial

theorem sound_of_reachable (h : (channelMachine C K n P).Reachable s) : s.Sound P :=
  h.invariant (fun s (hs : s.Fresh P) => hs.sound) fun _ _ _ hs hstep => (hs.step hstep).2

end Sound

/-! ## What the channels have passed on -/

/-- The record against the channels and the calls. -/
structure System.Delivered (s : System C K n) : Prop where
  reports : ∀ k, (s.calls k).Reports (s.recordOf k)
  absent : ∀ c, s.channels c = .absent → s.obs c = []
  conserve : ∀ c ch, (s.channels c).object = some ch →
    Fifo.accepted (s.obs c) = Fifo.removed (s.obs c) ++ ch.items

section Delivered

variable {s s' : System C K n}

omit [DecidableEq C] in
/-- A step of a call that does nothing to the channels. -/
theorem reports_update {k : K} {st : CallState C n} (h : ∀ k, (s.calls k).Reports (s.recordOf k))
    (hadv : Advances s k st []) :
    ∀ k', (Function.update s.calls k st k').Reports (s.recordOf k') := by
  intro k'
  by_cases hk : k' = k
  · subst hk
    have hrep := hadv.reports _ (h k')
    rw [List.append_nil] at hrep
    rw [Function.update_self]
    exact hrep
  · rw [Function.update_of_ne hk]
    exact h k'

/-- The channel `c` as it was, and another slot written. -/
theorem System.Delivered.setSlot (hs : s.Delivered) (c : C) (slot : ChannelSlot n)
    (habsent : slot ≠ .absent)
    (hslot : ∀ ch, slot.object = some ch →
      Fifo.accepted (s.obs c) = Fifo.removed (s.obs c) ++ ch.items) :
    (∀ c', Function.update s.channels c slot c' = .absent → s.obs c' = []) ∧
      ∀ c' ch, (Function.update s.channels c slot c').object = some ch →
        Fifo.accepted (s.obs c') = Fifo.removed (s.obs c') ++ ch.items := by
  constructor
  · intro c' hc'
    by_cases hc : c' = c
    · subst hc
      rw [Function.update_self] at hc'
      exact absurd hc' habsent
    · rw [Function.update_of_ne hc] at hc'
      exact hs.absent c' hc'
  · intro c' ch hobj
    by_cases hc : c' = c
    · subst hc
      rw [Function.update_self] at hobj
      exact hslot ch hobj
    · rw [Function.update_of_ne hc] at hobj
      exact hs.conserve c' ch hobj

/-- A section that is a step of the list of its channel. -/
theorem System.Delivered.channel (hs : s.Delivered) {k : K} {c : C} {st : CallState C n}
    {ch ch' : SysChannel n} {obs : List (Fifo.Obs (Fin n))}
    (hadv : Advances s k st (obs.map fun o => (c, o))) (hlive : s.channels c = .live ch)
    (hstep : Fifo.Step ch.fifo obs ch'.fifo)
    (hrec : s'.record = s.record ++ obs.map fun o => (k, c, o))
    (hcalls : s'.calls = Function.update s.calls k st)
    (hchannels : s'.channels = Function.update s.channels c (.live ch')) : s'.Delivered := by
  have hrecord := recordOf_append hrec
  have hobs := obs_append hrec
  refine ⟨fun k' => ?_, fun c' hc' => ?_, fun c' ch'' hobj => ?_⟩
  · rw [hrecord, hcalls]
    by_cases hk : k = k'
    · subst hk
      rw [Function.update_self, if_pos rfl]
      exact hadv.reports _ (hs.reports k)
    · rw [Function.update_of_ne (Ne.symm hk), if_neg hk, List.append_nil]
      exact hs.reports k'
  · rw [hchannels] at hc'
    rw [hobs]
    by_cases hc : c = c'
    · subst hc
      rw [Function.update_self] at hc'
      cases hc'
    · rw [Function.update_of_ne (Ne.symm hc)] at hc'
      rw [if_neg hc, List.append_nil]
      exact hs.absent c' hc'
  · rw [hchannels] at hobj
    rw [hobs]
    by_cases hc : c = c'
    · subst hc
      rw [Function.update_self] at hobj
      obtain rfl : ch' = ch'' := Option.some.inj hobj
      have hold := hs.conserve c ch (by rw [hlive]; rfl)
      have hnew : ch.items ++ Fifo.accepted obs = Fifo.removed obs ++ ch'.items :=
        hstep.conserve
      rw [if_pos rfl, Fifo.accepted_append, Fifo.removed_append, hold, List.append_assoc,
        hnew, List.append_assoc]
    · rw [Function.update_of_ne (Ne.symm hc)] at hobj
      rw [if_neg hc, List.append_nil]
      exact hs.conserve c' ch'' hobj

theorem System.Delivered.effect (hs : s.Delivered) (h : Effect P holds s s') : s'.Delivered := by
  cases h with
  | pool hadv => exact ⟨reports_update hs.reports hadv, hs.absent, hs.conserve⟩
  | channel hadv hlive _ hstep => exact hs.channel hadv hlive hstep rfl rfl rfl
  | @created k c st ch hadv _ habsent _ hitems =>
      obtain ⟨h₁, h₂⟩ := hs.setSlot c (.live ch) (fun h => nomatch h)
        fun ch' hch => by
          obtain rfl : ch = ch' := Option.some.inj hch
          rw [hs.absent c habsent, hitems]
          rfl
      exact ⟨reports_update hs.reports hadv, h₁, h₂⟩
  | @dying k c ch ch' hk _ hlive _ hitems =>
      obtain ⟨h₁, h₂⟩ := hs.setSlot c (.dying ch' 0) (fun h => nomatch h)
        fun ch'' hch => by
          obtain rfl : ch' = ch'' := Option.some.inj hch
          rw [hitems]
          exact hs.conserve c ch (by rw [hlive]; rfl)
      refine ⟨reports_update hs.reports ?_, h₁, h₂⟩
      exact Advances.ofNotStarted hk rfl (fun _ h => h.elim) trivial
  | @torn c ch i x hdying =>
      obtain ⟨h₁, h₂⟩ := hs.setSlot c (.dying ch (i + 1)) (fun h => nomatch h)
        fun ch' hch => hs.conserve c ch' (by rw [hdying]; exact hch)
      exact ⟨hs.reports, h₁, h₂⟩
  | @freed k c ch i hk hdying =>
      obtain ⟨h₁, h₂⟩ := hs.setSlot c .freed (fun h => nomatch h)
        fun ch' hch => nomatch hch
      refine ⟨reports_update hs.reports ?_, h₁, h₂⟩
      refine Advances.ofNone (fun r hr => ?_) rfl (fun _ h => h.elim) trivial
      rw [hk] at hr
      exact hr

theorem System.Fresh.delivered (h : s.Fresh P) : s.Delivered := by
  obtain ⟨-, hchannels, hcalls, -, hrecord⟩ := h
  refine ⟨fun k => ?_, fun c _ => ?_, fun c ch hobj => ?_⟩
  · rw [hcalls, System.recordOf, hrecord]
    rfl
  · rw [System.obs, hrecord]
    rfl
  · rw [hchannels] at hobj
    cases hobj

theorem delivered_of_reachable (h : (channelMachine C K n P).Reachable s) : s.Delivered := by
  have hboth : s.Sound P ∧ s.Delivered := by
    refine h.invariant (I := fun s => s.Sound P ∧ s.Delivered)
      (fun s (hs : s.Fresh P) => ⟨hs.sound, hs.delivered⟩) fun u e v hu hstep => ?_
    obtain ⟨heff, hsound⟩ := hu.1.step hstep
    exact ⟨hsound, hu.2.effect heff⟩
  exact hboth.2

/-- A channel object only moves on in its life. -/
theorem Effect.stage_le (h : Effect P holds s s') (c : C) :
    (s.channels c).stage ≤ (s'.channels c).stage := by
  have hupdate : ∀ {c' : C} {slot : ChannelSlot n}, (s.channels c').stage ≤ slot.stage →
      (s.channels c).stage ≤ (Function.update s.channels c' slot c).stage := by
    intro c' slot hle
    by_cases hc : c = c'
    · subst hc
      rw [Function.update_self]
      exact hle
    · rw [Function.update_of_ne hc]
  cases h with
  | pool => exact le_refl _
  | channel _ hlive => exact hupdate (by rw [hlive]; exact le_refl 1)
  | created _ _ habsent => exact hupdate (by rw [habsent]; exact Nat.zero_le 1)
  | dying _ _ hlive => exact hupdate (by rw [hlive]; exact Nat.le_succ 1)
  | torn hdying => exact hupdate (by rw [hdying]; exact le_refl 2)
  | freed _ hdying => exact hupdate (by rw [hdying]; exact Nat.le_succ 2)

/-- Every step is a step of the list of a channel that stays. -/
theorem Effect.fifo (h : Effect P holds s s') {c : C} {ch ch' : SysChannel n}
    (hlive : s.channels c = .live ch) (hlive' : s'.channels c = .live ch') :
    ∃ os, s'.obs c = s.obs c ++ os ∧ Fifo.Step ch.fifo os ch'.fifo := by
  -- a step that does not write this channel
  have hsame : s'.record = s.record → s'.channels c = s.channels c →
      ∃ os, s'.obs c = s.obs c ++ os ∧ Fifo.Step ch.fifo os ch'.fifo := by
    intro hrecord hchannel
    rw [hchannel, hlive] at hlive'
    obtain rfl : ch = ch' := ChannelSlot.live.inj hlive'
    refine ⟨[], ?_, Fifo.Step.stutter⟩
    rw [System.obs, System.obs, hrecord, List.append_nil]
  have hne : ∀ {c' : C} {slot : ChannelSlot n}, s'.record = s.record →
      s'.channels = Function.update s.channels c' slot → (c = c' → slot ≠ .live ch') →
      ∃ os, s'.obs c = s.obs c ++ os ∧ Fifo.Step ch.fifo os ch'.fifo := by
    intro c' slot hrecord hchannels hslot
    by_cases hc : c = c'
    · rw [hchannels, hc, Function.update_self] at hlive'
      exact absurd hlive' (hslot hc)
    · exact hsame hrecord (by rw [hchannels, Function.update_of_ne hc])
  cases h with
  | pool => exact hsame rfl rfl
  | @channel k c' st ch₀ ch₁ held' obs hadv hlive₀ hvalid hstep =>
      refine ⟨_, obs_append (k := k) (c := c') rfl c, ?_⟩
      dsimp only at hlive'
      by_cases hc : c' = c
      · subst hc
        rw [Function.update_self] at hlive'
        obtain rfl : ch₁ = ch' := ChannelSlot.live.inj hlive'
        rw [hlive₀] at hlive
        obtain rfl : ch₀ = ch := ChannelSlot.live.inj hlive
        rw [if_pos rfl]
        exact hstep
      · rw [Function.update_of_ne (Ne.symm hc), hlive] at hlive'
        obtain rfl : ch = ch' := ChannelSlot.live.inj hlive'
        rw [if_neg hc]
        exact Fifo.Step.stutter
  | @created k c' st ch₀ _ _ habsent =>
      refine hsame rfl (Function.update_of_ne ?_ _ _)
      rintro rfl
      rw [habsent] at hlive
      cases hlive
  | dying => exact hne rfl rfl fun _ h => nomatch h
  | torn => exact hne rfl rfl fun _ h => nomatch h
  | freed => exact hne rfl rfl fun _ h => nomatch h

end Delivered

/-! ## Channels as lists -/

section Receive

variable {s s' : System C K n} {k : K} {c : C} {timeoutMs : Int} {ch : SysChannel n}
  {e : Event C K n}

/-- Where a call is after a section of a receive. -/
def afterReceive (c : C) (timeoutMs : Int) : ReceiveOutcome n → CallState C n
  | .wait => .receiveWait c timeoutMs
  | .leave ret out => .returned (.receive (some c) true timeoutMs) ret out

theorem receiveSection_calls
    {run : SysChannel n → SysChannel n × ReceiveOutcome n × List (Fifo.Obs (Fin n))}
    (hlive : s.channels c = .live ch) (h : s.receiveSection k c timeoutMs run = some s') :
    s'.calls k = afterReceive c timeoutMs (run ch).2.1 := by
  simp only [System.receiveSection, hlive] at h
  generalize run ch = r at h
  obtain ⟨ch', outcome, obs⟩ := r
  cases outcome with
  | wait =>
      simp only [Option.some.injEq] at h
      subst h
      exact Function.update_self ..
  | leave ret out =>
      simp only [Option.some.injEq] at h
      subst h
      exact Function.update_self ..

end Receive

/-- A pool of one buffer, and no channel yet. -/
def System.sample : System Unit (Fin 5) 1 where
  pool := { buffers := fun _ => {}, blockCapacity := 16, buffersInUse := 0 }
  channels := fun _ => .absent
  calls := fun _ => .notStarted
  held := fun _ => 0
  record := []

theorem System.sample_fresh : System.sample.Fresh Platform.lp64 :=
  ⟨⟨16, rfl⟩, rfl, rfl, rfl, rfl⟩

end Channel
end AppCore
