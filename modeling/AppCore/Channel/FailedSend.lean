/-
  AppCore.Channel.FailedSend

  What a send has done when it returns an error: it is followed through its own steps,
  which are those of a run that it takes itself, between the steps of other calls.
-/

import AppCore.Channel.CallSteps
import AppCore.Channel.Statistics
import AppCore.Channel.Ownership

namespace AppCore
namespace Channel

variable {C K : Type*} {n : Nat}

/-- The steps of a run that the call `k` takes. -/
def own [DecidableEq K] (k : K) (p : List (System C K n × Event C K n × System C K n)) :
    List (System C K n × Event C K n × System C K n) :=
  p.filter fun x => x.2.1.actor = k

/-- The queue of a channel, while there is one. -/
def System.itemsAt (s : System C K n) (c : C) : Option (List (Fin n)) :=
  (s.channels c).object.map SysChannel.items

/-- The statistics of a channel, while there is one. -/
def System.statsAt (s : System C K n) (c : C) : Option ChannelStats :=
  (s.channels c).object.map SysChannel.stats

/-- A step in which the wait of a send on the channel `c` times out. -/
def timesOut [DecidableEq C] (c : C) (x : System C K n × Event C K n × System C K n) : Bool :=
  match x.2.1 with
  | .wake k ret =>
    match x.1.calls k with
    | .sendWait c' _ _ _ => decide (c' = c ∧ waitResult ret = .timeout)
    | _ => false
  | _ => false

/-- The change of a reference count over some steps. -/
def refChange (b : Fin n) (p : List (System C K n × Event C K n × System C K n)) : Int :=
  (p.map fun x => (x.2.2.pool.count b : Int) - x.1.pool.count b).sum

/-- A step that keeps every queue, and counts only a full queue or a timeout. -/
def KeepsQueues [DecidableEq C] (x : System C K n × Event C K n × System C K n) : Prop :=
  ∀ c, x.2.2.itemsAt c = x.1.itemsAt c ∧
    x.2.2.statsAt c = (x.1.statsAt c).map (ChannelStats.counted (findsFull c x) (timesOut c x))

/-! ## What a send has spent -/

/-- What the steps `q` of a send have done: they have moved nothing, hold the references
    `refs`, and have counted at most one full queue, and the timeout. -/
structure Spent [DecidableEq C] (holds : Prop)
    (q : List (System C K n × Event C K n × System C K n)) (channel : Option C)
    (refs : List (Fin n)) (entered timeout : Bool) : Prop where
  keeps : ∀ x ∈ q, KeepsQueues x
  refs : holds → ∀ b, refChange b q = refs.count b
  full : ∀ c, q.countP (findsFull c) ≤ if channel = some c ∧ entered = true then 1 else 0
  timeouts : ∀ c, q.countP (timesOut c) = if channel = some c ∧ timeout = true then 1 else 0

/-- What a send that has not succeeded has done so far. -/
def CallState.Spends [DecidableEq C] (holds : Prop)
    (q : List (System C K n × Event C K n × System C K n)) : CallState C n → Prop
  | .notStarted => q = []
  | .sendLock c buffer _ => Spent holds q (some c) [buffer] false false
  | .sendWait c buffer _ _ => Spent holds q (some c) [buffer] true false
  | .sendRelease c _ _ ret releases =>
    ret ≠ .ok → Spent holds q (some c) releases true (decide (ret = .timeout))
  | .returned (.send channel _ _) ret _ =>
    ret ≠ .ok → Spent holds q channel [] true (decide (ret = .timeout))
  | _ => True

section Steps

variable [DecidableEq C] {holds holds' : Prop} {channel : Option C}
  {q : List (System C K n × Event C K n × System C K n)} {refs refs' : List (Fin n)}
  {entered timeout : Bool} {x : System C K n × Event C K n × System C K n}

theorem Spent.nil : Spent (K := K) holds [] channel ([] : List (Fin n)) entered false where
  keeps := fun _ hx => by cases hx
  refs := fun _ b => rfl
  full := fun c => Nat.zero_le _
  timeouts := fun c => by simp

/-- A step that writes no channel. -/
theorem Spent.quiet (h : Spent holds q channel refs entered timeout) (hholds : holds' → holds)
    (hchannels : x.2.2.channels = x.1.channels) (hfull : ∀ c, findsFull c x = false)
    (htimeout : ∀ c, timesOut c x = false)
    (hrefs : holds' → ∀ b, (x.2.2.pool.count b : Int) + refs.count b =
      x.1.pool.count b + refs'.count b) :
    Spent holds' (q ++ [x]) channel refs' entered timeout where
  keeps := by
    intro y hy
    rcases List.mem_append.mp hy with hy | hy
    · exact h.keeps y hy
    · obtain rfl := List.mem_singleton.mp hy
      intro c
      rw [System.itemsAt, System.itemsAt, System.statsAt, System.statsAt, hchannels, hfull,
        htimeout]
      exact ⟨rfl, Option.map_id'.symm ▸ rfl⟩
  refs := by
    intro hall b
    have hbefore := h.refs (hholds hall) b
    have hstep := hrefs hall b
    simp only [refChange, List.map_append, List.sum_append, List.map_cons, List.map_nil,
      List.sum_singleton] at hbefore ⊢
    omega
  full := fun c => by
    rw [List.countP_append, List.countP_singleton, hfull]
    exact h.full c
  timeouts := fun c => by
    rw [List.countP_append, List.countP_singleton, htimeout]
    exact h.timeouts c

theorem KeepsQueues.section_of_fails [DecidableEq K] {s : System C K n} {k : K} {c : C}
    {e : Event C K n} {st : CallState C n} {ch : SysChannel n} {buffer : Fin n}
    {full timeout : Bool} {r : SysChannel n × SendOutcome n × List (Fifo.Obs (Fin n))}
    (hlive : s.channels c = .live ch) (hfails : SendFails ch buffer full timeout r)
    (hfull : ∀ c', findsFull c' (s, e, ((s.setChannel c (.live r.1)).setCall k st).observe k c
      r.2.2) = (decide (c' = c) && full))
    (htimeout : ∀ c', timesOut c' (s, e, ((s.setChannel c (.live r.1)).setCall k st).observe k c
      r.2.2) = (decide (c' = c) && timeout)) :
    KeepsQueues (s, e, ((s.setChannel c (.live r.1)).setCall k st).observe k c r.2.2) := by
  intro c'
  rw [hfull, htimeout]
  by_cases hc : c' = c
  · subst hc
    have hafter : (((s.setChannel c' (.live r.1)).setCall k st).observe k c' r.2.2).channels c' =
        .live { ch with stats := ch.stats.counted full timeout } := by
      rw [← hfails.channel]
      exact Function.update_self ..
    simp only [System.itemsAt, System.statsAt, hafter, hlive, ChannelSlot.object, Option.map_some,
      decide_true, Bool.true_and]
    exact ⟨rfl, trivial⟩
  · have hafter : (((s.setChannel c (.live r.1)).setCall k st).observe k c r.2.2).channels c' =
        s.channels c' := Function.update_of_ne hc _ _
    simp only [System.itemsAt, System.statsAt, hafter, decide_eq_false hc, Bool.false_and]
    exact ⟨trivial, Option.map_id'.symm ▸ rfl⟩

/-- A section that waits or fails. -/
theorem Spent.section_of_fails [DecidableEq K] {s : System C K n} {k : K} {c : C}
    {e : Event C K n} {st : CallState C n} {ch : SysChannel n} {buffer : Fin n}
    {full timeout : Bool} {r : SysChannel n × SendOutcome n × List (Fifo.Obs (Fin n))}
    (h : Spent holds q (some c) [buffer] entered false) (hholds : holds' → holds)
    (hentered : entered = true → full = false) (hlive : s.channels c = .live ch)
    (hfails : SendFails ch buffer full timeout r)
    (hfull : ∀ c', findsFull c' (s, e, ((s.setChannel c (.live r.1)).setCall k st).observe k c
      r.2.2) = (decide (c' = c) && full))
    (htimeout : ∀ c', timesOut c' (s, e, ((s.setChannel c (.live r.1)).setCall k st).observe k c
      r.2.2) = (decide (c' = c) && timeout)) :
    Spent holds' (q ++ [(s, e, ((s.setChannel c (.live r.1)).setCall k st).observe k c r.2.2)])
      (some c) [buffer] true timeout where
  keeps := by
    intro y hy
    rcases List.mem_append.mp hy with hy | hy
    · exact h.keeps y hy
    · obtain rfl := List.mem_singleton.mp hy
      exact KeepsQueues.section_of_fails hlive hfails hfull htimeout
  refs := by
    intro hall b
    have hbefore := h.refs (hholds hall) b
    simp only [refChange, List.map_append, List.sum_append, List.map_cons, List.map_nil,
      List.sum_singleton] at hbefore ⊢
    show _ + ((s.pool.count b : Int) - s.pool.count b) = _
    omega
  full := fun c' => by
    have hbefore := h.full c'
    rw [List.countP_append, List.countP_singleton, hfull]
    by_cases hc : c' = c
    · subst hc
      simp only [true_and] at hbefore
      simp only [decide_true, Bool.true_and, and_self, if_true]
      cases entered with
      | true =>
          rw [hentered rfl]
          exact hbefore
      | false =>
          have hzero : q.countP (findsFull c') ≤ 0 := hbefore
          split <;> omega
    · have hne : ¬ (some c = some c') := fun heq => hc (Option.some.inj heq).symm
      simp only [hne, false_and, if_false] at hbefore ⊢
      simp only [decide_eq_false hc, Bool.false_and]
      exact hbefore
  timeouts := fun c' => by
    have hbefore := h.timeouts c'
    rw [if_neg fun hall => by cases hall.2] at hbefore
    rw [List.countP_append, List.countP_singleton, htimeout, hbefore, Nat.zero_add]
    by_cases hc : c' = c
    · subst hc
      simp
    · have hne : ¬ (some c = some c') := fun heq => hc (Option.some.inj heq).symm
      simp [hne, hc]

/-- A section of a send that may go on to anything. -/
theorem afterSend_spends [DecidableEq K] {c : C} {buffer : Fin n} {timeoutMs : Int}
    {timeout : Bool} {ch : SysChannel n} {full : Bool}
    {r : SysChannel n × SendOutcome n × List (Fifo.Obs (Fin n))}
    (hr : SendFails ch buffer full timeout r ∨ ∃ releases, r.2.1 = .leave .ok releases)
    (h : SendFails ch buffer full timeout r → Spent holds q (some c) [buffer] true timeout) :
    (afterSend c buffer timeoutMs r.2.1).Spends holds q := by
  rcases hr with hfails | ⟨releases, hok⟩
  · have hspent := h hfails
    rcases hfails.outcome with ⟨hout, rfl⟩ | ⟨ret, hret, hout, htimeout⟩
    · rw [hout]
      exact hspent
    · rw [hout]
      intro _
      have hdec : decide (ret = .timeout) = timeout := by
        cases timeout with
        | true => exact decide_eq_true (htimeout.mpr rfl)
        | false => exact decide_eq_false fun heq => by cases htimeout.mp heq
      rw [hdec]
      exact hspent
  · rw [hok]
    exact fun hne => absurd rfl hne

/-- A step of a send keeps account of what it has spent. -/
theorem SendStep.spends [DecidableEq K] {P : Platform} {s s' : System C K n} {k : K}
    {e : Event C K n} (hstep : SendStep P k s e s') (hs : s.Sound P)
    (hbal : holds → s.Balanced P) (hholds : holds' → holds) (h : (s.calls k).Spends holds q) :
    (s'.calls k).Spends holds' (q ++ [(s, e, s')]) := by
  have hone : ∀ b i : Fin n, ([b].count i : Int) = if i = b then 1 else 0 := by
    intro b i
    by_cases hi : i = b
    · simp [hi]
    · simp [hi, Ne.symm hi]
  cases hstep with
  | @refused channel buffer timeoutMs ret hk hwhy =>
      rw [hk] at h
      obtain rfl : q = [] := h
      rw [setCall_calls]
      intro _
      have hret : decide (ret = .timeout) = false := by
        rcases hwhy with rfl | rfl | rfl <;> rfl
      rw [hret]
      have hnil : Spent holds ([] : List (System C K n × Event C K n × System C K n)) channel
          ([] : List (Fin n)) true false := Spent.nil
      exact hnil.quiet hholds rfl (fun _ => rfl) (fun _ => rfl) fun _ b => rfl
  | @retained c buffer timeoutMs pool ch hk hlive hret =>
      rw [hk] at h
      obtain rfl : q = [] := h
      rw [setCall_calls]
      have hnil : Spent holds ([] : List (System C K n × Event C K n × System C K n)) (some c)
          ([] : List (Fin n)) false false := Spent.nil
      refine hnil.quiet hholds rfl (fun _ => rfl) (fun _ => rfl) fun hall b => ?_
      rcases sysBufferRetain_spec (hbal (hholds hall)).counted (some buffer) with
        ⟨b', hb', -, -, -, hcount⟩ | ⟨ret, hne, heq⟩
      · obtain rfl : buffer = b' := Option.some.inj hb'
        rw [hret] at hcount
        have hb := hcount b
        dsimp only at hb
        rw [hone]
        show (pool.count b : Int) + 0 = s.pool.count b + _
        rw [hb]
        split <;> omega
      · rw [hret] at heq
        exact absurd (congrArg Prod.fst heq).symm hne
  | @entered c buffer timeoutMs ch r hk hlive hr =>
      have hvalid := hs.valid c ch (by rw [hlive]; rfl)
      rw [hk] at h
      have hresult := sendEnter_result hvalid buffer timeoutMs
      rw [hr] at hresult
      show ((System.setCall _ k _).calls k).Spends holds' _
      rw [setCall_calls]
      refine afterSend_spends hresult fun hfails => ?_
      refine h.section_of_fails hholds (fun he => by cases he) hlive hfails (fun c' => ?_)
        fun c' => (Bool.and_false _).symm
      simp only [findsFull, hk]
      by_cases hc : c' = c
      · subst hc
        simp [hlive]
      · have hc' : ¬ c = c' := fun heq => hc heq.symm
        cases s.channels c' <;> simp [hc, hc']
  | @woken c buffer timeoutMs ret ch r hk hlive hr =>
      rw [hk] at h
      have hresult := sendWake_result (P := P) ch buffer timeoutMs ret
      rw [hr] at hresult
      show ((System.setCall _ k _).calls k).Spends holds' _
      rw [setCall_calls]
      refine afterSend_spends hresult fun hfails => ?_
      refine h.section_of_fails hholds (fun _ => rfl) hlive hfails
        (fun c' => (Bool.and_false _).symm) fun c' => ?_
      by_cases hc : c' = c
      · subst hc
        simp [timesOut, hk]
      · have hc' : ¬ c = c' := fun heq => hc heq.symm
        simp [timesOut, hk, hc, hc']
  | @released c buffer timeoutMs ret x rest hk =>
      rw [hk] at h
      rw [setCall_calls]
      intro hret
      refine (h hret).quiet hholds rfl (fun c' => by simp [findsFull, hk]) (fun _ => rfl)
        fun hall b => ?_
      -- the send still has its reference, so the count is not zero
      have hpos : 0 < s.pool.count x :=
        (hbal (hholds hall)).count_pos (Or.inr (Or.inr ⟨k, by rw [hk]; exact List.mem_cons_self⟩))
      have hb := (sysBufferRelease_spec (hbal (hholds hall)).counted (Nat.ne_of_gt hpos)).2 b
      rw [count_cons_eq x b rest]
      show ((sysBufferRelease P (some x) s.pool).count b : Int) + ((([x].count b + rest.count b :
        Nat)) : Int) = _
      rw [Nat.cast_add, hone]
      show _ = (s.pool.count b : Int) + _
      rw [← hb]
      split <;> omega
  | @returned c buffer timeoutMs ret hk =>
      rw [hk] at h
      rw [setCall_calls]
      intro hret
      exact (h hret).quiet hholds rfl (fun c' => by simp [findsFull, hk]) (fun _ => rfl)
        fun _ b => rfl

theorem Spent.mono (h : Spent holds q channel refs entered timeout) (hholds : holds' → holds) :
    Spent holds' q channel refs entered timeout :=
  ⟨h.keeps, fun hall => h.refs (hholds hall), h.full, h.timeouts⟩

theorem CallState.Spends.mono {st : CallState C n} (h : st.Spends holds q)
    (hholds : holds' → holds) : st.Spends holds' q := by
  cases st with
  | notStarted => exact h
  | sendLock c buffer timeoutMs => exact Spent.mono h hholds
  | sendWait c buffer dropped timeoutMs => exact Spent.mono h hholds
  | sendRelease c buffer timeoutMs ret releases => exact fun hret => (h hret).mono hholds
  | returned call ret out =>
      cases call with
      | send channel buffer timeoutMs => exact fun hret => (h hret).mono hholds
      | _ => trivial
  | _ => trivial

theorem CallState.spends_of_not_maySend {st : CallState C n} (h : ¬ st.MaySend) :
    st.Spends holds q := by
  cases st with
  | notStarted => exact absurd trivial h
  | sendLock c buffer timeoutMs => exact absurd trivial h
  | sendWait c buffer dropped timeoutMs => exact absurd trivial h
  | sendRelease c buffer timeoutMs ret releases => exact absurd trivial h
  | returned call ret out =>
      cases call with
      | send channel buffer timeoutMs => exact absurd trivial h
      | _ => trivial
  | _ => trivial

end Steps

/-! ## Runs -/

section Runs

variable [DecidableEq C] [DecidableEq K] {P : Platform} {s s' : System C K n}
  {e : Event C K n} {p : List (System C K n × Event C K n × System C K n)}

/-- The callers of a run release only buffers they hold. -/
def HoldsAlong (p : List (System C K n × Event C K n × System C K n)) : Prop :=
  ∀ x ∈ p, Holds x.1 x.2.1

omit [DecidableEq C] in
theorem own_snoc_of_ne {k : K} (hk : k ≠ e.actor) : own k (p ++ [(s, e, s')]) = own k p := by
  rw [own, List.filter_append]
  have hne : ¬ e.actor = k := fun heq => hk heq.symm
  simp [own, hne]

omit [DecidableEq C] in
theorem own_snoc : own e.actor (p ++ [(s, e, s')]) = own e.actor p ++ [(s, e, s')] := by
  rw [own, List.filter_append]
  simp [own]

/-- Every send of a run has spent what its state says, and the references balance as long
    as the buffers are not misused. -/
theorem spends_of_path (h : (channelMachine C K n P).Path p s) :
    (HoldsAlong p → s.Balanced P) ∧ ∀ k, (s.calls k).Spends (HoldsAlong p) (own k p) := by
  refine h.invariant (I := fun p s => (HoldsAlong p → s.Balanced P) ∧
    ∀ k, (s.calls k).Spends (HoldsAlong p) (own k p)) (fun s (hs : s.Fresh P) => ?_)
    fun p u e v hpath hu hstep => ?_
  · refine ⟨fun _ => hs.balanced, fun k => ?_⟩
    rw [hs.2.2.1]
    rfl
  · have hs := sound_of_reachable hpath.reachable
    obtain ⟨hbal, hspends⟩ := hu
    have hfirst : HoldsAlong (p ++ [(u, e, v)]) → HoldsAlong p :=
      fun hall x hx => hall x (List.mem_append_left _ hx)
    refine ⟨fun hall => ?_, fun k => ?_⟩
    · have hlast : Holds u e := hall (u, e, v) (List.mem_append_right _ (List.mem_singleton_self _))
      exact (hbal (hfirst hall)).effect hlast (hs.step hstep).1
    · obtain ⟨st, hmoves⟩ := next_acts hs hstep.1
      by_cases hk : k = e.actor
      · subst hk
        rw [own_snoc]
        by_cases hsend : (v.calls e.actor).MaySend
        · have hown := next_sendStep hs hstep.1 hsend
          exact hown.spends hs hbal hfirst (hspends e.actor)
        · exact CallState.spends_of_not_maySend hsend
      · have hsame : v.calls k = u.calls k := by
          rw [hmoves.calls, Function.update_of_ne hk]
        rw [own_snoc_of_ne hk, hsame]
        exact (hspends k).mono hfirst

/-! ## `DROP_OLDEST` -/

/-- A send on the channel `c` that has waited for room, or was refused for want of it. -/
def CallState.Refused (c : C) : CallState C n → Prop
  | .sendWait c' _ _ _ => c' = c
  | .sendRelease c' _ _ ret _ => c' = c ∧ (ret = .queueFull ∨ ret = .timeout)
  | .returned (.send (some c') _ _) ret _ => c' = c ∧ (ret = .queueFull ∨ ret = .timeout)
  | _ => False

/-- The channel `c` exists, and drops nothing in any state of the run. -/
structure NeverDrops (p : List (System C K n × Event C K n × System C K n))
    (s : System C K n) (c : C) : Prop where
  stage : 1 ≤ (s.channels c).stage
  now : ∀ ch, s.channels c = .live ch → ch.fullPolicy ≠ fullDropOldest
  before : ∀ x ∈ p, ∀ ch, x.1.channels c = .live ch → ch.fullPolicy ≠ fullDropOldest

/-- The policy of a channel does not change. -/
theorem policy_of_step (hs : s.Sound P) (hstep : (channelMachine C K n P).step s e s') {c : C}
    {ch ch' : SysChannel n} (hlive : s.channels c = .live ch)
    (hlive' : s'.channels c = .live ch') : ch'.fullPolicy = ch.fullPolicy := by
  obtain ⟨st, hmoves⟩ := next_acts hs hstep.1
  cases hmoves.acts c ch' hlive' with
  | acts hlive₀ hacts _ =>
      obtain rfl := ChannelSlot.live.inj (hlive₀.symm.trans hlive)
      have hvalid := hs.valid c _ (by rw [hlive]; rfl)
      exact (hacts.accounts s' hvalid hlive).policy
  | idle hlive₀ =>
      obtain rfl := ChannelSlot.live.inj (hlive₀.symm.trans hlive)
      rfl
  | created habsent =>
      rw [hlive] at habsent
      cases habsent

theorem NeverDrops.step {c : C} (h : NeverDrops p s c) (hs : s.Sound P)
    (hstep : (channelMachine C K n P).step s e s') : NeverDrops (p ++ [(s, e, s')]) s' c := by
  have hstage := (hs.step hstep).1.stage_le c
  refine ⟨le_trans h.stage hstage, fun ch' hlive' => ?_, fun x hx => ?_⟩
  · rw [hlive'] at hstage
    obtain ⟨ch, hlive⟩ := ChannelSlot.live_of_stage (le_antisymm hstage h.stage)
    rw [policy_of_step hs hstep hlive hlive']
    exact h.now ch hlive
  · rcases List.mem_append.mp hx with hx | hx
    · exact h.before x hx
    · obtain rfl := List.mem_singleton.mp hx
      exact h.now

/-- The policies along a run, and the sends that were refused for want of room. -/
structure Policies (p : List (System C K n × Event C K n × System C K n))
    (s : System C K n) : Prop where
  stage : ∀ x ∈ p, ∀ c, (x.1.channels c).stage ≤ (s.channels c).stage
  policy : ∀ x ∈ p, ∀ c ch ch', x.1.channels c = .live ch → s.channels c = .live ch' →
    ch'.fullPolicy = ch.fullPolicy
  refused : ∀ k c, (s.calls k).Refused c → NeverDrops p s c

omit [DecidableEq C] [DecidableEq K] in
/-- A section of a send on a channel that drops is never refused for want of room. -/
theorem not_refused_of_dropOldest {c c' : C} {ch : SysChannel n} {buffer : Fin n}
    {timeoutMs : Int} (hvalid : ch.Valid P)
    (h : (afterSend c buffer timeoutMs (sendEnter P buffer timeoutMs ch).2.1).Refused c') :
    c' = c ∧ ch.fullPolicy ≠ fullDropOldest := by
  constructor
  · cases hout : (sendEnter P buffer timeoutMs ch).2.1 with
    | wait dropped =>
        rw [hout] at h
        exact Eq.symm h
    | leave ret releases =>
        rw [hout] at h
        exact h.1.symm
  · intro hpolicy
    obtain ⟨ret, releases, hout, hret⟩ := sendEnter_dropOldest hvalid buffer timeoutMs hpolicy
    rw [hout] at h
    obtain ⟨-, hwant⟩ := h
    rcases hret with rfl | rfl
    · rcases hwant with hw | hw <;> cases hw
    · rcases hwant with hw | hw <;> cases hw

theorem Policies.step (h : Policies p s) (hs : s.Sound P)
    (hstep : (channelMachine C K n P).step s e s') : Policies (p ++ [(s, e, s')]) s' := by
  have hstage := (hs.step hstep).1.stage_le
  refine ⟨fun x hx c => ?_, fun x hx c ch ch' hlive hlive' => ?_, fun k c hrefused => ?_⟩
  · rcases List.mem_append.mp hx with hx | hx
    · exact le_trans (h.stage x hx c) (hstage c)
    · obtain rfl := List.mem_singleton.mp hx
      exact hstage c
  · rcases List.mem_append.mp hx with hx | hx
    · -- the channel is live in between
      have hle := h.stage x hx c
      have hle' := hstage c
      rw [hlive] at hle
      rw [hlive'] at hle'
      obtain ⟨ch₀, hlive₀⟩ := ChannelSlot.live_of_stage (le_antisymm hle' hle)
      rw [policy_of_step hs hstep hlive₀ hlive']
      exact h.policy x hx c ch ch₀ hlive hlive₀
    · obtain rfl := List.mem_singleton.mp hx
      exact policy_of_step hs hstep hlive hlive'
  · obtain ⟨st, hmoves⟩ := next_acts hs hstep.1
    by_cases hk : k = e.actor
    · subst hk
      have hsend : (s'.calls e.actor).MaySend := by
        generalize s'.calls e.actor = st' at hrefused
        cases st' with
        | returned call ret out =>
            cases call with
            | send channel buffer timeoutMs => trivial
            | _ => exact hrefused.elim
        | sendWait c' buffer dropped timeoutMs => trivial
        | sendRelease c' buffer timeoutMs ret releases => trivial
        | _ => exact hrefused.elim
      have hown := next_sendStep hs hstep.1 hsend
      generalize hactor : e.actor = k at hown hrefused
      suffices NeverDrops p s c from this.step hs hstep
      -- only a section on the channel can refuse, and what refused before still does
      cases hown with
      | @refused channel buffer timeoutMs ret hk hwhy =>
          rw [setCall_calls] at hrefused
          cases channel with
          | none => exact hrefused.elim
          | some c' =>
              obtain ⟨-, hwant⟩ := hrefused
              rcases hwhy with rfl | rfl | rfl <;> rcases hwant with hw | hw <;> cases hw
      | retained =>
          rw [setCall_calls] at hrefused
          exact hrefused.elim
      | @entered c' buffer timeoutMs ch r hk hlive hr =>
          have hvalid := hs.valid c' ch (by rw [hlive]; rfl)
          change ((System.setCall _ k _).calls k).Refused c at hrefused
          rw [setCall_calls, ← hr] at hrefused
          obtain ⟨rfl, hpolicy⟩ := not_refused_of_dropOldest hvalid hrefused
          refine ⟨by rw [hlive]; exact le_refl 1, fun ch' hlive' => ?_, fun x hx ch' hlive' => ?_⟩
          · obtain rfl := ChannelSlot.live.inj (hlive.symm.trans hlive')
            exact hpolicy
          · rw [← h.policy x hx c ch' ch hlive' hlive]
            exact hpolicy
      | @woken c' buffer timeoutMs ret ch r hk hlive hr =>
          -- a send that waits has been refused already
          change ((System.setCall _ k _).calls k).Refused c at hrefused
          rw [setCall_calls] at hrefused
          have hc : c' = c := by
            cases hout : r.2.1 with
            | wait dropped =>
                rw [hout] at hrefused
                exact hrefused
            | leave ret releases =>
                rw [hout] at hrefused
                exact hrefused.1
          apply h.refused k c
          rw [hk]
          exact hc
      | @released c' buffer timeoutMs ret x rest hk =>
          rw [setCall_calls] at hrefused
          apply h.refused k c
          rw [hk]
          exact hrefused
      | @returned c' buffer timeoutMs ret hk =>
          rw [setCall_calls] at hrefused
          apply h.refused k c
          rw [hk]
          exact hrefused
    · have hsame : s'.calls k = s.calls k := by
        rw [hmoves.calls, Function.update_of_ne hk]
      rw [hsame] at hrefused
      exact (h.refused k c hrefused).step hs hstep

theorem policies_of_path (h : (channelMachine C K n P).Path p s) : Policies p s := by
  refine h.invariant (I := Policies) (fun s (hs : s.Fresh P) => ?_) fun p u e v hpath hu hstep =>
    hu.step (sound_of_reachable hpath.reachable) hstep
  refine ⟨fun x hx => (List.not_mem_nil hx).elim, fun x hx => (List.not_mem_nil hx).elim,
    fun k c hrefused => ?_⟩
  rw [hs.2.2.1] at hrefused
  exact hrefused.elim

/-! ## Failed sends -/

/-- What a send that has returned the error `ret` has done. -/
structure FailedSend (p : List (System C K n × Event C K n × System C K n))
    (s : System C K n) (k : K) (channel : Option C) (ret : SysErr) : Prop where
  /-- No step of it has changed a queue, or a counter other than `full_count` and
      `timeout_count`. -/
  keeps : ∀ x ∈ own k p, KeepsQueues x
  record : s.recordOf k = []
  /-- It has given back what it had retained, when the buffers are not misused. -/
  refs : HoldsAlong p → ∀ b, refChange b (own k p) = 0
  /-- It has found a queue full at most once, and only that of its own channel. -/
  full : ∀ c, (own k p).countP (findsFull c) ≤ if channel = some c then 1 else 0
  /-- It has counted a timeout exactly if it returns one. -/
  timeouts : ∀ c, (own k p).countP (timesOut c) =
    if channel = some c ∧ ret = .timeout then 1 else 0

/-- A send that fails has had no effect, and a send under `DROP_OLDEST` neither waits nor
    fails for want of room. -/
theorem failed_send_no_effect (h : (channelMachine C K n P).Path p s) :
    (∀ k channel buffer timeoutMs ret out,
      s.calls k = .returned (.send channel buffer timeoutMs) ret out → ret ≠ .ok →
        FailedSend p s k channel ret) ∧
    (∀ k c buffer dropped timeoutMs ch, s.calls k = .sendWait c buffer dropped timeoutMs →
      s.channels c = .live ch → ch.fullPolicy ≠ fullDropOldest) ∧
    ∀ k c buffer timeoutMs ret out,
      s.calls k = .returned (.send (some c) buffer timeoutMs) ret out →
        ret = .queueFull ∨ ret = .timeout →
          ∀ x ∈ p, ∀ ch, x.1.channels c = .live ch → ch.fullPolicy ≠ fullDropOldest := by
  have hpolicies := policies_of_path h
  refine ⟨fun k channel buffer timeoutMs ret out hk hret => ?_,
    fun k c buffer dropped timeoutMs ch hk hlive => ?_,
    fun k c buffer timeoutMs ret out hk hwant x hx ch hlive => ?_⟩
  · have hspends := (spends_of_path h).2 k
    have hreports := (delivered_of_reachable h.reachable).reports k
    rw [hk] at hspends hreports
    have hspent := hspends hret
    refine ⟨hspent.keeps, ?_, fun hall b => ?_, fun c => ?_, fun c => ?_⟩
    · cases channel with
      | none => exact hreports.2
      | some c =>
          cases buffer with
          | none => exact hreports.2
          | some buffer =>
              rcases hreports with ⟨hok, -⟩ | ⟨-, hnil⟩
              · exact absurd hok hret
              · exact hnil
    · rw [hspent.refs hall b]
      rfl
    · simpa using hspent.full c
    · rw [hspent.timeouts c]
      simp only [decide_eq_true_eq]
  · exact (hpolicies.refused k c (by rw [hk]; rfl)).now ch hlive
  · have hrefused : (s.calls k).Refused c := by
      rw [hk]
      exact ⟨rfl, hwant⟩
    exact (hpolicies.refused k c hrefused).before x hx ch hlive

end Runs

/-- A second send into a channel of one slot that does not wait. -/
theorem failed_send_no_effect_full :
    ∃ (p : List (System Unit (Fin 5) 1 × Event Unit (Fin 5) 1 × System Unit (Fin 5) 1))
      (s : System Unit (Fin 5) 1),
      s.calls 3 = .returned (.send (some ()) (some 0) 0) .queueFull none ∧
        HoldsAlong p ∧ FailedSend p s 3 (some ()) .queueFull ∧ refChange 0 (own 3 p) = 0 := by
  have hlast : Machine.Along (next Platform.lp64) LastRelease System.sample
      [.call 0 (.create () (some ⟨1, fullFail⟩) true .ok), .call 1 (.bufferAcquire true),
        .call 2 (.send (some ()) (some 0) 0), .proceed 2, .call 3 (.send (some ()) (some 0) 0),
        .proceed 3, .proceed 3, .proceed 3] := by
    exact ⟨trivial, fun _ _ => ⟨trivial, fun _ _ => ⟨trivial, fun _ _ => ⟨trivial, fun _ _ =>
      ⟨trivial, fun _ _ => ⟨trivial, fun _ _ => ⟨trivial, fun _ _ => ⟨trivial, fun _ _ =>
        trivial⟩⟩⟩⟩⟩⟩⟩⟩
  have hexec : ∃ s, Machine.exec (next Platform.lp64) System.sample
      [.call 0 (.create () (some ⟨1, fullFail⟩) true .ok), .call 1 (.bufferAcquire true),
        .call 2 (.send (some ()) (some 0) 0), .proceed 2, .call 3 (.send (some ()) (some 0) 0),
        .proceed 3, .proceed 3, .proceed 3] = some s ∧
      s.calls 3 = .returned (.send (some ()) (some 0) 0) .queueFull none := ⟨_, rfl, rfl⟩
  obtain ⟨s, hexec, hk⟩ := hexec
  have hrun : (channelMachine Unit (Fin 5) 1 Platform.lp64).Run System.sample _ s :=
    Machine.Run.of_exec_along hexec hlast
  obtain ⟨p, hpath, hevents⟩ := hrun.exists_path System.sample_fresh
  have hholds : HoldsAlong p := by
    intro x hx
    have hmem : x.2.1 ∈ p.map fun x => x.2.1 := List.mem_map_of_mem hx
    rw [hevents] at hmem
    -- none of the events releases a buffer
    simp only [List.mem_cons, List.not_mem_nil, or_false] at hmem
    rcases hmem with h | h | h | h | h | h | h | h <;> rw [h] <;> trivial
  have hfailed := (failed_send_no_effect hpath).1 3 (some ()) (some 0) 0 .queueFull none hk
    (by decide)
  exact ⟨p, s, hk, hholds, hfailed, hfailed.refs hholds 0⟩

end Channel
end AppCore
