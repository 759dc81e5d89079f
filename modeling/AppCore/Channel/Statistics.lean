/-
  AppCore.Channel.Statistics

  The counters of a channel against the record of what went through it.  The counters
  are 64-bit and wrap; the record and the steps of a run give the numbers they stand
  for.
-/

import AppCore.Channel.Sections

namespace AppCore
namespace Channel

variable {C K : Type*} {n : Nat}

/-- A step in which a send finds the channel `c` full when it first has the mutex. -/
def findsFull [DecidableEq C] (c : C) (x : System C K n × Event C K n × System C K n) : Bool :=
  match x.2.1 with
  | .proceed k =>
    match x.1.calls k, x.1.channels c with
    | .sendLock c' _ _, .live ch => decide (c' = c ∧ ch.count = ch.capacity)
    | _, _ => false
  | _ => false

theorem findsFull_of_not_at [DecidableEq C] {c : C} {s s' : System C K n} {e : Event C K n}
    (h : ¬ (s.calls e.actor).At c) : (findsFull c (s, e, s')).toNat = 0 := by
  unfold findsFull
  cases e with
  | proceed k =>
      have h : ¬ (s.calls k).At c := h
      dsimp only
      split
      · next c' _ _ ch hk _ =>
          rw [hk] at h
          have hne : ¬ c' = c := h
          simp [hne]
      · rfl
  | _ => rfl

/-- What a section from `ch` to `ch'` counts, when `os` went through the queue and `full`
    is one for a send that found it full. -/
structure Accounts (ch : SysChannel n) (os : List (Fifo.Obs (Fin n))) (full : Nat)
    (ch' : SysChannel n) : Prop where
  sent : ch'.stats.sentCount = ch.stats.sentCount + UInt64.ofNat (Fifo.accepted os).length
  received : ch'.stats.receivedCount =
    ch.stats.receivedCount + UInt64.ofNat (Fifo.received os).length
  dropped : ch'.stats.droppedCount =
    ch.stats.droppedCount + UInt64.ofNat (Fifo.dropped os).length
  full_count : ch'.stats.fullCount = ch.stats.fullCount + UInt64.ofNat full
  dropped_le : (Fifo.dropped os).length ≤ full
  policy : ch'.fullPolicy = ch.fullPolicy
  keeps : ch.fullPolicy ≠ fullDropOldest → Fifo.dropped os = []
  capacity : ch'.capacity = ch.capacity
  balance : ch.count + (Fifo.accepted os).length =
    (Fifo.received os).length + (Fifo.dropped os).length + ch'.count
  depth : ch'.count = Fifo.depth ch.count os
  watermark : ch'.stats.highWatermark =
    (Fifo.produced ch.count os).foldl max ch.stats.highWatermark
  count_le : ch.count ≤ ch.stats.highWatermark → ch'.count ≤ ch'.stats.highWatermark
  watermark_le : ch.stats.highWatermark ≤ ch.capacity → ch'.stats.highWatermark ≤ ch'.capacity

/-- The counters of a channel through which `os` went, and which `full` sends found full. -/
structure SysChannel.Accounted (ch : SysChannel n) (os : List (Fifo.Obs (Fin n)))
    (full : Nat) : Prop where
  sent : ch.stats.sentCount = UInt64.ofNat (Fifo.accepted os).length
  received : ch.stats.receivedCount = UInt64.ofNat (Fifo.received os).length
  dropped : ch.stats.droppedCount = UInt64.ofNat (Fifo.dropped os).length
  full_count : ch.stats.fullCount = UInt64.ofNat full
  dropped_le : (Fifo.dropped os).length ≤ full
  policy : ch.fullPolicy ≠ fullDropOldest → Fifo.dropped os = []
  balance : (Fifo.accepted os).length =
    (Fifo.received os).length + (Fifo.dropped os).length + ch.count
  depth : Fifo.depth 0 os = ch.count
  watermark : ch.stats.highWatermark = (Fifo.produced 0 os).foldl max 0
  count_le : ch.count ≤ ch.stats.highWatermark
  watermark_le : ch.stats.highWatermark ≤ ch.capacity

section Sections

variable {P : Platform} {ch ch' ch'' : SysChannel n} {os os' : List (Fifo.Obs (Fin n))}
  {full full' : Nat}

/-- Sections one after the other. -/
theorem Accounts.trans (h : Accounts ch os full ch') (h' : Accounts ch' os' full' ch'') :
    Accounts ch (os ++ os') (full + full') ch'' where
  sent := by
    rw [h'.sent, h.sent, Fifo.accepted_append, List.length_append, UInt64.ofNat_add,
      UInt64.add_assoc]
  received := by
    rw [h'.received, h.received, Fifo.received_append, List.length_append, UInt64.ofNat_add,
      UInt64.add_assoc]
  dropped := by
    rw [h'.dropped, h.dropped, Fifo.dropped_append, List.length_append, UInt64.ofNat_add,
      UInt64.add_assoc]
  full_count := by rw [h'.full_count, h.full_count, UInt64.ofNat_add, UInt64.add_assoc]
  dropped_le := by
    rw [Fifo.dropped_append, List.length_append]
    exact Nat.add_le_add h.dropped_le h'.dropped_le
  policy := h'.policy.trans h.policy
  keeps := fun hne => by
    rw [Fifo.dropped_append, h.keeps hne, h'.keeps (h.policy ▸ hne)]
    rfl
  capacity := h'.capacity.trans h.capacity
  balance := by
    have h₁ := h.balance
    have h₂ := h'.balance
    rw [Fifo.accepted_append, Fifo.received_append, Fifo.dropped_append, List.length_append,
      List.length_append, List.length_append]
    omega
  depth := by rw [h'.depth, h.depth, Fifo.depth_append]
  watermark := by
    rw [h'.watermark, h.watermark, Fifo.produced_append, List.foldl_append, h.depth]
  count_le := fun hle => h'.count_le (h.count_le hle)
  watermark_le := fun hle => h'.watermark_le (h.watermark_le hle)

/-- A section that moves nothing and counts at most a full queue. -/
theorem Accounts.quiet (hcount : ch'.count = ch.count) (hcap : ch'.capacity = ch.capacity)
    (hpolicy : ch'.fullPolicy = ch.fullPolicy)
    (hstats : ch'.stats = { ch.stats with
      fullCount := ch'.stats.fullCount
      timeoutCount := ch'.stats.timeoutCount })
    (hfull : ch'.stats.fullCount = ch.stats.fullCount + UInt64.ofNat full) :
    Accounts ch [] full ch' where
  sent := by rw [hstats]; exact (UInt64.add_zero _).symm
  received := by rw [hstats]; exact (UInt64.add_zero _).symm
  dropped := by rw [hstats]; exact (UInt64.add_zero _).symm
  full_count := hfull
  dropped_le := Nat.zero_le _
  policy := hpolicy
  keeps := fun _ => rfl
  capacity := hcap
  balance := by rw [hcount]; exact Nat.add_comm ch.count 0
  depth := hcount
  watermark := by rw [hstats]; rfl
  count_le := fun hle => by rw [hcount, hstats]; exact hle
  watermark_le := fun hle => by rw [hcap, hstats]; exact hle

/-- The oldest buffer is taken out for a new one. -/
theorem Accounts.drop {x : Fin n} (hcount : 0 < ch.count)
    (hpolicy : ch.fullPolicy = fullDropOldest) :
    Accounts ch [.dropped x] 1 { (ch.takeHead P).2 with
      stats := { ch.stats with
        fullCount := ch.stats.fullCount + 1
        droppedCount := ch.stats.droppedCount + 1 } } where
  sent := (UInt64.add_zero _).symm
  received := (UInt64.add_zero _).symm
  dropped := rfl
  full_count := rfl
  dropped_le := Nat.le_refl 1
  policy := rfl
  keeps := fun hne => absurd hpolicy hne
  capacity := rfl
  balance := by
    show ch.count + 0 = 0 + 1 + (ch.count - 1)
    omega
  depth := rfl
  watermark := rfl
  count_le := fun hle => le_trans (Nat.sub_le _ _) hle
  watermark_le := id

/-- A buffer is taken out by a receive. -/
theorem Accounts.take {x : Fin n} (hcount : 0 < ch.count) :
    Accounts ch [.received x] 0 { (ch.takeHead P).2 with
      stats := { ch.stats with receivedCount := ch.stats.receivedCount + 1 } } where
  sent := (UInt64.add_zero _).symm
  received := rfl
  dropped := (UInt64.add_zero _).symm
  full_count := (UInt64.add_zero _).symm
  dropped_le := Nat.le_refl 0
  policy := rfl
  keeps := fun _ => rfl
  capacity := rfl
  balance := by
    show ch.count + 0 = 1 + 0 + (ch.count - 1)
    omega
  depth := rfl
  watermark := rfl
  count_le := fun hle => le_trans (Nat.sub_le _ _) hle
  watermark_le := id

/-- A buffer is put into the queue. -/
theorem Accounts.push {x : Fin n} {queue : Nat → Option (Fin n)} (hlt : ch.count < ch.capacity) :
    Accounts ch [.accepted x] 0 { ch with
      queue := queue
      count := ch.count + 1
      stats := { ch.stats with
        sentCount := ch.stats.sentCount + 1
        highWatermark := if ch.count + 1 > ch.stats.highWatermark then ch.count + 1
          else ch.stats.highWatermark } } where
  sent := rfl
  received := (UInt64.add_zero _).symm
  dropped := (UInt64.add_zero _).symm
  full_count := (UInt64.add_zero _).symm
  dropped_le := Nat.le_refl 0
  policy := rfl
  keeps := fun _ => rfl
  capacity := rfl
  balance := by
    show ch.count + 1 = 0 + 0 + (ch.count + 1)
    omega
  depth := rfl
  watermark := by
    show (if ch.count + 1 > ch.stats.highWatermark then ch.count + 1
      else ch.stats.highWatermark) = max ch.stats.highWatermark (ch.count + 1)
    split <;> omega
  count_le := fun _ => by
    show ch.count + 1 ≤ if ch.count + 1 > ch.stats.highWatermark then ch.count + 1
      else ch.stats.highWatermark
    split <;> omega
  watermark_le := fun hle => by
    show (if ch.count + 1 > ch.stats.highWatermark then ch.count + 1
      else ch.stats.highWatermark) ≤ ch.capacity
    split <;> omega

/-- The counters after one more section. -/
theorem SysChannel.Accounted.step (h : ch.Accounted os full) (hstep : Accounts ch os' full' ch') :
    ch'.Accounted (os ++ os') (full + full') where
  sent := by
    rw [hstep.sent, h.sent, Fifo.accepted_append, List.length_append, UInt64.ofNat_add]
  received := by
    rw [hstep.received, h.received, Fifo.received_append, List.length_append, UInt64.ofNat_add]
  dropped := by
    rw [hstep.dropped, h.dropped, Fifo.dropped_append, List.length_append, UInt64.ofNat_add]
  full_count := by rw [hstep.full_count, h.full_count, UInt64.ofNat_add]
  dropped_le := by
    rw [Fifo.dropped_append, List.length_append]
    exact Nat.add_le_add h.dropped_le hstep.dropped_le
  policy := fun hne => by
    rw [hstep.policy] at hne
    rw [Fifo.dropped_append, h.policy hne, hstep.keeps hne]
    rfl
  balance := by
    have h₁ := h.balance
    have h₂ := hstep.balance
    rw [Fifo.accepted_append, Fifo.received_append, Fifo.dropped_append, List.length_append,
      List.length_append, List.length_append]
    omega
  depth := by rw [Fifo.depth_append, h.depth, hstep.depth]
  watermark := by
    rw [hstep.watermark, h.watermark, Fifo.produced_append, List.foldl_append, h.depth]
  count_le := hstep.count_le h.count_le
  watermark_le := hstep.watermark_le h.watermark_le

/-! ## The sections -/

theorem Accounts.refl : Accounts ch [] 0 ch :=
  Accounts.quiet rfl rfl rfl rfl (UInt64.add_zero _).symm

theorem sendWaitFailed_accounts (ret : SysErr) (buffer : Fin n) :
    Accounts ch [] 0 (sendWaitFailed ret buffer ch).1 := by
  unfold sendWaitFailed
  split
  · exact Accounts.quiet rfl rfl rfl rfl (UInt64.add_zero _).symm
  · exact Accounts.refl

theorem sendLoop_accounts (hle : ch.count ≤ ch.capacity) (buffer : Fin n)
    (dropped : Option (Fin n)) (timeoutMs : Int) :
    Accounts ch (sendLoop P buffer dropped timeoutMs ch).2.2 0
      (sendLoop P buffer dropped timeoutMs ch).1 := by
  unfold sendLoop
  split
  · split
    · exact Accounts.refl
    · exact sendWaitFailed_accounts _ buffer
  · next hfull =>
      split
      · exact Accounts.refl
      · next hopen =>
          have hlt : ch.count < ch.capacity := by
            refine lt_of_le_of_ne hle fun heq => hfull ⟨heq, ?_⟩
            simpa using hopen
          exact Accounts.push hlt

theorem sendWake_accounts (hle : ch.count ≤ ch.capacity) (buffer : Fin n)
    (dropped : Option (Fin n)) (timeoutMs ret : Int) :
    Accounts ch (sendWake P buffer dropped timeoutMs ret ch).2.2 0
      (sendWake P buffer dropped timeoutMs ret ch).1 := by
  unfold sendWake
  split
  · exact sendWaitFailed_accounts _ buffer
  · exact sendLoop_accounts hle buffer dropped timeoutMs

/-- The first section of a send counts a full queue, and what it drops for its buffer. -/
theorem sendEnter_accounts (hvalid : ch.Valid P) (buffer : Fin n) (timeoutMs : Int) :
    Accounts ch (sendEnter P buffer timeoutMs ch).2.2
      (decide (ch.count = ch.capacity)).toNat (sendEnter P buffer timeoutMs ch).1 := by
  have hle := hvalid.count_le
  by_cases hfull : ch.count = ch.capacity
  · rw [decide_eq_true hfull, Bool.toNat_true]
    unfold sendEnter
    simp only [if_pos hfull]
    by_cases hdrop : ch.fullPolicy = fullDropOldest ∧ ch.closed = false
    · have hpos : 0 < ch.count := by
        rw [hfull]
        exact hvalid.capacity_pos
      obtain ⟨x, rest, -, hhead, -⟩ := hvalid.takeHead hpos
      have hhead : ch.queue ch.head = some x := hhead
      rw [if_pos ⟨hfull, hdrop⟩]
      -- the oldest buffer goes, and then the loop runs on what is left
      show Accounts ch ((ch.queue ch.head).toList.map Fifo.Obs.dropped ++ _) 1 _
      rw [hhead]
      refine (Accounts.drop (P := P) hpos hdrop.1).trans (sendLoop_accounts ?_ buffer _ timeoutMs)
      show ch.count - 1 ≤ ch.capacity
      omega
    · rw [if_neg fun hall => hdrop hall.2]
      have hcounted : Accounts ch [] 1 { ch with
          stats := { ch.stats with fullCount := ch.stats.fullCount + 1 } } :=
        Accounts.quiet rfl rfl rfl rfl rfl
      refine hcounted.trans (sendLoop_accounts ?_ buffer none timeoutMs)
      exact hle
  · unfold sendEnter
    simp only [hfull, if_false, false_and, decide_false, Bool.toNat_false]
    exact sendLoop_accounts hle buffer none timeoutMs

theorem receiveWaitFailed_accounts (ret : SysErr) :
    Accounts ch [] 0 (receiveWaitFailed ret ch).1 :=
  Accounts.quiet rfl rfl rfl rfl (UInt64.add_zero _).symm

theorem receiveLoop_accounts (hvalid : ch.Valid P) (timeoutMs : Int) :
    Accounts ch (receiveLoop P timeoutMs ch).2.2 0 (receiveLoop P timeoutMs ch).1 := by
  unfold receiveLoop
  split
  · split
    · exact Accounts.refl
    · next ret _ => exact receiveWaitFailed_accounts ret
  · next hempty =>
      split
      · exact Accounts.refl
      · next hclosed =>
          have hpos : 0 < ch.count := by
            by_contra hzero
            cases hc : ch.closed with
            | false => exact hempty ⟨by omega, hc⟩
            | true => exact hclosed ⟨by omega, hc⟩
          obtain ⟨x, rest, -, hhead, -⟩ := hvalid.takeHead hpos
          have hhead : ch.queue ch.head = some x := hhead
          show Accounts ch ((ch.queue ch.head).toList.map Fifo.Obs.received) 0 _
          rw [hhead]
          exact Accounts.take hpos

theorem receiveWake_accounts (hvalid : ch.Valid P) (timeoutMs ret : Int) :
    Accounts ch (receiveWake P timeoutMs ret ch).2.2 0 (receiveWake P timeoutMs ret ch).1 := by
  unfold receiveWake
  split
  · exact receiveWaitFailed_accounts (waitResult ret)
  · exact receiveLoop_accounts hvalid timeoutMs

/-- Every section counts what it did. -/
theorem Acts.accounts [DecidableEq C] {c : C} {s : System C K n} {e : Event C K n}
    {st : CallState C n} (s' : System C K n) (hvalid : ch.Valid P) (hlive : s.channels c = .live ch)
    (h : Acts P c e (s.calls e.actor) ch st ch' os) :
    Accounts ch os (findsFull c (s, e, s')).toNat ch' := by
  have hle := hvalid.count_le
  generalize hbefore : s.calls e.actor = before at h
  cases h with
  | @sendEnter k buffer timeoutMs _ r hr =>
      have hk : s.calls k = .sendLock c buffer timeoutMs := hbefore
      have hfinds : findsFull c (s, Event.proceed k, s') = decide (ch.count = ch.capacity) := by
        simp [findsFull, hk, hlive]
      rw [hfinds, ← hr]
      exact sendEnter_accounts hvalid buffer timeoutMs
  | @sendWake k buffer timeoutMs ret _ r hr =>
      rw [← hr]
      exact sendWake_accounts hle buffer none timeoutMs ret
  | @receiveEnter k timeoutMs _ r hr =>
      rw [← hr]
      exact receiveLoop_accounts hvalid timeoutMs
  | @receiveWake k timeoutMs ret _ r hr =>
      rw [← hr]
      exact receiveWake_accounts hvalid timeoutMs ret
  | close => exact Accounts.quiet rfl rfl rfl rfl (UInt64.add_zero _).symm
  | references hnot _ =>
      rw [← hbefore] at hnot
      rw [findsFull_of_not_at hnot]
      exact Accounts.quiet rfl rfl rfl rfl (UInt64.add_zero _).symm

/-- A new channel has counted nothing. -/
theorem sysChannelCreateWithConfig_accounted {config : Option ChannelConfig} {outChannel : Bool}
    {environment : SysErr}
    (h : sysChannelCreateWithConfig P config outChannel environment = (.ok, some ch)) :
    ch.Accounted [] 0 := by
  unfold sysChannelCreateWithConfig at h
  split at h
  · cases h
  · split at h
    · cases h
    · split at h
      · cases h
      · split at h
        · cases h
        · simp only [Prod.mk.injEq, Option.some.injEq, true_and] at h
          subst h
          exact ⟨rfl, rfl, rfl, rfl, Nat.le_refl 0, fun _ => rfl, rfl, rfl, rfl, Nat.le_refl 0,
            Nat.zero_le _⟩

end Sections

/-! ## The statistics of a run -/

section Runs

variable [DecidableEq C] [DecidableEq K] {P : Platform} {s s' : System C K n}
  {e : Event C K n} {c : C} {p : List (System C K n × Event C K n × System C K n)}

omit [DecidableEq K] in
theorem countP_findsFull (x : System C K n × Event C K n × System C K n) :
    (p ++ [x]).countP (findsFull c) = p.countP (findsFull c) + (findsFull c x).toNat := by
  rw [List.countP_append, List.countP_singleton]
  cases findsFull c x <;> rfl

omit [DecidableEq K] in
theorem findsFull_of_absent (h : s.channels c = .absent) :
    (findsFull c (s, e, s')).toNat = 0 := by
  unfold findsFull
  cases e with
  | proceed k =>
      dsimp only
      split
      · next hlive =>
          rw [h] at hlive
          cases hlive
      · rfl
  | _ => rfl

/-- The counters of every channel, and no count for a channel that does not exist yet. -/
def PathAccounted (p : List (System C K n × Event C K n × System C K n))
    (s : System C K n) : Prop :=
  ∀ c, (s.channels c = .absent → p.countP (findsFull c) = 0) ∧
    ∀ ch, s.channels c = .live ch → ch.Accounted (s.obs c) (p.countP (findsFull c))

theorem PathAccounted.step (hs : s.Sound P) (hd : s.Delivered) (hp : PathAccounted p s)
    (hstep : (channelMachine C K n P).step s e s') : PathAccounted (p ++ [(s, e, s')]) s' := by
  obtain ⟨heff, -⟩ := hs.step hstep
  obtain ⟨st, hmoves⟩ := next_acts hs hstep.1
  intro c
  rw [countP_findsFull]
  refine ⟨fun habsent' => ?_, fun ch' hlive' => ?_⟩
  · -- a channel that is absent now was absent before
    have hstage := heff.stage_le c
    rw [habsent'] at hstage
    have habsent := ChannelSlot.absent_of_stage hstage
    rw [(hp c).1 habsent, findsFull_of_absent habsent]
  · cases hmoves.acts c ch' hlive' with
    | acts hlive hacts hobs =>
        have hvalid := hs.valid c _ (by rw [hlive]; rfl)
        rw [hobs]
        exact ((hp c).2 _ hlive).step (hacts.accounts s' hvalid hlive)
    | idle hlive hobs hbefore _ =>
        rw [hobs, findsFull_of_not_at hbefore]
        exact (hp c).2 _ hlive
    | created habsent hobs hcreate _ =>
        rw [hobs, hd.absent c habsent, (hp c).1 habsent, findsFull_of_absent habsent]
        exact sysChannelCreateWithConfig_accounted hcreate

theorem pathAccounted (h : (channelMachine C K n P).Path p s) : PathAccounted p s := by
  refine h.invariant (fun s (hs : s.Fresh P) c => ⟨fun _ => rfl, fun ch hlive => ?_⟩)
    fun p u e v hpath hp hstep => ?_
  · rw [hs.2.1] at hlive
    cases hlive
  · exact hp.step (sound_of_reachable hpath.reachable) (delivered_of_reachable hpath.reachable)
      hstep

/-- The statistics account for every buffer that went through a channel. -/
theorem statistics_account (h : (channelMachine C K n P).Path p s) {ch : SysChannel n}
    (hlive : s.channels c = .live ch) :
    (∀ stats depth, sysChannelGetStats (some ch) true = (.ok, some (stats, depth)) →
      stats.sentCount = stats.receivedCount + stats.droppedCount + UInt64.ofNat depth) ∧
    ch.stats.sentCount = UInt64.ofNat (Fifo.accepted (s.obs c)).length ∧
    ch.stats.receivedCount = UInt64.ofNat (Fifo.received (s.obs c)).length ∧
    ch.count ≤ ch.stats.highWatermark ∧ ch.stats.highWatermark ≤ ch.capacity ∧
    ch.stats.highWatermark = (Fifo.produced 0 (s.obs c)).foldl max 0 ∧
    (p.countP (findsFull c) < 2 ^ 64 → ch.stats.droppedCount ≤ ch.stats.fullCount) ∧
    (ch.fullPolicy = fullFail → ch.stats.droppedCount = 0) ∧
    ch.stats.droppedCount = UInt64.ofNat (Fifo.dropped (s.obs c)).length ∧
    Fifo.accepted (s.obs c) = Fifo.removed (s.obs c) ++ ch.items ∧
    ∀ e s' ch', (channelMachine C K n P).step s e s' → s'.channels c = .live ch' →
      ∃ os, s'.obs c = s.obs c ++ os ∧
        ch'.stats.droppedCount = ch.stats.droppedCount + UInt64.ofNat (Fifo.dropped os).length := by
  have hs := sound_of_reachable h.reachable
  have hacc := (pathAccounted h c).2 ch hlive
  refine ⟨?_, hacc.sent, hacc.received, hacc.count_le, hacc.watermark_le, hacc.watermark, ?_, ?_,
    hacc.dropped, (delivered_of_reachable h.reachable).conserve c ch (by rw [hlive]; rfl), ?_⟩
  · intro stats depth hstats
    simp only [sysChannelGetStats, Bool.true_eq_false, if_false, Prod.mk.injEq, Option.some.injEq,
      true_and] at hstats
    obtain ⟨rfl, rfl⟩ := hstats
    rw [hacc.sent, hacc.received, hacc.dropped, hacc.balance, UInt64.ofNat_add, UInt64.ofNat_add]
  · intro hwrap
    have hle := hacc.dropped_le
    rw [hacc.dropped, hacc.full_count, UInt64.le_iff_toNat_le, UInt64.toNat_ofNat_of_lt',
      UInt64.toNat_ofNat_of_lt']
    · exact hle
    · exact hwrap
    · exact lt_of_le_of_lt hle hwrap
  · intro hpolicy
    rw [hacc.dropped, hacc.policy (by rw [hpolicy]; decide)]
    rfl
  · intro e s' ch' hstep hlive'
    obtain ⟨st, hmoves⟩ := next_acts hs hstep.1
    cases hmoves.acts c ch' hlive' with
    | acts hlive₀ hacts hobs =>
        obtain rfl := ChannelSlot.live.inj (hlive₀.symm.trans hlive)
        have hvalid := hs.valid c _ (by rw [hlive]; rfl)
        have hcounts := hacts.accounts s' hvalid hlive
        exact ⟨_, hobs, hcounts.dropped⟩
    | idle hlive₀ hobs =>
        obtain rfl := ChannelSlot.live.inj (hlive₀.symm.trans hlive)
        exact ⟨[], by rw [hobs, List.append_nil], (UInt64.add_zero _).symm⟩
    | created habsent =>
        rw [hlive] at habsent
        cases habsent

end Runs

/-- The second send into a channel of one slot drops what the first one put there. -/
theorem statistics_account_drop : ∃ (s : System Unit (Fin 5) 1) (ch : SysChannel 1),
    s.channels () = .live ch ∧ ch.stats.fullCount = 1 ∧
      UInt64.ofNat (Fifo.accepted (s.obs ())).length = 2 ∧
      UInt64.ofNat (Fifo.dropped (s.obs ())).length = 1 := by
  have hlast : Machine.Along (next Platform.lp64) LastRelease System.sample
      [.call 0 (.create () (some ⟨1, fullDropOldest⟩) true .ok), .call 1 (.bufferAcquire true),
        .call 2 (.send (some ()) (some 0) 0), .proceed 2, .call 3 (.send (some ()) (some 0) 0),
        .proceed 3] := by
    exact ⟨trivial, fun _ _ => ⟨trivial, fun _ _ => ⟨trivial, fun _ _ => ⟨trivial, fun _ _ =>
      ⟨trivial, fun _ _ => ⟨trivial, fun _ _ => trivial⟩⟩⟩⟩⟩⟩
  have hexec : ∃ s, Machine.exec (next Platform.lp64) System.sample
      [.call 0 (.create () (some ⟨1, fullDropOldest⟩) true .ok), .call 1 (.bufferAcquire true),
        .call 2 (.send (some ()) (some 0) 0), .proceed 2, .call 3 (.send (some ()) (some 0) 0),
        .proceed 3] = some s ∧ ∃ ch, s.channels () = .live ch ∧ ch.stats.sentCount = 2 ∧
          ch.stats.droppedCount = 1 ∧ ch.stats.fullCount = 1 :=
    ⟨_, rfl, _, rfl, rfl, rfl, rfl⟩
  obtain ⟨s, hexec, ch, hlive, hsent, hdropped, hfull⟩ := hexec
  have hreach : (channelMachine Unit (Fin 5) 1 Platform.lp64).Reachable s :=
    ⟨_, _, System.sample_fresh, Machine.Run.of_exec_along hexec hlast⟩
  obtain ⟨p, hpath⟩ := hreach.exists_path
  obtain ⟨-, haccepted, -, -, -, -, -, -, hdrop, -⟩ := statistics_account hpath hlive
  exact ⟨s, ch, hlive, hfull, haccepted ▸ hsent, hdrop ▸ hdropped⟩

end Channel
end AppCore
