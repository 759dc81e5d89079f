/-
  AppCore.Channel.Wakeup

  The two condition variables of a channel.  A state says in addition which waiting
  calls were woken and have not resumed; a send that has put its buffer into the queue
  signals `not_empty`, a receive that has taken one out signals `not_full`, and a close
  broadcasts on both.  Wake-ups without a signal may happen at any time.
-/

import AppCore.Channel.Sections
import AppCore.Lib.Condition

namespace AppCore
namespace Channel

open Condition (Signal Broadcast Covered)

variable {C K : Type*} {n : Nat}

/-- The receives that wait on `not_empty` of the channel `c`. -/
def System.receivers (s : System C K n) (c : C) : Set K := {k | (s.calls k).OnNotEmpty c}

/-- The sends that wait on `not_full` of the channel `c`. -/
def System.senders (s : System C K n) (c : C) : Set K := {k | (s.calls k).OnNotFull c}

/-- A call that waits for something. -/
def CallState.Asleep : CallState C n → Prop
  | .sendWait .. => True
  | .receiveWait .. => True
  | .idleWait _ => True
  | _ => False

section Machine

variable [DecidableEq C] [DecidableEq K] (P : Platform)

/-- What a step from `s` to `s'` did to the queue of the channel `c`. -/
def System.did (s s' : System C K n) (c : C) : List (Fifo.Obs (Fin n)) :=
  (s'.obs c).drop (s.obs c).length

/-- The wake-ups of a step, of which those without a signal are spurious. -/
structure Wakes (s : System C K n) (e : Event C K n) (s' : System C K n)
    (woken woken' : Set K) : Prop where
  resumed : e.actor ∉ woken'
  stay : woken \ {e.actor} ⊆ woken'
  asleep : ∀ k ∈ woken', (s'.calls k).Asleep
  /-- `pthread_cond_signal(&channel->not_empty)` in `sys_channel_send`. -/
  sent : ∀ c x, Fifo.Obs.accepted x ∈ s.did s' c →
    Signal (s'.receivers c) (woken \ {e.actor}) woken'
  /-- `pthread_cond_signal(&channel->not_full)` in `sys_channel_receive`. -/
  received : ∀ c x, Fifo.Obs.received x ∈ s.did s' c →
    Signal (s'.senders c) (woken \ {e.actor}) woken'
  /-- The broadcasts of `sys_channel_close`. -/
  closed : ∀ k c, e = .call k (.close (some c)) →
    Broadcast (s'.receivers c) woken' ∧ Broadcast (s'.senders c) woken'

/-- The system with the calls that were woken and have not resumed. -/
structure Waiting (C K : Type*) (n : Nat) where
  system : System C K n
  woken : Set K

/-- The system with its condition variables.  A wait that was woken returns 0. -/
def wakeMachine (C K : Type*) (n : Nat) [DecidableEq C] [DecidableEq K] (P : Platform) :
    Machine (Waiting C K n) (Event C K n) where
  start w := w.system.Fresh P ∧ w.woken = ∅
  step w e w' := (channelMachine C K n P).step w.system e w'.system ∧
    (∀ k ret, e = .wake k ret → k ∈ w.woken → ret = 0) ∧
      Wakes w.system e w'.system w.woken w'.woken

end Machine

/-! ## The counting invariant -/

/-- An open list has no sleeper next to an element, or a free slot, that nobody is on the
    way to take, and a closed one has no sleeper. -/
structure Covers (q : Fifo.State (Fin n)) (receivers senders woken : Set K) : Prop where
  items : q.closed = false → Covered q.items.length receivers woken
  slots : q.closed = false → Covered (q.capacity - q.items.length) senders woken
  closed : q.closed = true → Broadcast receivers woken ∧ Broadcast senders woken

section Counting

variable {q q' : Fifo.State (Fin n)} {receivers senders woken woken' : Set K} {k : K}
  {os : List (Fifo.Obs (Fin n))}

theorem Broadcast.leave {waiters : Set K} (h : Broadcast waiters woken)
    (hstay : woken \ {k} ⊆ woken') : Broadcast (waiters \ {k}) woken' :=
  fun _ hi => hstay ⟨h hi.1, hi.2⟩

theorem Covers.empty : Covers q (∅ : Set K) ∅ woken :=
  ⟨fun _ => Covered.empty, fun _ => Covered.empty,
    fun _ => ⟨Set.empty_subset _, Set.empty_subset _⟩⟩

/-- A call that was not on its way to this list goes away, or was never there. -/
theorem Covers.leave (h : Covers q receivers senders woken)
    (hreceiver : q.closed = false → k ∉ receivers ∩ woken)
    (hsender : q.closed = false → k ∉ senders ∩ woken) (hstay : woken \ {k} ⊆ woken') :
    Covers q (receivers \ {k}) (senders \ {k}) woken' := by
  refine ⟨fun hopen => ?_, fun hopen => ?_, fun hclosed => ?_⟩
  · exact ((h.items hopen).leave (hreceiver hopen)).woken_mono hstay
  · exact ((h.slots hopen).leave (hsender hopen)).woken_mono hstay
  · exact ⟨Broadcast.leave (h.closed hclosed).1 hstay, Broadcast.leave (h.closed hclosed).2 hstay⟩

/-- A section of a send.  The call was a sender, which may be on its way only to a slot
    that is still free, and now is one or has left. -/
theorem SendSpec.covers {buffer : Fin n} {outcome : SendOutcome n} {senders' : Set K}
    (hspec : SendSpec q buffer outcome os q') (h : Covers q receivers senders woken)
    (hk : k ∉ receivers)
    (hfail : ∀ ret releases, outcome = .leave ret releases → ret ≠ .ok → q.closed = false →
      k ∈ senders ∩ woken → q.items.length = q.capacity)
    (hleft : ∀ ret releases, outcome = .leave ret releases → senders' = senders \ {k})
    (hstay : woken \ {k} ⊆ woken')
    (hsignal : ∀ x, Fifo.Obs.accepted x ∈ os → Signal receivers (woken \ {k}) woken') :
    Covers q' receivers senders' woken' := by
  have hsame : receivers \ {k} = receivers := Set.sdiff_singleton_eq_self hk
  have hout : ∀ {m : ℕ}, Covered m receivers woken → Covered m receivers (woken \ {k}) := by
    intro m hm
    have hleave := hm.leave (k := k) fun hmem => hk hmem.1
    rwa [hsame] at hleave
  cases hspec with
  | waits hopen hfull =>
      -- a full list has no free slot to wait for
      refine ⟨fun _ => (hout (h.items hopen)).woken_mono hstay, fun _ => ?_, fun hclosed => ?_⟩
      · rw [hfull, Nat.sub_self]
        exact Covered.zero
      · rw [hopen] at hclosed
        cases hclosed
  | @failed ret hret =>
      rw [hleft _ _ rfl]
      refine ⟨fun hopen => (hout (h.items hopen)).woken_mono hstay, fun hopen => ?_,
        fun hclosed => ?_⟩
      · by_cases hon : k ∈ senders ∩ woken
        · rw [hfail ret [buffer] rfl hret hopen hon, Nat.sub_self]
          exact Covered.zero
        · exact ((h.slots hopen).leave hon).woken_mono hstay
      · refine ⟨?_, Broadcast.leave (h.closed hclosed).2 hstay⟩
        rw [← hsame]
        exact Broadcast.leave (h.closed hclosed).1 hstay
  | pushed hopen hlt =>
      rw [hleft _ _ rfl]
      have hpush : (q.items ++ [buffer]).length = q.items.length + 1 := by simp
      refine ⟨fun _ => ?_, fun _ => ?_, fun hclosed => ?_⟩
      · -- the new element is signalled
        show Covered (q.items ++ [buffer]).length receivers woken'
        rw [hpush]
        exact (hout (h.items hopen)).signal (hsignal buffer (List.mem_singleton_self _)) hstay
      · -- the call has taken the slot it may have been woken for
        show Covered (q.capacity - (q.items ++ [buffer]).length) (senders \ {k}) woken'
        rw [hpush]
        have hslots := h.slots hopen
        rw [show q.capacity - q.items.length = q.capacity - (q.items.length + 1) + 1 by omega]
          at hslots
        exact hslots.resume.woken_mono hstay
      · rw [hopen] at hclosed
        cases hclosed
  | @replaced oldest rest hopen hdrop hitems hfull =>
      rw [hleft _ _ rfl]
      have hlen : (rest ++ [buffer]).length = q.items.length := by simp [hitems]
      refine ⟨fun _ => ?_, fun _ => ?_, fun hclosed => ?_⟩
      · show Covered (rest ++ [buffer]).length receivers woken'
        rw [hlen]
        exact (hout (h.items hopen)).woken_mono hstay
      · show Covered (q.capacity - (rest ++ [buffer]).length) (senders \ {k}) woken'
        rw [hlen, hfull, Nat.sub_self]
        exact Covered.zero
      · rw [hopen] at hclosed
        cases hclosed

/-- A section of a receive. -/
theorem ReceiveSpec.covers {outcome : ReceiveOutcome n} {receivers' : Set K}
    (hspec : ReceiveSpec q outcome os q') (h : Covers q receivers senders woken)
    (hbound : q.items.length ≤ q.capacity) (hk : k ∉ senders)
    (hfail : ∀ ret out, outcome = .leave ret out → ret ≠ .ok → q.closed = false →
      k ∈ receivers ∩ woken → q.items = [])
    (hleft : ∀ ret out, outcome = .leave ret out → receivers' = receivers \ {k})
    (hstay : woken \ {k} ⊆ woken')
    (hsignal : ∀ x, Fifo.Obs.received x ∈ os → Signal senders (woken \ {k}) woken') :
    Covers q' receivers' senders woken' := by
  have hsame : senders \ {k} = senders := Set.sdiff_singleton_eq_self hk
  have hout : ∀ {m : ℕ}, Covered m senders woken → Covered m senders (woken \ {k}) := by
    intro m hm
    have hleave := hm.leave (k := k) fun hmem => hk hmem.1
    rwa [hsame] at hleave
  have hclosed' : q.closed = true →
      Broadcast (receivers \ {k}) woken' ∧ Broadcast senders woken' := by
    intro hclosed
    refine ⟨Broadcast.leave (h.closed hclosed).1 hstay, ?_⟩
    rw [← hsame]
    exact Broadcast.leave (h.closed hclosed).2 hstay
  cases hspec with
  | waits hopen hitems =>
      refine ⟨fun _ => ?_, fun _ => (hout (h.slots hopen)).woken_mono hstay, fun hclosed => ?_⟩
      · rw [hitems]
        exact Covered.zero
      · rw [hopen] at hclosed
        cases hclosed
  | @failed ret hret _ =>
      rw [hleft _ _ rfl]
      refine ⟨fun hopen => ?_, fun hopen => (hout (h.slots hopen)).woken_mono hstay, hclosed'⟩
      by_cases hon : k ∈ receivers ∩ woken
      · rw [hfail ret none rfl hret hopen hon]
        exact Covered.zero
      · exact ((h.items hopen).leave hon).woken_mono hstay
  | closed hclosed hitems =>
      rw [hleft _ _ rfl]
      refine ⟨fun hopen => ?_, fun hopen => ?_, hclosed'⟩
      · rw [hitems]
        exact Covered.zero
      · exact (hout (h.slots hopen)).woken_mono hstay
  | @popped x rest hitems =>
      rw [hleft _ _ rfl]
      have hlen : q.items.length = rest.length + 1 := by rw [hitems, List.length_cons]
      refine ⟨fun hopen => ?_, fun hopen => ?_, hclosed'⟩
      · -- the call has taken the element it may have been woken for
        have hitems' := h.items hopen
        rw [hlen] at hitems'
        exact hitems'.resume.woken_mono hstay
      · -- the new free slot is signalled
        show Covered (q.capacity - rest.length) senders woken'
        rw [show q.capacity - rest.length = q.capacity - q.items.length + 1 by omega]
        exact (hout (h.slots hopen)).signal (hsignal x (List.mem_singleton_self _)) hstay

end Counting

/-! ## The invariant over the steps -/

section Sections

variable {P : Platform} {ch : SysChannel n} {buffer : Fin n} {dropped : Option (Fin n)}
  {timeoutMs : Int} {ret : SysErr}

/-- An open channel refuses a send only when it is full. -/
theorem sendLoop_refuses {releases : List (Fin n)}
    (h : (sendLoop P buffer dropped timeoutMs ch).2.1 = .leave ret releases) (hret : ret ≠ .ok)
    (hopen : ch.closed = false) : ch.count = ch.capacity := by
  unfold sendLoop at h
  split at h
  · next hfull => exact hfull.1
  · split at h
    · next hclosed => rw [hopen] at hclosed; cases hclosed
    · simp only [SendOutcome.leave.injEq] at h
      exact absurd h.1.symm hret

/-- A receive fails only on an empty channel. -/
theorem receiveLoop_refuses {out : Option (Fin n)}
    (h : (receiveLoop P timeoutMs ch).2.1 = .leave ret out) (hret : ret ≠ .ok) :
    ch.count = 0 := by
  unfold receiveLoop at h
  split at h
  · next hempty => exact hempty.1
  · split at h
    · next hempty => exact hempty.1
    · simp only [ReceiveOutcome.leave.injEq] at h
      exact absurd h.1.symm hret

end Sections

section Steps

variable [DecidableEq C] [DecidableEq K] {P : Platform} {s s' : System C K n}
  {e : Event C K n} {c : C} {st : CallState C n} {ch ch' : SysChannel n} {woken woken' : Set K}

omit [DecidableEq C] in
theorem receivers_leave (hcalls : s'.calls = Function.update s.calls e.actor st)
    (hst : ¬ st.OnNotEmpty c) : s'.receivers c = s.receivers c \ {e.actor} := by
  ext k
  simp only [System.receivers, Set.mem_ofPred_eq, Set.mem_sdiff, Set.mem_singleton_iff]
  rw [hcalls]
  by_cases hk : k = e.actor
  · subst hk
    simp [hst]
  · simp [hk]

omit [DecidableEq C] in
theorem senders_leave (hcalls : s'.calls = Function.update s.calls e.actor st)
    (hst : ¬ st.OnNotFull c) : s'.senders c = s.senders c \ {e.actor} := by
  ext k
  simp only [System.senders, Set.mem_ofPred_eq, Set.mem_sdiff, Set.mem_singleton_iff]
  rw [hcalls]
  by_cases hk : k = e.actor
  · subst hk
    simp [hst]
  · simp [hk]

omit [DecidableEq C] in
theorem receivers_same (hcalls : s'.calls = Function.update s.calls e.actor st)
    (hbefore : ¬ (s.calls e.actor).OnNotEmpty c) (hst : ¬ st.OnNotEmpty c) :
    s'.receivers c = s.receivers c := by
  rw [receivers_leave hcalls hst]
  exact Set.sdiff_singleton_eq_self hbefore

omit [DecidableEq C] in
theorem senders_same (hcalls : s'.calls = Function.update s.calls e.actor st)
    (hbefore : ¬ (s.calls e.actor).OnNotFull c) (hst : ¬ st.OnNotFull c) :
    s'.senders c = s.senders c := by
  rw [senders_leave hcalls hst]
  exact Set.sdiff_singleton_eq_self hbefore

omit [DecidableEq C] [DecidableEq K] in
theorem receivers_eq_empty (h : ∀ k, ¬ (s.calls k).Uses c) : s.receivers c = ∅ :=
  Set.eq_empty_iff_forall_notMem.mpr fun k hk => h k (CallState.Waits.uses (Or.inl hk))

omit [DecidableEq C] [DecidableEq K] in
theorem senders_eq_empty (h : ∀ k, ¬ (s.calls k).Uses c) : s.senders c = ∅ :=
  Set.eq_empty_iff_forall_notMem.mpr fun k hk => h k (CallState.Waits.uses (Or.inr hk))

omit [DecidableEq K] in
theorem did_eq {os : List (Fifo.Obs (Fin n))} (hobs : s'.obs c = s.obs c ++ os) :
    s.did s' c = os := by
  rw [System.did, hobs, List.drop_left]

/-- A step of a call that neither waited on the channel nor waits on it now. -/
theorem covers_idle (hcov : Covers ch.fifo (s.receivers c) (s.senders c) woken)
    (hcalls : s'.calls = Function.update s.calls e.actor st)
    (hbefore : ¬ (s.calls e.actor).At c) (hst : ¬ st.Waits c)
    (hwakes : Wakes s e s' woken woken') (hfifo : ch'.fifo = ch.fifo) :
    Covers ch'.fifo (s'.receivers c) (s'.senders c) woken' := by
  have hleave : Covers ch.fifo (s.receivers c \ {e.actor}) (s.senders c \ {e.actor}) woken' :=
    hcov.leave (fun _ hmem => hbefore (CallState.Waits.at (Or.inl hmem.1)))
      (fun _ hmem => hbefore (CallState.Waits.at (Or.inr hmem.1))) hwakes.stay
  rw [hfifo, receivers_leave hcalls fun h => hst (Or.inl h),
    senders_leave hcalls fun h => hst (Or.inr h)]
  exact hleave

/-- A section of a send. -/
theorem covers_send {buffer : Fin n} {timeoutMs : Int} {r : SysChannel n × SendOutcome n ×
      List (Fifo.Obs (Fin n))} (hcov : Covers ch.fifo (s.receivers c) (s.senders c) woken)
    (hcalls : s'.calls = Function.update s.calls e.actor (afterSend c buffer timeoutMs r.2.1))
    (hvalid : ch.Valid P) (hsend : Sends P ch buffer r)
    (hbefore : ¬ (s.calls e.actor).OnNotEmpty c)
    (hfail : ∀ ret releases, r.2.1 = .leave ret releases → ret ≠ .ok → ch.closed = false →
      e.actor ∈ s.senders c ∩ woken → ch.count = ch.capacity)
    (hwakes : Wakes s e s' woken woken') (hobs : s'.obs c = s.obs c ++ r.2.2) :
    Covers r.1.fifo (s'.receivers c) (s'.senders c) woken' := by
  have hafter : ¬ (afterSend c buffer timeoutMs r.2.1).OnNotEmpty c := by
    cases r.2.1 with
    | wait dropped => exact id
    | leave ret releases => exact id
  rw [receivers_same hcalls hbefore hafter]
  refine hsend.2.covers hcov hbefore ?_ ?_ hwakes.stay ?_
  · intro ret releases hout hret hopen hmem
    exact hvalid.length_items.trans (hfail ret releases hout hret hopen hmem)
  · intro ret releases hout
    apply senders_leave hcalls
    rw [hout]
    exact id
  · intro x hx
    have hsignal := hwakes.sent c x (by rw [did_eq hobs]; exact hx)
    rwa [receivers_same hcalls hbefore hafter] at hsignal

/-- A section of a receive. -/
theorem covers_receive {timeoutMs : Int} {drains : Prop} {r : SysChannel n × ReceiveOutcome n ×
      List (Fifo.Obs (Fin n))} (hcov : Covers ch.fifo (s.receivers c) (s.senders c) woken)
    (hcalls : s'.calls = Function.update s.calls e.actor (afterReceive c timeoutMs r.2.1))
    (hvalid : ch.Valid P) (hreceive : Receives P ch drains r)
    (hbefore : ¬ (s.calls e.actor).OnNotFull c)
    (hfail : ∀ ret out, r.2.1 = .leave ret out → ret ≠ .ok →
      e.actor ∈ s.receivers c ∩ woken → ch.count = 0)
    (hwakes : Wakes s e s' woken woken') (hobs : s'.obs c = s.obs c ++ r.2.2) :
    Covers r.1.fifo (s'.receivers c) (s'.senders c) woken' := by
  have hafter : ¬ (afterReceive c timeoutMs r.2.1).OnNotFull c := by
    cases r.2.1 with
    | wait => exact id
    | leave ret out => exact id
  have hlen := hvalid.length_items
  have hle := hvalid.count_le
  rw [senders_same hcalls hbefore hafter]
  refine hreceive.2.1.covers hcov ?_ hbefore ?_ ?_ hwakes.stay ?_
  · show ch.items.length ≤ ch.capacity
    omega
  · intro ret out hout hret _ hmem
    exact List.length_eq_zero_iff.mp (hlen.trans (hfail ret out hout hret hmem))
  · intro ret out hout
    apply receivers_leave hcalls
    rw [hout]
    exact id
  · intro x hx
    have hsignal := hwakes.received c x (by rw [did_eq hobs]; exact hx)
    rwa [senders_same hcalls hbefore hafter] at hsignal

/-- A section keeps the invariant of its channel. -/
theorem Acts.covers {os : List (Fifo.Obs (Fin n))} (hvalid : ch.Valid P)
    (hcov : Covers ch.fifo (s.receivers c) (s.senders c) woken)
    (hacts : Acts P c e (s.calls e.actor) ch st ch' os)
    (hcalls : s'.calls = Function.update s.calls e.actor st)
    (hret : ∀ k ret, e = .wake k ret → k ∈ woken → ret = 0)
    (hwakes : Wakes s e s' woken woken') (hobs : s'.obs c = s.obs c ++ os) :
    Covers ch'.fifo (s'.receivers c) (s'.senders c) woken' := by
  generalize hbefore : s.calls e.actor = before at hacts
  cases hacts with
  | @sendEnter k buffer timeoutMs _ r hr =>
      -- the call did not wait, so it was on its way to nothing
      refine covers_send hcov hcalls hvalid ?_ ?_ ?_ hwakes hobs
      · rw [← hr]
        exact sendEnter_spec hvalid buffer timeoutMs
      · rw [hbefore]
        exact id
      · intro ret releases _ _ _ hmem
        have hon : (s.calls (Event.proceed k : Event C K n).actor).OnNotFull c := hmem.1
        rw [hbefore] at hon
        exact hon.elim
  | @sendWake k buffer timeoutMs ret _ r hr =>
      refine covers_send hcov hcalls hvalid ?_ ?_ ?_ hwakes hobs
      · rw [← hr]
        exact sendWake_spec hvalid buffer timeoutMs ret
      · rw [hbefore]
        exact id
      · intro ret' releases hout hne hopen hmem
        -- it was woken, so its wait did not fail
        obtain rfl : ret = 0 := hret k ret rfl hmem.2
        rw [← hr] at hout
        exact sendLoop_refuses hout hne hopen
  | @receiveEnter k timeoutMs _ r hr =>
      have hspec : Receives P ch True r := by
        rw [← hr]
        exact receiveLoop_spec hvalid timeoutMs
      refine covers_receive hcov hcalls hvalid hspec ?_ ?_ hwakes hobs
      · rw [hbefore]
        exact id
      · intro ret out hout hne _
        rw [← hr] at hout
        exact receiveLoop_refuses hout hne
  | @receiveWake k timeoutMs ret _ r hr =>
      have hspec : Receives P ch (ret = 0) r := by
        rw [← hr]
        exact receiveWake_spec hvalid timeoutMs ret
      refine covers_receive hcov hcalls hvalid hspec ?_ ?_ hwakes hobs
      · rw [hbefore]
        exact id
      · intro ret' out hout hne hmem
        obtain rfl : ret = 0 := hret k ret rfl hmem.2
        rw [← hr] at hout
        exact receiveLoop_refuses hout hne
  | @close k _ =>
      have hclosed : ¬ (sysChannelClose ch).fifo.closed = false := show ¬ true = false by decide
      exact ⟨fun hopen => absurd hopen hclosed, fun hopen => absurd hopen hclosed,
        fun _ => hwakes.closed k c rfl⟩
  | references hnot hst =>
      rw [← hbefore] at hnot
      exact covers_idle hcov hcalls hnot hst hwakes rfl

/-- What holds in every state of the machine. -/
structure Waiting.Sound (P : Platform) (w : Waiting C K n) : Prop where
  system : w.system.Sound P
  covers : ∀ c ch, w.system.channels c = .live ch →
    Covers ch.fifo (w.system.receivers c) (w.system.senders c) w.woken
  /-- Only finitely many calls have started. -/
  started : {k | w.system.calls k ≠ .notStarted}.Finite

theorem Waiting.Sound.step {w w' : Waiting C K n} (hw : w.Sound P)
    (h : (wakeMachine C K n P).step w e w') : w'.Sound P := by
  obtain ⟨hstep, hret, hwakes⟩ := h
  obtain ⟨st, hmoves⟩ := next_acts hw.system hstep.1
  refine ⟨(hw.system.step hstep).2, fun c ch' hlive' => ?_, ?_⟩
  · cases hmoves.acts c ch' hlive' with
    | acts hlive hacts hobs =>
        have hvalid := hw.system.valid c _ (by rw [hlive]; rfl)
        exact hacts.covers hvalid (hw.covers c _ hlive) hmoves.calls hret hwakes hobs
    | idle hlive _ hbefore hst =>
        exact covers_idle (hw.covers c _ hlive) hmoves.calls hbefore hst hwakes rfl
    | created habsent _ _ hst =>
        -- no call waits on a channel that was not there
        have hnone : ∀ k, ¬ (w.system.calls k).Uses c := by
          intro k huse
          obtain ⟨ch, hlive⟩ := hw.system.live k c huse
          rw [habsent] at hlive
          cases hlive
        rw [receivers_leave hmoves.calls fun h => hst (Or.inl h),
          senders_leave hmoves.calls fun h => hst (Or.inr h),
          receivers_eq_empty hnone, senders_eq_empty hnone, Set.empty_sdiff]
        exact Covers.empty
  · refine (hw.started.insert e.actor).subset fun k hk => ?_
    have hk : w'.system.calls k ≠ .notStarted := hk
    rw [hmoves.calls] at hk
    by_cases hactor : k = e.actor
    · exact Or.inl hactor
    · rw [Function.update_of_ne hactor] at hk
      exact Or.inr hk

theorem Waiting.sound_of_reachable {w : Waiting C K n}
    (h : (wakeMachine C K n P).Reachable w) : w.Sound P := by
  refine h.invariant (fun w hw => ?_) fun _ _ _ hu hstep => hu.step hstep
  have hfresh : w.system.Fresh P := hw.1
  refine ⟨hfresh.sound, fun c ch hlive => ?_, ?_⟩
  · rw [hfresh.2.1] at hlive
    cases hlive
  · rw [hfresh.2.2.1]
    simp

/-- No wake-up is lost: a thread is asleep only while everything it could take is left to
    threads that were woken and have not resumed, and nobody is asleep on a closed
    channel. -/
theorem no_lost_wakeup {w : Waiting C K n} (h : (wakeMachine C K n P).Reachable w) {c : C}
    {ch : SysChannel n} (hlive : w.system.channels c = .live ch) :
    (w.system.receivers c ∩ w.woken).Finite ∧ (w.system.senders c ∩ w.woken).Finite ∧
      (ch.closed = false → (w.system.receivers c \ w.woken).Nonempty →
        ch.count ≤ (w.system.receivers c ∩ w.woken).ncard) ∧
      ((w.system.senders c \ w.woken).Nonempty →
        ch.capacity - ch.count ≤ (w.system.senders c ∩ w.woken).ncard) ∧
      (ch.closed = true → w.system.receivers c ∪ w.system.senders c ⊆ w.woken) := by
  have hw := Waiting.sound_of_reachable h
  have hcov := hw.covers c ch hlive
  have hlen := (hw.system.valid c ch (by rw [hlive]; rfl)).length_items
  have hfinite : ∀ waiters : Set K, (∀ k ∈ waiters, w.system.calls k ≠ .notStarted) →
      (waiters ∩ w.woken).Finite := fun waiters hsub =>
    hw.started.subset fun k hk => hsub k hk.1
  have hreceivers := hfinite (w.system.receivers c) fun k hk hnot => by
    have hon : (w.system.calls k).OnNotEmpty c := hk
    rw [hnot] at hon
    exact hon
  have hsenders := hfinite (w.system.senders c) fun k hk hnot => by
    have hon : (w.system.calls k).OnNotFull c := hk
    rw [hnot] at hon
    exact hon
  refine ⟨hreceivers, hsenders, fun hopen hasleep => ?_, fun hasleep => ?_, fun hclosed => ?_⟩
  · have hle := hcov.items hopen hasleep
    rw [← hreceivers.cast_ncard_eq, Nat.cast_le] at hle
    exact hlen ▸ hle
  · cases hopen : ch.closed with
    | true =>
        obtain ⟨k, hk, hnot⟩ := hasleep
        exact absurd ((hcov.closed hopen).2 hk) hnot
    | false =>
        have hle := hcov.slots hopen hasleep
        rw [← hsenders.cast_ncard_eq, Nat.cast_le] at hle
        exact hlen ▸ hle
  · exact Set.union_subset (hcov.closed hclosed).1 (hcov.closed hclosed).2

/-- A step that moves nothing and closes nothing needs no wake-up. -/
theorem wakeMachine_quiet (hstep : (channelMachine C K n P).step s e s')
    (hrec : s'.record = s.record) (hclose : ∀ k c, e ≠ .call k (.close c)) :
    (wakeMachine C K n P).step ⟨s, ∅⟩ e ⟨s', ∅⟩ := by
  have hdid : ∀ c, s.did s' c = [] := fun c => did_eq (by
    rw [obs_of_record hrec c, List.append_nil])
  refine ⟨hstep, fun k ret _ hk => hk.elim, ⟨id, fun k hk => hk.1, fun k hk => hk.elim, ?_, ?_, ?_⟩⟩
  · intro c x hx
    rw [hdid] at hx
    cases hx
  · intro c x hx
    rw [hdid] at hx
    cases hx
  · intro k c he
    exact absurd he (hclose k (some c))

end Steps

/-- Two receives wait; a send puts a buffer into the queue and wakes the first of them. -/
theorem no_lost_wakeup_two : ∃ (w : Waiting Unit (Fin 5) 1) (ch : SysChannel 1),
    w.system.channels () = .live ch ∧ ch.count = 1 ∧ 2 ∈ w.system.receivers () \ w.woken ∧
      1 ≤ (w.system.receivers () ∩ w.woken).ncard := by
  have hrun : ∃ s₁ s₂ s₃ s₄ s₅ s₆ : System Unit (Fin 5) 1,
      next Platform.lp64 System.sample (.call 0 (.create () (some ⟨1, 0⟩) true .ok)) = some s₁ ∧
      next Platform.lp64 s₁ (.call 1 (.receive (some ()) true (-1))) = some s₂ ∧
      next Platform.lp64 s₂ (.call 2 (.receive (some ()) true (-1))) = some s₃ ∧
      next Platform.lp64 s₃ (.call 3 (.bufferAcquire true)) = some s₄ ∧
      next Platform.lp64 s₄ (.call 4 (.send (some ()) (some 0) 0)) = some s₅ ∧
      next Platform.lp64 s₅ (.proceed 4) = some s₆ ∧
      s₁.record = [] ∧ s₂.record = [] ∧ s₃.record = [] ∧ s₄.record = [] ∧ s₅.record = [] ∧
      s₆.record = [(4, (), .accepted 0)] ∧ s₆.calls 1 = .receiveWait () (-1) ∧
      s₆.calls 2 = .receiveWait () (-1) ∧ ∃ ch, s₆.channels () = .live ch ∧ ch.count = 1 ∧
        ch.closed = false :=
    ⟨_, _, _, _, _, _, rfl, rfl, rfl, rfl, rfl, rfl, rfl, rfl, rfl, rfl, rfl, rfl, rfl, rfl, _,
      rfl, rfl, rfl⟩
  obtain ⟨s₁, s₂, s₃, s₄, s₅, s₆, h₁, h₂, h₃, h₄, h₅, h₆, r₁, r₂, r₃, r₄, r₅, r₆, hone, htwo, ch,
    hlive, hcount, hopen⟩ := hrun
  have hdid : s₅.did s₆ () = [.accepted 0] := by
    rw [System.did, System.obs, System.obs, r₅, r₆]
    rfl
  have hreceiver : ∀ k, s₆.calls k = .receiveWait () (-1) → k ∈ s₆.receivers () := by
    intro k hk
    show (s₆.calls k).OnNotEmpty ()
    rw [hk]
    rfl
  -- the send signals, and the first receive is the one that is woken
  have hlast : (wakeMachine Unit (Fin 5) 1 Platform.lp64).step ⟨s₅, ∅⟩ (.proceed 4) ⟨s₆, {1}⟩ := by
    refine ⟨⟨h₆, trivial⟩, fun k ret _ hk => hk.elim, ?_⟩
    have hfour : (4 : Fin 5) ∉ ({1} : Set (Fin 5)) := by decide
    refine ⟨hfour, fun k hk => hk.1.elim, ?_, ?_, ?_, fun k c he => by cases he⟩
    · rintro k rfl
      rw [hone]
      trivial
    · exact fun _ _ _ _ => ⟨1, ⟨hreceiver 1 hone, fun hk => hk.1⟩, rfl⟩
    · intro c x hx
      rw [hdid] at hx
      cases List.mem_singleton.mp hx
  have hreach : (wakeMachine Unit (Fin 5) 1 Platform.lp64).Reachable ⟨s₆, {1}⟩ := by
    have hstart : (wakeMachine Unit (Fin 5) 1 Platform.lp64).Reachable ⟨System.sample, ∅⟩ :=
      ⟨_, [], ⟨System.sample_fresh, rfl⟩, Machine.Run.nil⟩
    have hclose : ∀ k (call : Call Unit 1), call ≠ .close (some ()) → call ≠ .close none →
        ∀ k' c, (Event.call k call : Event Unit (Fin 5) 1) ≠ .call k' (.close c) := by
      rintro k call hsome hnone k' c he
      cases he
      cases c with
      | none => exact hnone rfl
      | some c => exact hsome rfl
    refine ((((((hstart.step (wakeMachine_quiet ⟨h₁, trivial⟩ ?_ ?_)).step
      (wakeMachine_quiet ⟨h₂, trivial⟩ ?_ ?_)).step (wakeMachine_quiet ⟨h₃, trivial⟩ ?_ ?_)).step
      (wakeMachine_quiet ⟨h₄, trivial⟩ ?_ ?_)).step (wakeMachine_quiet ⟨h₅, trivial⟩ ?_ ?_)).step
      hlast)
    · exact r₁
    · exact hclose _ _ (by decide) (by decide)
    · rw [r₂, r₁]
    · exact hclose _ _ (by decide) (by decide)
    · rw [r₃, r₂]
    · exact hclose _ _ (by decide) (by decide)
    · rw [r₄, r₃]
    · exact hclose _ _ (by decide) (by decide)
    · rw [r₅, r₄]
    · exact hclose _ _ (by decide) (by decide)
  have hasleep : (2 : Fin 5) ∈ s₆.receivers () \ {1} := ⟨hreceiver 2 htwo, by decide⟩
  refine ⟨⟨s₆, {1}⟩, ch, hlive, hcount, hasleep, ?_⟩
  have hle := (no_lost_wakeup hreach hlive).2.2.1 hopen ⟨2, hasleep⟩
  rwa [hcount] at hle

end Channel
end AppCore
