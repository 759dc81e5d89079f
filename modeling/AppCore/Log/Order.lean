/-
  AppCore.Log.Order

  The log is linearizable: whatever the threads and the sinks do, it behaves as if every call ran
  alone at the moment of its first critical section, and each message that passes the test of
  the level is given to a sink once, in the order of its thread.
-/

import AppCore.Lib.Relay
import AppCore.Log.Model

namespace AppCore
namespace Log

open Relay (own)

/-! ## What a thread has on its way -/

section Stack

variable {T : Type*}

/-- The request of the innermost call, before its first critical section. -/
def waiting : List (Point T) → List Request
  | .waits r :: _ => [r]
  | _ => []

/-- The message of the innermost call, before it is given to a sink. -/
def pending : List (Point T) → List Write
  | .captured w :: _ => [w]
  | .formed w _ :: _ => [w]
  | _ => []

/-- The messages that have been given to a sink. -/
def written (l : List (T × Delivery T)) : List (T × Write) := l.map fun p => (p.1, p.2.write)

/-- Every call but the innermost has called a sink. -/
def Nested (stack : List (Point T)) : Prop := ∀ p ∈ stack.tail, ∃ w record, p = .inSink w record

theorem Nested.inUserCode {p : Point T} {rest : List (Point T)} (h : Nested (p :: rest)) :
    inUserCode rest = true := by
  cases rest with
  | nil => rfl
  | cons q rest =>
      obtain ⟨w, record, rfl⟩ := h q List.mem_cons_self
      rfl

theorem Nested.tail {p : Point T} {rest : List (Point T)} (h : Nested (p :: rest)) :
    Nested rest := fun q hq => h q (List.mem_of_mem_tail hq)

theorem Nested.replace {p q : Point T} {rest : List (Point T)} (h : Nested (p :: rest)) :
    Nested (q :: rest) := h

theorem Nested.push {p : Point T} {stack : List (Point T)} (h : Nested stack)
    (huser : Log.inUserCode stack = true) : Nested (p :: stack) := by
  intro q hq
  cases stack with
  | nil => cases hq
  | cons r rest =>
      rcases List.mem_cons.mp hq with rfl | hmem
      · cases q with
        | inSink w record => exact ⟨w, record, rfl⟩
        | _ => cases huser
      · exact h q hmem

theorem waiting_of_inUserCode {stack : List (Point T)} (h : inUserCode stack = true) :
    waiting stack = [] := by
  cases stack with
  | nil => rfl
  | cons p rest =>
      cases p with
      | inSink w record => rfl
      | _ => cases h

theorem pending_of_inUserCode {stack : List (Point T)} (h : inUserCode stack = true) :
    pending stack = [] := by
  cases stack with
  | nil => rfl
  | cons p rest =>
      cases p with
      | inSink w record => rfl
      | _ => cases h

end Stack

section Order

variable {T : Type*} [DecidableEq T] {s s' : System T} {e : Event T} {t : T}

theorem own_written (t : T) (l : List (T × Delivery T)) :
    own t (written l) = (own t l).map Delivery.write := by
  rw [written, own, own, List.filterMap_map, List.map_filterMap]
  refine List.filterMap_congr fun p _ => ?_
  by_cases hp : p.1 = t
  · simp [hp]
  · simp [hp]

omit [DecidableEq T] in
theorem written_snoc (l : List (T × Delivery T)) (t : T) (d : Delivery T) :
    written (l ++ [(t, d)]) = written l ++ [(t, d.write)] := List.map_append

/-- What the thread that goes on keeps, every thread keeps. -/
theorem update_keeps {β : Type*} (f : List (Point T) → β) {stack : List (Point T)}
    (h : f stack = f (s.stack t)) (u : T) :
    f (Function.update s.stack t stack u) = f (s.stack u) := by
  by_cases hu : u = t
  · subst hu
    rw [Function.update_self, h]
  · rw [Function.update_of_ne hu]

theorem update_other {β : Type*} (f : List (Point T) → β) (stack : List (Point T)) (u : T)
    (hu : u ≠ t) : f (Function.update s.stack t stack u) = f (s.stack u) := by
  rw [Function.update_of_ne hu]

/-- The log is the log of the calls that it has served, one after the other. -/
structure System.Ordered (s : System T) : Prop where
  nested : ∀ t, Nested (s.stack t)
  served : journal s.served = ⟨s.settings, s.accepted⟩
  calls : Relay s.called s.served fun t => waiting (s.stack t)
  messages : Relay s.accepted (written s.delivered) fun t => pending (s.stack t)
  formed : ∀ t w record, .formed w record ∈ s.stack t → ∃ now, record = w.entry.record t now
  records : ∀ t d, (t, d) ∈ s.delivered → ∃ now, d.record = d.write.entry.record t now

omit [DecidableEq T] in
theorem nested_of_stack {p : Point T} {rest : List (Point T)} (hs : ∀ t, Nested (s.stack t))
    (hstack : s.stack t = p :: rest) : Nested (p :: rest) := hstack ▸ hs t

theorem update_nested {stack : List (Point T)} (hs : ∀ t, Nested (s.stack t))
    (h : Nested stack) (u : T) : Nested (Function.update s.stack t stack u) := by
  by_cases hu : u = t
  · subst hu
    rwa [Function.update_self]
  · rw [Function.update_of_ne hu]
    exact hs u

theorem update_formed {stack : List (Point T)}
    (hs : ∀ t w record, .formed w record ∈ s.stack t → ∃ now, record = w.entry.record t now)
    (h : ∀ w record, .formed w record ∈ stack →
      .formed w record ∈ s.stack t ∨ ∃ now, record = w.entry.record t now) (u : T) (w : Write)
    (record : SysLogRecord T) (hmem : .formed w record ∈ Function.update s.stack t stack u) :
    ∃ now, record = w.entry.record u now := by
  by_cases hu : u = t
  · subst hu
    rw [Function.update_self] at hmem
    exact (h w record hmem).elim (hs u w record) id
  · rw [Function.update_of_ne hu] at hmem
    exact hs u w record hmem

theorem step_nested (h : LogStep s e s') (hs : ∀ t, Nested (s.stack t)) (u : T) :
    Nested (s'.stack u) := by
  cases h with
  | ignored _ => exact hs u
  | @called t c r huser _ => exact update_nested hs ((hs t).push huser) u
  | @served t r rest _ hstack _ =>
      exact update_nested hs (nested_of_stack hs hstack).tail u
  | @accepted t r w rest _ hstack _ =>
      exact update_nested hs (nested_of_stack hs hstack).replace u
  | @formed t now w rest hstack =>
      exact update_nested hs (nested_of_stack hs hstack).replace u
  | @handed t w record rest f hstack _ =>
      exact update_nested hs (nested_of_stack hs hstack).replace u
  | @prints t w record rest hstack _ _ =>
      exact update_nested hs (nested_of_stack hs hstack).replace u
  | @printed t w record rest hstack =>
      exact update_nested hs (nested_of_stack hs hstack).tail u
  | @returns t w record rest hstack =>
      exact update_nested hs (nested_of_stack hs hstack).tail u

theorem step_formed (h : LogStep s e s')
    (hs : ∀ t w record, .formed w record ∈ s.stack t → ∃ now, record = w.entry.record t now) :
    ∀ t w record, .formed w record ∈ s'.stack t → ∃ now, record = w.entry.record t now := by
  -- a stack that only loses or changes its first point into one of another kind
  have hrest : ∀ {t : T} {p q : Point T} {rest : List (Point T)}, s.stack t = p :: rest →
      (∀ w record, .formed w record ≠ q) → ∀ w record, .formed w record ∈ q :: rest →
      .formed w record ∈ s.stack t ∨ ∃ now, record = w.entry.record t now := by
    intro t p q rest hstack hq w record hmem
    rcases List.mem_cons.mp hmem with heq | hmem
    · exact absurd heq (hq w record)
    · rw [hstack]
      exact Or.inl (List.mem_cons_of_mem p hmem)
  cases h with
  | ignored _ => exact hs
  | @called t c r _ _ =>
      refine update_formed hs fun w record hmem => ?_
      rcases List.mem_cons.mp hmem with heq | hmem
      · cases heq
      · exact Or.inl hmem
  | @served t r rest _ hstack _ =>
      refine update_formed hs fun w record hmem => ?_
      rw [hstack]
      exact Or.inl (List.mem_cons_of_mem _ hmem)
  | @accepted t r w rest _ hstack _ =>
      exact update_formed hs (hrest hstack fun _ _ heq => by cases heq)
  | @formed t now w rest hstack =>
      refine update_formed hs fun w' record hmem => ?_
      rcases List.mem_cons.mp hmem with heq | hmem
      · obtain ⟨rfl, rfl⟩ := Point.formed.inj heq
        exact Or.inr ⟨now, rfl⟩
      · rw [hstack]
        exact Or.inl (List.mem_cons_of_mem _ hmem)
  | @handed t w record rest f hstack _ =>
      exact update_formed hs (hrest hstack fun _ _ heq => by cases heq)
  | @prints t w record rest hstack _ _ =>
      exact update_formed hs (hrest hstack fun _ _ heq => by cases heq)
  | @printed t w record rest hstack =>
      refine update_formed hs fun w record hmem => ?_
      rw [hstack]
      exact Or.inl (List.mem_cons_of_mem _ hmem)
  | @returns t w record rest hstack =>
      refine update_formed hs fun w record hmem => ?_
      rw [hstack]
      exact Or.inl (List.mem_cons_of_mem _ hmem)

/-- A record that is given to a sink has been formed from its message. -/
theorem emit_records {w : Write} {record : SysLogRecord T} {rest : List (Point T)}
    (hs : s.Ordered) (hstack : s.stack t = .formed w record :: rest) (u : T) (d : Delivery T)
    (hmem : (u, d) ∈ s.delivered ++ [(t, ⟨w, record⟩)]) :
    ∃ now, d.record = d.write.entry.record u now := by
  rcases List.mem_append.mp hmem with hmem | hmem
  · exact hs.records u d hmem
  · obtain ⟨rfl, rfl⟩ := Prod.mk.inj (List.mem_singleton.mp hmem)
    refine hs.formed u w record ?_
    rw [hstack]
    exact List.mem_cons_self

/-- A message that is given to a sink is not pending any more. -/
theorem emit_messages {p : Point T} {w : Write} {record : SysLogRecord T}
    {rest : List (Point T)} (hs : s.Ordered) (hstack : s.stack t = .formed w record :: rest)
    (hp : pending (p :: rest) = []) :
    Relay s.accepted (written (s.delivered ++ [(t, ⟨w, record⟩)]))
      fun u => pending (Function.update s.stack t (p :: rest) u) := by
  rw [written_snoc]
  refine hs.messages.leave ?_ (update_other pending _)
  show pending (s.stack t) = w :: pending (Function.update s.stack t (p :: rest) t)
  rw [Function.update_self, hstack, hp]
  rfl

theorem step_ordered (h : LogStep s e s') (hs : s.Ordered) : s'.Ordered := by
  have hnested := step_nested h hs.nested
  have hformed := step_formed h hs.formed
  cases h with
  | ignored _ => exact hs
  | @called t c r huser _ =>
      refine ⟨hnested, hs.served, hs.calls.enter ?_ (update_other waiting _),
        hs.messages.same (update_keeps pending ?_), hformed, hs.records⟩
      · show waiting (Function.update s.stack t _ t) = waiting (s.stack t) ++ [r]
        rw [Function.update_self, waiting_of_inUserCode huser]
        rfl
      · rw [pending_of_inUserCode huser]
        rfl
  | @served t r rest _ hstack hserve =>
      have huser := (nested_of_stack hs.nested hstack).inUserCode
      refine ⟨hnested, ?_, hs.calls.leave ?_ (update_other waiting _),
        hs.messages.same (update_keeps pending ?_), hformed, hs.records⟩
      · rw [journal_snoc, hs.served, Journal.call, hserve]
        exact congrArg (Journal.mk (s.settings.serve r).1) (List.append_nil s.accepted)
      · show waiting (s.stack t) = r :: waiting (Function.update s.stack t rest t)
        rw [Function.update_self, hstack, waiting_of_inUserCode huser]
        rfl
      · rw [hstack, pending_of_inUserCode huser]
        rfl
  | @accepted t r w rest _ hstack hserve =>
      refine ⟨hnested, ?_, hs.calls.leave ?_ (update_other waiting _),
        hs.messages.enter ?_ (update_other pending _), hformed, hs.records⟩
      · rw [journal_snoc, hs.served, Journal.call, hserve]
        rfl
      · show waiting (s.stack t) = r :: waiting (Function.update s.stack t _ t)
        rw [Function.update_self, hstack]
        rfl
      · show pending (Function.update s.stack t _ t) = pending (s.stack t) ++ [w]
        rw [Function.update_self, hstack]
        rfl
  | @formed t now w rest hstack =>
      refine ⟨hnested, hs.served, hs.calls.same (update_keeps waiting ?_),
        hs.messages.same (update_keeps pending ?_), hformed, hs.records⟩
      · rw [hstack]
        rfl
      · rw [hstack]
        rfl
  | @handed t w record rest f hstack _ =>
      refine ⟨hnested, hs.served, hs.calls.same (update_keeps waiting ?_),
        emit_messages hs hstack rfl, hformed, emit_records hs hstack⟩
      rw [hstack]
      rfl
  | @prints t w record rest hstack _ _ =>
      refine ⟨hnested, hs.served, hs.calls.same (update_keeps waiting ?_),
        emit_messages hs hstack rfl, hformed, emit_records hs hstack⟩
      rw [hstack]
      rfl
  | @printed t w record rest hstack =>
      have huser := (nested_of_stack hs.nested hstack).inUserCode
      refine ⟨hnested, hs.served, hs.calls.same (update_keeps waiting ?_),
        hs.messages.same (update_keeps pending ?_), hformed, hs.records⟩
      · rw [hstack, waiting_of_inUserCode huser]
        rfl
      · rw [hstack, pending_of_inUserCode huser]
        rfl
  | @returns t w record rest hstack =>
      have huser := (nested_of_stack hs.nested hstack).inUserCode
      refine ⟨hnested, hs.served, hs.calls.same (update_keeps waiting ?_),
        hs.messages.same (update_keeps pending ?_), hformed, hs.records⟩
      · rw [hstack, waiting_of_inUserCode huser]
        rfl
      · rw [hstack, pending_of_inUserCode huser]
        rfl

theorem zero_ordered : ({} : System T).Ordered where
  nested := fun _ p hp => (by cases hp)
  served := rfl
  calls := Relay.nil
  messages := Relay.nil
  formed := fun _ _ _ hmem => (by cases hmem)
  records := fun _ _ hmem => (by cases hmem)

theorem ordered_of_reachable (h : (logMachine T).Reachable s) : s.Ordered := by
  apply h.invariant
  · rintro s rfl
    exact zero_ordered
  · exact fun u e v hu hstep => step_ordered (next_cases hstep) hu

/-- What has been served stays so, in the same order. -/
theorem step_served (h : LogStep s e s') : s.served <+: s'.served := by
  cases h with
  | served _ _ _ => exact List.prefix_append ..
  | accepted _ _ _ => exact List.prefix_append ..
  | _ => exact List.prefix_refl _

/-- The settings and the messages are those of the calls one after the other, in the order of
    `served`.  A call takes its place in this order between its begin and its return, the calls
    of a thread in the order in which it made them, and the places stay.  Every message that
    passed the test of the level has been given to the sink that was read with it exactly once,
    in the order of its thread, but for the one that the thread is about to give. -/
theorem log_linearizable (h : (logMachine T).Reachable s) :
    journal s.served = ⟨s.settings, s.accepted⟩ ∧
    (∀ t, own t s.called = own t s.served ++ waiting (s.stack t)) ∧
    (∀ t, own t s.accepted = (own t s.delivered).map Delivery.write ++ pending (s.stack t)) ∧
    (∀ t d, (t, d) ∈ s.delivered → ∃ now, d.record = d.write.entry.record t now) ∧
    ∀ es u, (logMachine T).Run s es u → s.served <+: u.served := by
  have hordered := ordered_of_reachable h
  refine ⟨hordered.served, hordered.calls, fun t => ?_, hordered.records, fun es u hrun => ?_⟩
  · rw [← own_written]
    exact hordered.messages t
  · apply hrun.invariant (I := fun u => s.served <+: u.served) ?_ (List.prefix_refl _)
    exact fun u e v hu hstep => hu.trans (step_served (next_cases hstep))

/-- A sink that the application has set logs itself: the second message of the thread is on its
    way while the sink has the first. -/
theorem log_linearizable_nested :
    ∃ s : System Unit, s.served.length = 3 ∧ journal s.served = ⟨s.settings, s.accepted⟩ ∧
      own () s.accepted = (own () s.delivered).map Delivery.write ++ pending (s.stack ()) ∧
      (pending (s.stack ())).length = 1 ∧ s.delivered.length = 1 := by
  have hexec : Machine.exec next ({} : System Unit)
      [.call () (.setSink (some 7) 1), .enter (),
        .call () (.write .error (some "event") (some "sys_event.c") 1 (some [65])), .enter (),
        .form () ⟨0, 0⟩, .emit (),
        .call () (.write .warning (some "app") (some "main.c") 2 (some [66])), .enter ()] =
      some _ := rfl
  have hreach : (logMachine Unit).Reachable _ := ⟨_, _, rfl, Machine.Run.of_exec hexec⟩
  obtain ⟨hjournal, -, hmessages, -, -⟩ := log_linearizable hreach
  exact ⟨_, rfl, hjournal, hmessages (), rfl, rfl⟩

end Order

end Log
end AppCore
