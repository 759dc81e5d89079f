/-
  AppCore.Log.Sinks

  What an application can rely on that gives the log a sink: the sink runs without the mutex, so
  that it may call the log itself, and a sink that has been replaced is not called any more once
  the calls that had read it are over.
-/

import AppCore.Log.Order

namespace AppCore
namespace Log

variable {T : Type*} [DecidableEq T] {s s' u : System T} {e : Event T} {t : T}

/-! ## The mutex -/

section Mutex

/-- The innermost call of the thread is in `default_sink`. -/
def printing : List (Point T) → Bool
  | .printing _ _ :: _ => true
  | _ => false

omit [DecidableEq T] in
theorem printing_of_inUserCode {stack : List (Point T)} (h : inUserCode stack = true) :
    printing stack = false := by
  cases stack with
  | nil => rfl
  | cons p rest =>
      cases p with
      | inSink w record => rfl
      | _ => cases h

omit [DecidableEq T] in
theorem printing_iff {stack : List (Point T)} :
    printing stack = true ↔ ∃ w record rest, stack = .printing w record :: rest := by
  constructor
  · intro h
    cases stack with
    | nil => cases h
    | cons p rest =>
        cases p with
        | printing w record => exact ⟨w, record, rest, rfl⟩
        | _ => cases h
  · rintro ⟨w, record, rest, rfl⟩
    rfl

/-- The threads in `default_sink` are the one that has the mutex. -/
def System.Exclusive (s : System T) : Prop := ∀ t, s.printer = some t ↔ printing (s.stack t) = true

theorem System.Exclusive.keep {stack : List (Point T)} (h : s.Exclusive)
    (hprinting : printing stack = printing (s.stack t)) (u : T) :
    s.printer = some u ↔ printing (Function.update s.stack t stack u) = true := by
  rw [update_keeps printing hprinting u]
  exact h u

theorem step_exclusive (h : LogStep s e s') (hs : s.Exclusive) (hnested : ∀ t, Nested (s.stack t)) :
    s'.Exclusive := by
  cases h with
  | ignored _ => exact hs
  | @called t c r huser _ =>
      refine hs.keep ?_
      rw [printing_of_inUserCode huser]
      rfl
  | @served t r rest _ hstack _ =>
      have huser := (nested_of_stack hnested hstack).inUserCode
      refine hs.keep ?_
      rw [hstack, printing_of_inUserCode huser]
      rfl
  | @accepted t r w rest _ hstack _ =>
      refine hs.keep ?_
      rw [hstack]
      rfl
  | @formed t now w rest hstack =>
      refine hs.keep ?_
      rw [hstack]
      rfl
  | @handed t w record rest f hstack _ =>
      refine hs.keep ?_
      rw [hstack]
      rfl
  | @prints t w record rest hstack _ hprinter =>
      intro u
      by_cases hu : u = t
      · subst hu
        show some u = some u ↔ printing (Function.update s.stack u _ u) = true
        rw [Function.update_self]
        exact ⟨fun _ => rfl, fun _ => rfl⟩
      · show some t = some u ↔ printing (Function.update s.stack t _ u) = true
        rw [Function.update_of_ne hu]
        constructor
        · intro htu
          exact absurd (Option.some.inj htu).symm hu
        · intro hprinting
          have hsome := (hs u).mpr hprinting
          rw [hprinter] at hsome
          cases hsome
  | @printed t w record rest hstack =>
      have hprinter : s.printer = some t := by
        apply (hs t).mpr
        rw [hstack]
        rfl
      have huser := (nested_of_stack hnested hstack).inUserCode
      intro u
      by_cases hu : u = t
      · subst hu
        show none = some u ↔ printing (Function.update s.stack u rest u) = true
        rw [Function.update_self, printing_of_inUserCode huser]
        exact ⟨fun h => (by cases h), fun h => (by cases h)⟩
      · show none = some u ↔ printing (Function.update s.stack t rest u) = true
        rw [Function.update_of_ne hu, ← hs u, hprinter]
        constructor
        · intro h
          cases h
        · intro h
          exact absurd (Option.some.inj h).symm hu
  | @returns t w record rest hstack =>
      have huser := (nested_of_stack hnested hstack).inUserCode
      refine hs.keep ?_
      rw [hstack, printing_of_inUserCode huser]
      rfl

theorem exclusive_of_reachable (h : (logMachine T).Reachable s) : s.Exclusive := by
  have hboth : s.Exclusive ∧ ∀ t, Nested (s.stack t) := by
    apply h.invariant (I := fun s => s.Exclusive ∧ ∀ t, Nested (s.stack t))
    · rintro s rfl
      exact ⟨fun t => ⟨fun h => (by cases h), fun h => (by cases h)⟩, zero_ordered.nested⟩
    · intro u e v hu hstep
      have hcases := next_cases hstep
      exact ⟨step_exclusive hcases hu.1 hu.2, step_nested hcases hu.2⟩
  exact hboth.1

end Mutex

/-! ## Every call returns -/

section Returns

/-- The thread that goes on with a call that it has begun. -/
def Event.goes : Event T → Option T
  | .call _ _ => none
  | .enter t => some t
  | .form t _ => some t
  | .emit t => some t
  | .printed t => some t
  | .sinkReturns t => some t

/-- The steps that are left of a call. -/
def Point.left : Point T → Nat
  | .waits _ => 4
  | .captured _ => 3
  | .formed _ _ => 2
  | .printing _ _ => 1
  | .inSink _ _ => 1

/-- The steps that are left of the calls of a thread. -/
def remaining : List (Point T) → Nat
  | [] => 0
  | p :: rest => p.left + remaining rest

omit [DecidableEq T] in
theorem remaining_le (stack : List (Point T)) : remaining stack ≤ 4 * stack.length := by
  induction stack with
  | nil => exact Nat.le_refl _
  | cons p rest ih =>
      have hp : p.left ≤ 4 := by
        cases p <;> simp [Point.left]
      rw [remaining, List.length_cons]
      omega

/-- While no other thread has the mutex, a thread that is in a call can go on. -/
theorem call_goes {p : Point T} {rest : List (Point T)} (hs : s.Exclusive)
    (hfree : s.printer = none ∨ s.printer = some t) (hstack : s.stack t = p :: rest) :
    ∃ e s', e.goes = some t ∧ next s e = some s' ∧
      (s'.printer = none ∨ s'.printer = some t) ∧
      remaining (s'.stack t) < remaining (s.stack t) := by
  have hself : ∀ stack : List (Point T), remaining stack < remaining (s.stack t) →
      remaining (Function.update s.stack t stack t) < remaining (s.stack t) := by
    intro stack hless
    rwa [Function.update_self]
  have hpoint : ∀ q : Point T, q.left < p.left →
      remaining (q :: rest) < remaining (s.stack t) := by
    intro q hq
    rw [hstack, remaining, remaining]
    omega
  have hpop : 0 < p.left → remaining rest < remaining (s.stack t) := by
    intro hp
    rw [hstack, remaining]
    omega
  cases p with
  | waits r =>
      -- who has the mutex is in `default_sink`
      have hprinter : s.printer = none := by
        refine hfree.resolve_right fun hsome => ?_
        have hprinting := (hs t).mp hsome
        rw [hstack] at hprinting
        cases hprinting
      cases hserve : s.settings.serve r with
      | mk g target =>
          cases target with
          | none =>
              refine ⟨.enter t, { s.setStack t rest with
                settings := g, served := s.served ++ [(t, r)] }, rfl, ?_, hfree,
                hself _ (hpop (by decide : 0 < 4))⟩
              simp only [next, hprinter, hstack, hserve]
          | some w =>
              refine ⟨.enter t, { s.setStack t (.captured w :: rest) with
                settings := g, served := s.served ++ [(t, r)],
                accepted := s.accepted ++ [(t, w)] }, rfl, ?_, hfree,
                hself _ (hpoint _ (by decide : 3 < 4))⟩
              simp only [next, hprinter, hstack, hserve]
  | captured w =>
      refine ⟨.form t ⟨0, 0⟩, s.setStack t (.formed w (w.entry.record t ⟨0, 0⟩) :: rest), rfl, ?_,
        hfree, hself _ (hpoint _ (by decide : 2 < 3))⟩
      simp only [next, hstack]
  | formed w record =>
      have hprinter : s.printer = none := by
        refine hfree.resolve_right fun hsome => ?_
        have hprinting := (hs t).mp hsome
        rw [hstack] at hprinting
        cases hprinting
      cases hsink : w.sink with
      | none =>
          refine ⟨.emit t, { s.setStack t (.printing w record :: rest) with
            printer := some t, delivered := s.delivered ++ [(t, ⟨w, record⟩)] }, rfl, ?_,
            Or.inr rfl, hself _ (hpoint _ (by decide : 1 < 2))⟩
          simp only [next, hstack, hsink, hprinter]
      | some f =>
          refine ⟨.emit t, { s.setStack t (.inSink w record :: rest) with
            delivered := s.delivered ++ [(t, ⟨w, record⟩)] }, rfl, ?_, hfree,
            hself _ (hpoint _ (by decide : 1 < 2))⟩
          simp only [next, hstack, hsink]
  | printing w record =>
      refine ⟨.printed t, { s.setStack t rest with printer := none }, rfl, ?_, Or.inl rfl,
        hself _ (hpop (by decide : 0 < 1))⟩
      simp only [next, hstack]
  | inSink w record =>
      refine ⟨.sinkReturns t, s.setStack t rest, rfl, ?_, hfree,
        hself _ (hpop (by decide : 0 < 1))⟩
      simp only [next, hstack]

/-- The calls of a thread return by its own steps while no other thread has the mutex. -/
theorem calls_return (h : (logMachine T).Reachable s)
    (hfree : s.printer = none ∨ s.printer = some t) :
    ∃ es u, (∀ e ∈ es, e.goes = some t) ∧ es.length ≤ 4 * (s.stack t).length ∧
      (logMachine T).Run s es u ∧ u.stack t = [] := by
  let I : System T → Prop := fun s =>
    (logMachine T).Reachable s ∧ (s.printer = none ∨ s.printer = some t)
  have hstep : ∀ s, I s → ¬ s.stack t = [] → ∃ e s', e.goes = some t ∧
      (logMachine T).step s e s' ∧ I s' ∧ remaining (s'.stack t) < remaining (s.stack t) := by
    intro s hI hne
    obtain ⟨p, rest, hstack⟩ := List.exists_cons_of_ne_nil hne
    obtain ⟨e, s', hgoes, hnext, hfree, hless⟩ :=
      call_goes (exclusive_of_reachable hI.1) hI.2 hstack
    exact ⟨e, s', hgoes, hnext, ⟨hI.1.step hnext, hfree⟩, hless⟩
  obtain ⟨es, u, hes, hlength, hrun, -, hnil⟩ :=
    Machine.exists_run_of_measure (M := logMachine T) (I := I) (Q := fun s => s.stack t = [])
      (A := fun e => e.goes = some t) (fun s => remaining (s.stack t)) hstep ⟨h, hfree⟩
  exact ⟨es, u, hes, Nat.le_trans hlength (remaining_le _), hrun, hnil⟩

/-- A thread has the mutex outside a critical section exactly while it prints to `stderr`: no
    sink runs with it, and never do two threads print.  So every call can return, also one that
    was made in a sink in a sink: after the thread that prints has gone on, if there is one, the
    caller needs its own steps only, four for each call that it is in. -/
theorem sink_may_log (h : (logMachine T).Reachable s) (t : T) :
    (∀ t', s.printer = some t' ↔ ∃ w record rest, s.stack t' = .printing w record :: rest) ∧
    ∃ fs es u, (fs = [] ∨ ∃ t', s.printer = some t' ∧ fs = [.printed t']) ∧
      (∀ e ∈ es, e.goes = some t) ∧ es.length ≤ 4 * (s.stack t).length ∧
      (logMachine T).Run s (fs ++ es) u ∧ u.stack t = [] := by
  have hexclusive := exclusive_of_reachable h
  refine ⟨fun t' => (hexclusive t').trans printing_iff, ?_⟩
  by_cases hfree : s.printer = none ∨ s.printer = some t
  · obtain ⟨es, u, hes, hlength, hrun, hnil⟩ := calls_return h hfree
    exact ⟨[], es, u, Or.inl rfl, hes, hlength, hrun, hnil⟩
  · obtain ⟨hsome, hne⟩ := not_or.mp hfree
    obtain ⟨t', hprinter⟩ := Option.ne_none_iff_exists'.mp hsome
    have ht : t ≠ t' := by
      rintro rfl
      exact hne hprinter
    obtain ⟨w, record, rest, hstack⟩ := printing_iff.mp ((hexclusive t').mp hprinter)
    let v : System T := { s.setStack t' rest with printer := none }
    have hprinted : (logMachine T).step s (.printed t') v := by
      show next s (.printed t') = some v
      simp only [next, hstack]
      rfl
    have hother : v.stack t = s.stack t := Function.update_of_ne ht ..
    obtain ⟨es, u, hes, hlength, hrun, hnil⟩ :=
      calls_return (t := t) (h.step hprinted) (Or.inl rfl)
    rw [hother] at hlength
    exact ⟨[.printed t'], es, u, Or.inr ⟨t', hprinter, rfl⟩, hes, hlength,
      (Machine.Run.single hprinted).append hrun, hnil⟩

/-- The sink of a thread logs while the other thread prints. -/
theorem sink_may_log_printing :
    ∃ (s u : System Bool) (fs es : List (Event Bool)), s.printer = some true ∧
      (s.stack false).length = 2 ∧ es.length ≤ 8 ∧ (logMachine Bool).Run s (fs ++ es) u ∧
      u.stack false = [] := by
  have hexec : Machine.exec next ({} : System Bool)
      [.call true (.write .error (some "event") (some "sys_event.c") 1 (some [65])), .enter true,
        .form true ⟨0, 0⟩, .call false (.setSink (some 7) 1), .enter false,
        .call false (.write .error (some "app") (some "main.c") 2 (some [66])), .enter false,
        .form false ⟨0, 0⟩, .emit false, .emit true,
        .call false (.write .warning (some "app") (some "main.c") 3 (some [67]))] =
      some _ := rfl
  have hreach : (logMachine Bool).Reachable _ := ⟨_, _, rfl, Machine.Run.of_exec hexec⟩
  obtain ⟨-, fs, es, u, -, -, hlength, hrun, hnil⟩ := sink_may_log hreach false
  exact ⟨_, u, fs, es, rfl, rfl, hlength, hrun, hnil⟩

end Returns

/-! ## Sinks that have been replaced -/

section Retired

variable {f d : Nat}

/-- The message goes to the sink with these data. -/
def Write.Uses (f d : Nat) (w : Write) : Prop := w.sink = some f ∧ w.sinkData = d

/-- The call sets the sink with these data, or has read them. -/
def Point.Uses (f d : Nat) : Point T → Prop
  | .waits r => r = .setSink (some f) d
  | .captured w => w.Uses f d
  | .formed w _ => w.Uses f d
  | .printing w _ => w.Uses f d
  | .inSink w _ => w.Uses f d

/-- The sink with these data is not set, and no call uses it. -/
structure System.Retired (s : System T) (f d : Nat) : Prop where
  settings : ¬ (s.settings.sink = some f ∧ s.settings.sinkData = d)
  stack : ∀ t, ∀ p ∈ s.stack t, ¬ p.Uses f d

omit [DecidableEq T] in
theorem serve_settings {g : Settings} {r : Request} (hr : r ≠ .setSink (some f) d)
    (hg : ¬ (g.sink = some f ∧ g.sinkData = d)) :
    ¬ ((g.serve r).1.sink = some f ∧ (g.serve r).1.sinkData = d) := by
  cases r with
  | setLevel level => exact hg
  | setSink sink privateData =>
      rintro ⟨hsink, hdata⟩
      have hsink : sink = some f := hsink
      have hdata : privateData = d := hdata
      exact hr (by rw [hsink, hdata])
  | write e => exact hg

omit [DecidableEq T] in
theorem serve_uses {g : Settings} {r : Request} {w : Write} (hserve : (g.serve r).2 = some w)
    (hg : ¬ (g.sink = some f ∧ g.sinkData = d)) : ¬ w.Uses f d := by
  cases r with
  | setLevel level => cases hserve
  | setSink sink privateData => cases hserve
  | write e =>
      obtain ⟨-, hw⟩ := Option.ite_none_left_eq_some.mp hserve
      obtain rfl := Option.some.inj hw
      exact hg

theorem update_retired {stack : List (Point T)} (hs : ∀ t, ∀ p ∈ s.stack t, ¬ p.Uses f d)
    (h : ∀ p ∈ stack, ¬ p.Uses f d) (u : T) (p : Point T)
    (hmem : p ∈ Function.update s.stack t stack u) : ¬ p.Uses f d := by
  by_cases hu : u = t
  · subst hu
    rw [Function.update_self] at hmem
    exact h p hmem
  · rw [Function.update_of_ne hu] at hmem
    exact hs u p hmem

theorem step_retired (h : LogStep s e s') (hcall : ∀ t, e ≠ .call t (.setSink (some f) d))
    (hs : s.Retired f d) : s'.Retired f d ∧ ∃ new, s'.delivered = s.delivered ++ new ∧
      ∀ x ∈ new, ¬ x.2.write.Uses f d := by
  have hold : ∃ new, s.delivered = s.delivered ++ new ∧ ∀ x ∈ new, ¬ x.2.write.Uses f d :=
    ⟨[], (List.append_nil _).symm, fun x hx => (by cases hx)⟩
  -- the other points of the stack are not changed
  have hhead : ∀ {t : T} {p : Point T} {rest : List (Point T)}, s.stack t = p :: rest →
      ¬ p.Uses f d ∧ ∀ q ∈ rest, ¬ q.Uses f d := by
    intro t p rest hstack
    have hpoints := hs.stack t
    rw [hstack] at hpoints
    exact ⟨hpoints p List.mem_cons_self, fun q hq => hpoints q (List.mem_cons_of_mem p hq)⟩
  have hreplace : ∀ {p : Point T} {rest : List (Point T)}, ¬ p.Uses f d →
      (∀ q ∈ rest, ¬ q.Uses f d) → ∀ q ∈ p :: rest, ¬ q.Uses f d := by
    intro p rest hp hrest q hq
    rcases List.mem_cons.mp hq with rfl | hmem
    · exact hp
    · exact hrest q hmem
  cases h with
  | ignored _ => exact ⟨hs, hold⟩
  | @called t c r _ hrequest =>
      have hr : r ≠ .setSink (some f) d := by
        rintro rfl
        cases c with
        | setLevel level =>
            obtain ⟨-, heq⟩ := Option.ite_none_left_eq_some.mp hrequest
            cases heq
        | setSink sink privateData =>
            cases hrequest
            exact hcall t rfl
        | write level module file line text =>
            cases module <;> cases file <;> cases text <;> cases hrequest
      exact ⟨⟨hs.settings, update_retired hs.stack (hreplace hr (hs.stack t))⟩, hold⟩
  | @served t r rest _ hstack _ =>
      obtain ⟨hr, hrest⟩ := hhead hstack
      exact ⟨⟨serve_settings hr hs.settings, update_retired hs.stack hrest⟩, hold⟩
  | @accepted t r w rest _ hstack hserve =>
      obtain ⟨hr, hrest⟩ := hhead hstack
      exact ⟨⟨serve_settings hr hs.settings,
        update_retired hs.stack (hreplace (serve_uses hserve hs.settings) hrest)⟩, hold⟩
  | @formed t now w rest hstack =>
      obtain ⟨hw, hrest⟩ := hhead hstack
      exact ⟨⟨hs.settings, update_retired hs.stack (hreplace hw hrest)⟩, hold⟩
  | @handed t w record rest f' hstack _ =>
      obtain ⟨hw, hrest⟩ := hhead hstack
      refine ⟨⟨hs.settings, update_retired hs.stack (hreplace hw hrest)⟩, _, rfl, fun x hx => ?_⟩
      obtain rfl := List.mem_singleton.mp hx
      exact hw
  | @prints t w record rest hstack _ _ =>
      obtain ⟨hw, hrest⟩ := hhead hstack
      refine ⟨⟨hs.settings, update_retired hs.stack (hreplace hw hrest)⟩, _, rfl, fun x hx => ?_⟩
      obtain rfl := List.mem_singleton.mp hx
      exact hw
  | @printed t w record rest hstack =>
      exact ⟨⟨hs.settings, update_retired hs.stack (hhead hstack).2⟩, hold⟩
  | @returns t w record rest hstack =>
      exact ⟨⟨hs.settings, update_retired hs.stack (hhead hstack).2⟩, hold⟩

/-- That `sys_log_set_sink` has returned does not mean that the sink before it is at rest.  It is
    once it is not set and no call sets it, has read it or runs it: from then on it is not
    called with its data, and no call has read them, until it is set again. -/
theorem retired_sink_unused {es : List (Event T)} (hs : s.Retired f d)
    (hcalls : ∀ t, .call t (.setSink (some f) d) ∉ es) (hrun : (logMachine T).Run s es u) :
    u.Retired f d ∧ ∃ new, u.delivered = s.delivered ++ new ∧
      ∀ x ∈ new, ¬ x.2.write.Uses f d := by
  induction hrun with
  | nil => exact ⟨hs, [], (List.append_nil _).symm, fun x hx => (by cases hx)⟩
  | @snoc es v e w hrun hstep ih =>
      obtain ⟨hv, new, hnew, hunused⟩ := ih fun t hmem => hcalls t (List.mem_append_left _ hmem)
      have hcall : ∀ t, e ≠ .call t (.setSink (some f) d) := by
        rintro t rfl
        exact hcalls t (List.mem_append_right _ List.mem_cons_self)
      obtain ⟨hw, last, hlast, hunused'⟩ := step_retired (next_cases hstep) hcall hv
      refine ⟨hw, new ++ last, ?_, fun x hx => ?_⟩
      · rw [hlast, hnew, List.append_assoc]
      · exact (List.mem_append.mp hx).elim (hunused x) (hunused' x)

/-- The sink has been replaced by `stderr`, and a message is written. -/
theorem retired_sink_unused_replaced :
    ∃ (s u : System Unit) (es : List (Event Unit)), s.served.length = 2 ∧ s.Retired 7 1 ∧
      (logMachine Unit).Run s es u ∧ u.delivered.length = 1 ∧ u.Retired 7 1 := by
  let s : System Unit := (Machine.exec next ({} : System Unit)
    [.call () (.setSink (some 7) 1), .enter (), .call () (.setSink none 0), .enter ()]).getD {}
  have hexec : Machine.exec next s
      [.call () (.write .error (some "event") (some "sys_event.c") 1 (some [65])), .enter (),
        .form () ⟨0, 0⟩, .emit ()] = some _ := rfl
  have hsettings : ¬ (s.settings.sink = some 7 ∧ s.settings.sinkData = 1) := by decide
  have hs : s.Retired 7 1 := ⟨hsettings, fun t p hp => absurd hp List.not_mem_nil⟩
  have hrun : (logMachine Unit).Run s _ _ := Machine.Run.of_exec hexec
  obtain ⟨hu, -⟩ := retired_sink_unused hs (fun t hmem => by simp at hmem) hrun
  exact ⟨s, _, _, rfl, hs, hrun, rfl, hu⟩

/-- `sys_log_set_sink` has returned to the one thread when the other, whose message passed the
    test of the level before, calls the old sink with its data. -/
theorem replaced_sink_called :
    ∃ (s u : System Bool) (x : Bool × Delivery Bool), (logMachine Bool).Reachable s ∧
      s.served.getLast? = some (false, .setSink none 0) ∧ s.stack false = [] ∧
      s.settings.sink = none ∧ (logMachine Bool).step s (.emit true) u ∧
      u.delivered = s.delivered ++ [x] ∧ x.2.write.Uses 7 1 := by
  have hexec : Machine.exec next ({} : System Bool)
      [.call false (.setSink (some 7) 1), .enter false,
        .call true (.write .error (some "event") (some "sys_event.c") 1 (some [65])), .enter true,
        .form true ⟨0, 0⟩, .call false (.setSink none 0), .enter false] = some _ := rfl
  have hreach : (logMachine Bool).Reachable _ := ⟨_, _, rfl, Machine.Run.of_exec hexec⟩
  exact ⟨_, _, _, hreach, rfl, rfl, rfl, rfl, rfl, rfl, rfl⟩

end Retired

end Log
end AppCore
