/-
  AppCore.Log.Model

  `core/sys_log.c`: the log that every part of the framework writes to, from any number of
  threads.  A sink is code of the application, and may call the log itself.
-/

import AppCore.Lib.Machine
import Mathlib.Logic.Function.Basic

namespace AppCore
namespace Log

/-! ## Records -/

/-- `sys_log_level_t`; a caller may pass any value of it. -/
abbrev SysLogLevel := UInt32

namespace SysLogLevel

abbrev debug : SysLogLevel := 0
abbrev info : SysLogLevel := 1
abbrev warning : SysLogLevel := 2
abbrev error : SysLogLevel := 3

end SysLogLevel

/-- `SYS_LOG_MESSAGE_CAPACITY`. -/
def sysLogMessageCapacity : Nat := 512

/-- The arguments of `sys_log_write` that are not `NULL`; `text` is what the format and its
    arguments stand for. -/
structure Entry where
  level : SysLogLevel
  module : String
  file : String
  line : Int
  text : List UInt8
deriving DecidableEq, Repr

/-- `struct timespec`. -/
structure Timespec where
  tvSec : Int64
  tvNsec : Int64
deriving DecidableEq

/-- `sys_log_record_t`. -/
structure SysLogRecord (T : Type*) where
  timestampUs : UInt64
  threadId : T
  level : SysLogLevel
  module : String
  file : String
  line : Int
  message : List UInt8

/-- `realtime_microseconds`, at the time that `clock_gettime` gives. -/
def realtimeMicroseconds (now : Timespec) : UInt64 :=
  now.tvSec.toUInt64 * 1000000 + now.tvNsec.toUInt64 / 1000

/-- The record of an entry; `vsnprintf` keeps the last byte for the terminator. -/
def Entry.record {T : Type*} (e : Entry) (t : T) (now : Timespec) : SysLogRecord T where
  timestampUs := realtimeMicroseconds now
  threadId := t
  level := e.level
  module := e.module
  file := e.file
  line := e.line
  message := e.text.take (sysLogMessageCapacity - 1)

/-! ## Calls -/

/-- `g_log_level`, `g_log_sink` and `g_log_sink_data`; no sink stands for `stderr`. -/
structure Settings where
  level : SysLogLevel := .info
  sink : Option Nat := none
  sinkData : Nat := 0
deriving DecidableEq, Repr

/-- A call of one of the three functions. -/
inductive Call where
  | setLevel (level : SysLogLevel)
  | setSink (sink : Option Nat) (privateData : Nat)
  | write (level : SysLogLevel) (module file : Option String) (line : Int)
      (text : Option (List UInt8))
deriving DecidableEq, Repr

/-- What a call does in its first critical section. -/
inductive Request where
  | setLevel (level : SysLogLevel)
  | setSink (sink : Option Nat) (privateData : Nat)
  | write (entry : Entry)
deriving DecidableEq, Repr

/-- The test of the arguments: a call that fails it returns at once. -/
def Call.request : Call → Option Request
  | .setLevel level => if SysLogLevel.error < level then none else some (.setLevel level)
  | .setSink sink privateData => some (.setSink sink privateData)
  | .write level module file line text => do
    return .write ⟨level, ← module, ← file, line, ← text⟩

/-- A message on its way, with the sink and its data that were read together. -/
structure Write where
  entry : Entry
  sink : Option Nat
  sinkData : Nat
deriving DecidableEq, Repr

/-- The first critical section: the settings it leaves, and the message that goes on. -/
def Settings.serve (g : Settings) : Request → Settings × Option Write
  | .setLevel level => ({ g with level := level }, none)
  | .setSink sink privateData => ({ g with sink := sink, sinkData := privateData }, none)
  | .write e => (g, if e.level < g.level then none else some ⟨e, g.sink, g.sinkData⟩)

/-- Where a call is. -/
inductive Point (T : Type*) where
  /-- Before the first critical section. -/
  | waits (r : Request)
  /-- Before the message is formatted. -/
  | captured (w : Write)
  /-- Before the record is given to the sink, or the mutex is locked again. -/
  | formed (w : Write) (record : SysLogRecord T)
  /-- In `default_sink`, with the mutex. -/
  | printing (w : Write) (record : SysLogRecord T)
  /-- In the sink of the application, without the mutex. -/
  | inSink (w : Write) (record : SysLogRecord T)

/-- A record that has been given to a sink. -/
structure Delivery (T : Type*) where
  write : Write
  record : SysLogRecord T

/-- The log.  Only who prints has the mutex for longer than a step. -/
structure System (T : Type*) where
  settings : Settings := {}
  printer : Option T := none
  /-- The calls of a thread, the innermost first. -/
  stack : T → List (Point T) := fun _ => []
  /-- For the proofs: the calls in the order in which they began, the same in the order of
      their first critical sections, the messages that passed the test of the level, and the
      records that were given to a sink. -/
  called : List (T × Request) := []
  served : List (T × Request) := []
  accepted : List (T × Write) := []
  delivered : List (T × Delivery T) := []

/-- The atomic steps. -/
inductive Event (T : Type*) where
  | call (t : T) (c : Call)
  /-- The first critical section of a call. -/
  | enter (t : T)
  /-- The message is formatted. -/
  | form (t : T) (now : Timespec)
  /-- The sink is called; `default_sink` with the mutex. -/
  | emit (t : T)
  /-- `default_sink` returns, and the mutex is unlocked. -/
  | printed (t : T)
  | sinkReturns (t : T)

/-- The application's code runs in a thread that is in no call, or in a sink. -/
def inUserCode {T : Type*} : List (Point T) → Bool
  | [] => true
  | .inSink _ _ :: _ => true
  | _ => false

section Step

variable {T : Type*} [DecidableEq T]

def System.setStack (s : System T) (t : T) (stack : List (Point T)) : System T :=
  { s with stack := Function.update s.stack t stack }

/-- One atomic step. -/
def next (s : System T) : Event T → Option (System T)
  | .call t c =>
    if inUserCode (s.stack t) = true then
      match c.request with
      | none => some s
      | some r =>
        some { s.setStack t (.waits r :: s.stack t) with called := s.called ++ [(t, r)] }
    else none
  | .enter t =>
    match s.printer, s.stack t with
    | none, .waits r :: rest =>
      match s.settings.serve r with
      | (g, none) =>
        some { s.setStack t rest with settings := g, served := s.served ++ [(t, r)] }
      | (g, some w) =>
        some { s.setStack t (.captured w :: rest) with
          settings := g, served := s.served ++ [(t, r)], accepted := s.accepted ++ [(t, w)] }
    | _, _ => none
  | .form t now =>
    match s.stack t with
    | .captured w :: rest => some (s.setStack t (.formed w (w.entry.record t now) :: rest))
    | _ => none
  | .emit t =>
    match s.stack t with
    | .formed w record :: rest =>
      match w.sink, s.printer with
      | some _, _ => some { s.setStack t (.inSink w record :: rest) with
          delivered := s.delivered ++ [(t, ⟨w, record⟩)] }
      | none, none => some { s.setStack t (.printing w record :: rest) with
          printer := some t, delivered := s.delivered ++ [(t, ⟨w, record⟩)] }
      | none, some _ => none
    | _ => none
  | .printed t =>
    match s.stack t with
    | .printing _ _ :: rest => some { s.setStack t rest with printer := none }
    | _ => none
  | .sinkReturns t =>
    match s.stack t with
    | .inSink _ _ :: rest => some (s.setStack t rest)
    | _ => none

/-- The log under all interleavings. -/
def logMachine (T : Type*) [DecidableEq T] : Machine (System T) (Event T) :=
  Machine.ofNext (fun s => s = {}) next

end Step

/-! ## One call after the other -/

/-- The log of calls that do not overlap. -/
structure Journal (T : Type*) where
  settings : Settings := {}
  messages : List (T × Write) := []

def Journal.call {T : Type*} (j : Journal T) (c : T × Request) : Journal T where
  settings := (j.settings.serve c.2).1
  messages := j.messages ++ ((j.settings.serve c.2).2.map (Prod.mk c.1)).toList

def journal {T : Type*} (calls : List (T × Request)) : Journal T := calls.foldl Journal.call {}

theorem journal_snoc {T : Type*} (calls : List (T × Request)) (c : T × Request) :
    journal (calls ++ [c]) = (journal calls).call c := List.foldl_append

/-! ## What a step does -/

section Cases

variable {T : Type*} [DecidableEq T]

/-- What a step finds, and the log it leaves. -/
inductive LogStep (s : System T) : Event T → System T → Prop
  | ignored {t c} : c.request = none → LogStep s (.call t c) s
  | called {t c r} : inUserCode (s.stack t) = true → c.request = some r →
      LogStep s (.call t c)
        { s.setStack t (.waits r :: s.stack t) with called := s.called ++ [(t, r)] }
  /-- The call returns after its first critical section. -/
  | served {t r rest} : s.printer = none → s.stack t = .waits r :: rest →
      (s.settings.serve r).2 = none →
      LogStep s (.enter t) { s.setStack t rest with
        settings := (s.settings.serve r).1, served := s.served ++ [(t, r)] }
  | accepted {t r w rest} : s.printer = none → s.stack t = .waits r :: rest →
      (s.settings.serve r).2 = some w →
      LogStep s (.enter t) { s.setStack t (.captured w :: rest) with
        settings := (s.settings.serve r).1, served := s.served ++ [(t, r)],
        accepted := s.accepted ++ [(t, w)] }
  | formed {t now w rest} : s.stack t = .captured w :: rest →
      LogStep s (.form t now) (s.setStack t (.formed w (w.entry.record t now) :: rest))
  | handed {t w record rest f} : s.stack t = .formed w record :: rest → w.sink = some f →
      LogStep s (.emit t) { s.setStack t (.inSink w record :: rest) with
        delivered := s.delivered ++ [(t, ⟨w, record⟩)] }
  | prints {t w record rest} : s.stack t = .formed w record :: rest → w.sink = none →
      s.printer = none →
      LogStep s (.emit t) { s.setStack t (.printing w record :: rest) with
        printer := some t, delivered := s.delivered ++ [(t, ⟨w, record⟩)] }
  | printed {t w record rest} : s.stack t = .printing w record :: rest →
      LogStep s (.printed t) { s.setStack t rest with printer := none }
  | returns {t w record rest} : s.stack t = .inSink w record :: rest →
      LogStep s (.sinkReturns t) (s.setStack t rest)

variable {s s' : System T} {t : T}

theorem call_cases {c : Call} (h : next s (.call t c) = some s') : LogStep s (.call t c) s' := by
  obtain ⟨huser, h⟩ := Option.ite_none_right_eq_some.mp h
  cases hrequest : c.request with
  | none =>
      rw [hrequest] at h
      obtain rfl := Option.some.inj h
      exact .ignored hrequest
  | some r =>
      rw [hrequest] at h
      obtain rfl := Option.some.inj h
      exact .called huser hrequest

theorem enter_cases (h : next s (.enter t) = some s') : LogStep s (.enter t) s' := by
  unfold next at h
  dsimp only at h
  split at h
  · rename_i r rest hprinter hstack
    split at h
    · rename_i g hserve
      obtain rfl := Option.some.inj h
      obtain rfl : (s.settings.serve r).1 = g := by rw [hserve]
      exact .served hprinter hstack (by rw [hserve])
    · rename_i g w hserve
      obtain rfl := Option.some.inj h
      obtain rfl : (s.settings.serve r).1 = g := by rw [hserve]
      exact .accepted hprinter hstack (by rw [hserve])
  · cases h

theorem emit_cases (h : next s (.emit t) = some s') : LogStep s (.emit t) s' := by
  unfold next at h
  dsimp only at h
  split at h
  · rename_i w record rest hstack
    split at h
    · rename_i f _ hsink
      obtain rfl := Option.some.inj h
      exact .handed hstack hsink
    · rename_i hsink hprinter
      obtain rfl := Option.some.inj h
      exact .prints hstack hsink hprinter
    · cases h
  · cases h

theorem next_cases {e : Event T} (h : next s e = some s') : LogStep s e s' := by
  cases e with
  | call t c => exact call_cases h
  | enter t => exact enter_cases h
  | form t now =>
      unfold next at h
      dsimp only at h
      split at h
      · rename_i w rest hstack
        obtain rfl := Option.some.inj h
        exact .formed hstack
      · cases h
  | emit t => exact emit_cases h
  | printed t =>
      unfold next at h
      dsimp only at h
      split at h
      · rename_i w record rest hstack
        obtain rfl := Option.some.inj h
        exact .printed hstack
      · cases h
  | sinkReturns t =>
      unfold next at h
      dsimp only at h
      split at h
      · rename_i w record rest hstack
        obtain rfl := Option.some.inj h
        exact .returns hstack
      · cases h

end Cases

end Log
end AppCore
