import LogMaker.Dialog
import LogMaker.Spdlog.CircularQ
/-!
# Logger — spdlog's `logger`, its sinks and its backtrace

What `CleLogger` hands a message to: the levels, the loop over the sinks with its `SPDLOG_LOGGER_CATCH`, the flush
level, and the backtrace that keeps the last messages for a dump.  A sink is what the logger sees of it: its level, the
calls it got, and what the last of these threw, which may depend on all of them.  A call of the logger is the logger it
leaves and what it throws; what was reported before an exception stays reported.

A message is without its time and its thread, and the error handler is the list of what it was handed.
-/
namespace LogMaker

/-- The number of a level. -/
def Level.value : Level → Nat
  | .trace => 0
  | .debug => 1
  | .info => 2
  | .warn => 3
  | .err => 4
  | .critical => 5
  | .off => 6

namespace Spdlog

/-- `source_loc`; a null file name is none. -/
structure SourceLoc where
  filename : Option CString := none
  line : UINT := 0

/-- `log_msg`. -/
structure LogMsg where
  loggerName : CString
  level : Level
  source : SourceLoc
  payload : CString

instance : Inhabited LogMsg := ⟨⟨[], .off, {}, []⟩⟩

/-- An exception: a `std::exception` with its text, or any other. -/
inductive Thrown where
  | std (what : CString)
  | unknown
  deriving DecidableEq

/-! ## Sinks -/

inductive SinkCall where
  | log (msg : LogMsg)
  | flush

/-- A sink: `throws` is what the last of the calls throws. -/
structure Sink where
  level : Level
  calls : List SinkCall
  throws : List SinkCall → Option Thrown

def Sink.shouldLog (k : Sink) (msgLevel : Level) : Bool := k.level.value ≤ msgLevel.value

/-- `SPDLOG_LOGGER_CATCH(location)`: what it hands to `err_handler_`, and what it throws on. -/
def loggerCatch (location : SourceLoc) : Option Thrown → List CString × Option Thrown
  | none => ([], none)
  | some (.std what) =>
    ([match location.filename with
      | some filename => what ++ " [".toList ++ filename ++ "(".toList ++ formatD location.line ++ ")]".toList
      | none => what], none)
  | some .unknown => (["Rethrowing unknown exception in logger".toList], some .unknown)

/-- The loop over the sinks, with the test before the call: the sinks after it, the reports, and what is thrown. -/
def eachSink (location : SourceLoc) (test : Sink → Bool) (c : SinkCall) :
    List Sink → List Sink × List CString × Option Thrown
  | [] => ([], [], none)
  | k :: ks =>
    if test k then
      let k' := { k with calls := k.calls ++ [c] }
      match loggerCatch location (k.throws k'.calls) with
      | (es, some e) => (k' :: ks, es, some e)
      | (es, none) =>
        let r := eachSink location test c ks
        (k' :: r.1, es ++ r.2.1, r.2.2)
    else
      let r := eachSink location test c ks
      (k :: r.1, r.2)

/-! ## The backtrace -/

/-- `backtracer`. -/
structure Backtracer where
  enabled : Bool
  messages : CircularQ LogMsg

namespace Backtracer

def enable (size : BitVec 64) : Backtracer := ⟨true, (CircularQ.copyMoveable (CircularQ.ofMaxItems size)).1⟩

/-- The messages are kept. -/
def disable (b : Backtracer) : Backtracer := { b with enabled := false }

def pushBack (b : Backtracer) (msg : LogMsg) : Backtracer := { b with messages := b.messages.pushBack msg }

def empty (b : Backtracer) : Bool := b.messages.isEmpty

/-- `foreach_pop(fun)`: a message is popped after `fun` has returned. -/
def foreachPop {σ : Type} (f : σ → LogMsg → σ × Option Thrown) (q : CircularQ LogMsg) (s : σ) :
    CircularQ LogMsg × σ × Option Thrown :=
  if h : q.isEmpty = false then
    match f s (q.front h) with
    | (s', some e) => (q, s', some e)
    | (s', none) => foreachPop f (q.popFront h) s'
  else (q, s, none)
termination_by q.size
decreasing_by exact Nat.lt_of_succ_le (Nat.le_of_eq (q.size_popFront h))

end Backtracer

/-! ## The logger -/

structure Logger where
  name : CString
  sinks : List Sink
  level : Level
  flushLevel : Level
  tracer : Backtracer
  /-- What `err_handler_` was handed. -/
  errors : List CString

/-- What a call leaves, and what it throws. -/
abbrev Outcome := Logger × Option Thrown

/-- The statement after it, unless it threw. -/
def Outcome.next (r : Outcome) (f : Logger → Outcome) : Outcome := match r with
  | (l, none) => f l
  | (l, some e) => (l, some e)

/-- The statement, within `SPDLOG_TRY` and `SPDLOG_LOGGER_CATCH(location)`. -/
def Outcome.caught (r : Outcome) (location : SourceLoc) : Outcome :=
  let c := loggerCatch location r.2
  ({ r.1 with errors := r.1.errors ++ c.1 }, c.2)

namespace Logger

/-- `logger(name, begin, end)`. -/
def ofSinks (name : CString) (sinks : List Sink) : Logger := ⟨name, sinks, .info, .off, ⟨false, .disabled⟩, []⟩

def shouldLog (l : Logger) (msgLevel : Level) : Bool := l.level.value ≤ msgLevel.value

def shouldFlush (l : Logger) (msg : LogMsg) : Bool := l.flushLevel.value ≤ msg.level.value && msg.level ≠ .off

def callSinks (l : Logger) (location : SourceLoc) (test : Sink → Bool) (c : SinkCall) : Outcome :=
  let r := eachSink location test c l.sinks
  ({ l with sinks := r.1, errors := l.errors ++ r.2.1 }, r.2.2)

def flush (l : Logger) : Outcome := l.callSinks {} (fun _ => true) .flush

def sinkIt (l : Logger) (msg : LogMsg) : Outcome :=
  (l.callSinks msg.source (fun k => k.shouldLog msg.level) (.log msg)).next
    (fun l => if l.shouldFlush msg then l.flush else (l, none))

def logIt (l : Logger) (msg : LogMsg) (logEnabled tracebackEnabled : Bool) : Outcome :=
  (if logEnabled then l.sinkIt msg else (l, none)).next
    (fun l => (if tracebackEnabled then { l with tracer := l.tracer.pushBack msg } else l, none))

/-- `log_(loc, lvl, fmt, args)`: `text` is what the formatting makes of its arguments, or what it throws. -/
def log_ (l : Logger) (loc : SourceLoc) (lvl : Level) (text : Except Thrown CString) : Outcome :=
  let logEnabled := l.shouldLog lvl
  let tracebackEnabled := l.tracer.enabled
  if !logEnabled && !tracebackEnabled then (l, none)
  else
    Outcome.caught (match text with
      | .error e => (l, some e)
      | .ok buf => l.logIt ⟨l.name, lvl, loc, buf⟩ logEnabled tracebackEnabled) loc

/-- `log(loc, lvl, msg)` of a text that is not formatted. -/
def log (l : Logger) (loc : SourceLoc) (lvl : Level) (msg : CString) : Outcome :=
  let logEnabled := l.shouldLog lvl
  let tracebackEnabled := l.tracer.enabled
  if !logEnabled && !tracebackEnabled then (l, none)
  else l.logIt ⟨l.name, lvl, loc, msg⟩ logEnabled tracebackEnabled

def backtraceStart (name : CString) : LogMsg :=
  ⟨name, .info, {}, "****************** Backtrace Start ******************".toList⟩

def backtraceEnd (name : CString) : LogMsg :=
  ⟨name, .info, {}, "****************** Backtrace End ********************".toList⟩

/-- `tracer_.foreach_pop` with `sink_it_`. -/
def popToSinks (l : Logger) : Outcome :=
  let r := Backtracer.foreachPop sinkIt l.tracer.messages l
  ({ r.2.1 with tracer := { l.tracer with messages := r.1 } }, r.2.2)

def dumpBacktrace (l : Logger) : Outcome :=
  if l.tracer.enabled && !l.tracer.empty then
    ((l.sinkIt (backtraceStart l.name)).next popToSinks).next (fun l => l.sinkIt (backtraceEnd l.name))
  else (l, none)

/-- A call of the logger. -/
inductive Op where
  | format (loc : SourceLoc) (lvl : Level) (text : Except Thrown CString)
  | log (loc : SourceLoc) (lvl : Level) (msg : CString)
  | flush
  | setLevel (lvl : Level)
  | flushOn (lvl : Level)
  | enableBacktrace (nMessages : BitVec 64)
  | disableBacktrace
  | dumpBacktrace

def step (l : Logger) : Op → Outcome
  | .format loc lvl text => l.log_ loc lvl text
  | .log loc lvl msg => l.log loc lvl msg
  | .flush => l.flush
  | .setLevel lvl => ({ l with level := lvl }, none)
  | .flushOn lvl => ({ l with flushLevel := lvl }, none)
  | .enableBacktrace n => ({ l with tracer := Backtracer.enable n }, none)
  | .disableBacktrace => ({ l with tracer := l.tracer.disable }, none)
  | .dumpBacktrace => l.dumpBacktrace

/-- The calls one after another; the caller goes on after one that throws. -/
def run (l : Logger) (ops : List Op) : Logger := ops.foldl (fun l o => (l.step o).1) l

end Logger

end Spdlog
end LogMaker
