import LogMaker.Spdlog.Delivery
/-!
# View — every run of the logger is one of its view

`View` is the logger as its user knows it: its levels, and the last messages for the next dump.  It says by itself which
calls are due to the sinks (`View.calls`), whatever these are and throw.  A call of the logger hands all sinks what is
due, or is cut (`step_handed`).  Where the sinks throw nothing but `std::exception`s nothing is cut, and a sink gets in
a run what its own level lets through of what is due (`run_delivers`), each exception being reported (`run_reports`).
-/
namespace LogMaker
namespace Spdlog

/-- A logger as its user knows it, with the messages for the next dump. -/
structure View where
  name : CString
  level : Level
  flushLevel : Level
  enabled : Bool
  capacity : Nat
  recent : Recent LogMsg capacity

namespace View

def logs (v : View) (lvl : Level) : Bool := v.level.value ≤ lvl.value

/-- The calls due to a message that is logged at its level. -/
def given (v : View) (msg : LogMsg) : List SinkCall := if v.logs msg.level then deliver v.flushLevel msg else []

def keep (v : View) (msg : LogMsg) : View := if v.enabled then { v with recent := v.recent.push msg } else v

/-- The first messages are gone from the backtrace. -/
def shed (v : View) (j : Nat) : View := { v with recent := v.recent.dropFirst j }

/-- The calls due to a call of the logger. -/
def calls (v : View) : Logger.Op → List SinkCall
  | .format loc lvl (.ok text) => v.given ⟨v.name, lvl, loc, text⟩
  | .log loc lvl msg => v.given ⟨v.name, lvl, loc, msg⟩
  | .flush => [.flush]
  | .dumpBacktrace =>
    if v.enabled = true ∧ v.recent.items ≠ [] then
      (dumped v.name v.recent.items).flatMap (deliver v.flushLevel)
    else []
  | _ => []

/-- What is caught of its formatting: the reports, and what is thrown on. -/
def formatCatch (v : View) : Logger.Op → List CString × Option Thrown
  | .format loc lvl (.error e) => if v.logs lvl || v.enabled then loggerCatch loc (some e) else ([], none)
  | _ => ([], none)

def step (v : View) : Logger.Op → View
  | .format loc lvl (.ok text) => v.keep ⟨v.name, lvl, loc, text⟩
  | .log loc lvl msg => v.keep ⟨v.name, lvl, loc, msg⟩
  | .setLevel lvl => { v with level := lvl }
  | .flushOn lvl => { v with flushLevel := lvl }
  | .enableBacktrace n => { v with enabled := true, capacity := (n + 1).toNat - 1, recent := Recent.empty }
  | .disableBacktrace => { v with enabled := false }
  | .dumpBacktrace => if v.enabled then v.shed v.recent.items.length else v
  | _ => v

end View

/-- The logger shows this view. -/
structure Logger.Shows (l : Logger) (v : View) : Prop where
  name : l.name = v.name
  level : l.level = v.level
  flushLevel : l.flushLevel = v.flushLevel
  enabled : l.tracer.enabled = v.enabled
  backtrace : l.tracer.messages.Refines v.recent

section
variable {l l' : Logger} {v : View}

theorem Logger.Shows.sinksOnly (h : l.Shows v) (hf : SinksOnly l l') : l'.Shows v :=
  ⟨hf.name.trans h.name, hf.level.trans h.level, hf.flushLevel.trans h.flushLevel, by rw [hf.tracer, h.enabled],
    by rw [hf.tracer]; exact h.backtrace⟩

theorem Logger.Shows.shouldLog (h : l.Shows v) (lvl : Level) : l.shouldLog lvl = v.logs lvl := by
  unfold Logger.shouldLog View.logs
  rw [h.level]

theorem Logger.Shows.keep (h : l.Shows v) (msg : LogMsg) :
    (if v.enabled then { l with tracer := l.tracer.pushBack msg } else l).Shows (v.keep msg) := by
  unfold View.keep
  split
  · exact ⟨h.name, h.level, h.flushLevel, h.enabled, CircularQ.refines_step h.backtrace (.push msg)⟩
  · exact h

/-- A call of the logger has handed its sinks what is due and shows the next view, or was cut at a sink. -/
def Served (cs : List SinkCall) (v v' : View) (l : Logger) (r : Outcome) : Prop :=
  (r.2 = none ∧ r.1.sinks = l.sinks.map (·.given cs) ∧ r.1.errors = l.errors ++ reports l.sinks cs ∧ r.1.Shows v') ∨
  (r.2 = some .unknown ∧ (∃ ds c, Cut cs l.sinks r.1.sinks ds c) ∧ r.1.Shows v)

theorem Sunk.served {cs : List SinkCall} {r : Outcome} (h : l.Shows v) (hs : Sunk cs l r) : Served cs v v l r := by
  obtain ⟨hk, he⟩ | ⟨he, hcut⟩ := hs.handed
  · exact .inl ⟨he, hk, hs.reports he, h.sinksOnly hs.frame⟩
  · exact .inr ⟨he, hcut, h.sinksOnly hs.frame⟩

theorem logIt_served (h : l.Shows v) (msg : LogMsg) :
    Served (v.given msg) v (v.keep msg) l (l.logIt msg (l.shouldLog msg.level) l.tracer.enabled) := by
  have hsunk : Sunk (v.given msg) l (if l.shouldLog msg.level then l.sinkIt msg else (l, none)) := by
    unfold View.given
    rw [h.shouldLog, ← h.flushLevel]
    split
    · exact sinkIt_sunk l msg
    · exact sunk_nothing l
  unfold Logger.logIt
  rw [h.enabled]
  match (if l.shouldLog msg.level then l.sinkIt msg else (l, none)), hsunk.served h with
  | (l₁, none), hs =>
    obtain ⟨-, hk, he, hv⟩ | ⟨he, -⟩ := hs
    · refine .inl ⟨rfl, ?_, ?_, hv.keep msg⟩
      · rw [← hk]
        dsimp only [Outcome.next]
        split <;> rfl
      · rw [← he]
        dsimp only [Outcome.next]
        split <;> rfl
    · cases he
  | (l₁, some e), hs =>
    obtain ⟨he, -⟩ | hs := hs
    · cases he
    · exact .inr hs

theorem Logger.Shows.caught {r : Outcome} (h : r.1.Shows v) (loc : SourceLoc) : (r.caught loc).1.Shows v :=
  ⟨h.name, h.level, h.flushLevel, h.enabled, h.backtrace⟩

theorem Served.caught {cs : List SinkCall} {v' : View} {r : Outcome} (h : Served cs v v' l r) (loc : SourceLoc) :
    Served cs v v' l (r.caught loc) := by
  obtain ⟨he, hk, hes, hv⟩ | ⟨he, hcut, hv⟩ := h
  · refine .inl ⟨?_, hk, ?_, hv.caught loc⟩
    · unfold Outcome.caught
      rw [he]
      rfl
    · rw [← hes]
      unfold Outcome.caught
      rw [he]
      exact List.append_nil _
  · refine .inr ⟨?_, hcut, hv.caught loc⟩
    unfold Outcome.caught
    rw [he]
    rfl

/-! ## A call of the logger -/

theorem caught_none (l : Logger) (loc : SourceLoc) : Outcome.caught (l, none) loc = (l, none) := by
  unfold Outcome.caught
  dsimp only [loggerCatch]
  rw [List.append_nil]

/-- The early return leaves nothing out. -/
theorem log_eq (l : Logger) (loc : SourceLoc) (lvl : Level) (msg : CString) :
    l.log loc lvl msg = l.logIt ⟨l.name, lvl, loc, msg⟩ (l.shouldLog lvl) l.tracer.enabled ∧
    l.log_ loc lvl (.ok msg) = (l.logIt ⟨l.name, lvl, loc, msg⟩ (l.shouldLog lvl) l.tracer.enabled).caught loc := by
  unfold Logger.log Logger.log_
  dsimp only
  cases l.shouldLog lvl <;> cases l.tracer.enabled <;> try exact ⟨rfl, rfl⟩
  exact ⟨rfl, (caught_none l loc).symm⟩

theorem log_served (h : l.Shows v) (loc : SourceLoc) (lvl : Level) (msg : CString) :
    Served (v.given ⟨v.name, lvl, loc, msg⟩) v (v.keep ⟨v.name, lvl, loc, msg⟩) l (l.log loc lvl msg) ∧
    Served (v.given ⟨v.name, lvl, loc, msg⟩) v (v.keep ⟨v.name, lvl, loc, msg⟩) l (l.log_ loc lvl (.ok msg)) := by
  have hserved := logIt_served h ⟨v.name, lvl, loc, msg⟩
  obtain ⟨hlog, hformat⟩ := log_eq l loc lvl msg
  rw [hlog, hformat, h.name]
  exact ⟨hserved, hserved.caught loc⟩

/-- A formatting that throws: nothing is due, and what is thrown is reported where the call was made. -/
theorem log_error (h : l.Shows v) (loc : SourceLoc) (lvl : Level) (e : Thrown) :
    l.log_ loc lvl (.error e) =
      ({ l with errors := l.errors ++ (v.formatCatch (.format loc lvl (.error e))).1 },
        (v.formatCatch (.format loc lvl (.error e))).2) := by
  unfold Logger.log_
  dsimp only [View.formatCatch]
  rw [h.shouldLog, h.enabled]
  cases v.logs lvl <;> cases v.enabled
  · simp
  all_goals rfl

/-- **What a call of the logger does**: it hands the sinks what its view says is due, reports what they and its
formatting throw, and shows the next view; or it is cut at a sink, and only a dump has changed the view then. -/
def Stepped (o : Logger.Op) (l : Logger) (v : View) (r : Outcome) : Prop :=
  (r.2 = (v.formatCatch o).2 ∧ r.1.sinks = l.sinks.map (·.given (v.calls o)) ∧
    r.1.errors = l.errors ++ (reports l.sinks (v.calls o) ++ (v.formatCatch o).1) ∧ r.1.Shows (v.step o)) ∨
  (r.2 = some .unknown ∧ (∃ ds c, Cut (v.calls o) l.sinks r.1.sinks ds c) ∧
    ∃ j, (o = .dumpBacktrace ∨ j = 0) ∧ r.1.Shows (v.shed j))

theorem Served.stepped {o : Logger.Op} {r : Outcome} (h : Served (v.calls o) v (v.step o) l r)
    (ho : v.formatCatch o = ([], none)) : Stepped o l v r := by
  obtain ⟨he, hk, hes, hv⟩ | ⟨he, hcut, hv⟩ := h
  · refine .inl ⟨by rw [ho]; exact he, hk, ?_, hv⟩
    rw [ho, List.append_nil]
    exact hes
  · exact .inr ⟨he, hcut, 0, .inr rfl, hv⟩

/-- A call that has to do with no sink. -/
theorem quiet_stepped {o : Logger.Op} (hc : v.calls o = []) (ho : v.formatCatch o = ([], none)) {l' : Logger}
    (hk : l'.sinks = l.sinks) (he : l'.errors = l.errors) (hv : l'.Shows (v.step o)) : Stepped o l v (l', none) := by
  refine .inl ⟨by rw [ho], ?_, ?_, hv⟩
  · rw [hc, map_given_nil]
    exact hk
  · rw [hc, ho, List.append_nil]
    exact he.trans (List.append_nil _).symm

theorem dumpBacktrace_stepped (h : l.Shows v) : Stepped .dumpBacktrace l v l.dumpBacktrace := by
  by_cases hdump : v.enabled = true ∧ v.recent.items ≠ []
  · have hcalls : v.calls .dumpBacktrace = (dumped v.name v.recent.items).flatMap (deliver v.flushLevel) := if_pos hdump
    obtain ⟨hon, hne⟩ := hdump
    obtain ⟨i, q, hd, hq, hs⟩ := dumpBacktrace_delivered h.backtrace (h.enabled.trans hon) hne
    have hf := hs.frame
    have hshows : ∀ j, q.Refines (v.recent.dropFirst j) → l.dumpBacktrace.1.Shows (v.shed j) := fun j hj =>
      ⟨hf.name.trans h.name, hf.level.trans h.level, hf.flushLevel.trans h.flushLevel,
        by rw [hf.tracer]; exact hon.symm, by rw [hf.tracer]; exact hj⟩
    rw [h.name, h.flushLevel, ← hcalls] at hs
    obtain ⟨hk, he⟩ | ⟨he, hcut⟩ := hs.handed
    · refine .inl ⟨he, hk, ?_, ?_⟩
      · rw [hs.reports he]
        exact congrArg (l.errors ++ ·) (List.append_nil _).symm
      · have hall : v.recent.items.length ≤ i - 1 := by
          obtain ⟨-, rfl, -⟩ | ⟨h', -⟩ := hd
          · simp only [dumped, List.length_append, List.length_singleton]
            omega
          · rw [he] at h'
            cases h'
        show l.dumpBacktrace.1.Shows (if v.enabled then v.shed v.recent.items.length else v)
        rw [if_pos hon]
        apply hshows
        rw [v.recent.dropFirst_all (Nat.le_refl _), ← v.recent.dropFirst_all hall]
        exact hq
    · exact .inr ⟨he, hcut, i - 1, .inl rfl, hshows _ hq⟩
  · have hoff : l.dumpBacktrace = (l, none) :=
      dumpBacktrace_off (by rw [h.enabled, h.backtrace.items]; exact hdump)
    have hcalls : v.calls .dumpBacktrace = [] := if_neg hdump
    rw [hoff]
    refine quiet_stepped hcalls rfl rfl rfl ?_
    show l.Shows (if v.enabled then v.shed v.recent.items.length else v)
    split
    · rename_i hon
      have hnil : v.recent.items = [] := by
        by_contra hne
        exact hdump ⟨hon, hne⟩
      rw [hnil]
      exact h
    · exact h

theorem step_stepped (h : l.Shows v) (o : Logger.Op) : Stepped o l v (l.step o) := by
  cases o with
  | format loc lvl text => cases text with
    | ok text => exact Served.stepped (o := .format loc lvl (.ok text)) (log_served h loc lvl text).2 rfl
    | error e =>
      show Stepped _ l v (l.log_ loc lvl (.error e))
      rw [log_error h]
      exact .inl ⟨rfl, (map_given_nil l.sinks).symm, rfl, h.name, h.level, h.flushLevel, h.enabled, h.backtrace⟩
  | log loc lvl msg => exact Served.stepped (o := .log loc lvl msg) (log_served h loc lvl msg).1 rfl
  | flush => exact Served.stepped (o := .flush) ((flush_sunk l).served h) rfl
  | dumpBacktrace => exact dumpBacktrace_stepped h
  | setLevel lvl => exact quiet_stepped rfl rfl rfl rfl ⟨h.name, rfl, h.flushLevel, h.enabled, h.backtrace⟩
  | flushOn lvl => exact quiet_stepped rfl rfl rfl rfl ⟨h.name, h.level, rfl, h.enabled, h.backtrace⟩
  | enableBacktrace n =>
    have hq : (CircularQ.ofMaxItems n : CircularQ LogMsg).Refines (Recent.empty : Recent LogMsg ((n + 1).toNat - 1)) :=
      ⟨rfl, CircularQ.items_ofMaxItems n, fun _ => rfl⟩
    exact quiet_stepped rfl rfl rfl rfl ⟨h.name, h.level, h.flushLevel, rfl, hq⟩
  | disableBacktrace => exact quiet_stepped rfl rfl rfl rfl ⟨h.name, h.level, h.flushLevel, rfl, h.backtrace⟩

end

/-- The view of a logger. -/
def Logger.view (l : Logger) : View where
  name := l.name
  level := l.level
  flushLevel := l.flushLevel
  enabled := l.tracer.enabled
  capacity := l.tracer.messages.maxItems - 1
  recent := ⟨l.tracer.messages.items, l.tracer.messages.overrunCounter.toNat,
    l.tracer.messages.length_items ▸ l.tracer.messages.size_le⟩

theorem shows_view (l : Logger) : l.Shows l.view := ⟨rfl, rfl, rfl, rfl, rfl, rfl, fun _ => by simp [Logger.view]⟩

/-- **A call of the logger**, whatever its sinks throw. -/
theorem step_handed (l : Logger) (o : Logger.Op) : Stepped o l l.view (l.step o) := step_stepped (shows_view l) o

/-! ## A dump that is cut -/

/-- The messages that a dump hands on. -/
def Logger.due (l : Logger) : List LogMsg :=
  if l.tracer.enabled = true ∧ l.tracer.messages.items ≠ [] then dumped l.name l.tracer.messages.items else []

/-- **A dump loses no message**: it hands on its messages one after another, the first line, those of the backtrace and
the last line, up to the `i`-th; and the messages of the backtrace that have not reached every sink stay in it. -/
theorem dumpBacktrace_keeps (l : Logger) : ∃ i,
    Delivered l.flushLevel l.due l.sinks l.dumpBacktrace.1.sinks l.dumpBacktrace.2 i ∧
    l.dumpBacktrace.1.tracer.messages.items = l.tracer.messages.items.drop (i - 1) := by
  unfold Logger.due
  split
  · rename_i hdue
    obtain ⟨i, q, hd, hq, hs⟩ := dumpBacktrace_delivered (shows_view l).backtrace hdue.1 hdue.2
    refine ⟨i, hd, ?_⟩
    rw [hs.frame.tracer]
    exact hq.items
  · rename_i hdue
    rw [dumpBacktrace_off hdue]
    exact ⟨0, .inl ⟨rfl, rfl, (map_given_nil l.sinks).symm⟩, rfl⟩

/-! ## Runs -/

/-- The sink throws nothing but `std::exception`s. -/
def Sink.Calm (k : Sink) : Prop := ∀ cs, k.throws cs ≠ some .unknown

/-- The sinks throw nothing else while these calls are handed to them. -/
def CalmFor (ks : List Sink) (cs : List SinkCall) : Prop :=
  ∀ k ∈ ks, ∀ ds, ds <+: cs → k.throws (k.given ds).calls ≠ some .unknown

section
variable {ks : List Sink} {cs : List SinkCall}

theorem calmFor (h : ∀ k ∈ ks, k.Calm) (cs : List SinkCall) : CalmFor ks cs := fun k hk _ _ => h k hk _

theorem Cut.not_calm {ks' : List Sink} {ds : List SinkCall} {c : SinkCall} (h : Cut cs ks ks' ds c) :
    ¬CalmFor ks cs := by
  obtain ⟨pre, k, post, rfl, -, hk, -⟩ := h.sinks
  intro hcalm
  exact hcalm k (List.mem_append_right _ List.mem_cons_self) _ h.calls hk

theorem CalmFor.left {bs : List SinkCall} (h : CalmFor ks (cs ++ bs)) : CalmFor ks cs :=
  fun k hk ds hds => h k hk ds (hds.trans (List.prefix_append cs bs))

theorem CalmFor.right {bs : List SinkCall} (h : CalmFor ks (cs ++ bs)) : CalmFor (ks.map (·.given cs)) bs := by
  intro k' hk' ds hds
  obtain ⟨k, hk, rfl⟩ := List.mem_map.1 hk'
  rw [Sink.given_append]
  exact h k hk (cs ++ ds) ((List.prefix_append_right_inj cs).2 hds)

theorem calm_given (h : ∀ k ∈ ks, k.Calm) (cs : List SinkCall) : ∀ k ∈ ks.map (·.given cs), k.Calm := by
  intro k hk
  obtain ⟨k₀, hk₀, rfl⟩ := List.mem_map.1 hk
  exact h k₀ hk₀

end

/-- The view after the calls of the logger, and the calls due to its sinks. -/
def View.run (v : View) : List Logger.Op → View × List SinkCall
  | [] => (v, [])
  | o :: os =>
    let r := (v.step o).run os
    (r.1, v.calls o ++ r.2)

/-- What is reported during the calls of the logger. -/
def View.reports (v : View) (ks : List Sink) : List Logger.Op → List CString
  | [] => []
  | o :: os =>
    Spdlog.reports ks (v.calls o) ++ (v.formatCatch o).1 ++ (v.step o).reports (ks.map (·.given (v.calls o))) os

section
variable {l : Logger} {v : View}

theorem step_calm (h : l.Shows v) {o : Logger.Op} (hcalm : CalmFor l.sinks (v.calls o)) :
    (l.step o).2 = (v.formatCatch o).2 ∧ (l.step o).1.sinks = l.sinks.map (·.given (v.calls o)) ∧
      (l.step o).1.errors = l.errors ++ (reports l.sinks (v.calls o) ++ (v.formatCatch o).1) ∧
      (l.step o).1.Shows (v.step o) := by
  obtain hs | ⟨-, ⟨ds, c, hcut⟩, -⟩ := step_stepped h o
  · exact hs
  · exact absurd hcalm hcut.not_calm

theorem run_calm (ops : List Logger.Op) : ∀ {l : Logger} {v : View}, l.Shows v → CalmFor l.sinks (v.run ops).2 →
    (l.run ops).sinks = l.sinks.map (·.given (v.run ops).2) ∧ (l.run ops).Shows (v.run ops).1 ∧
      (l.run ops).errors = l.errors ++ v.reports l.sinks ops := by
  induction ops with
  | nil =>
    intro l v h _
    exact ⟨(map_given_nil l.sinks).symm, h, (List.append_nil l.errors).symm⟩
  | cons o ops ih =>
    intro l v h hcalm
    obtain ⟨-, hk, he, hv⟩ := step_calm h hcalm.left
    obtain ⟨hks, hvs, hes⟩ := ih hv (by rw [hk]; exact hcalm.right)
    refine ⟨?_, hvs, ?_⟩
    · rw [Logger.run, List.foldl_cons, ← Logger.run, hks, hk, map_given_append]
      rfl
    · rw [Logger.run, List.foldl_cons, ← Logger.run, hes, hk, he, View.reports, List.append_assoc]

end

/-- **A sink gets in a run what its level lets through of what is due**, and nothing else, whatever the other sinks are
and throw; and a call throws nothing but what its formatting does. -/
theorem run_delivers {l : Logger} (hcalm : ∀ k ∈ l.sinks, k.Calm) (ops : List Logger.Op) :
    (l.run ops).sinks = l.sinks.map (·.given (l.view.run ops).2) ∧ (l.run ops).Shows (l.view.run ops).1 ∧
    ∀ o, ((l.run ops).step o).2 = ((l.view.run ops).1.formatCatch o).2 := by
  obtain ⟨hk, hv, -⟩ := run_calm ops (shows_view l) (calmFor hcalm _)
  refine ⟨hk, hv, fun o => ?_⟩
  exact (step_calm hv (by rw [hk]; exact calmFor (calm_given hcalm _) _)).1

/-- A logger whose first sink throws at every call. -/
def oneBroken : Logger :=
  .ofSinks ['c'] [⟨.trace, [], fun _ => some (.std "no disk".toList)⟩, ⟨.warn, [], fun _ => none⟩]

theorem calm_oneBroken : ∀ k ∈ oneBroken.sinks, k.Calm := by
  intro k hk cs
  simp only [oneBroken, Logger.ofSinks, List.mem_cons, List.not_mem_nil, or_false] at hk
  obtain rfl | rfl := hk <;> simp

theorem run_delivers_oneBroken : (oneBroken.run [.log {} .info ['a'], .log {} .err ['b']]).sinks.map (·.calls) =
    [[.log ⟨['c'], .info, {}, ['a']⟩, .log ⟨['c'], .err, {}, ['b']⟩], [.log ⟨['c'], .err, {}, ['b']⟩]] := by
  rw [(run_delivers calm_oneBroken _).1]
  rfl

/-- **Every exception of a run is reported once**, those of the sinks in the order of the calls and of the sinks, and
those of the formatting, each with the place of its call. -/
theorem run_reports {l : Logger} (hcalm : ∀ k ∈ l.sinks, k.Calm) (ops : List Logger.Op) :
    (l.run ops).errors = l.errors ++ l.view.reports l.sinks ops := (run_calm ops (shows_view l) (calmFor hcalm _)).2.2

theorem run_reports_oneBroken : (oneBroken.run [.log ⟨some ['f'], 7⟩ .info ['a'], .flush]).errors =
    ["no disk [f(7)]".toList, "no disk".toList] := by
  rw [run_reports calm_oneBroken]
  rfl

end Spdlog
end LogMaker
