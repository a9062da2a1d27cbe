import LogMaker.Order
import LogMaker.Spdlog.View
/-!
# Records — what the sinks get of the messages that are logged

A run that only logs: between `enable_backtrace` and a dump, where the dump then brings the last messages
(`dumpBacktrace_last`), and the dialog's, each call of `toSpdLog` one of the logger (`toSpdLog_sinks`).  The lines that
have entered a sink in a run of the dialog are, thread by thread, those the logger hands it (`reached_handed`).

`toSpdLog` passes every line through `CT2CA` to the code page of the system, which may lack some of its characters:
`ct2ca` is what that makes of a line.
-/
namespace LogMaker
namespace Spdlog

open Logger (Op)
open Lts (entriesOf)

variable {l : Logger} {v : View}

/-- The message that a call logs. -/
def Logger.Op.message (name : CString) : Op → Option LogMsg
  | .format loc lvl (.ok text) => some ⟨name, lvl, loc, text⟩
  | .log loc lvl msg => some ⟨name, lvl, loc, msg⟩
  | _ => none

/-- The call leaves the backtrace on and does not dump it. -/
def Logger.Op.logs : Op → Bool
  | .enableBacktrace _ | .disableBacktrace | .dumpBacktrace => false
  | _ => true

/-- With the backtrace on, what is logged is kept, whatever the level is set to. -/
theorem run_logs (ops : List Op) : ∀ v : View, v.enabled = true → (∀ o ∈ ops, o.logs = true) →
    ∃ lvl fl, (v.run ops).1 = { v with
      level := lvl
      flushLevel := fl
      recent := (ops.filterMap (Op.message v.name)).foldl Recent.push v.recent } := by
  induction ops with
  | nil => exact fun v _ _ => ⟨v.level, v.flushLevel, rfl⟩
  | cons o ops ih =>
    intro v hon hlogs
    obtain ⟨hlog, hlogs⟩ := List.forall_mem_cons.1 hlogs
    have hstep : ∃ lvl fl, v.step o = { v with
        level := lvl
        flushLevel := fl
        recent := (o.message v.name).toList.foldl Recent.push v.recent } := by
      cases o with
      | format loc lvl text => cases text with
        | ok text => exact ⟨_, _, if_pos hon⟩
        | error e => exact ⟨_, _, rfl⟩
      | log loc lvl msg => exact ⟨_, _, if_pos hon⟩
      | flush => exact ⟨_, _, rfl⟩
      | setLevel lvl => exact ⟨_, _, rfl⟩
      | flushOn lvl => exact ⟨_, _, rfl⟩
      | enableBacktrace n => cases hlog
      | disableBacktrace => cases hlog
      | dumpBacktrace => cases hlog
    obtain ⟨lvl, fl, hs⟩ := hstep
    obtain ⟨lvl', fl', hrun⟩ := ih (v.step o) (by rw [hs]; exact hon) hlogs
    refine ⟨lvl', fl', ?_⟩
    rw [View.run]
    dsimp only
    rw [hrun, hs, List.filterMap_cons]
    cases o.message v.name <;> rfl

/-- What a logger that has kept these messages dumps. -/
def dumpCalls (l : Logger) (kept : List LogMsg) : List SinkCall :=
  if kept = [] then [] else (dumped l.name kept).flatMap (deliver l.flushLevel)

theorem calls_dumpBacktrace (h : l.Shows v) (hon : v.enabled = true) :
    v.calls .dumpBacktrace = dumpCalls l v.recent.items := by
  unfold View.calls dumpCalls
  rw [h.name, h.flushLevel]
  by_cases hnil : v.recent.items = []
  · rw [if_pos hnil, if_neg (fun hd => hd.2 hnil)]
  · rw [if_neg hnil, if_pos ⟨hon, hnil⟩]

/-- **A dump brings the last messages**, at most as many as `enable_backtrace` was asked to keep, oldest first, those
included that were below the logger's level when they were logged; then none are left. -/
theorem dumpBacktrace_last (hcalm : ∀ k ∈ l.sinks, k.Calm) (n : BitVec 64) {ops : List Op}
    (hlogs : ∀ o ∈ ops, o.logs = true) :
    let m := ((l.step (.enableBacktrace n)).1.run ops)
    let kept := (ops.filterMap (Op.message l.name)).rtake (if n = BitVec.allOnes 64 then 0 else n.toNat)
    m.dumpBacktrace.1.sinks = m.sinks.map (·.given (dumpCalls m kept)) ∧ m.dumpBacktrace.2 = none ∧
    m.dumpBacktrace.1.tracer.messages.items = [] := by
  intro m kept
  obtain ⟨hk, hm, -⟩ := run_calm ops (step_calm (shows_view l) (o := .enableBacktrace n) (calmFor hcalm _)).2.2.2
    (calmFor hcalm _)
  obtain ⟨lvl, fl, hrun⟩ := run_logs ops (l.view.step (.enableBacktrace n)) rfl hlogs
  rw [hrun] at hm
  have hitems : ((ops.filterMap (Op.message l.name)).foldl Recent.push
      (Recent.empty : Recent LogMsg ((n + 1).toNat - 1))).items = kept := by
    rw [Recent.items_pushes, CircularQ.toNat_succ_sub_one]
    rfl
  obtain ⟨he, hks, -, hv⟩ := step_calm hm (o := .dumpBacktrace) (by rw [hk]; exact calmFor (calm_given hcalm _) _)
  refine ⟨?_, he, ?_⟩
  · rw [calls_dumpBacktrace hm rfl] at hks
    rw [← hitems]
    exact hks
  · exact hv.backtrace.items.trans (List.drop_length ..)

theorem dumpBacktrace_last_one :
    let m := (oneBroken.step (.enableBacktrace 1)).1.run
      [.setLevel .off, .log {} .info ['a'], .flush, .log {} .debug ['b']]
    m.dumpBacktrace.1.sinks =
      m.sinks.map (·.given ((dumped m.name [⟨m.name, .debug, {}, ['b']⟩]).flatMap (deliver m.flushLevel))) :=
  (dumpBacktrace_last calm_oneBroken 1 (by decide)).1

/-! ## The dialog's messages -/

section
variable (ct2ca : CString → CString)

/-- The call of the logger behind `CleLogger`'s, and the message it makes. -/
def opOf (r : Record) : Op := .format {} r.level (.ok (ct2ca r.line))

def msgOf (name : CString) (r : Record) : LogMsg := ⟨name, r.level, {}, ct2ca r.line⟩

/-- The sink after these messages, whatever its level. -/
def Sink.logged (k : Sink) (msgs : List LogMsg) : Sink := { k with calls := k.calls ++ msgs.map .log }

/-- The records that pass the logger's level and the sink's. -/
def pass (logger sink : Level) (rs : List Record) : List Record :=
  rs.filter (fun r => sink.value ≤ r.level.value && logger.value ≤ r.level.value)

theorem deliver_off (msg : LogMsg) : deliver .off msg = [.log msg] := by
  obtain ⟨name, lvl, loc, text⟩ := msg
  cases lvl <;> rfl

theorem run_records (rs : List Record) : ∀ v : View, v.flushLevel = .off → (v.run (rs.map (opOf ct2ca))).2 =
    (rs.filter (fun r => v.logs r.level)).map (fun r => .log (msgOf ct2ca v.name r)) := by
  induction rs with
  | nil => exact fun _ _ => rfl
  | cons r rs ih =>
    intro v hfl
    obtain ⟨recent, hstep⟩ : ∃ recent, v.step (opOf ct2ca r) = { v with recent := recent } := by
      show ∃ recent, v.keep (msgOf ct2ca v.name r) = _
      unfold View.keep
      split
      · exact ⟨_, rfl⟩
      · exact ⟨v.recent, rfl⟩
    have hrest : ((v.step (opOf ct2ca r)).run (rs.map (opOf ct2ca))).2 =
        (rs.filter (fun r => v.logs r.level)).map (fun r => .log (msgOf ct2ca v.name r)) := by
      rw [hstep]
      exact ih _ hfl
    have hcalls : v.calls (opOf ct2ca r) = if v.logs r.level then [.log (msgOf ct2ca v.name r)] else [] := by
      show (if v.logs r.level then deliver v.flushLevel (msgOf ct2ca v.name r) else []) = _
      rw [hfl, deliver_off]
    rw [List.map_cons, View.run, hrest, hcalls, List.filter_cons]
    split <;> rfl

/-- The calls due, as a sink of this level gets them. -/
theorem wanted_records (v : View) (lvl : Level) (hfl : v.flushLevel = .off) (rs : List Record) :
    (v.run (rs.map (opOf ct2ca))).2.filter (SinkCall.wanted lvl) =
      ((pass v.level lvl rs).map (msgOf ct2ca v.name)).map .log := by
  rw [run_records ct2ca rs v hfl]
  unfold pass
  rw [List.filter_map, List.filter_filter, List.map_map]
  rfl

theorem sinks_records (hfl : l.flushLevel = .off) (rs : List Record)
    (hcalm : CalmFor l.sinks (l.view.run (rs.map (opOf ct2ca))).2) :
    (l.run (rs.map (opOf ct2ca))).sinks =
      l.sinks.map (fun k => k.logged ((pass l.level k.level rs).map (msgOf ct2ca l.name))) := by
  rw [(run_calm _ (shows_view l) hcalm).1]
  refine List.map_congr_left (fun k _ => ?_)
  unfold Sink.given Sink.logged
  rw [wanted_records ct2ca l.view k.level hfl rs]
  rfl

end

theorem pass_trace (rs : List Record) : pass .trace .trace rs = rs :=
  List.filter_eq_self.2 (fun r _ => by simp [Level.value])

/-- **What the sinks get of the dialog's messages**: of any sequence of `toSpdLog` calls each sink is handed once and in
order the messages whose severity passes the logger's level and its own, each with what `CT2CA` makes of its line; at
`trace` all of them, as `initSpdLog` sets the levels, and at `off` none. -/
theorem toSpdLog_sinks (hcalm : ∀ k ∈ l.sinks, k.Calm) (hfl : l.flushLevel = .off) (ct2ca : CString → CString)
    (xs : List (CString × CString)) :
    let rs := xs.map (fun x => toSpdLog x.1 x.2)
    (l.run (rs.map (opOf ct2ca))).sinks =
      l.sinks.map (fun k => k.logged ((pass l.level k.level rs).map (msgOf ct2ca l.name))) ∧
    pass .trace .trace rs = rs ∧ ∀ lvl, pass lvl .off rs = [] := by
  intro rs
  refine ⟨sinks_records ct2ca hfl rs (calmFor hcalm _), pass_trace rs, fun lvl =>
    List.filter_eq_nil_iff.2 (fun r hr => ?_)⟩
  have hlt : r.level.value < Level.off.value := by
    obtain ⟨x, -, rfl⟩ := List.mem_map.1 hr
    dsimp only [toSpdLog]
    split_ifs <;> simp [Level.value]
  rw [Bool.and_eq_true, decide_eq_true_iff]
  omega

/-- A code page of ASCII, with `?` for every other character. -/
def asciiPage (line : CString) : CString := line.map (fun c => if c.toNat < 128 then c else '?')

theorem toSpdLog_sinks_two :
    (oneBroken.run ([toSpdLog "Info".toList ['갭'], toSpdLog "Warning".toList ['b']].map (opOf asciiPage))).sinks.map
        (·.calls) =
      [[.log ⟨['c'], .info, {}, ['?']⟩, .log ⟨['c'], .warn, {}, ['b']⟩], [.log ⟨['c'], .warn, {}, ['b']⟩]] := by
  rw [show [toSpdLog "Info".toList ['갭'], toSpdLog "Warning".toList ['b']] =
    [("Info".toList, ['갭']), ("Warning".toList, ['b'])].map (fun x => toSpdLog x.1 x.2) from rfl,
    (toSpdLog_sinks calm_oneBroken rfl asciiPage _).1]
  rfl

/-! ## A run of the dialog -/

/-- **The dialog's sinks get what the logger hands them**: of the lines a thread has made, handed to a logger whose
levels are at `trace`, each sink gets the lines of that thread that have entered it in the run, in order, and then the
line that the thread has still to bring there. -/
theorem reached_handed {E : Env} {m : Members} {b : Boxes} {Q : State × Passed → Act → Prop} {p : State × Passed}
    (h : ReachedWith E Passed.see .none Q m b p) (hnd : E.sinks.Nodup) (t : Sender) {k : LogMaker.Sink}
    (hk : k ∈ E.sinks) (hcalm : ∀ s ∈ l.sinks, s.Calm) (hfl : l.flushLevel = .off) (hlevel : l.level = .trace)
    (hsinks : ∀ s ∈ l.sinks, s.level = .trace) (ct2ca : CString → CString) :
    let records := fun ls : List Line => ls.map (fun x => toSpdLog x.1 x.2)
    (l.run ((records (entriesOf t p.2.made)).map (opOf ct2ca))).sinks = l.sinks.map (fun s =>
      s.logged ((records (entriesOf t (p.2.passed (.enter k)) ++ ahead (.enter k) (pos p.1 t))).map
        (msgOf ct2ca l.name))) := by
  intro records
  rw [entered_append_ahead h hnd t hk, sinks_records ct2ca hfl _ (calmFor hcalm _)]
  apply List.map_congr_left
  intro s hs
  rw [hlevel, hsinks s hs, pass_trace]

/-- A logger at `trace` with one sink. -/
def traced : Logger := { Logger.ofSinks ['c'] [⟨.trace, [], fun _ => none⟩] with level := .trace }

/-- `sendThread` in the console, with its first line. -/
theorem reached_handed_console : ∃ p : State × Passed,
    ReachedWith spdEnv Passed.see .none Lts.anyStep (initMsgs 41) (initMsgs 41).shown p ∧
    (p.2.passed (.enter .console)).length = 1 ∧
    (traced.run (((entriesOf (.worker .sendThread) p.2.made).map (fun x => toSpdLog x.1 x.2)).map
        (opOf asciiPage))).sinks =
      traced.sinks.map (fun s => s.logged (((entriesOf (.worker .sendThread) (p.2.passed (.enter .console)) ++
        ahead (.enter .console) (pos p.1 (.worker .sendThread))).map (fun x => toSpdLog x.1 x.2)).map
          (msgOf asciiPage traced.name))) := by
  obtain ⟨p, hp, hlen⟩ := exists_reachedWith Passed.see .none (fun p => (p.2.passed (.enter .console)).length = 1)
    (checkClick ++ toRead .sendThread ++ List.replicate 6 (.work .sendThread)) (by decide +kernel)
  have hall : ∀ s ∈ traced.sinks, s = ⟨.trace, [], fun _ => none⟩ := fun s hs => List.mem_singleton.1 hs
  exact ⟨p, hp, hlen, reached_handed hp (by decide) _ (by decide) (fun s hs cs => by rw [hall s hs]; simp) rfl rfl
    (fun s hs => by rw [hall s hs]) asciiPage⟩

end Spdlog
end LogMaker
