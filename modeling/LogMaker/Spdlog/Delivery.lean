import LogMaker.Spdlog.Logger
/-!
# Delivery — what a logger's sinks are called with

A list of calls is due to all sinks, and each gets those its own level lets through (`Sink.given`).  The loop over the
sinks, a message and a dump hand the sinks what is due, and report each `std::exception` on the way; or a sink throws
something else, and they are cut there (`Cut`): this sink and those before it have got the calls up to that one, those
behind it the calls before it.  A dump hands its messages on one after another (`dumpBacktrace_delivered`), and those
that have not reached every sink stay in the backtrace.
-/
namespace LogMaker
namespace Spdlog

/-- Whether a sink of this level gets the call. -/
def SinkCall.wanted (lvl : Level) : SinkCall → Bool
  | .log msg => lvl.value ≤ msg.level.value
  | .flush => true

/-- The sink after the calls. -/
def Sink.given (k : Sink) (cs : List SinkCall) : Sink :=
  { k with calls := k.calls ++ cs.filter (SinkCall.wanted k.level) }

/-- Where an exception of the call is reported from. -/
def SinkCall.location : SinkCall → SourceLoc
  | .log msg => msg.source
  | .flush => {}

theorem Sink.given_nil (k : Sink) : k.given [] = k := by
  unfold given
  rw [List.filter_nil, List.append_nil]

theorem Sink.given_append (k : Sink) (as bs : List SinkCall) : (k.given as).given bs = k.given (as ++ bs) := by
  unfold given
  simp only [List.filter_append, List.append_assoc]

theorem map_given_nil (ks : List Sink) : ks.map (·.given []) = ks := by
  simp only [Sink.given_nil, List.map_id']

theorem map_given_append (ks : List Sink) (as bs : List SinkCall) :
    (ks.map (·.given as)).map (·.given bs) = ks.map (·.given (as ++ bs)) := by
  simp only [List.map_map, Function.comp_def, Sink.given_append]

/-- The calls due are cut at `c`, after `ds`: the sink that threw there and those before it have got it. -/
structure Cut (cs : List SinkCall) (ks ks' : List Sink) (ds : List SinkCall) (c : SinkCall) : Prop where
  calls : ds ++ [c] <+: cs
  sinks : ∃ pre k post, ks = pre ++ k :: post ∧ c.wanted k.level = true ∧
    k.throws (k.given (ds ++ [c])).calls = some .unknown ∧
    ks' = pre.map (·.given (ds ++ [c])) ++ k.given (ds ++ [c]) :: post.map (·.given ds)

/-- The sinks have been handed what is due, or were cut. -/
def Handed (cs : List SinkCall) (ks ks' : List Sink) (e : Option Thrown) : Prop :=
  (ks' = ks.map (·.given cs) ∧ e = none) ∨ (e = some .unknown ∧ ∃ ds c, Cut cs ks ks' ds c)

theorem Cut.extend {cs : List SinkCall} {ks ks' : List Sink} {ds : List SinkCall} {c : SinkCall}
    (h : Cut cs ks ks' ds c) (es : List SinkCall) : Cut (cs ++ es) ks ks' ds c :=
  ⟨h.calls.trans (List.prefix_append cs es), h.sinks⟩

/-- A cut after the calls of `as`. -/
theorem Cut.after {cs : List SinkCall} {ks ks' : List Sink} {ds : List SinkCall} {c : SinkCall} {as : List SinkCall}
    (h : Cut cs (ks.map (·.given as)) ks' ds c) : Cut (as ++ cs) ks ks' (as ++ ds) c := by
  obtain ⟨pre', k', post', hks, hw, hk, hks'⟩ := h.sinks
  obtain ⟨pre, post₁, rfl, rfl, hpost⟩ := List.map_eq_append_iff.1 hks
  obtain ⟨k, post, rfl, rfl, rfl⟩ := List.map_eq_cons_iff.1 hpost
  rw [Sink.given_append, ← List.append_assoc] at hk
  refine ⟨?_, pre, k, post, rfl, hw, hk, ?_⟩
  · rw [List.append_assoc]
    exact (List.prefix_append_right_inj as).2 h.calls
  · rw [hks', map_given_append, map_given_append, Sink.given_append, ← List.append_assoc]

theorem Handed.append {as bs : List SinkCall} {ks ks₁ ks₂ : List Sink} {e : Option Thrown} (h₁ : Handed as ks ks₁ none)
    (h₂ : Handed bs ks₁ ks₂ e) : Handed (as ++ bs) ks ks₂ e := by
  obtain ⟨rfl, -⟩ | ⟨he, -⟩ := h₁
  · obtain ⟨rfl, rfl⟩ | ⟨rfl, ds, c, hcut⟩ := h₂
    · exact .inl ⟨map_given_append ks as bs, rfl⟩
    · exact .inr ⟨rfl, as ++ ds, c, hcut.after⟩
  · cases he

theorem Handed.none_iff {cs : List SinkCall} {ks ks' : List Sink} (h : Handed cs ks ks' none) :
    ks' = ks.map (·.given cs) := by
  obtain ⟨h, -⟩ | ⟨h, -⟩ := h
  · exact h
  · cases h

/-- What is reported while the sinks get the calls: every `std::exception` once, in order. -/
def reports (ks : List Sink) : List SinkCall → List CString
  | [] => []
  | c :: cs =>
    ks.flatMap (fun k =>
      if c.wanted k.level then (loggerCatch c.location (k.throws (k.calls ++ [c]))).1 else []) ++
    reports (ks.map (·.given [c])) cs

theorem reports_append (as bs : List SinkCall) : ∀ ks : List Sink,
    reports ks (as ++ bs) = reports ks as ++ reports (ks.map (·.given as)) bs := by
  induction as with
  | nil =>
    intro ks
    rw [map_given_nil]
    rfl
  | cons c as ih =>
    intro ks
    rw [List.cons_append, reports, reports, ih, map_given_append, List.append_assoc, List.singleton_append]

/-! ## The loop over the sinks -/

theorem loggerCatch_some {location : SourceLoc} {t : Option Thrown} {e : Thrown}
    (h : (loggerCatch location t).2 = some e) : t = some .unknown ∧ e = .unknown := by
  match t with
  | none => cases h
  | some (.std what) => cases h
  | some .unknown => exact ⟨rfl, (Option.some.inj h).symm⟩

/-- **One call handed to the sinks one after another.** -/
theorem eachSink_handed (location : SourceLoc) (c : SinkCall) : ∀ ks : List Sink,
    Handed [c] ks (eachSink location (fun k => c.wanted k.level) c ks).1
      (eachSink location (fun k => c.wanted k.level) c ks).2.2
  | [] => .inl ⟨rfl, rfl⟩
  | k :: ks => by
    have ih := eachSink_handed location c ks
    have hcons : ∀ {ks' e}, Handed [c] ks ks' e → Handed [c] (k :: ks) (k.given [c] :: ks') e := by
      rintro ks' e (⟨rfl, rfl⟩ | ⟨rfl, ds, c', hcut⟩)
      · exact .inl ⟨rfl, rfl⟩
      · obtain ⟨pre, k₁, post, rfl, hw, hk, rfl⟩ := hcut.sinks
        obtain ⟨rfl, rfl⟩ : ds = [] ∧ c' = c := by
          have hc := hcut.calls
          cases ds <;> simp_all [List.cons_prefix_cons]
        exact .inr ⟨rfl, [], c', hcut.calls, k :: pre, k₁, post, rfl, hw, hk, rfl⟩
    rw [eachSink]
    by_cases hw : c.wanted k.level = true
    · have hgiven : ({ k with calls := k.calls ++ [c] } : Sink) = k.given [c] := by simp [Sink.given, hw]
      rw [if_pos hw]
      dsimp only
      cases hc : loggerCatch location (k.throws (k.calls ++ [c])) with
      | mk es e => cases e with
        | none =>
          rw [hgiven]
          exact hcons ih
        | some e =>
          obtain ⟨ht, rfl⟩ := loggerCatch_some (congrArg Prod.snd hc)
          refine .inr ⟨rfl, [], c, List.prefix_refl _, [], k, ks, rfl, hw, ?_, ?_⟩
          · show k.throws (k.given [c]).calls = _
            rw [← hgiven]
            exact ht
          · rw [hgiven, map_given_nil]
            rfl
    · have hgiven : k.given [c] = k := by simp [Sink.given, hw]
      have hk := hcons ih
      rw [hgiven] at hk
      rw [if_neg hw]
      exact hk

theorem eachSink_reports (c : SinkCall) : ∀ ks : List Sink,
    (eachSink c.location (fun k => c.wanted k.level) c ks).2.2 = none →
    (eachSink c.location (fun k => c.wanted k.level) c ks).2.1 = reports ks [c]
  | [], _ => rfl
  | k :: ks, h => by
    have ih := eachSink_reports c ks
    rw [reports, reports, List.append_nil] at ih ⊢
    rw [eachSink] at h ⊢
    rw [List.flatMap_cons]
    by_cases hw : c.wanted k.level = true
    · rw [if_pos hw] at h ⊢
      rw [if_pos hw]
      dsimp only at h ⊢
      cases hc : loggerCatch c.location (k.throws (k.calls ++ [c])) with
      | mk es e => cases e with
        | none =>
          rw [hc] at h
          rw [ih h]
        | some e =>
          rw [hc] at h
          cases h
    · rw [if_neg hw] at h ⊢
      rw [if_neg hw, List.nil_append]
      exact ih h

/-! ## A message, and several -/

/-- The calls due to a message. -/
def deliver (flushLevel : Level) (msg : LogMsg) : List SinkCall :=
  .log msg :: if flushLevel.value ≤ msg.level.value && msg.level ≠ .off then [.flush] else []

/-- Nothing has changed but the sinks and the reports. -/
structure SinksOnly (l l' : Logger) : Prop where
  name : l'.name = l.name
  level : l'.level = l.level
  flushLevel : l'.flushLevel = l.flushLevel
  tracer : l'.tracer = l.tracer

theorem SinksOnly.rfl {l : Logger} : SinksOnly l l := ⟨.refl _, .refl _, .refl _, .refl _⟩

theorem SinksOnly.trans {l₁ l₂ l₃ : Logger} (h₁ : SinksOnly l₁ l₂) (h₂ : SinksOnly l₂ l₃) : SinksOnly l₁ l₃ :=
  ⟨h₂.name.trans h₁.name, h₂.level.trans h₁.level, h₂.flushLevel.trans h₁.flushLevel, h₂.tracer.trans h₁.tracer⟩

/-- A call that has handed the sinks what is due, and changed nothing else. -/
structure Sunk (c : List SinkCall) (l : Logger) (r : Outcome) : Prop where
  handed : Handed c l.sinks r.1.sinks r.2
  frame : SinksOnly l r.1
  reports : r.2 = none → r.1.errors = l.errors ++ reports l.sinks c

theorem Sunk.stop {a : List SinkCall} {l l' : Logger} {e : Thrown} (h : Sunk a l (l', some e)) (b : List SinkCall) :
    Sunk (a ++ b) l (l', some e) := by
  obtain ⟨-, he⟩ | ⟨he, ds, c, hcut⟩ := h.handed
  · cases he
  · exact ⟨.inr ⟨he, ds, c, hcut.extend b⟩, h.frame, fun hn => by cases hn⟩

theorem Sunk.then {a b : List SinkCall} {l l' : Logger} {r : Outcome} (h : Sunk a l (l', none)) (h' : Sunk b l' r) :
    Sunk (a ++ b) l r := by
  refine ⟨h.handed.append h'.handed, h.frame.trans h'.frame, fun hn => ?_⟩
  have hs : l'.sinks = l.sinks.map (·.given a) := h.handed.none_iff
  have hes : l'.errors = l.errors ++ Spdlog.reports l.sinks a := h.reports rfl
  rw [reports_append, ← List.append_assoc, ← hes, ← hs]
  exact h'.reports hn

theorem Sunk.next {a b : List SinkCall} {l : Logger} {r : Outcome} {f : Logger → Outcome} (h : Sunk a l r)
    (hf : ∀ l', SinksOnly l l' → Sunk b l' (f l')) : Sunk (a ++ b) l (r.next f) :=
  match r, h with
  | (l', none), h => h.then (hf l' h.frame)
  | (_, some _), h => h.stop b

/-- The sinks do not see the backtrace. -/
theorem Sunk.withTracer {a : List SinkCall} {l : Logger} {r : Outcome} (h : Sunk a l r) (t : Backtracer) :
    Sunk a { l with tracer := t } ({ r.1 with tracer := t }, r.2) :=
  ⟨h.handed, ⟨h.frame.name, h.frame.level, h.frame.flushLevel, rfl⟩, h.reports⟩

theorem sunk_nothing (l : Logger) : Sunk [] l (l, none) :=
  ⟨.inl ⟨(map_given_nil l.sinks).symm, rfl⟩, .rfl, fun _ => (List.append_nil l.errors).symm⟩

theorem callSinks_sunk (l : Logger) (c : SinkCall) :
    Sunk [c] l (l.callSinks c.location (fun k => c.wanted k.level) c) :=
  ⟨eachSink_handed c.location c l.sinks, ⟨rfl, rfl, rfl, rfl⟩,
    fun h => congrArg (l.errors ++ ·) (eachSink_reports c l.sinks h)⟩

theorem flush_sunk (l : Logger) : Sunk [.flush] l l.flush := callSinks_sunk l .flush

theorem sinkIt_sunk (l : Logger) (msg : LogMsg) : Sunk (deliver l.flushLevel msg) l (l.sinkIt msg) := by
  refine Sunk.next (b := if l.shouldFlush msg then [.flush] else []) (callSinks_sunk l (.log msg)) ?_
  intro l' hl
  unfold Logger.shouldFlush
  rw [hl.flushLevel]
  split
  · exact flush_sunk l'
  · exact sunk_nothing l'

theorem Sunk.sinkIt {a : List SinkCall} {l l' : Logger} {m m' : LogMsg} (h : Sunk a l (l', none)) (hm : m' = m) :
    Sunk (a ++ deliver l.flushLevel m) l (l'.sinkIt m') := by
  have h' := sinkIt_sunk l' m
  rw [show l'.flushLevel = l.flushLevel from h.frame.flushLevel] at h'
  rw [hm]
  exact h.then h'

/-- The messages have been handed to the sinks one after another, up to the `i`-th. -/
def Delivered (flushLevel : Level) (ms : List LogMsg) (ks ks' : List Sink) (e : Option Thrown) (i : Nat) : Prop :=
  (e = none ∧ i = ms.length ∧ ks' = ks.map (·.given (ms.flatMap (deliver flushLevel)))) ∨
  (e = some .unknown ∧ ∃ m ds c, ms[i]? = some m ∧
    Cut (deliver flushLevel m) (ks.map (·.given ((ms.take i).flatMap (deliver flushLevel)))) ks' ds c)

section
variable {fl : Level} {ms ms' : List LogMsg} {ks ks₁ ks₂ : List Sink} {e : Option Thrown} {i j : Nat}

theorem Handed.one {m : LogMsg} (h : Handed (deliver fl m) ks ks₁ e) :
    Delivered fl [m] ks ks₁ e (if e = none then 1 else 0) := by
  obtain ⟨hks, rfl⟩ | ⟨rfl, ds, c, hcut⟩ := h
  · refine .inl ⟨rfl, rfl, ?_⟩
    rw [hks, List.flatMap_singleton]
  · refine .inr ⟨rfl, m, ds, c, rfl, ?_⟩
    rw [if_neg (by simp), List.take_zero, List.flatMap_nil, map_given_nil]
    exact hcut

theorem Delivered.append (h₁ : Delivered fl ms ks ks₁ none i) (h₂ : Delivered fl ms' ks₁ ks₂ e j) :
    Delivered fl (ms ++ ms') ks ks₂ e (ms.length + j) := by
  obtain ⟨-, -, rfl⟩ | ⟨h, -⟩ := h₁
  · obtain ⟨rfl, rfl, rfl⟩ | ⟨rfl, m, ds, c, hm, hcut⟩ := h₂
    · refine .inl ⟨rfl, List.length_append.symm, ?_⟩
      rw [map_given_append, List.flatMap_append]
    · refine .inr ⟨rfl, m, ds, c, ?_, ?_⟩
      · rw [List.getElem?_append_right (Nat.le_add_right ..), Nat.add_sub_cancel_left]
        exact hm
      · rw [List.take_length_add_append, List.flatMap_append, ← map_given_append]
        exact hcut
  · cases h

/-- One more message. -/
theorem Delivered.sinkIt {l : Logger} {m m' : LogMsg} (h : Delivered fl ms ks l.sinks none i) (hfl : l.flushLevel = fl)
    (hm : m' = m) : ∃ k, Delivered fl (ms ++ [m]) ks (l.sinkIt m').1.sinks (l.sinkIt m').2 (ms.length + k) := by
  subst hfl hm
  exact ⟨_, h.append (sinkIt_sunk l m').handed.one⟩

theorem Delivered.stop {t : Thrown} (h : Delivered fl ms ks ks₁ (some t) i) (ms' : List LogMsg) :
    Delivered fl (ms ++ ms') ks ks₁ (some t) i := by
  obtain ⟨he, -⟩ | ⟨he, m, ds, c, hm, hcut⟩ := h
  · cases he
  · have hi : i < ms.length := (List.getElem?_eq_some_iff.1 hm).1
    refine .inr ⟨he, m, ds, c, ?_, ?_⟩
    · rw [List.getElem?_append_left hi]
      exact hm
    · rw [List.take_append_of_le_length hi.le]
      exact hcut

end

/-! ## The dump -/

/-- **The messages of the backtrace are handed on one after another**, and those from the one that throws on stay. -/
theorem foreachPop_delivered {n : Nat} (q : CircularQ LogMsg) (l : Logger) :
    ∀ b : Recent LogMsg n, q.Refines b → ∃ i,
      Delivered l.flushLevel b.items l.sinks (Backtracer.foreachPop Logger.sinkIt q l).2.1.sinks
        (Backtracer.foreachPop Logger.sinkIt q l).2.2 i ∧
      (Backtracer.foreachPop Logger.sinkIt q l).1.Refines (b.dropFirst i) ∧
      Sunk (b.items.flatMap (deliver l.flushLevel)) l (Backtracer.foreachPop Logger.sinkIt q l).2 := by
  fun_induction Backtracer.foreachPop Logger.sinkIt q l with
  | case1 q l hne l' e hs =>
    intro b hb
    have hsunk := sinkIt_sunk l (q.front hne)
    rw [hs] at hsunk
    have hitems : b.items = [q.front hne] ++ (q.popFront hne).items := by
      rw [← hb.items, q.popFront_holds hne, List.singleton_append]
    refine ⟨0, ?_, hb, ?_⟩
    · rw [hitems]
      exact (hsunk.handed.one).stop _
    · rw [hitems, List.flatMap_append, List.flatMap_singleton]
      exact hsunk.stop _
  | case2 q l hne l' hs ih =>
    intro b hb
    have hsunk := sinkIt_sunk l (q.front hne)
    rw [hs] at hsunk
    have hpop : (q.popFront hne).Refines b.pop := by
      have hstep := CircularQ.refines_step hb .pop
      rw [CircularQ.step, dif_pos hne] at hstep
      exact hstep
    have hitems : b.items = [q.front hne] ++ b.pop.items := by
      rw [← hpop.items, ← hb.items, q.popFront_holds hne, List.singleton_append]
    obtain ⟨i, hd, hr, hs'⟩ := ih b.pop hpop
    have hd : Delivered l'.flushLevel b.pop.items l'.sinks _ _ i := hd
    have hfl : l'.flushLevel = l.flushLevel := hsunk.frame.flushLevel
    rw [hfl] at hd hs'
    refine ⟨1 + i, ?_, ?_, ?_⟩
    · rw [hitems]
      exact (hsunk.handed.one).append hd
    · rw [Nat.add_comm, ← Recent.dropFirst_pop]
      exact hr
    · rw [hitems, List.flatMap_append, List.flatMap_singleton]
      exact hsunk.then hs'
  | case3 q l hne =>
    intro b hb
    have hnil : b.items = [] := by
      rw [← hb.items]
      exact q.isEmpty_iff.1 (by simpa using hne)
    refine ⟨0, ?_, hb, ?_⟩
    · rw [hnil]
      exact .inl ⟨rfl, rfl, (map_given_nil l.sinks).symm⟩
    · rw [hnil]
      exact sunk_nothing l

/-- What a dump hands the sinks. -/
def dumped (name : CString) (ms : List LogMsg) : List LogMsg :=
  [Logger.backtraceStart name] ++ ms ++ [Logger.backtraceEnd name]

theorem dumps_iff (l : Logger) : (l.tracer.enabled && !l.tracer.empty) = true ↔
    l.tracer.enabled = true ∧ l.tracer.messages.items ≠ [] := by
  rw [Bool.and_eq_true, Bool.not_eq_true', Backtracer.empty, Bool.eq_false_iff, ne_eq, CircularQ.isEmpty_iff]

theorem dumpBacktrace_off {l : Logger} (h : ¬ (l.tracer.enabled = true ∧ l.tracer.messages.items ≠ [])) :
    l.dumpBacktrace = (l, none) := if_neg (fun hd => h ((dumps_iff l).1 hd))

theorem popToSinks_delivered {n : Nat} {l : Logger} {b : Recent LogMsg n} (hb : l.tracer.messages.Refines b)
    (hon : l.tracer.enabled = true) : ∃ i q,
      Delivered l.flushLevel b.items l.sinks l.popToSinks.1.sinks l.popToSinks.2 i ∧ q.Refines (b.dropFirst i) ∧
      Sunk (b.items.flatMap (deliver l.flushLevel)) { l with tracer := ⟨true, q⟩ } l.popToSinks := by
  obtain ⟨i, hd, hq, hs⟩ := foreachPop_delivered l.tracer.messages l b hb
  refine ⟨i, _, hd, hq, ?_⟩
  simp only [Logger.popToSinks, hon]
  exact hs.withTracer _

theorem dumpBacktrace_delivered {n : Nat} {l : Logger} {b : Recent LogMsg n} (hb : l.tracer.messages.Refines b)
    (hon : l.tracer.enabled = true) (hne : b.items ≠ []) : ∃ i q,
      Delivered l.flushLevel (dumped l.name b.items) l.sinks l.dumpBacktrace.1.sinks l.dumpBacktrace.2 i ∧
      q.Refines (b.dropFirst (i - 1)) ∧
      Sunk ((dumped l.name b.items).flatMap (deliver l.flushLevel)) { l with tracer := ⟨true, q⟩ } l.dumpBacktrace := by
  have hstart := sinkIt_sunk l (Logger.backtraceStart l.name)
  unfold Logger.dumpBacktrace
  rw [if_pos ((dumps_iff l).2 ⟨hon, hb.items ▸ hne⟩), dumped, List.flatMap_append, List.flatMap_append,
    List.flatMap_singleton, List.flatMap_singleton]
  match l.sinkIt (Logger.backtraceStart l.name), hstart with
  | (l₁, some t), hstart =>
    have hl : { l with tracer := ⟨true, l.tracer.messages⟩ } = l := by rw [← hon]
    refine ⟨0, l.tracer.messages, ((hstart.handed.one).stop _).stop _, hb, ?_⟩
    rw [hl]
    exact (hstart.stop _).stop _
  | (l₁, none), hstart =>
    have htracer : l₁.tracer = l.tracer := hstart.frame.tracer
    have hfl : l₁.flushLevel = l.flushLevel := hstart.frame.flushLevel
    obtain ⟨i, q, hd, hq, hs⟩ := popToSinks_delivered (l := l₁) (b := b) (by rwa [htracer]) (by rwa [htracer])
    have hs : Sunk (b.items.flatMap (deliver l.flushLevel)) { l₁ with tracer := ⟨true, q⟩ } l₁.popToSinks := by
      rw [← hfl]
      exact hs
    have hmid := (hstart.withTracer ⟨true, q⟩).then hs
    rw [hfl] at hd
    dsimp only [Outcome.next]
    match l₁.popToSinks, hd, hmid with
    | (l₂, some t), hd, hmid =>
      exact ⟨1 + i, q, ((hstart.handed.one).append hd).stop _, (by rwa [Nat.add_sub_cancel_left]), hmid.stop _⟩
    | (l₂, none), hd, hmid =>
      have hend : Logger.backtraceEnd l₂.name = Logger.backtraceEnd l.name := congrArg _ hmid.frame.name
      obtain ⟨k, hall⟩ := ((hstart.handed.one).append hd).sinkIt hmid.frame.flushLevel hend
      refine ⟨_, q, hall, ?_, hmid.sinkIt hend⟩
      obtain ⟨-, rfl, -⟩ | ⟨h, -⟩ := hd
      · rw [List.length_append, List.length_singleton, Nat.add_assoc, Nat.add_sub_cancel_left,
          b.dropFirst_all (Nat.le_add_right ..), ← b.dropFirst_all (Nat.le_refl _)]
        exact hq
      · cases h

end Spdlog
end LogMaker
