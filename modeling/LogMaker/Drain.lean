import LogMaker.Locks
import LogMaker.Turns
/-!
# Drain — the workers finish their turns while the dialog pumps

A worker waits for a mutex, for the answer to a message, or for its own resumption.  While the GUI thread pumps and no
suspended worker holds a mutex, none of these waits is for ever: a mutex is held by a worker that is in a sink, and this
one goes on by itself or is answered.  So the workers that are not suspended can all be brought to the end of their
turns by their own steps and the dialog's answers, with no click (`reached_drains`).
-/
namespace LogMaker

variable {E : Env} {s s' : State} {a : Act} {w : Worker}

/-! ## The steps to the end of a turn -/

/-- Steps of a worker left in `sendLogMsg1`, and answers to it, at most. -/
def SendPc.stepsLeft (E : Env) : SendPc → Nat
  | .read _ _ => 7 * E.sinks.length + 5
  | .write _ _ _ => 7 * E.sinks.length + 4
  | .make _ _ _ => 7 * E.sinks.length + 3
  | .lock _ _ _ rest => 7 * rest.length + 9
  | .wait _ _ _ rest => 7 * rest.length + 8
  | .sink _ _ _ rest .enter => 7 * rest.length + 7
  | .sink _ _ _ rest .get => 7 * rest.length + 6
  | .sink _ _ _ rest (.got _) => 7 * rest.length + 5
  | .sink _ _ _ rest (.set _) => 7 * rest.length + 4
  | .sink _ _ _ rest .done => 7 * rest.length + 3
  | .ret _ _ => 2
  | .sleep => 1

/-- Steps left in the calls of these rows, and in showing the count. -/
def rowsLeft (E : Env) (rest : List Row) : Nat := rest.length * (7 * E.sinks.length + 8) + 3

def ThreadPc.stepsLeft (E : Env) : ThreadPc → Nat
  | .args _ rest lvl msg =>
    rowsLeft E rest + (7 * E.sinks.length + 5) + (if lvl.isSome then 0 else 1) + (if msg.isSome then 0 else 1) + 1
  | .send rest p => rowsLeft E rest + p.stepsLeft E
  | .format => 3
  | .setCnt _ => 2
  | .waitCnt _ => 1
  | .absent | .test | .ret | .ended => 0

theorem stepsLeft_nextSink (lvl line : CString) (ks : List Sink) :
    (nextSink lvl line ks).stepsLeft E = 7 * ks.length + 2 := by
  cases ks with
  | nil => rfl
  | cons k rest => simp only [nextSink, SendPc.stepsLeft, List.length_cons]; omega

theorem stepsLeft_nextRow (rest : List Row) : (nextRow rest).stepsLeft E = rowsLeft E rest := by
  cases rest with
  | nil => simp [nextRow, ThreadPc.stepsLeft, rowsLeft]
  | cons r rest =>
    simp only [nextRow, ThreadPc.stepsLeft, rowsLeft, List.length_cons, Nat.succ_mul]
    simp
    omega

theorem sendStep_lowers {t : Sender} {m m' : Mem} {p : SendPc} {q : Option SendPc}
    (h : sendStep E t m p = some (m', q)) : q.elim 0 (SendPc.stepsLeft E) < p.stepsLeft E := by
  cases sendStep_move h with
  | make | release => rw [Option.elim_some, stepsLeft_nextSink]; exact Nat.lt_succ_self _
  | _ => simp [SendPc.stepsLeft]

theorem answerStep_lowers {m m' : Mem} {p p' : SendPc} (h : answerStep m p = some (m', p')) :
    p'.stepsLeft E < p.stepsLeft E := by
  cases answerStep_move h <;> simp [SendPc.stepsLeft]

/-- A step of a worker within its turn brings the end of it nearer. -/
theorem work_lowers (hpc : (s.thread w).pc.left ≠ []) (h : WorkMove E s w a s') :
    (s'.thread w).pc.stepsLeft E < (s.thread w).pc.stepsLeft E := by
  have hset : ∀ (m : Mem) (pc : ThreadPc), (({ s with mem := m }.setPc w pc).thread w).pc = pc := by
    intro m pc
    simp [setPc_eq]
  cases h with
  | test hp | ret hp => rw [hp] at hpc; exact absurd rfl hpc
  | argLevel r rest msg hp | argMsg r rest lvl hp =>
    rw [hset s.mem, hp]
    simp [ThreadPc.stepsLeft]
  | call r rest lvl msg hp =>
    rw [hset s.mem, hp]
    simp [ThreadPc.stepsLeft, SendPc.stepsLeft]
  | send rest p p' m hp hs =>
    have hlow := sendStep_lowers hs
    rw [hset m, hp]
    simpa [ThreadPc.stepsLeft] using hlow
  | sent rest p m hp hs =>
    have hlow := sendStep_lowers hs
    rw [hset m, hp, stepsLeft_nextRow]
    simpa [ThreadPc.stepsLeft] using hlow
  | format hp | setCnt str hp =>
    rw [hset s.mem, hp]
    simp [ThreadPc.stepsLeft]

theorem answer_lowers (h : AnswerMove s w s') : (s'.thread w).pc.stepsLeft E < (s.thread w).pc.stepsLeft E := by
  have hset : ∀ (m : Mem) (pc : ThreadPc), (({ s with mem := m }.setPc w pc).thread w).pc = pc := by
    intro m pc
    simp [setPc_eq]
  cases h with
  | send rest p p' m hp hs =>
    have hlow := answerStep_lowers (E := E) hs
    rw [hset m, hp]
    simpa [ThreadPc.stepsLeft] using hlow
  | waitCnt str hp =>
    rw [hset _ .test, hp]
    simp [ThreadPc.stepsLeft]

/-! ## No wait is for ever -/

/-- A step of the worker, or an answer to it, that brings the end of its turn nearer. -/
def Lowers (E : Env) (s : State) (w : Worker) : Prop :=
  ∃ a s', a.worker? = some w ∧ step E s a = some s' ∧ (s'.thread w).pc.stepsLeft E < (s.thread w).pc.stepsLeft E

theorem lowers_of_enabled (hb : Basic s) (hpc : (s.thread w).pc.left ≠ []) (ha : a.worker? = some w)
    (h : step E s a ≠ none) : Lowers E s w := by
  obtain ⟨s', hs⟩ := Option.ne_none_iff_exists'.1 h
  refine ⟨a, s', ha, hs, ?_⟩
  cases step_thread hb hs w with
  | work hr hw => exact work_lowers hpc hw
  | answer hans hg hw => exact answer_lowers hw
  | started hg hp => rw [hp] at hpc; exact absurd rfl hpc
  | rest hn => exact absurd ha hn

/-- In a send a worker goes on, is answered, or waits for a mutex that is held. -/
theorem sendStep_or_answer {p : SendPc} (hp : ∀ l x k rest, p = .wait l x k rest → s.mem.holder k = none) :
    sendStep E (.worker w) s.mem p ≠ none ∨ answerStep s.mem p ≠ none := by
  cases p with
  | lock l x k rest => left; cases hk : s.mem.holder k <;> simp [sendStep, hk]
  | wait l x k rest => left; simp [sendStep, hp l x k rest rfl]
  | sink l x k rest c =>
    cases c with
    | enter => left; by_cases hk : k = .callback <;> simp [sendStep, hk]
    | get | set => right; simp [answerStep]
    | got | done => left; simp [sendStep]
  | _ => left; simp [sendStep]

theorem lowers_send (hb : Basic s) (hr : (s.thread w).suspends = 0) (hg : s.gui.pumps = true) {rest : List Row}
    {p : SendPc} (hpc : (s.thread w).pc = .send rest p)
    (hp : ∀ l x k rest, p = .wait l x k rest → s.mem.holder k = none) : Lowers E s w := by
  have hleft : (s.thread w).pc.left ≠ [] := by rw [hpc]; simp [ThreadPc.left, turnFrom]
  rcases sendStep_or_answer (E := E) (w := w) hp with hs | hs
  · obtain ⟨⟨m, q⟩, hs⟩ := Option.ne_none_iff_exists'.1 hs
    apply lowers_of_enabled (a := .work w) hb hleft rfl
    cases q <;> simp [step, hr, workerStep, hpc, hs]
  · obtain ⟨⟨m, p'⟩, hs⟩ := Option.ne_none_iff_exists'.1 hs
    apply lowers_of_enabled (a := .answer w) hb hleft rfl
    simp [step, hg, answer, hpc, hs]

/-- **A worker that is not suspended can go on with its turn**, unless it waits for a mutex, and then its holder, which
is in a sink, can. -/
theorem lowers_or_holder (hb : Basic s) (hh : Mutex.Held s.mem.holder (owns s)) (hg : s.gui.pumps = true)
    (hfree : ∀ v, (s.thread v).suspends ≠ 0 → owns s (.worker v) = none) (hr : (s.thread w).suspends = 0)
    (hpc : (s.thread w).pc.left ≠ []) : ∃ v, (s.thread v).suspends = 0 ∧ Lowers E s v := by
  cases hp : (s.thread w).pc with
  | args r rest lvl msg =>
    refine ⟨w, hr, ?_⟩
    cases lvl with
    | none => exact lowers_of_enabled (a := .argLevel w) hb hpc rfl (by simp [step, hr, argLevel, hp])
    | some lvl => cases msg with
      | none => exact lowers_of_enabled (a := .argMsg w) hb hpc rfl (by simp [step, hr, argMsg, hp])
      | some msg => exact lowers_of_enabled (a := .work w) hb hpc rfl (by simp [step, hr, workerStep, hp])
  | format | setCnt =>
    exact ⟨w, hr, lowers_of_enabled (a := .work w) hb hpc rfl (by simp [step, hr, workerStep, hp])⟩
  | waitCnt => exact ⟨w, hr, lowers_of_enabled (a := .answer w) hb hpc rfl (by simp [step, hg, answer, hp])⟩
  | send rest p =>
    by_cases hwait : ∀ l x k rest, p = .wait l x k rest → s.mem.holder k = none
    · exact ⟨w, hr, lowers_send hb hr hg hp hwait⟩
    · push Not at hwait
      obtain ⟨l, x, k, ks, -, hk⟩ := hwait
      obtain ⟨t, ht⟩ := Option.ne_none_iff_exists'.1 hk
      have howns : owns s t = some k := (hh k t).1 ht
      cases t with
      | gui =>
        -- a thread that pumps is in no send
        have hgui : pos s .gui = none := by
          show s.gui.pos = none
          cases hgs : s.gui <;> first | rfl | (rw [hgs] at hg; cases hg)
        simp [owns, hgui] at howns
      | worker v =>
        obtain ⟨p', hpos, hown⟩ := Option.bind_eq_some_iff.1 howns
        obtain ⟨rest', hpc'⟩ := pc_of_pos hpos
        have hrun : (s.thread v).suspends = 0 := by
          by_contra hn
          rw [hfree v hn] at howns
          cases howns
        exact ⟨v, hrun, lowers_send hb hrun hg hpc' (fun l x k rest he => by rw [he] at hown; cases hown)⟩
  | absent | test | ret | ended => rw [hp] at hpc; exact absurd rfl hpc

/-! ## The drain -/

def State.stepsLeft (E : Env) (s : State) : Nat :=
  (s.thread .sendThread).pc.stepsLeft E + (s.thread .sendThread2).pc.stepsLeft E

/-- A worker's step leaves the GUI thread, the other worker and both suspend counts. -/
theorem step_worker (ha : a.worker? = some w) (h : step E s a = some s') :
    s'.gui = s.gui ∧ (∀ v, (s'.thread v).suspends = (s.thread v).suspends) ∧ ∀ v, v ≠ w → s'.thread v = s.thread v := by
  cases step_move h with
  | worker v m pc d hv hr hm hs =>
    rw [hv] at ha
    cases ha
    subst hs
    refine ⟨rfl, fun u => ?_, fun u hu => by simp [hu]⟩
    by_cases hu : u = w
    · subst hu; simp
    · simp [hu]
  | click c hc | edit b hc | gui hc => subst hc; cases ha

/-- **The workers drain**: from every reached state in which the GUI thread pumps and no suspended worker holds a mutex,
steps of the workers and answers to them alone lead to one in which every worker that is not suspended is between two
turns, the GUI thread being where it was and no suspend count changed. -/
theorem reached_drains {P : State → Act → Prop} {m : Members} {b : Boxes} (h : Reached E P m b s)
    (hg : s.gui.pumps = true) (hfree : ∀ v, (s.thread v).suspends ≠ 0 → owns s (.worker v) = none) :
    ∃ s', Lts.Reach (step E) (fun _ a => a.worker?.isSome = true) s s' ∧ s'.gui = s.gui ∧
      (∀ v, (s'.thread v).suspends = (s.thread v).suspends) ∧
      ∀ v, (s'.thread v).suspends = 0 → (s'.thread v).pc.left = [] := by
  let I : State → Prop := fun u => Reached E Lts.anyStep m b u ∧ u.gui = s.gui ∧
    (∀ v, (u.thread v).suspends = (s.thread v).suspends) ∧
    ∀ v, (u.thread v).suspends ≠ 0 → owns u (.worker v) = none
  have hlower : ∀ u, I u → (¬ ∀ v, (u.thread v).suspends = 0 → (u.thread v).pc.left = []) →
      ∃ t, Lts.Reach (step E) (fun _ a => a.worker?.isSome = true) u t ∧ I t ∧ t.stepsLeft E < u.stepsLeft E := by
    rintro u ⟨hu, hgu, hsus, hf⟩ hn
    push Not at hn
    obtain ⟨w, hr, hpc⟩ := hn
    obtain ⟨v, hv, a, t, ha, hs, hlow⟩ := lowers_or_holder (E := E) (basic hu) (held hu) (hgu ▸ hg) hf hr hpc
    obtain ⟨hgt, hst, hother⟩ := step_worker ha hs
    refine ⟨t, .one a (by rw [ha]; rfl) hs,
      ⟨hu.snoc a trivial hs, hgt.trans hgu, fun x => (hst x).trans (hsus x), ?_⟩, ?_⟩
    · intro x hx
      rw [hst x] at hx
      have hxv : x ≠ v := fun he => hx (he ▸ hv)
      have hpos : pos t (.worker x) = pos u (.worker x) := by simp only [pos, hother x hxv]
      unfold owns
      rw [hpos]
      exact hf x hx
    · unfold State.stepsLeft
      cases v with
      | sendThread => rw [hother .sendThread2 (by decide)]; exact Nat.add_lt_add_right hlow _
      | sendThread2 => rw [hother .sendThread (by decide)]; exact Nat.add_lt_add_left hlow _
  obtain ⟨s', hr, ⟨-, hg', hsus', -⟩, hF⟩ :=
    Lts.Reach.of_rank (State.stepsLeft E) hlower s ⟨h.any, rfl, fun _ => rfl, hfree⟩
  exact ⟨s', hr, hg', hsus', hF⟩

/-- `sendThread` blocked in `callbackLog`, and `sendThread2` behind it at the callback sink's mutex. -/
theorem reached_drains_blocked : ∃ s, Reached spdEnv Lts.anyStep (initMsgs 41) (initMsgs 41).shown s ∧
    (∀ w, (step spdEnv s (.work w)).isNone = true ∧ (s.thread w).pc.left ≠ []) ∧
    ∃ s', Lts.Reach (step spdEnv) (fun _ a => a.worker?.isSome = true) s s' ∧ s'.gui = s.gui ∧
      (∀ v, (s'.thread v).suspends = (s.thread v).suspends) ∧
      ∀ v, (s'.thread v).suspends = 0 → (s'.thread v).pc.left = [] := by
  obtain ⟨s, hr, ⟨hg, hsus⟩, hF⟩ := exists_reached Lts.anyStep
    (fun s => (s.gui.pumps = true ∧ ∀ v, (s.thread v).suspends = 0) ∧
      ∀ w, (step spdEnv s (.work w)).isNone = true ∧ (s.thread w).pc.left ≠ [])
    (checkClick ++ toRead .sendThread ++ List.replicate 11 (.work .sendThread) ++ toRead .sendThread2 ++
      List.replicate 10 (.work .sendThread2)) (by decide +kernel)
  exact ⟨s, hr, hF, reached_drains hr hg (fun v hv => absurd (hsus v) hv)⟩

end LogMaker
