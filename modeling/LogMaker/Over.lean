import LogMaker.Drain
/-!
# Over — what still happens once the dialog has ended

From `EndDialog` on, the GUI thread answers no message, and the workers, which nothing stops, run into one: a line of
the log box, or the count.  So every run comes to a stop (`steps_over`): its length is bounded, the controls and the
members stay as they are, and where the logger has the callback sink no more than two messages are still logged.
-/
namespace LogMaker

variable {E : Env} {s s' : State} {a : Act} {w : Worker}

/-- The dialog has ended. -/
def GuiPc.over : GuiPc → Bool
  | .endDialog | .returned | .destroyed => true
  | _ => false

/-- What the user sees of the dialog, and what its handlers keep. -/
def State.shown (s : State) : CString × CString × Boxes × Bool × CString × Members × Bool :=
  (s.mem.sendCnt, s.mem.sentLogs, s.boxes, s.checked, s.label, s.members, s.bSendRep)

/-- A worker's steps up to the message that is not answered, at most. -/
def ThreadPc.toStop (E : Env) : ThreadPc → Nat
  | .test => rowsLeft E sendLogAllMsg1 + 1
  | .ret => 1
  | pc => pc.stepsLeft E

def GuiPc.toStop : GuiPc → Nat
  | .endDialog => 2
  | .returned => 1
  | _ => 0

def State.toStop (E : Env) (s : State) : Nat :=
  s.gui.toStop + ((s.thread .sendThread).pc.toStop E + (s.thread .sendThread2).pc.toStop E)

/-- Whether a call of the logger may still return without an answer: it has passed the callback sink. -/
def SendPc.mayLog : SendPc → Nat
  | .lock _ _ k rest | .wait _ _ k rest => if .callback ∈ k :: rest then 0 else 1
  | .sink _ _ _ rest .done => if .callback ∈ rest then 0 else 1
  | .sink _ _ k rest _ => if .callback ∈ k :: rest then 0 else 1
  | .ret _ _ => 1
  | _ => 0

def mayLog (q : Option SendPc) : Nat := q.elim 0 SendPc.mayLog

def State.mayLog (s : State) : Nat :=
  LogMaker.mayLog (pos s (.worker .sendThread)) + LogMaker.mayLog (pos s (.worker .sendThread2))

theorem mayLog_le (q : Option SendPc) : mayLog q ≤ 1 := by
  cases q with
  | none => exact Nat.zero_le 1
  | some p =>
    cases p with
    | sink lvl line k rest c => cases c <;> simp only [mayLog, Option.elim_some, SendPc.mayLog] <;> split <;> omega
    | lock | wait => simp only [mayLog, Option.elim_some, SendPc.mayLog]; split <;> omega
    | _ => simp [mayLog, SendPc.mayLog]

theorem mayLog_nextSink (lvl line : CString) (ks : List Sink) :
    (nextSink lvl line ks).mayLog = if .callback ∈ ks then 0 else 1 := by
  cases ks <;> simp [nextSink, SendPc.mayLog]

/-- A worker writes no box by itself. -/
theorem sendStep_boxes {m m' : Mem} {p : SendPc} {q : Option SendPc} (h : sendStep E (.worker w) m p = some (m', q)) :
    m'.sendCnt = m.sendCnt ∧ m'.sentLogs = m.sentLogs := by
  cases sendStep_move h <;> exact ⟨rfl, rfl⟩

/-- A step of a worker in a send logs at most what its position said it may. -/
theorem sendStep_mayLog (hk : .callback ∈ E.sinks) {m m' : Mem} {p : SendPc} {q : Option SendPc}
    (h : sendStep E (.worker w) m p = some (m', q)) :
    ∃ rs, m'.logged = m.logged ++ rs ∧ rs.length + mayLog q ≤ p.mayLog := by
  have hsame : mayLog q ≤ p.mayLog → ∃ rs, m.logged = m.logged ++ rs ∧ rs.length + mayLog q ≤ p.mayLog :=
    fun hq => ⟨[], (List.append_nil _).symm, by simpa using hq⟩
  cases sendStep_move h with
  | make lvl msg n =>
    apply hsame
    rw [mayLog, Option.elim_some, mayLog_nextSink, if_pos hk]
    exact Nat.zero_le _
  | release lvl line k rest =>
    apply hsame
    rw [mayLog, Option.elim_some, mayLog_nextSink]
    exact Nat.le_refl _
  | pass lvl line k rest hne =>
    apply hsame
    simp [mayLog, SendPc.mayLog, Ne.symm hne]
  | ret lvl line => exact ⟨[toSpdLog lvl line], rfl, Nat.le_refl _⟩
  | _ => exact hsame (by simp [mayLog, SendPc.mayLog])

/-! ## A worker's step -/

theorem toStop_of_left {pc : ThreadPc} (h : pc.left ≠ []) : pc.toStop E = pc.stepsLeft E := by
  cases pc <;> first | rfl | exact absurd rfl h

theorem left_nextRow_ne (rest : List Row) : (nextRow rest).left ≠ [] := by
  rw [left_nextRow]
  simp [turnFrom]

theorem rowsLeft_rows (w : Worker) : rowsLeft E w.rows = rowsLeft E sendLogAllMsg1 := by cases w <;> rfl

/-- Every step of a worker without an answer brings its stop nearer. -/
theorem work_toStop (h : WorkMove E s w a s') : (s'.thread w).pc.toStop E < (s.thread w).pc.toStop E := by
  have hset : ∀ (m : Mem) (pc : ThreadPc), (({ s with mem := m }.setPc w pc).thread w).pc = pc := by
    intro m pc
    simp [setPc_eq]
  have hturn : ∀ pc : ThreadPc, (s'.thread w).pc = pc → pc.left ≠ [] → (s.thread w).pc.left ≠ [] →
      (s'.thread w).pc.toStop E < (s.thread w).pc.toStop E := by
    intro pc hpc hl' hl
    rw [toStop_of_left hl, toStop_of_left (by rw [hpc]; exact hl')]
    exact work_lowers hl h
  cases h with
  | test hp =>
    rw [hset s.mem, hp]
    show _ < rowsLeft E sendLogAllMsg1 + 1
    split
    · rw [toStop_of_left (left_nextRow_ne _), stepsLeft_nextRow, rowsLeft_rows]
      exact Nat.lt_succ_self _
    · show 1 < rowsLeft E sendLogAllMsg1 + 1
      unfold rowsLeft
      omega
  | ret hp =>
    rw [hp]
    simp [ThreadPc.toStop, ThreadPc.stepsLeft]
  | sent rest p m hp hs => exact hturn _ (hset m _) (left_nextRow_ne _) (by rw [hp]; simp [ThreadPc.left, turnFrom])
  | send rest p p' m hp hs =>
    exact hturn _ (hset m _) (by simp [ThreadPc.left, turnFrom]) (by rw [hp]; simp [ThreadPc.left, turnFrom])
  | argLevel _ _ _ hp | argMsg _ _ _ hp | call _ _ _ _ hp | format hp | setCnt _ hp =>
    exact hturn _ (hset s.mem _) (by simp [ThreadPc.left, turnFrom]) (by rw [hp]; simp [ThreadPc.left, turnFrom])

theorem work_shown (h : WorkMove E s w a s') : s'.gui = s.gui ∧ s'.shown = s.shown := by
  cases h with
  | send rest p p' m hp hs | sent rest p m hp hs =>
    obtain ⟨hcnt, hlogs⟩ := sendStep_boxes hs
    exact ⟨rfl, by simp only [State.shown, setPc_eq, State.setThread, hcnt, hlogs]⟩
  | _ => exact ⟨rfl, rfl⟩

theorem work_mayLog (hk : .callback ∈ E.sinks) (h : WorkMove E s w a s') : ∃ rs, s'.mem.logged = s.mem.logged ++ rs ∧
    rs.length + mayLog (pos s' (.worker w)) ≤ mayLog (pos s (.worker w)) := by
  have hpos : ∀ (m : Mem) (pc : ThreadPc), pos ({ s with mem := m }.setPc w pc) (.worker w) = pc.pos := by
    intro m pc
    rw [pos_setPc, Function.update_self]
  have hnone : ∀ pc : ThreadPc, s'.mem = s.mem → pos s' (.worker w) = pc.pos → mayLog pc.pos = 0 →
      ∃ rs, s'.mem.logged = s.mem.logged ++ rs ∧
        rs.length + mayLog (pos s' (.worker w)) ≤ mayLog (pos s (.worker w)) := by
    intro pc hm hp hz
    refine ⟨[], by rw [hm, List.append_nil], ?_⟩
    rw [hp, hz]
    exact Nat.zero_le _
  cases h with
  | send rest p p' m hp hs =>
    obtain ⟨rs, hl, hle⟩ := sendStep_mayLog hk hs
    refine ⟨rs, hl, ?_⟩
    rw [hpos m, pos_of_pc hp]
    exact hle
  | sent rest p m hp hs =>
    obtain ⟨rs, hl, hle⟩ := sendStep_mayLog hk hs
    refine ⟨rs, hl, ?_⟩
    rw [hpos m, pos_of_pc hp, pos_nextRow]
    exact hle
  | test hp =>
    refine hnone _ rfl (hpos s.mem _) ?_
    split
    · rw [pos_nextRow]; rfl
    · rfl
  | ret hp => exact hnone .ended rfl (by simp [pos]) rfl
  | _ => exact hnone _ rfl (hpos s.mem _) rfl

/-! ## The end -/

theorem pumps_of_over {g : GuiPc} (h : g.over = true) : g.pumps = false := by
  cases g <;> first | rfl | cases h

/-- One step after the end: the GUI thread ends, or a worker comes nearer to its stop. -/
inductive OverMove (E : Env) (s : State) (s' : State) : Prop where
  | gui (hg : s'.gui.over = true) (hlt : s'.gui.toStop < s.gui.toStop) (hs : s' = { s with gui := s'.gui })
  | work (w : Worker) (a : Act) (h : WorkMove E s w a s')

theorem over_cases (ho : s.gui.over = true) (h : step E s a = some s') : OverMove E s s' := by
  cases step_cases h with
  | click c hg | edit b hg => rw [hg] at ho; cases ho
  | gui h =>
    cases hg : s.gui with
    | endDialog | returned =>
      simp only [guiStep, hg, Option.some.injEq] at h
      subst h
      exact .gui rfl (by rw [hg]; exact Nat.lt_succ_self _) rfl
    | destroyed => simp [guiStep, hg] at h
    | _ => rw [hg] at ho; cases ho
  | work w hr h => exact .work w _ h
  | answer w hg => rw [pumps_of_over ho] at hg; cases hg

theorem over_step (ho : s.gui.over = true) (h : step E s a = some s') :
    s'.gui.over = true ∧ s'.toStop E < s.toStop E := by
  cases over_cases ho h with
  | gui hg hlt hs =>
    refine ⟨hg, ?_⟩
    have ht : s'.thread = s.thread := by rw [hs]
    unfold State.toStop
    rw [ht]
    exact Nat.add_lt_add_right hlt _
  | work w a' h =>
    have hlt := work_toStop h
    have hg := (work_shown h).1
    refine ⟨by rw [hg]; exact ho, ?_⟩
    unfold State.toStop
    rw [hg]
    cases w with
    | sendThread => rw [work_other h (w := .sendThread2) (by decide)]; omega
    | sendThread2 => rw [work_other h (w := .sendThread) (by decide)]; omega

theorem over_shown (ho : s.gui.over = true) (h : step E s a = some s') : s'.shown = s.shown := by
  cases over_cases ho h with
  | gui hg hlt hs => rw [hs]; rfl
  | work w a' h => exact (work_shown h).2

theorem over_mayLog (hk : .callback ∈ E.sinks) (ho : s.gui.over = true) (h : step E s a = some s') :
    ∃ rs, s'.mem.logged = s.mem.logged ++ rs ∧ rs.length + s'.mayLog ≤ s.mayLog := by
  cases over_cases ho h with
  | gui hg hlt hs =>
    refine ⟨[], by rw [hs, List.append_nil], ?_⟩
    rw [hs]
    exact Nat.le_of_eq (Nat.zero_add _)
  | work w a' h =>
    obtain ⟨rs, hl, hle⟩ := work_mayLog hk h
    refine ⟨rs, hl, ?_⟩
    have hother : ∀ v, v ≠ w → pos s' (.worker v) = pos s (.worker v) := fun v hv => by
      simp only [pos, work_other h hv]
    unfold State.mayLog
    cases w with
    | sendThread => rw [hother .sendThread2 (by decide)]; omega
    | sendThread2 => rw [hother .sendThread (by decide)]; omega

/-- **After its end the dialog stands still and its workers stop**: from a state in which the dialog has ended every run
is of bounded length and leaves the controls and the members as they are; and where the logger has the callback sink, at
most one more message of each worker is logged.  Nothing is answered past the end, nor is a worker released when the
dialog's windows are destroyed. -/
theorem steps_over {Q : State → Act → Prop} {as : List Act} (ho : s.gui.over = true)
    (hr : Lts.Steps (step E) Q s as s') :
    as.length + s'.toStop E ≤ s.toStop E ∧ s'.shown = s.shown ∧
    (.callback ∈ E.sinks → ∃ rs, s'.mem.logged = s.mem.logged ++ rs ∧ rs.length ≤ 2) := by
  have hlen := (Lts.Steps.length_add_rank_le (I := fun u => u.gui.over = true) (State.toStop E)
    (fun u a v hu hv => over_step hu hv) as s s' ho hr).2
  have hI : (s'.gui.over = true ∧ s'.shown = s.shown) ∧
      (.callback ∈ E.sinks → ∃ rs, s'.mem.logged = s.mem.logged ++ rs ∧ rs.length + s'.mayLog ≤ s.mayLog) := by
    refine Lts.Reach.inv (I := fun u => (u.gui.over = true ∧ u.shown = s.shown) ∧
      (.callback ∈ E.sinks → ∃ rs, u.mem.logged = s.mem.logged ++ rs ∧ rs.length + u.mayLog ≤ s.mayLog))
      ⟨as, hr⟩ ⟨⟨ho, rfl⟩, fun _ => ⟨[], by simp⟩⟩ ?_
    rintro u a v - ⟨⟨hu, hshown⟩, hlog⟩ - hv
    refine ⟨⟨(over_step hu hv).1, (over_shown hu hv).trans hshown⟩, fun hk => ?_⟩
    obtain ⟨rs, hl, hle⟩ := hlog hk
    obtain ⟨rs', hl', hle'⟩ := over_mayLog hk hu hv
    refine ⟨rs ++ rs', by rw [hl', hl, List.append_assoc], ?_⟩
    rw [List.length_append]
    omega
  refine ⟨hlen, hI.1.2, fun hk => ?_⟩
  obtain ⟨rs, hl, hle⟩ := hI.2 hk
  refine ⟨rs, hl, ?_⟩
  have h1 := mayLog_le (pos s (.worker .sendThread))
  have h2 := mayLog_le (pos s (.worker .sendThread2))
  unfold State.mayLog at hle
  omega

/-- The close box, with `sendThread` past the callback sink: its message is logged in the five steps after. -/
theorem steps_over_close : ∃ s t, Reached spdEnv Lts.anyStep (initMsgs 41) (initMsgs 41).shown s ∧
    (s.gui.over = true ∧ s.mem.logged = []) ∧
    Lts.Steps (step spdEnv) Lts.anyStep s (List.replicate 5 (.work .sendThread)) t ∧ t.mem.logged.length = 1 ∧
    5 + t.toStop spdEnv ≤ s.toStop spdEnv ∧ t.shown = s.shown ∧
    ∃ rs, t.mem.logged = s.mem.logged ++ rs ∧ rs.length ≤ 2 := by
  obtain ⟨s, t, hs, hF, ht, hG⟩ := Lts.exists_steps_append_of_runIf (step spdEnv) Lts.anyStep
    (fun s => s.gui.over = true ∧ s.mem.logged = []) (fun t => t.mem.logged.length = 1)
    (State.init (initMsgs 41) (initMsgs 41).shown)
    (checkClick ++ toRead .sendThread ++ List.replicate 11 (.work .sendThread) ++
      [.answer .sendThread, .work .sendThread, .answer .sendThread, .click .close, .gui, .gui, .gui])
    (List.replicate 5 (.work .sendThread)) (by decide +kernel) (by decide +kernel)
  obtain ⟨hlen, hshown, hlog⟩ := steps_over hF.1 ht
  exact ⟨s, t, ⟨_, hs⟩, hF, ht, hG, hlen, hshown, hlog (by decide)⟩

end LogMaker
