import LogMaker.Alone
import LogMaker.Stops
/-!
# Waits — when the dialog freezes in a Send click

The GUI thread waits for a mutex in two ways that never end: its holder waits, inside `callbackLog`, for the GUI thread
to pump (`CircularWait`), or its holder has been suspended by the check box.  `reached_stopFree` and
`reached_noCircularWait` say what excludes each, and that a Send click then ends.
-/
namespace LogMaker

/-! ## Positions -/

/-- Between taking the callback sink's mutex and the answer to the last message of `callbackLog`. -/
def SendPc.inCallbackLog : SendPc → Bool
  | .sink _ _ .callback _ .done => false
  | .sink _ _ .callback _ _ => true
  | _ => false

/-- Blocked in a message of `callbackLog`. -/
def SendPc.asks : SendPc → Bool
  | .sink _ _ .callback _ .get | .sink _ _ .callback _ (.set _) => true
  | _ => false

def SendPc.waitsCallback : SendPc → Bool
  | .wait _ _ .callback _ => true
  | _ => false

/-- About to take the callback sink's mutex, which is free. -/
def SendPc.takesCallback (m : Mem) : SendPc → Bool
  | .lock _ _ .callback _ | .wait _ _ .callback _ => (m.holder .callback).isNone
  | _ => false

def GuiPc.inLoop : GuiPc → Bool
  | .loop _ _ _ _ | .sending _ _ _ _ _ => true
  | _ => false

def GuiPc.inSendLogMsgCnt : GuiPc → Bool
  | .loop _ _ _ _ | .sending _ _ _ _ _ | .showCnt | .sendBox => true
  | _ => false

def GuiPc.inSend : GuiPc → Bool
  | .exchange (.send _) _ | .invalid (.send _) => true
  | .loop _ _ _ _ | .sending _ _ _ _ _ | .showCnt | .sendBox => true
  | _ => false

/-- The row whose loop the handler enters next. -/
def GuiPc.enters : GuiPc → Option Row
  | .exchange (.send k) [] | .invalid (.send k) => some k
  | _ => none

/-- In the loop, with a call of the callback sink still to come. -/
def GuiPc.owes (E : Env) (g : GuiPc) : Bool := g.inLoop && g.needs E .callback

theorem inSendLogMsgCnt_of_move {E : Env} {s s' : State} {g : GuiPc} (hs : g.inSendLogMsgCnt = true)
    (h : GuiMove E s g s') : s'.gui.inSendLogMsgCnt = true ∨ s'.gui = .idle := by
  cases h with
  | enter | leave | showCnt => exact .inl rfl
  | send _ _ _ _ _ _ q => cases q <;> exact .inl rfl
  | sendBox => exact .inr rfl
  | _ => cases hs

theorem inSend_of_inSendLogMsgCnt {g : GuiPc} (h : g.inSendLogMsgCnt = true) : g.inSend = true := by
  cases g <;> first | rfl | cases h

theorem inSend_of_move {E : Env} {s s' : State} {g : GuiPc} (hs : g.inSend = true) (h : GuiMove E s g s') :
    s'.gui.inSend = true ∨ s'.gui = .idle := by
  cases h with
  | field hd | abort hd | updated hd | dismissed hd => cases hd <;> first | exact .inl rfl | cases hs
  | enter | leave | showCnt => exact .inl rfl
  | send _ _ _ _ _ _ q => cases q <;> exact .inl rfl
  | sendBox => exact .inr rfl
  | _ => cases hs

/-! ## Suspended with a mutex -/

/-- **The stop never strands a lock**: a suspended worker holds no mutex, and a Send click while repeat sending is
stopped runs to its end by the GUI thread's steps alone. -/
def StopFree (E : Env) (s : State) : Prop :=
  (∀ w, (s.thread w).suspends ≠ 0 → owns s (.worker w) = none) ∧
  (s.gui.inSend = true → s.checked = false →
    ∃ s', Lts.Reach (step E) (fun _ a => a = .gui) s s' ∧ s'.gui = .idle)

/-- Send and check box clicks, and no worker is suspended with a mutex. -/
def LocksSettled (s : State) (a : Act) : Prop :=
  a.closes = false ∧ ∀ w, suspends? s a = some w → owns s (.worker w) = none

instance (s : State) (a : Act) : Decidable (LocksSettled s a) := by unfold LocksSettled; infer_instance

theorem kept_owns {E : Env} {m : Members} {b : Boxes} {s : State} (h : Reached E LocksSettled m b s) :
    Kept (fun q => (q.bind SendPc.owns).isNone) s := by
  refine h.inv (fun _ _ => rfl) (fun u a v hu hi ha hs => ?_)
  refine kept_step (basic hu) (balanced hu) (open_ (fun _ _ ha => ha.1) hu) (fun m p m' p' hans => ?_) (fun w hw => ?_)
    hi hs
  · cases answerStep_move hans <;> rfl
  · rw [show (pos u (.worker w)).bind SendPc.owns = none from ha.2 w hw]
    rfl

theorem halts_of_inSend {s : State} (h : s.gui.inSend = true) (w : Worker) : s.halts w = !s.checked := by
  rw [halts_of rfl rfl]
  cases hg : s.gui with
  | exchange hd _ => rw [hg] at h; cases hd <;> first | rfl | cases h
  | invalid hd => rw [hg] at h; cases hd <;> first | rfl | cases h
  | _ => first | rfl | (rw [hg] at h; cases h)

theorem idle_of_settled {g : GuiPc} (h : g.inSend = true ∨ g = .idle) (hs : g.settled = true) : g = .idle := by
  rcases h with h | h
  · cases g <;> first | rfl | (cases hs; done) | cases h
  · exact h

theorem pos_of_not_live {s : State} {w : Worker} (h : (s.thread w).pc.live = false) : pos s (.worker w) = none := by
  show (s.thread w).pc.pos = none
  cases hpc : (s.thread w).pc <;> first | rfl | (rw [hpc] at h; cases h)

/-- **While no worker is suspended with a mutex, the stop strands none.** -/
theorem reached_stopFree {E : Env} {m : Members} {b : Boxes} {s : State} (h : Reached E LocksSettled m b s) :
    StopFree E s := by
  have hkept := kept_owns h
  have hfree : ∀ w, s.halts w = true → owns s (.worker w) = none := fun w hw => by simpa [owns] using hkept w hw
  refine ⟨fun w hsus => ?_, fun hin hc => ?_⟩
  · cases hlive : (s.thread w).pc.live with
    | true =>
      have hbal := balanced h w hlive ((open_ (fun _ _ ha => ha.1) h).kept w hlive)
      exact hfree w (by
        by_contra hn
        rw [if_neg hn] at hbal
        exact hsus hbal)
    | false =>
      have hpos : pos s (.worker w) = none := pos_of_not_live hlive
      simp [owns, hpos]
  · have hclear : Clear E s := fun w k hk => by
      rw [hfree w (by rw [halts_of_inSend hin, hc]; rfl)] at hk
      cases hk
    have hI : ∀ u v, Reached E Lts.anyStep m b u → (u.gui.inSend = true ∨ u.gui = .idle) → guiStep E u = some v →
        v.gui.inSend = true ∨ v.gui = .idle := by
      intro u v _ hu hv
      rcases hu with hu | hu
      · exact inSend_of_move hu (guiStep_move hv)
      · simp [guiStep, hu] at hv
    obtain ⟨s', hr, hi, hsettled⟩ := gui_alone (P := fun _ a => a = .gui) hI (fun _ _ => rfl) h.any hclear (.inl hin)
    exact ⟨s', hr, idle_of_settled hi hsettled⟩

/-- A stop with `sendThread` between two rows, and a click on Send-1 after it. -/
theorem reached_stopFree_clicked :
    ∃ s, Reached spdEnv LocksSettled (initMsgs 41) (initMsgs 41).shown s ∧
      (s.thread .sendThread).suspends = 1 ∧ s.gui.inSend = true ∧ StopFree spdEnv s := by
  obtain ⟨s, hr, hsus, hin⟩ := exists_reached LocksSettled
    (fun s => (s.thread .sendThread).suspends = 1 ∧ s.gui.inSend = true)
    (checkClick ++ toRead .sendThread ++ uncheckClick ++ [.gui, .click (.send 0)]) (by decide +kernel)
  exact ⟨s, hr, hsus, hin, reached_stopFree hr⟩

/-- A stop while `sendThread` is in the console sink, and a click on Send-1 that then waits for its mutex. -/
theorem not_stopFree_console :
    ∃ s, Reached spdEnv (fun _ a => a.closes = false) (initMsgs 41) (initMsgs 41).shown s ∧
      (guiStep spdEnv s).isNone = true ∧ s.gui.inSend = true ∧ s.checked = false ∧ ¬ StopFree spdEnv s := by
  obtain ⟨s, hr, hblock, hin, hc, hsus, howns⟩ := exists_reached (fun _ a => a.closes = false)
    (fun s => (guiStep spdEnv s).isNone = true ∧ s.gui.inSend = true ∧ s.checked = false ∧
      (s.thread .sendThread).suspends = 1 ∧ owns s (.worker .sendThread) = some .console)
    (checkClick ++ toRead .sendThread ++ List.replicate 4 (.work .sendThread) ++ uncheckClick ++
      [.gui, .click (.send 0)] ++ List.replicate 37 .gui) (by decide +kernel)
  refine ⟨s, hr, hblock, hin, hc, fun h => ?_⟩
  have hnone := h.1 .sendThread (by rw [hsus]; exact Nat.one_ne_zero)
  rw [howns] at hnone
  cases hnone

/-! ## Waiting for each other -/

/-- The GUI thread waits for the callback sink's mutex, and its holder, a worker in `callbackLog`, for the GUI thread. -/
def CircularWait (s : State) : Prop :=
  (pos s .gui).any SendPc.waitsCallback = true ∧
    ∃ w, s.mem.holder .callback = some (.worker w) ∧ (pos s (.worker w)).any SendPc.asks = true

instance (s : State) : Decidable (CircularWait s) := by unfold CircularWait; infer_instance

/-- The worker is blocked in a message of `callbackLog`, or is there and comes to be. -/
def State.willAsk (s : State) (w : Worker) : Bool :=
  (pos s (.worker w)).any SendPc.asks ||
    decide ((s.thread w).suspends = 0) && (pos s (.worker w)).any SendPc.inCallbackLog

/-- The loop of a Send click is entered, for a message at least, with no worker waiting for an answer in `callbackLog` or
coming to; and while it has a call of the callback sink to come no worker takes that sink's mutex. -/
def Apart (E : Env) (s : State) (a : Act) : Prop :=
  (a.sender? = some .gui → ∀ k, s.gui.enters = some k → 0 < s.members.nCnt k → ∀ w, s.willAsk w = false) ∧
  ∀ w, a.sender? = some (.worker w) → (pos s (.worker w)).any (SendPc.takesCallback s.mem) = true →
    s.gui.owes E = false

instance (E : Env) (s : State) (a : Act) : Decidable (Apart E s a) := by unfold Apart; infer_instance

theorem inCallbackLog_of_asks {q : Option SendPc} (h : q.any SendPc.asks = true) :
    q.any SendPc.inCallbackLog = true := by
  cases q with
  | none => cases h
  | some p =>
    cases p with
    | sink lvl line k rest c => cases k <;> cases c <;> first | rfl | cases h
    | _ => cases h

theorem inCallbackLog_of_willAsk {s : State} {w : Worker} (h : s.willAsk w = true) :
    (pos s (.worker w)).any SendPc.inCallbackLog = true := by
  unfold State.willAsk at h
  rcases Bool.or_eq_true_iff.1 h with hask | hboth
  · exact inCallbackLog_of_asks hask
  · exact (Bool.and_eq_true_iff.1 hboth).2

theorem inCallbackLog_nextSink (lvl line : CString) (ks : List Sink) : (nextSink lvl line ks).inCallbackLog = false := by
  cases ks <;> rfl

theorem sendStep_inCallbackLog {E : Env} {t : Sender} {m m' : Mem} {p q : SendPc}
    (h : sendStep E t m p = some (m', some q)) (hq : q.inCallbackLog = true) :
    p.inCallbackLog = true ∨ p.takesCallback m = true := by
  cases sendStep_move h with
  | make | release => rw [inCallbackLog_nextSink] at hq; cases hq
  | take lvl line k rest hk | wake lvl line k rest hk =>
    cases k with
    | callback => exact .inr (by simp [SendPc.takesCallback, hk])
    | _ => cases hq
  | getText | askText => exact .inl rfl
  | pass lvl line k | setText lvl line k => cases k <;> cases hq
  | askSet w lvl line k rest str => cases k <;> first | exact .inl rfl | cases hq
  | _ => cases hq

theorem answerStep_inCallbackLog {m m' : Mem} {p p' : SendPc} (h : answerStep m p = some (m', p'))
    (hq : p'.inCallbackLog = true) : p.inCallbackLog = true := by
  cases answerStep_move h with
  | get lvl line k rest => cases k <;> first | rfl | cases hq
  | set lvl line k rest str => cases k <;> cases hq

theorem step_inCallbackLog {E : Env} {s s' : State} {a : Act} (hb : Basic s) (h : step E s a = some s') {w : Worker}
    (hw : (pos s' (.worker w)).any SendPc.inCallbackLog = true) :
    (pos s (.worker w)).any SendPc.inCallbackLog = true ∨
      a = .work w ∧ (pos s (.worker w)).any (SendPc.takesCallback s.mem) = true := by
  cases step_pos hb.ptrInv h (.worker w) with
  | send p q ha hp hs hpos =>
    rw [hpos] at hw
    cases q with
    | none => cases hw
    | some q =>
      rw [hp]
      exact (sendStep_inCallbackLog hs hw).imp id (fun htake => ⟨ha, htake⟩)
  | call lvl msg ha hp hpos => rw [hpos] at hw; cases hw
  | answer p p' hg hp hs hpos =>
    rw [hpos] at hw
    rw [hp]
    exact .inl (answerStep_inCallbackLog hs hw)
  | same hpos => rw [hpos] at hw; exact .inl hw

theorem owes_of_move {E : Env} {s s' : State} {g : GuiPc} (h : GuiMove E s g s') (ho : s'.gui.owes E = true) :
    g.owes E = true ∨ ∃ k, g.enters = some k ∧ 0 < s.members.nCnt k := by
  obtain ⟨hloop', hneed'⟩ := Bool.and_eq_true_iff.1 ho
  have hneed := needs_of_move h hneed'
  cases h with
  | updated hd | dismissed hd =>
    cases hd with
    | send k =>
      refine .inr ⟨k, rfl, ?_⟩
      simpa [State.updated, GuiPc.needs] using (Bool.and_eq_true_iff.1 hneed').1
    | _ => cases hneed
  | enter | send => exact .inl (Bool.and_eq_true_iff.2 ⟨rfl, hneed⟩)
  | field | abort | leave => cases hloop'
  | _ => cases hneed

theorem step_owes {E : Env} {s s' : State} {a : Act} (h : step E s a = some s') (ho : s'.gui.owes E = true) :
    s.gui.owes E = true ∨ a = .gui ∧ ∃ k, s.gui.enters = some k ∧ 0 < s.members.nCnt k := by
  cases step_move h with
  | click c ha hg hs => subst hs; cases c <;> cases ho
  | edit b ha hg hs => subst hs; exact .inl ho
  | gui ha h => exact (owes_of_move (guiStep_move h) ho).imp id (fun hk => ⟨ha, hk⟩)
  | worker w m pc d ha hr hm hs => rw [hs] at ho; exact .inl ho

theorem asks_of_answerStep {m m' : Mem} {p p' : SendPc} (hin : p.inCallbackLog = true)
    (h : answerStep m p = some (m', p')) : p.asks = true := by
  cases answerStep_move h with
  | get lvl line k | set lvl line k => cases k <;> first | rfl | cases hin

/-- A worker in `callbackLog` that is suspended and waits for no answer stays where it is. -/
theorem pos_of_not_willAsk {E : Env} {s s' : State} {a : Act} (hb : Basic s) (h : step E s a = some s') {w : Worker}
    (hin : (pos s (.worker w)).any SendPc.inCallbackLog = true) (hn : s.willAsk w = false) :
    pos s' (.worker w) = pos s (.worker w) := by
  obtain ⟨hask, hsus⟩ : (pos s (.worker w)).any SendPc.asks = false ∧ (s.thread w).suspends ≠ 0 := by
    unfold State.willAsk at hn
    rw [hin] at hn
    simpa using hn
  cases step_pos hb.ptrInv h (.worker w) with
  | send p q ha hp hs hpos =>
    rw [ha] at h
    simp [Sender.act, step, hsus] at h
  | call lvl msg ha hp hpos => rw [hp] at hin; cases hin
  | answer p p' hg hp hs hpos =>
    rw [hp] at hin hask
    rw [Option.any_some, asks_of_answerStep hin hs] at hask
    cases hask
  | same hpos => exact hpos

theorem suspends_of_inLoop {E : Env} {s s' : State} {a : Act} (hb : Basic s) (h : step E s a = some s')
    (hl : s'.gui.inLoop = true) (w : Worker) : (s'.thread w).suspends = (s.thread w).suspends := by
  cases step_life hb.sided h with
  | worker v m pc d ha hr hm hs =>
    rw [hs, setThread_thread]
    by_cases hv : w = v
    · subst hv; rw [Function.update_self]
    · rw [Function.update_of_ne hv]
  | start v ha hg hs => rw [hs] at hl; cases v <;> cases hl
  | suspend v ha hg hs => rw [hs] at hl; cases v <;> cases hl
  | delete c ha hg hs => rw [hs] at hl; cases c <;> cases hl
  | setFlag ha hg hs => rw [hs] at hl; cases hl
  | clearFlag ha hg hs => rw [hs] at hl; cases hl
  | rest ha ht => rw [ht]

/-- While the GUI thread is in a loop, a worker comes to wait in `callbackLog` by taking the mutex. -/
theorem step_willAsk {E : Env} {s s' : State} {a : Act} (hb : Basic s) (h : step E s a = some s')
    (hl : s'.gui.inLoop = true) {w : Worker} (hw : s'.willAsk w = true) :
    s.willAsk w = true ∨ a = .work w ∧ (pos s (.worker w)).any (SendPc.takesCallback s.mem) = true := by
  rcases step_inCallbackLog hb h (inCallbackLog_of_willAsk hw) with hin | htake
  · left
    by_contra hn
    have hn' : s.willAsk w = false := by simpa using hn
    unfold State.willAsk at hw hn'
    rw [pos_of_not_willAsk hb h hin hn', suspends_of_inLoop hb h hl w, hn'] at hw
    cases hw
  · exact .inr htake

/-- While the GUI thread owes a call of the callback sink no worker waits for an answer in `callbackLog`, or comes to. -/
theorem apart {E : Env} {m : Members} {b : Boxes} {s : State} (h : Reached E (Apart E) m b s) :
    s.gui.owes E = true → ∀ w, s.willAsk w = false := by
  refine h.inv (I := fun s => s.gui.owes E = true → ∀ w, s.willAsk w = false) (fun ho => by cases ho)
    (fun u a v hu hi ha hs ho w => ?_)
  by_contra hn
  have hb := basic hu
  have hl : v.gui.inLoop = true := (Bool.and_eq_true_iff.1 ho).1
  rcases step_willAsk hb hs hl (by simpa using hn) with hw | ⟨rfl, htake⟩
  · rcases step_owes hs ho with hold | ⟨rfl, k, hk, hpos⟩
    · rw [hi hold w] at hw; cases hw
    · rw [ha.1 rfl k hk hpos w] at hw; cases hw
  · rcases step_owes hs ho with hold | ⟨hact, -⟩
    · rw [ha.2 w rfl htake] at hold; cases hold
    · cases hact

/-! ## The end of a Send click -/

/-- Steps a worker makes on its own to the release of the mutex it holds; none in `callbackLog`. -/
def SendPc.due : SendPc → Nat
  | .sink _ _ _ _ .done => 1
  | .sink _ _ .callback _ _ => 0
  | .sink _ _ _ _ .enter => 2
  | _ => 0

def due (s : State) (w : Worker) : Nat := (pos s (.worker w)).elim 0 SendPc.due

theorem due_of_pos {s s' : State} {w : Worker} (h : pos s' (.worker w) = pos s (.worker w)) : due s' w = due s w := by
  unfold due
  rw [h]

theorem due_nextSink (lvl line : CString) (ks : List Sink) : (nextSink lvl line ks).due = 0 := by cases ks <;> rfl

/-- A worker about to release a mutex comes nearer to it, and takes none. -/
theorem sendStep_due {E : Env} {t : Sender} {m : Mem} {p : SendPc} (hd : 0 < p.due) :
    p.takesCallback m = false ∧ ∃ m' q, sendStep E t m p = some (m', some q) ∧ q.due < p.due := by
  cases p with
  | sink lvl line k rest c =>
    refine ⟨rfl, ?_⟩
    cases c with
    | done => exact ⟨_, _, rfl, by rw [due_nextSink]; exact hd⟩
    | enter =>
      cases k with
      | callback => cases hd
      | _ => exact ⟨_, _, rfl, Nat.lt_succ_self 1⟩
    | _ => cases k <;> cases hd
  | _ => cases hd

theorem suspends_setPc (s : State) (m : Mem) (w v : Worker) (pc : ThreadPc) :
    (({ s with mem := m }.setPc w pc).thread v).suspends = (s.thread v).suspends := by
  by_cases hv : v = w
  · subst hv; simp [setPc_eq]
  · simp [setPc_eq, hv]

theorem work_of_send {E : Env} {s : State} {w : Worker} {rest : List Row} {p q : SendPc} {m : Mem}
    (hsus : (s.thread w).suspends = 0) (hpc : (s.thread w).pc = .send rest p)
    (hs : sendStep E (.worker w) s.mem p = some (m, some q)) :
    step E s (.work w) = some ({ s with mem := m }.setPc w (.send rest q)) := by
  simp only [step, hsus, ↓reduceIte, workerStep, hpc, hs]

theorem release_step {E : Env} {s : State} {w : Worker} (hsus : ∀ v, (s.thread v).suspends = 0) (hd : 0 < due s w) :
    ∃ s', step E s (.work w) = some s' ∧ Apart E s (.work w) ∧ s'.gui = s.gui ∧ (∀ v, (s'.thread v).suspends = 0) ∧
      due s' w < due s w ∧ ∀ v, v ≠ w → pos s' (.worker v) = pos s (.worker v) := by
  cases hp : pos s (.worker w) with
  | none => simp [due, hp] at hd
  | some p =>
    obtain ⟨rest, hpc⟩ := pc_of_pos hp
    have hdp : 0 < p.due := by simpa [due, hp] using hd
    obtain ⟨htake, m, q, hs, hlt⟩ := sendStep_due (E := E) (t := .worker w) (m := s.mem) hdp
    have hpos := pos_setPc s m w (.send rest q)
    refine ⟨{ s with mem := m }.setPc w (.send rest q), work_of_send (hsus w) hpc hs,
      ⟨fun h => (by cases h), fun v hv => ?_⟩, rfl, fun v => ?_, ?_, fun v hv => ?_⟩
    · cases hv
      rw [hp, Option.any_some, htake]
      intro h
      cases h
    · rw [suspends_setPc]; exact hsus v
    · unfold due
      rw [hpos, hp, Function.update_self]
      exact hlt
    · rw [hpos, Function.update_of_ne (by simpa using hv)]

theorem due_of_clear {s : State} (hp : Placed s) {w : Worker} {k : Sink} (hd : due s w = 0)
    (hk : owns s (.worker w) = some k) : k = .callback ∧ (pos s (.worker w)).any SendPc.inCallbackLog = true := by
  cases hpos : pos s (.worker w) with
  | none => simp [owns, hpos] at hk
  | some p =>
    have hpl := hp (.worker w) p hpos
    have hd' : p.due = 0 := by simpa [due, hpos] using hd
    have hk' : p.owns = some k := by simpa [owns, hpos] using hk
    cases p with
    | sink lvl line j rest c =>
      cases hk'
      cases c with
      | done => cases hd'
      | enter => cases k <;> first | exact ⟨rfl, rfl⟩ | cases hd'
      | _ =>
        have hcb : k = .callback := by simpa [SendPc.placed] using hpl
        subst hcb
        exact ⟨rfl, rfl⟩
    | _ => cases hk'

theorem inLoop_of_needs {E : Env} {g : GuiPc} {k : Sink} (hin : g.inSendLogMsgCnt = true) (hk : g.needs E k = true) :
    g.inLoop = true := by
  cases g <;> first | rfl | (cases hin; done) | cases hk

theorem owes_of_waitsCallback {E : Env} {s : State} (h : (pos s .gui).any SendPc.waitsCallback = true) :
    s.gui.owes E = true := by
  cases hg : s.gui with
  | sending lvl msg i nCnt p =>
    have hp : p.waitsCallback = true := by simpa [pos, hg, GuiPc.pos] using h
    cases p with
    | wait l x k rest =>
      cases k with
      | callback => simp [GuiPc.owes, GuiPc.inLoop, GuiPc.needs, SendPc.needs]
      | _ => cases hp
    | _ => cases hp
  | _ => simp [pos, hg, GuiPc.pos] at h

/-- The workers, on their own, release every mutex but the one they are in `callbackLog` with. -/
theorem release {E : Env} {m : Members} {b : Boxes} {s : State} (h : Reached E (Apart E) m b s)
    (hsus : ∀ w, (s.thread w).suspends = 0) :
    ∃ s', Lts.Reach (step E) (Apart E) s s' ∧ s'.gui = s.gui ∧ (∀ w, (s'.thread w).suspends = 0) ∧
      ∀ w, due s' w = 0 := by
  have hlower : ∀ u, (Reached E (Apart E) m b u ∧ u.gui = s.gui ∧ ∀ v, (u.thread v).suspends = 0) →
      ¬ (∀ w, due u w = 0) → ∃ v, Lts.Reach (step E) (Apart E) u v ∧
        (Reached E (Apart E) m b v ∧ v.gui = s.gui ∧ ∀ w, (v.thread w).suspends = 0) ∧
        due v .sendThread + due v .sendThread2 < due u .sendThread + due u .sendThread2 := by
    rintro u ⟨hu, hg, hsu⟩ hn
    obtain ⟨w, hw⟩ := not_forall.1 hn
    obtain ⟨v, hstep, ha, hgv, hsv, hlt, hother⟩ := release_step (E := E) hsu (Nat.pos_of_ne_zero hw)
    refine ⟨v, .one (.work w) ha hstep, ⟨hu.snoc (.work w) ha hstep, hgv.trans hg, hsv⟩, ?_⟩
    cases w with
    | sendThread => rw [due_of_pos (hother .sendThread2 (by decide))]; omega
    | sendThread2 => rw [due_of_pos (hother .sendThread (by decide))]; omega
  obtain ⟨s', hr, ⟨-, hg, hs'⟩, hF⟩ :=
    Lts.Reach.of_rank (fun u => due u .sendThread + due u .sendThread2) hlower s ⟨h, rfl, hsus⟩
  exact ⟨s', hr, hg, hs', hF⟩

/-- **While the callback sink's mutex is kept apart from the loops of the Send clicks**, the GUI thread and a worker do
not wait for each other, and a Send click that has entered its loop while the workers run can always be brought to its
end. -/
theorem reached_noCircularWait {E : Env} {m : Members} {b : Boxes} {s : State} (h : Reached E (Apart E) m b s) :
    ¬ CircularWait s ∧
      (s.gui.inSendLogMsgCnt = true → (∀ w, (s.thread w).suspends = 0) →
        ∃ s', Lts.Reach (step E) (Apart E) s s' ∧ s'.gui = .idle) := by
  refine ⟨?_, fun hin hsus => ?_⟩
  · rintro ⟨hwait, w, -, hasks⟩
    have := apart h (owes_of_waitsCallback hwait) w
    rw [State.willAsk, hasks] at this
    cases this
  · obtain ⟨u, hru, hgu, hsusu, hdue⟩ := release h hsus
    have hu := h.trans hru
    have hclear : Clear E u := by
      intro w k hk
      obtain ⟨rfl, hlog⟩ := due_of_clear (placed hu) (hdue w) hk
      by_contra hn
      have hneed : u.gui.needs E .callback = true := by simpa using hn
      have howes : u.gui.owes E = true := by
        rw [GuiPc.owes, inLoop_of_needs (by rw [hgu]; exact hin) hneed, hneed]
        rfl
      have := apart hu howes w
      rw [State.willAsk, hlog, decide_eq_true (hsusu w), Bool.and_true, Bool.or_true] at this
      cases this
    have hI : ∀ u v, Reached E Lts.anyStep m b u → (u.gui.inSendLogMsgCnt = true ∨ u.gui = .idle) →
        guiStep E u = some v → v.gui.inSendLogMsgCnt = true ∨ v.gui = .idle := by
      intro u v _ hu hv
      rcases hu with hu | hu
      · exact inSendLogMsgCnt_of_move hu (guiStep_move hv)
      · simp [guiStep, hu] at hv
    have hP : ∀ u : State, (u.gui.inSendLogMsgCnt = true ∨ u.gui = .idle) → Apart E u .gui := by
      intro u hu
      refine ⟨fun _ k hk => ?_, fun w hw => by cases hw⟩
      rcases hu with hu | hu
      · cases hg : u.gui <;> rw [hg] at hu hk <;> first | cases hk | cases hu
      · rw [hu] at hk; cases hk
    obtain ⟨s', hr, hi, hsettled⟩ := gui_alone hI hP hu.any hclear (.inl (by rw [hgu]; exact hin))
    exact ⟨s', hru.trans hr, idle_of_settled (hi.imp inSend_of_inSendLogMsgCnt id) hsettled⟩

/-- A click on Send-1 with `sendThread` between two rows, up to its first wait for a mutex. -/
theorem reached_noCircularWait_clicked :
    ∃ s, Reached spdEnv (Apart spdEnv) (initMsgs 41) (initMsgs 41).shown s ∧ ¬ CircularWait s ∧
      ∃ s', Lts.Reach (step spdEnv) (Apart spdEnv) s s' ∧ s'.gui = .idle := by
  obtain ⟨s, hr, hin, hsus⟩ := exists_reached (Apart spdEnv)
    (fun s => s.gui.inSendLogMsgCnt = true ∧ ∀ w, (s.thread w).suspends = 0)
    (checkClick ++ toRead .sendThread ++ List.replicate 4 (.work .sendThread) ++ [.click (.send 0)] ++
      List.replicate 37 .gui) (by decide +kernel)
  exact ⟨s, hr, (reached_noCircularWait hr).1, (reached_noCircularWait hr).2 hin hsus⟩

/-- A click on Send-1 while `sendThread` is in `callbackLog`. -/
theorem circularWait_clicked :
    ∃ s, Reached spdEnv Lts.anyStep (initMsgs 41) (initMsgs 41).shown s ∧ CircularWait s :=
  exists_reached Lts.anyStep CircularWait
    (checkClick ++ toRead .sendThread ++ List.replicate 11 (.work .sendThread) ++ [.click (.send 0)] ++
      List.replicate 43 .gui) (by decide +kernel)

end LogMaker
