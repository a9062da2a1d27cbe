import LogMaker.Step
/-!
# Moves — what a step does

`GuiMove E s g s'` says what the statement at `g` does in the state `s`: where the handler goes on, with what it has
changed, and what the state before had to be like.  `SendMove` and `ReplyMove` say so of a send, `WorkMove` and
`AnswerMove` of a worker, and `StepCases` of every action.  What a step leaves of the handlers, the sends and the
threads follows from these by cases; a run that is made is evaluated with the step functions themselves.
-/
namespace LogMaker

variable {E : Env} {s s' : State} {g : GuiPc} {a : Act}

inductive GuiMove (E : Env) (s : State) : GuiPc → State → Prop where
  | field (hd : Handler) (f : Field) (fs : List Field) (m : Members)
      (hf : exchangeField E s.boxes s.members f = (m, none)) :
      GuiMove E s (.exchange hd (f :: fs)) { s with members := m, gui := .exchange hd fs }
  | abort (hd : Handler) (f : Field) (fs : List Field) (m : Members) (e : Abort)
      (hf : exchangeField E s.boxes s.members f = (m, some e)) :
      GuiMove E s (.exchange hd (f :: fs)) { s with members := m, gui := .invalid hd }
  | updated (hd : Handler) : GuiMove E s (.exchange hd []) (s.updated hd true)
  | dismissed (hd : Handler) : GuiMove E s (.invalid hd) (s.updated hd false)
  | enter (lvl msg : CString) (i nCnt : UINT) (hi : i < nCnt) :
      GuiMove E s (.loop lvl msg i nCnt) { s with gui := .sending lvl msg i nCnt (.read lvl msg) }
  | leave (lvl msg : CString) (i nCnt : UINT) (hi : ¬ i < nCnt) :
      GuiMove E s (.loop lvl msg i nCnt) { s with gui := .showCnt }
  | send (lvl msg : CString) (i nCnt : UINT) (p : SendPc) (m : Mem) (q : Option SendPc)
      (hs : sendStep E .gui s.mem p = some (m, q)) :
      GuiMove E s (.sending lvl msg i nCnt p) { s with mem := m, gui := afterSend lvl msg i nCnt q }
  | showCnt : GuiMove E s .showCnt { s with mem := { s.mem with sendCnt := formatD s.mem.cnt }, gui := .sendBox }
  | sendBox : GuiMove E s .sendBox { s with gui := .idle }
  | checked (hc : s.checked = true) : GuiMove E s .ifChecked { s with gui := .labelStop }
  | unchecked (hc : s.checked = false) : GuiMove E s .ifChecked { s with gui := .clearFlag }
  | labelStop : GuiMove E s .labelStop { s with label := "stop".toList, gui := .setFlag }
  | setFlag : GuiMove E s .setFlag { s with bSendRep := true, gui := .start .sendThread }
  | start (w : Worker) : GuiMove E s (.start w) ({ s with gui := afterStart w }.setThread w
      (if (s.thread w).ptr then (s.thread w).resume else (s.thread w).begin))
  | clearFlag : GuiMove E s .clearFlag { s with bSendRep := false, gui := .labelRep }
  | labelRep : GuiMove E s .labelRep { s with label := "send rep".toList, gui := .suspend .sendThread }
  | suspend (w : Worker) : GuiMove E s (.suspend w) ({ s with gui := afterSuspend w }.setThread w
      (if (s.thread w).ptr then (s.thread w).suspend else s.thread w))
  | report : GuiMove E s .report { s with gui := .reportCnt s.mem.cnt }
  | reportCnt (v : UINT) :
      GuiMove E s (.reportCnt v) { s with mem := { s.mem with sendCnt := formatD s.mem.cnt }, gui := .reportBox v }
  | reportBox (v : UINT) : GuiMove E s (.reportBox v) { s with gui := .idle }
  | closePtr (c : Closing) (hp : (s.thread .sendThread).ptr = true) :
      GuiMove E s (.closeAll c) { s with gui := .getExitCode c }
  | closeNull (c : Closing) (hp : (s.thread .sendThread).ptr = false) :
      GuiMove E s (.closeAll c) { s with gui := afterClose c }
  | getExitCode (c : Closing) : GuiMove E s (.getExitCode c) { s with gui := .deleteThread c }
  | deleteThread (c : Closing) : GuiMove E s (.deleteThread c)
      ({ s with gui := afterClose c }.setThread .sendThread (s.thread .sendThread).delete)
  | endDialog : GuiMove E s .endDialog { s with gui := .returned }
  | returned : GuiMove E s .returned { s with gui := .destroyed }

theorem guiStep_move (h : guiStep E s = some s') : GuiMove E s s.gui s' := by
  unfold guiStep at h
  split at h <;> rename_i hg
  case h_1 | h_24 => cases h
  case h_3 =>
    rw [hg]
    split at h
    · rename_i m hf; cases h; exact .field _ _ _ m hf
    · rename_i m e hf; cases h; exact .abort _ _ _ m e hf
  case h_5 =>
    rw [hg]
    cases h
    split
    · rename_i hi; exact .enter _ _ _ _ hi
    · rename_i hi; exact .leave _ _ _ _ hi
  case h_6 =>
    rw [hg]
    split at h
    · cases h
    · rename_i m q hs; cases h; exact .send _ _ _ _ _ m q hs
  case h_9 =>
    rw [hg]
    cases h
    split
    · rename_i hc; exact .checked hc
    · rename_i hc; exact .unchecked (by simpa using hc)
  case h_19 =>
    rw [hg]
    cases h
    split
    · rename_i hp; exact .closePtr _ hp
    · rename_i hp; exact .closeNull _ (by simpa using hp)
  all_goals
    rw [hg]
    cases h
    constructor

/-! ## A send -/

/-- What a thread does at a position of `sendLogMsg1`: what it leaves in memory, and where it is then. -/
inductive SendMove (E : Env) (m : Mem) : Sender → SendPc → Mem → Option SendPc → Prop where
  | read {t : Sender} (lvl msg : CString) : SendMove E m t (.read lvl msg) m (some (.write lvl msg m.cnt))
  | write {t : Sender} (lvl msg : CString) (n : UINT) :
      SendMove E m t (.write lvl msg n) { m with cnt := n + 1 } (some (.make lvl msg n))
  | make {t : Sender} (lvl msg : CString) (n : UINT) : SendMove E m t (.make lvl msg n) { m with nums := m.nums ++ [n] }
      (some (nextSink lvl (makeMsgBuf msg n) E.sinks))
  | take {t : Sender} (lvl line : CString) (k : Sink) (rest : List Sink) (hk : m.holder k = none) :
      SendMove E m t (.lock lvl line k rest) (m.take E t lvl line k) (some (.sink lvl line k rest .enter))
  | block {t : Sender} (lvl line : CString) (k : Sink) (rest : List Sink) (hk : m.holder k ≠ none) :
      SendMove E m t (.lock lvl line k rest) m (some (.wait lvl line k rest))
  | wake {t : Sender} (lvl line : CString) (k : Sink) (rest : List Sink) (hk : m.holder k = none) :
      SendMove E m t (.wait lvl line k rest) (m.take E t lvl line k) (some (.sink lvl line k rest .enter))
  | pass {t : Sender} (lvl line : CString) (k : Sink) (rest : List Sink) (hk : k ≠ .callback) :
      SendMove E m t (.sink lvl line k rest .enter) m (some (.sink lvl line k rest .done))
  | getText (lvl line : CString) (rest : List Sink) : SendMove E m .gui (.sink lvl line .callback rest .enter) m
      (some (.sink lvl line .callback rest (.got m.sentLogs)))
  | askText (w : Worker) (lvl line : CString) (rest : List Sink) :
      SendMove E m (.worker w) (.sink lvl line .callback rest .enter) m (some (.sink lvl line .callback rest .get))
  | setText (lvl line : CString) (k : Sink) (rest : List Sink) (str : CString) :
      SendMove E m .gui (.sink lvl line k rest (.got str)) { m with sentLogs := insertLine E lvl line str }
        (some (.sink lvl line k rest .done))
  | askSet (w : Worker) (lvl line : CString) (k : Sink) (rest : List Sink) (str : CString) :
      SendMove E m (.worker w) (.sink lvl line k rest (.got str)) m
        (some (.sink lvl line k rest (.set (insertLine E lvl line str))))
  | release {t : Sender} (lvl line : CString) (k : Sink) (rest : List Sink) :
      SendMove E m t (.sink lvl line k rest .done) (m.release k) (some (nextSink lvl line rest))
  | ret {t : Sender} (lvl line : CString) :
      SendMove E m t (.ret lvl line) { m with logged := m.logged ++ [toSpdLog lvl line] } (some .sleep)
  | sleep {t : Sender} : SendMove E m t .sleep m none

theorem sendStep_move {t : Sender} {m m' : Mem} {p : SendPc} {q : Option SendPc} (h : sendStep E t m p = some (m', q)) :
    SendMove E m t p m' q := by
  unfold sendStep at h
  split at h
  case h_4 lvl line k rest =>
    split at h
    · rename_i hk; cases h; exact .take lvl line k rest hk
    · rename_i u hk; cases h; exact .block lvl line k rest (by rw [hk]; exact Option.some_ne_none u)
  case h_5 lvl line k rest =>
    split at h
    · rename_i hk; cases h; exact .wake lvl line k rest hk
    · cases h
  case h_6 lvl line k rest =>
    split at h
    · rename_i hk
      subst hk
      split at h
      · cases h; exact .getText lvl line rest
      · rename_i w; cases h; exact .askText w lvl line rest
    · rename_i hk; cases h; exact .pass lvl line k rest hk
  case h_8 lvl line k rest str =>
    split at h
    · cases h; exact .setText lvl line k rest str
    · rename_i w; cases h; exact .askSet w lvl line k rest str
  case h_7 | h_9 => cases h
  all_goals
    cases h
    constructor

/-- What the dialog's answer does to a worker in `callbackLog`: it has the text of the log box, or has set it. -/
inductive ReplyMove (m : Mem) : SendPc → Mem → SendPc → Prop where
  | get (lvl line : CString) (k : Sink) (rest : List Sink) :
      ReplyMove m (.sink lvl line k rest .get) m (.sink lvl line k rest (.got m.sentLogs))
  | set (lvl line : CString) (k : Sink) (rest : List Sink) (str : CString) :
      ReplyMove m (.sink lvl line k rest (.set str)) { m with sentLogs := str } (.sink lvl line k rest .done)

theorem answerStep_move {m m' : Mem} {p p' : SendPc} (h : answerStep m p = some (m', p')) : ReplyMove m p m' p' := by
  unfold answerStep at h
  split at h
  · cases h; constructor
  · cases h; constructor
  · cases h

/-! ## The workers -/

/-- What worker `w` does at its position: where its thread goes on, and with what memory. -/
inductive WorkMove (E : Env) (s : State) (w : Worker) : Act → State → Prop where
  | test (hpc : (s.thread w).pc = .test) :
      WorkMove E s w (.work w) (s.setPc w (if s.bSendRep then nextRow w.rows else .ret))
  | argLevel (r : Row) (rest : List Row) (msg : Option CString) (hpc : (s.thread w).pc = .args r rest none msg) :
      WorkMove E s w (.argLevel w) (s.setPc w (.args r rest (some (s.members.strLevel r)) msg))
  | argMsg (r : Row) (rest : List Row) (lvl : Option CString) (hpc : (s.thread w).pc = .args r rest lvl none) :
      WorkMove E s w (.argMsg w) (s.setPc w (.args r rest lvl (some (s.members.strMsg r))))
  | call (r : Row) (rest : List Row) (lvl msg : CString) (hpc : (s.thread w).pc = .args r rest (some lvl) (some msg)) :
      WorkMove E s w (.work w) (s.setPc w (.send rest (.read lvl msg)))
  | send (rest : List Row) (p p' : SendPc) (m : Mem) (hpc : (s.thread w).pc = .send rest p)
      (hs : sendStep E (.worker w) s.mem p = some (m, some p')) :
      WorkMove E s w (.work w) ({ s with mem := m }.setPc w (.send rest p'))
  | sent (rest : List Row) (p : SendPc) (m : Mem) (hpc : (s.thread w).pc = .send rest p)
      (hs : sendStep E (.worker w) s.mem p = some (m, none)) :
      WorkMove E s w (.work w) ({ s with mem := m }.setPc w (nextRow rest))
  | format (hpc : (s.thread w).pc = .format) : WorkMove E s w (.work w) (s.setPc w (.setCnt s.mem.cnt))
  | setCnt (str : UINT) (hpc : (s.thread w).pc = .setCnt str) : WorkMove E s w (.work w) (s.setPc w (.waitCnt str))
  | ret (hpc : (s.thread w).pc = .ret) : WorkMove E s w (.work w)
      (s.setThread w { s.thread w with pc := .ended, deletes := (s.thread w).deletes + 1 })

/-- What the dialog's answer to worker `w` does: the box the message is about, and the worker goes on. -/
inductive AnswerMove (s : State) (w : Worker) : State → Prop where
  | send (rest : List Row) (p p' : SendPc) (m : Mem) (hpc : (s.thread w).pc = .send rest p)
      (hs : answerStep s.mem p = some (m, p')) : AnswerMove s w ({ s with mem := m }.setPc w (.send rest p'))
  | waitCnt (str : UINT) (hpc : (s.thread w).pc = .waitCnt str) :
      AnswerMove s w ({ s with mem := { s.mem with sendCnt := formatD str } }.setPc w .test)

/-- An action with what it needs: the dialog idle for the user's own, its messages pumped for an answer, and the thread
not suspended for a worker's. -/
inductive StepCases (E : Env) (s : State) : Act → State → Prop where
  | click (c : Click) (hg : s.gui = .idle) : StepCases E s (.click c) (s.click c)
  | edit (b : Boxes) (hg : s.gui = .idle) : StepCases E s (.edit b) { s with boxes := b }
  | gui {s' : State} (h : guiStep E s = some s') : StepCases E s .gui s'
  | work {a : Act} {s' : State} (w : Worker) (hr : (s.thread w).suspends = 0) (h : WorkMove E s w a s') :
      StepCases E s a s'
  | answer {s' : State} (w : Worker) (hg : s.gui.pumps = true) (h : AnswerMove s w s') : StepCases E s (.answer w) s'

theorem answer_move {w : Worker} (h : answer s w = some s') : AnswerMove s w s' := by
  unfold answer at h
  split at h
  · rename_i rest p hpc
    split at h
    · cases h
    · rename_i m p' hs
      cases h
      exact .send rest p p' m hpc hs
  · rename_i str hpc
    cases h
    exact .waitCnt str hpc
  · cases h

theorem argLevel_move {w : Worker} (h : argLevel s w = some s') : WorkMove E s w (.argLevel w) s' := by
  unfold argLevel at h
  split at h
  · rename_i r rest msg hpc
    cases h
    exact .argLevel r rest msg hpc
  · cases h

theorem argMsg_move {w : Worker} (h : argMsg s w = some s') : WorkMove E s w (.argMsg w) s' := by
  unfold argMsg at h
  split at h
  · rename_i r rest lvl hpc
    cases h
    exact .argMsg r rest lvl hpc
  · cases h

theorem workerStep_move {w : Worker} (h : workerStep E s w = some s') : WorkMove E s w (.work w) s' := by
  unfold workerStep at h
  split at h
  case h_1 hpc => cases h; exact .test hpc
  case h_2 r rest lvl msg hpc => cases h; exact .call r rest lvl msg hpc
  case h_3 rest p hpc =>
    split at h
    · cases h
    · rename_i m p' hs; cases h; exact .send rest p p' m hpc hs
    · rename_i m hs; cases h; exact .sent rest p m hpc hs
  case h_4 hpc => cases h; exact .format hpc
  case h_5 str hpc => cases h; exact .setCnt str hpc
  case h_6 hpc => cases h; exact .ret hpc
  case h_7 => cases h

/-! ## All actions -/

/-- **Every step of the program**, with what it needs and what it does. -/
theorem step_cases (h : step E s a = some s') : StepCases E s a s' := by
  cases a with
  | gui => exact .gui h
  | click c | edit b =>
    simp only [step] at h
    split at h
    · rename_i hg
      cases h
      constructor
      exact hg
    · cases h
  | answer w =>
    simp only [step] at h
    split at h
    · rename_i hg; exact .answer w hg (answer_move h)
    · cases h
  | argLevel w | argMsg w | work w =>
    simp only [step] at h
    split at h
    · rename_i hr
      refine .work w hr ?_
      first | exact argLevel_move h | exact argMsg_move h | exact workerStep_move h
    · cases h

/-- A live thread inside its sending loop. -/
def ThreadPc.looping : ThreadPc → Bool
  | .absent | .ret | .ended => false
  | _ => true

/-- What a worker's own step does to its thread: it stays in the loop, leaves it when `m_bSendRep` is cleared, or
returns, upon which its object is deleted. -/
inductive PcMove (s : State) (w : Worker) (pc : ThreadPc) (deletes : Nat) : Prop where
  | stay (h : (s.thread w).pc.looping = true) (h' : pc.looping = true) (hd : deletes = (s.thread w).deletes)
  | leave (h : (s.thread w).pc = .test) (hf : s.bSendRep = false) (h' : pc = .ret) (hd : deletes = (s.thread w).deletes)
  | finish (h : (s.thread w).pc = .ret) (h' : pc = .ended) (hd : deletes = (s.thread w).deletes + 1)

/-- What an action can do: the user's own, a statement of the GUI thread, or a step of a worker, which leaves everything
but the memory and its own thread. -/
inductive Move (E : Env) (s : State) (a : Act) (s' : State) : Prop where
  | click (c : Click) (ha : a = .click c) (hg : s.gui = .idle) (hs : s' = s.click c)
  | edit (b : Boxes) (ha : a = .edit b) (hg : s.gui = .idle) (hs : s' = { s with boxes := b })
  | gui (ha : a = .gui) (h : guiStep E s = some s')
  | worker (w : Worker) (m : Mem) (pc : ThreadPc) (deletes : Nat) (ha : a.worker? = some w)
      (hr : a = .answer w ∧ pc.looping = true ∨ (s.thread w).suspends = 0) (hm : PcMove s w pc deletes)
      (hs : s' = { s with mem := m }.setThread w { s.thread w with pc := pc, deletes := deletes })

theorem looping_nextRow (rest : List Row) : (nextRow rest).looping = true := by cases rest <;> rfl

/-- **What any step does**, the GUI thread's statements and the senders' apart. -/
theorem step_move (h : step E s a = some s') : Move E s a s' := by
  cases step_cases h with
  | click c hg => exact .click c rfl hg rfl
  | edit b hg => exact .edit b rfl hg rfl
  | gui h => exact .gui rfl h
  | work w hr h =>
    cases h with
    | test hpc =>
      refine .worker w s.mem _ _ rfl (.inr hr) ?_ rfl
      cases hf : s.bSendRep with
      | true => exact .stay (by rw [hpc]; rfl) (by simpa using looping_nextRow _) rfl
      | false => exact .leave hpc hf (by simp) rfl
    | sent rest p m hpc hs =>
      exact .worker w m _ _ rfl (.inr hr) (.stay (by rw [hpc]; rfl) (looping_nextRow _) rfl) rfl
    | ret hpc => exact .worker w s.mem _ _ rfl (.inr hr) (.finish hpc rfl rfl) rfl
    | argLevel _ _ _ hpc | argMsg _ _ _ hpc | call _ _ _ _ hpc | send _ _ _ _ hpc | format hpc | setCnt _ hpc =>
      exact .worker w _ _ _ rfl (.inr hr) (.stay (by rw [hpc]; rfl) rfl rfl) rfl
  | answer w hg h =>
    cases h with
    | send _ _ _ _ hpc | waitCnt _ hpc =>
      exact .worker w _ _ _ rfl (.inl ⟨rfl, rfl⟩) (.stay (by rw [hpc]; rfl) rfl rfl) rfl

/-! ## The controls -/

theorem controls_of_move (h : GuiMove E s g s') : s'.boxes = s.boxes ∧ s'.checked = s.checked := by
  cases h with
  | updated hd | dismissed hd => cases hd <;> exact ⟨rfl, rfl⟩
  | _ => exact ⟨rfl, rfl⟩

theorem guiStep_controls (h : guiStep E s = some s') : s'.boxes = s.boxes ∧ s'.checked = s.checked :=
  controls_of_move (guiStep_move h)

end LogMaker
