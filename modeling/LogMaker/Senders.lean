import LogMaker.Moves
/-!
# Senders — the three threads as senders

`pos s t` is where thread `t` stands inside `sendLogMsg1`, if it is in one.  `step_sender` says once what a step can do
to the memory and these positions: a sender goes on, a thread calls `sendLogMsg1`, the GUI thread answers a message of
`callbackLog`, or only the count box changes.  Everything about the counter and the mutexes follows from it;
`step_pos` is what it says of one thread.
-/
namespace LogMaker

def GuiPc.pos : GuiPc → Option SendPc
  | .sending _ _ _ _ p => some p
  | _ => none

def ThreadPc.pos : ThreadPc → Option SendPc
  | .send _ p => some p
  | _ => none

def pos (s : State) : Sender → Option SendPc
  | .gui => s.gui.pos
  | .worker w => (s.thread w).pc.pos

def Sender.act : Sender → Act
  | .gui => .gui
  | .worker w => .work w

theorem sender?_act (t : Sender) : t.act.sender? = some t := by cases t <;> rfl

theorem act_of_sender {t : Sender} {a : Act} (h : a.sender? = some t) : a = t.act := by cases a <;> cases h <;> rfl

inductive SenderMove (E : Env) (s : State) (a : Act) (s' : State) : Prop where
  | send (t : Sender) (p : SendPc) (q : Option SendPc) (ha : a = t.act) (hp : pos s t = some p)
      (hs : sendStep E t s.mem p = some (s'.mem, q)) (hpos : pos s' = Function.update (pos s) t q)
  | call (t : Sender) (lvl msg : CString) (ha : a = t.act) (hp : pos s t = none) (hm : s'.mem = s.mem)
      (hpos : pos s' = Function.update (pos s) t (some (.read lvl msg)))
  | answer (w : Worker) (p p' : SendPc) (ha : a = .answer w) (hg : s.gui.pumps = true)
      (hp : pos s (.worker w) = some p) (hs : answerStep s.mem p = some (s'.mem, p'))
      (hpos : pos s' = Function.update (pos s) (.worker w) (some p'))
  | rest (hm : ∃ str, s'.mem = { s.mem with sendCnt := str }) (hpos : pos s' = pos s)

@[simp] theorem setThread_mem (s : State) (w : Worker) (t : Thread) : (s.setThread w t).mem = s.mem := rfl
@[simp] theorem setThread_gui (s : State) (w : Worker) (t : Thread) : (s.setThread w t).gui = s.gui := rfl
@[simp] theorem setThread_bSendRep (s : State) (w : Worker) (t : Thread) : (s.setThread w t).bSendRep = s.bSendRep := rfl
@[simp] theorem setThread_checked (s : State) (w : Worker) (t : Thread) : (s.setThread w t).checked = s.checked := rfl
@[simp] theorem setThread_thread (s : State) (w : Worker) (t : Thread) :
    (s.setThread w t).thread = Function.update s.thread w t := rfl

theorem setPc_eq (s : State) (w : Worker) (pc : ThreadPc) :
    s.setPc w pc = s.setThread w { s.thread w with pc := pc } := rfl

theorem pos_of_gui {s s' : State} {q : Option SendPc} (ht : s'.thread = s.thread) (hg : s'.gui.pos = q) :
    pos s' = Function.update (pos s) .gui q := by
  funext t
  cases t with
  | gui => simpa [pos] using hg
  | worker w => simp [pos, ht]

theorem pos_of_same (s s' : State) (hg : s'.gui.pos = s.gui.pos) (ht : ∀ w, (s'.thread w).pc.pos = (s.thread w).pc.pos) :
    pos s' = pos s := by
  funext t
  cases t with
  | gui => exact hg
  | worker w => exact ht w

theorem pos_setPc (s : State) (m : Mem) (w : Worker) (pc : ThreadPc) :
    pos ({ s with mem := m }.setPc w pc) = Function.update (pos s) (.worker w) pc.pos := by
  funext t
  cases t with
  | gui => rfl
  | worker v =>
    by_cases hv : v = w
    · subst hv; simp [pos, setPc_eq]
    · simp [pos, setPc_eq, hv]

/-- A step that leaves the memory alone but for the count box, the GUI thread's position in a send, and the position of
every worker in one. -/
theorem move_rest {E : Env} {s s' : State} {a : Act} (hm : ∃ str, s'.mem = { s.mem with sendCnt := str })
    (hg : s'.gui.pos = s.gui.pos) (ht : ∀ w, (s'.thread w).pc.pos = (s.thread w).pc.pos) : SenderMove E s a s' :=
  .rest hm (pos_of_same s s' hg ht)

theorem pos_nextRow (rest : List Row) : (nextRow rest).pos = none := by cases rest <;> rfl

theorem pos_afterSend (lvl msg : CString) (i nCnt : UINT) (q : Option SendPc) : (afterSend lvl msg i nCnt q).pos = q := by
  cases q <;> rfl

theorem thread_pos_setThread {s : State} {w : Worker} {t : Thread} (h : t.pc.pos = (s.thread w).pc.pos) (v : Worker) :
    ((s.setThread w t).thread v).pc.pos = (s.thread v).pc.pos := by
  by_cases hv : v = w
  · subst hv; simpa using h
  · simp [hv]

theorem resume_pc (t : Thread) : t.resume.pc = t.pc := by unfold Thread.resume; split <;> rfl
theorem suspend_pc (t : Thread) : t.suspend.pc = t.pc := by unfold Thread.suspend; split <;> rfl

theorem pc_of_pos {s : State} {w : Worker} {p : SendPc} (h : pos s (.worker w) = some p) :
    ∃ rest, (s.thread w).pc = .send rest p := by
  have h' : (s.thread w).pc.pos = some p := h
  cases hpc : (s.thread w).pc <;> rw [hpc] at h' <;> cases h'
  exact ⟨_, rfl⟩

theorem pos_of_pc {s : State} {w : Worker} {rest : List Row} {p : SendPc} (h : (s.thread w).pc = .send rest p) :
    pos s (.worker w) = some p := by
  simp [pos, h, ThreadPc.pos]

/-- A pointer that is not set has no thread behind it. -/
def PtrInv (s : State) : Prop := ∀ w, (s.thread w).ptr = false → (s.thread w).pc = .absent

/-- A start leaves every position of a worker but that of one not yet created. -/
theorem pc_start {β : Type} {s : State} (hi : PtrInv s) (w : Worker) (f : ThreadPc → β) (hf : f .test = f .absent) :
    f (if (s.thread w).ptr then (s.thread w).resume else (s.thread w).begin).pc = f (s.thread w).pc := by
  split
  · rw [resume_pc]
  · rename_i hp
    rw [hi w (by simpa using hp)]
    exact hf

theorem pc_suspend (t : Thread) : (if t.ptr then t.suspend else t).pc = t.pc := by
  split
  · exact suspend_pc t
  · rfl

theorem move_sender {E : Env} {s s' : State} {g : GuiPc} (hi : PtrInv s) (hg : s.gui = g) (h : GuiMove E s g s') :
    SenderMove E s .gui s' := by
  have hs : ∃ str, s.mem = { s.mem with sendCnt := str } := ⟨s.mem.sendCnt, rfl⟩
  cases h with
  | updated hd | dismissed hd => cases hd <;> exact move_rest hs (by rw [hg]; rfl) (fun _ => rfl)
  | enter lvl msg i nCnt _ => exact .call .gui lvl msg rfl (by rw [pos, hg]; rfl) rfl (pos_of_gui rfl rfl)
  | send lvl msg i nCnt p m q hsend =>
    exact .send .gui p q rfl (by rw [pos, hg]; rfl) hsend (pos_of_gui rfl (pos_afterSend ..))
  | showCnt | reportCnt => exact move_rest ⟨_, rfl⟩ (by rw [hg]; rfl) (fun _ => rfl)
  | start w =>
    exact move_rest hs (by rw [hg]; cases w <;> rfl) (thread_pos_setThread (pc_start hi w ThreadPc.pos rfl))
  | suspend w =>
    exact move_rest hs (by rw [hg]; cases w <;> rfl) (thread_pos_setThread (congrArg ThreadPc.pos (pc_suspend _)))
  | closeNull c => exact move_rest hs (by rw [hg]; cases c <;> rfl) (fun _ => rfl)
  | deleteThread c => exact move_rest hs (by rw [hg]; cases c <;> rfl) (thread_pos_setThread rfl)
  | _ => exact move_rest hs (by rw [hg]; rfl) (fun _ => rfl)

theorem work_sender {E : Env} {s s' : State} {w : Worker} {a : Act} (h : WorkMove E s w a s') : SenderMove E s a s' := by
  have hs : ∃ str, s.mem = { s.mem with sendCnt := str } := ⟨s.mem.sendCnt, rfl⟩
  cases h with
  | test hpc =>
    refine move_rest hs rfl (thread_pos_setThread ?_)
    rw [hpc]
    split
    · exact pos_nextRow _
    · rfl
  | call r rest lvl msg hpc =>
    exact .call (.worker w) lvl msg rfl (by simp [pos, hpc, ThreadPc.pos]) rfl (pos_setPc s s.mem w _)
  | send rest p p' m hpc hsend =>
    exact .send (.worker w) p (some p') rfl (pos_of_pc hpc) hsend (pos_setPc s m w _)
  | sent rest p m hpc hsend =>
    refine .send (.worker w) p none rfl (pos_of_pc hpc) hsend ?_
    rw [pos_setPc, pos_nextRow]
  | argLevel _ _ _ hpc | argMsg _ _ _ hpc | format hpc | setCnt _ hpc | ret hpc =>
    exact move_rest hs rfl (thread_pos_setThread (by simp [hpc, ThreadPc.pos]))

theorem answer_sender {E : Env} {s s' : State} {w : Worker} (hg : s.gui.pumps = true) (h : AnswerMove s w s') :
    SenderMove E s (.answer w) s' := by
  cases h with
  | send rest p p' m hpc hs =>
    exact .answer w p p' rfl hg (pos_of_pc hpc) hs (pos_setPc s m w _)
  | waitCnt str hpc => exact move_rest ⟨_, rfl⟩ rfl (thread_pos_setThread (by simp [hpc, ThreadPc.pos]))

/-- **What any step does to the senders.** -/
theorem step_sender {E : Env} {s s' : State} {a : Act} (hi : PtrInv s) (h : step E s a = some s') :
    SenderMove E s a s' := by
  cases step_cases h with
  | click c hg =>
    refine move_rest ⟨s.mem.sendCnt, by cases c <;> rfl⟩ ?_ (fun _ => by cases c <;> rfl)
    rw [hg]
    cases c <;> rfl
  | edit b hg => exact move_rest ⟨s.mem.sendCnt, rfl⟩ rfl (fun _ => rfl)
  | gui h => exact move_sender hi rfl (guiStep_move h)
  | work w hr h => exact work_sender h
  | answer w hg h => exact answer_sender hg h

theorem guiStep_worker {E : Env} {s s' : State} (hi : PtrInv s) (h : guiStep E s = some s') (w : Worker) :
    pos s' (.worker w) = pos s (.worker w) := by
  cases move_sender hi rfl (guiStep_move h) with
  | send t p q ha hp hs hpos => cases t <;> [(rw [hpos, Function.update_of_ne (by simp)]); cases ha]
  | call t lvl msg ha hp hm hpos => cases t <;> [(rw [hpos, Function.update_of_ne (by simp)]); cases ha]
  | answer v p p' ha => cases ha
  | rest hm hpos => rw [hpos]

/-- A thread in a send goes on with it. -/
theorem act_in_send {E : Env} {s s' : State} {t : Sender} {p : SendPc} (hp : pos s t = some p)
    (h : step E s t.act = some s') :
    ∃ q, sendStep E t s.mem p = some (s'.mem, q) ∧ pos s' = Function.update (pos s) t q := by
  cases t with
  | gui =>
    have hg : ∃ lvl msg i nCnt, s.gui = .sending lvl msg i nCnt p := by
      unfold pos at hp
      cases hgs : s.gui <;> rw [hgs] at hp <;> cases hp
      exact ⟨_, _, _, _, rfl⟩
    obtain ⟨lvl, msg, i, nCnt, hg⟩ := hg
    simp only [Sender.act, step, guiStep, hg] at h
    split at h
    · cases h
    · rename_i m q hs
      cases h
      exact ⟨q, hs, pos_of_gui rfl (pos_afterSend ..)⟩
  | worker w =>
    obtain ⟨rest, hpc⟩ := pc_of_pos hp
    simp only [Sender.act, step] at h
    split at h
    · simp only [workerStep, hpc] at h
      split at h
      · cases h
      · rename_i m q hs
        cases h
        exact ⟨some q, hs, pos_setPc s m w _⟩
      · rename_i m hs
        cases h
        exact ⟨none, hs, by rw [pos_setPc, pos_nextRow]⟩
    · cases h

/-! ## One thread -/

/-- What a step can do to the position of one thread. -/
inductive PosMove (E : Env) (s : State) (a : Act) (s' : State) (t : Sender) : Prop where
  | send (p : SendPc) (q : Option SendPc) (ha : a = t.act) (hp : pos s t = some p)
      (hs : sendStep E t s.mem p = some (s'.mem, q)) (hpos : pos s' t = q)
  | call (lvl msg : CString) (ha : a = t.act) (hp : pos s t = none) (hpos : pos s' t = some (.read lvl msg))
  | answer (p p' : SendPc) (hg : s.gui.pumps = true) (hp : pos s t = some p)
      (hs : answerStep s.mem p = some (s'.mem, p')) (hpos : pos s' t = some p')
  | same (hpos : pos s' t = pos s t)

theorem step_pos {E : Env} {s s' : State} {a : Act} (hi : PtrInv s) (h : step E s a = some s') (t : Sender) :
    PosMove E s a s' t := by
  cases step_sender hi h with
  | send u p q ha hp hs hpos =>
    by_cases ht : t = u
    · subst ht; exact .send p q ha hp hs (by rw [hpos, Function.update_self])
    · exact .same (by rw [hpos, Function.update_of_ne ht])
  | call u lvl msg ha hp hm hpos =>
    by_cases ht : t = u
    · subst ht; exact .call lvl msg ha hp (by rw [hpos, Function.update_self])
    · exact .same (by rw [hpos, Function.update_of_ne ht])
  | answer w p p' ha hg hp hs hpos =>
    by_cases ht : t = .worker w
    · subst ht; exact .answer p p' hg hp hs (by rw [hpos, Function.update_self])
    · exact .same (by rw [hpos, Function.update_of_ne ht])
  | rest hm hpos => exact .same (by rw [hpos])

end LogMaker
