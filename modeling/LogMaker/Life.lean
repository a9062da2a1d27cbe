import LogMaker.Senders
/-!
# Life — the workers as threads that are started, suspended, resumed, and that end

`step_life` says once what a step can do to the workers: a worker executes a statement, or has a message answered; the
handler starts or suspends one, sets or clears `m_bSendRep`, or `closeAll` deletes the first one's `CWinThread`; anything
else leaves them alone.  `halts` is what the handler has done so far: whether it has a worker stopped.
-/
namespace LogMaker

/-- Whether the check box, as of this position of the GUI thread, has a worker stopped. -/
def GuiPc.halts (checked : Bool) (w : Worker) : GuiPc → Bool
  | .exchange .check _ | .invalid .check | .ifChecked => checked
  | .labelStop | .setFlag | .start .sendThread => true
  | .start .sendThread2 => w = .sendThread2
  | .clearFlag | .labelRep | .suspend .sendThread => false
  | .suspend .sendThread2 => w = .sendThread
  | .report | .reportCnt _ | .reportBox _ => true
  | _ => !checked

/-- What `m_bSendRep` is at a position of the GUI thread. -/
def GuiPc.flag (checked : Bool) : GuiPc → Bool
  | .exchange .check _ | .invalid .check | .ifChecked => !checked
  | .labelStop | .setFlag | .labelRep | .suspend _ | .report | .reportCnt _ | .reportBox _ => false
  | .start _ | .clearFlag => true
  | _ => checked

def State.halts (s : State) (w : Worker) : Bool := s.gui.halts s.checked w

/-- A check click is on its way and has not come to this worker. -/
def GuiPc.starting (checked : Bool) (w : Worker) : GuiPc → Bool
  | .exchange .check _ | .invalid .check | .ifChecked => checked
  | .labelStop | .setFlag | .start .sendThread => true
  | .start .sendThread2 => w = .sendThread2
  | _ => false

def State.starting (s : State) (w : Worker) : Bool := s.gui.starting s.checked w

/-- What a step can do to the workers. -/
inductive LifeMove (s : State) (a : Act) (s' : State) : Prop where
  | worker (w : Worker) (m : Mem) (pc : ThreadPc) (deletes : Nat) (ha : a.worker? = some w)
      (hr : a = .answer w ∧ pc.looping = true ∨ (s.thread w).suspends = 0) (hm : PcMove s w pc deletes)
      (hs : s' = { s with mem := m }.setThread w { s.thread w with pc := pc, deletes := deletes })
  | start (w : Worker) (ha : a = .gui) (hg : s.gui = .start w)
      (hs : s' = { s with gui := afterStart w }.setThread w
        (if (s.thread w).ptr then (s.thread w).resume else (s.thread w).begin))
  | suspend (w : Worker) (ha : a = .gui) (hg : s.gui = .suspend w)
      (hs : s' = { s with gui := afterSuspend w }.setThread w
        (if (s.thread w).ptr then (s.thread w).suspend else s.thread w))
  | delete (c : Closing) (ha : a = .gui) (hg : s.gui = .deleteThread c)
      (hs : s' = { s with gui := afterClose c }.setThread .sendThread (s.thread .sendThread).delete)
  | setFlag (ha : a = .gui) (hg : s.gui = .setFlag) (hs : s' = { s with bSendRep := true, gui := .start .sendThread })
  | clearFlag (ha : a = .gui) (hg : s.gui = .clearFlag) (hs : s' = { s with bSendRep := false, gui := .labelRep })
  | rest (ha : a.worker? = none) (ht : s'.thread = s.thread) (hf : s'.bSendRep = s.bSendRep)
      (hh : ∀ w, s'.halts w = s.halts w) (hfl : s'.gui.flag s'.checked = s.gui.flag s.checked)
      (hst : ∀ w, s'.starting w = true → s.starting w = true ∨ a = .click .check ∧ s.gui = .idle ∧ s.checked = false)

/-- The branch the GUI thread is in is the one for the state of the check box, or of `m_pThreadSend`. -/
def GuiPc.sided (checked ptr : Bool) : GuiPc → Bool
  | .labelStop | .setFlag | .start _ => checked
  | .clearFlag | .labelRep | .suspend _ | .report | .reportCnt _ | .reportBox _ => !checked
  | .getExitCode _ | .deleteThread _ => ptr
  | _ => true

def State.sided (s : State) : Bool := s.gui.sided s.checked (s.thread .sendThread).ptr

theorem life_rest {s s' : State} {a : Act} (ha : a.worker? = none) (ht : s'.thread = s.thread)
    (hf : s'.bSendRep = s.bSendRep) (hc : s'.checked = s.checked)
    (hh : ∀ w, s'.gui.halts s.checked w = s.gui.halts s.checked w) (hfl : s'.gui.flag s.checked = s.gui.flag s.checked)
    (hst : ∀ w, s'.gui.starting s.checked w = true → s.gui.starting s.checked w = true) : LifeMove s a s' :=
  .rest ha ht hf (fun w => by unfold State.halts; rw [hc, hh w]) (by rw [hc, hfl])
    (fun w h => .inl (hst w (by unfold State.starting at h; rwa [hc] at h)))

theorem move_life {E : Env} {s s' : State} {g : GuiPc} (hi : s.sided = true) (hg : s.gui = g) (h : GuiMove E s g s') :
    LifeMove s .gui s' := by
  cases h with
  | start w => exact .start w rfl hg rfl
  | suspend w => exact .suspend w rfl hg rfl
  | deleteThread c => exact .delete c rfl hg rfl
  | setFlag => exact .setFlag rfl hg rfl
  | clearFlag => exact .clearFlag rfl hg rfl
  | field hd | abort hd | updated hd | dismissed hd =>
    cases hd <;> exact life_rest rfl rfl rfl rfl (fun _ => by rw [hg]; rfl) (by rw [hg]; rfl)
      (fun _ h => by rw [hg]; exact h)
  | send _ _ _ _ _ _ q =>
    cases q <;> exact life_rest rfl rfl rfl rfl (fun _ => by rw [hg]; rfl) (by rw [hg]; rfl)
      (fun _ h => by rw [hg]; exact h)
  | closeNull c =>
    cases c <;> exact life_rest rfl rfl rfl rfl (fun _ => by rw [hg]; rfl) (by rw [hg]; rfl)
      (fun _ h => by rw [hg]; exact h)
  -- the two branches: the box is checked exactly when the workers were stopped
  | checked hc | unchecked hc =>
    exact life_rest rfl rfl rfl rfl (fun _ => by rw [hg, hc]; rfl) (by rw [hg, hc]; rfl)
      (fun _ h => by rw [hc] at h ⊢; rw [hg]; exact h)
  | reportBox v =>
    have hc : s.checked = false := by simpa [State.sided, hg, GuiPc.sided] using hi
    exact life_rest rfl rfl rfl rfl (fun _ => by rw [hg, hc]; rfl) (by rw [hg, hc]; rfl)
      (fun _ h => by rw [hg]; exact h)
  | _ =>
    exact life_rest rfl rfl rfl rfl (fun _ => by rw [hg]; rfl) (by rw [hg]; rfl) (fun _ h => by rw [hg]; exact h)

theorem click_life {s : State} (c : Click) (hg : s.gui = .idle) : LifeMove s (.click c) (s.click c) := by
  cases c with
  | check =>
    refine .rest rfl rfl rfl (fun w => ?_) ?_ (fun w h => .inr ⟨rfl, hg, ?_⟩)
    · unfold State.halts
      rw [hg]
      rfl
    · rw [hg]
      cases hc : s.checked <;> simp [State.click, GuiPc.flag, hc]
    · have h' : (!s.checked) = true := h
      simpa using h'
  | _ =>
    exact life_rest rfl rfl rfl rfl (fun _ => by rw [hg]; rfl) (by rw [hg]; rfl) (fun _ h => by rw [hg]; exact h)

/-- **What any step does to the workers.** -/
theorem step_life {E : Env} {s s' : State} {a : Act} (hi : s.sided = true) (h : step E s a = some s') :
    LifeMove s a s' := by
  cases step_move h with
  | click c ha hg hs => subst ha hs; exact click_life c hg
  | edit b ha hg hs =>
    subst ha hs
    exact life_rest rfl rfl rfl rfl (fun _ => by rw [hg]) (by rw [hg]) (fun _ h => h)
  | gui ha h => subst ha; exact move_life hi rfl (guiStep_move h)
  | worker w m pc d ha hr hm hs => exact .worker w m pc d ha hr hm hs

/-! ## What holds in every run -/

theorem sided_of_move {E : Env} {s s' : State} {g : GuiPc} (hg : s.gui = g) (hi : s.sided = true)
    (h : GuiMove E s g s') : s'.sided = true := by
  unfold State.sided at hi
  rw [hg] at hi
  cases h with
  | updated hd | dismissed hd => cases hd <;> rfl
  | send _ _ _ _ _ _ q => cases q <;> rfl
  | checked hc => exact hc
  | unchecked hc => simp [State.sided, GuiPc.sided, hc]
  | start w => cases w <;> first | rfl | exact hi
  | suspend w => cases w <;> exact hi
  | closePtr c hp => exact hp
  | closeNull c | deleteThread c => cases c <;> rfl
  | _ => first | rfl | exact hi

/-- What holds of every run: the GUI thread is in the branch for the check box and the pointer, `m_bSendRep` is what
its position says, a pointer that is not set has no thread behind it, and a thread is created once. -/
structure Basic (s : State) : Prop where
  sided : s.sided = true
  flag : s.bSendRep = s.gui.flag s.checked
  unset : ∀ w, (s.thread w).ptr = false → s.thread w = .unset
  set : ∀ w, (s.thread w).ptr = true → (s.thread w).made = 1 ∧ (s.thread w).pc ≠ .absent

theorem resume_ptr (t : Thread) : t.resume.ptr = t.ptr := by unfold Thread.resume; split <;> rfl
theorem resume_made (t : Thread) : t.resume.made = t.made := by unfold Thread.resume; split <;> rfl
theorem suspend_ptr (t : Thread) : t.suspend.ptr = t.ptr := by unfold Thread.suspend; split <;> rfl
theorem suspend_made (t : Thread) : t.suspend.made = t.made := by unfold Thread.suspend; split <;> rfl

theorem pcMove_absent {s : State} {w : Worker} {pc : ThreadPc} {d : Nat} (h : PcMove s w pc d) :
    (s.thread w).pc ≠ .absent ∧ pc ≠ .absent := by
  cases h with
  | stay h h' => constructor <;> (intro he; simp [he, ThreadPc.looping] at h h')
  | leave h _ h' => constructor <;> simp [h, h']
  | finish h h' => constructor <;> simp [h, h']

theorem checked_of_start {s : State} {w : Worker} (hi : s.sided = true) (hg : s.gui = .start w) : s.checked = true := by
  simpa [State.sided, hg, GuiPc.sided] using hi

theorem checked_of_suspend {s : State} {w : Worker} (hi : s.sided = true) (hg : s.gui = .suspend w) :
    s.checked = false := by
  simpa [State.sided, hg, GuiPc.sided] using hi

theorem ptr_of_deleteThread {s : State} {c : Closing} (hi : s.sided = true) (hg : s.gui = .deleteThread c) :
    (s.thread .sendThread).ptr = true := by
  simpa [State.sided, hg, GuiPc.sided] using hi

/-- **What holds of each worker's thread holds after a step** if the worker's own moves keep it, and `ResumeThread`,
`AfxBeginThread`, `SuspendThread` and `delete` where the handlers call them. -/
theorem forall_thread_step {E : Env} {R : Worker → Thread → Prop} {s s' : State} {a : Act} (hsided : s.sided = true)
    (h : step E s a = some s') (hi : ∀ w, R w (s.thread w))
    (hworker : ∀ w pc d, a.worker? = some w → PcMove s w pc d → R w { s.thread w with pc := pc, deletes := d })
    (hresume : ∀ w, s.gui = .start w → (s.thread w).ptr = true → R w (s.thread w).resume)
    (hbegin : ∀ w, s.gui = .start w → (s.thread w).ptr = false → R w (s.thread w).begin)
    (hsuspend : ∀ w, s.gui = .suspend w → (s.thread w).ptr = true → R w (s.thread w).suspend)
    (hdelete : ∀ c, s.gui = .deleteThread c → s'.gui = afterClose c → R .sendThread (s.thread .sendThread).delete) :
    ∀ w, R w (s'.thread w) := by
  have hset : ∀ (w : Worker) (t : Thread), s'.thread = Function.update s.thread w t → R w t →
      ∀ v, R v (s'.thread v) := by
    intro w t ht hR
    rw [ht]
    exact (Function.forall_update_iff s.thread R).2 ⟨hR, fun v _ => hi v⟩
  cases step_life hsided h with
  | worker w m pc d ha hr hm hs => exact hset w _ (by rw [hs]; rfl) (hworker w pc d ha hm)
  | start w ha hg hs =>
    apply hset w _ (by rw [hs]; rfl)
    split
    · rename_i hp; exact hresume w hg hp
    · rename_i hp; exact hbegin w hg (by simpa using hp)
  | suspend w ha hg hs =>
    apply hset w _ (by rw [hs]; rfl)
    split
    · rename_i hp; exact hsuspend w hg hp
    · exact hi w
  | delete c ha hg hs =>
    have ht : s'.thread = Function.update s.thread .sendThread (s.thread .sendThread).delete := by rw [hs]; rfl
    exact hset .sendThread _ ht (hdelete c hg (by rw [hs]; rfl))
  | setFlag ha hg hs => rw [hs]; exact hi
  | clearFlag ha hg hs => rw [hs]; exact hi
  | rest ha ht => rw [ht]; exact hi

theorem step_sided {E : Env} {s s' : State} {a : Act} (hi : s.sided = true) (h : step E s a = some s') :
    s'.sided = true := by
  cases step_move h with
  | click c ha hg hs => subst hs; cases c <;> rfl
  | edit b ha hg hs => subst hs; exact hi
  | gui ha h => exact sided_of_move rfl hi (guiStep_move h)
  | worker w m pc d ha hr hm hs =>
    subst hs
    unfold State.sided at hi ⊢
    cases w <;> exact hi

theorem step_flag {E : Env} {s s' : State} {a : Act} (hi : s.sided = true) (hf : s.bSendRep = s.gui.flag s.checked)
    (h : step E s a = some s') : s'.bSendRep = s'.gui.flag s'.checked := by
  cases step_life hi h with
  | worker w m pc d ha hr hm hs => subst hs; exact hf
  | start w ha hg hs =>
    subst hs
    show s.bSendRep = (afterStart w).flag s.checked
    rw [hf, hg, checked_of_start hi hg]
    cases w <;> rfl
  | suspend w ha hg hs =>
    subst hs
    show s.bSendRep = (afterSuspend w).flag s.checked
    rw [hf, hg]
    cases w <;> rfl
  | delete c ha hg hs =>
    subst hs
    show s.bSendRep = (afterClose c).flag s.checked
    rw [hf, hg]
    cases c <;> rfl
  | setFlag ha hg hs => subst hs; rfl
  | clearFlag ha hg hs => subst hs; rfl
  | rest ha ht hf' hh hfl => rw [hf', hfl, hf]

theorem basic_step {E : Env} {s s' : State} {a : Act} (hb : Basic s) (h : step E s a = some s') : Basic s' := by
  have hthread : ∀ w, ((s'.thread w).ptr = false → s'.thread w = .unset) ∧
      ((s'.thread w).ptr = true → (s'.thread w).made = 1 ∧ (s'.thread w).pc ≠ .absent) := by
    refine forall_thread_step (R := fun _ t => (t.ptr = false → t = .unset) ∧
      (t.ptr = true → t.made = 1 ∧ t.pc ≠ .absent)) hb.sided h (fun w => ⟨hb.unset w, hb.set w⟩)
      (fun w pc d _ hm => ?_) (fun w _ hp => ?_) (fun w _ hp => ?_) (fun w _ hp => ?_) (fun c hg _ => ?_)
    · have hpc := pcMove_absent hm
      refine ⟨fun hp => ?_, fun hp => ⟨(hb.set w hp).1, hpc.2⟩⟩
      rw [hb.unset w hp] at hpc
      exact absurd rfl hpc.1
    · rw [resume_ptr, resume_made, resume_pc, hp]
      exact ⟨fun hf => (by cases hf), fun _ => hb.set w hp⟩
    · rw [hb.unset w hp]
      exact ⟨fun hf => (by cases hf), fun _ => ⟨rfl, by simp [Thread.begin]⟩⟩
    · rw [suspend_ptr, suspend_made, suspend_pc, hp]
      exact ⟨fun hf => (by cases hf), fun _ => hb.set w hp⟩
    · have hp := ptr_of_deleteThread hb.sided hg
      refine ⟨fun hf => ?_, fun _ => hb.set .sendThread hp⟩
      rw [show (s.thread .sendThread).ptr = false from hf] at hp
      cases hp
  exact ⟨step_sided hb.sided h, step_flag hb.sided hb.flag h, fun w => (hthread w).1, fun w => (hthread w).2⟩

/-- **Every reached state is in order.** -/
theorem basic {E : Env} {P : State → Act → Prop} {m : Members} {b : Boxes} {s : State}
    (h : Reached E P m b s) : Basic s :=
  h.inv ⟨rfl, rfl, fun _ _ => rfl, fun _ h => by cases h⟩ (fun _ _ _ _ hb _ hs => basic_step hb hs)

theorem Basic.ptrInv {s : State} (hb : Basic s) : PtrInv s := fun w hw => by rw [hb.unset w hw]; rfl

/-! ## One worker -/

/-- What a step can do to the position of one worker. -/
inductive ThreadCases (E : Env) (s : State) (a : Act) (s' : State) (w : Worker) : Prop where
  | work (hr : (s.thread w).suspends = 0) (h : WorkMove E s w a s')
  | answer (ha : a = .answer w) (hg : s.gui.pumps = true) (h : AnswerMove s w s')
  | started (ha : a = .gui) (hpc : (s.thread w).pc = .absent) (hpc' : (s'.thread w).pc = .test)
  | rest (ha : a.worker? ≠ some w) (hpc : (s'.thread w).pc = (s.thread w).pc)

theorem act_of_work {E : Env} {s s' : State} {a : Act} {w : Worker} (h : WorkMove E s w a s') : a.worker? = some w := by
  cases h <;> rfl

theorem work_other {E : Env} {s s' : State} {a : Act} {v w : Worker} (h : WorkMove E s v a s') (hw : w ≠ v) :
    s'.thread w = s.thread w := by
  cases h <;> simp [setPc_eq, hw]

theorem answer_other {s s' : State} {v w : Worker} (h : AnswerMove s v s') (hw : w ≠ v) :
    s'.thread w = s.thread w := by
  cases h <;> simp [setPc_eq, hw]

theorem gui_thread {E : Env} {s s' : State} (hb : Basic s) (h : step E s .gui = some s') (w : Worker) :
    ThreadCases E s .gui s' w := by
  have hset : ∀ (v : Worker) (t : Thread), s'.thread = Function.update s.thread v t → t.pc = (s.thread v).pc →
      ThreadCases E s .gui s' w := by
    intro v t ht hpc
    refine .rest (by simp [Act.worker?]) ?_
    rw [ht]
    by_cases hw : w = v
    · subst hw; simpa using hpc
    · simp [hw]
  cases step_life hb.sided h with
  | worker v m pc d ha => cases ha
  | start v ha hg hs =>
    by_cases hp : (s.thread v).ptr = true
    · exact hset v _ (by rw [hs]; rfl) (by rw [if_pos hp, resume_pc])
    · by_cases hw : w = v
      · subst hw
        refine .started rfl (hb.ptrInv w (by simpa using hp)) ?_
        rw [hs, setThread_thread, Function.update_self, if_neg hp]
        rfl
      · exact .rest (by simp [Act.worker?]) (by rw [hs, setThread_thread, Function.update_of_ne hw])
  | suspend v ha hg hs => exact hset v _ (by rw [hs]; rfl) (pc_suspend _)
  | delete c ha hg hs => exact hset .sendThread (s.thread .sendThread).delete (by rw [hs]; rfl) rfl
  | setFlag ha hg hs | clearFlag ha hg hs => exact .rest (by simp [Act.worker?]) (by rw [hs])
  | rest ha ht => exact .rest (by simp [Act.worker?]) (by rw [ht])

/-- **What any step does to one worker.** -/
theorem step_thread {E : Env} {s s' : State} {a : Act} (hb : Basic s) (h : step E s a = some s') (w : Worker) :
    ThreadCases E s a s' w := by
  cases step_cases h with
  | click c hg => exact .rest (by simp [Act.worker?]) (by cases c <;> rfl)
  | edit b hg => exact .rest (by simp [Act.worker?]) rfl
  | gui h => exact gui_thread hb h w
  | work v hr h =>
    by_cases hw : w = v
    · subst hw; exact .work hr h
    · exact .rest (by rw [act_of_work h]; simpa using Ne.symm hw) (by rw [work_other h hw])
  | answer v hg h =>
    by_cases hw : w = v
    · subst hw; exact .answer rfl hg h
    · exact .rest (by simpa [Act.worker?] using Ne.symm hw) (by rw [answer_other h hw])

end LogMaker
