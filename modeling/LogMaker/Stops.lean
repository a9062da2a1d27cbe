import LogMaker.Life
/-!
# Stops — a worker the check box has stopped stays where it was stopped

While its object is not deleted, a live worker is suspended exactly when the check box has it stopped (`balanced`).  In
a run of Send and check box clicks no object of a live worker is deleted (`open_`), so a stopped worker does nothing but
have a message answered (`halted_answer`), and what holds of its position when it is suspended goes on holding
(`kept_step`).
-/
namespace LogMaker

/-- A thread that has been created and has not ended. -/
def ThreadPc.live : ThreadPc → Bool
  | .absent | .ended => false
  | _ => true

theorem live_of_looping {pc : ThreadPc} (h : pc.looping = true) : pc.live = true := by
  cases pc <;> first | rfl | cases h

theorem pcMove_live {s : State} {w : Worker} {pc : ThreadPc} {d : Nat} (h : PcMove s w pc d) :
    (s.thread w).pc.live = true ∧ (pc.live = true → d = (s.thread w).deletes) := by
  cases h with
  | stay h h' hd => exact ⟨live_of_looping h, fun _ => hd⟩
  | leave h _ h' hd => exact ⟨by rw [h]; rfl, fun _ => hd⟩
  | finish h h' hd => exact ⟨by rw [h]; rfl, fun hl => by rw [h'] at hl; cases hl⟩

/-! ## Suspend counts -/

def Balanced (s : State) : Prop :=
  ∀ w, (s.thread w).pc.live = true → (s.thread w).deletes = 0 → (s.thread w).suspends = if s.halts w then 1 else 0

theorem halts_of {s : State} {g : GuiPc} {c : Bool} (hg : s.gui = g) (hc : s.checked = c) (w : Worker) :
    s.halts w = g.halts c w := by
  unfold State.halts; rw [hg, hc]

/-- A start ends the stop of its worker, and of no other. -/
theorem halts_start {s : State} {w : Worker} (hi : s.sided = true) (hg : s.gui = .start w) (t : Thread) :
    s.halts w = true ∧ ({ s with gui := afterStart w }.setThread w t).halts w = false ∧
      ∀ v, v ≠ w → ({ s with gui := afterStart w }.setThread w t).halts v = s.halts v := by
  have hc := checked_of_start hi hg
  have hold := halts_of hg hc
  have hnew : ∀ v, ({ s with gui := afterStart w }.setThread w t).halts v = (afterStart w).halts true v :=
    fun v => halts_of (s := { s with gui := afterStart w }.setThread w t) rfl hc v
  refine ⟨?_, ?_, fun v hv => ?_⟩
  · rw [hold]; cases w <;> rfl
  · rw [hnew]; cases w <;> rfl
  · rw [hnew, hold]
    cases w <;> cases v <;> first | rfl | exact absurd rfl hv

/-- A `SuspendThread` begins the stop of its worker, and of no other. -/
theorem halts_suspend {s : State} {w : Worker} (hi : s.sided = true) (hg : s.gui = .suspend w) (t : Thread) :
    s.halts w = false ∧ ({ s with gui := afterSuspend w }.setThread w t).halts w = true ∧
      ∀ v, v ≠ w → ({ s with gui := afterSuspend w }.setThread w t).halts v = s.halts v := by
  have hc := checked_of_suspend hi hg
  have hold := halts_of hg hc
  have hnew : ∀ v, ({ s with gui := afterSuspend w }.setThread w t).halts v = (afterSuspend w).halts false v :=
    fun v => halts_of (s := { s with gui := afterSuspend w }.setThread w t) rfl hc v
  refine ⟨?_, ?_, fun v hv => ?_⟩
  · rw [hold]; cases w <;> rfl
  · rw [hnew]; cases w <;> rfl
  · rw [hnew, hold]
    cases w <;> cases v <;> first | rfl | exact absurd rfl hv

theorem halts_delete {s : State} {c : Closing} (hg : s.gui = .deleteThread c) (w : Worker) (t : Thread) (v : Worker) :
    ({ s with gui := afterClose c }.setThread w t).halts v = s.halts v := by
  rw [halts_of hg rfl, halts_of rfl rfl]
  cases c <;> rfl

theorem balanced_setThread {s s' : State} {w : Worker} {t : Thread} (hi : Balanced s)
    (ht : s'.thread = Function.update s.thread w t) (hh : ∀ v, v ≠ w → s'.halts v = s.halts v)
    (hw : t.pc.live = true → t.deletes = 0 → t.suspends = if s'.halts w then 1 else 0) : Balanced s' := by
  unfold Balanced
  rw [ht]
  refine (Function.forall_update_iff s.thread (fun v t => t.pc.live = true → t.deletes = 0 →
    t.suspends = if s'.halts v then 1 else 0)).2 ⟨hw, fun v hv => ?_⟩
  rw [hh v hv]
  exact hi v

theorem resume_deletes (t : Thread) : t.resume.deletes = t.deletes := by unfold Thread.resume; split <;> rfl
theorem suspend_deletes (t : Thread) : t.suspend.deletes = t.deletes := by unfold Thread.suspend; split <;> rfl

theorem balanced_step {E : Env} {s s' : State} {a : Act} (hb : Basic s) (hi : Balanced s)
    (h : step E s a = some s') : Balanced s' := by
  cases step_life hb.sided h with
  | worker w m pc d ha hr hm hs =>
    subst hs
    have hp := pcMove_live hm
    exact balanced_setThread hi rfl (fun _ _ => rfl) (fun hlive hdel => hi w hp.1 ((hp.2 hlive).symm.trans hdel))
  | start w ha hg hs =>
    subst hs
    obtain ⟨hold, hnew, hother⟩ := halts_start hb.sided hg
      (if (s.thread w).ptr then (s.thread w).resume else (s.thread w).begin)
    refine balanced_setThread hi rfl hother (fun hlive hdel => ?_)
    rw [hnew]
    split
    · rename_i hp
      rw [if_pos hp] at hlive hdel
      rw [resume_pc] at hlive
      rw [resume_deletes] at hdel
      have hsus := hi w hlive hdel
      rw [hold] at hsus
      simp [Thread.resume, hdel, hsus]
    · rfl
  | suspend w ha hg hs =>
    subst hs
    obtain ⟨hold, hnew, hother⟩ := halts_suspend hb.sided hg
      (if (s.thread w).ptr then (s.thread w).suspend else s.thread w)
    refine balanced_setThread hi rfl hother (fun hlive hdel => ?_)
    rw [hnew]
    split
    · rename_i hp
      rw [if_pos hp] at hlive hdel
      rw [suspend_pc] at hlive
      rw [suspend_deletes] at hdel
      have hsus := hi w hlive hdel
      rw [hold] at hsus
      simp [Thread.suspend, hdel, hsus]
    · rename_i hp
      rw [if_neg hp, hb.unset w (by simpa using hp)] at hlive
      cases hlive
  | delete c ha hg hs =>
    subst hs
    exact balanced_setThread hi rfl (fun v _ => halts_delete hg _ _ v) (fun _ hdel => by simp [Thread.delete] at hdel)
  | setFlag ha hg hs | clearFlag ha hg hs =>
    subst hs
    intro v hlive hdel
    have hsus := hi v hlive hdel
    rwa [halts_of hg rfl] at hsus
  | rest ha ht hf hh =>
    intro v hlive hdel
    rw [ht] at hlive hdel ⊢
    rw [hh v]
    exact hi v hlive hdel

/-- **Suspensions stay balanced** in every run. -/
theorem balanced {E : Env} {P : State → Act → Prop} {m : Members} {b : Boxes} {s : State} (h : Reached E P m b s) :
    Balanced s :=
  h.inv (fun _ h => by cases h) (fun _ _ _ hu hi _ hs => balanced_step (basic hu) hi hs)

/-- While `m_bSendRep` is set, a worker that is not stopped has been created. -/
def Made (s : State) : Prop := ∀ w, s.halts w = false → s.bSendRep = true → (s.thread w).ptr = true

theorem made_step {E : Env} {s s' : State} {a : Act} (hb : Basic s) (hi : Made s) (h : step E s a = some s') :
    Made s' := by
  cases step_life hb.sided h with
  | worker w m pc d ha hr hm hs =>
    subst hs
    exact (Function.forall_update_iff s.thread (fun v t => s.halts v = false → s.bSendRep = true → t.ptr = true)).2
      ⟨hi w, fun v _ => hi v⟩
  | start w ha hg hs =>
    subst hs
    have hold : s.bSendRep = true := hb.flag.trans (by rw [hg]; rfl)
    intro v hh _
    rw [setThread_thread]
    by_cases hv : v = w
    · subst hv
      rw [Function.update_self]
      split
      · rename_i hp; exact (resume_ptr _).trans hp
      · rfl
    · rw [(halts_start hb.sided hg _).2.2 v hv] at hh
      rw [Function.update_of_ne hv]
      exact hi v hh hold
  | suspend w ha hg hs =>
    subst hs
    have hold : s.bSendRep = false := hb.flag.trans (by rw [hg]; rfl)
    intro v _ hf
    rw [show s.bSendRep = true from hf] at hold
    cases hold
  | delete c ha hg hs =>
    subst hs
    intro v hh hf
    rw [halts_delete hg] at hh
    have hp := hi v hh hf
    rw [setThread_thread]
    by_cases hv : v = .sendThread
    · subst hv; rw [Function.update_self]; exact hp
    · rw [Function.update_of_ne hv]; exact hp
  | setFlag ha hg hs => intro v hh _; rw [hs] at hh; cases hh
  | clearFlag ha hg hs => intro v _ hf; rw [hs] at hf; cases hf
  | rest ha ht hf hh =>
    intro v hhv hfv
    rw [ht]
    exact hi v (by rw [← hh v]; exact hhv) (by rw [← hf]; exact hfv)

/-- **A check click has created both workers** when it has started them. -/
theorem made {E : Env} {P : State → Act → Prop} {m : Members} {b : Boxes} {s : State} (h : Reached E P m b s) : Made s :=
  h.inv (fun _ _ hf => by cases hf) (fun _ _ _ hu hi _ hs => made_step (basic hu) hi hs)

/-! ## Runs in which the dialog stays open -/

def Act.checks : Act → Bool
  | .click .check => true
  | _ => false

def Act.closes : Act → Bool
  | .click .ok | .click .close | .click .cancel => true
  | _ => false

/-- The positions from such a click on. -/
def GuiPc.closing : GuiPc → Bool
  | .exchange .ok _ | .invalid .ok | .closeAll _ | .getExitCode _ | .deleteThread _ => true
  | .endDialog | .returned | .destroyed => true
  | _ => false

/-- What holds while the dialog is not being closed. -/
structure Open (s : State) : Prop where
  gui : s.gui.closing = false
  kept : ∀ w, (s.thread w).pc.live = true → (s.thread w).deletes = 0

theorem closing_of_move {E : Env} {s s' : State} {g : GuiPc} (hi : g.closing = false) (h : GuiMove E s g s') :
    s'.gui.closing = false := by
  cases h with
  | field hd | abort hd | updated hd => cases hd <;> first | rfl | cases hi
  | dismissed hd => cases hd <;> rfl
  | send _ _ _ _ _ _ q => cases q <;> rfl
  | start w | suspend w => cases w <;> rfl
  | _ => first | rfl | cases hi

theorem open_step {E : Env} {s s' : State} {a : Act} (hb : Basic s) (hi : Open s) (ha : a.closes = false)
    (h : step E s a = some s') : Open s' := by
  constructor
  · cases step_move h with
    | click c hact hg hs => subst hact hs; cases c <;> first | rfl | cases ha
    | edit b hact hg hs => subst hs; exact hi.gui
    | gui hact h => exact closing_of_move hi.gui (guiStep_move h)
    | worker w m pc d hact hr hm hs => rw [hs]; exact hi.gui
  · refine forall_thread_step (R := fun _ t => t.pc.live = true → t.deletes = 0) hb.sided h hi.kept
      (fun w pc d _ hm hl => ?_) (fun w _ _ hl => ?_) (fun _ _ _ _ => rfl) (fun w _ _ hl => ?_) (fun c hg _ => ?_)
    · have hp := pcMove_live hm
      exact (hp.2 hl).trans (hi.kept w hp.1)
    · rw [resume_pc] at hl
      rw [resume_deletes]
      exact hi.kept w hl
    · rw [suspend_pc] at hl
      rw [suspend_deletes]
      exact hi.kept w hl
    · have := hi.gui
      rw [hg] at this
      cases this

/-- **No live worker's object is deleted** before the dialog is being closed. -/
theorem open_ {E : Env} {P : State → Act → Prop} (hP : ∀ s a, P s a → a.closes = false) {m : Members} {b : Boxes}
    {s : State} (h : Reached E P m b s) : Open s :=
  h.inv ⟨rfl, fun _ h => by cases h⟩ (fun u a _ hu hi ha hs => open_step (basic hu) hi (hP u a ha) hs)

/-! ## A stopped worker -/

/-- **A stopped worker does nothing but have a message answered.** -/
theorem halted_answer {E : Env} {s s' : State} {a : Act} {w : Worker} (hb : Basic s) (hi : Balanced s) (ho : Open s)
    (h : step E s a = some s') (ha : a.worker? = some w) (hh : s.halts w = true) : a = .answer w := by
  cases step_life hb.sided h with
  | worker v m pc d ha' hr hm hs =>
    rw [ha] at ha'
    cases ha'
    rcases hr with ⟨hr, -⟩ | hr
    · exact hr
    · have hlive := (pcMove_live hm).1
      have := hi w hlive (ho.kept w hlive)
      rw [hh, hr] at this
      cases this
  | rest ha' => rw [ha] at ha'; cases ha'
  | _ => rename_i ha' _ _; rw [ha'] at ha; cases ha

def suspends? (s : State) : Act → Option Worker
  | .gui => match s.gui with
    | .suspend w => some w
    | _ => none
  | _ => none

theorem suspends?_eq_some {s : State} {a : Act} {w : Worker} (h : suspends? s a = some w) :
    a = .gui ∧ s.gui = .suspend w := by
  unfold suspends? at h
  split at h
  · split at h
    · rename_i v hg; cases h; exact ⟨rfl, hg⟩
    · cases h
  · cases h

theorem halts_step {E : Env} {s s' : State} {a : Act} (hb : Basic s) (h : step E s a = some s') {w : Worker}
    (hh : s'.halts w = true) : s.halts w = true ∨ suspends? s a = some w := by
  cases step_life hb.sided h with
  | worker v m pc d ha hr hm hs => rw [hs] at hh; exact .inl hh
  | start v ha hg hs =>
    subst hs
    by_cases hv : w = v
    · subst hv; exact .inl (halts_start hb.sided hg .unset).1
    · rw [(halts_start hb.sided hg _).2.2 w hv] at hh; exact .inl hh
  | suspend v ha hg hs =>
    subst hs
    by_cases hv : w = v
    · subst hv; exact .inr (by simp [suspends?, ha, hg])
    · rw [(halts_suspend hb.sided hg _).2.2 w hv] at hh; exact .inl hh
  | delete c ha hg hs => subst hs; rw [halts_delete hg] at hh; exact .inl hh
  | setFlag ha hg hs => rw [halts_of hg rfl]; exact .inl rfl
  | clearFlag ha hg hs => rw [hs] at hh; cases hh
  | rest ha ht hf hh' => rw [hh' w] at hh; exact .inl hh

/-- The position in a send of every stopped worker passes a test. -/
def Kept (Q : Option SendPc → Bool) (s : State) : Prop := ∀ w, s.halts w = true → Q (pos s (.worker w)) = true

/-- **What holds of a worker's position when it is suspended holds while it is stopped**, if it excludes that the worker
waits for an answer in `callbackLog`. -/
theorem kept_step {E : Env} {Q : Option SendPc → Bool} {s s' : State} {a : Act} (hb : Basic s) (hi : Balanced s)
    (ho : Open s) (hans : ∀ m p m' p', answerStep m p = some (m', p') → Q (some p) = false)
    (hg : ∀ w, suspends? s a = some w → Q (pos s (.worker w)) = true) (hk : Kept Q s)
    (h : step E s a = some s') : Kept Q s' := by
  intro w hh'
  have hQ : Q (pos s (.worker w)) = true := by
    rcases halts_step hb h hh' with hh | hs
    · exact hk w hh
    · exact hg w hs
  have hact : a = .work w → False := by
    intro ha
    rcases halts_step hb h hh' with hh | hs
    · have := halted_answer hb hi ho h (by rw [ha]; rfl) hh
      rw [this] at ha
      cases ha
    · rw [ha] at hs; cases hs
  cases step_pos hb.ptrInv h (.worker w) with
  | send p q ha => exact (hact ha).elim
  | call lvl msg ha => exact (hact ha).elim
  | answer p p' hgui hp hs hpos =>
    rw [hp, hans _ _ _ _ hs] at hQ
    cases hQ
  | same hpos => rw [hpos]; exact hQ

/-! ## From a stop to the next check click -/

theorem step_checked {E : Env} {s s' : State} {a : Act} (h : step E s a = some s') (ha : a.checks = false) :
    s'.checked = s.checked := by
  cases step_move h with
  | click c hact hg hs => subst hact hs; cases c <;> first | rfl | cases ha
  | edit b hact hg hs => subst hs; rfl
  | gui hact h => exact (guiStep_controls h).2
  | worker w m pc d hact hr hm hs => subst hs; rfl

/-- What an answer changes: the text of the box it is about. -/
theorem answer_boxes {E : Env} {s s' : State} {w : Worker} (h : step E s (.answer w) = some s') :
    ∃ sendCnt sentLogs, s'.mem = { s.mem with sendCnt := sendCnt, sentLogs := sentLogs } := by
  cases step_cases h with
  | work v hr h => cases h
  | answer v hg h =>
    cases h with
    | waitCnt str hpc => exact ⟨formatD str, s.mem.sentLogs, rfl⟩
    | send rest p p' m hpc hs =>
      cases answerStep_move hs with
      | get => exact ⟨s.mem.sendCnt, s.mem.sentLogs, rfl⟩
      | set lvl line k rest str => exact ⟨s.mem.sendCnt, str, rfl⟩

/-- Both workers are stopped, and the check box is not checked. -/
def Halted (s : State) : Prop := s.checked = false ∧ ∀ w, s.halts w = true

theorem halted_step {E : Env} {s s' : State} {a : Act} (hb : Basic s) (ho : Open s) (ha : a.checks = false)
    (hi : Halted s) (h : step E s a = some s') : Halted s' := by
  refine ⟨(step_checked h ha).trans hi.1, fun w => ?_⟩
  have hw := hi.2 w
  cases step_life hb.sided h with
  | worker v m pc d ha' hr hm hs => subst hs; exact hw
  | start v ha' hg hs =>
    have hc := checked_of_start hb.sided hg
    rw [hi.1] at hc
    cases hc
  | suspend v ha' hg hs =>
    have hv := hi.2 v
    rw [(halts_suspend hb.sided hg .unset).1] at hv
    cases hv
  | delete c ha' hg hs =>
    have hopen := ho.gui
    rw [hg] at hopen
    cases hopen
  | setFlag ha' hg hs =>
    have hside := hb.sided
    unfold State.sided at hside
    rw [hg, hi.1] at hside
    cases hside
  | clearFlag ha' hg hs =>
    rw [halts_of hg rfl] at hw
    cases hw
  | rest ha' ht hf hh => rw [hh w]; exact hw

/-- **The second `SuspendThread` of an uncheck has both workers stopped.** -/
theorem halted_of_suspend {E : Env} {s s' : State} (hb : Basic s) (hg : s.gui = .suspend .sendThread2)
    (h : step E s .gui = some s') : Halted s' := by
  have hc := checked_of_suspend hb.sided hg
  simp only [step, guiStep, hg] at h
  cases h
  exact ⟨hc, fun w => by cases w <;> rfl⟩

/-- No worker starts or goes on with a send: what is left of its steps is that the GUI thread answers a message it has
sent, which changes nothing but a box. -/
def StandsStill (E : Env) (s : State) : Prop :=
  ∀ w a s', a.worker? = some w → step E s a = some s' →
    a = .answer w ∧ ∃ sendCnt sentLogs, s'.mem = { s.mem with sendCnt := sendCnt, sentLogs := sentLogs }

theorem standsStill_of_halted {E : Env} {s : State} (hb : Basic s) (hbal : Balanced s) (ho : Open s) (hi : Halted s) :
    StandsStill E s := by
  intro w a s' ha h
  obtain rfl := halted_answer hb hbal ho h ha (hi.2 w)
  exact ⟨rfl, answer_boxes h⟩

/-- **Stop stops, and suspensions stay balanced**: in every run of check box clicks, Send clicks and edits each worker is
created at most once and, while it is live, suspended at most once; and from the second `SuspendThread` of an uncheck to
the next check click both stand still. -/
theorem reached_stops {E : Env} {m : Members} {b : Boxes} {s : State}
    (h : Reached E (fun _ a => a.closes = false) m b s) :
    (∀ w, (s.thread w).made ≤ 1) ∧ (∀ w, (s.thread w).pc.live = true → (s.thread w).suspends ≤ 1) ∧
    ∀ t u, s.gui = .suspend .sendThread2 → step E s .gui = some t →
      Lts.Reach (step E) (fun _ a => a.closes = false ∧ a.checks = false) t u → StandsStill E u := by
  have hopen : ∀ u, Reached E (fun _ a => a.closes = false) m b u → Open u := fun u hu => open_ (fun _ _ ha => ha) hu
  refine ⟨fun w => ?_, fun w hlive => ?_, fun t u hg ht htu => ?_⟩
  · cases hp : (s.thread w).ptr with
    | false => rw [(basic h).unset w hp]; exact Nat.zero_le 1
    | true => exact Nat.le_of_eq ((basic h).set w hp).1
  · have hsus := balanced h w hlive ((hopen s h).kept w hlive)
    split at hsus <;> omega
  · have hrt : Reached E (fun _ a => a.closes = false) m b t := h.snoc .gui rfl ht
    have hreach : ∀ v, Lts.Reach (step E) (fun _ a => a.closes = false ∧ a.checks = false) t v →
        Reached E (fun _ a => a.closes = false) m b v := fun v hv => hrt.trans (hv.mono (fun _ _ ha => ha.1))
    have hhalted : Halted u := htu.inv (halted_of_suspend (basic h) hg ht) (fun v a v' hv hi ha hs =>
      halted_step (basic (hreach v hv)) (hopen v (hreach v hv)) ha.2 hi hs)
    have hru := hreach u htu
    exact standsStill_of_halted (basic hru) (balanced hru) (hopen u hru) hhalted

/-- Stopped in the middle of its first send, and still so with the message box dismissed. -/
theorem reached_stops_unchecked : ∃ s t u, Reached spdEnv (fun _ a => a.closes = false) (initMsgs 41)
    (initMsgs 41).shown s ∧ step spdEnv s .gui = some t ∧
    Lts.Steps (step spdEnv) (fun _ a => a.closes = false ∧ a.checks = false) t (List.replicate 3 .gui) u ∧
    (u.thread .sendThread).suspends = 1 ∧ StandsStill spdEnv u := by
  obtain ⟨s, hr, hg, hrun⟩ := exists_reached (fun _ a => a.closes = false)
    (fun s => suspends? s .gui = some .sendThread2 ∧ ((step spdEnv s .gui).bind (fun t =>
      Lts.runIf (step spdEnv) (fun _ a => decide (a.closes = false ∧ a.checks = false)) t (List.replicate 3 .gui))).any
        (fun u => (u.thread .sendThread).suspends = 1) = true)
    (checkClick ++ toRead .sendThread ++ .click .check :: List.replicate 36 .gui) (by decide +kernel)
  obtain ⟨u, hu, hsus⟩ := (Option.any_eq_true _ _).1 hrun
  obtain ⟨t, ht, hrun⟩ := Option.bind_eq_some_iff.1 hu
  have htu := Lts.steps_of_runIf _ _ _ hrun
  exact ⟨s, t, u, hr, ht, htu, of_decide_eq_true hsus,
    (reached_stops hr).2.2 t u (suspends?_eq_some hg).2 ht ⟨_, htu⟩⟩

end LogMaker
