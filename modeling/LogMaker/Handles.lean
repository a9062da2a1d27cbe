import LogMaker.Exchange
import LogMaker.Stops
/-!
# Handles — `m_pThreadSend` and `m_pThreadSend2` over a run

A worker that reads `m_bSendRep` false returns, and MFC deletes its `CWinThread`; `closeAll` deletes the first one's as
well.  No handler resets a pointer.  `reached_bothSending` says when a check click leaves both workers sending, and
`reached_handlesValid` when no handler uses a deleted object.
-/
namespace LogMaker

/-! ## Check clicks -/

/-- From the return of the starts in a check click to the click that unchecks the box. -/
def State.started (s : State) : Bool := s.checked && !s.starting .sendThread && !s.starting .sendThread2

/-- **Start really starts**: both workers are live, not suspended, and inside their sending loops. -/
def BothSending (s : State) : Prop :=
  s.started = true → ∀ w, (s.thread w).ptr = true ∧ (s.thread w).pc.looping = true ∧ (s.thread w).suspends = 0

/-- The dialog stays open, and a click that checks the box finds every worker created before still in its loop. -/
def StartClean (s : State) (a : Act) : Prop :=
  a.closes = false ∧
    (a.checks = true → s.checked = false → ∀ w, (s.thread w).ptr = true → (s.thread w).pc.looping = true)

instance (s : State) (a : Act) : Decidable (StartClean s a) := by unfold StartClean; infer_instance

/-- While `m_bSendRep` is set a worker that is not stopped is in its loop, and so is one about to be resumed. -/
structure Sending (s : State) : Prop where
  running : ∀ w, s.halts w = false → s.bSendRep = true → (s.thread w).ptr = true ∧ (s.thread w).pc.looping = true
  resumed : ∀ w, s.starting w = true → (s.thread w).ptr = true → (s.thread w).pc.looping = true

theorem starting_of {s : State} {g : GuiPc} {c : Bool} (hg : s.gui = g) (hc : s.checked = c) (w : Worker) :
    s.starting w = g.starting c w := by
  unfold State.starting; rw [hg, hc]

theorem halts_of_starting {s : State} {w : Worker} (h : s.starting w = true) : s.halts w = true := by
  unfold State.starting at h
  unfold State.halts
  cases hg : s.gui with
  | exchange hd fs => rw [hg] at h; cases hd <;> first | exact h | cases h
  | invalid hd => rw [hg] at h; cases hd <;> first | exact h | cases h
  | start v => rw [hg] at h; cases v <;> exact h
  | _ => rw [hg] at h; first | exact h | cases h

theorem sending_step {E : Env} {s s' : State} {a : Act} (hb : Basic s) (hbal : Balanced s) (ho : Open s)
    (ha : StartClean s a) (hi : Sending s) (h : step E s a = some s') : Sending s' := by
  cases step_life hb.sided h with
  | worker w m pc d hact hr hm hs =>
    subst hs
    refine ⟨(Function.forall_update_iff s.thread (fun v t => s.halts v = false → s.bSendRep = true →
      t.ptr = true ∧ t.pc.looping = true)).2 ⟨fun hh hf => ?_, fun v _ => hi.running v⟩,
      (Function.forall_update_iff s.thread (fun v t => s.starting v = true → t.ptr = true →
        t.pc.looping = true)).2 ⟨fun hst hp => ?_, fun v _ => hi.resumed v⟩⟩
    · have hold := hi.running w hh hf
      refine ⟨hold.1, ?_⟩
      cases hm with
      | stay _ h' => exact h'
      | leave _ hf' => rw [hf] at hf'; cases hf'
      | finish hret => rw [hret] at hold; cases hold.2
    · -- it is still stopped, so it can only have had a message answered
      rcases hr with ⟨-, hl⟩ | hr
      · exact hl
      · have hlive := (pcMove_live hm).1
        have hsus := hbal w hlive (ho.kept w hlive)
        rw [halts_of_starting hst, hr] at hsus
        cases hsus
  | start w hact hg hs =>
    subst hs
    have hc := checked_of_start hb.sided hg
    have hf : s.bSendRep = true := by rw [hb.flag, hg]; rfl
    refine ⟨fun v hh _ => ?_, fun v hst hp => ?_⟩
    · rw [setThread_thread]
      by_cases hv : v = w
      · subst hv
        rw [Function.update_self]
        have hst : s.starting v = true := by rw [starting_of hg hc]; cases v <;> rfl
        split
        · rename_i hp
          rw [resume_ptr, resume_pc]
          exact ⟨hp, hi.resumed v hst hp⟩
        · exact ⟨rfl, rfl⟩
      · rw [(halts_start hb.sided hg _).2.2 v hv] at hh
        rw [Function.update_of_ne hv]
        exact hi.running v hh hf
    · have hst' : (afterStart w).starting s.checked v = true := hst
      rw [hc] at hst'
      -- only the second worker is still to be started
      have hvw : v = .sendThread2 ∧ w = .sendThread := by cases w <;> cases v <;> first | exact ⟨rfl, rfl⟩ | cases hst'
      obtain ⟨rfl, rfl⟩ := hvw
      rw [setThread_thread, Function.update_of_ne (by decide)] at hp ⊢
      exact hi.resumed _ (by rw [starting_of hg hc]; rfl) hp
  | suspend w hact hg hs =>
    subst hs
    have hold : s.bSendRep = false := hb.flag.trans (by rw [hg]; rfl)
    refine ⟨fun v _ hf => ?_, fun v hst _ => ?_⟩
    · rw [show s.bSendRep = true from hf] at hold
      cases hold
    · cases w <;> cases hst
  | delete c hact hg hs =>
    have := ho.gui
    rw [hg] at this
    cases this
  | setFlag hact hg hs =>
    subst hs
    exact ⟨fun v hh _ => (by cases hh), fun v _ hp => hi.resumed v (by rw [starting_of hg rfl]; rfl) hp⟩
  | clearFlag hact hg hs =>
    subst hs
    exact ⟨fun v _ hf => (by cases hf), fun v hst _ => (by cases hst)⟩
  | rest hact ht hf hh hfl hst =>
    refine ⟨fun v hhv hfv => ?_, fun v hsv hp => ?_⟩
    · rw [ht]
      exact hi.running v (by rw [← hh v]; exact hhv) (by rw [← hf]; exact hfv)
    · rw [ht] at hp ⊢
      rcases hst v hsv with hold | ⟨hclick, -, hc⟩
      · exact hi.resumed v hold hp
      · exact ha.2 (by rw [hclick]; rfl) hc v hp

theorem sending {E : Env} {m : Members} {b : Boxes} {s : State} (h : Reached E StartClean m b s) : Sending s :=
  h.inv ⟨fun _ _ hf => (by cases hf), fun _ hst => (by cases hst)⟩
    (fun _ _ _ hu hi ha hs => sending_step (basic hu) (balanced hu) (open_ (fun _ _ h => h.1) hu) ha hi hs)

theorem halts_of_started {s : State} (hb : Basic s) (h : s.started = true) (w : Worker) :
    s.halts w = false ∧ s.bSendRep = true := by
  have hall : s.checked = true ∧ ∀ v, s.starting v = false := by
    unfold State.started at h
    simp only [Bool.and_eq_true, Bool.not_eq_true'] at h
    exact ⟨h.1.1, fun v => by cases v <;> [exact h.1.2; exact h.2]⟩
  obtain ⟨hc, hst⟩ := hall
  have hsided := hb.sided
  unfold State.sided at hsided
  have hs1 := hst .sendThread
  have hs2 := hst .sendThread2
  rw [starting_of rfl hc] at hs1 hs2
  rw [hc] at hsided
  rw [halts_of rfl hc, hb.flag, hc]
  cases hg : s.gui with
  | exchange hd fs => rw [hg] at hs1; cases hd <;> first | exact ⟨rfl, rfl⟩ | cases hs1
  | invalid hd => rw [hg] at hs1; cases hd <;> first | exact ⟨rfl, rfl⟩ | cases hs1
  | start v => rw [hg] at hs2; cases v <;> cases hs2
  | _ => first | exact ⟨rfl, rfl⟩ | (rw [hg] at hs1; cases hs1; done) | (rw [hg] at hsided; cases hsided)

/-- **A check click leaves both workers sending** in every run whose check clicks find no worker that left its loop. -/
theorem reached_bothSending {E : Env} {m : Members} {b : Boxes} {s : State} (h : Reached E StartClean m b s) :
    BothSending s := by
  intro hst w
  obtain ⟨hh, hf⟩ := halts_of_started (basic h) hst w
  obtain ⟨hp, hl⟩ := (sending h).running w hh hf
  have hlive := live_of_looping hl
  have hsus := balanced h w hlive ((open_ (fun _ _ h => h.1) h).kept w hlive)
  rw [hh] at hsus
  exact ⟨hp, hl, hsus⟩

theorem reached_bothSending_again : ∃ s, Reached spdEnv StartClean (initMsgs 41) (initMsgs 41).shown s ∧
    s.started = true ∧ (∀ w, (s.thread w).pc.looping = true) ∧ BothSending s := by
  obtain ⟨s, hr, hst, hloop⟩ := exists_reached StartClean
    (fun s => s.started = true ∧ ∀ w, (s.thread w).pc.looping = true)
    (checkClick ++ toRead .sendThread ++ uncheckClick ++ [.gui] ++ checkClick) (by decide +kernel)
  exact ⟨s, hr, hst, hloop, reached_bothSending hr⟩

/-- An uncheck click up to the clearing of `m_bSendRep`, upon which `sendThread` returns. -/
def returnBeforeSuspend : List Act :=
  .click .check :: List.replicate 34 .gui ++ [.work .sendThread, .work .sendThread]

/-- The next check click resumes a thread that has ended. -/
theorem not_bothSending_ended : ∃ s, Reached spdEnv (fun _ a => a.closes = false) (initMsgs 41) (initMsgs 41).shown s ∧
    s.started = true ∧ s.bSendRep = true ∧ ¬ BothSending s := by
  obtain ⟨s, hr, hst, hf, hpc⟩ := exists_reached (fun _ a => a.closes = false)
    (fun s => s.started = true ∧ s.bSendRep = true ∧ (s.thread .sendThread).pc.looping = false)
    (checkClick ++ returnBeforeSuspend ++ List.replicate 6 .gui ++ checkClick) (by decide +kernel)
  refine ⟨s, hr, hst, hf, fun h => ?_⟩
  have hloop := (h hst .sendThread).2.1
  rw [hpc] at hloop
  cases hloop

/-! ## Uses of the pointers -/

/-- Whether the statement the GUI thread is at uses the worker's pointer. -/
def State.uses (s : State) (w : Worker) : Bool := match s.gui with
  | .start v | .suspend v => v = w && (s.thread w).ptr
  | .getExitCode _ | .deleteThread _ => w = .sendThread
  | _ => false

/-- **The handles are valid**: a pointer in use is to an object that is not deleted, and none is deleted twice. -/
def HandlesValid (s : State) : Prop :=
  ∀ w, (s.uses w = true → (s.thread w).deletes = 0) ∧ (s.thread w).deletes ≤ 1

def Act.oks : Act → Bool
  | .click .ok => true
  | _ => false

def ThreadPc.returns : ThreadPc → Bool
  | .ret => true
  | _ => false

/-- Whether a handler may use the worker's pointer from here on; `closeAll` uses the first one's only. -/
def GuiPc.mayUse (w : Worker) : GuiPc → Bool
  | .closeAll _ | .getExitCode _ | .deleteThread _ => w = .sendThread
  | .exchange .ok _ | .endDialog | .returned | .destroyed => false
  | _ => true

/-- A worker returns only when its pointer is no more used and `closeAll` has not deleted its object, and OK is clicked
with a pointer set only when the count boxes are valid. -/
def HandlesKept (E : Env) (s : State) (a : Act) : Prop :=
  (∀ w, a.worker? = some w → (s.thread w).pc.returns = true → s.gui.mayUse w = false ∧ (s.thread w).deletes = 0) ∧
  (a.oks = true → ∀ w, (s.thread w).ptr = true → CountsValid E s.boxes)

instance (E : Env) (s : State) (a : Act) : Decidable (HandlesKept E s a) := by unfold HandlesKept; infer_instance

def GuiPc.inOk : GuiPc → Bool
  | .closeAll .ok | .getExitCode .ok | .deleteThread .ok | .exchange .ok _ => true
  | _ => false

theorem inOk_of_move {E : Env} {s s' : State} {g : GuiPc} (h : GuiMove E s g s') (hin : s'.gui.inOk = true) :
    g.inOk = true := by
  cases h with
  | field hd | abort hd | updated hd | dismissed hd => cases hd <;> first | rfl | cases hin
  | send _ _ _ _ _ _ q => cases q <;> cases hin
  | start w | suspend w => cases w <;> cases hin
  | closePtr c | closeNull c | getExitCode c | deleteThread c => cases c <;> first | rfl | cases hin
  | _ => cases hin

/-- With valid boxes the exchange of OK does not abort, so the pointers stay out of use. -/
theorem mayUse_of_move {E : Env} {s s' : State} {g : GuiPc} {w : Worker} (hv : g.inOk = true → CountsValid E s.boxes)
    (hp : g.mayUse w = false) (h : GuiMove E s g s') : s'.gui.mayUse w = false := by
  cases h with
  | field hd | updated hd => cases hd <;> first | rfl | cases hp
  | abort hd f fs m e hf =>
    cases hd with
    | ok =>
      have hnone := exchangeField_valid (hv rfl) s.members f
      rw [hf] at hnone
      cases hnone
    | _ => cases hp
  | closePtr | getExitCode => exact hp
  | closeNull c | deleteThread c => cases c <;> rfl
  | endDialog | returned => rfl
  | _ => cases hp

/-- What holds while the handles are kept: OK is handled with valid boxes once a worker is created, and an object is
deleted once, on the way out. -/
structure Handles (E : Env) (s : State) : Prop where
  valid : s.gui.inOk = true → ∀ w, (s.thread w).ptr = true → CountsValid E s.boxes
  deleted : ∀ w, (s.thread w).deletes = 0 ∨
    (s.thread w).deletes = 1 ∧ (s.thread w).ptr = true ∧ s.gui.mayUse w = false

/-- A pointer is not set in the handler of OK. -/
theorem ptr_of_inOk {E : Env} {s s' : State} {a : Act} (hb : Basic s) (h : step E s a = some s')
    (hin : s'.gui.inOk = true) : ∀ v, (s'.thread v).ptr = (s.thread v).ptr := by
  have hset : ∀ (w : Worker) (t : Thread), s'.thread = Function.update s.thread w t → t.ptr = (s.thread w).ptr →
      ∀ v, (s'.thread v).ptr = (s.thread v).ptr := by
    intro w t ht htp
    rw [ht]
    exact (Function.forall_update_iff s.thread (fun v t => t.ptr = (s.thread v).ptr)).2 ⟨htp, fun _ _ => rfl⟩
  cases step_life hb.sided h with
  | worker w m pc d hact hr hm hs => exact hset w { s.thread w with pc := pc, deletes := d } (by rw [hs]; rfl) rfl
  | start w hact hg hs => rw [hs] at hin; cases w <;> cases hin
  | suspend w hact hg hs => rw [hs] at hin; cases w <;> cases hin
  | delete c hact hg hs =>
    have ht : s'.thread = Function.update s.thread .sendThread (s.thread .sendThread).delete := by rw [hs]; rfl
    exact hset .sendThread _ ht rfl
  | setFlag hact hg hs => rw [hs] at hin; cases hin
  | clearFlag hact hg hs => rw [hs] at hin; cases hin
  | rest hact ht => rw [ht]; exact fun _ => rfl

theorem valid_step {E : Env} {s s' : State} {a : Act} (hb : Basic s) (ha : HandlesKept E s a) (hi : Handles E s)
    (h : step E s a = some s') (hin : s'.gui.inOk = true) (w : Worker) (hp' : (s'.thread w).ptr = true) :
    CountsValid E s'.boxes := by
  have hp : (s.thread w).ptr = true := (ptr_of_inOk hb h hin w).symm.trans hp'
  cases step_move h with
  | click c hact hg hs =>
    subst hact hs
    cases c <;> first | exact ha.2 rfl w hp | cases hin
  | edit b hact hg hs =>
    rw [hs, show (State.gui { s with boxes := b }) = .idle from hg] at hin
    cases hin
  | gui hact h =>
    rw [(guiStep_controls h).1]
    exact hi.valid (inOk_of_move (guiStep_move h) hin) w hp
  | worker v m pc d hact hr hm hs => rw [hs] at hin ⊢; exact hi.valid hin w hp

theorem deletes_of_mayUse {E : Env} {s : State} (hi : Handles E s) {w : Worker} (hp : s.gui.mayUse w = true) :
    (s.thread w).deletes = 0 := by
  rcases hi.deleted w with h | ⟨-, -, h⟩
  · exact h
  · rw [hp] at h; cases h

theorem mayUse_step {E : Env} {s s' : State} {a : Act} (hi : Handles E s) (h : step E s a = some s') {v : Worker}
    (hp : (s.thread v).ptr = true) (hno : s.gui.mayUse v = false) : s'.gui.mayUse v = false := by
  cases step_move h with
  | click c _ hg | edit b _ hg => rw [hg] at hno; cases hno
  | gui _ h => exact mayUse_of_move (fun hin => hi.valid hin v hp) hno (guiStep_move h)
  | worker w m pc d _ _ _ hs => rw [hs]; exact hno

theorem deleted_step {E : Env} {s s' : State} {a : Act} (hb : Basic s) (ha : HandlesKept E s a) (hi : Handles E s)
    (h : step E s a = some s') : ∀ v, (s'.thread v).deletes = 0 ∨
      (s'.thread v).deletes = 1 ∧ (s'.thread v).ptr = true ∧ s'.gui.mayUse v = false := by
  have hold : ∀ v, (s.thread v).deletes = 0 ∨
      (s.thread v).deletes = 1 ∧ (s.thread v).ptr = true ∧ s'.gui.mayUse v = false := fun v =>
    (hi.deleted v).imp id (fun hd => ⟨hd.1, hd.2.1, mayUse_step hi h hd.2.1 hd.2.2⟩)
  refine forall_thread_step (R := fun v t => t.deletes = 0 ∨ t.deletes = 1 ∧ t.ptr = true ∧ s'.gui.mayUse v = false)
    hb.sided h hold (fun w pc d hw hm => ?_) (fun w hg _ => .inl ?_) (fun _ _ _ => .inl rfl) (fun w hg _ => .inl ?_)
    (fun c hg hg' => .inr ?_)
  · cases hm with
    | stay _ _ hd | leave _ _ _ hd => rw [hd]; exact hold w
    | finish hret _ hd =>
      obtain ⟨hno, h0⟩ := ha.1 w hw (by rw [hret]; rfl)
      have hp : (s.thread w).ptr = true := by
        by_contra hn
        rw [hb.unset w (by simpa using hn)] at hret
        cases hret
      exact .inr ⟨by rw [hd, h0], hp, mayUse_step hi h hp hno⟩
  · rw [resume_deletes]
    exact deletes_of_mayUse hi (by rw [hg]; rfl)
  · rw [suspend_deletes]
    exact deletes_of_mayUse hi (by rw [hg]; rfl)
  · have h0 : (s.thread .sendThread).deletes = 0 := deletes_of_mayUse hi (by rw [hg]; rfl)
    refine ⟨by rw [Thread.delete, h0], ptr_of_deleteThread hb.sided hg, ?_⟩
    rw [hg']
    cases c <;> rfl

theorem handles {E : Env} {m : Members} {b : Boxes} {s : State} (h : Reached E (HandlesKept E) m b s) : Handles E s :=
  h.inv ⟨fun hin => (by cases hin), fun _ => .inl rfl⟩
    (fun _ _ _ hu hi ha hs => ⟨valid_step (basic hu) ha hi hs, deleted_step (basic hu) ha hi hs⟩)

theorem mayUse_of_uses {s : State} {w : Worker} (h : s.uses w = true) : s.gui.mayUse w = true := by
  unfold State.uses at h
  cases hg : s.gui <;> rw [hg] at h <;> first | rfl | exact h | cases h

/-- **The handles are valid** in every run in which no worker returns while its pointer may be used, or with its object
deleted, and OK is not rejected after a worker was created. -/
theorem reached_handlesValid {E : Env} {m : Members} {b : Boxes} {s : State} (h : Reached E (HandlesKept E) m b s) :
    HandlesValid s := by
  have hi := handles h
  intro w
  refine ⟨fun hu => deletes_of_mayUse hi (mayUse_of_uses hu), ?_⟩
  rcases hi.deleted w with h0 | ⟨h1, -, -⟩
  · rw [h0]; exact Nat.zero_le 1
  · exact Nat.le_of_eq h1

/-- OK after a stop, at the `delete` of `closeAll`. -/
theorem reached_handlesValid_ok : ∃ s, Reached spdEnv (HandlesKept spdEnv) (initMsgs 41) (initMsgs 41).shown s ∧
    s.uses .sendThread = true ∧ (s.thread .sendThread).ptr = true ∧ HandlesValid s := by
  obtain ⟨s, hr, hu, hp⟩ := exists_reached (HandlesKept spdEnv)
    (fun s => s.uses .sendThread = true ∧ (s.thread .sendThread).ptr = true)
    (checkClick ++ toRead .sendThread ++ uncheckClick ++ [.gui, .click .ok, .gui, .gui]) (by decide +kernel)
  exact ⟨s, hr, hu, hp, reached_handlesValid hr⟩

/-- The `SuspendThread` of a worker that has returned. -/
theorem not_handlesValid_returned : ∃ s, Reached spdEnv Lts.anyStep (initMsgs 41) (initMsgs 41).shown s ∧
    s.uses .sendThread = true ∧ (s.thread .sendThread).deletes = 1 ∧ ¬ HandlesValid s := by
  obtain ⟨s, hr, hu, hd⟩ := exists_reached Lts.anyStep
    (fun s => s.uses .sendThread = true ∧ (s.thread .sendThread).deletes = 1)
    (checkClick ++ returnBeforeSuspend ++ [.gui]) (by decide +kernel)
  refine ⟨s, hr, hu, hd, fun h => ?_⟩
  have h0 := (h .sendThread).1 hu
  rw [hd] at h0
  cases h0

end LogMaker
