import LogMaker.Exchange
import LogMaker.Alone
import LogMaker.Stops
/-!
# Closing — what the workers are doing when the dialog is destroyed

No route out of the dialog ends a worker: `closeAll` asks for the first one's exit code and deletes its object, and
Escape does not call it.  `willEnd` is decided as soon as a closing click is made, so a history of clicks and edits that
closes the dialog does so whatever the workers do; `cleanShutdown_iff` says which leave no worker behind.
-/
namespace LogMaker

variable {E : Env}

/-! ## The user's part of a run -/

def Act.isInput : Act → Bool
  | .click _ | .edit _ => true
  | _ => false

def inputs (as : List Act) : List Act := as.filter Act.isInput

/-- A statement of the exchange that does not abort. -/
def fieldValid (E : Env) (b : Boxes) : Field → Bool
  | .cnt r => !badBox E b r
  | _ => true

/-- The handler the GUI thread is in ends the dialog. -/
def GuiPc.willEnd (E : Env) (b : Boxes) : GuiPc → Bool
  | .closeAll .ok | .getExitCode .ok | .deleteThread .ok => fields.all (fieldValid E b)
  | .exchange .ok rest => rest.all (fieldValid E b)
  | .closeAll .close | .getExitCode .close | .deleteThread .close => true
  | .endDialog | .returned | .destroyed => true
  | _ => false

def State.willEnd (E : Env) (s : State) : Bool := s.gui.willEnd E s.boxes

theorem exchangeField_valid_iff (b : Boxes) (m : Members) (f : Field) :
    (exchangeField E b m f).2 = none ↔ fieldValid E b f = true := by
  cases f with
  | cnt r =>
    rw [exchangeField_cnt]
    cases hb : badBox E b r <;> simp [fieldValid, hb]
  | _ => simp [exchangeField, fieldValid]

/-- **Whether the dialog ends is decided by the click.** -/
theorem willEnd_of_move {s s' : State} {g : GuiPc} (h : GuiMove E s g s') :
    s'.gui.willEnd E s.boxes = g.willEnd E s.boxes := by
  cases h with
  | field hd f fs m hf =>
    cases hd with
    | ok =>
      have hv : fieldValid E s.boxes f = true := (exchangeField_valid_iff s.boxes s.members f).1 (by rw [hf])
      simp only [GuiPc.willEnd, List.all_cons, hv, Bool.true_and]
    | _ => rfl
  | abort hd f fs m e hf =>
    cases hd with
    | ok =>
      have hv : fieldValid E s.boxes f = false := by
        by_contra hn
        have := (exchangeField_valid_iff s.boxes s.members f).2 (by simpa using hn)
        rw [hf] at this
        cases this
      simp only [GuiPc.willEnd, List.all_cons, hv, Bool.false_and]
    | _ => rfl
  | updated hd | dismissed hd => cases hd <;> rfl
  | send _ _ _ _ _ _ q => cases q <;> rfl
  | start w | suspend w => cases w <;> rfl
  | closePtr c | closeNull c | getExitCode c | deleteThread c => cases c <;> rfl
  | _ => rfl

theorem step_willEnd {s s' : State} {a : Act} (ha : a.isInput = false) (h : step E s a = some s') :
    s'.boxes = s.boxes ∧ s'.willEnd E = s.willEnd E := by
  cases step_move h with
  | click c hact => subst hact; cases ha
  | edit b hact => subst hact; cases ha
  | gui hact h =>
    have hboxes := (guiStep_controls h).1
    unfold State.willEnd
    rw [hboxes]
    exact ⟨rfl, willEnd_of_move (guiStep_move h)⟩
  | worker w m pc d hact hr hm hs => subst hs; exact ⟨rfl, rfl⟩

/-- A click or an edit is made in the modal loop, and does the same in every state with the same boxes there. -/
theorem step_input {s s' : State} {a : Act} (ha : a.isInput = true) (h : step E s a = some s') :
    s.gui = .idle ∧ ∀ v : State, v.gui = .idle → v.boxes = s.boxes → ∃ v', step E v a = some v' ∧ v'.boxes = s'.boxes ∧
      v'.willEnd E = s'.willEnd E ∧ v'.thread = v.thread ∧ v'.checked = (if a.checks then !v.checked else v.checked) := by
  cases step_move h with
  | click c hact hg hs =>
    subst hact hs
    refine ⟨hg, fun v hv hboxes => ⟨v.click c, by simp [step, hv], ?_⟩⟩
    cases c with
    | ok => exact ⟨hboxes, by show _ = _; unfold State.willEnd; simp only [State.click, GuiPc.willEnd, hboxes], rfl, rfl⟩
    | _ => exact ⟨hboxes, rfl, rfl, rfl⟩
  | edit b hact hg hs =>
    subst hact hs
    refine ⟨hg, fun v hv _ => ⟨{ v with boxes := b }, by simp [step, hv], rfl, ?_, rfl, rfl⟩⟩
    unfold State.willEnd
    simp only [hv, hg]
  | gui hact => subst hact; cases ha
  | worker w m pc d hact => cases a <;> first | (cases ha; done) | cases hact

/-! ## The same clicks and edits with the workers standing still -/

/-- A worker that has not been created, or has not made a step. -/
def Fresh (s : State) : Prop := ∀ w, (s.thread w).pc = .absent ∨ (s.thread w).pc = .test

theorem clear_of_fresh {s : State} (h : Fresh s) : Clear E s := by
  intro w k hk
  have hpos : pos s (.worker w) = none := by
    show (s.thread w).pc.pos = none
    rcases h w with hp | hp <;> rw [hp] <;> rfl
  simp [owns, hpos] at hk

theorem fresh_guiStep {s s' : State} (hb : Basic s) (hi : Fresh s) (h : guiStep E s = some s') : Fresh s' := by
  have hstep : step E s .gui = some s' := h
  refine forall_thread_step (R := fun _ t => t.pc = .absent ∨ t.pc = .test) hb.sided hstep hi
    (fun w pc d ha => by cases ha) (fun w _ _ => ?_) (fun _ _ _ => .inr rfl) (fun w _ _ => ?_)
    (fun _ _ _ => hi .sendThread)
  · rw [resume_pc]; exact hi w
  · rw [suspend_pc]; exact hi w

theorem ptr_guiStep {s s' : State} (hb : Basic s) (hi : ∀ w, (s.thread w).ptr = true) (h : guiStep E s = some s') :
    ∀ w, (s'.thread w).ptr = true := by
  have hstep : step E s .gui = some s' := h
  refine forall_thread_step (R := fun _ t => t.ptr = true) hb.sided hstep hi (fun w pc d ha => by cases ha)
    (fun w _ hp => ?_) (fun _ _ _ => rfl) (fun w _ hp => ?_) (fun _ _ _ => hi .sendThread)
  · rw [resume_ptr]; exact hp
  · rw [suspend_ptr]; exact hp

theorem ptr_of_checked {s : State} (hb : Basic s) (hm : Made s) (hs : s.gui.settled = true) (hc : s.checked = true)
    (w : Worker) : (s.thread w).ptr = true := by
  have haside : s.halts w = false ∧ s.bSendRep = true := by
    rw [halts_of rfl hc, hb.flag, hc]
    cases hg : s.gui <;> first | exact ⟨rfl, rfl⟩ | (rw [hg] at hs; cases hs)
  exact hm w haside.1 haside.2

theorem inputs_append (as bs : List Act) : inputs (as ++ bs) = inputs as ++ inputs bs := List.filter_append ..

theorem inputs_gui : ∀ (as : List Act) (s t : State), Lts.Steps (step E) (fun _ a => a = .gui) s as t → inputs as = []
  | [], _, _, _ => rfl
  | _ :: as, _, t, ⟨hp, u, _, h⟩ => by
    subst hp
    exact inputs_gui as u t h

/-- The GUI thread alone from a click on: the dialog ends or comes back to its loop, as the click has decided. -/
theorem alone_from {P : State → Act → Prop} {m : Members} {b : Boxes} {s : State} (h : Reached E P m b s)
    (hf : Fresh s) : ∃ as t, Lts.Steps (step E) (fun _ a => a = .gui) s as t ∧ Fresh t ∧ t.boxes = s.boxes ∧
      t.checked = s.checked ∧ t.willEnd E = s.willEnd E ∧
      ((∀ w, (s.thread w).ptr = true) → ∀ w, (t.thread w).ptr = true) ∧ t.gui.settled = true := by
  have hI : ∀ u v, Reached E Lts.anyStep m b u →
      (Fresh u ∧ u.boxes = s.boxes ∧ u.checked = s.checked ∧ u.willEnd E = s.willEnd E ∧
        ((∀ w, (s.thread w).ptr = true) → ∀ w, (u.thread w).ptr = true)) → guiStep E u = some v →
      Fresh v ∧ v.boxes = s.boxes ∧ v.checked = s.checked ∧ v.willEnd E = s.willEnd E ∧
        ((∀ w, (s.thread w).ptr = true) → ∀ w, (v.thread w).ptr = true) := by
    rintro u v hu ⟨hfu, hbu, hcu, heu, hpu⟩ hv
    have hctl := guiStep_controls hv
    have hend : v.willEnd E = u.willEnd E := (step_willEnd (a := .gui) rfl hv).2
    exact ⟨fresh_guiStep (basic hu) hfu hv, hctl.1.trans hbu, hctl.2.trans hcu, hend.trans heu,
      fun hp => ptr_guiStep (basic hu) (hpu hp) hv⟩
  obtain ⟨t, ⟨as, hr⟩, ⟨h1, h2, h3, h4, h5⟩, hs⟩ := gui_alone (P := fun _ a => a = .gui) hI (fun _ _ => rfl) h.any
    (clear_of_fresh hf) ⟨hf, rfl, rfl, rfl, id⟩
  exact ⟨as, t, hr, h1, h2, h3, h4, h5, hs⟩

/-- **Every history is also made with the workers standing still**: the same clicks and edits, the same outcome, and
both workers created if the check box was clicked. -/
theorem exists_fresh {m : Members} {b : Boxes} : ∀ (as : List Act) (s : State),
    Lts.Steps (step E) Lts.anyStep (State.init m b) as s → ∃ bs t,
      Lts.Steps (step E) Lts.anyStep (State.init m b) bs t ∧ inputs bs = inputs as ∧ Fresh t ∧ t.boxes = s.boxes ∧
      t.willEnd E = s.willEnd E ∧ t.gui.settled = true ∧
      ((inputs as).any Act.checks = true → ∀ w, (t.thread w).ptr = true) := by
  refine Lts.Steps.inv ⟨[], _, rfl, rfl, fun _ => .inl rfl, rfl, rfl, rfl, fun h => by cases h⟩ ?_
  rintro as u a u' hu ⟨bs, t, ht, hin, hfresh, hboxes, hend, hset, hptr⟩ - ha
  have hbt := basic (E := E) ⟨bs, ht⟩
  cases hia : a.isInput with
  | false =>
    have hold := step_willEnd hia ha
    have hina : inputs (as ++ [a]) = inputs as := by rw [inputs_append]; simp [inputs, hia]
    rw [hina]
    exact ⟨bs, t, ht, hin, hfresh, hboxes.trans hold.1.symm, hend.trans hold.2.symm, hset, hptr⟩
  | true =>
    obtain ⟨hidle, hsame⟩ := step_input hia ha
    have htidle : t.gui = .idle := by
      have hnot : t.willEnd E = false := hend.trans (by unfold State.willEnd; rw [hidle]; rfl)
      unfold State.willEnd at hnot
      cases hg : t.gui <;> rw [hg] at hset hnot <;> first | rfl | (cases hset; done) | cases hnot
    obtain ⟨t₁, hstep, hb₁, he₁, hth₁, hck₁⟩ := hsame t htidle hboxes
    have hrun₁ : Lts.Steps (step E) Lts.anyStep (State.init m b) (bs ++ [a]) t₁ :=
      (Lts.steps_append bs [a] _ _).2 ⟨t, ht, (Lts.steps_single t a t₁).2 ⟨trivial, hstep⟩⟩
    have hfresh₁ : Fresh t₁ := fun w => by rw [hth₁]; exact hfresh w
    obtain ⟨cs, t₂, hcs, hf₂, hb₂, hc₂, he₂, hp₂, hs₂⟩ := alone_from ⟨bs ++ [a], hrun₁⟩ hfresh₁
    have hrun₂ : Lts.Steps (step E) Lts.anyStep (State.init m b) (bs ++ [a] ++ cs) t₂ :=
      (Lts.steps_append (bs ++ [a]) cs _ _).2 ⟨t₁, hrun₁, hcs.mono (fun _ _ _ => trivial)⟩
    have hina : inputs [a] = [a] := by simp [inputs, hia]
    refine ⟨bs ++ [a] ++ cs, t₂, hrun₂, ?_, hf₂, hb₂.trans hb₁, he₂.trans he₁, hs₂, fun hany => ?_⟩
    · rw [inputs_append, inputs_append, inputs_append, inputs_gui cs t₁ t₂ hcs, hin, List.append_nil]
    · rw [inputs_append, hina, List.any_append, Bool.or_eq_true] at hany
      rcases hany with hany | hany
      · exact hp₂ (fun w => by rw [hth₁]; exact hptr hany w)
      · have hca : a.checks = true := by simpa using hany
        rw [hca, if_pos rfl] at hck₁
        cases hc : t.checked with
        | true => exact hp₂ (fun w => by rw [hth₁]; exact ptr_of_checked hbt (made ⟨bs, ht⟩) hset hc w)
        | false =>
          rw [hc] at hck₁
          exact ptr_of_checked (basic ⟨_, hrun₂⟩) (made ⟨_, hrun₂⟩) hs₂ (hc₂.trans hck₁)

/-! ## What is left behind -/

/-- **Clean shutdown**: once the dialog is destroyed both worker threads have ended or were never created, and neither
takes a step. -/
def CleanShutdown (E : Env) (s : State) : Prop :=
  s.gui = .destroyed → ∀ w, ((s.thread w).pc = .absent ∨ (s.thread w).pc = .ended) ∧
    ∀ a, a.worker? = some w → step E s a = none

theorem no_step_of_gone {s : State} {w : Worker} (hb : Basic s)
    (h : (s.thread w).pc = .absent ∨ (s.thread w).pc = .ended) {a : Act} (ha : a.worker? = some w) :
    step E s a = none := by
  cases hs : step E s a with
  | none => rfl
  | some s' =>
    cases step_life hb.sided hs with
    | worker v m pc d ha' hr hm hs' =>
      rw [ha] at ha'
      cases ha'
      have hlive := (pcMove_live hm).1
      rcases h with h | h <;> rw [h] at hlive <;> cases hlive
    | rest ha' => rw [ha] at ha'; cases ha'
    | _ => rename_i ha' _ _; rw [ha'] at ha; cases ha

theorem checks_isInput {a : Act} (h : (inputs [a]).any Act.checks = false) : a.checks = false := by
  cases a with
  | click c => simpa [inputs, Act.isInput] using h
  | _ => rfl

theorem absent_of_no_check {m : Members} {b : Boxes} : ∀ (as : List Act) (s : State),
    Lts.Steps (step E) Lts.anyStep (State.init m b) as s → (inputs as).any Act.checks = false →
      s.checked = false ∧ ∀ w, (s.thread w).ptr = false := by
  refine Lts.Steps.inv (fun _ => ⟨rfl, fun _ => rfl⟩) ?_
  intro as u a v hu hi _ ha hno
  rw [inputs_append, List.any_append, Bool.or_eq_false_iff] at hno
  obtain ⟨hc, hp⟩ := hi hno.1
  have hb := basic ⟨as, hu⟩
  refine ⟨(step_checked ha (checks_isInput hno.2)).trans hc, ?_⟩
  refine forall_thread_step (R := fun _ t => t.ptr = false) hb.sided ha hp (fun w _ _ _ _ => hp w) (fun w _ _ => ?_)
    (fun w hg _ => ?_) (fun w _ _ => ?_) (fun _ _ _ => hp .sendThread)
  · rw [resume_ptr]; exact hp w
  · rw [checked_of_start hb.sided hg] at hc; cases hc
  · rw [suspend_ptr]; exact hp w

/-- **Which histories shut down cleanly**: of the histories of clicks and edits that can close the dialog, those without
a click on the check box. -/
theorem cleanShutdown_iff {m : Members} {b : Boxes} (h : List Act)
    (hend : ∃ as s, Lts.Steps (step E) Lts.anyStep (State.init m b) as s ∧ inputs as = h ∧ s.gui = .destroyed) :
    (∀ as s, Lts.Steps (step E) Lts.anyStep (State.init m b) as s → inputs as = h → CleanShutdown E s) ↔
      h.any Act.checks = false := by
  constructor
  · intro hclean
    by_contra hn
    obtain ⟨as, s, hs, rfl, hg⟩ := hend
    obtain ⟨bs, t, ht, hin, hfresh, -, he, hset, hptr⟩ := exists_fresh as s hs
    have hdes : t.gui = .destroyed := by
      have hwill : t.willEnd E = true := he.trans (by unfold State.willEnd; rw [hg]; rfl)
      unfold State.willEnd at hwill
      cases hgt : t.gui <;> rw [hgt] at hset hwill <;> first | rfl | (cases hset; done) | cases hwill
    have hp := hptr (by simpa using hn) .sendThread
    have hgone := (hclean bs t ht hin hdes .sendThread).1
    have habs := (basic (E := E) ⟨bs, ht⟩).set .sendThread hp
    rcases hfresh .sendThread with hpc | hpc
    · exact habs.2 hpc
    · rw [hpc] at hgone
      rcases hgone with hgone | hgone <;> cases hgone
  · rintro hno as s hs rfl hg w
    have habs : (s.thread w).pc = .absent := (basic (E := E) ⟨as, hs⟩).ptrInv w ((absent_of_no_check as s hs hno).2 w)
    exact ⟨.inl habs, fun a ha => no_step_of_gone (basic ⟨as, hs⟩) (.inl habs) ha⟩

theorem cleanShutdown_iff_close : ∃ s, Reached spdEnv Lts.anyStep (initMsgs 41) (initMsgs 41).shown s ∧
    s.gui = .destroyed ∧ CleanShutdown spdEnv s := by
  obtain ⟨s, hs, hg⟩ := exists_steps Lts.anyStep (fun s => s.gui.settled = true ∧ s.gui.willEnd spdEnv s.boxes = true)
    [.click .close, .gui, .gui, .gui] (by decide +kernel)
  have hdes : s.gui = .destroyed := by
    cases hgt : s.gui <;> rw [hgt] at hg <;> first | rfl | (cases hg.1; done) | cases hg.2
  exact ⟨s, ⟨_, hs⟩, hdes, (cleanShutdown_iff [.click .close] ⟨_, s, hs, rfl, hdes⟩).2 rfl _ s hs rfl⟩

/-- Escape while repeat sending runs. -/
theorem not_cleanShutdown_escape : ∃ s, Reached spdEnv Lts.anyStep (initMsgs 41) (initMsgs 41).shown s ∧
    (step spdEnv s (.work .sendThread)).isSome = true ∧ ¬ CleanShutdown spdEnv s := by
  obtain ⟨s, hr, hset, hend, hstep⟩ := exists_reached Lts.anyStep
    (fun s => s.gui.settled = true ∧ s.gui.willEnd spdEnv s.boxes = true ∧
      (step spdEnv s (.work .sendThread)).isSome = true)
    (checkClick ++ toRead .sendThread ++ [.click .cancel, .gui, .gui]) (by decide +kernel)
  have hdes : s.gui = .destroyed := by
    cases hgt : s.gui <;> rw [hgt] at hset hend <;> first | rfl | (cases hset; done) | cases hend
  refine ⟨s, hr, hstep, fun h => ?_⟩
  have hnone := (h hdes .sendThread).2 (.work .sendThread) rfl
  rw [hnone] at hstep
  cases hstep

end LogMaker
