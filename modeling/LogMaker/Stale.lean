import LogMaker.Clicks
import LogMaker.Closing
import LogMaker.Handles
/-!
# Stale — what no handler undoes

The converse of `Handles`.  A worker's pointer is set once, and what holds of a thread through every call made on it
holds for ever (`created_kept`).  So a worker that has left its loop sends no more, however often the box is checked
(`not_bothSending_of_left`), and once an object is deleted every handler that uses its pointer uses a deleted one
(`not_handlesValid_of_stale`).  A worker's return leaves such a pointer, and so does an OK click that is rejected; the
next click of the check box uses it (`not_handlesValid_of_click`).
-/
namespace LogMaker

variable {E : Env} {P Q : State → Act → Prop} {m : Members} {b : Boxes} {s s' : State} {a : Act} {w : Worker}

/-- Created, and no more in its loop. -/
def Thread.left (t : Thread) : Bool := t.ptr && !t.pc.looping

/-- Created, with its object deleted. -/
def Thread.stale (t : Thread) : Bool := t.ptr && decide (0 < t.deletes)

/-- **What no move of a created thread and no call on it ends holds for ever.** -/
theorem created_kept {R : Thread → Prop} (hptr : ∀ t, R t → t.ptr = true)
    (hmove : ∀ u v pc d, PcMove u v pc d → R (u.thread v) → R { u.thread v with pc := pc, deletes := d })
    (hresume : ∀ t, R t → R t.resume) (hsuspend : ∀ t, R t → R t.suspend) (hdelete : ∀ t, R t → R t.delete)
    (h : Reached E P m b s) (hR : R (s.thread w)) (hr : Lts.Reach (step E) Q s s') : R (s'.thread w) := by
  refine hr.inv (I := fun u => R (u.thread w)) hR (fun u a v hu hi _ hs => ?_)
  have hsided := (basic (h.any.trans hu.any)).sided
  refine forall_thread_step (R := fun x t => x = w → R t) hsided hs (fun x hx => hx ▸ hi) (fun x pc d _ hm hx => ?_)
    (fun x _ _ hx => ?_) (fun x _ hp hx => ?_) (fun x _ _ hx => ?_) (fun _ _ _ hx => ?_) w rfl
  · subst hx; exact hmove u x pc d hm hi
  · subst hx; exact hresume _ hi
  · subst hx
    rw [hptr _ hi] at hp
    cases hp
  · subst hx; exact hsuspend _ hi
  · subst hx; exact hdelete _ hi

theorem left_kept (h : Reached E P m b s) (hl : (s.thread w).left = true) (hr : Lts.Reach (step E) Q s s') :
    (s'.thread w).left = true := by
  refine created_kept (R := fun t => t.left = true) (fun t ht => (Bool.and_eq_true_iff.1 ht).1)
    (fun u v pc d hm ht => ?_) (fun t ht => ?_) (fun t ht => ?_) (fun t ht => ht) h hl hr
  · obtain ⟨hp, hl⟩ := Bool.and_eq_true_iff.1 ht
    refine Bool.and_eq_true_iff.2 ⟨hp, ?_⟩
    cases hm with
    | stay hin => rw [hin] at hl; cases hl
    | leave htest => rw [htest] at hl; cases hl
    | finish _ h' => rw [h']; rfl
  · unfold Thread.left at ht ⊢
    rwa [resume_ptr, resume_pc]
  · unfold Thread.left at ht ⊢
    rwa [suspend_ptr, suspend_pc]

theorem stale_kept (h : Reached E P m b s) (hl : (s.thread w).stale = true) (hr : Lts.Reach (step E) Q s s') :
    (s'.thread w).stale = true := by
  refine created_kept (R := fun t => t.stale = true) (fun t ht => (Bool.and_eq_true_iff.1 ht).1)
    (fun u v pc d hm ht => ?_) (fun t ht => ?_) (fun t ht => ?_) (fun t ht => ?_) h hl hr
  · obtain ⟨hp, hd⟩ := Bool.and_eq_true_iff.1 ht
    have hd' : 0 < (u.thread v).deletes := of_decide_eq_true hd
    refine Bool.and_eq_true_iff.2 ⟨hp, decide_eq_true ?_⟩
    cases hm with
    | stay _ _ heq | leave _ _ _ heq => rw [heq]; exact hd'
    | finish _ _ heq => rw [heq]; exact Nat.succ_pos _
  · unfold Thread.stale at ht ⊢
    rwa [resume_ptr, resume_deletes]
  · unfold Thread.stale at ht ⊢
    rwa [suspend_ptr, suspend_deletes]
  · obtain ⟨hp, -⟩ := Bool.and_eq_true_iff.1 ht
    exact Bool.and_eq_true_iff.2 ⟨hp, decide_eq_true (Nat.succ_pos _)⟩

/-- **A worker that left its loop sends no more**, whatever check clicks are made after it. -/
theorem not_bothSending_of_left (h : Reached E P m b s) (hl : (s.thread w).left = true)
    (hr : Lts.Reach (step E) Q s s') (hst : s'.started = true) : ¬ BothSending s' := by
  intro hboth
  have hleft := left_kept h hl hr
  unfold Thread.left at hleft
  rw [(hboth hst w).2.1, Bool.not_true, Bool.and_false] at hleft
  cases hleft

/-- **Once an object is deleted, every use of its pointer is of a deleted object.** -/
theorem not_handlesValid_of_stale (h : Reached E P m b s) (hl : (s.thread w).stale = true)
    (hr : Lts.Reach (step E) Q s s') (hu : s'.uses w = true) : ¬ HandlesValid s' := by
  intro hvalid
  have hstale := stale_kept h hl hr
  unfold Thread.stale at hstale
  rw [(hvalid w).1 hu] at hstale
  simp at hstale

/-! ## How it comes -/

theorem stale_of_returns (h : Reached E P m b s) (hret : (s.thread w).pc = .ret) (ha : a.worker? = some w)
    (hs : step E s a = some s') : (s'.thread w).stale = true := by
  have hb := basic h
  cases step_life hb.sided hs with
  | worker v mem pc d ha' hr hm hs' =>
    cases Option.some.inj (ha.symm.trans ha')
    have hp : (s.thread w).ptr = true := by
      by_contra hn
      rw [hb.unset w (by simpa using hn)] at hret
      cases hret
    cases hm with
    | stay hin => rw [hret] at hin; cases hin
    | leave htest => rw [hret] at htest; cases htest
    | finish _ _ hd =>
      rw [hs', setThread_thread, Function.update_self]
      exact Bool.and_eq_true_iff.2 ⟨hp, decide_eq_true (by rw [hd]; exact Nat.succ_pos _)⟩
  | rest ha' => rw [ha] at ha'; cases ha'
  | _ => rename_i ha' _ _; rw [ha'] at ha; cases ha

theorem fieldValid_of_exchanged : ∀ (fs : List Field) (ms : Members), (exchangeFields E s.boxes ms fs).2 = none →
    ∀ f ∈ fs, fieldValid E s.boxes f = true
  | [], _, _, _, hf => by cases hf
  | f :: fs, ms, hnone, g, hg => by
    rcases hf : exchangeField E s.boxes ms f with ⟨ms', _ | e⟩
    · simp only [exchangeFields, hf] at hnone
      rcases List.mem_cons.1 hg with rfl | hg
      · exact (exchangeField_valid_iff s.boxes ms g).1 (by rw [hf])
      · exact fieldValid_of_exchanged fs ms' hnone g hg
    · simp [exchangeFields, hf] at hnone

/-- **An OK click that validation rejects** leaves the dialog open with `m_pThreadSend` to a deleted object. -/
theorem stale_of_rejected (hp : (s.thread .sendThread).ptr = true) (hv : ¬ CountsValid E s.boxes) :
    ∃ t, GuiReach E (s.click .ok) t ∧ t.gui = .idle ∧ (t.thread .sendThread).stale = true := by
  have hclose : GuiReach E (s.click .ok) { s with gui := .getExitCode .ok } :=
    guiReach_one (by simp [guiStep, State.click, hp])
  have hexit : GuiReach E { s with gui := .getExitCode .ok } { s with gui := .deleteThread .ok } := guiReach_one rfl
  let u := { s with gui := .exchange .ok fields }.setThread .sendThread (s.thread .sendThread).delete
  have hdelete : GuiReach E { s with gui := .deleteThread .ok } u := guiReach_one rfl
  have hexch := exchange_alone (E := E) (s := u) .ok fields u.members
  have habort : (exchangeFields E u.boxes u.members fields).2 ≠ none := by
    intro hnone
    refine hv (fun r => ?_)
    have hf : fieldValid E s.boxes (.cnt r) = true :=
      fieldValid_of_exchanged (s := u) fields u.members hnone (.cnt r) (by simp [fields, mem_rows])
    simpa [fieldValid] using hf
  rw [if_neg habort] at hexch
  refine ⟨_, hclose.trans (hexit.trans (hdelete.trans (hexch.trans (guiReach_one rfl)))), rfl, ?_⟩
  have hself : u.thread .sendThread = (s.thread .sendThread).delete := by simp [u]
  show (u.thread .sendThread).stale = true
  rw [hself]
  exact Bool.and_eq_true_iff.2 ⟨hp, decide_eq_true (Nat.succ_pos _)⟩

/-! ## Clicks of the check box -/

/-- In the handler of the check box, before its call on the worker's thread. -/
def GuiPc.toUse (w : Worker) : GuiPc → Bool
  | .exchange .check _ | .invalid .check | .ifChecked | .labelStop | .setFlag | .clearFlag | .labelRep => true
  | .start .sendThread | .suspend .sendThread => true
  | .start .sendThread2 | .suspend .sendThread2 => w = .sendThread2
  | _ => false

theorem toUse_of_move {g : GuiPc} (hg : s.gui = g) (hu : s.uses w = false) (hp : (s.thread w).ptr = true)
    (ht : g.toUse w = true) (h : GuiMove E s g s') : s'.gui.toUse w = true := by
  unfold State.uses at hu
  rw [hg] at hu
  cases h with
  | field hd | abort hd | updated hd | dismissed hd => cases hd <;> first | rfl | cases ht
  | start v | suspend v => cases v <;> cases w <;> first | rfl | (simp [hp] at hu; done) | cases ht
  | checked | unchecked | labelStop | setFlag | clearFlag | labelRep => rfl
  | _ => cases ht

theorem needs_of_toUse {g : GuiPc} {k : Sink} (h : g.toUse w = true) : g.needs E k = false := by
  cases g with
  | exchange hd | invalid hd => cases hd <;> first | rfl | cases h
  | _ => first | rfl | cases h

theorem settled_of_toUse {g : GuiPc} (h : g.toUse w = true) : g.settled = false := by
  cases g <;> first | rfl | cases h

/-- The handler of the check box comes to its call on the worker's thread by the GUI thread's steps alone. -/
theorem exists_uses (h : Reached E P m b s) (hp : (s.thread w).ptr = true) (hg : s.gui.toUse w = true) :
    ∃ t, GuiReach E s t ∧ t.uses w = true := by
  have hlower : ∀ u, (Reached E Lts.anyStep m b u ∧ (u.thread w).ptr = true ∧ u.gui.toUse w = true) →
      ¬ u.uses w = true → ∃ v, GuiReach E u v ∧
        (Reached E Lts.anyStep m b v ∧ (v.thread w).ptr = true ∧ v.gui.toUse w = true) ∧
        v.gui.rank E < u.gui.rank E := by
    rintro u ⟨hu, hpu, htu⟩ hn
    have hclear : Clear E u := fun _ _ _ => needs_of_toUse htu
    obtain ⟨v, hv⟩ := guiStep_enabled (held hu) (placed hu) hclear (settled_of_toUse htu)
    have hstep : step E u .gui = some v := hv
    have hpv := created_kept (R := fun t => t.ptr = true) (fun _ h => h) (fun _ _ _ _ _ h => h)
      (fun t h => by rw [resume_ptr]; exact h) (fun t h => by rw [suspend_ptr]; exact h) (fun _ h => h) hu hpu
      (Lts.Reach.one (P := Lts.anyStep) .gui trivial hstep)
    exact ⟨v, guiReach_one hv, ⟨hu.snoc .gui trivial hstep, hpv, toUse_of_move rfl (by simpa using hn) hpu htu
      (guiStep_move hv)⟩, rank_of_move (bounded hu) (guiStep_move hv)⟩
  obtain ⟨t, hr, -, hF⟩ := Lts.Reach.of_rank (fun u => u.gui.rank E) hlower s ⟨h.any, hp, hg⟩
  exact ⟨t, hr, hF⟩

/-- In the handler of a click that checks the box. -/
def GuiPc.inStart : GuiPc → Bool
  | .exchange .check _ | .invalid .check | .ifChecked | .labelStop | .setFlag | .start _ | .idle => true
  | _ => false

theorem inStart_of_move {g : GuiPc} (hc : s.checked = true) (hg : g.inStart = true) (h : GuiMove E s g s') :
    s'.gui.inStart = true := by
  cases h with
  | field hd | abort hd | updated hd | dismissed hd => cases hd <;> first | rfl | cases hg
  | start v => cases v <;> rfl
  | checked | labelStop | setFlag => rfl
  | unchecked hc' => rw [hc] at hc'; cases hc'
  | _ => cases hg

theorem exists_started (h : Reached E P m b s) (hc : s.checked = true) (hg : s.gui.inStart = true) :
    ∃ t, GuiReach E s t ∧ t.started = true := by
  have hclear : Clear E s := fun _ _ _ => by
    cases hgs : s.gui with
    | exchange hd | invalid hd => rw [hgs] at hg; cases hd <;> first | rfl | cases hg
    | _ => rw [hgs] at hg; first | rfl | cases hg
  have hI : ∀ u v, Reached E Lts.anyStep m b u → (u.checked = true ∧ u.gui.inStart = true) → guiStep E u = some v →
      v.checked = true ∧ v.gui.inStart = true := fun u v _ hu hv =>
    ⟨(guiStep_controls hv).2.trans hu.1, inStart_of_move hu.1 hu.2 (guiStep_move hv)⟩
  obtain ⟨t, hr, ⟨hct, hgt⟩, hset⟩ := gui_alone (P := fun _ a => a = .gui) hI (fun _ _ => rfl) h.any hclear ⟨hc, hg⟩
  refine ⟨t, hr, ?_⟩
  have hidle : t.gui = .idle := by
    cases hgu : t.gui <;> rw [hgu] at hset hgt <;> first | rfl | (cases hset; done) | cases hgt
  simp [State.started, State.starting, hct, hidle, GuiPc.starting]

/-- **Every check click against `StartClean`** leaves repeat mode on with a worker that does not send. -/
theorem not_bothSending_of_not_startClean (h : Reached E P m b s) (ha : a.closes = false) (hn : ¬ StartClean s a)
    (hs : step E s a = some s') : ∃ t, GuiReach E s' t ∧ t.started = true ∧ ¬ BothSending t := by
  obtain ⟨hcheck, hc, w, hp, hl⟩ : a.checks = true ∧ s.checked = false ∧
      ∃ w, (s.thread w).ptr = true ∧ (s.thread w).pc.looping ≠ true := by
    by_contra hno
    push Not at hno
    exact hn ⟨ha, hno⟩
  have hclick : a = .click .check := by
    cases a with
    | click c => cases c <;> first | rfl | cases hcheck
    | _ => cases hcheck
  subst hclick
  have hleft : (s.thread w).left = true := by simp [Thread.left, hp, hl]
  have hreached : Reached E Lts.anyStep m b s' := h.any.snoc (.click .check) trivial hs
  have hs' : s' = s.click .check := by
    cases step_cases hs with
    | click c hg => rfl
    | work w hr h => cases h
  obtain ⟨t, hr, hst⟩ := exists_started hreached (by rw [hs']; simp [State.click, hc]) (by rw [hs']; rfl)
  have hone : Lts.Reach (step E) Lts.anyStep s s' := .one (.click .check) trivial hs
  exact ⟨t, hr, hst, not_bothSending_of_left h hleft (hone.trans hr.any) hst⟩

/-- **In an open dialog with a stale pointer the next click of the check box uses it.** -/
theorem not_handlesValid_of_click (h : Reached E P m b s) (hg : s.gui = .idle) (hl : (s.thread w).stale = true) :
    ∃ t, GuiReach E (s.click .check) t ∧ ¬ HandlesValid t := by
  have hstep : step E s (.click .check) = some (s.click .check) := by simp only [step, hg]
  have hclick : Reached E Lts.anyStep m b (s.click .check) := h.any.snoc (.click .check) trivial hstep
  obtain ⟨t, hr, hu⟩ := exists_uses hclick (Bool.and_eq_true_iff.1 hl).1 rfl
  exact ⟨t, hr, not_handlesValid_of_stale hclick hl hr hu⟩

end LogMaker
