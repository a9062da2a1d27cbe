import LogMaker.Stops
/-!
# Controls — what the check box shows, and what it has switched

`OnBnClickedCheckSendrep` sets four things by separate statements: the label of the box, `m_bSendRep`, and the two
threads.  `Agrees` says that these are what the check box says.  It holds in every reached state in which the handler is
not between the click and its last statement (`reached_agrees`), whatever the exchange of the handler came to, and
whichever steps the workers make in between.
-/
namespace LogMaker

variable {E : Env} {s s' : State} {g : GuiPc} {a : Act}

/-- Between a click on the check box and the last statement that switches something for it. -/
def GuiPc.switching : GuiPc → Bool
  | .exchange .check _ | .invalid .check | .ifChecked | .labelStop | .setFlag | .start _ => true
  | .clearFlag | .labelRep | .suspend _ => true
  | _ => false

/-- Whether the box is labelled "stop" at a position of the GUI thread. -/
def GuiPc.labelled (checked : Bool) : GuiPc → Bool
  | .exchange .check _ | .invalid .check | .ifChecked => !checked
  | .labelStop | .suspend _ | .report | .reportCnt _ | .reportBox _ => false
  | .setFlag | .start _ | .clearFlag | .labelRep => true
  | _ => checked

def labelOf (stop : Bool) : CString := if stop then "stop".toList else "send rep".toList

theorem label_of_move (hi : s.sided = true) (hg : s.gui = g) (hl : s.label = labelOf (g.labelled s.checked))
    (h : GuiMove E s g s') : s'.label = labelOf (s'.gui.labelled s'.checked) := by
  have hc := (controls_of_move h).2
  have hside : g.sided s.checked (s.thread .sendThread).ptr = true := by rw [← hg]; exact hi
  cases h with
  | field hd | abort hd => cases hd <;> exact hl
  | updated hd | dismissed hd => cases hd <;> exact hl
  | send _ _ _ _ _ _ q => cases q <;> exact hl
  | checked h | unchecked h =>
    rw [h] at hl
    rw [hc, h]
    exact hl
  | labelStop | labelRep => rfl
  | start w =>
    have h : s.checked = true := hside
    cases w
    · exact hl
    · show s.label = labelOf s.checked
      rw [h]
      exact hl
  | suspend w => cases w <;> exact hl
  | reportBox v =>
    have h : s.checked = false := by simpa [GuiPc.sided] using hside
    show s.label = labelOf s.checked
    rw [h]
    exact hl
  | closeNull c | deleteThread c => cases c <;> exact hl
  | _ => exact hl

theorem label_step (hi : s.sided = true) (hl : s.label = labelOf (s.gui.labelled s.checked))
    (h : step E s a = some s') : s'.label = labelOf (s'.gui.labelled s'.checked) := by
  cases step_move h with
  | click c ha hg hs =>
    rw [hg] at hl
    rw [hs]
    cases c with
    | check =>
      show s.label = labelOf (!(!s.checked))
      rw [Bool.not_not]
      exact hl
    | _ => exact hl
  | edit b ha hg hs => rw [hs]; exact hl
  | gui ha h => exact label_of_move hi rfl hl (guiStep_move h)
  | worker w m pc d ha hr hm hs => rw [hs]; exact hl

/-- The label, the flag and the threads are what the check box says. -/
structure Agrees (s : State) : Prop where
  label : s.label = labelOf s.checked
  flag : s.bSendRep = s.checked
  made : s.checked = true → ∀ w, (s.thread w).ptr = true
  suspended : ∀ w, (s.thread w).pc.live = true → (s.thread w).deletes = 0 →
    (s.thread w).suspends = if s.checked then 0 else 1

/-- Where the handler switches nothing, its positions say what the check box says. -/
theorem positions_of_not_switching (hi : s.sided = true) (hsw : s.gui.switching = false) :
    s.gui.labelled s.checked = s.checked ∧ s.gui.flag s.checked = s.checked ∧ ∀ w, s.halts w = !s.checked := by
  unfold State.sided at hi
  unfold State.halts
  cases hg : s.gui with
  | exchange hd | invalid hd => rw [hg] at hsw; cases hd <;> first | exact ⟨rfl, rfl, fun _ => rfl⟩ | cases hsw
  | report | reportCnt | reportBox =>
    have hc : s.checked = false := by simpa [hg, GuiPc.sided] using hi
    rw [hc]
    exact ⟨rfl, rfl, fun _ => rfl⟩
  | _ => first | exact ⟨rfl, rfl, fun _ => rfl⟩ | (rw [hg] at hsw; cases hsw)

/-- **The dialog and its check box agree** in every reached state in which the handler of the box is not switching: the
label and the flag are the box's, repeat sending that is on has both threads, and a live thread whose object is not
deleted is suspended exactly when it is off. -/
theorem reached_agrees {P : State → Act → Prop} {m : Members} {b : Boxes} (h : Reached E P m b s)
    (hsw : s.gui.switching = false) : Agrees s := by
  have hb := basic h
  have hlabel : s.label = labelOf (s.gui.labelled s.checked) :=
    h.inv (I := fun u => u.label = labelOf (u.gui.labelled u.checked)) rfl
      (fun _ _ _ hu hl _ hs => label_step (basic hu).sided hl hs)
  obtain ⟨hl, hf, hh⟩ := positions_of_not_switching hb.sided hsw
  have hflag : s.bSendRep = s.checked := hb.flag.trans hf
  refine ⟨hlabel.trans (by rw [hl]), hflag, fun hc w => ?_, fun w hlive hdel => ?_⟩
  · exact made h w (by rw [hh, hc]; rfl) (by rw [hflag, hc])
  · rw [balanced h w hlive hdel, hh w]
    cases s.checked <;> rfl

/-- In the message box of the stop, and in the modal loop after the next start. -/
theorem reached_agrees_restarted : ∃ s t, Reached spdEnv Lts.anyStep (initMsgs 41) (initMsgs 41).shown s ∧
    Reached spdEnv Lts.anyStep (initMsgs 41) (initMsgs 41).shown t ∧
    (s.checked = false ∧ Agrees s) ∧ t.checked = true ∧ Agrees t := by
  obtain ⟨s, t, hs, ⟨hsw, hc⟩, ht, hsw', hc'⟩ := Lts.exists_steps_append_of_runIf (step spdEnv) Lts.anyStep
    (fun s => s.gui.switching = false ∧ s.checked = false) (fun s => s.gui.switching = false ∧ s.checked = true)
    (State.init (initMsgs 41) (initMsgs 41).shown) (checkClick ++ toRead .sendThread ++ uncheckClick)
    (.gui :: checkClick) (by decide +kernel) (by decide +kernel)
  have hrs : Reached spdEnv Lts.anyStep (initMsgs 41) (initMsgs 41).shown s := ⟨_, hs⟩
  have hrt : Reached spdEnv Lts.anyStep (initMsgs 41) (initMsgs 41).shown t := hrs.trans ⟨_, ht⟩
  exact ⟨s, t, hrs, hrt, ⟨hc, reached_agrees hrs hsw⟩, hc', reached_agrees hrt hsw'⟩

end LogMaker
