import LogMaker.Opening
import LogMaker.Settings
/-!
# Unedited — what the dialog keeps while nobody edits it

Where the controls show the members, whatever is clicked, every exchange stores what is there already: until the user
edits a control no exchange is rejected and no member changes (`reached_unedited`).
-/
namespace LogMaker

variable {E : Env} {s s' : State} {a : Act}

def Act.edits : Act → Bool
  | .edit _ => true
  | _ => false

/-- What a worker has read of a row is the setting's. -/
def ThreadPc.reads (m : Members) : ThreadPc → Prop
  | .args r _ lvl msg => (∀ l ∈ lvl, l = m.strLevel r) ∧ ∀ x ∈ msg, x = m.strMsg r
  | _ => True

/-- The setting stands: the members are it, the controls show it, the workers read it, and no exchange is rejected. -/
structure Stands (m : Members) (p : State × Seen) : Prop where
  members : p.1.members = m
  boxes : p.1.boxes = m.shown
  accepted : ∀ hd, p.1.gui ≠ .invalid hd
  reads : ∀ w, (p.1.thread w).pc.reads m
  sent : ∀ x ∈ p.2.sent, x.2 = m.rowTexts.row x.1

variable {m : Members}

theorem exchangeField_shown (hs : ScansShown E) (hm : m.CountsInRange) (f : Field) :
    exchangeField E m.shown m f = (m, none) := by
  cases f with
  | level r => exact Prod.ext (congrArg (fun l => { m with strLevel := l }) (Function.update_eq_self r m.strLevel)) rfl
  | msg r => exact Prod.ext (congrArg (fun l => { m with strMsg := l }) (Function.update_eq_self r m.strMsg)) rfl
  | devName => rfl
  | cnt r =>
    have hscan : E.scan (m.shown.editCnt r) = some (m.nCnt r) := hs _ (hm r)
    simp only [exchangeField, hscan, hm r, ↓reduceIte, Function.update_eq_self]

/-- A statement of a handler leaves the setting, and rejects nothing. -/
theorem stands_of_move (hs : ScansShown E) (hm : m.CountsInRange) (hmem : s.members = m) (hbox : s.boxes = m.shown)
    (hacc : ∀ hd, s.gui ≠ .invalid hd) (h : GuiMove E s s.gui s') :
    s'.members = m ∧ ∀ hd, s'.gui ≠ .invalid hd := by
  generalize hg : s.gui = g at h
  cases h with
  | field hd f fs m' hf | abort hd f fs m' e hf =>
    rw [hmem, hbox, exchangeField_shown hs hm f] at hf
    cases hf
    try exact ⟨rfl, fun hd' he => by cases he⟩
  | dismissed hd => exact absurd hg (hacc hd)
  | updated hd => cases hd <;> exact ⟨hmem, fun hd' he => by cases he⟩
  | send _ _ _ _ _ _ q => cases q <;> exact ⟨hmem, fun hd' he => by cases he⟩
  | start w | suspend w => cases w <;> exact ⟨hmem, fun hd' he => by cases he⟩
  | closeNull c | deleteThread c => cases c <;> exact ⟨hmem, fun hd' he => by cases he⟩
  | _ => exact ⟨hmem, fun hd' he => by cases he⟩

theorem reads_nextRow (rest : List Row) : (nextRow rest).reads m := by
  cases rest with
  | nil => trivial
  | cons r rest => exact ⟨fun l hl => (by cases hl), fun x hx => by cases hx⟩

theorem reads_step (hb : Basic s) (hmem : s.members = m) (hi : ∀ w, (s.thread w).pc.reads m)
    (h : step E s a = some s') (w : Worker) : (s'.thread w).pc.reads m := by
  have hset : ∀ (x : Mem) (pc : ThreadPc), (({ s with mem := x }.setPc w pc).thread w).pc = pc := by
    intro x pc
    simp [setPc_eq]
  have hold := hi w
  cases step_thread hb h w with
  | rest ha hpc => rw [hpc]; exact hold
  | started ha hpc hpc' => rw [hpc']; trivial
  | answer ha hg hans =>
    cases hans with
    | send rest p p' x hpc hs => rw [hset x]; trivial
    | waitCnt str hpc => rw [hset _ .test]; trivial
  | work hr hw =>
    cases hw with
    | test hpc =>
      rw [hset s.mem]
      split
      · exact reads_nextRow _
      · trivial
    | argLevel r rest msg hpc =>
      rw [hpc] at hold
      rw [hset s.mem, hmem]
      exact ⟨fun l hl => by cases hl; rfl, hold.2⟩
    | argMsg r rest lvl hpc =>
      rw [hpc] at hold
      rw [hset s.mem, hmem]
      exact ⟨hold.1, fun x hx => by cases hx; rfl⟩
    | sent rest p x hpc hs => rw [hset x]; exact reads_nextRow _
    | send rest p p' x hpc hs => rw [hset x]; trivial
    | ret hpc => simp [ThreadPc.reads]
    | call | format | setCnt => rw [hset s.mem]; trivial

theorem sent_step {o : Seen} (hi : ∀ w, (s.thread w).pc.reads m) (ho : ∀ x ∈ o.sent, x.2 = m.rowTexts.row x.1)
    (a : Act) : ∀ x ∈ (o.see s a).sent, x.2 = m.rowTexts.row x.1 := by
  cases a with
  | gui =>
    simp only [Seen.see]
    split <;> exact ho
  | work w =>
    simp only [Seen.see]
    split
    · rename_i r rest lvl msg hpc
      have hr := hi w
      rw [hpc] at hr
      intro x hx
      rcases List.mem_append.1 hx with hx | hx
      · exact ho x hx
      · rw [List.mem_singleton.1 hx]
        exact Prod.ext (hr.1 lvl rfl) (hr.2 msg rfl)
    · exact ho
  | _ => exact ho

/-- **Until a control is edited the setting stands**: in every run with any clicks, the members stay the setting, the
controls show it, every exchange is accepted, and every message of a worker has the level and the text of its row. -/
theorem reached_unedited (hs : ScansShown E) (hm : m.CountsInRange) {p : State × Seen}
    (h : ReachedSeen E (fun _ a => a.edits = false) m m.shown p) : Stands m p := by
  have h0 : Stands m (watched m m.shown) :=
    ⟨rfl, rfl, fun hd he => (by cases he), fun w => trivial, fun x hx => by cases hx⟩
  refine h.inv h0 (fun u a v hu hi ha huv => ?_)
  obtain ⟨hstep, ho⟩ := Lts.watch_eq_some.1 huv
  have hreads := reads_step (basic hu.of_watch) hi.members hi.reads hstep
  have hsent := sent_step hi.reads hi.sent a
  rw [← ho] at hsent
  cases step_move hstep with
  | click c ha hg hs' =>
    refine ⟨?_, ?_, ?_, hreads, hsent⟩
    · rw [hs']; cases c <;> exact hi.members
    · rw [hs']; cases c <;> exact hi.boxes
    · rw [hs']; intro hd he; cases c <;> cases he
  | edit b hb => subst hb; cases ha
  | gui hgui h =>
    obtain ⟨hmem, hacc⟩ := stands_of_move hs hm hi.members hi.boxes hi.accepted (guiStep_move h)
    exact ⟨hmem, (guiStep_controls h).1.trans hi.boxes, hacc, hreads, hsent⟩
  | worker w x pc d hw hr hpm hs' =>
    refine ⟨?_, ?_, ?_, hreads, hsent⟩
    · rw [hs']; exact hi.members
    · rw [hs']; exact hi.boxes
    · rw [hs']; exact hi.accepted

/-- Repeat sending with a click on Send-9 in the first message of `sendThread`. -/
theorem reached_unedited_send : ∃ p : State × Seen,
    ReachedSeen spdEnv (fun _ a => a.edits = false) (initMsgs 41) (initMsgs 41).shown p ∧
    (p.2.sent.map Prod.fst = [0] ∧ p.2.older.length = 2) ∧ Stands (initMsgs 41) p := by
  obtain ⟨p, hp, hF⟩ := Lts.exists_steps_of_runIf (Lts.watch (step spdEnv) Seen.see) (fun _ a => a.edits = false)
    (fun p => p.2.sent.map Prod.fst = [0] ∧ p.2.older.length = 2) (watched (initMsgs 41) (initMsgs 41).shown)
    (checkClick ++ toRead .sendThread ++ .click (.send 8) :: List.replicate 32 .gui) (by decide +kernel)
  exact ⟨p, ⟨_, hp⟩, hF, reached_unedited scansShown_spdEnv (by unfold Members.CountsInRange; decide) ⟨_, hp⟩⟩

end LogMaker
