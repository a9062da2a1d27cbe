import LogMaker.Clicks
import LogMaker.CountBox
import LogMaker.Opening
/-!
# Overtaken — counts out of order, and the box that goes back

`CountsInOrder` asks for no more than the box needs.  Past the first step against it a count on its way to the box is
behind the one shown, or the counter is behind a count shown or on its way: the first is delivered when the GUI thread
pumps, the second is shown by the next Send click, and the box goes back (`not_boxGrows_of_not_countsInOrder`).
-/
namespace LogMaker

variable {E : Env} {s s' : State} {a : Act} {w : Worker} {u v : UINT}

/-- A write of the counter or of the box leaves the counts on their way there, but for the one it delivers. -/
theorem pending_kept (hb : Basic s) (h : step E s a = some s') (hp : pending s w = some u)
    (hw : writesCnt s a ≠ none ∨ writesBox s a ≠ none) (hne : writesBox s a ≠ some u) : pending s' w = some u := by
  have hpc : (s.thread w).pc = .setCnt u ∨ (s.thread w).pc = .waitCnt u := by
    unfold pending at hp
    cases hpc : (s.thread w).pc <;> rw [hpc] at hp <;> cases hp
    · exact .inl rfl
    · exact .inr rfl
  have hpos : pos s (.worker w) = none := by
    rcases hpc with hpc | hpc <;> simp [pos, hpc, ThreadPc.pos]
  cases step_thread hb h w with
  | rest ha hpc' =>
    unfold pending
    rw [hpc']
    exact hp
  | started ha habs => rcases hpc with hpc | hpc <;> rw [habs] at hpc <;> cases hpc
  | answer ha hg hans =>
    subst ha
    rcases hpc with hpc | hpc
    · cases hans with
      | send rest p p' m hpc' => rw [hpc] at hpc'; cases hpc'
      | waitCnt str hpc' => rw [hpc] at hpc'; cases hpc'
    · exact absurd (by simp [writesBox, hpc]) hne
  | work hr hwork =>
    have hnone : writesCnt s a = none ∧ writesBox s a = none := by
      cases hwork <;> exact ⟨by simp [writesCnt, Act.sender?, hpos], rfl⟩
    rcases hw with hw | hw
    · exact absurd hnone.1 hw
    · exact absurd hnone.2 hw

/-- **A count on its way is delivered** while the GUI thread pumps. -/
theorem exists_delivered (hp : pending s w = some u) (hg : s.gui.pumps = true)
    (hsus : ∀ v, (s.thread w).pc = .setCnt v → (s.thread w).suspends = 0) :
    ∃ t, Lts.Reach (step E) Lts.anyStep s t ∧ t.mem = { s.mem with sendCnt := formatD u } ∧ t.gui = s.gui ∧
      pos t = pos s := by
  have hanswer : ∀ x : State, (x.thread w).pc = .waitCnt u → x.gui.pumps = true →
      ∃ t, Lts.Reach (step E) Lts.anyStep x t ∧ t.mem = { x.mem with sendCnt := formatD u } ∧ t.gui = x.gui ∧
        pos t = pos x := by
    intro x hpc hpump
    refine ⟨{ x with mem := { x.mem with sendCnt := formatD u } }.setPc w .test,
      .one (.answer w) trivial (by simp [step, hpump, answer, hpc]), rfl, rfl, ?_⟩
    exact pos_of_same _ _ rfl (thread_pos_setThread (by rw [hpc]; rfl))
  unfold pending at hp
  cases hpc : (s.thread w).pc <;> rw [hpc] at hp <;> cases hp
  case waitCnt => exact hanswer s hpc hg
  case setCnt =>
    have hsend : step E s (.work w) = some (s.setPc w (.waitCnt u)) := by simp [step, hsus u hpc, workerStep, hpc]
    obtain ⟨t, ht, hmem, hgui, hpos⟩ := hanswer (s.setPc w (.waitCnt u)) (by simp [setPc_eq]) hg
    refine ⟨t, (Lts.Reach.one (.work w) trivial hsend).trans ht, hmem, hgui, hpos.trans ?_⟩
    exact pos_of_same _ _ rfl (thread_pos_setThread (by rw [hpc]; rfl))

/-- **The counter is shown by a Send click** that has no message to send: the user sets the count boxes to 0 before. -/
theorem exists_shown (hs : ScansShown E) (hg : s.gui = .idle) :
    ∃ t, Lts.Reach (step E) Lts.anyStep s t ∧ t.mem = { s.mem with sendCnt := formatD s.mem.cnt } ∧
      pos t = pos s := by
  let m : Members := ⟨s.boxes.comboLevel, s.boxes.editDevName, s.boxes.editMsg, fun _ => 0⟩
  let x : State := { s with boxes := m.shown }
  have hedit : step E s (.edit m.shown) = some x := by simp [step, hg, x]
  have hclick : step E x (.click (.send 0)) = some (x.click (.send 0)) := by simp [step, hg, x]
  have hread : doDataExchange E x.boxes x.members = (m, none) :=
    doDataExchange_counts hs (m := m) (fun _ => show minMaxInt 0 = true by decide) rfl x.members
  have hexch := exchange_alone (E := E) (s := x) (.send 0) fields x.members
  rw [show exchangeFields E x.boxes x.members fields = (m, none) from hread] at hexch
  have hloop : GuiReach E { x with members := m, gui := .exchange (.send 0) [] }
      { x with members := m, gui := .loop (m.strLevel 0) (m.strMsg 0) 0 0 } := guiReach_one rfl
  have hleave : GuiReach E { x with members := m, gui := .loop (m.strLevel 0) (m.strMsg 0) 0 0 }
      { x with members := m, gui := .showCnt } := guiReach_one rfl
  have hshow : GuiReach E { x with members := m, gui := .showCnt }
      { x with members := m, mem := { s.mem with sendCnt := formatD s.mem.cnt }, gui := .sendBox } := guiReach_one rfl
  refine ⟨_, (Lts.Reach.one _ trivial hedit).trans ((Lts.Reach.one _ trivial hclick).trans
    (hexch.trans (hloop.trans (hleave.trans hshow))).any), rfl, pos_of_same _ _ ?_ (fun _ => rfl)⟩
  rw [hg]
  rfl

theorem taken_of_same {t : State} (hn : t.mem.nums = s.mem.nums) (hp : pos t = pos s) : t.taken = s.taken := by
  unfold State.taken
  rw [hn, hp]

/-- The box goes from one number to a smaller one. -/
theorem not_boxGrows (hv : s.mem.sendCnt = formatD v) (hu : s'.mem.sendCnt = formatD u) (hlt : u < v)
    (hbound : v.toNat < 2 ^ 31) : ¬ BoxGrows s s' := by
  intro h
  obtain ⟨v', hv', hle⟩ := h v hv
  obtain rfl : u = v' := formatD_injective (hu.symm.trans hv')
  have hnat : u.toNat < v.toNat := hlt
  rw [toInt_of_lt hbound, toInt_of_lt (by omega)] at hle
  omega

/-- A write of the counter leaves the box, and no step does both. -/
theorem step_writesCnt {n : UINT} (h : step E s a = some s') (hw : writesCnt s a = some n) :
    s'.mem.cnt = n ∧ s'.mem.sendCnt = s.mem.sendCnt ∧ writesBox s a = none := by
  obtain ⟨t, ht, hn⟩ := Option.bind_eq_some_iff.1 hw
  obtain ⟨p, hp, hn⟩ := Option.bind_eq_some_iff.1 hn
  obtain rfl := act_of_sender ht
  obtain ⟨q, hsend, -⟩ := act_in_send hp h
  obtain ⟨hbox, hcnt⟩ := sendStep_count hsend
  refine ⟨by rw [hcnt, hn]; rfl, hbox, ?_⟩
  cases t with
  | worker w => rfl
  | gui =>
    have hg : s.gui.pos = some p := hp
    unfold writesBox Sender.act
    cases hgui : s.gui <;> rw [hgui] at hg <;> first | rfl | cases hg

/-- The box gets a number at most the counter from a GUI thread that pumps next. -/
theorem step_writesBox (hi : InOrder s) (h : step E s a = some s') (hw : writesBox s a = some v) :
    v ≤ s.mem.cnt ∧ s'.mem.sendCnt = formatD v ∧ s'.gui.pumps = true := by
  cases a with
  | gui =>
    cases hg : s.gui with
    | showCnt | reportCnt x =>
      simp only [writesBox, hg] at hw
      simp only [step, guiStep, hg] at h
      cases hw
      cases h
      exact ⟨BitVec.le_refl _, rfl, rfl⟩
    | _ => simp [writesBox, hg] at hw
  | answer w =>
    cases hpc : (s.thread w).pc with
    | waitCnt x =>
      simp only [writesBox, hpc] at hw
      cases hw
      have hpend : pending s w = some v := by simp [pending, hpc, ThreadPc.pending]
      cases step_cases h with
      | answer w hg hans =>
        cases hans with
        | send rest p p' m hpc' => rw [hpc] at hpc'; cases hpc'
        | waitCnt str hpc' =>
          rw [hpc] at hpc'
          cases hpc'
          exact ⟨hi.pending w v hpend, rfl, hg⟩
      | work _ _ hwork => cases hwork
    | _ => simp [writesBox, hpc] at hw
  | _ => cases hw

/-- **The first step against it can take the box back**: after it, with no worker suspended between formatting a count
and sending it, and, where it writes the counter, the dialog in its modal loop, a run without any send goes on to a
smaller number in the box. -/
theorem not_boxGrows_of_not_countsInOrder (hscan : ScansShown E) {m : Members} {b : Boxes}
    (h : Reached E CountsInOrder m b s) (hn : ¬ CountsInOrder s a) (hs : step E s a = some s')
    (hN : s'.taken.card < 2 ^ 31) (hsus : ∀ w v, (s'.thread w).pc = .setCnt v → (s'.thread w).suspends = 0)
    (hidle : writesCnt s a ≠ none → s'.gui = .idle) :
    ∃ t t', Lts.Reach (step E) Lts.anyStep s' t ∧ Lts.Reach (step E) Lts.anyStep t t' ∧ t'.taken = s'.taken ∧
      ¬ BoxGrows t t' := by
  have hb := basic h
  have hi := inOrder h
  have hbound : ∀ v : UINT, v ≤ s.mem.cnt → v.toNat < 2 ^ 31 := by
    intro v hv
    have hcnt := cnt_le_taken h
    have hmono : s.taken.card ≤ s'.taken.card := Ticket.taken_mono (ticket_step hb hs (fun _ _ _ _ => trivial))
    have hv : v.toNat ≤ s.mem.cnt.toNat := hv
    omega
  unfold CountsInOrder at hn
  simp only [not_and_or, not_forall] at hn
  obtain ⟨n, hw, ⟨v, hv, hlt⟩ | ⟨w, u, hu, hlt⟩⟩ | ⟨v, hw, w, u, hu, hlt⟩ := hn
  · -- the counter is now behind the box: the next Send click shows it
    obtain ⟨hcnt, hbox, -⟩ := step_writesCnt hs hw
    obtain ⟨t, ht, hmem, hpos⟩ := exists_shown hscan (hidle (by rw [hw]; exact Option.some_ne_none n))
    have hboxt : t.mem.sendCnt = formatD n := by rw [hmem, hcnt]
    exact ⟨s', t, .refl _, ht, taken_of_same (by rw [hmem]) hpos,
      not_boxGrows (hbox.trans hv) hboxt (BitVec.not_le.1 hlt) (hbound v (hi.shown v hv).1)⟩
  · -- a count on its way is ahead of the counter now: it is delivered, then the next Send click shows the counter
    obtain ⟨hcnt, hbox, hnone⟩ := step_writesCnt hs hw
    have hg := hidle (by rw [hw]; exact Option.some_ne_none n)
    have hkept := pending_kept hb hs hu (.inl (by rw [hw]; exact Option.some_ne_none n))
      (by rw [hnone]; exact (Option.some_ne_none u).symm)
    obtain ⟨t, ht, hmem, hgui, hpos⟩ := exists_delivered hkept (by rw [hg]; rfl) (hsus w)
    obtain ⟨t', ht', hmem', hpos'⟩ := exists_shown (s := t) hscan (hgui.trans hg)
    have hboxt : t.mem.sendCnt = formatD u := by rw [hmem]
    have hboxt' : t'.mem.sendCnt = formatD n := by rw [hmem', hmem, hcnt]
    exact ⟨t, t', ht, ht', taken_of_same (by rw [hmem', hmem]) (hpos'.trans hpos),
      not_boxGrows hboxt hboxt' (BitVec.not_le.1 hlt) (hbound u (hi.pending w u hu))⟩
  · -- the box has just been written while a smaller count is on its way: it is delivered
    obtain ⟨hvc, hbox, hpump⟩ := step_writesBox hi hs hw
    have hne : writesBox s a ≠ some u := by
      rw [hw]
      rintro ⟨⟩
      exact hlt (BitVec.le_refl v)
    have hkept := pending_kept hb hs hu (.inr (by rw [hw]; exact Option.some_ne_none v)) hne
    obtain ⟨t, ht, hmem, hgui, hpos⟩ := exists_delivered hkept hpump (hsus w)
    have hboxt : t.mem.sendCnt = formatD u := by rw [hmem]
    exact ⟨s', t, .refl _, ht, taken_of_same (by rw [hmem]) hpos,
      not_boxGrows hbox hboxt (BitVec.not_le.1 hlt) (hbound v hvc)⟩

end LogMaker
