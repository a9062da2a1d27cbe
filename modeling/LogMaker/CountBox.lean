import LogMaker.Report
/-!
# CountBox — the number shown in `IDC_EDIT_SendCnt`

The GUI thread writes the counter to the box at once; a worker formats it, and the GUI thread writes the formatted
number when it next pumps.  A number on its way can be overtaken by a larger one: by the other worker's, or by the GUI
thread's own.  While none is, and no write sets the counter back behind the box, the box never decreases, and after a
stop it shows the counter (`reached_countBox`).
-/
namespace LogMaker

variable {E : Env}

/-- The count a worker has formatted and the box has not got yet. -/
def ThreadPc.pending : ThreadPc → Option UINT
  | .setCnt v | .waitCnt v => some v
  | _ => none

def pending (s : State) (w : Worker) : Option UINT := (s.thread w).pc.pending

/-- The count that a step writes to the box. -/
def writesBox (s : State) : Act → Option UINT
  | .gui => match s.gui with
    | .showCnt | .reportCnt _ => some s.mem.cnt
    | _ => none
  | .answer w => match (s.thread w).pc with
    | .waitCnt v => some v
    | _ => none
  | _ => none

/-- The value that a sender is about to write to the counter. -/
def SendPc.writes : SendPc → Option UINT
  | .write _ _ n => some (n + 1)
  | _ => none

def writesCnt (s : State) (a : Act) : Option UINT := a.sender?.bind (fun t => (pos s t).bind SendPc.writes)

/-- No write sets the counter below the number in the box or below a count on its way to it, and the box is not written
while a smaller count is on its way. -/
def CountsInOrder (s : State) (a : Act) : Prop :=
  (∀ n, writesCnt s a = some n → (∀ v, s.mem.sendCnt = formatD v → v ≤ n) ∧ ∀ w u, pending s w = some u → u ≤ n) ∧
  ∀ v, writesBox s a = some v → ∀ w u, pending s w = some u → v ≤ u

def shown (s : State) : Option UINT :=
  if s.mem.sendCnt = formatD (readD s.mem.sendCnt) then some (readD s.mem.sendCnt) else none

theorem shown_eq_some_iff (s : State) (v : UINT) : shown s = some v ↔ s.mem.sendCnt = formatD v := by
  unfold shown
  constructor
  · intro h
    split at h
    · rename_i hs
      cases h
      exact hs
    · cases h
  · intro h
    rw [h, readD_formatD, if_pos rfl]

instance (s : State) (a : Act) : Decidable (CountsInOrder s a) :=
  decidable_of_iff ((writesCnt s a).all (fun n => (shown s).all (fun v => decide (v ≤ n)) &&
        decide (∀ w, (pending s w).all (fun u => decide (u ≤ n)) = true)) = true ∧
      (writesBox s a).all (fun v => decide (∀ w, (pending s w).all (fun u => decide (v ≤ u)) = true)) = true)
    (by simp [CountsInOrder, Option.all_eq_true, shown_eq_some_iff])

inductive CountMove (s : State) (a : Act) (s' : State) : Prop where
  | count (n : UINT) (hw : writesCnt s a = some n) (hc : s'.mem.cnt = n) (hb : s'.mem.sendCnt = s.mem.sendCnt)
      (hp : ∀ w u, pending s' w = some u → pending s w = some u)
  | format (hc : s'.mem.cnt = s.mem.cnt) (hb : s'.mem.sendCnt = s.mem.sendCnt)
      (hp : ∀ w u, pending s' w = some u → pending s w = some u ∨ u = s.mem.cnt)
  | write (v : UINT) (hw : writesBox s a = some v) (hv : v = s.mem.cnt ∨ ∃ w, pending s w = some v)
      (hc : s'.mem.cnt = s.mem.cnt) (hb : s'.mem.sendCnt = formatD v)
      (hp : ∀ w u, pending s' w = some u → pending s w = some u)
  | rest (hc : s'.mem.cnt = s.mem.cnt) (hb : s'.mem.sendCnt = s.mem.sendCnt)
      (hp : ∀ w u, pending s' w = some u → pending s w = some u)

theorem pending_setThread {s s' : State} {w : Worker} {t : Thread} (hs : s'.thread = Function.update s.thread w t)
    (ht : ∀ u, t.pc.pending = some u → pending s w = some u) (v : Worker) (u : UINT) (hu : pending s' v = some u) :
    pending s v = some u := by
  unfold pending at hu
  rw [hs] at hu
  by_cases hv : v = w
  · subst hv
    rw [Function.update_self] at hu
    exact ht u hu
  · rw [Function.update_of_ne hv] at hu
    exact hu

theorem pending_nextRow (rest : List Row) : (nextRow rest).pending = none := by cases rest <;> rfl

theorem sendStep_count {t : Sender} {m m' : Mem} {p : SendPc} {q : Option SendPc}
    (h : sendStep E t m p = some (m', q)) : m'.sendCnt = m.sendCnt ∧ m'.cnt = p.writes.getD m.cnt := by
  cases sendStep_move h <;> exact ⟨rfl, rfl⟩

theorem answerStep_count {m m' : Mem} {p p' : SendPc} (h : answerStep m p = some (m', p')) :
    m'.sendCnt = m.sendCnt ∧ m'.cnt = m.cnt := by
  cases answerStep_move h <;> exact ⟨rfl, rfl⟩

theorem count_of_send {s s' : State} {t : Sender} {p : SendPc} {q : Option SendPc} (hp : pos s t = some p)
    (hs : sendStep E t s.mem p = some (s'.mem, q)) (hpend : ∀ w u, pending s' w = some u → pending s w = some u) :
    CountMove s t.act s' := by
  obtain ⟨hb, hc⟩ := sendStep_count hs
  cases hw : p.writes with
  | none => exact .rest (by rw [hc, hw]; rfl) hb hpend
  | some n =>
    rw [hw] at hc
    exact .count n (by simp [writesCnt, sender?_act, hp, hw]) hc hb hpend

theorem sendCnt_of_move {s s' : State} {g : GuiPc} (hg : s.gui = g) (h : GuiMove E s g s') :
    s'.mem.sendCnt = s.mem.sendCnt ∨ writesBox s .gui = some s.mem.cnt ∧ s'.mem.sendCnt = formatD s.mem.cnt := by
  cases h with
  | updated hd | dismissed hd => cases hd <;> exact .inl rfl
  | send _ _ _ _ _ _ _ hs => exact .inl (sendStep_count hs).1
  | showCnt | reportCnt => exact .inr ⟨by simp [writesBox, hg], rfl⟩
  | _ => exact .inl rfl

theorem guiStep_pending {s s' : State} (hb : Basic s) (h : guiStep E s = some s') (w : Worker) (u : UINT)
    (hu : pending s' w = some u) : pending s w = some u := by
  have hstep : step E s .gui = some s' := h
  cases step_life hb.sided hstep with
  | worker w m pc d ha => cases ha
  | start v ha hg hs =>
    refine pending_setThread (w := v) (by rw [hs]; rfl) (fun x hx => ?_) w u hu
    rw [pc_start hb.ptrInv v ThreadPc.pending rfl] at hx
    exact hx
  | suspend v ha hg hs =>
    refine pending_setThread (w := v) (by rw [hs]; rfl) (fun x hx => ?_) w u hu
    rw [pc_suspend] at hx
    exact hx
  | delete c ha hg hs =>
    have ht : s'.thread = Function.update s.thread .sendThread (s.thread .sendThread).delete := by rw [hs]; rfl
    exact pending_setThread ht (fun x hx => hx) w u hu
  | setFlag ha hg hs => rw [hs] at hu; exact hu
  | clearFlag ha hg hs => rw [hs] at hu; exact hu
  | rest ha ht => unfold pending at hu; rw [ht] at hu; exact hu

theorem guiStep_count {s s' : State} (hb : Basic s) (h : guiStep E s = some s') : CountMove s .gui s' := by
  have hpend := guiStep_pending hb h
  cases move_sender hb.ptrInv rfl (guiStep_move h) with
  | send t p q ha hp hs hpos =>
    rw [ha]
    exact count_of_send hp hs hpend
  | call t lvl msg ha hp hm hpos => exact .rest (by rw [hm]) (by rw [hm]) hpend
  | answer w p p' ha => cases ha
  | rest hm hpos =>
    have hc : s'.mem.cnt = s.mem.cnt := by
      obtain ⟨str, hm⟩ := hm
      rw [hm]
    rcases sendCnt_of_move rfl (guiStep_move h) with hsame | ⟨hw, hbox⟩
    · exact .rest hc hsame hpend
    · exact .write _ hw (.inl rfl) hc hbox hpend

theorem answer_count {s s' : State} {w : Worker} (h : AnswerMove s w s') : CountMove s (.answer w) s' := by
  cases h with
  | send rest p p' m hpc hs =>
    obtain ⟨hb, hc⟩ := answerStep_count hs
    exact .rest hc hb (pending_setThread rfl (fun u hu => by cases hu))
  | waitCnt str hpc =>
    have hpend : pending s w = some str := by simp [pending, hpc, ThreadPc.pending]
    exact .write str (by simp [writesBox, hpc]) (.inr ⟨w, hpend⟩) rfl rfl
      (pending_setThread rfl (fun u hu => by cases hu))

theorem work_count {s s' : State} {w : Worker} {a : Act} (h : WorkMove E s w a s') : CountMove s a s' := by
  cases h with
  | test hpc =>
    refine .rest rfl rfl (pending_setThread rfl (fun u hu => ?_))
    dsimp only at hu
    split at hu
    · rw [pending_nextRow] at hu; cases hu
    · cases hu
  | send rest p p' m hpc hs =>
    exact count_of_send (pos_of_pc hpc) hs (pending_setThread rfl (fun u hu => by cases hu))
  | sent rest p m hpc hs =>
    refine count_of_send (pos_of_pc hpc) hs (pending_setThread rfl (fun u hu => ?_))
    dsimp only at hu
    rw [pending_nextRow] at hu
    cases hu
  | format hpc =>
    refine .format rfl rfl (fun v u hu => ?_)
    by_cases hv : v = w
    · subst hv
      simp only [pending, setPc_eq, setThread_thread, Function.update_self, ThreadPc.pending, Option.some.injEq] at hu
      exact .inr hu.symm
    · simp only [pending, setPc_eq, setThread_thread, Function.update_of_ne hv] at hu
      exact .inl hu
  | setCnt str hpc =>
    refine .rest rfl rfl (pending_setThread rfl (fun u hu => ?_))
    cases hu
    simp [pending, hpc, ThreadPc.pending]
  | argLevel _ _ _ hpc | argMsg _ _ _ hpc | call _ _ _ _ hpc | ret hpc =>
    exact .rest rfl rfl (pending_setThread rfl (fun u hu => by cases hu))

/-- **What any step does to the counter, the box, and the counts on their way to it.** -/
theorem step_count {s s' : State} {a : Act} (hb : Basic s) (h : step E s a = some s') : CountMove s a s' := by
  cases step_cases h with
  | click c hg => cases c <;> exact .rest rfl rfl (fun _ _ hu => hu)
  | edit b hg => exact .rest rfl rfl (fun _ _ hu => hu)
  | gui h => exact guiStep_count hb h
  | work w hr h => exact work_count h
  | answer w hg h => exact answer_count h

/-! ## The box -/

/-- No count shown or on its way is ahead of the counter, and none on its way is behind the box. -/
structure InOrder (s : State) : Prop where
  pending : ∀ w u, pending s w = some u → u ≤ s.mem.cnt
  shown : ∀ v, s.mem.sendCnt = formatD v → v ≤ s.mem.cnt ∧ ∀ w u, LogMaker.pending s w = some u → v ≤ u

theorem inOrder_step {s s' : State} {a : Act} (hb : Basic s) (ha : CountsInOrder s a) (hi : InOrder s)
    (h : step E s a = some s') : InOrder s' ∧
      ∀ v, s.mem.sendCnt = formatD v → ∃ v', s'.mem.sendCnt = formatD v' ∧ v ≤ v' := by
  cases step_count hb h with
  | count n hw hc hbox hp =>
    obtain ⟨hshown, hpend⟩ := ha.1 n hw
    refine ⟨⟨fun w u hu => ?_, fun v hv => ?_⟩, fun v hv => ⟨v, by rw [hbox]; exact hv, BitVec.le_refl v⟩⟩
    · rw [hc]; exact hpend w u (hp w u hu)
    · rw [hbox] at hv
      rw [hc]
      exact ⟨hshown v hv, fun w u hu => (hi.shown v hv).2 w u (hp w u hu)⟩
  | format hc hbox hp =>
    refine ⟨⟨fun w u hu => ?_, fun v hv => ?_⟩, fun v hv => ⟨v, by rw [hbox]; exact hv, BitVec.le_refl v⟩⟩
    · rw [hc]
      rcases hp w u hu with hold | rfl
      · exact hi.pending w u hold
      · exact BitVec.le_refl _
    · rw [hbox] at hv
      rw [hc]
      refine ⟨(hi.shown v hv).1, fun w u hu => ?_⟩
      rcases hp w u hu with hold | rfl
      · exact (hi.shown v hv).2 w u hold
      · exact (hi.shown v hv).1
  | write x hw hx hc hbox hp =>
    have hxc : x ≤ s.mem.cnt := by
      rcases hx with rfl | ⟨w, hx⟩
      · exact BitVec.le_refl _
      · exact hi.pending w x hx
    refine ⟨⟨fun w u hu => by rw [hc]; exact hi.pending w u (hp w u hu), fun v hv => ?_⟩, fun v hv => ⟨x, hbox, ?_⟩⟩
    · have hvx : v = x := formatD_injective (hv.symm.trans hbox)
      subst hvx
      rw [hc]
      exact ⟨hxc, fun w u hu => ha.2 v hw w u (hp w u hu)⟩
    · rcases hx with rfl | ⟨w, hx⟩
      · exact (hi.shown v hv).1
      · exact (hi.shown v hv).2 w x hx
  | rest hc hbox hp =>
    refine ⟨⟨fun w u hu => by rw [hc]; exact hi.pending w u (hp w u hu), fun v hv => ?_⟩,
      fun v hv => ⟨v, by rw [hbox]; exact hv, BitVec.le_refl v⟩⟩
    rw [hbox] at hv
    rw [hc]
    exact ⟨(hi.shown v hv).1, fun w u hu => (hi.shown v hv).2 w u (hp w u hu)⟩

theorem inOrder {m : Members} {b : Boxes} {s : State} (h : Reached E CountsInOrder m b s) : InOrder s := by
  have hempty : ∀ v, formatD v ≠ [] := fun v => Decimal.signed_ne_nil v.toInt
  refine h.inv ⟨fun w u hu => (by cases hu), fun v hv => absurd hv.symm (hempty v)⟩ (fun u a v hu hi ha hs => ?_)
  exact (inOrder_step (basic hu) ha hi hs).1

def BoxGrows (s s' : State) : Prop :=
  ∀ v, s.mem.sendCnt = formatD v → ∃ v', s'.mem.sendCnt = formatD v' ∧ v.toInt ≤ v'.toInt

def BoxShowsCnt (s : State) : Prop := s.mem.sendCnt = formatD s.mem.cnt

theorem toInt_of_lt {v : UINT} (h : v.toNat < 2 ^ 31) : v.toInt = v.toNat := by
  have := BitVec.toInt_eq_toNat_cond v
  split at this <;> omega

/-- The counter is at most the number of sends. -/
theorem cnt_le_taken {P : State → Act → Prop} {m : Members} {b : Boxes} {s : State} (h : Reached E P m b s) :
    s.mem.cnt.toNat ≤ s.taken.card :=
  (Ticket.cnt_le_card (reach_ticket (fun _ _ _ _ _ => trivial) h)).1

theorem boxGrows {m : Members} {b : Boxes} {s s' : State} (h : Reached E CountsInOrder m b s)
    (h' : Lts.Reach (step E) CountsInOrder s s') (hN : s'.taken.card < 2 ^ 31) : BoxGrows s s' := by
  intro v hv
  have hgrow : ∃ v', s'.mem.sendCnt = formatD v' ∧ v ≤ v' := by
    refine h'.inv (I := fun t => ∃ v', t.mem.sendCnt = formatD v' ∧ v ≤ v') ⟨v, hv, BitVec.le_refl v⟩
      (fun u a t hu hi ha hs => ?_)
    obtain ⟨x, hx, hvx⟩ := hi
    obtain ⟨y, hy, hxy⟩ := (inOrder_step (basic (h.trans hu)) ha (inOrder (h.trans hu)) hs).2 x hx
    exact ⟨y, hy, BitVec.le_trans hvx hxy⟩
  obtain ⟨v', hv', hle⟩ := hgrow
  have hcnt : v'.toNat ≤ s'.mem.cnt.toNat := ((inOrder (h.trans h')).shown v' hv').1
  have hsends := cnt_le_taken (h.trans h')
  have hle' : v.toNat ≤ v'.toNat := hle
  refine ⟨v', hv', ?_⟩
  rw [toInt_of_lt (by omega), toInt_of_lt (by omega)]
  exact Int.ofNat_le.2 hle'

/-- With the box and every count on its way at the counter, it stays there until the counter is written. -/
theorem boxShowsCnt {P : State → Act → Prop} {m : Members} {b : Boxes} {s s' : State} (h : Reached E P m b s)
    (hs : BoxShowsCnt s) (hp : ∀ w u, pending s w = some u → u = s.mem.cnt)
    (h' : Lts.Reach (step E) (fun s a => P s a ∧ writesCnt s a = none) s s') : BoxShowsCnt s' := by
  refine (h'.inv (I := fun t => BoxShowsCnt t ∧ ∀ w u, pending t w = some u → u = t.mem.cnt) ⟨hs, hp⟩
    (fun u a t hu hi ha hst => ?_)).1
  obtain ⟨hshow, hpend⟩ := hi
  have hb := basic (h.trans (hu.mono (fun _ _ ha => ha.1)))
  unfold BoxShowsCnt at hshow ⊢
  cases step_count hb hst with
  | count n hw => rw [ha.2] at hw; cases hw
  | format hc hbox hp' =>
    rw [hc, hbox]
    refine ⟨hshow, fun w x hx => ?_⟩
    rcases hp' w x hx with hold | hnew
    · exact hpend w x hold
    · exact hnew
  | write v hw hv hc hbox hp' =>
    have hvc : v = u.mem.cnt := by
      rcases hv with hv | ⟨w, hv⟩
      · exact hv
      · exact hpend w v hv
    rw [hc, hbox, hvc]
    exact ⟨rfl, fun w x hx => hpend w x (hp' w x hx)⟩
  | rest hc hbox hp' => rw [hc, hbox]; exact ⟨hshow, fun w x hx => hpend w x (hp' w x hx)⟩

/-- **The count box agrees with the counter**, while no write sets the counter back behind the box and no count on its
way to the box is overtaken: in runs of fewer than `2 ^ 31` sends it never decreases, and from the stop handler's write
to the next write of the counter it shows the counter. -/
theorem reached_countBox {m : Members} {b : Boxes} :
    (∀ s s', Reached E CountsInOrder m b s → Lts.Reach (step E) CountsInOrder s s' → s'.taken.card < 2 ^ 31 →
      BoxGrows s s') ∧
    (∀ u s s' v, Reached E CountsInOrder m b u → u.gui = .reportCnt v → CountsInOrder u .gui →
      step E u .gui = some s → Lts.Reach (step E) (fun s a => CountsInOrder s a ∧ writesCnt s a = none) s s' →
      BoxShowsCnt s') := by
  refine ⟨fun s s' h h' hN => boxGrows h h' hN, fun u s s' v hu hg ha hs h' => ?_⟩
  have hwrite : writesBox u .gui = some u.mem.cnt := by simp [writesBox, hg]
  have hsnew : s = { u with mem := { u.mem with sendCnt := formatD u.mem.cnt }, gui := .reportBox v } := by
    simp only [step, guiStep, hg, Option.some.injEq] at hs
    exact hs.symm
  refine boxShowsCnt (hu.snoc .gui ha hs) (by rw [hsnew]; rfl) (fun w x hx => ?_) h'
  rw [hsnew] at hx ⊢
  exact BitVec.le_antisymm ((inOrder hu).pending w x hx) (ha.2 _ hwrite w x hx)

theorem eq_reportCnt {s : State} {v : UINT} (h : s.gui.reported = some v) (hw : (writesBox s .gui).isSome = true) :
    s.gui = .reportCnt v := by
  cases hg : s.gui <;> rw [hg] at h <;> cases h
  · rfl
  · simp [writesBox, hg] at hw

/-- One turn of `sendThread` shown, one message of `sendThread2`, and a stop. -/
theorem reached_countBox_stopped :
    ∃ s s', Reached spdEnv CountsInOrder (initMsgs 41) (initMsgs 41).shown s ∧
      Lts.Reach (step spdEnv) CountsInOrder s s' ∧
      s.mem.sendCnt = formatD 5 ∧ s'.mem.cnt = 6 ∧ BoxGrows s s' ∧ BoxShowsCnt s' := by
  obtain ⟨s, u, hs, hbox, hu, hrep, hw, ha, hcnt, hcard⟩ := Lts.exists_steps_append_of_runIf (step spdEnv) CountsInOrder
    (fun s => s.mem.sendCnt = formatD 5)
    (fun u => u.gui.reported = some 6 ∧ (writesBox u .gui).isSome = true ∧ CountsInOrder u .gui ∧ u.mem.cnt = 6 ∧
      u.taken.card < 2 ^ 31)
    (State.init (initMsgs 41) (initMsgs 41).shown)
    (checkClick ++ turn .sendThread ++ [.work .sendThread, .work .sendThread, .answer .sendThread])
    (toRead .sendThread2 ++ [.work .sendThread2, .work .sendThread2, .click .check] ++ List.replicate 38 .gui)
    (by decide +kernel) (by decide +kernel)
  have hg := eq_reportCnt hrep hw
  have hru : Reached spdEnv CountsInOrder (initMsgs 41) (initMsgs 41).shown u := Lts.Reach.trans ⟨_, hs⟩ ⟨_, hu⟩
  have hstep : step spdEnv u .gui =
      some { u with mem := { u.mem with sendCnt := formatD u.mem.cnt }, gui := .reportBox 6 } := by
    simp [step, guiStep, hg]
  have hsu : Lts.Reach (step spdEnv) CountsInOrder s u := ⟨_, hu⟩
  refine ⟨s, _, ⟨_, hs⟩, hsu.snoc .gui ha hstep, hbox, hcnt, ?_, ?_⟩
  · refine reached_countBox.1 s _ ⟨_, hs⟩ (hsu.snoc .gui ha hstep) ?_
    have htaken : ∀ (x : State), x.mem.nums = u.mem.nums → pos x = pos u → x.taken = u.taken := by
      intro x hx hp
      unfold State.taken
      rw [hx, hp]
    have hsame :
        State.taken { u with mem := { u.mem with sendCnt := formatD u.mem.cnt }, gui := .reportBox 6 } = u.taken :=
      htaken _ rfl (pos_of_same u { u with mem := { u.mem with sendCnt := formatD u.mem.cnt }, gui := .reportBox 6 }
        (by simp [hg, GuiPc.pos]) (fun _ => rfl))
    rw [hsame]
    exact hcard
  · exact reached_countBox.2 u _ _ 6 hru hg ha hstep (Lts.Reach.refl _)

/-- The count of `sendThread`'s first turn is on its way while `sendThread2` counts one more and the stop handler shows
it; its message box then delivers the older count. -/
theorem not_boxGrows_overtaken :
    ∃ s s', Reached spdEnv Lts.anyStep (initMsgs 41) (initMsgs 41).shown s ∧ Lts.Reach (step spdEnv) Lts.anyStep s s' ∧
      s'.gui.reported = some 6 ∧ (∀ w, (s'.thread w).suspends = 1) ∧ s'.taken.card < 2 ^ 31 ∧
      ¬ BoxGrows s s' ∧ ¬ BoxShowsCnt s' := by
  obtain ⟨s, s', hs, hbox, hs', hrep, hsus, hcard, hbox', hcnt'⟩ := Lts.exists_steps_append_of_runIf (step spdEnv)
    Lts.anyStep (fun s => s.mem.sendCnt = formatD 6)
    (fun s => s.gui.reported = some 6 ∧ (∀ w, (s.thread w).suspends = 1) ∧ s.taken.card < 2 ^ 31 ∧
      s.mem.sendCnt = formatD 5 ∧ s.mem.cnt = 6)
    (State.init (initMsgs 41) (initMsgs 41).shown)
    (checkClick ++ turn .sendThread ++ [.work .sendThread, .work .sendThread] ++ toRead .sendThread2 ++
      [.work .sendThread2, .work .sendThread2] ++ uncheckClick)
    [.answer .sendThread] (by decide +kernel) (by decide +kernel)
  refine ⟨s, s', ⟨_, hs⟩, ⟨_, hs'⟩, hrep, hsus, hcard, fun h => ?_, fun h => ?_⟩
  · obtain ⟨v', hv', hle⟩ := h 6 hbox
    cases formatD_injective (hbox'.symm.trans hv')
    exact absurd hle (by decide)
  · unfold BoxShowsCnt at h
    rw [hbox', hcnt'] at h
    exact absurd (formatD_injective h) (by decide)

end LogMaker
