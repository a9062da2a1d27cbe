import LogMaker.Counter
import LogMaker.Stops
/-!
# Report — what the stop handler reports

`OnBnClickedCheckSendrep` reports `g_nSendCnt` once it has suspended both workers.  A send is counted before it is
logged, so the report counts the messages delivered when no worker was suspended in between (`reached_reportExact`).
-/
namespace LogMaker

/-- Counted, and `toSpdLog` has not returned. -/
def SendPc.counted : SendPc → Bool
  | .make _ _ _ | .lock _ _ _ _ | .wait _ _ _ _ | .sink _ _ _ _ _ | .ret _ _ => true
  | _ => false

/-- From the `Format` of the message to the end of its box. -/
def GuiPc.reports : GuiPc → Bool
  | .report | .reportCnt _ | .reportBox _ => true
  | _ => false

def GuiPc.reported : GuiPc → Option UINT
  | .reportCnt v | .reportBox v => some v
  | _ => none

/-- Send and check box clicks, and every `g_nSendCnt++` one step: between its read and its write nothing else happens. -/
def Indivisible (s : State) (a : Act) : Prop :=
  a.closes = false ∧ ∀ t, (pos s t).any SendPc.torn = true → a.sender? = some t

/-- No worker is suspended with a message counted and not logged. -/
def StopSettled (s : State) (a : Act) : Prop :=
  ∀ w, suspends? s a = some w → (pos s (.worker w)).any SendPc.counted = false

instance (s : State) (a : Act) : Decidable (Indivisible s a) := by unfold Indivisible; infer_instance
instance (s : State) (a : Act) : Decidable (StopSettled s a) := by unfold StopSettled; infer_instance

/-- **The stop report counts the delivered messages**: the counter it formats, for the message and for the count box, is
the number of finished `toSpdLog` calls, the message shows that number, and no message is counted and not logged. -/
def ReportExact (s : State) : Prop :=
  s.gui.reports = true → s.mem.cnt = BitVec.ofNat 32 s.mem.logged.length ∧
    (∀ v, s.gui.reported = some v → v = s.mem.cnt) ∧ ∀ t, (pos s t).any SendPc.counted = false

theorem not_torn_of_reads {q : Option SendPc} (h : q.any SendPc.reads = true) : q.any SendPc.torn = false := by
  cases q with
  | none => rfl
  | some p => cases p <;> first | rfl | cases h

theorem incrAlone_of_indivisible {s : State} {a : Act} (h : Indivisible s a) : IncrAlone s a := by
  intro t ht hread u
  by_contra hu
  have hu' : (pos s u).any SendPc.torn = true := by simpa using hu
  have htu : t = u := Option.some.inj (ht.symm.trans (h.2 u hu'))
  subst htu
  exact hu (not_torn_of_reads hread)

theorem open_of_not_counted {q : Option SendPc} (h : q.any SendPc.counted = false) : (slotOf q).open = 0 := by
  cases q with
  | none => rfl
  | some p => cases p <;> first | rfl | cases h

theorem open_of_counted {q : Option SendPc} (h : q.any SendPc.counted = true) : (slotOf q).open = 1 := by
  cases q with
  | none => cases h
  | some p => cases p <;> first | rfl | cases h

theorem sum_senders (f : Sender → Nat) :
    ∑ t, f t = f .gui + (f (.worker .sendThread) + f (.worker .sendThread2)) := rfl

/-- **The counter is the number of messages delivered exactly when none is counted and not logged.** -/
theorem cnt_eq_logged_iff {E : Env} {m : Members} {b : Boxes} {s : State} (h : Reached E Indivisible m b s) :
    s.mem.cnt = BitVec.ofNat 32 s.mem.logged.length ↔ ∀ t, (pos s t).any SendPc.counted = false := by
  have hcnt : s.mem.cnt = BitVec.ofNat 32 (s.mem.logged.length + ∑ t, (slotOf (pos s t)).open) :=
    (ticketInv (h.mono (fun s a ha => incrAlone_of_indivisible ha))).cnt
  rw [hcnt]
  constructor
  · intro heq
    have hle : ∀ t, (slotOf (pos s t)).open ≤ 1 := fun t => by cases slotOf (pos s t) <;> simp
    have hsum : ∑ t, (slotOf (pos s t)).open = (slotOf (pos s .gui)).open +
      ((slotOf (pos s (.worker .sendThread))).open + (slotOf (pos s (.worker .sendThread2))).open) := sum_senders _
    have hmod := congrArg BitVec.toNat heq
    rw [BitVec.toNat_ofNat, BitVec.toNat_ofNat] at hmod
    have h1 := hle .gui
    have h2 := hle (.worker .sendThread)
    have h3 := hle (.worker .sendThread2)
    have hzero : ∑ t, (slotOf (pos s t)).open = 0 := by omega
    intro t
    by_contra hn
    have hone := open_of_counted (q := pos s t) (by simpa using hn)
    rcases t with _ | _ | _ <;> omega
  · intro hn
    rw [Finset.sum_eq_zero (fun t _ => open_of_not_counted (hn t)), Nat.add_zero]

theorem halts_of_reports {s : State} (h : s.gui.reports = true) (w : Worker) : s.halts w = true := by
  cases hg : s.gui <;> rw [hg] at h <;> first | (rw [halts_of hg rfl]; rfl) | cases h

theorem pos_of_reports {s : State} (h : s.gui.reports = true) : pos s .gui = none := by
  cases hg : s.gui <;> rw [hg] at h <;> first | (unfold pos; rw [hg]; rfl) | cases h

theorem reports_of_reported {g : GuiPc} {v : UINT} (h : g.reported = some v) : g.reports = true := by
  cases g <;> first | rfl | cases h

theorem reported_of_move {E : Env} {s s' : State} {g : GuiPc} (h : GuiMove E s g s') {v : UINT}
    (hv : s'.gui.reported = some v) : g.reported = some v ∨ g = .report ∧ v = s.mem.cnt := by
  cases h with
  | updated hd | dismissed hd => cases hd <;> cases hv
  | send _ _ _ _ _ _ q => cases q <;> cases hv
  | start w | suspend w => cases w <;> cases hv
  | report => cases hv; exact .inr ⟨rfl, rfl⟩
  | reportCnt v' => cases hv; exact .inl rfl
  | closeNull c | deleteThread c => cases c <;> cases hv
  | _ => cases hv

theorem step_reported {E : Env} {s s' : State} {a : Act} (h : step E s a = some s') {v : UINT}
    (hv : s'.gui.reported = some v) : s.gui.reported = some v ∨ a = .gui ∧ s.gui = .report ∧ v = s.mem.cnt := by
  cases step_move h with
  | click c ha hg hs => subst hs; cases c <;> cases hv
  | edit b ha hg hs => subst hs; exact .inl hv
  | gui ha h => exact (reported_of_move (guiStep_move h) hv).imp id (fun hr => ⟨ha, hr⟩)
  | worker w m pc d ha hr hm hs => rw [hs] at hv; exact .inl hv

theorem cnt_of_reports {E : Env} {s s' : State} {a : Act} (hb : Basic s) (hi : Balanced s) (ho : Open s)
    (hr : s.gui.reports = true) (h : step E s a = some s') : s'.mem.cnt = s.mem.cnt := by
  cases step_sender hb.ptrInv h with
  | send t p q ha hp hs hpos =>
    cases t with
    | gui => rw [pos_of_reports hr] at hp; cases hp
    | worker w =>
      have := halted_answer hb hi ho h (by rw [ha]; rfl) (halts_of_reports hr w)
      rw [this] at ha
      cases ha
  | call t lvl msg ha hp hm hpos => rw [hm]
  | answer w p p' ha hg hp hs hpos => exact (answerStep_same hs).1
  | rest hm hpos =>
    obtain ⟨str, hm⟩ := hm
    rw [hm]

theorem reported_eq {E : Env} {P : State → Act → Prop} (hP : ∀ s a, P s a → a.closes = false) {m : Members} {b : Boxes}
    {s : State} (h : Reached E P m b s) : ∀ v, s.gui.reported = some v → v = s.mem.cnt := by
  refine h.inv (I := fun s => ∀ v, s.gui.reported = some v → v = s.mem.cnt) (fun v hv => by cases hv)
    (fun u a u' hu hi ha hs v hv => ?_)
  have hb := basic hu
  have hcnt := fun hr => cnt_of_reports hb (balanced hu) (open_ hP hu) hr hs
  rcases step_reported hs hv with hold | ⟨_, hg, rfl⟩
  · rw [hcnt (reports_of_reported hold)]
    exact hi v hold
  · rw [hcnt (by rw [hg]; rfl)]

/-- **While no worker is suspended with a message counted and not logged, the report is exact.** -/
theorem reached_reportExact {E : Env} {m : Members} {b : Boxes} {s : State}
    (h : Reached E (fun s a => Indivisible s a ∧ StopSettled s a) m b s) : ReportExact s := by
  intro hr
  have hopen : ∀ s a, (Indivisible s a ∧ StopSettled s a) → a.closes = false := fun s a ha => ha.1.1
  have hkept : Kept (fun q => !q.any SendPc.counted) s := by
    refine h.inv (fun w _ => rfl) (fun u a v hu hi ha hs => ?_)
    refine kept_step (basic hu) (balanced hu) (open_ hopen hu) (fun m p m' p' hans => ?_) (fun w hw => ?_) hi hs
    · cases answerStep_move hans <;> rfl
    · rw [ha.2 w hw]
      rfl
  have hnot : ∀ t, (pos s t).any SendPc.counted = false := by
    intro t
    cases t with
    | gui => rw [pos_of_reports hr]; rfl
    | worker w => simpa using hkept w (halts_of_reports hr w)
  exact ⟨(cnt_eq_logged_iff (h.mono (fun _ _ ha => ha.1))).2 hnot, reported_eq hopen h, hnot⟩

/-- **A stop against `StopSettled`** comes to a report that is not exact. -/
theorem not_reportExact_of_not_settled {E : Env} {P : State → Act → Prop} {m : Members} {b : Boxes} {s s' : State}
    {a : Act} (h : Reached E P m b s) (hn : ¬ StopSettled s a) (hs : step E s a = some s') :
    ∃ t, Lts.Reach (step E) (fun _ a => a = .gui) s' t ∧ t.gui.reports = true ∧ ¬ ReportExact t := by
  obtain ⟨w, hw, hcount⟩ : ∃ w, suspends? s a = some w ∧ (pos s (.worker w)).any SendPc.counted ≠ false := by
    by_contra hno
    push Not at hno
    exact hn hno
  obtain ⟨rfl, hg⟩ := suspends?_eq_some hw
  have hgui : s'.gui = afterSuspend w := by
    simp only [step, guiStep, hg, Option.some.injEq] at hs
    rw [← hs]
    rfl
  have hpos := guiStep_worker (basic h).ptrInv hs w
  have hnot : ∀ t : State, pos t (.worker w) = pos s (.worker w) → t.gui.reports = true → ¬ ReportExact t := by
    intro t ht hrep hexact
    rw [← ht] at hcount
    exact hcount ((hexact hrep).2.2 (.worker w))
  cases w with
  | sendThread2 =>
    have hrep : s'.gui.reports = true := by rw [hgui]; rfl
    exact ⟨s', .refl _, hrep, hnot s' hpos hrep⟩
  | sendThread =>
    -- the other worker is suspended first
    obtain ⟨t, ht⟩ : ∃ t, guiStep E s' = some t := ⟨_, by simp only [guiStep, hgui, afterSuspend]; rfl⟩
    have hrep : t.gui.reports = true := by
      simp only [guiStep, hgui, afterSuspend, Option.some.injEq] at ht
      rw [← ht]
      rfl
    have hb' := basic (h.any.snoc .gui trivial hs)
    have hpos' := (guiStep_worker hb'.ptrInv ht .sendThread).trans hpos
    exact ⟨t, .one .gui rfl ht, hrep, hnot t hpos' hrep⟩

theorem reached_reportExact_one :
    ∃ s, Reached spdEnv (fun s a => Indivisible s a ∧ StopSettled s a) (initMsgs 41) (initMsgs 41).shown s ∧
      s.gui.reports = true ∧ s.mem.logged.length = 1 ∧ ReportExact s := by
  obtain ⟨s, hr, hrep, hlen⟩ := exists_reached (fun s a => Indivisible s a ∧ StopSettled s a)
    (fun s => s.gui.reports = true ∧ s.mem.logged.length = 1)
    (checkClick ++ toRead .sendThread ++ throughSinks .sendThread ++ uncheckClick) (by decide +kernel)
  exact ⟨s, hr, hrep, hlen, reached_reportExact hr⟩

/-- A stop between the counting of a message and its call of the logger. -/
theorem not_reportExact_counted :
    ∃ s, Reached spdEnv Indivisible (initMsgs 41) (initMsgs 41).shown s ∧ ¬ ReportExact s := by
  obtain ⟨s, hr, hrep, hcnt, hlog⟩ := exists_reached Indivisible
    (fun s => s.gui.reports = true ∧ s.mem.cnt = 1#32 ∧ s.mem.logged.length = 0)
    (checkClick ++ toRead .sendThread ++ [.work .sendThread, .work .sendThread] ++ uncheckClick) (by decide +kernel)
  refine ⟨s, hr, fun h => ?_⟩
  have heq := (h hrep).1
  rw [hcnt, hlog] at heq
  exact absurd heq (by decide)

end LogMaker
