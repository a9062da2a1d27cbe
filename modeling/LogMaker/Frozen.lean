import LogMaker.Waits
/-!
# Frozen — a Send click that never ends

The converse of `Waits`.  Once the GUI thread is in the loop of a Send click and needs a mutex whose holder is
suspended, or is in `callbackLog`, no step changes that (`frozen_step`): it answers no message and resumes no worker
before the loop has ended.  A click that enters its loop over such a mutex leads there (`frozen_of_enters`), and so does
every step against `Apart`, after which the threads come to wait for each other (`circularWait_of_not_apart`).  A stop
against `LocksSettled` leaves such a mutex (`not_stopFree_of_not_settled`).
-/
namespace LogMaker

variable {E : Env} {s s' : State} {a : Act} {k : Sink} {w : Worker}

/-- The GUI thread, in the loop of a Send click, needs the mutex of a sink, and the worker that holds it does not come
to release it before the loop has ended. -/
structure Frozen (E : Env) (k : Sink) (w : Worker) (s : State) : Prop where
  inLoop : s.gui.inLoop = true
  needs : s.gui.needs E k = true
  held : owns s (.worker w) = some k
  stuck : (s.thread w).suspends ≠ 0 ∨ (pos s (.worker w)).any SendPc.inCallbackLog = true

/-! ## It lasts -/

/-- A send passes no sink whose mutex is held. -/
theorem sendStep_needs_held {t : Sender} {m m' : Mem} {p : SendPc} {q : Option SendPc} (hk : m.holder k ≠ none)
    (hn : p.needs E k = true) (h : sendStep E t m p = some (m', q)) : q.any (SendPc.needs E k) = true := by
  cases sendStep_move h with
  | make | release => rw [Option.any_some, needs_nextSink]; exact hn
  | take lvl line j rest hj | wake lvl line j rest hj =>
    have hne : k ≠ j := by rintro rfl; exact hk hj
    simpa [SendPc.needs, hne] using hn
  | ret | sleep => cases hn
  | _ => exact hn

theorem inLoop_of_move {g : GuiPc} (hk : s.mem.holder k ≠ none) (hl : g.inLoop = true) (hn : g.needs E k = true)
    (h : GuiMove E s g s') : s'.gui.inLoop = true ∧ s'.gui.needs E k = true := by
  cases h with
  | enter lvl msg i nCnt hi =>
    refine ⟨rfl, ?_⟩
    have hmem : decide (k ∈ E.sinks) = true := (Bool.and_eq_true_iff.1 hn).2
    simp only [GuiPc.needs, SendPc.needs, hmem, Bool.true_or]
  | leave lvl msg i nCnt hi => exact absurd (of_decide_eq_true (Bool.and_eq_true_iff.1 hn).1) hi
  | send lvl msg i nCnt p m q hs =>
    have hn' : (p.needs E k || decide (i + 1 < nCnt) && decide (k ∈ E.sinks)) = true := hn
    have hq := fun hp => sendStep_needs_held hk hp hs
    cases q with
    | none =>
      refine ⟨rfl, (Bool.or_eq_true_iff.1 hn').resolve_left (fun hp => ?_)⟩
      have := hq hp
      cases this
    | some q => exact ⟨rfl, Bool.or_eq_true_iff.2 ((Bool.or_eq_true_iff.1 hn').imp hq id)⟩
  | _ => cases hl

theorem pumps_of_inLoop {g : GuiPc} (h : g.inLoop = true) : g.pumps = false := by
  cases g <;> first | rfl | cases h

/-- In `callbackLog` a worker goes on by itself to its next message only. -/
theorem sendStep_asks {m m' : Mem} {p : SendPc} {q : Option SendPc} (hin : p.inCallbackLog = true)
    (h : sendStep E (.worker w) m p = some (m', q)) :
    ∃ q', q = some q' ∧ q'.asks = true ∧ q'.owns = p.owns := by
  cases p with
  | sink lvl line j rest c =>
    cases j with
    | callback =>
      cases c with
      | enter | got str => cases h; exact ⟨_, rfl, rfl, rfl⟩
      | get | set str => cases h
      | done => cases hin
    | _ => cases c <;> cases hin
  | _ => cases hin

/-- **Frozen once, the dialog stays so**, whatever the threads do. -/
theorem frozen_step (hb : Basic s) (hh : Mutex.Held s.mem.holder (owns s)) (hf : Frozen E k w s)
    (h : step E s a = some s') : Frozen E k w s' := by
  have hk : s.mem.holder k ≠ none := by rw [(hh k (.worker w)).2 hf.held]; exact Option.some_ne_none _
  have hgui : s'.gui.inLoop = true ∧ s'.gui.needs E k = true := by
    cases step_move h with
    | click c ha hg hs | edit b ha hg hs => have := hf.inLoop; rw [hg] at this; cases this
    | gui ha h => exact inLoop_of_move hk hf.inLoop hf.needs (guiStep_move h)
    | worker v m pc d ha hr hm hs => rw [hs]; exact ⟨hf.inLoop, hf.needs⟩
  have hsus := suspends_of_inLoop hb h hgui.1 w
  cases step_pos hb.ptrInv h (.worker w) with
  | send p q ha hp hs hpos =>
    have hrun : (s.thread w).suspends = 0 := by
      by_contra hn
      rw [ha] at h
      simp [Sender.act, step, hn] at h
    have hin : p.inCallbackLog = true := by
      have := hf.stuck.resolve_left (fun hn => hn hrun)
      rwa [hp] at this
    obtain ⟨q', rfl, hq, hown⟩ := sendStep_asks hin hs
    refine ⟨hgui.1, hgui.2, ?_, .inr ?_⟩
    · have := hf.held
      simp only [owns, hp, hpos, Option.bind_some] at this ⊢
      exact hown.trans this
    · rw [hpos]
      exact inCallbackLog_of_asks (q := some q') hq
  | call lvl msg ha hp hpos =>
    have := hf.held
    simp [owns, hp] at this
  | answer p p' hg hp hs hpos =>
    rw [pumps_of_inLoop hf.inLoop] at hg
    cases hg
  | same hpos =>
    refine ⟨hgui.1, hgui.2, ?_, ?_⟩
    · unfold owns
      rw [hpos]
      exact hf.held
    · rw [hsus, hpos]
      exact hf.stuck

/-- **No run leads from a frozen dialog back to the modal loop.** -/
theorem frozen {P Q : State → Act → Prop} {m : Members} {b : Boxes} (h : Reached E P m b s) (hf : Frozen E k w s)
    (hr : Lts.Reach (step E) Q s s') : Frozen E k w s' :=
  hr.inv hf (fun _ _ _ hu hi _ hs => frozen_step (basic (h.any.trans hu.any)) (held (h.any.trans hu.any)) hi hs)

/-! ## How it comes -/

theorem owns_of_inCallbackLog (h : (pos s (.worker w)).any SendPc.inCallbackLog = true) :
    owns s (.worker w) = some .callback := by
  cases hp : pos s (.worker w) with
  | none => rw [hp] at h; cases h
  | some p =>
    rw [hp] at h
    cases p with
    | sink lvl line j rest c => cases j <;> first | (cases c <;> cases h; done) | simp [owns, hp, SendPc.owns]
    | _ => cases h

/-- The step that enters the loop of a Send click with a message to send, while the holder of a mutex is stuck. -/
theorem frozen_of_enters {r : Row} (hb : Basic s) (hk : k ∈ E.sinks) (hr : s.gui.enters = some r)
    (hpos : 0 < s.members.nCnt r) (howns : owns s (.worker w) = some k)
    (hstuck : (s.thread w).suspends ≠ 0 ∨ (pos s (.worker w)).any SendPc.inCallbackLog = true)
    (h : guiStep E s = some s') : Frozen E k w s' := by
  have hs' : s' = s.updated (.send r) true := by
    cases hg : s.gui with
    | exchange hd fs =>
      rw [hg] at hr
      cases hd <;> cases fs <;> cases hr
      simp only [guiStep, hg, Option.some.injEq] at h
      exact h.symm
    | invalid hd =>
      rw [hg] at hr
      cases hd <;> cases hr
      simp only [guiStep, hg, Option.some.injEq] at h
      exact h.symm
    | _ => rw [hg] at hr; cases hr
  have hsame : pos s' (.worker w) = pos s (.worker w) := guiStep_worker hb.ptrInv h w
  refine ⟨?_, ?_, ?_, ?_⟩
  · rw [hs']; rfl
  · rw [hs']
    simpa [State.updated, GuiPc.needs, hk] using hpos
  · unfold owns; rw [hsame]; exact howns
  · rw [hsame, hs']; exact hstuck

theorem sendStep_takes {t : Sender} {m m' : Mem} {p : SendPc} {q : Option SendPc} (hp : p.takesCallback m = true)
    (h : sendStep E t m p = some (m', q)) : q.any SendPc.inCallbackLog = true := by
  cases p with
  | lock lvl line j rest | wait lvl line j rest =>
    cases j with
    | callback =>
      have hfree : m.holder .callback = none := Option.isNone_iff_eq_none.1 hp
      simp only [sendStep, hfree, Option.some.injEq, Prod.mk.injEq] at h
      rw [← h.2]
      rfl
    | _ => cases hp
  | _ => cases hp

/-- **A step against `Apart` freezes the dialog**, if the logger has a callback sink. -/
theorem frozen_of_not_apart (hb : Basic s) (hk : .callback ∈ E.sinks) (hn : ¬ Apart E s a)
    (h : step E s a = some s') : ∃ w, Frozen E .callback w s' := by
  rcases not_and_or.1 hn with henter | htake
  · push Not at henter
    obtain ⟨ha, r, hr, hpos, w, hw⟩ := henter
    have hin := inCallbackLog_of_willAsk (s := s) (w := w) (by simpa using hw)
    have hgui : a = .gui := by cases a <;> first | rfl | cases ha
    subst hgui
    exact ⟨w, frozen_of_enters hb hk hr hpos (owns_of_inCallbackLog hin) (.inr hin) h⟩
  · push Not at htake
    obtain ⟨w, ha, htake, howes⟩ := htake
    have hwork : a = .work w := by cases a <;> cases ha; rfl
    subst hwork
    have ho : s.gui.owes E = true := by simpa using howes
    obtain ⟨hl, hneed⟩ := Bool.and_eq_true_iff.1 ho
    have hgui : s'.gui = s.gui := by
      cases step_move h with
      | click c ha | edit b ha | gui ha => cases ha
      | worker v m pc d ha hr hm hs => rw [hs]; rfl
    have hin : (pos s' (.worker w)).any SendPc.inCallbackLog = true := by
      cases hp : pos s (.worker w) with
      | none => rw [hp] at htake; cases htake
      | some p =>
        rw [hp] at htake
        obtain ⟨q, hs, hpos⟩ := act_in_send (t := .worker w) hp h
        rw [hpos, Function.update_self]
        exact sendStep_takes htake hs
    exact ⟨w, hgui ▸ hl, hgui ▸ hneed, owns_of_inCallbackLog hin, .inr hin⟩

/-- **A stop against `LocksSettled` strands the mutex**: the worker it suspends holds one. -/
theorem not_stopFree_of_not_settled {P : State → Act → Prop} (hP : ∀ s a, P s a → a.closes = false) {m : Members}
    {b : Boxes} (h : Reached E P m b s) (ha : a.closes = false) (hn : ¬ LocksSettled s a) (hs : step E s a = some s') :
    ¬ StopFree E s' := by
  have hb := basic h
  obtain ⟨w, hw, howns⟩ : ∃ w, suspends? s a = some w ∧ owns s (.worker w) ≠ none := by
    by_contra hno
    push Not at hno
    exact hn ⟨ha, hno⟩
  obtain ⟨rfl, hg⟩ := suspends?_eq_some hw
  have hlive : (s.thread w).pc.live = true := by
    by_contra hl
    simp [owns, pos_of_not_live (show (s.thread w).pc.live = false by simpa using hl)] at howns
  have hptr : (s.thread w).ptr = true := by
    by_contra hp
    rw [hb.unset w (by simpa using hp)] at hlive
    cases hlive
  have hdel := (open_ hP h).kept w hlive
  have hsus : (s'.thread w).suspends ≠ 0 := by
    simp only [step, guiStep, hg, hptr, ↓reduceIte, Option.some.injEq] at hs
    rw [← hs]
    simp [Thread.suspend, hdel]
  intro hfree
  have hnone := hfree.1 w hsus
  unfold owns at hnone howns
  rw [guiStep_worker hb.ptrInv hs w] at hnone
  exact howns hnone

/-! ## Up to the circular wait -/

/-- Steps of a worker in `callbackLog` up to its next message. -/
def SendPc.toAsk : SendPc → Nat
  | .sink _ _ _ _ .enter | .sink _ _ _ _ (.got _) => 1
  | _ => 0

def toAsk (s : State) (w : Worker) : Nat := (pos s (.worker w)).elim 0 SendPc.toAsk

/-- Steps the threads make before they all wait. -/
def State.slack (E : Env) (s : State) (w : Worker) : Nat :=
  s.gui.rank E + due s .sendThread + due s .sendThread2 + toAsk s w

theorem toAsk_of_pos (h : pos s' (.worker w) = pos s (.worker w)) : toAsk s' w = toAsk s w := by
  unfold toAsk
  rw [h]

theorem ask_step (hsus : ∀ v, (s.thread v).suspends = 0) (hin : (pos s (.worker w)).any SendPc.inCallbackLog = true)
    (hn : (pos s (.worker w)).any SendPc.asks = false) :
    ∃ s', step E s (.work w) = some s' ∧ (∀ v, (s'.thread v).suspends = 0) ∧ s'.slack E w < s.slack E w := by
  cases hp : pos s (.worker w) with
  | none => rw [hp] at hin; cases hin
  | some p =>
    rw [hp] at hin hn
    obtain ⟨rest, hpc⟩ := pc_of_pos hp
    have hsend : ∃ m q, sendStep E (.worker w) s.mem p = some (m, some q) ∧ q.due = p.due ∧ q.toAsk < p.toAsk := by
      cases p with
      | sink lvl line j ks c =>
        cases j with
        | callback =>
          cases c with
          | enter | got => exact ⟨_, _, rfl, rfl, Nat.one_pos⟩
          | get | set => cases hn
          | done => cases hin
        | _ => cases c <;> cases hin
      | _ => cases hin
    obtain ⟨m, q, hs, hdue, hask⟩ := hsend
    have hpos := pos_setPc s m w (.send rest q)
    have hself : pos ({ s with mem := m }.setPc w (.send rest q)) (.worker w) = some q := by
      rw [hpos, Function.update_self]; rfl
    have hdues : ∀ v, due ({ s with mem := m }.setPc w (.send rest q)) v = due s v := by
      intro v
      by_cases hv : v = w
      · subst hv
        simp only [due, hself, hp, Option.elim_some, hdue]
      · exact due_of_pos (by rw [hpos, Function.update_of_ne (by simpa using hv)])
    refine ⟨_, work_of_send (hsus w) hpc hs, fun v => by rw [suspends_setPc]; exact hsus v, ?_⟩
    have hlt : toAsk ({ s with mem := m }.setPc w (.send rest q)) w < toAsk s w := by
      simp only [toAsk, hself, hp, Option.elim_some, hask]
    have hgui : ({ s with mem := m }.setPc w (.send rest q)).gui = s.gui := rfl
    simp only [State.slack, hdues, hgui]
    omega

theorem gui_lowers {P : State → Act → Prop} {m : Members} {b : Boxes} (h : Reached E P m b s)
    (hg : guiStep E s = some s') : s'.slack E w < s.slack E w := by
  have hpos := guiStep_worker (basic h).ptrInv hg
  have hrank := rank_of_move (bounded h) (guiStep_move hg)
  simp only [State.slack, due_of_pos (hpos _), toAsk_of_pos (hpos _)]
  omega

/-- The worker that holds a mutex the GUI thread waits for goes on to its release. -/
theorem release_lowers {v : Worker} (hsus : ∀ x, (s.thread x).suspends = 0) (hd : 0 < due s v) (hwv : w ≠ v) :
    ∃ s', step E s (.work v) = some s' ∧ (∀ x, (s'.thread x).suspends = 0) ∧ s'.slack E w < s.slack E w := by
  obtain ⟨s', hs, -, hgs, hsus', hlt, hother⟩ := release_step (E := E) hsus hd
  refine ⟨s', hs, hsus', ?_⟩
  have hask := toAsk_of_pos (hother w hwv)
  simp only [State.slack, hgs, hask]
  cases v with
  | sendThread => rw [due_of_pos (hother .sendThread2 (by decide))]; omega
  | sendThread2 => rw [due_of_pos (hother .sendThread (by decide))]; omega

/-- A frozen dialog has a step left before the circular wait: the worker in `callbackLog` has still to send its message,
the GUI thread is not blocked, or it is blocked on the mutex of another sink, whose holder goes on. -/
theorem frozen_lowers {P : State → Act → Prop} {m : Members} {b : Boxes} (h : Reached E P m b s)
    (hf : Frozen E .callback w s) (hsus : ∀ v, (s.thread v).suspends = 0) (hn : ¬ CircularWait s) :
    ∃ a s', step E s a = some s' ∧ (∀ v, (s'.thread v).suspends = 0) ∧ s'.slack E w < s.slack E w := by
  have hin : (pos s (.worker w)).any SendPc.inCallbackLog = true := hf.stuck.resolve_left (fun hne => hne (hsus w))
  cases hask : (pos s (.worker w)).any SendPc.asks with
  | false => exact ⟨.work w, ask_step (E := E) hsus hin hask⟩
  | true =>
    cases hg : guiStep E s with
    | some v =>
      have hstep : step E s .gui = some v := hg
      have hf' := frozen_step (basic h) (held h) hf hstep
      refine ⟨.gui, v, hstep, fun x => ?_, gui_lowers h hg⟩
      rw [suspends_of_inLoop (basic h) hstep hf'.inLoop]
      exact hsus x
    | none =>
      have hset : s.gui.settled = false := by
        have hloop := hf.inLoop
        cases hgs : s.gui <;> first | rfl | (rw [hgs] at hloop; cases hloop)
      obtain ⟨lvl, msg, i, nCnt, l, x, k, rest, y, hgs, hk⟩ := guiStep_blocked (held h) (placed h) hset hg
      by_cases hcb : k = .callback
      · subst hcb
        have hholder := (held h .callback (.worker y)).2 hk
        have hwy : w = y := by
          have hboth := ((held h .callback (.worker w)).2 hf.held).symm.trans hholder
          simpa using hboth
        subst hwy
        exact absurd ⟨by simp [pos, hgs, GuiPc.pos, SendPc.waitsCallback], w, hholder, hask⟩ hn
      · have hdue : 0 < due s y := by
          by_contra hd
          exact hcb (due_of_clear (placed h) (by omega) hk).1
        have hwy : w ≠ y := by
          rintro rfl
          rw [hf.held] at hk
          exact hcb (Option.some.inj hk).symm
        exact ⟨.work y, release_lowers hsus hdue hwy⟩

/-- **A dialog frozen over the callback sink**, while no worker is suspended, comes to the circular wait. -/
theorem circularWait_of_frozen {P : State → Act → Prop} {m : Members} {b : Boxes} (h : Reached E P m b s)
    (hf : Frozen E .callback w s) (hsus : ∀ v, (s.thread v).suspends = 0) :
    ∃ s', Lts.Reach (step E) Lts.anyStep s s' ∧ CircularWait s' := by
  have hlower : ∀ u, (Reached E Lts.anyStep m b u ∧ Frozen E .callback w u ∧ ∀ v, (u.thread v).suspends = 0) →
      ¬ CircularWait u → ∃ v, Lts.Reach (step E) Lts.anyStep u v ∧
        (Reached E Lts.anyStep m b v ∧ Frozen E .callback w v ∧ ∀ x, (v.thread x).suspends = 0) ∧
        v.slack E w < u.slack E w := by
    rintro u ⟨hu, hfu, hsu⟩ hn
    obtain ⟨a, v, hs, hsv, hlt⟩ := frozen_lowers hu hfu hsu hn
    have hfv := frozen_step (basic hu) (held hu) hfu hs
    exact ⟨v, .one a trivial hs, ⟨hu.snoc a trivial hs, hfv, hsv⟩, hlt⟩
  obtain ⟨s', hr, -, hF⟩ := Lts.Reach.of_rank (fun u => u.slack E w) hlower s ⟨h.any, hf, hsus⟩
  exact ⟨s', hr, hF⟩

/-- **Every step against the condition leads to the circular wait**, while no worker is suspended. -/
theorem circularWait_of_not_apart {P : State → Act → Prop} {m : Members} {b : Boxes} (h : Reached E P m b s)
    (hk : .callback ∈ E.sinks) (hn : ¬ Apart E s a) (hs : step E s a = some s')
    (hsus : ∀ v, (s'.thread v).suspends = 0) :
    ∃ t, Lts.Reach (step E) Lts.anyStep s' t ∧ CircularWait t := by
  obtain ⟨w, hf⟩ := frozen_of_not_apart (basic h) hk hn hs
  exact circularWait_of_frozen (h.any.snoc a trivial hs) hf hsus

end LogMaker
