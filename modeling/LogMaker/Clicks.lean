import LogMaker.Exchange
import LogMaker.Locks
/-!
# Clicks — a Send click made alone

While repeat sending was never started the GUI thread makes the handler of a Send button by itself: the exchange, the
loop with every sink of every message, and the count.  Its steps come to what `onBnClickedButtonSend` computes
(`click_send_alone`), so what `Exchange` says of that function holds of the dialog's runs.
-/
namespace LogMaker

variable {E : Env} {s : State}

/-- The steps of the GUI thread. -/
def GuiReach (E : Env) : State → State → Prop := Lts.Reach (step E) (fun _ a => a = .gui)

theorem guiReach_one {s' : State} (h : guiStep E s = some s') : GuiReach E s s' := .one .gui rfl h

/-- What the senders of one thread change. -/
def Mem.sent (m : Mem) : Sent := ⟨m.cnt, m.logged⟩

theorem exchange_alone (hd : Handler) : ∀ (fs : List Field) (m : Members),
    GuiReach E { s with members := m, gui := .exchange hd fs }
      { s with
        members := (exchangeFields E s.boxes m fs).1
        gui := if (exchangeFields E s.boxes m fs).2 = none then .exchange hd [] else .invalid hd }
  | [], m => .refl _
  | f :: fs, m => by
    rcases hf : exchangeField E s.boxes m f with ⟨m', _ | e⟩
    · have hrest := exchange_alone hd fs m'
      have hone : GuiReach E { s with members := m, gui := .exchange hd (f :: fs) }
          { s with members := m', gui := .exchange hd fs } := guiReach_one (by simp only [guiStep, hf])
      simp only [exchangeFields, hf]
      exact hone.trans hrest
    · simp only [exchangeFields, hf, reduceCtorEq, ↓reduceIte]
      exact guiReach_one (by simp only [guiStep, hf])

/-! ## A message -/

/-- The GUI thread in a send of its loop. -/
def State.inSend (s : State) (lvl msg : CString) (i nCnt : UINT) (m : Mem) (q : Option SendPc) : State :=
  { s with mem := m, gui := afterSend lvl msg i nCnt q }

variable {lvl msg : CString} {i nCnt : UINT}

theorem inSend_one {m m' : Mem} {p : SendPc} {q : Option SendPc} (h : sendStep E .gui m p = some (m', q)) :
    GuiReach E (s.inSend lvl msg i nCnt m (some p)) (s.inSend lvl msg i nCnt m' q) :=
  guiReach_one (by simp only [guiStep, State.inSend, afterSend, h])

variable (lvl msg : CString) (i nCnt : UINT)

/-- In a sink the GUI thread waits for nobody: in `callbackLog` it reads and writes its own box. -/
theorem inSink_alone (m : Mem) (l line : CString) (k : Sink) (rest : List Sink) :
    ∃ m', GuiReach E (s.inSend lvl msg i nCnt m (some (.sink l line k rest .enter)))
        (s.inSend lvl msg i nCnt m' (some (.sink l line k rest .done))) ∧ m'.sent = m.sent ∧ m'.holder = m.holder := by
  by_cases hk : k = .callback
  · have hget : GuiReach E (s.inSend lvl msg i nCnt m (some (.sink l line k rest .enter)))
        (s.inSend lvl msg i nCnt m (some (.sink l line k rest (.got m.sentLogs)))) :=
      inSend_one (by simp only [sendStep, hk, ↓reduceIte])
    have hset : GuiReach E (s.inSend lvl msg i nCnt m (some (.sink l line k rest (.got m.sentLogs))))
        (s.inSend lvl msg i nCnt { m with sentLogs := insertLine E l line m.sentLogs }
          (some (.sink l line k rest .done))) := inSend_one rfl
    exact ⟨_, hget.trans hset, rfl, rfl⟩
  · exact ⟨m, inSend_one (by simp only [sendStep, hk, ↓reduceIte]), rfl, rfl⟩

/-- One sink: its mutex is free again after it. -/
theorem sink_alone {m : Mem} (hfree : ∀ j, m.holder j = none) (l line : CString) (k : Sink) (rest : List Sink) :
    ∃ m', GuiReach E (s.inSend lvl msg i nCnt m (some (.lock l line k rest)))
        (s.inSend lvl msg i nCnt m' (some (nextSink l line rest))) ∧ m'.sent = m.sent ∧ ∀ j, m'.holder j = none := by
  have hlock : GuiReach E (s.inSend lvl msg i nCnt m (some (.lock l line k rest)))
      (s.inSend lvl msg i nCnt (m.take E .gui l line k) (some (.sink l line k rest .enter))) :=
    inSend_one (by simp only [sendStep, hfree k])
  obtain ⟨m₁, hin, hsent, hholder⟩ := inSink_alone lvl msg i nCnt (m.take E .gui l line k) l line k rest
  have hrelease : GuiReach E (s.inSend lvl msg i nCnt m₁ (some (.sink l line k rest .done)))
      (s.inSend lvl msg i nCnt (m₁.release k) (some (nextSink l line rest))) := inSend_one rfl
  refine ⟨m₁.release k, hlock.trans (hin.trans hrelease), hsent, fun j => ?_⟩
  by_cases hj : j = k
  · subst hj; simp [Mem.release]
  · simp [Mem.release, hholder, Mem.take, hj, hfree j]

theorem sinks_alone (l line : CString) : ∀ (ks : List Sink) (m : Mem), (∀ j, m.holder j = none) →
    ∃ m', GuiReach E (s.inSend lvl msg i nCnt m (some (nextSink l line ks)))
        (s.inSend lvl msg i nCnt m' (some (.ret l line))) ∧ m'.sent = m.sent ∧ ∀ j, m'.holder j = none
  | [], m, hfree => ⟨m, .refl _, rfl, hfree⟩
  | k :: rest, m, hfree => by
    obtain ⟨m₁, h₁, hs₁, hf₁⟩ := sink_alone lvl msg i nCnt hfree l line k rest
    obtain ⟨m₂, h₂, hs₂, hf₂⟩ := sinks_alone l line rest m₁ hf₁
    exact ⟨m₂, h₁.trans h₂, hs₂.trans hs₁, hf₂⟩

/-- One message is what `sendLogMsg1` computes. -/
theorem message_alone {m : Mem} (hfree : ∀ j, m.holder j = none) :
    ∃ m', GuiReach E (s.inSend lvl msg i nCnt m (some (.read lvl msg))) (s.inSend lvl msg i nCnt m' none) ∧
      m'.sent = sendLogMsg1 lvl msg m.sent ∧ ∀ j, m'.holder j = none := by
  have hread : GuiReach E (s.inSend lvl msg i nCnt m (some (.read lvl msg)))
      (s.inSend lvl msg i nCnt m (some (.write lvl msg m.cnt))) := inSend_one rfl
  have hwrite : GuiReach E (s.inSend lvl msg i nCnt m (some (.write lvl msg m.cnt)))
      (s.inSend lvl msg i nCnt { m with cnt := m.cnt + 1 } (some (.make lvl msg m.cnt))) := inSend_one rfl
  have hmake : GuiReach E (s.inSend lvl msg i nCnt { m with cnt := m.cnt + 1 } (some (.make lvl msg m.cnt)))
      (s.inSend lvl msg i nCnt { m with cnt := m.cnt + 1, nums := m.nums ++ [m.cnt] }
        (some (nextSink lvl (makeMsgBuf msg m.cnt) E.sinks))) := inSend_one rfl
  obtain ⟨m₁, hsinks, hsent, hfree₁⟩ := sinks_alone lvl msg i nCnt
    lvl (makeMsgBuf msg m.cnt) E.sinks { m with cnt := m.cnt + 1, nums := m.nums ++ [m.cnt] } hfree
  have hret : GuiReach E (s.inSend lvl msg i nCnt m₁ (some (.ret lvl (makeMsgBuf msg m.cnt))))
      (s.inSend lvl msg i nCnt { m₁ with logged := m₁.logged ++ [toSpdLog lvl (makeMsgBuf msg m.cnt)] } (some .sleep)) :=
    inSend_one rfl
  have hsleep : GuiReach E
      (s.inSend lvl msg i nCnt { m₁ with logged := m₁.logged ++ [toSpdLog lvl (makeMsgBuf msg m.cnt)] } (some .sleep))
      (s.inSend lvl msg i nCnt { m₁ with logged := m₁.logged ++ [toSpdLog lvl (makeMsgBuf msg m.cnt)] } none) :=
    inSend_one rfl
  refine ⟨_, hread.trans (hwrite.trans (hmake.trans (hsinks.trans (hret.trans hsleep)))), ?_, hfree₁⟩
  simp only [Mem.sent, Sent.mk.injEq] at hsent
  simp [Mem.sent, sendLogMsg1, hsent]

/-! ## The handler -/

/-- The loop is what `sendLoop` computes; the induction is on the messages left. -/
theorem loop_alone : ∀ (n : Nat) (i : UINT) (m : Mem), i.toNat + n = nCnt.toNat → (∀ j, m.holder j = none) →
    ∃ m', GuiReach E { s with mem := m, gui := .loop lvl msg i nCnt } { s with mem := m', gui := .showCnt } ∧
      m'.sent = sendLoop lvl msg i nCnt m.sent
  | 0, i, m, hn, _ => by
    have hi : ¬ i < nCnt := by rw [BitVec.lt_def]; omega
    have hleave : GuiReach E { s with mem := m, gui := .loop lvl msg i nCnt } { s with mem := m, gui := .showCnt } :=
      guiReach_one (by simp only [guiStep, hi, ↓reduceIte])
    exact ⟨m, hleave, by rw [sendLoop, dif_neg hi]⟩
  | n + 1, i, m, hn, hfree => by
    have hi : i < nCnt := by rw [BitVec.lt_def]; omega
    have hlt := nCnt.isLt
    have hi1 : (i + 1).toNat + n = nCnt.toNat := by
      rw [BitVec.toNat_add, show (1 : UINT).toNat = 1 from rfl]
      omega
    have henter : GuiReach E { s with mem := m, gui := .loop lvl msg i nCnt }
        (s.inSend lvl msg i nCnt m (some (.read lvl msg))) :=
      guiReach_one (by simp only [guiStep, hi, ↓reduceIte]; rfl)
    obtain ⟨m₁, hmsg, hsent₁, hfree₁⟩ := message_alone lvl msg i nCnt hfree
    obtain ⟨m₂, hrest, hsent₂⟩ := loop_alone n (i + 1) m₁ hi1 hfree₁
    refine ⟨m₂, henter.trans (hmsg.trans hrest), ?_⟩
    rw [hsent₂, hsent₁, sendLoop.eq_def lvl msg i nCnt, dif_pos hi]

/-- **A Send click made alone** comes to its message box with what `onBnClickedButtonSend` computes, and the count
shown. -/
theorem click_send_alone (hfree : ∀ j, s.mem.holder j = none) (k : Row) :
    ∃ s', GuiReach E (s.click (.send k)) s' ∧ s'.gui = .sendBox ∧
      (s'.members, s'.mem.sent) = onBnClickedButtonSend k E s.boxes s.members s.mem.sent ∧
      s'.mem.sendCnt = formatD s'.mem.cnt := by
  have hexch := exchange_alone (E := E) (s := s) (.send k) fields s.members
  let m' := (doDataExchange E s.boxes s.members).1
  have hupd : GuiReach E
      { s with
        members := m'
        gui := if (doDataExchange E s.boxes s.members).2 = none then .exchange (.send k) [] else .invalid (.send k) }
      { s with members := m', gui := .loop (m'.strLevel k) (m'.strMsg k) 0 (m'.nCnt k) } := by
    split
    · exact guiReach_one rfl
    · exact guiReach_one rfl
  obtain ⟨m₁, hloop, hsent⟩ := loop_alone (E := E) (s := { s with members := m' }) (m'.strLevel k) (m'.strMsg k)
    (m'.nCnt k) (m'.nCnt k).toNat 0 s.mem (by simp) hfree
  have hshow : GuiReach E { s with members := m', mem := m₁, gui := .showCnt }
      { s with members := m', mem := { m₁ with sendCnt := formatD m₁.cnt }, gui := .sendBox } := guiReach_one rfl
  refine ⟨_, hexch.trans (hupd.trans (hloop.trans hshow)), rfl, ?_, rfl⟩
  have hsent' : Mem.sent { m₁ with sendCnt := formatD m₁.cnt } = sendLoop (m'.strLevel k) (m'.strMsg k) 0 (m'.nCnt k)
      s.mem.sent := hsent
  rw [hsent']
  rfl

/-- The same of every state reached while no worker was created. -/
theorem reached_click_send {P : State → Act → Prop} {m : Members} {b : Boxes} (h : Reached E P m b s)
    (hidle : s.gui = .idle) (hnone : ∀ w, (s.thread w).ptr = false) (k : Row) :
    ∃ s', GuiReach E (s.click (.send k)) s' ∧ s'.gui = .sendBox ∧
      (s'.members, s'.mem.sent) = onBnClickedButtonSend k E s.boxes s.members s.mem.sent ∧
      s'.mem.sendCnt = formatD s'.mem.cnt := by
  refine click_send_alone (fun j => ?_) k
  rw [(held h).free]
  intro t ht
  cases t with
  | gui => simp [owns, pos, hidle, GuiPc.pos] at ht
  | worker w => simp [owns, pos, (basic h).ptrInv w (hnone w), ThreadPc.pos] at ht

/-- The first click of all, on Send-10. -/
theorem reached_click_send_first : ∃ s',
    GuiReach spdEnv ((State.init (initMsgs 41) (initMsgs 41).shown).click (.send 9)) s' ∧ s'.gui = .sendBox ∧
    (s'.members, s'.mem.sent) = onBnClickedButtonSend 9 spdEnv (initMsgs 41).shown (initMsgs 41) ⟨0, []⟩ ∧
    s'.mem.sendCnt = formatD s'.mem.cnt :=
  reached_click_send (Lts.Reach.refl (P := Lts.anyStep) _) rfl (fun _ => rfl) 9

end LogMaker
