import LogMaker.Locks
/-!
# Alone — a handler of the GUI thread runs to its end

The GUI thread waits only for a mutex.  While no worker holds the mutex of a sink the handler still needs (`Clear`),
every statement of it can be executed (`guiStep_enabled`) and brings its end nearer (`rank_of_move`), so the GUI thread,
alone, comes back to the modal loop or ends the dialog (`gui_alone`).
-/
namespace LogMaker

variable {E : Env}

/-! ## The mutexes a handler needs -/

/-- Whether a sender in `sendLogMsg1` is still to take the mutex of a sink. -/
def SendPc.needs (E : Env) (k : Sink) : SendPc → Bool
  | .read _ _ | .write _ _ _ | .make _ _ _ => decide (k ∈ E.sinks)
  | .lock _ _ j rest | .wait _ _ j rest => decide (k = j) || decide (k ∈ rest)
  | .sink _ _ _ rest _ => decide (k ∈ rest)
  | .ret _ _ | .sleep => false

def GuiPc.needs (E : Env) (k : Sink) : GuiPc → Bool
  | .exchange (.send _) _ | .invalid (.send _) => decide (k ∈ E.sinks)
  | .loop _ _ i nCnt => decide (i < nCnt) && decide (k ∈ E.sinks)
  | .sending _ _ i nCnt p => p.needs E k || decide (i + 1 < nCnt) && decide (k ∈ E.sinks)
  | _ => false

/-- No worker holds a mutex the GUI thread needs. -/
def Clear (E : Env) (s : State) : Prop := ∀ w k, owns s (.worker w) = some k → s.gui.needs E k = false

theorem needs_nextSink (k : Sink) (lvl line : CString) (ks : List Sink) :
    (nextSink lvl line ks).needs E k = decide (k ∈ ks) := by
  cases ks <;> simp [nextSink, SendPc.needs]

theorem sendStep_needs {t : Sender} {m m' : Mem} {p q : SendPc} {k : Sink}
    (h : sendStep E t m p = some (m', some q)) (hq : q.needs E k = true) : p.needs E k = true := by
  cases sendStep_move h with
  | make | release => rw [needs_nextSink] at hq; exact hq
  | take | wake => exact Bool.or_eq_true_iff.2 (.inr hq)
  | ret => cases hq
  | _ => exact hq

/-- A handler needs no more mutexes as it goes on. -/
theorem needs_of_move {s s' : State} {g : GuiPc} {k : Sink} (h : GuiMove E s g s') (hk : s'.gui.needs E k = true) :
    g.needs E k = true := by
  cases h with
  | field hd | abort hd => cases hd <;> exact hk
  | updated hd | dismissed hd =>
    cases hd with
    | send r => exact (Bool.and_eq_true_iff.1 hk).2
    | _ => cases hk
  | enter lvl msg i nCnt hi =>
    have hk' : (decide (k ∈ E.sinks) || decide (i + 1 < nCnt) && decide (k ∈ E.sinks)) = true := hk
    have hmem : decide (k ∈ E.sinks) = true := by
      rcases Bool.or_eq_true_iff.1 hk' with hmem | hboth
      · exact hmem
      · exact (Bool.and_eq_true_iff.1 hboth).2
    simp only [GuiPc.needs, hi, hmem, decide_true, Bool.and_true]
  | send lvl msg i nCnt p m q hs =>
    cases q with
    | none =>
      have hloop : (decide (i + 1 < nCnt) && decide (k ∈ E.sinks)) = true := hk
      simp only [GuiPc.needs, hloop, Bool.or_true]
    | some q =>
      have hsend : (q.needs E k || decide (i + 1 < nCnt) && decide (k ∈ E.sinks)) = true := hk
      simp only [GuiPc.needs]
      rw [Bool.or_eq_true] at hsend ⊢
      exact hsend.imp (sendStep_needs hs) id
  | start w | suspend w => cases w <;> cases hk
  | closeNull c | deleteThread c => cases c <;> cases hk
  | _ => cases hk

/-! ## The steps to the end of a handler -/

/-- Steps left in `sendLogMsg1`, at most. -/
def SendPc.rank (E : Env) : SendPc → Nat
  | .read _ _ => 5 * E.sinks.length + 5
  | .write _ _ _ => 5 * E.sinks.length + 4
  | .make _ _ _ => 5 * E.sinks.length + 3
  | .lock _ _ _ rest => 5 * rest.length + 7
  | .wait _ _ _ rest => 5 * rest.length + 6
  | .sink _ _ _ rest .enter => 5 * rest.length + 5
  | .sink _ _ _ rest (.got _) => 5 * rest.length + 4
  | .sink _ _ _ rest _ => 5 * rest.length + 3
  | .ret _ _ => 2
  | .sleep => 1

def loopRank (E : Env) (n : Nat) : Nat := n * (5 * E.sinks.length + 6) + 3

/-- Steps left in a handler, at most. -/
def GuiPc.rank (E : Env) : GuiPc → Nat
  | .idle | .destroyed => 0
  | .exchange _ rest => loopRank E (2 ^ 32) + 20 + rest.length
  | .invalid _ => loopRank E (2 ^ 32) + 19
  | .loop _ _ i nCnt => loopRank E (nCnt.toNat - i.toNat)
  | .sending _ _ i nCnt p => loopRank E (nCnt.toNat - i.toNat - 1) + p.rank E
  | .showCnt => 2
  | .sendBox => 1
  | .ifChecked => 8
  | .clearFlag => 7
  | .labelRep => 6
  | .suspend .sendThread => 5
  | .suspend .sendThread2 => 4
  | .report => 3
  | .reportCnt _ => 2
  | .reportBox _ => 1
  | .labelStop => 4
  | .setFlag => 3
  | .start .sendThread => 2
  | .start .sendThread2 => 1
  | .closeAll _ => loopRank E (2 ^ 32) + 60
  | .getExitCode _ => loopRank E (2 ^ 32) + 59
  | .deleteThread _ => loopRank E (2 ^ 32) + 58
  | .endDialog => 2
  | .returned => 1

def GuiPc.bounded : GuiPc → Bool
  | .sending _ _ i nCnt _ => decide (i < nCnt)
  | _ => true

theorem rank_nextSink (lvl line : CString) (ks : List Sink) : (nextSink lvl line ks).rank E = 5 * ks.length + 2 := by
  cases ks with
  | nil => rfl
  | cons k rest => simp only [nextSink, SendPc.rank, List.length_cons]; omega

theorem loopRank_succ (n : Nat) : loopRank E (n + 1) = loopRank E n + (5 * E.sinks.length + 6) := by
  unfold loopRank
  rw [Nat.succ_mul]
  omega

theorem sendStep_rank {t : Sender} {m m' : Mem} {p : SendPc} {q : Option SendPc} (h : sendStep E t m p = some (m', q)) :
    q.elim 0 (SendPc.rank E) < p.rank E := by
  cases sendStep_move h with
  | make | release => rw [Option.elim_some, rank_nextSink]; exact Nat.lt_succ_self _
  | _ => simp [SendPc.rank]

theorem toNat_succ_of_lt {i n : UINT} (h : i < n) : (i + 1).toNat = i.toNat + 1 := by
  have hi : i.toNat < n.toNat := h
  have hn := n.isLt
  rw [BitVec.toNat_add, show (1 : UINT).toNat = 1 from rfl]
  omega

theorem loopRank_mono {m n : Nat} (h : m ≤ n) : loopRank E m ≤ loopRank E n := by
  unfold loopRank
  exact Nat.add_le_add_right (Nat.mul_le_mul_right _ h) 3

theorem three_le_loopRank (n : Nat) : 3 ≤ loopRank E n := Nat.le_add_left 3 _

theorem rank_updated (s : State) (h : Handler) (ok : Bool) : (s.updated h ok).gui.rank E ≤ loopRank E (2 ^ 32) + 10 := by
  have h3 := three_le_loopRank (E := E) (2 ^ 32)
  cases h with
  | send k =>
    have hm := loopRank_mono (E := E) (Nat.le_of_lt (s.members.nCnt k).isLt)
    have hr : (s.updated (.send k) ok).gui.rank E = loopRank E (s.members.nCnt k).toNat := by cases ok <;> rfl
    omega
  | check => cases ok <;> simp only [State.updated, GuiPc.rank] <;> omega
  | ok => cases ok <;> simp only [State.updated, GuiPc.rank] <;> omega

theorem length_fields : fields.length = 31 := by decide

theorem rank_afterClose (c : Closing) : (afterClose c).rank E ≤ loopRank E (2 ^ 32) + 51 := by
  have h3 := three_le_loopRank (E := E) (2 ^ 32)
  cases c with
  | ok => simp only [afterClose, GuiPc.rank, length_fields]; omega
  | close => simp only [afterClose, GuiPc.rank]; omega

/-- **Every statement of a handler brings its end nearer.** -/
theorem rank_of_move {s s' : State} {g : GuiPc} (hb : g.bounded = true) (h : GuiMove E s g s') :
    s'.gui.rank E < g.rank E := by
  have h3 := three_le_loopRank (E := E) (2 ^ 32)
  cases h with
  | field | abort => simp only [GuiPc.rank, List.length_cons]; omega
  | updated hd =>
    have := rank_updated (E := E) s hd true
    rw [show (GuiPc.exchange hd []).rank E = loopRank E (2 ^ 32) + 20 from rfl]
    omega
  | dismissed hd =>
    have := rank_updated (E := E) s hd false
    rw [show (GuiPc.invalid hd).rank E = loopRank E (2 ^ 32) + 19 from rfl]
    omega
  | enter lvl msg i nCnt hi =>
    have hi' : i.toNat < nCnt.toNat := hi
    obtain ⟨d, hd⟩ := Nat.exists_eq_add_of_lt hi'
    simp only [GuiPc.rank, SendPc.rank]
    rw [show nCnt.toNat - i.toNat = d + 1 by omega, Nat.add_sub_cancel, loopRank_succ]
    omega
  | leave lvl msg i nCnt hi =>
    have := three_le_loopRank (E := E) (nCnt.toNat - i.toNat)
    simp only [GuiPc.rank]
    omega
  | send lvl msg i nCnt p m q hs =>
    have hrank := sendStep_rank hs
    cases q with
    | none =>
      have hi := toNat_succ_of_lt (of_decide_eq_true hb)
      simp only [afterSend, GuiPc.rank, hi, Option.elim_none] at hrank ⊢
      rw [← Nat.sub_sub]
      omega
    | some q =>
      simp only [afterSend, GuiPc.rank, Option.elim_some] at hrank ⊢
      omega
  | start w | suspend w => cases w <;> simp [afterStart, afterSuspend, GuiPc.rank]
  | closeNull c =>
    have := rank_afterClose (E := E) c
    rw [show (GuiPc.closeAll c).rank E = loopRank E (2 ^ 32) + 60 from rfl]
    dsimp only
    omega
  | deleteThread c =>
    have := rank_afterClose (E := E) c
    rw [setThread_gui, show (GuiPc.deleteThread c).rank E = loopRank E (2 ^ 32) + 58 from rfl]
    exact Nat.lt_of_le_of_lt this (by omega)
  | _ => simp [GuiPc.rank]

theorem bounded_of_move {s s' : State} {g : GuiPc} (hb : g.bounded = true) (h : GuiMove E s g s') :
    s'.gui.bounded = true := by
  cases h with
  | updated hd | dismissed hd => cases hd <;> rfl
  | enter _ _ _ _ hi => exact decide_eq_true hi
  | send _ _ _ _ _ _ q => cases q <;> first | rfl | exact hb
  | start w | suspend w => cases w <;> rfl
  | closeNull c | deleteThread c => cases c <;> rfl
  | _ => rfl

theorem bounded_step {s s' : State} {a : Act} (hi : s.gui.bounded = true) (h : step E s a = some s') :
    s'.gui.bounded = true := by
  cases step_move h with
  | click c ha hg hs => subst hs; cases c <;> rfl
  | edit b ha hg hs => subst hs; exact hi
  | gui ha h => exact bounded_of_move hi (guiStep_move h)
  | worker w m pc d ha hr hm hs => rw [hs]; exact hi

theorem bounded {P : State → Act → Prop} {m : Members} {b : Boxes} {s : State} (h : Reached E P m b s) :
    s.gui.bounded = true :=
  h.inv (I := fun u => u.gui.bounded = true) rfl (fun _ _ _ _ hi _ hs => bounded_step hi hs)

/-! ## To the end of a handler -/

def GuiPc.settled : GuiPc → Bool
  | .idle | .destroyed => true
  | _ => false

/-- The GUI thread waits only for a mutex that a worker holds. -/
theorem guiStep_blocked {s : State} (hh : Mutex.Held s.mem.holder (owns s)) (hp : Placed s)
    (hs : s.gui.settled = false) (hn : guiStep E s = none) :
    ∃ lvl msg i nCnt l x k rest w, s.gui = .sending lvl msg i nCnt (.wait l x k rest) ∧ owns s (.worker w) = some k := by
  cases hg : s.gui with
  | idle | destroyed => rw [hg] at hs; cases hs
  | exchange hd rest =>
    cases rest with
    | nil => simp [guiStep, hg] at hn
    | cons f fs => rcases hf : exchangeField E s.boxes s.members f with ⟨m, _ | e⟩ <;> simp [guiStep, hg, hf] at hn
  | sending lvl msg i nCnt p =>
    have hpos : pos s .gui = some p := by simp [pos, hg, GuiPc.pos]
    have hpl := hp .gui p hpos
    have hsend : sendStep E .gui s.mem p = none := by
      cases hr : sendStep E .gui s.mem p with
      | none => rfl
      | some r => simp [guiStep, hg, hr] at hn
    cases p with
    | lock l x k rest => cases hk : s.mem.holder k <;> simp [sendStep, hk] at hsend
    | wait l x k rest =>
      cases hk : s.mem.holder k with
      | none => simp [sendStep, hk] at hsend
      | some t =>
        have ht := (hh k t).1 hk
        cases t with
        | gui => simp [owns, hpos, SendPc.owns] at ht
        | worker w => exact ⟨lvl, msg, i, nCnt, l, x, k, rest, w, rfl, ht⟩
    | sink l x k rest c =>
      cases c with
      | get => simp [SendPc.placed] at hpl
      | set str => simp [SendPc.placed] at hpl
      | enter => by_cases hk : k = .callback <;> simp [sendStep, hk] at hsend
      | _ => simp [sendStep] at hsend
    | _ => simp [sendStep] at hsend
  | _ => simp [guiStep, hg] at hn

theorem guiStep_enabled {s : State} (hh : Mutex.Held s.mem.holder (owns s)) (hp : Placed s) (hc : Clear E s)
    (hs : s.gui.settled = false) : ∃ s', guiStep E s = some s' := by
  cases hn : guiStep E s with
  | some s' => exact ⟨s', rfl⟩
  | none =>
    obtain ⟨lvl, msg, i, nCnt, l, x, k, rest, w, hg, hk⟩ := guiStep_blocked hh hp hs hn
    have := hc w k hk
    simp [hg, GuiPc.needs, SendPc.needs] at this

theorem clear_guiStep {s s' : State} (hb : Basic s) (hc : Clear E s) (h : guiStep E s = some s') : Clear E s' := by
  intro w k hk
  have hk' : owns s (.worker w) = some k := by unfold owns at hk ⊢; rwa [guiStep_worker hb.ptrInv h] at hk
  by_contra hn
  have hn' : s'.gui.needs E k = true := by simpa using hn
  have := needs_of_move (guiStep_move h) hn'
  rw [hc w k hk'] at this
  cases this

/-- **The GUI thread alone ends its handler**: in a run of its steps only, where `I` holds of every state passed. -/
theorem gui_alone {P : State → Act → Prop} {m : Members} {b : Boxes} {I : State → Prop}
    (hI : ∀ u v, Reached E Lts.anyStep m b u → I u → guiStep E u = some v → I v) (hP : ∀ u, I u → P u .gui) {s : State}
    (h : Reached E Lts.anyStep m b s) (hc : Clear E s) (hs : I s) :
    ∃ s', Lts.Reach (step E) P s s' ∧ I s' ∧ s'.gui.settled = true := by
  have hlower : ∀ u, (Reached E Lts.anyStep m b u ∧ Clear E u ∧ I u) → ¬ u.gui.settled = true →
      ∃ v, Lts.Reach (step E) P u v ∧ (Reached E Lts.anyStep m b v ∧ Clear E v ∧ I v) ∧ v.gui.rank E < u.gui.rank E := by
    rintro u ⟨hu, hcu, hiu⟩ hn
    obtain ⟨v, hv⟩ := guiStep_enabled (held hu) (placed hu) hcu (by simpa using hn)
    have hstep : step E u .gui = some v := hv
    have hkept := clear_guiStep (basic hu) hcu hv
    exact ⟨v, .one .gui (hP u hiu) hstep, ⟨hu.snoc .gui trivial hstep, hkept, hI u v hu hiu hv⟩,
      rank_of_move (bounded hu) (guiStep_move hv)⟩
  obtain ⟨s', hr, ⟨-, -, hi⟩, hF⟩ := Lts.Reach.of_rank (fun u => u.gui.rank E) hlower s ⟨h, hc, hs⟩
  exact ⟨s', hr, hi, hF⟩

end LogMaker
