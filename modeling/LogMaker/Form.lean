import LogMaker.Alone
import LogMaker.Exchange
import LogMaker.Lib.Ledger
/-!
# Form — what the user's clicks come to

`Form` is the dialog as its user sees it: what the controls hold, what the members hold, and the messages asked for.  A
click does at once what its handler does statement by statement between the steps of the workers: the exchange as far
as it comes, and a Send button's loop.  Every run of the dialog refines it (`reached_form`): the members are the form's
up to the exchange in progress, and the GUI thread has called `sendLogMsg1` for the messages asked for, in order, but
for those its handler has still to send.  The workers, whatever they do and wherever they stand, change none of this.
-/
namespace LogMaker

variable {E : Env} {s s' : State} {g : GuiPc} {a : Act}

/-- The arguments of a call of `sendLogMsg1`. -/
abbrev Call := CString × CString

/-- The calls of `sendLogMsgCnt` for row `k`. -/
def Members.calls (m : Members) (k : Row) : List Call :=
  List.replicate (m.nCnt k).toNat (m.strLevel k, m.strMsg k)

structure Form where
  members : Members
  boxes : Boxes
  asked : List Call

/-- `UpdateData` at once. -/
def Form.exchange (E : Env) (f : Form) : Form := { f with members := (doDataExchange E f.boxes f.members).1 }

def Form.click (E : Env) (f : Form) : Click → Form
  | .send k => { f.exchange E with asked := f.asked ++ (f.exchange E).members.calls k }
  | .check | .ok => f.exchange E
  | .close | .cancel => f

def Form.act (E : Env) (f : Form) : Act → Form
  | .click c => f.click E c
  | .edit b => { f with boxes := b }
  | _ => f

/-! ## The dialog's runs -/

/-- The members that the exchange in progress, or about to be made, will leave. -/
def State.newMembers (E : Env) (s : State) : Members := match s.gui with
  | .exchange _ fs => (exchangeFields E s.boxes s.members fs).1
  | .closeAll .ok | .getExitCode .ok | .deleteThread .ok => (doDataExchange E s.boxes s.members).1
  | _ => s.members

/-- The calls of `sendLogMsg1` the GUI thread's handler has still to make. -/
def State.toCall (E : Env) (s : State) : List Call := match s.gui with
  | .exchange (.send k) _ | .invalid (.send k) => (s.newMembers E).calls k
  | .loop lvl msg i nCnt => List.replicate (nCnt.toNat - i.toNat) (lvl, msg)
  | .sending lvl msg i nCnt _ => List.replicate (nCnt.toNat - (i + 1).toNat) (lvl, msg)
  | _ => []

/-- The form and the calls the GUI thread has made. -/
structure Filled where
  form : Form
  calls : List Call

def Filled.see (E : Env) (s : State) (a : Act) (o : Filled) : Filled := match a with
  | .click _ | .edit _ => { o with form := o.form.act E a }
  | .gui => match s.gui with
    | .loop lvl msg i nCnt => if i < nCnt then { o with calls := o.calls ++ [(lvl, msg)] } else o
    | _ => o
  | _ => o

theorem newMembers_of_move (hg : s.gui = g) (h : GuiMove E s g s') :
    s'.boxes = s.boxes ∧ s'.newMembers E = s.newMembers E := by
  refine ⟨(controls_of_move h).1, ?_⟩
  unfold State.newMembers
  rw [hg]
  cases h with
  | field hd f fs m hf => simp only [exchangeFields, hf]
  | abort hd f fs m e hf => simp only [exchangeFields, hf]
  | updated hd | dismissed hd => cases hd <;> rfl
  | send _ _ _ _ _ _ q => cases q <;> rfl
  | start w | suspend w => cases w <;> rfl
  | closePtr c | getExitCode c => cases c <;> rfl
  | closeNull c | deleteThread c => cases c <;> rfl
  | _ => rfl

/-- What the GUI thread has still to call is what it had, but for the call it has just made. -/
theorem toCall_of_move (hb : g.bounded = true) (hg : s.gui = g) (h : GuiMove E s g s') (o : Filled) :
    Lts.Moves Filled.calls (fun o => o.form.asked) (State.toCall E) s o s' (o.see E s .gui) := by
  have hkeep : s'.toCall E = s.toCall E → o.see E s .gui = o →
      Lts.Moves Filled.calls (fun o => o.form.asked) (State.toCall E) s o s' (o.see E s .gui) := by
    intro hl ho
    rw [ho]
    exact .keep rfl rfl hl
  have hnew := (newMembers_of_move hg h).2
  cases h with
  | field hd | abort hd =>
    apply hkeep
    · cases hd <;> simp only [State.toCall, hg, hnew]
    · simp only [Filled.see, hg]
  | updated hd | dismissed hd =>
    apply hkeep
    · cases hd with
      | send k => simp only [State.toCall, hg, ← hnew, State.updated]; rfl
      | _ => simp only [State.toCall, hg, State.updated]
    · simp only [Filled.see, hg]
  | enter lvl msg i nCnt hi =>
    have ho : o.see E s .gui = { o with calls := o.calls ++ [(lvl, msg)] } := by simp only [Filled.see, hg, if_pos hi]
    rw [ho]
    refine .one (lvl, msg) rfl rfl ?_
    simp only [State.toCall, hg]
    rw [toNat_succ_of_lt hi, ← List.replicate_succ]
    have hlt : i.toNat < nCnt.toNat := hi
    congr 1
    omega
  | leave lvl msg i nCnt hi =>
    apply hkeep
    · have hle : nCnt.toNat - i.toNat = 0 := by rw [BitVec.lt_def] at hi; omega
      simp only [State.toCall, hg, hle, List.replicate_zero]
    · simp only [Filled.see, hg, if_neg hi]
  | send lvl msg i nCnt p m q hs =>
    apply hkeep
    · cases q <;> simp only [State.toCall, hg, afterSend]
    · simp only [Filled.see, hg]
  | start w | suspend w =>
    apply hkeep
    · cases w <;> simp only [State.toCall, hg] <;> rfl
    · simp only [Filled.see, hg]
  | closeNull c | deleteThread c =>
    apply hkeep
    · cases c <;> simp only [State.toCall, hg] <;> rfl
    · simp only [Filled.see, hg]
  | _ =>
    apply hkeep
    · simp only [State.toCall, hg]
    · simp only [Filled.see, hg]

theorem see_gui_form (o : Filled) : (o.see E s .gui).form = o.form := by
  unfold Filled.see
  dsimp only
  split
  · split <;> rfl
  · rfl

/-- The form's boxes are the dialog's, and its members those the dialog will have. -/
def Follows (E : Env) (s : State) (f : Form) : Prop := f.boxes = s.boxes ∧ f.members = s.newMembers E

theorem newMembers_idle (hg : s.gui = .idle) : s.newMembers E = s.members := by simp only [State.newMembers, hg]

theorem follows_click (hg : s.gui = .idle) (c : Click) {f : Form} (hf : Follows E s f) :
    Follows E (s.click c) (f.click E c) := by
  obtain ⟨hb, hm⟩ := hf
  rw [newMembers_idle hg] at hm
  constructor
  · cases c <;> exact hb
  · cases c with
    | send k | check | ok =>
      show (doDataExchange E f.boxes f.members).1 = _
      rw [hb, hm]
      rfl
    | close | cancel => exact hm

theorem follows_step (h : step E s a = some s') {o : Filled} (hf : Follows E s o.form) :
    Follows E s' (o.see E s a).form := by
  cases step_move h with
  | click c ha hg hs => subst ha hs; exact follows_click hg c hf
  | edit b ha hg hs =>
    subst ha hs
    have hm : o.form.members = s.members := hf.2.trans (newMembers_idle hg)
    exact ⟨rfl, hm.trans (by simp only [State.newMembers, hg])⟩
  | gui ha h =>
    subst ha
    obtain ⟨hb, hd⟩ := newMembers_of_move rfl (guiStep_move h)
    rw [see_gui_form]
    exact ⟨hf.1.trans hb.symm, hf.2.trans hd.symm⟩
  | worker w m pc d ha hr hm hs =>
    have ho : o.see E s a = o := by cases a <;> first | rfl | cases ha
    rw [ho, hs]
    exact hf

/-- The calls of a click are asked for when it comes, its handler having none yet to make. -/
theorem calls_click (hg : s.gui = .idle) (c : Click) {o : Filled} (hf : Follows E s o.form) :
    Lts.Moves Filled.calls (fun o => o.form.asked) (State.toCall E) s o (s.click c) (o.see E s (.click c)) := by
  have hnone : s.toCall E = [] := by simp only [State.toCall, hg]
  cases c with
  | send k =>
    refine .ask rfl hnone ?_
    have hm : (o.form.exchange E).members = (s.click (.send k)).newMembers E := (follows_click hg .check hf).2
    show o.form.asked ++ (o.form.exchange E).members.calls k = _
    rw [hm]
    rfl
  | _ => exact .keep rfl rfl (by rw [hnone]; rfl)

theorem calls_step (hb : s.gui.bounded = true) (h : step E s a = some s') {o : Filled} (hf : Follows E s o.form) :
    Lts.Moves Filled.calls (fun o => o.form.asked) (State.toCall E) s o s' (o.see E s a) := by
  cases step_move h with
  | click c ha hg hs => subst ha hs; exact calls_click hg c hf
  | edit b ha hg hs =>
    subst ha hs
    exact .keep rfl rfl (by simp only [State.toCall, hg])
  | gui ha h => subst ha; exact toCall_of_move hb rfl (guiStep_move h) o
  | worker w m pc d ha hr hm hs =>
    have ho : o.see E s a = o := by cases a <;> first | rfl | cases ha
    rw [ho, hs]
    exact .keep rfl rfl rfl

/-- **Every run refines the form**: at every step of every interleaving the form's boxes are the dialog's and its
members those that the exchange in progress will leave, and what the GUI thread has called, with what its handler has
still to call, is what the clicks asked for; in the modal loop, nothing more and nothing less. -/
theorem reached_form {m : Members} {b : Boxes} {Q : State × Filled → Act → Prop} {p : State × Filled}
    (h : ReachedWith E (Filled.see E) ⟨⟨m, b, []⟩, []⟩ Q m b p) :
    (p.2.form.boxes = p.1.boxes ∧ p.2.form.members = p.1.newMembers E ∧ p.2.calls ++ p.1.toCall E = p.2.form.asked) ∧
    (p.1.gui = .idle → p.1.members = p.2.form.members ∧ p.2.calls = p.2.form.asked) := by
  have hfollows : ∀ q, ReachedWith E (Filled.see E) ⟨⟨m, b, []⟩, []⟩ Q m b q → Follows E q.1 q.2.form := by
    intro q hq
    refine Lts.Reach.inv (I := fun q => Follows E q.1 q.2.form) hq ⟨rfl, rfl⟩ (fun u a v _ hi _ huv => ?_)
    obtain ⟨hs, ho⟩ := Lts.watch_eq_some.1 huv
    rw [ho]
    exact follows_step hs hi
  have hcalls : p.2.calls ++ p.1.toCall E = p.2.form.asked := by
    refine h.balance Filled.calls (fun o => o.form.asked) (State.toCall E) rfl (fun u a v hu hs => ?_)
    exact calls_step (bounded hu.of_watch) hs (hfollows u hu)
  obtain ⟨hb, hm⟩ := hfollows p h
  refine ⟨⟨hb, hm, hcalls⟩, fun hg => ⟨?_, ?_⟩⟩
  · rw [hm, newMembers_idle hg]
  · rw [← hcalls, show p.1.toCall E = [] by simp only [State.toCall, hg], List.append_nil]

/-- A click on Send-10 in its second message, with `sendThread` in the middle of a send. -/
theorem reached_form_second : ∃ p : State × Filled,
    ReachedWith spdEnv (Filled.see spdEnv) ⟨⟨initMsgs 41, (initMsgs 41).shown, []⟩, []⟩ Lts.anyStep (initMsgs 41)
      (initMsgs 41).shown p ∧
    (p.2.calls.length = 2 ∧ p.1.toCall spdEnv = List.replicate 3 ((initMsgs 41).strLevel 9, (initMsgs 41).strMsg 9)) ∧
    (p.2.form.boxes = p.1.boxes ∧ p.2.form.members = p.1.newMembers spdEnv ∧
      p.2.calls ++ p.1.toCall spdEnv = p.2.form.asked) ∧
    (p.1.gui = .idle → p.1.members = p.2.form.members ∧ p.2.calls = p.2.form.asked) := by
  obtain ⟨p, hp, hF⟩ := exists_reachedWith (Filled.see spdEnv) ⟨⟨initMsgs 41, (initMsgs 41).shown, []⟩, []⟩
    (fun p => p.2.calls.length = 2 ∧
      p.1.toCall spdEnv = List.replicate 3 ((initMsgs 41).strLevel 9, (initMsgs 41).strMsg 9))
    (checkClick ++ toRead .sendThread ++ .click (.send 9) :: List.replicate 52 .gui) (by decide +kernel)
  exact ⟨p, hp, hF, reached_form hp⟩

end LogMaker
