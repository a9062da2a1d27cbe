import LogMaker.Lib.Lts
import LogMaker.Threads
/-!
# Step — every step of the three threads

`step E s a` is what the action `a` does in the state `s`, `none` where it is not possible there.  The user clicks and
edits only in the modal loop; the GUI thread executes one statement of its handler (`gui`), or answers a message of a
worker while it pumps (`answer`); a worker that is not suspended executes one statement (`work`, or one of the two
argument reads).
-/
namespace LogMaker

inductive Click where
  | send (k : Row)
  | check
  | ok
  | close
  | cancel
  deriving DecidableEq, Repr

inductive Act where
  | click (c : Click)
  | edit (b : Boxes)
  | gui
  | answer (w : Worker)
  | argLevel (w : Worker)
  | argMsg (w : Worker)
  | work (w : Worker)

def Act.sender? : Act → Option Sender
  | .gui => some .gui
  | .work w => some (.worker w)
  | _ => none

/-- The worker whose step, or answered message, an action is. -/
def Act.worker? : Act → Option Worker
  | .answer w | .argLevel w | .argMsg w | .work w => some w
  | _ => none

/-- A click starts its handler; the check box has toggled by itself (`BS_AUTOCHECKBOX`), and Escape has no handler of
its own (`CDialog::OnCancel` ends the dialog). -/
def State.click (s : State) : Click → State
  | .send k => { s with gui := .exchange (.send k) fields }
  | .check => { s with checked := !s.checked, gui := .exchange .check fields }
  | .ok => { s with gui := .closeAll .ok }
  | .close => { s with gui := .closeAll .close }
  | .cancel => { s with gui := .endDialog }

/-- `UpdateData` returns.  The Send buttons and the check box ignore what it returned; `CDialog::OnOK` does not. -/
def State.updated (s : State) : Handler → Bool → State
  | .send k, _ => { s with gui := .loop (s.members.strLevel k) (s.members.strMsg k) 0 (s.members.nCnt k) }
  | .check, _ => { s with gui := .ifChecked }
  | .ok, true => { s with gui := .endDialog }
  | .ok, false => { s with gui := .idle }

/-- After the start of one worker: the other's, or the end of the handler. -/
def afterStart : Worker → GuiPc
  | .sendThread => .start .sendThread2
  | .sendThread2 => .idle

def afterSuspend : Worker → GuiPc
  | .sendThread => .suspend .sendThread2
  | .sendThread2 => .report

/-- `closeAll` returns: to `CDialogEx::OnOK`, or to `OnClose`, whose `IDCANCEL`, posted, comes before any other
message. -/
def afterClose : Closing → GuiPc
  | .ok => .exchange .ok fields
  | .close => .endDialog

/-- A sender of the GUI thread went on inside `sendLogMsg1`, or returned to the loop. -/
def afterSend (lvl msg : CString) (i nCnt : UINT) : Option SendPc → GuiPc
  | some p => .sending lvl msg i nCnt p
  | none => .loop lvl msg (i + 1) nCnt

/-- One statement of the GUI thread's handler; in a message box, its dismissal. -/
def guiStep (E : Env) (s : State) : Option State :=
  match s.gui with
  | .idle => none
  | .exchange h [] => some (s.updated h true)
  | .exchange h (f :: fs) => match exchangeField E s.boxes s.members f with
    | (m, none) => some { s with members := m, gui := .exchange h fs }
    | (m, some _) => some { s with members := m, gui := .invalid h }
  | .invalid h => some (s.updated h false)
  | .loop lvl msg i nCnt =>
    some { s with gui := if i < nCnt then .sending lvl msg i nCnt (.read lvl msg) else .showCnt }
  | .sending lvl msg i nCnt p => match sendStep E .gui s.mem p with
    | none => none
    | some (m, q) => some { s with mem := m, gui := afterSend lvl msg i nCnt q }
  | .showCnt => some { s with mem := { s.mem with sendCnt := formatD s.mem.cnt }, gui := .sendBox }
  | .sendBox => some { s with gui := .idle }
  | .ifChecked => some { s with gui := if s.checked then .labelStop else .clearFlag }
  | .labelStop => some { s with label := "stop".toList, gui := .setFlag }
  | .setFlag => some { s with bSendRep := true, gui := .start .sendThread }
  | .start w => some ({ s with gui := afterStart w }.setThread w
    (if (s.thread w).ptr then (s.thread w).resume else (s.thread w).begin))
  | .clearFlag => some { s with bSendRep := false, gui := .labelRep }
  | .labelRep => some { s with label := "send rep".toList, gui := .suspend .sendThread }
  | .suspend w => some ({ s with gui := afterSuspend w }.setThread w
    (if (s.thread w).ptr then (s.thread w).suspend else s.thread w))
  | .report => some { s with gui := .reportCnt s.mem.cnt }
  | .reportCnt v => some { s with mem := { s.mem with sendCnt := formatD s.mem.cnt }, gui := .reportBox v }
  | .reportBox _ => some { s with gui := .idle }
  | .closeAll c => some { s with gui := if (s.thread .sendThread).ptr then .getExitCode c else afterClose c }
  | .getExitCode c => some { s with gui := .deleteThread c }
  | .deleteThread c => some ({ s with gui := afterClose c }.setThread .sendThread (s.thread .sendThread).delete)
  | .endDialog => some { s with gui := .returned }
  | .returned => some { s with gui := .destroyed }
  | .destroyed => none

/-- The GUI thread answers what a worker is blocked in: a message of `callbackLog`, or the count. -/
def answer (s : State) (w : Worker) : Option State :=
  match (s.thread w).pc with
  | .send rest p => match answerStep s.mem p with
    | none => none
    | some (m, p') => some ({ s with mem := m }.setPc w (.send rest p'))
  | .waitCnt str => some ({ s with mem := { s.mem with sendCnt := formatD str } }.setPc w .test)
  | _ => none

/-- One statement of a worker.  Past its loop the thread function returns and MFC deletes its `CWinThread`. -/
def workerStep (E : Env) (s : State) (w : Worker) : Option State :=
  match (s.thread w).pc with
  | .test => some (s.setPc w (if s.bSendRep then nextRow w.rows else .ret))
  | .args _ rest (some lvl) (some msg) => some (s.setPc w (.send rest (.read lvl msg)))
  | .send rest p => match sendStep E (.worker w) s.mem p with
    | none => none
    | some (m, some p') => some ({ s with mem := m }.setPc w (.send rest p'))
    | some (m, none) => some ({ s with mem := m }.setPc w (nextRow rest))
  | .format => some (s.setPc w (.setCnt s.mem.cnt))
  | .setCnt str => some (s.setPc w (.waitCnt str))
  | .ret => some (s.setThread w { s.thread w with pc := .ended, deletes := (s.thread w).deletes + 1 })
  | _ => none

def argLevel (s : State) (w : Worker) : Option State :=
  match (s.thread w).pc with
  | .args r rest none msg => some (s.setPc w (.args r rest (some (s.members.strLevel r)) msg))
  | _ => none

def argMsg (s : State) (w : Worker) : Option State :=
  match (s.thread w).pc with
  | .args r rest lvl none => some (s.setPc w (.args r rest lvl (some (s.members.strMsg r))))
  | _ => none

def step (E : Env) (s : State) : Act → Option State
  | .click c => match s.gui with
    | .idle => some (s.click c)
    | _ => none
  | .edit b => match s.gui with
    | .idle => some { s with boxes := b }
    | _ => none
  | .gui => guiStep E s
  | .answer w => if s.gui.pumps then answer s w else none
  | .argLevel w => if (s.thread w).suspends = 0 then argLevel s w else none
  | .argMsg w => if (s.thread w).suspends = 0 then argMsg s w else none
  | .work w => if (s.thread w).suspends = 0 then workerStep E s w else none

/-- Reached from the dialog's start by steps that all meet the guard. -/
abbrev Reached (E : Env) (P : State → Act → Prop) (m : Members) (b : Boxes) (s : State) : Prop :=
  Lts.Reach (step E) P (State.init m b) s

/-- Reached from the dialog's start, with the history that `see` keeps of the run from `o` on. -/
abbrev ReachedWith {ω : Type} (E : Env) (see : State → Act → ω → ω) (o : ω) (Q : State × ω → Act → Prop) (m : Members)
    (b : Boxes) (p : State × ω) : Prop := Lts.Reach (Lts.watch (step E) see) Q (State.init m b, o) p

/-! ## Runs to evaluate -/

/-- A click on the check box, and the GUI thread on its own up to the end of the handler. -/
def checkClick : List Act := .click .check :: List.replicate 37 .gui

/-- A click that unchecks it, up to the message box of the report. -/
def uncheckClick : List Act := .click .check :: List.replicate 39 .gui

/-- A worker from its loop test to the read of the counter for its first row. -/
def toRead (w : Worker) : List Act := [.work w, .argLevel w, .argMsg w, .work w]

/-- The worker on from there, through the sinks of `spdEnv` to the return of `toSpdLog`. -/
def throughSinks (w : Worker) : List Act :=
  List.replicate 11 (.work w) ++ [.answer w, .work w, .answer w] ++ List.replicate 5 (.work w)

def turn (w : Worker) : List Act :=
  let row := [.argLevel w, .argMsg w, .work w] ++ throughSinks w ++ [.work w]
  .work w :: (row ++ row ++ row ++ row ++ row)

/-- A run from the dialog as it opens: the members of `initMsgs`, and the controls showing them. -/
theorem exists_steps (P : State → Act → Prop) [∀ s a, Decidable (P s a)] (F : State → Prop) [DecidablePred F]
    (as : List Act) (h : (Lts.runIf (step spdEnv) (fun s a => decide (P s a)) (State.init (initMsgs 41)
      (initMsgs 41).shown) as).any (fun s => decide (F s)) = true) :
    ∃ s, Lts.Steps (step spdEnv) P (State.init (initMsgs 41) (initMsgs 41).shown) as s ∧ F s :=
  Lts.exists_steps_of_runIf (step spdEnv) P F _ as h

theorem exists_reached (P : State → Act → Prop) [∀ s a, Decidable (P s a)] (F : State → Prop) [DecidablePred F]
    (as : List Act) (h : (Lts.runIf (step spdEnv) (fun s a => decide (P s a)) (State.init (initMsgs 41)
      (initMsgs 41).shown) as).any (fun s => decide (F s)) = true) :
    ∃ s, Reached spdEnv P (initMsgs 41) (initMsgs 41).shown s ∧ F s := by
  obtain ⟨s, hs, hF⟩ := exists_steps P F as h
  exact ⟨s, ⟨as, hs⟩, hF⟩

theorem exists_reachedWith {ω : Type} (see : State → Act → ω → ω) (o : ω) (F : State × ω → Prop) [DecidablePred F]
    (as : List Act) (h : (Lts.runIf (Lts.watch (step spdEnv) see) (fun s a => decide (Lts.anyStep s a)) (State.init
      (initMsgs 41) (initMsgs 41).shown, o) as).any (fun p => decide (F p)) = true) :
    ∃ p, ReachedWith spdEnv see o Lts.anyStep (initMsgs 41) (initMsgs 41).shown p ∧ F p := by
  obtain ⟨p, hp, hF⟩ := Lts.exists_steps_of_runIf (Lts.watch (step spdEnv) see) Lts.anyStep F _ as h
  exact ⟨p, ⟨as, hp⟩, hF⟩

end LogMaker
