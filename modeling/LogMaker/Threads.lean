import LogMaker.Dialog
/-!
# Threads — the GUI thread, the two workers, and what they share

Three threads send: the GUI thread in the loop of `sendLogMsgCnt`, and the workers `sendThread` and `sendThread2`.
Each position of a thread is a statement it is about to execute, or a call it is blocked in.

A send (`SendPc`) reads `g_nSendCnt`, writes it back plus one, makes its line, and calls each sink of the logger under
that sink's mutex; in the callback sink it is `callbackLog`, which reads the sent-logs box and writes it back.  A worker
does both through a message that the GUI thread answers when it pumps, and waits meanwhile; the GUI thread owns the box
and does both at once.

`Mem` is what the senders change: the counter, the mutexes, the two output boxes, and three histories that no code reads
(the numbers passed to `makeMsgBuf`, the finished calls of `toSpdLog`, the lines in the order the callback sink's mutex
was taken for them).
-/
namespace LogMaker

inductive Worker where
  | sendThread | sendThread2
  deriving DecidableEq, Repr

inductive Sender where
  | gui
  | worker (w : Worker)
  deriving DecidableEq, Repr

instance : Fintype Worker := ⟨{.sendThread, .sendThread2}, fun w => by cases w <;> decide⟩

instance : Fintype Sender :=
  ⟨{.gui, .worker .sendThread, .worker .sendThread2}, fun t => by rcases t with _ | _ | _ <;> decide⟩

/-! ## One send -/

/-- A thread in a sink it holds the mutex of.  In `callbackLog`, `get` is blocked in `GetWindowText`, `got` has the
box's text, `set` is blocked in `SetWindowText`; `done` is about to release the mutex. -/
inductive SinkPc where
  | enter
  | get
  | got (str : CString)
  | set (str : CString)
  | done

/-- A thread in `sendLogMsg1`.  `lock` is about to lock the mutex of the next sink, `wait` is blocked on it. -/
inductive SendPc where
  | read (lvl msg : CString)
  | write (lvl msg : CString) (n : UINT)
  | make (lvl msg : CString) (n : UINT)
  | lock (lvl line : CString) (k : Sink) (rest : List Sink)
  | wait (lvl line : CString) (k : Sink) (rest : List Sink)
  | sink (lvl line : CString) (k : Sink) (rest : List Sink) (c : SinkPc)
  | ret (lvl line : CString)
  | sleep

structure Mem where
  cnt : UINT
  holder : Sink → Option Sender
  sendCnt : CString
  sentLogs : CString
  nums : List UINT
  logged : List Record
  delivered : List CString

/-- The next sink of a logger that has called the others, or the return of `toSpdLog`. -/
def nextSink (lvl line : CString) : List Sink → SendPc
  | [] => .ret lvl line
  | k :: rest => .lock lvl line k rest

/-- The text the callback sink passes to `callbackLog`. -/
def payloadOf (E : Env) (lvl line : CString) : CString := E.payload (severity lvl) line

def Mem.take (E : Env) (m : Mem) (t : Sender) (lvl line : CString) (k : Sink) : Mem :=
  { m with
    holder := Function.update m.holder k (some t)
    delivered := if k = .callback then m.delivered ++ [payloadOf E lvl line] else m.delivered }

def Mem.release (m : Mem) (k : Sink) : Mem := { m with holder := Function.update m.holder k none }

/-- `str.Insert(0, CA2CT((char*)pMsg) + "\r\n")`. -/
def insertLine (E : Env) (lvl line str : CString) : CString := payloadOf E lvl line ++ ['\r', '\n'] ++ str

/-- One step of a thread inside `sendLogMsg1`: what it leaves in memory, and where it is then (`none`: it returned).
No step: it is blocked. -/
def sendStep (E : Env) (t : Sender) (m : Mem) : SendPc → Option (Mem × Option SendPc)
  | .read lvl msg => some (m, some (.write lvl msg m.cnt))
  | .write lvl msg n => some ({ m with cnt := n + 1 }, some (.make lvl msg n))
  | .make lvl msg n =>
    some ({ m with nums := m.nums ++ [n] }, some (nextSink lvl (makeMsgBuf msg n) E.sinks))
  | .lock lvl line k rest => match m.holder k with
    | none => some (m.take E t lvl line k, some (.sink lvl line k rest .enter))
    | some _ => some (m, some (.wait lvl line k rest))
  | .wait lvl line k rest => match m.holder k with
    | none => some (m.take E t lvl line k, some (.sink lvl line k rest .enter))
    | some _ => none
  | .sink lvl line k rest .enter =>
    if k = .callback then match t with
      | .gui => some (m, some (.sink lvl line k rest (.got m.sentLogs)))
      | .worker _ => some (m, some (.sink lvl line k rest .get))
    else some (m, some (.sink lvl line k rest .done))
  | .sink _ _ _ _ .get => none
  | .sink lvl line k rest (.got str) => match t with
    | .gui => some ({ m with sentLogs := insertLine E lvl line str }, some (.sink lvl line k rest .done))
    | .worker _ => some (m, some (.sink lvl line k rest (.set (insertLine E lvl line str))))
  | .sink _ _ _ _ (.set _) => none
  | .sink lvl line k rest .done => some (m.release k, some (nextSink lvl line rest))
  | .ret lvl line => some ({ m with logged := m.logged ++ [toSpdLog lvl line] }, some .sleep)
  | .sleep => some (m, none)

def answerStep (m : Mem) : SendPc → Option (Mem × SendPc)
  | .sink lvl line k rest .get => some (m, .sink lvl line k rest (.got m.sentLogs))
  | .sink lvl line k rest (.set str) => some ({ m with sentLogs := str }, .sink lvl line k rest .done)
  | _ => none

/-! ## A worker -/

/-- A worker in its thread function.  `args` evaluates the arguments of the next `sendLogMsg1`, its level and its text in
either order; `setCnt` has formatted the counter, `waitCnt` is blocked in the `SetWindowText` of it; `ret` has left the
loop. -/
inductive ThreadPc where
  | absent
  | test
  | args (r : Row) (rest : List Row) (lvl msg : Option CString)
  | send (rest : List Row) (p : SendPc)
  | format
  | setCnt (str : UINT)
  | waitCnt (str : UINT)
  | ret
  | ended

/-- One worker: whether `m_pThreadSend` (`m_pThreadSend2`) is set, how often `AfxBeginThread` created it, where it is,
its suspend count, and how often its `CWinThread` was deleted. -/
structure Thread where
  ptr : Bool
  made : Nat
  pc : ThreadPc
  suspends : Nat
  deletes : Nat

/-- A pointer as the constructor leaves it: `NULL`, and no thread. -/
def Thread.unset : Thread := { ptr := false, made := 0, pc := .absent, suspends := 0, deletes := 0 }

def sendLogAllMsg1 : List Row := [0, 1, 2, 3, 4]
def sendLogAllMsg2 : List Row := [5, 6, 7, 8, 9]

def Worker.rows : Worker → List Row
  | .sendThread => sendLogAllMsg1
  | .sendThread2 => sendLogAllMsg2

/-- The next call of `sendLogAllMsg1` (`sendLogAllMsg2`), or the count after the last one. -/
def nextRow : List Row → ThreadPc
  | [] => .format
  | r :: rest => .args r rest none none

/-- `AfxBeginThread`: the pointer is to a new thread, at the start of its function. -/
def Thread.begin (t : Thread) : Thread := { ptr := true, made := t.made + 1, pc := .test, suspends := 0, deletes := 0 }

/-- `ResumeThread`: no effect through a deleted object, which is also every ended thread's. -/
def Thread.resume (t : Thread) : Thread := if t.deletes = 0 then { t with suspends := t.suspends - 1 } else t

/-- `SuspendThread`, with no effect through a deleted object. -/
def Thread.suspend (t : Thread) : Thread := if t.deletes = 0 then { t with suspends := t.suspends + 1 } else t

def Thread.delete (t : Thread) : Thread := { t with deletes := t.deletes + 1 }

/-! ## The GUI thread -/

/-- A handler that calls `UpdateData`. -/
inductive Handler where
  | send (k : Row)
  | check
  | ok
  deriving DecidableEq, Repr

inductive Closing where
  | ok
  | close
  deriving DecidableEq, Repr

/-- The GUI thread: `idle` in the modal loop; in the exchange of a handler, with the statements to come, or in the
message box of an aborted one; in `sendLogMsgCnt`, between two sends, in one, or after the loop; in the branches of
`OnBnClickedCheckSendrep`; in `closeAll`; ending the dialog. -/
inductive GuiPc where
  | idle
  | exchange (h : Handler) (rest : List Field)
  | invalid (h : Handler)
  | loop (lvl msg : CString) (i nCnt : UINT)
  | sending (lvl msg : CString) (i nCnt : UINT) (p : SendPc)
  | showCnt
  | sendBox
  | ifChecked
  | labelStop
  | setFlag
  | start (w : Worker)
  | clearFlag
  | labelRep
  | suspend (w : Worker)
  | report
  | reportCnt (v : UINT)
  | reportBox (v : UINT)
  | closeAll (c : Closing)
  | getExitCode (c : Closing)
  | deleteThread (c : Closing)
  | endDialog
  | returned
  | destroyed

/-- The positions in which the GUI thread pumps messages: the modal loop and the message boxes. -/
def GuiPc.pumps : GuiPc → Bool
  | .idle | .invalid _ | .sendBox | .reportBox _ => true
  | _ => false

structure State where
  mem : Mem
  members : Members
  boxes : Boxes
  checked : Bool
  label : CString
  bSendRep : Bool
  gui : GuiPc
  thread : Worker → Thread

/-- The dialog as `OnInitDialog` leaves it, whatever its members and controls hold. -/
def State.init (m : Members) (b : Boxes) : State where
  mem := {
    cnt := 0
    holder := fun _ => none
    sendCnt := []
    sentLogs := []
    nums := []
    logged := []
    delivered := [] }
  members := m
  boxes := b
  checked := false
  label := "send rep".toList
  bSendRep := false
  gui := .idle
  thread := fun _ => .unset

def State.setThread (s : State) (w : Worker) (t : Thread) : State := { s with thread := Function.update s.thread w t }

def State.setPc (s : State) (w : Worker) (pc : ThreadPc) : State := s.setThread w { s.thread w with pc := pc }

end LogMaker
