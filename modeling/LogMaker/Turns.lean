import LogMaker.Life
import LogMaker.Lib.Ledger
/-!
# Turns — what a worker sends, turn by turn

A turn of a worker is one pass of its `while` loop: its five rows in order, then the count.  `Turns` is a history of one
worker: how often it has entered the loop's body, and what it has sent and shown since the dialog opened.  Whatever the
other threads do, and however often the worker is suspended in the middle of a turn, the rows it has sent and the counts
it has shown, with what its position has left of the turn, are whole turns (`reached_wholeTurns`).
-/
namespace LogMaker

variable {E : Env} {s s' : State} {a : Act}

/-- A worker calls `sendLogMsg1` with the arguments of a row, or the dialog shows the count it formatted. -/
inductive Event where
  | sent (r : Row)
  | shown
  deriving DecidableEq, Repr

/-- One pass of the loop of `sendThread` (`sendThread2`) from this row on. -/
def turnFrom (rs : List Row) : List Event := rs.map .sent ++ [.shown]

/-- What a position has left of its turn. -/
def ThreadPc.left : ThreadPc → List Event
  | .args r rest _ _ => turnFrom (r :: rest)
  | .send rest _ => turnFrom rest
  | .format | .setCnt _ | .waitCnt _ => turnFrom []
  | .absent | .test | .ret | .ended => []

structure Turns where
  begun : Nat
  events : List Event

/-- What a step shows of worker `w`. -/
def Turns.see (w : Worker) (s : State) (a : Act) (o : Turns) : Turns :=
  match a with
  | .work v => if v = w then match (s.thread w).pc with
      | .test => if s.bSendRep then { o with begun := o.begun + 1 } else o
      | .args r _ (some _) (some _) => { o with events := o.events ++ [.sent r] }
      | _ => o
    else o
  | .answer v => if v = w then match (s.thread w).pc with
      | .waitCnt _ => { o with events := o.events ++ [.shown] }
      | _ => o
    else o
  | _ => o

/-- The turns a worker has begun, whole. -/
def Turns.asked (w : Worker) (o : Turns) : List Event := (List.replicate o.begun (turnFrom w.rows)).flatten

theorem asked_begin (w : Worker) (o : Turns) :
    Turns.asked w { o with begun := o.begun + 1 } = o.asked w ++ turnFrom w.rows := by
  unfold Turns.asked
  rw [List.replicate_succ', List.flatten_append, List.flatten_singleton]

theorem left_nextRow (rest : List Row) : (nextRow rest).left = turnFrom rest := by cases rest <;> rfl

theorem see_other {w : Worker} (ha : a.worker? ≠ some w) (o : Turns) : o.see w s a = o := by
  have hne : ∀ v, a.worker? = some v → ¬ v = w := by
    intro v hv hvw
    rw [hv, hvw] at ha
    exact ha rfl
  cases a with
  | work v | answer v => simp only [Turns.see, if_neg (hne v rfl)]
  | _ => rfl

/-- The balance of one step: at the loop test a turn is asked for, and each event is done when it is the next one. -/
theorem turns_step (hb : Basic s) (h : step E s a = some s') (w : Worker) (o : Turns) :
    Lts.Moves Turns.events (Turns.asked w) (fun s => (s.thread w).pc.left) s o s' (o.see w s a) := by
  have hset : ∀ (m : Mem) (pc : ThreadPc), (({ s with mem := m }.setPc w pc).thread w).pc = pc := by
    intro m pc
    simp [setPc_eq]
  have hkeep : ∀ pc : ThreadPc, (s'.thread w).pc = pc → pc.left = (s.thread w).pc.left → o.see w s a = o →
      Lts.Moves Turns.events (Turns.asked w) (fun s => (s.thread w).pc.left) s o s' (o.see w s a) := by
    intro pc hpc hl ho
    rw [ho]
    exact .keep rfl rfl (by rw [← hl, ← hpc])
  cases step_thread hb h w with
  | rest ha hpc => exact hkeep _ hpc rfl (see_other ha o)
  | started ha hpc hpc' => exact hkeep .test hpc' (by rw [hpc]; rfl) (by rw [ha]; rfl)
  | work hr h =>
    cases h with
    | test hpc =>
      by_cases hf : s.bSendRep = true
      · have ho : o.see w s (.work w) = { o with begun := o.begun + 1 } := by simp [Turns.see, hpc, hf]
        have hleft : ((s.setPc w (if s.bSendRep then nextRow w.rows else .ret)).thread w).pc.left =
            turnFrom w.rows := by
          rw [if_pos hf, hset s.mem, left_nextRow]
        rw [ho]
        exact .ask rfl (by rw [hpc]; rfl) (by rw [hleft]; exact asked_begin w o)
      · apply hkeep .ret
        · rw [if_neg hf, hset s.mem]
        · rw [hpc]; rfl
        · simp [Turns.see, hpc, hf]
    | argLevel r rest msg hpc | argMsg r rest lvl hpc => exact hkeep _ (hset s.mem _) (by rw [hpc]; rfl) rfl
    | call r rest lvl msg hpc =>
      have ho : o.see w s (.work w) = { o with events := o.events ++ [.sent r] } := by simp [Turns.see, hpc]
      rw [ho]
      exact .one (.sent r) rfl rfl (by rw [hset s.mem, hpc]; rfl)
    | send rest p p' m hpc hs => exact hkeep _ (hset m _) (by rw [hpc]; rfl) (by simp [Turns.see, hpc])
    | sent rest p m hpc hs => exact hkeep _ (hset m _) (by rw [hpc, left_nextRow]; rfl) (by simp [Turns.see, hpc])
    | format hpc | setCnt str hpc => exact hkeep _ (hset s.mem _) (by rw [hpc]; rfl) (by simp [Turns.see, hpc])
    | ret hpc => exact hkeep .ended (by simp) (by rw [hpc]; rfl) (by simp [Turns.see, hpc])
  | answer ha hg hans =>
    subst ha
    cases hans with
    | send rest p p' m hpc hs => exact hkeep _ (hset m _) (by rw [hpc]; rfl) (by simp [Turns.see, hpc])
    | waitCnt str hpc =>
      have ho : o.see w s (.answer w) = { o with events := o.events ++ [.shown] } := by simp [Turns.see, hpc]
      rw [ho]
      exact .one .shown rfl rfl (by rw [hset _ .test, hpc]; rfl)

/-- **A worker sends whole turns**: the rows it has sent and the counts it has shown, with what is left of the turn it
is in, are the turns it has begun, one after another.  No row is skipped, sent twice or out of order, and the loop is
never left in the middle of a turn. -/
theorem reached_wholeTurns {m : Members} {b : Boxes} {Q : State × Turns → Act → Prop} {p : State × Turns} (w : Worker)
    (h : ReachedWith E (Turns.see w) ⟨0, []⟩ Q m b p) :
    p.2.events ++ (p.1.thread w).pc.left = (List.replicate p.2.begun (turnFrom w.rows)).flatten := by
  refine h.balance Turns.events (Turns.asked w) (fun s => (s.thread w).pc.left) rfl ?_
  intro u a v hu hs
  exact turns_step (basic hu.of_watch) hs w u.2

/-- `sendThread` after its first turn, in the first row of its second. -/
theorem reached_wholeTurns_second : ∃ p : State × Turns,
    ReachedWith spdEnv (Turns.see .sendThread) ⟨0, []⟩ Lts.anyStep (initMsgs 41) (initMsgs 41).shown p ∧
    (p.2.begun = 2 ∧ (p.1.thread .sendThread).pc.left = turnFrom [1, 2, 3, 4]) ∧
    p.2.events ++ (p.1.thread .sendThread).pc.left =
      (List.replicate p.2.begun (turnFrom Worker.sendThread.rows)).flatten := by
  obtain ⟨p, hp, hF⟩ := exists_reachedWith (Turns.see .sendThread) ⟨0, []⟩
    (fun p => p.2.begun = 2 ∧ (p.1.thread .sendThread).pc.left = turnFrom [1, 2, 3, 4])
    (checkClick ++ turn .sendThread ++ [.work .sendThread, .work .sendThread, .answer .sendThread] ++
      toRead .sendThread) (by decide +kernel)
  exact ⟨p, hp, hF, reached_wholeTurns .sendThread hp⟩

end LogMaker
