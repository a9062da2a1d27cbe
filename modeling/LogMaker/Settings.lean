import LogMaker.Exchange
import LogMaker.Life
/-!
# Settings — the settings a run has shown, and those the workers sent

`DoDataExchange` stores the ten levels, then the ten texts, and the workers read a row's level and its text between any
two of these statements.  `Seen` is a history of it: the settings that were exchanged, and the levels and texts the
workers called `sendLogMsg1` with.  `Unmixed` says that these are of one setting each, and `RowsWhole` is the condition
on the steps under which they are.
-/
namespace LogMaker

/-- A setting: the level and the text of every row. -/
structure RowTexts where
  level : Row → CString
  msg : Row → CString

def RowTexts.row (σ : RowTexts) (r : Row) : CString × CString := (σ.level r, σ.msg r)

def Members.rowTexts (m : Members) : RowTexts := ⟨m.strLevel, m.strMsg⟩

/-- What a run has shown: the setting of the last completed exchange, those before it, and the rows the workers sent,
each with the level and the text it was sent with. -/
structure Seen where
  last : RowTexts
  older : List RowTexts
  sent : List (Row × CString × CString)

/-- What a step shows: an `UpdateData` returns with every field exchanged, or a worker calls `sendLogMsg1`. -/
def Seen.see (s : State) (a : Act) (o : Seen) : Seen := match a with
  | .gui => match s.gui with
    | .exchange _ [] => { o with last := s.members.rowTexts, older := o.last :: o.older }
    | _ => o
  | .work w => match (s.thread w).pc with
    | .args r _ (some lvl) (some msg) => { o with sent := o.sent ++ [(r, lvl, msg)] }
    | _ => o
  | _ => o

/-- The dialog at its start, with its members' initial setting. -/
def watched (m : Members) (b : Boxes) : State × Seen := (State.init m b, { last := m.rowTexts, older := [], sent := [] })

/-- Reached, with its history, from the dialog's start by steps that all meet the guard. -/
abbrev ReachedSeen (E : Env) (Q : State × Seen → Act → Prop) (m : Members) (b : Boxes) (p : State × Seen) : Prop :=
  Lts.Reach (Lts.watch (step E) Seen.see) Q (watched m b) p

def GuiPc.exchanging : GuiPc → Bool
  | .exchange _ _ => true
  | _ => false

/-- **No two settings are mixed**: with no exchange in progress, the level and the text of every message a worker has
sent were its row's in one completed exchange, or initially. -/
def Unmixed (p : State × Seen) : Prop :=
  p.1.gui.exchanging = false → ∀ x ∈ p.2.sent, ∃ σ ∈ p.2.last :: p.2.older, σ.row x.1 = x.2

/-- What a worker has read of the arguments of a send of row `r`. -/
def ThreadPc.read (r : Row) : ThreadPc → Option CString × Option CString
  | .args k _ lvl msg => if k = r then (lvl, msg) else (none, none)
  | _ => (none, none)

/-- `AfxBeginThread` has created a worker. -/
def State.created (s : State) : Prop := ∃ w, (s.thread w).ptr = true

instance (s : State) : Decidable s.created := inferInstanceAs (Decidable (∃ w, (s.thread w).ptr = true))

/-- The first worker is created with every row's level and text the last exchanged ones.  From then on a copy of the
exchange that changes a row's level or text is made with the count boxes valid, and finds no worker that has read only
the row's other member, but for one that read there what the exchange brings.  And while a row's level is not the last
exchanged one and its text not yet the box's, a worker reads that text only having read another level than the one
there. -/
def RowsWhole (E : Env) (p : State × Seen) : Act → Prop
  | .gui => match p.1.gui with
    | .start _ => ¬ p.1.created → ∀ r, p.1.members.rowTexts.row r = p.2.last.row r
    | .exchange _ (.level r :: _) => p.1.created → p.1.boxes.comboLevel r ≠ p.1.members.strLevel r →
      CountsValid E p.1.boxes ∧
      ∀ w, ((p.1.thread w).pc.read r).1 = none → ∀ msg ∈ ((p.1.thread w).pc.read r).2, msg = p.1.boxes.editMsg r
    | .exchange _ (.msg r :: _) => p.1.created → p.1.boxes.editMsg r ≠ p.1.members.strMsg r →
      CountsValid E p.1.boxes ∧
      ∀ w, ((p.1.thread w).pc.read r).2 = none → ∀ lvl ∈ ((p.1.thread w).pc.read r).1, lvl = p.1.boxes.comboLevel r
    | _ => True
  | .argMsg w => match (p.1.thread w).pc with
    | .args r _ lvl _ => p.1.members.strLevel r ≠ p.2.last.level r → p.1.members.strMsg r ≠ p.1.boxes.editMsg r →
      ∃ l ∈ lvl, l ≠ p.1.members.strLevel r
    | _ => True
  | _ => True

instance (E : Env) (p : State × Seen) (a : Act) : Decidable (RowsWhole E p a) := by
  unfold RowsWhole
  split
  · split <;> infer_instance
  · split <;> infer_instance
  · infer_instance

instance (p : State × Seen) : Decidable (Unmixed p) := by unfold Unmixed; infer_instance

variable {E : Env} {s s' : State} {a : Act} {r : Row} {o : Seen}

/-! ## The workers' creation -/

theorem ptr_of_not_created (hn : ¬ s.created) (w : Worker) : (s.thread w).ptr = false := by
  simpa [State.created] using not_exists.1 hn w

theorem created_step (hb : Basic s) (hc : s.created) (h : step E s a = some s') : s'.created := by
  obtain ⟨w, hw⟩ := hc
  refine ⟨w, forall_thread_step (R := fun v t => v = w → t.ptr = true) hb.sided h (fun v hv => by rw [hv]; exact hw)
    (fun v pc d _ _ hv => by rw [hv]; exact hw) (fun v _ hp _ => by rw [resume_ptr]; exact hp) (fun v _ _ _ => rfl)
    (fun v _ hp _ => by rw [suspend_ptr]; exact hp) (fun c _ _ hv => by rw [hv]; exact hw) w rfl⟩

/-- Only a start creates the first worker. -/
theorem start_of_created (hb : Basic s) (hn : ¬ s.created) (h : step E s a = some s') (hc : s'.created) :
    a = .gui ∧ ∃ w, s.gui = .start w := by
  obtain ⟨w, hw⟩ := hc
  have hptr := ptr_of_not_created hn
  have hset : ∀ (v : Worker) (t : Thread), s'.thread = Function.update s.thread v t → t.ptr ≠ false := by
    intro v t ht hf
    have hall : ∀ x, (Function.update s.thread v t x).ptr = false :=
      (Function.forall_update_iff s.thread (fun _ t => t.ptr = false)).2 ⟨hf, fun x _ => hptr x⟩
    rw [ht, hall w] at hw
    cases hw
  cases step_life hb.sided h with
  | start v ha hg hs => exact ⟨ha, v, hg⟩
  | worker v m pc d ha hr hm hs =>
    exact absurd (hptr v) (hset v { s.thread v with pc := pc, deletes := d } (by rw [hs]; rfl))
  | suspend v ha hg hs => exact absurd (hptr v) (hset v (s.thread v) (by rw [hs, hptr v]; rfl))
  | delete c ha hg hs =>
    exact absurd (hptr .sendThread) (hset .sendThread (s.thread .sendThread).delete (by rw [hs]; rfl))
  | setFlag ha hg hs | clearFlag ha hg hs =>
    rw [hs] at hw
    exact absurd hw (by simp [hptr w])
  | rest ha ht =>
    rw [ht, hptr w] at hw
    cases hw

/-! ## The workers' reads -/

/-- What a step of a worker, or an answer to it, does to its arguments. -/
inductive ReadMove (s : State) (a : Act) (w : Worker) (s' : State) : Prop where
  | level (k : Row) (rest : List Row) (msg : Option CString) (ha : a = .argLevel w)
      (hpc : (s.thread w).pc = .args k rest none msg)
      (hs : s' = s.setPc w (.args k rest (some (s.members.strLevel k)) msg))
  | msg (k : Row) (rest : List Row) (lvl : Option CString) (ha : a = .argMsg w)
      (hpc : (s.thread w).pc = .args k rest lvl none)
      (hs : s' = s.setPc w (.args k rest lvl (some (s.members.strMsg k))))
  | call (k : Row) (rest : List Row) (lvl msg : CString) (ha : a = .work w)
      (hpc : (s.thread w).pc = .args k rest (some lvl) (some msg)) (hs : s' = s.setPc w (.send rest (.read lvl msg)))
  | rest (m : Mem) (t : Thread) (hold : ∀ r, (s.thread w).pc.read r = (none, none))
      (hnew : ∀ r, t.pc.read r = (none, none)) (hs : s' = { s with mem := m }.setThread w t)

theorem read_nextRow (rest : List Row) (r : Row) : (nextRow rest).read r = (none, none) := by
  cases rest with
  | nil => rfl
  | cons k rest => simp [nextRow, ThreadPc.read]

theorem work_read {w : Worker} (h : WorkMove E s w a s') : ReadMove s a w s' := by
  cases h with
  | argLevel k rest msg hpc => exact .level k rest msg rfl hpc rfl
  | argMsg k rest lvl hpc => exact .msg k rest lvl rfl hpc rfl
  | call k rest lvl msg hpc => exact .call k rest lvl msg rfl hpc rfl
  | test hpc =>
    refine .rest s.mem _ (fun r => by rw [hpc]; rfl) (fun r => ?_) rfl
    show ThreadPc.read r (if s.bSendRep then nextRow w.rows else .ret) = (none, none)
    split
    · exact read_nextRow ..
    · rfl
  | sent rest p m hpc hs => exact .rest m _ (fun r => by rw [hpc]; rfl) (fun r => read_nextRow ..) rfl
  | send rest p p' m hpc hs => exact .rest m _ (fun r => by rw [hpc]; rfl) (fun r => rfl) rfl
  | format hpc | setCnt str hpc | ret hpc => exact .rest s.mem _ (fun r => by rw [hpc]; rfl) (fun r => rfl) rfl

theorem answer_read {w : Worker} (h : AnswerMove s w s') : ReadMove s (.answer w) w s' := by
  cases h with
  | send rest p p' m hpc hs => exact .rest m _ (fun r => by rw [hpc]; rfl) (fun r => rfl) rfl
  | waitCnt str hpc => exact .rest _ _ (fun r => by rw [hpc]; rfl) (fun r => rfl) rfl

theorem worker_of_work {w v : Worker} (h : WorkMove E s v a s') (ha : a.worker? = some w) : v = w := by
  cases h <;> exact Option.some.inj ha

theorem step_read {w : Worker} (ha : a.worker? = some w) (h : step E s a = some s') : ReadMove s a w s' := by
  cases step_cases h with
  | click c hg | edit b hg | gui h => cases ha
  | work v hr h =>
    obtain rfl := worker_of_work h ha
    exact work_read h
  | answer v hg h =>
    cases ha
    exact answer_read h

theorem read_args (k : Row) (rest : List Row) (lvl msg : Option CString) :
    (ThreadPc.args k rest lvl msg).read r = if k = r then (lvl, msg) else (none, none) := rfl

theorem read_setThread (w : Worker) (t : Thread) :
    (fun v => ((s.setThread w t).thread v).pc.read r) =
      Function.update (fun v => (s.thread v).pc.read r) w (t.pc.read r) := by
  funext v
  by_cases hv : v = w
  · subst hv; simp
  · simp [hv]

theorem read_setThread_same {w : Worker} {t : Thread} (h : t.pc.read r = (s.thread w).pc.read r) (v : Worker) :
    ((s.setThread w t).thread v).pc.read r = (s.thread v).pc.read r := by
  by_cases hv : v = w
  · subst hv; simpa using h
  · simp [hv]

/-- Nothing is sent while no worker has been created. -/
theorem sent_see (hptr : PtrInv s) (hn : ¬ s.created) : (Seen.see s a o).sent = o.sent := by
  cases a with
  | gui => simp only [Seen.see]; split <;> rfl
  | work w => simp [Seen.see, hptr w (ptr_of_not_created hn w)]
  | _ => rfl

theorem see_gui (h : ∀ hd, s.gui ≠ .exchange hd []) : Seen.see s .gui o = o := by
  simp [Seen.see]

theorem see_worker {w : Worker} (ha : a.worker? = some w) (h : ∀ r, (s.thread w).pc.read r = (none, none)) :
    Seen.see s a o = o := by
  cases a with
  | gui => cases ha
  | work v =>
    cases ha
    simp only [Seen.see]
    split
    · rename_i k rest lvl msg hpc
      have hk := h k
      rw [hpc, read_args, if_pos rfl] at hk
      cases hk
    · rfl
  | _ => rfl

end LogMaker
