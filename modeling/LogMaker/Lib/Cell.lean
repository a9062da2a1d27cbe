import LogMaker.Lib.Lts
/-!
# Cell — a shared cell that writers copy, change and write back under a lock

A writer takes the lock for one update (`take`); it then copies the cell, changes its copy, writes the copy back and
releases the lock, each a step of its own.  `log` lists the updates in the order the lock was taken for them, and
`phase` is where its holder is.  The cell is then always the start with the updates of `applied` made one after another
(`cell_eq`): all those logged, but for the holder's while it has not written it back.
-/
namespace Cell

variable {X L : Type}

/-- Where the holder of the lock is: with its update to make, with a copy of the cell, with the copy changed, or with
the cell written. -/
inductive Phase (X L : Type) where
  | free
  | taken (l : L)
  | copied (l : L) (x : X)
  | changed (x : X)
  | written

inductive Act (L : Type) where
  | take (l : L)
  | copy
  | change
  | write
  | release

structure State (X L : Type) where
  cell : X
  log : List L
  phase : Phase X L

variable {upd : L → X → X} {x₀ : X} {s s' : State X L}

def step (upd : L → X → X) (s : State X L) : Act L → Option (State X L)
  | .take l => match s.phase with
    | .free => some { s with log := s.log ++ [l], phase := .taken l }
    | _ => none
  | .copy => match s.phase with
    | .taken l => some { s with phase := .copied l s.cell }
    | _ => none
  | .change => match s.phase with
    | .copied l x => some { s with phase := .changed (upd l x) }
    | _ => none
  | .write => match s.phase with
    | .changed x => some { s with cell := x, phase := .written }
    | _ => none
  | .release => match s.phase with
    | .written => some { s with phase := .free }
    | _ => none

theorem step_take (h : s.phase = .free) (l : L) :
    step upd s (.take l) = some { s with log := s.log ++ [l], phase := .taken l } := by simp [step, h]

theorem step_copy {l : L} (h : s.phase = .taken l) :
    step upd s .copy = some { s with phase := .copied l s.cell } := by simp [step, h]

theorem step_change {l : L} {x : X} (h : s.phase = .copied l x) :
    step upd s .change = some { s with phase := .changed (upd l x) } := by simp [step, h]

theorem step_write {x : X} (h : s.phase = .changed x) :
    step upd s .write = some { s with cell := x, phase := .written } := by simp [step, h]

theorem step_release (h : s.phase = .written) : step upd s .release = some { s with phase := .free } := by
  simp [step, h]

/-- The updates made one after another. -/
def updates (upd : L → X → X) (x₀ : X) (ls : List L) : X := ls.foldl (fun x l => upd l x) x₀

theorem updates_snoc (ls : List L) (l : L) : updates upd x₀ (ls ++ [l]) = upd l (updates upd x₀ ls) := by
  simp [updates]

/-- The updates that the cell has. -/
def State.applied (s : State X L) : List L := match s.phase with
  | .free | .written => s.log
  | .taken _ | .copied _ _ | .changed _ => s.log.dropLast

/-- What holds at each phase: the holder's update is the last one logged, and its copy is the cell's. -/
def Inv (upd : L → X → X) (x₀ : X) (s : State X L) : Prop := match s.phase with
  | .free | .written => s.cell = updates upd x₀ s.log
  | .taken l => ∃ ls, s.log = ls ++ [l] ∧ s.cell = updates upd x₀ ls
  | .copied l x => ∃ ls, s.log = ls ++ [l] ∧ s.cell = updates upd x₀ ls ∧ x = s.cell
  | .changed x => ∃ ls l, s.log = ls ++ [l] ∧ s.cell = updates upd x₀ ls ∧ x = upd l s.cell

theorem inv_step {a : Act L} (hi : Inv upd x₀ s) (h : step upd s a = some s') : Inv upd x₀ s' := by
  unfold Inv at hi
  cases a with
  | take l =>
    cases hp : s.phase <;> simp only [step, hp] at h hi <;> cases h
    exact ⟨s.log, rfl, hi⟩
  | copy =>
    cases hp : s.phase <;> simp only [step, hp] at h hi <;> cases h
    obtain ⟨ls, hlog, hcell⟩ := hi
    exact ⟨ls, hlog, hcell, rfl⟩
  | change =>
    cases hp : s.phase <;> simp only [step, hp] at h hi <;> cases h
    obtain ⟨ls, hlog, hcell, rfl⟩ := hi
    exact ⟨ls, _, hlog, hcell, rfl⟩
  | write =>
    cases hp : s.phase <;> simp only [step, hp] at h hi <;> cases h
    obtain ⟨ls, l, hlog, hcell, rfl⟩ := hi
    show upd l s.cell = updates upd x₀ s.log
    rw [hlog, updates_snoc, hcell]
  | release =>
    cases hp : s.phase <;> simp only [step, hp] at h hi <;> cases h
    exact hi

/-- **No update is lost, and none is made twice.** -/
theorem cell_eq (h : Lts.Reach (step upd) Lts.anyStep { cell := x₀, log := [], phase := .free } s) :
    s.cell = updates upd x₀ s.applied := by
  have hi : Inv upd x₀ s := h.inv (by simp [Inv, updates]) (fun _ _ _ _ hi _ hs => inv_step hi hs)
  unfold Inv at hi
  unfold State.applied
  cases hp : s.phase <;> rw [hp] at hi
  case free | written => exact hi
  case taken => obtain ⟨ls, hlog, hcell⟩ := hi; simp [hlog, hcell]
  case copied => obtain ⟨ls, hlog, hcell, -⟩ := hi; simp [hlog, hcell]
  case changed => obtain ⟨ls, l, hlog, hcell, -⟩ := hi; simp [hlog, hcell]

end Cell
