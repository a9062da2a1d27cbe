import LogMaker.Lib.Lts
import Mathlib.Logic.Function.Basic
/-!
# Torn — two cells written one after the other, and readers that read both

A writer brings a pair: it writes the first cell, later the second, and later still publishes the pair, or gives up
(`abort`; `commits` says that it will not).  Readers hold no lock: each reads the two cells in either order, at any time,
and sends the pair it has read.  `Whole` is a condition on the writes and the reads under which every pair sent is one
that was published (`sent_published`).
-/
namespace Torn

/-- Where the writer is: not writing, or before, between or after its two writes. -/
inductive Phase where
  | rest | first | second | last
  deriving DecidableEq

inductive Act (X Y T : Type) where
  | aim (next : X × Y) (commits : Bool)
  | start
  | writeX
  | writeY
  | publish
  | abort
  | readX (t : T)
  | readY (t : T)
  | send (t : T)

/-- The cells; the pair last published and those before it; the pair the writer brings or will bring next, and whether
it commits to it; what each reader has read; the pairs sent. -/
structure State (X Y T : Type) where
  x : X
  y : Y
  cur : X × Y
  old : List (X × Y)
  next : X × Y
  commits : Bool
  phase : Phase
  held : T → Option X × Option Y
  sent : List (X × Y)

variable {X Y T : Type} {s s' : State X Y T} {a : Act X Y T} {t : T} {p : X × Y}

def step [DecidableEq T] (s : State X Y T) : Act X Y T → Option (State X Y T)
  | .aim next commits => match s.phase with
    | .rest => some { s with next := next, commits := commits }
    | _ => none
  | .start => match s.phase with
    | .rest => some { s with phase := .first }
    | _ => none
  | .writeX => match s.phase with
    | .first => some { s with x := s.next.1, phase := .second }
    | _ => none
  | .writeY => match s.phase with
    | .second => some { s with y := s.next.2, phase := .last }
    | _ => none
  | .publish => match s.phase with
    | .last => some { s with cur := (s.x, s.y), old := s.cur :: s.old, phase := .rest }
    | _ => none
  | .abort => if s.commits = false then some { s with phase := .rest } else none
  | .readX t => match s.held t with
    | (none, y) => some { s with held := Function.update s.held t (some s.x, y) }
    | _ => none
  | .readY t => match s.held t with
    | (x, none) => some { s with held := Function.update s.held t (x, some s.y) }
    | _ => none
  | .send t => match s.held t with
    | (some x, some y) => some { s with held := Function.update s.held t (none, none), sent := s.sent ++ [(x, y)] }
    | _ => none

section Steps

variable [DecidableEq T]

theorem step_aim (h : s.phase = .rest) (next : X × Y) (commits : Bool) :
    step s (.aim next commits) = some { s with next := next, commits := commits } := by simp [step, h]

theorem step_start (h : s.phase = .rest) : step s .start = some { s with phase := .first } := by simp [step, h]

theorem step_writeX (h : s.phase = .first) : step s .writeX = some { s with x := s.next.1, phase := .second } := by
  simp [step, h]

theorem step_writeY (h : s.phase = .second) : step s .writeY = some { s with y := s.next.2, phase := .last } := by
  simp [step, h]

theorem step_publish (h : s.phase = .last) :
    step s .publish = some { s with cur := (s.x, s.y), old := s.cur :: s.old, phase := .rest } := by simp [step, h]

theorem step_abort (h : s.commits = false) : step s .abort = some { s with phase := .rest } := by simp [step, h]

theorem step_readX {y : Option Y} (h : s.held t = (none, y)) :
    step s (.readX t) = some { s with held := Function.update s.held t (some s.x, y) } := by simp [step, h]

theorem step_readY {x : Option X} (h : s.held t = (x, none)) :
    step s (.readY t) = some { s with held := Function.update s.held t (x, some s.y) } := by simp [step, h]

theorem step_send {x : X} {y : Y} (h : s.held t = (some x, some y)) : step s (.send t) =
    some { s with held := Function.update s.held t (none, none), sent := s.sent ++ [(x, y)] } := by simp [step, h]

end Steps

/-- A write that changes a cell is one of a pair that will be published, and finds no reader that has read only the
other cell, but for one that read there what this pair brings.  While the first cell is no more the published one and
the second not yet what the writer brings, a reader reads the second only if it has read the first before. -/
def Whole (s : State X Y T) : Act X Y T → Prop
  | .writeX => s.next.1 ≠ s.x → s.commits = true ∧ ∀ t y, s.held t = (none, some y) → y = s.next.2
  | .writeY => s.next.2 ≠ s.y → s.commits = true ∧ ∀ t x, s.held t = (some x, none) → x = s.next.1
  | .readY t => s.x ≠ s.cur.1 → s.y ≠ s.next.2 → ∃ x, (s.held t).1 = some x ∧ x ≠ s.x
  | _ => True

/-- A pair that has been published, or that the writer is about to publish. -/
def Told (s : State X Y T) (p : X × Y) : Prop :=
  p ∈ s.cur :: s.old ∨ s.phase ≠ .rest ∧ s.commits = true ∧ p = s.next

/-- What the cells hold at each phase of the writer. -/
def Cells (s : State X Y T) : Prop := match s.phase with
  | .rest | .first => s.x = s.cur.1 ∧ s.y = s.cur.2
  | .second => s.x = s.next.1 ∧ s.y = s.cur.2 ∧ (s.x = s.cur.1 ∨ s.commits = true)
  | .last => s.x = s.next.1 ∧ s.y = s.next.2 ∧ (s.x = s.cur.1 ∧ s.y = s.cur.2 ∨ s.commits = true)

/-- What a reader has read fits the cell it has still to read: now, or, between the two writes, after the second. -/
def Fits (s : State X Y T) : Option X × Option Y → Prop
  | (none, none) => True
  | (some x, none) => Told s (x, s.y) ∨ s.phase = .second ∧ s.commits = true ∧ x = s.x
  | (none, some y) => Told s (s.x, y)
  | (some x, some y) => Told s (x, y)

structure Inv (s : State X Y T) : Prop where
  cells : Cells s
  held : ∀ t, Fits s (s.held t)
  sent : ∀ p ∈ s.sent, Told s p

theorem told_cur {x : X} {y : Y} (hx : x = s.cur.1) (hy : y = s.cur.2) : Told s (x, y) := by
  subst hx hy
  exact .inl List.mem_cons_self

theorem told_next {x : X} {y : Y} (hp : s.phase ≠ .rest) (hc : s.commits = true) (hx : x = s.next.1)
    (hy : y = s.next.2) : Told s (x, y) := by
  subst hx hy
  exact .inr ⟨hp, hc, rfl⟩

/-- The two cells together, but between the two writes of a pair that is new in both. -/
theorem told_cells (hi : Inv s) (h : s.x = s.cur.1 ∨ s.y = s.next.2) : Told s (s.x, s.y) := by
  have hc := hi.cells
  unfold Cells at hc
  cases hp : s.phase <;> rw [hp] at hc
  case rest | first => exact told_cur hc.1 hc.2
  case second =>
    obtain ⟨hx, hy, hcom⟩ := hc
    by_cases hcur : s.x = s.cur.1
    · exact told_cur hcur hy
    · exact told_next (by simp [hp]) (hcom.resolve_left hcur) hx (h.resolve_left hcur)
  case last =>
    obtain ⟨hx, hy, hcur | hcom⟩ := hc
    · exact told_cur hcur.1 hcur.2
    · exact told_next (by simp [hp]) hcom hx hy

theorem Fits.mono (hx : s'.x = s.x) (hy : s'.y = s.y) (ht : ∀ p, Told s p → Told s' p)
    (hp : s.phase = .second → s.commits = true → s'.phase = .second ∧ s'.commits = true) :
    ∀ {h : Option X × Option Y}, Fits s h → Fits s' h
  | (none, none), _ => trivial
  | (some x, none), h => by
    rcases h with h | ⟨hph, hc, he⟩
    · exact .inl (by rw [hy]; exact ht _ h)
    · obtain ⟨hph', hc'⟩ := hp hph hc
      exact .inr ⟨hph', hc', he.trans hx.symm⟩
  | (none, some y), h => show Told s' (s'.x, y) by rw [hx]; exact ht _ h
  | (some x, some y), h => ht _ h

/-- A step of the writer that leaves the cells. -/
theorem Inv.writer (hi : Inv s) (hc : Cells s') (hx : s'.x = s.x) (hy : s'.y = s.y) (hh : s'.held = s.held)
    (hs : s'.sent = s.sent) (ht : ∀ p, Told s p → Told s' p)
    (hp : s.phase = .second → s.commits = true → s'.phase = .second ∧ s'.commits = true) : Inv s' where
  cells := hc
  held := fun t => by rw [hh]; exact (hi.held t).mono hx hy ht hp
  sent := fun p hmem => by rw [hs] at hmem; exact ht p (hi.sent p hmem)

theorem Inv.reader [DecidableEq T] (hi : Inv s) (t : T) {h : Option X × Option Y} (hf : Fits s h) :
    Inv { s with held := Function.update s.held t h } where
  cells := hi.cells
  held := (Function.forall_update_iff s.held (fun _ v => Fits s v)).2 ⟨hf, fun u _ => hi.held u⟩
  sent := hi.sent

theorem inv_writeX (hi : Inv s) (hp : s.phase = .first) (hw : Whole s .writeX) :
    Inv { s with x := s.next.1, phase := .second } := by
  have hc : s.x = s.cur.1 ∧ s.y = s.cur.2 := by
    have := hi.cells
    unfold Cells at this
    rwa [hp] at this
  have ht : ∀ p, Told s p → Told { s with x := s.next.1, phase := .second } p := by
    rintro p (h | ⟨-, hcom, rfl⟩)
    · exact .inl h
    · exact .inr ⟨by simp, hcom, rfl⟩
  refine ⟨⟨rfl, hc.2, ?_⟩, fun t => ?_, fun p hmem => ht p (hi.sent p hmem)⟩
  · by_cases hx : s.next.1 = s.x
    · exact .inl (hx.trans hc.1)
    · exact .inr (hw hx).1
  · have hfit := hi.held t
    show Fits _ (s.held t)
    rcases hh : s.held t with ⟨_ | x, _ | y⟩ <;> rw [hh] at hfit
    · trivial
    · by_cases hx : s.next.1 = s.x
      · show Told _ (s.next.1, y)
        rw [hx]
        exact ht _ hfit
      · obtain ⟨hcom, hread⟩ := hw hx
        exact told_next (by simp) hcom rfl (hread t y hh)
    · rcases hfit with hfit | ⟨hsec, -⟩
      · exact .inl (ht _ hfit)
      · rw [hp] at hsec
        cases hsec
    · exact ht _ hfit

theorem inv_writeY (hi : Inv s) (hp : s.phase = .second) (hw : Whole s .writeY) :
    Inv { s with y := s.next.2, phase := .last } := by
  have hc : s.x = s.next.1 ∧ s.y = s.cur.2 ∧ (s.x = s.cur.1 ∨ s.commits = true) := by
    have := hi.cells
    unfold Cells at this
    rwa [hp] at this
  have ht : ∀ p, Told s p → Told { s with y := s.next.2, phase := .last } p := by
    rintro p (h | ⟨-, hcom, rfl⟩)
    · exact .inl h
    · exact .inr ⟨by simp, hcom, rfl⟩
  refine ⟨⟨hc.1, rfl, ?_⟩, fun t => ?_, fun p hmem => ht p (hi.sent p hmem)⟩
  · by_cases hy : s.next.2 = s.y
    · exact hc.2.2.imp (fun hx => ⟨hx, hy.trans hc.2.1⟩) id
    · exact .inr (hw hy).1
  · have hfit := hi.held t
    show Fits _ (s.held t)
    rcases hh : s.held t with ⟨_ | x, _ | y⟩ <;> rw [hh] at hfit
    · trivial
    · exact ht _ hfit
    · left
      by_cases hy : s.next.2 = s.y
      · rcases hfit with hfit | ⟨-, hcom, rfl⟩
        · show Told _ (x, s.next.2)
          rw [hy]
          exact ht _ hfit
        · exact told_next (by simp) hcom hc.1 rfl
      · obtain ⟨hcom, hread⟩ := hw hy
        exact told_next (by simp) hcom (hread t x hh) rfl
    · exact ht _ hfit

theorem inv_readX (hi : Inv s) {y : Option Y} (hh : s.held t = (none, y)) : Fits s (some s.x, y) := by
  have hfit := hi.held t
  rw [hh] at hfit
  cases y with
  | some y => exact hfit
  | none =>
    by_cases h : s.x = s.cur.1 ∨ s.y = s.next.2
    · exact .inl (told_cells hi h)
    · -- between the two writes: this reader has still to read the second
      obtain ⟨hx, hy⟩ := not_or.1 h
      have hc := hi.cells
      unfold Cells at hc
      cases hp : s.phase <;> rw [hp] at hc
      case rest | first => exact absurd hc.1 hx
      case second => exact .inr ⟨hp, hc.2.2.resolve_left hx, rfl⟩
      case last => exact absurd hc.2.1 hy

theorem inv_readY (hi : Inv s) {x : Option X} (hh : s.held t = (x, none)) (hw : Whole s (.readY t)) :
    Fits s (x, some s.y) := by
  have hfit := hi.held t
  rw [hh] at hfit
  have hwhole : (s.x = s.cur.1 ∨ s.y = s.next.2) ∨ ∃ x', x = some x' ∧ x' ≠ s.x := by
    by_cases h : s.x = s.cur.1 ∨ s.y = s.next.2
    · exact .inl h
    · obtain ⟨hx, hy⟩ := not_or.1 h
      have := hw hx hy
      rw [hh] at this
      exact .inr this
  cases x with
  | none => exact told_cells hi (hwhole.resolve_right (fun ⟨_, h, _⟩ => by cases h))
  | some x =>
    rcases hfit with hfit | ⟨-, -, rfl⟩
    · exact hfit
    · exact told_cells hi (hwhole.resolve_right (fun ⟨_, h, hne⟩ => hne (Option.some.inj h).symm))

/-- **A step that is whole keeps what is read fitting.** -/
theorem inv_step [DecidableEq T] (hi : Inv s) (hw : Whole s a) (h : step s a = some s') : Inv s' := by
  have hrest : s.phase = .rest → ∀ p, Told s p → p ∈ s.cur :: s.old := fun hp p h => h.resolve_right (fun h => h.1 hp)
  have hcells := hi.cells
  unfold Cells at hcells
  cases a with
  | aim next commits =>
    cases hp : s.phase <;> simp only [step, hp] at h hcells <;> cases h
    refine hi.writer ?_ rfl rfl rfl rfl (fun p hp' => .inl (hrest hp p hp')) (fun h => by rw [hp] at h; cases h)
    unfold Cells
    simpa only [hp] using hcells
  | start =>
    cases hp : s.phase <;> simp only [step, hp] at h hcells <;> cases h
    exact hi.writer hcells rfl rfl rfl rfl (fun p hp' => .inl (hrest hp p hp')) (fun h => by rw [hp] at h; cases h)
  | writeX =>
    cases hp : s.phase <;> simp only [step, hp] at h <;> cases h
    exact inv_writeX hi hp hw
  | writeY =>
    cases hp : s.phase <;> simp only [step, hp] at h <;> cases h
    exact inv_writeY hi hp hw
  | publish =>
    cases hp : s.phase <;> simp only [step, hp] at h hcells <;> cases h
    refine hi.writer ⟨rfl, rfl⟩ rfl rfl rfl rfl (fun p hp' => .inl ?_) (fun h => by rw [hp] at h; cases h)
    rcases hp' with hmem | ⟨-, -, rfl⟩
    · exact List.mem_cons_of_mem _ hmem
    · rw [hcells.1, hcells.2.1]
      exact List.mem_cons_self
  | abort =>
    simp only [step] at h
    split at h
    · rename_i hcom
      cases h
      have hno : ∀ {P : Prop}, s.commits = true → P := fun hc => by rw [hcom] at hc; cases hc
      refine hi.writer ?_ rfl rfl rfl rfl (fun p hp' => .inl (hp'.resolve_right (fun h => hno h.2.1)))
        (fun _ hc => hno hc)
      cases hp : s.phase <;> rw [hp] at hcells
      case rest | first => exact hcells
      case second => exact ⟨hcells.2.2.resolve_right (fun hc => hno hc), hcells.2.1⟩
      case last => exact hcells.2.2.resolve_right (fun hc => hno hc)
    · cases h
  | readX t =>
    simp only [step] at h
    split at h
    · rename_i y hh
      cases h
      exact hi.reader t (inv_readX hi hh)
    · cases h
  | readY t =>
    simp only [step] at h
    split at h
    · rename_i x hh
      cases h
      exact hi.reader t (inv_readY hi hh hw)
    · cases h
  | send t =>
    simp only [step] at h
    split at h
    · rename_i x y hh
      cases h
      have hfit := hi.held t
      rw [hh] at hfit
      refine ⟨hi.cells, (hi.reader t (h := (none, none)) trivial).held, fun p hmem => ?_⟩
      rcases List.mem_append.1 hmem with hmem | hmem
      · exact hi.sent p hmem
      · rw [List.mem_singleton.1 hmem]
        exact hfit
    · cases h

theorem inv [DecidableEq T] {s₀ : State X Y T} (h : Lts.Reach step Whole s₀ s) (hi : Inv s₀) : Inv s :=
  Lts.Reach.inv h hi (fun _ _ _ _ hi hw hs => inv_step hi hw hs)

/-- **No pair sent is torn**: with the writer at rest, each was published. -/
theorem sent_published (hi : Inv s) (hp : s.phase = .rest) (hmem : p ∈ s.sent) : p ∈ s.cur :: s.old :=
  (hi.sent p hmem).resolve_right (fun h => h.1 hp)

theorem x_of_first (hi : Inv s) (hp : s.phase = .first) : s.x = s.cur.1 := by
  have hc := hi.cells
  unfold Cells at hc
  rw [hp] at hc
  exact hc.1

theorem y_of_second (hi : Inv s) (hp : s.phase = .second) : s.y = s.cur.2 := by
  have hc := hi.cells
  unfold Cells at hc
  rw [hp] at hc
  exact hc.2.1

end Torn
