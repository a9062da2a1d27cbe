import LogMaker.Settings
import LogMaker.Lib.Torn
/-!
# Rows — a row as two cells that the exchange writes and the workers read

For each row `tornOf` sees two cells, its level and its text, with the exchange as their writer and the workers as
readers.  Every step is a step of them or none (`torn_step`), and one that keeps the rows whole keeps these whole once a
worker has been created.
-/
namespace LogMaker

def phaseOf (r : Row) (fs : List Field) : Torn.Phase :=
  if .level r ∈ fs then .first else if .msg r ∈ fs then .second else .last

def GuiPc.phase (r : Row) : GuiPc → Torn.Phase
  | .exchange _ fs => phaseOf r fs
  | _ => .rest

def tornOf (E : Env) (r : Row) (p : State × Seen) : Torn.State CString CString Worker where
  x := p.1.members.strLevel r
  y := p.1.members.strMsg r
  cur := p.2.last.row r
  old := p.2.older.map (RowTexts.row · r)
  next := (p.1.boxes.comboLevel r, p.1.boxes.editMsg r)
  commits := decide (CountsValid E p.1.boxes)
  phase := p.1.gui.phase r
  held := fun w => (p.1.thread w).pc.read r
  sent := (p.2.sent.filter (fun x => x.1 = r)).map Prod.snd

/-- The statements that an exchange has still to execute are the last of its thirty-one. -/
def GuiPc.fieldsLeft : GuiPc → Prop
  | .exchange _ fs => fs <:+ fields
  | _ => True

/-- A run of the row's cells in which every step keeps them whole. -/
abbrev RowReach : Torn.State CString CString Worker → Torn.State CString CString Worker → Prop :=
  Lts.Reach Torn.step Torn.Whole

variable {E : Env} {s s' : State} {g : GuiPc} {a : Act} {r : Row} {o : Seen} {p q : State × Seen}

theorem phase_drop : ∀ k < 31, ∀ r : Row,
    ((fields.drop k).head? = some (.level r) →
      phaseOf r (fields.drop k) = .first ∧ phaseOf r (fields.drop (k + 1)) = .second) ∧
    ((fields.drop k).head? = some (.msg r) →
      phaseOf r (fields.drop k) = .second ∧ phaseOf r (fields.drop (k + 1)) = .last) := by
  decide +kernel

theorem drop_of_suffix {f : Field} {fs : List Field} (h : f :: fs <:+ fields) :
    ∃ k < 31, fields.drop k = f :: fs ∧ fields.drop (k + 1) = fs := by
  obtain ⟨pre, hpre⟩ := h
  have hk : fields.drop pre.length = f :: fs := by rw [← hpre, List.drop_left]
  refine ⟨pre.length, ?_, hk, ?_⟩
  · have hlen : pre.length + (fs.length + 1) = 31 := by
      have := congrArg List.length hpre
      rw [List.length_append, List.length_cons] at this
      exact this
    omega
  · rw [← List.tail_drop, hk, List.tail_cons]

theorem phase_level {fs : List Field} (h : .level r :: fs <:+ fields) :
    phaseOf r (.level r :: fs) = .first ∧ phaseOf r fs = .second := by
  obtain ⟨k, hk, hd, hd'⟩ := drop_of_suffix h
  have hph := (phase_drop k hk r).1 (by rw [hd]; rfl)
  rwa [hd, hd'] at hph

theorem phase_msg {fs : List Field} (h : .msg r :: fs <:+ fields) :
    phaseOf r (.msg r :: fs) = .second ∧ phaseOf r fs = .last := by
  obtain ⟨k, hk, hd, hd'⟩ := drop_of_suffix h
  have hph := (phase_drop k hk r).2 (by rw [hd]; rfl)
  rwa [hd, hd'] at hph

theorem phase_other {f : Field} {fs : List Field} (hl : f ≠ .level r) (hm : f ≠ .msg r) :
    phaseOf r (f :: fs) = phaseOf r fs := by
  simp [phaseOf, Ne.symm hl, Ne.symm hm]

theorem fieldsLeft_step (hi : s.gui.fieldsLeft) (h : step E s a = some s') : s'.gui.fieldsLeft := by
  have hfields : fields <:+ fields := List.suffix_refl _
  cases step_move h with
  | click c ha hg hs => subst hs; cases c <;> first | exact hfields | trivial
  | edit b ha hg hs => subst hs; exact hi
  | gui ha h =>
    generalize hg : s.gui = g at hi
    have hmove := guiStep_move h
    rw [hg] at hmove
    cases hmove with
    | field hd f fs m hf => exact (List.suffix_cons f fs).trans hi
    | updated hd | dismissed hd => cases hd <;> trivial
    | send _ _ _ _ _ _ q => cases q <;> trivial
    | start w | suspend w => cases w <;> trivial
    | closeNull c | deleteThread c => cases c <;> first | exact hfields | trivial
    | _ => trivial
  | worker w m pc d ha hr hm hs => subst hs; exact hi

theorem tornOf_same (hm : q.1.members = p.1.members) (hb : q.1.boxes = p.1.boxes)
    (hg : q.1.gui.phase r = p.1.gui.phase r)
    (hr : ∀ w, (q.1.thread w).pc.read r = (p.1.thread w).pc.read r) (ho : q.2 = p.2) :
    tornOf E r q = tornOf E r p := by
  unfold tornOf
  simp only [hm, hb, hg, hr, ho]

/-- A step that leaves the members, the controls, the history, and what the workers have read. -/
theorem reach_same (hm : q.1.members = p.1.members) (hb : q.1.boxes = p.1.boxes)
    (hg : q.1.gui.phase r = p.1.gui.phase r)
    (hr : ∀ w, (q.1.thread w).pc.read r = (p.1.thread w).pc.read r) (ho : q.2 = p.2) :
    RowReach (tornOf E r p) (tornOf E r q) := by
  rw [tornOf_same hm hb hg hr ho]
  exact .refl _

/-! ## A step is one of each row's cells, or none -/

theorem commits_eq_true : (tornOf E r p).commits = true ↔ CountsValid E p.1.boxes := decide_eq_true_iff

theorem phase_tornOf (hg : s.gui = g) : (tornOf E r (s, o)).phase = g.phase r := by rw [← hg]; rfl

/-- The exchange copies the row's level. -/
theorem reach_level {hd : Handler} {fs : List Field} (hg : s.gui = .exchange hd (.level r :: fs))
    (hi : s.gui.fieldsLeft) (hc : s.created) (hw : RowsWhole E (s, o) .gui) :
    RowReach (tornOf E r (s, o)) (tornOf E r ({ s with
      members := { s.members with strLevel := Function.update s.members.strLevel r (s.boxes.comboLevel r) }
      gui := .exchange hd fs }, o)) := by
  rw [hg] at hi
  obtain ⟨hfirst, hsecond⟩ := phase_level hi
  simp only [RowsWhole, hg] at hw
  refine .one .writeX (fun hne => ?_) ((Torn.step_writeX ((phase_tornOf hg).trans hfirst)).trans ?_)
  · obtain ⟨hv, hread⟩ := hw hc hne
    refine ⟨commits_eq_true.2 hv, fun w msg hh => ?_⟩
    have hh' : (s.thread w).pc.read r = (none, some msg) := hh
    exact hread w (by rw [hh']) msg (by rw [hh']; rfl)
  · simp [tornOf, GuiPc.phase, hsecond]

/-- The exchange copies the row's text. -/
theorem reach_msg {hd : Handler} {fs : List Field} (hg : s.gui = .exchange hd (.msg r :: fs))
    (hi : s.gui.fieldsLeft) (hc : s.created) (hw : RowsWhole E (s, o) .gui) :
    RowReach (tornOf E r (s, o)) (tornOf E r ({ s with
      members := { s.members with strMsg := Function.update s.members.strMsg r (s.boxes.editMsg r) }
      gui := .exchange hd fs }, o)) := by
  rw [hg] at hi
  obtain ⟨hsecond, hlast⟩ := phase_msg hi
  simp only [RowsWhole, hg] at hw
  refine .one .writeY (fun hne => ?_) ((Torn.step_writeY ((phase_tornOf hg).trans hsecond)).trans ?_)
  · obtain ⟨hv, hread⟩ := hw hc hne
    refine ⟨commits_eq_true.2 hv, fun w lvl hh => ?_⟩
    have hh' : (s.thread w).pc.read r = (some lvl, none) := hh
    exact hread w (by rw [hh']) lvl (by rw [hh']; rfl)
  · simp [tornOf, GuiPc.phase, hlast]

theorem reach_field {hd : Handler} {f : Field} {fs : List Field} {m : Members} (hg : s.gui = .exchange hd (f :: fs))
    (hi : s.gui.fieldsLeft) (hc : s.created) (hw : RowsWhole E (s, o) .gui)
    (hf : exchangeField E s.boxes s.members f = (m, none)) :
    RowReach (tornOf E r (s, o)) (tornOf E r ({ s with members := m, gui := .exchange hd fs }, o)) := by
  -- another field: the row's two members are as they were
  have hother : f ≠ .level r → f ≠ .msg r → m.strLevel r = s.members.strLevel r → m.strMsg r = s.members.strMsg r →
      RowReach (tornOf E r (s, o))
        (tornOf E r ({ s with members := m, gui := .exchange hd fs }, o)) := by
    intro hfl hfm hl hm
    have hsame : tornOf E r ({ s with members := m, gui := .exchange hd fs }, o) = tornOf E r (s, o) := by
      simp [tornOf, hl, hm, hg, GuiPc.phase, phase_other hfl hfm]
    rw [hsame]
    exact .refl _
  cases f with
  | level k =>
    cases hf
    by_cases hk : k = r
    · subst hk; exact reach_level hg hi hc hw
    · exact hother (by simp [hk]) (by simp) (Function.update_of_ne (Ne.symm hk) ..) rfl
  | msg k =>
    cases hf
    by_cases hk : k = r
    · subst hk; exact reach_msg hg hi hc hw
    · exact hother (by simp) (by simp [hk]) rfl (Function.update_of_ne (Ne.symm hk) ..)
  | devName =>
    cases hf
    exact hother (by simp) (by simp) rfl rfl
  | cnt k =>
    rw [exchangeField_cnt] at hf
    cases congrArg Prod.fst hf
    exact hother (by simp) (by simp) rfl rfl

theorem not_countsValid_of_abort {f : Field} {m : Members} {e : Abort}
    (hf : exchangeField E s.boxes s.members f = (m, some e)) : ¬ CountsValid E s.boxes := by
  intro hv
  have hnone := exchangeField_valid hv s.members f
  rw [hf] at hnone
  cases hnone

/-- An aborted exchange, whose boxes are not all valid. -/
theorem reach_abort {hd : Handler} {f : Field} {fs : List Field} {m : Members} {e : Abort}
    (hg : s.gui = .exchange hd (f :: fs)) (hf : exchangeField E s.boxes s.members f = (m, some e)) :
    RowReach (tornOf E r (s, o)) (tornOf E r ({ s with members := m, gui := .invalid hd }, o)) := by
  have hm : m.strLevel = s.members.strLevel ∧ m.strMsg = s.members.strMsg := by
    cases f with
    | cnt k =>
      rw [exchangeField_cnt] at hf
      cases congrArg Prod.fst hf
      exact ⟨rfl, rfl⟩
    | _ => cases hf
  refine .one .abort trivial ((Torn.step_abort (decide_eq_false (not_countsValid_of_abort hf))).trans ?_)
  simp [tornOf, hm.1, hm.2, GuiPc.phase]

theorem phaseOf_fields : ∀ r : Row, phaseOf r fields = .first := by decide

/-- An exchange begins. -/
theorem reach_start {hd : Handler} (hp : p.1.gui.phase r = .rest) (hq : q.1.gui = .exchange hd fields)
    (hm : q.1.members = p.1.members) (hb : q.1.boxes = p.1.boxes)
    (hr : ∀ w, (q.1.thread w).pc.read r = (p.1.thread w).pc.read r) (ho : q.2 = p.2) :
    RowReach (tornOf E r p) (tornOf E r q) := by
  refine .one .start trivial ((Torn.step_start hp).trans ?_)
  simp only [tornOf, hm, hb, hr, ho, hq, GuiPc.phase, phaseOf_fields]

/-- The start of a worker leaves the row alone. -/
theorem tornOf_start {w : Worker} (hptr : PtrInv s) (hg : s.gui = .start w) :
    tornOf E r ({ s with gui := afterStart w }.setThread w
      (if (s.thread w).ptr then (s.thread w).resume else (s.thread w).begin), o) = tornOf E r (s, o) :=
  tornOf_same rfl rfl (by rw [hg]; cases w <;> rfl) (read_setThread_same (pc_start hptr w (ThreadPc.read r) rfl)) rfl

theorem gui_torn (hg : s.gui = g) (hptr : PtrInv s) (hi : s.gui.fieldsLeft) (hc : s.created)
    (hw : RowsWhole E (s, o) .gui) (h : GuiMove E s g s') :
    RowReach (tornOf E r (s, o)) (tornOf E r (s', Seen.see s .gui o)) := by
  cases h with
  | field hd f fs m hf =>
    rw [see_gui (by simp [hg])]
    exact reach_field hg hi hc hw hf
  | abort hd f fs m e hf =>
    rw [see_gui (by simp [hg])]
    exact reach_abort hg hf
  | updated hd =>
    have hlast : (tornOf E r (s, o)).phase = .last := phase_tornOf hg
    have hsee : Seen.see s .gui o = { o with last := s.members.rowTexts, older := o.last :: o.older } := by
      simp [Seen.see, hg]
    refine .one .publish trivial ((Torn.step_publish hlast).trans ?_)
    rw [hsee]
    cases hd <;> rfl
  | dismissed hd =>
    rw [see_gui (by simp [hg])]
    cases hd <;> exact reach_same rfl rfl (by rw [hg]; rfl) (fun _ => rfl) rfl
  | send lvl msg i nCnt p m q =>
    rw [see_gui (by simp [hg])]
    cases q <;> exact reach_same rfl rfl (by rw [hg]; rfl) (fun _ => rfl) rfl
  | start w =>
    rw [see_gui (by simp [hg])]
    rw [tornOf_start hptr hg]
    exact .refl _
  | suspend w =>
    rw [see_gui (by simp [hg])]
    have hread := congrArg (ThreadPc.read r) (pc_suspend (s.thread w))
    exact reach_same rfl rfl (by rw [hg]; cases w <;> rfl) (read_setThread_same hread) rfl
  | closeNull c =>
    rw [see_gui (by simp [hg])]
    cases c with
    | ok => exact reach_start (by rw [hg]; rfl) rfl rfl rfl (fun _ => rfl) rfl
    | close => exact reach_same rfl rfl (by rw [hg]; rfl) (fun _ => rfl) rfl
  | deleteThread c =>
    rw [see_gui (by simp [hg])]
    cases c with
    | ok => exact reach_start (by rw [hg]; rfl) rfl rfl rfl (read_setThread_same rfl) rfl
    | close => exact reach_same rfl rfl (by rw [hg]; rfl) (read_setThread_same rfl) rfl
  | _ =>
    rw [see_gui (by simp [hg])]
    exact reach_same rfl rfl (by rw [hg]; rfl) (fun _ => rfl) rfl

/-- A worker at its arguments goes on to a position at which it has read this much of row `r`'s. -/
theorem tornOf_setPc {w : Worker} {pc : ThreadPc} {o' : Seen} (hl : o'.last = o.last) (ho : o'.older = o.older) :
    tornOf E r (s.setPc w pc, o') = { tornOf E r (s, o) with
      held := Function.update (tornOf E r (s, o)).held w (pc.read r)
      sent := (tornOf E r (s, o')).sent } := by
  unfold tornOf
  rw [hl, ho]
  simp only [setPc_eq, read_setThread]
  rfl

/-- What is at another row's arguments leaves this row alone. -/
theorem tornOf_setPc_same {w : Worker} {pc : ThreadPc} (h : pc.read r = (s.thread w).pc.read r) :
    tornOf E r (s.setPc w pc, o) = tornOf E r (s, o) :=
  tornOf_same rfl rfl rfl (read_setThread_same h) rfl

theorem held_tornOf {w : Worker} {rest : List Row} {lvl msg : Option CString}
    (hpc : (s.thread w).pc = .args r rest lvl msg) : (tornOf E r (s, o)).held w = (lvl, msg) := by
  show (s.thread w).pc.read r = (lvl, msg)
  rw [hpc, read_args, if_pos rfl]

theorem worker_torn {w : Worker} (ha : a.worker? = some w) (hw : RowsWhole E (s, o) a) (h : ReadMove s a w s') :
    RowReach (tornOf E r (s, o)) (tornOf E r (s', Seen.see s a o)) := by
  cases h with
  | level k rest msg hact hpc hs =>
    subst hact hs
    show RowReach _ (tornOf E r (_, o))
    by_cases hk : k = r
    · subst hk
      refine .one (.readX w) trivial ((Torn.step_readX (held_tornOf hpc)).trans ?_)
      rw [tornOf_setPc rfl rfl, read_args, if_pos rfl]
      rfl
    · rw [tornOf_setPc_same (by rw [hpc, read_args, read_args, if_neg hk, if_neg hk])]
      exact .refl _
  | msg k rest lvl hact hpc hs =>
    subst hact hs
    show RowReach _ (tornOf E r (_, o))
    by_cases hk : k = r
    · subst hk
      have hheld : (tornOf E k (s, o)).held w = (lvl, none) := held_tornOf hpc
      simp only [RowsWhole, hpc] at hw
      refine .one (.readY w) (fun hx hy => ?_) ((Torn.step_readY hheld).trans ?_)
      · obtain ⟨l, hl, hne⟩ := hw hx hy
        exact ⟨l, by rw [hheld]; exact hl, hne⟩
      · rw [tornOf_setPc rfl rfl, read_args, if_pos rfl]
        rfl
    · rw [tornOf_setPc_same (by rw [hpc, read_args, read_args, if_neg hk, if_neg hk])]
      exact .refl _
  | call k rest lvl msg hact hpc hs =>
    subst hact hs
    have hsee : Seen.see s (.work w) o = { o with sent := o.sent ++ [(k, lvl, msg)] } := by simp [Seen.see, hpc]
    rw [hsee]
    by_cases hk : k = r
    · subst hk
      refine .one (.send w) trivial ((Torn.step_send (held_tornOf hpc)).trans ?_)
      rw [tornOf_setPc rfl rfl]
      simp [tornOf, ThreadPc.read]
    · have hsame : tornOf E r (s.setPc w (.send rest (.read lvl msg)), { o with sent := o.sent ++ [(k, lvl, msg)] }) =
          tornOf E r (s.setPc w (.send rest (.read lvl msg)), o) := by
        simp [tornOf, hk]
      rw [hsame, tornOf_setPc_same (by rw [hpc, read_args, if_neg hk]; rfl)]
      exact .refl _
  | rest m t hold hnew hs =>
    subst hs
    rw [see_worker ha hold]
    exact reach_same rfl rfl rfl (read_setThread_same ((hnew r).trans (hold r).symm)) rfl

/-- **Every step is a step of each row's cells, or none**, and one that keeps the rows whole keeps these whole. -/
theorem torn_step (hptr : PtrInv p.1) (hi : p.1.gui.fieldsLeft) (hc : p.1.created) (hw : RowsWhole E p a)
    (h : Lts.watch (step E) Seen.see p a = some q) :
    RowReach (tornOf E r p) (tornOf E r q) := by
  obtain ⟨s, o⟩ := p
  obtain ⟨s', o'⟩ := q
  obtain ⟨hs, ho⟩ := Lts.watch_eq_some.1 h
  obtain rfl : o' = Seen.see s a o := ho
  have hstep : step E s a = some s' := hs
  cases step_move hstep with
  | click c hact hg hs' =>
    subst hact hs'
    have hrest : s.gui.phase r = .rest := by rw [hg]; rfl
    cases c with
    | send k | check => exact reach_start hrest rfl rfl rfl (fun _ => rfl) rfl
    | _ => exact reach_same rfl rfl hrest.symm (fun _ => rfl) rfl
  | edit b hact hg hs' =>
    subst hact hs'
    exact .one (.aim (b.comboLevel r, b.editMsg r) (decide (CountsValid E b))) trivial
      (Torn.step_aim (by rw [phase_tornOf hg]; rfl) ..)
  | gui hact hgui =>
    subst hact
    exact gui_torn rfl hptr hi hc hw (guiStep_move hgui)
  | worker w m pc d ha hr hm hs' => exact worker_torn ha hw (step_read ha hstep)

end LogMaker
