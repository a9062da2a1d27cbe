import LogMaker.Rows
/-!
# Mixed — a worker's messages, each of one setting of its row

While the rows are kept whole every message of a worker has a level and a text that were its row's in one completed
exchange (`reached_unmixed`); a step against it may mix two (`mixes_of_not_rowsWhole`).
-/
namespace LogMaker

variable {E : Env} {s s' : State} {a : Act} {r : Row} {o : Seen} {p q : State × Seen}

/-! ## The settings sent -/

theorem basic_watched {Q : State × Seen → Act → Prop} {m : Members} {b : Boxes}
    (h : ReachedSeen E Q m b p) : Basic p.1 ∧ p.1.gui.fieldsLeft := by
  have hreach : Reached E Lts.anyStep m b p.1 := h.of_watch
  exact ⟨basic hreach, hreach.inv trivial (fun _ _ _ _ hi _ hs => fieldsLeft_step hi hs)⟩

theorem sent_eq_nil {Q : State × Seen → Act → Prop} {m : Members} {b : Boxes} (h : ReachedSeen E Q m b p)
    (hn : ¬ p.1.created) : p.2.sent = [] := by
  refine h.inv (I := fun p => ¬ p.1.created → p.2.sent = []) (fun _ => rfl) (fun u a v hu hi _ hs hv => ?_) hn
  obtain ⟨hstep, hsee⟩ := Lts.watch_eq_some.1 hs
  have hb := (basic_watched hu).1
  have hnu : ¬ u.1.created := fun hc => hv (created_step hb hc hstep)
  rw [hsee, sent_see hb.ptrInv hnu]
  exact hi hnu

/-- The first worker finds each row as it was last exchanged. -/
theorem inv_start {w : Worker} (hptr : PtrInv p.1) (hn : ¬ p.1.created) (hsent : p.2.sent = [])
    (hg : p.1.gui = .start w) (hw : RowsWhole E p .gui) (r : Row) : Torn.Inv (tornOf E r p) where
  cells := by
    have hrow : p.1.members.rowTexts.row r = p.2.last.row r := by
      simp only [RowsWhole, hg] at hw
      exact hw hn r
    have hrest : (tornOf E r p).phase = .rest := by
      show p.1.gui.phase r = .rest
      rw [hg]
      rfl
    unfold Torn.Cells
    rw [hrest]
    exact ⟨congrArg Prod.fst hrow, congrArg Prod.snd hrow⟩
  held := fun v => by
    have hread : (tornOf E r p).held v = (none, none) := by
      show (p.1.thread v).pc.read r = (none, none)
      rw [hptr v (ptr_of_not_created hn v)]
      rfl
    rw [hread]
    trivial
  sent := fun x hx => by
    simp [tornOf, hsent] at hx

theorem tornOf_started {w : Worker} (hptr : PtrInv s) (hg : s.gui = .start w) (h : guiStep E s = some s') :
    tornOf E r (s', Seen.see s .gui o) = tornOf E r (s, o) := by
  simp only [guiStep, hg, Option.some.injEq] at h
  subst h
  rw [see_gui (by simp [hg])]
  exact tornOf_start hptr hg

/-- **From the creation of the first worker on**, what is read of each row fits the exchanges. -/
theorem torn {m : Members} {b : Boxes} (h : ReachedSeen E (RowsWhole E) m b p) (hc : p.1.created) (r : Row) :
    Torn.Inv (tornOf E r p) := by
  refine h.inv (I := fun p => p.1.created → Torn.Inv (tornOf E r p)) (fun hc => ?_) (fun u a v hu hi hw hs hv => ?_) hc
  · obtain ⟨w, hw⟩ := hc
    cases hw
  · obtain ⟨hb, hleft⟩ := basic_watched hu
    by_cases hcu : u.1.created
    · exact Torn.inv (torn_step hb.ptrInv hleft hcu hw hs) (hi hcu)
    · obtain ⟨hstep, hsee⟩ := Lts.watch_eq_some.1 hs
      obtain ⟨rfl, w, hg⟩ := start_of_created hb hcu hstep hv
      have hsame : tornOf E r v = tornOf E r u := by
        rw [← tornOf_started (o := u.2) hb.ptrInv hg hstep, ← hsee]
      rw [hsame]
      exact inv_start hb.ptrInv hcu (sent_eq_nil hu hcu) hg hw r

/-- **While the rows are kept whole no two settings are mixed.** -/
theorem reached_unmixed {m : Members} {b : Boxes}
    (h : ReachedSeen E (RowsWhole E) m b p) : Unmixed p := by
  intro hg x hx
  have hc : p.1.created := by
    by_contra hn
    rw [sent_eq_nil h hn] at hx
    cases hx
  have hrest : (tornOf E x.1 p).phase = .rest := by
    show p.1.gui.phase x.1 = .rest
    cases hp : p.1.gui with
    | exchange hd fs => rw [hp] at hg; cases hg
    | _ => rfl
  have hsent : x.2 ∈ (tornOf E x.1 p).sent :=
    List.mem_map.2 ⟨x, List.mem_filter.2 ⟨hx, by simp⟩, rfl⟩
  rcases List.mem_cons.1 (Torn.sent_published (torn h hc x.1) hrest hsent) with hcur | hold
  · exact ⟨p.2.last, List.mem_cons_self, hcur.symm⟩
  · obtain ⟨σ, hσ, hrow⟩ := List.mem_map.1 hold
    exact ⟨σ, List.mem_cons_of_mem _ hσ, hrow⟩

/-- The controls showing these members, but for another level and another text in one row. -/
def editedBoxes (m : Members) (r : Row) : Boxes := { m.shown with
  comboLevel := Function.update m.shown.comboLevel r "Critical".toList
  editMsg := Function.update m.shown.editMsg r "new".toList }

/-- Members with short texts. -/
def shortMsgs : Members := { initMsgs 41 with strMsg := fun _ => "text".toList }

/-- A worker has sent the first row when the second is edited; it reads the second row's level and text during the
exchange of a Send click, each when it has been exchanged. -/
theorem reached_unmixed_edited : ∃ p, ReachedSeen spdEnv (RowsWhole spdEnv) shortMsgs shortMsgs.shown p ∧
    p.2.sent = [(0, shortMsgs.rowTexts.row 0), (1, "Critical".toList, "new".toList)] ∧ Unmixed p := by
  obtain ⟨p, hp, hsent⟩ := Lts.exists_steps_of_runIf (Lts.watch (step spdEnv) Seen.see) (RowsWhole spdEnv)
    (fun p => p.2.sent = [(0, shortMsgs.rowTexts.row 0), (1, "Critical".toList, "new".toList)])
    (watched shortMsgs shortMsgs.shown)
    (checkClick ++ toRead .sendThread ++ throughSinks .sendThread ++
      [.work .sendThread, .edit (editedBoxes shortMsgs 1), .click (.send 0), .gui, .gui, .argLevel .sendThread] ++
      List.replicate 11 .gui ++ [.argMsg .sendThread, .work .sendThread] ++ List.replicate 19 .gui)
    (by decide +kernel)
  exact ⟨p, ⟨_, hp⟩, hsent, reached_unmixed ⟨_, hp⟩⟩

/-- A Send click has exchanged the first row's level and not its text when the worker reads both. -/
theorem not_unmixed_torn : ∃ p, ReachedSeen spdEnv Lts.anyStep (initMsgs 41) (initMsgs 41).shown p ∧
    p.2.sent = [(0, "Critical".toList, (initMsgs 41).strMsg 0)] ∧ ¬ Unmixed p := by
  obtain ⟨p, hp, hsent, hmixed⟩ := Lts.exists_steps_of_runIf (Lts.watch (step spdEnv) Seen.see) Lts.anyStep
    (fun p => p.2.sent = [(0, "Critical".toList, (initMsgs 41).strMsg 0)] ∧ ¬ Unmixed p)
    (watched (initMsgs 41) (initMsgs 41).shown)
    (checkClick ++ [.work .sendThread, .edit (editedBoxes (initMsgs 41) 0), .click (.send 0), .gui,
      .argLevel .sendThread, .argMsg .sendThread, .work .sendThread] ++ List.replicate 31 .gui)
    (by decide +kernel)
  exact ⟨p, ⟨_, hp⟩, hsent, hmixed⟩

/-! ## A step against it -/

/-- Past the exchange of a check click, up to the start of the workers. -/
def GuiPc.exchanged : GuiPc → Bool
  | .ifChecked | .labelStop | .setFlag | .start _ => true
  | _ => false

/-- With the count boxes valid no exchange is aborted, and the check box's handler finds the members as exchanged. -/
structure Exchanged (E : Env) (p : State × Seen) : Prop where
  invalid : ∀ hd, p.1.gui = .invalid hd → ¬ CountsValid E p.1.boxes
  last : p.1.gui.exchanged = true → CountsValid E p.1.boxes → p.1.members.rowTexts = p.2.last

theorem last_see (ha : a ≠ .gui) : (Seen.see s a o).last = o.last := by
  cases a with
  | gui => exact absurd rfl ha
  | work w => simp only [Seen.see]; split <;> rfl
  | _ => rfl

theorem exchanged_gui {g : GuiPc} (hg : s.gui = g) (hi : Exchanged E (s, o)) (h : GuiMove E s g s') :
    Exchanged E (s', Seen.see s .gui o) := by
  obtain ⟨hinvalid, hlast⟩ := hi
  simp only [hg] at hinvalid hlast
  cases h with
  | field hd f fs m hf => exact ⟨fun _ h => (by cases h), fun h => (by cases h)⟩
  | abort hd f fs m e hf => exact ⟨fun _ _ => not_countsValid_of_abort (s := s) hf, fun h => (by cases h)⟩
  | updated hd =>
    have hsee : Seen.see s .gui o = { o with last := s.members.rowTexts, older := o.last :: o.older } := by
      simp [Seen.see, hg]
    rw [hsee]
    cases hd with
    | check => exact ⟨fun _ h => (by cases h), fun _ _ => rfl⟩
    | _ => exact ⟨fun _ h => (by cases h), fun h => (by cases h)⟩
  | dismissed hd =>
    have hno := hinvalid hd rfl
    cases hd with
    | check => exact ⟨fun _ h => (by cases h), fun _ hv => absurd hv hno⟩
    | _ => exact ⟨fun _ h => (by cases h), fun h => (by cases h)⟩
  | send _ _ _ _ _ _ q => cases q <;> exact ⟨fun _ h => (by cases h), fun h => (by cases h)⟩
  | checked | labelStop | setFlag =>
    rw [see_gui (by simp [hg])]
    exact ⟨fun _ h => (by cases h), fun _ => hlast rfl⟩
  | start w =>
    rw [see_gui (by simp [hg])]
    cases w with
    | sendThread => exact ⟨fun _ h => (by cases h), fun _ => hlast rfl⟩
    | sendThread2 => exact ⟨fun _ h => (by cases h), fun h => (by cases h)⟩
  | suspend w => cases w <;> exact ⟨fun _ h => (by cases h), fun h => (by cases h)⟩
  | closeNull c | deleteThread c => cases c <;> exact ⟨fun _ h => (by cases h), fun h => (by cases h)⟩
  | _ => exact ⟨fun _ h => (by cases h), fun h => (by cases h)⟩

theorem exchanged_watched {Q : State × Seen → Act → Prop} {m : Members} {b : Boxes} (h : ReachedSeen E Q m b p) :
    Exchanged E p := by
  refine h.inv ⟨fun _ h => (by cases h), fun h => (by cases h)⟩ (fun u a v hu hi _ hs => ?_)
  obtain ⟨s, o⟩ := u
  obtain ⟨s', o'⟩ := v
  obtain ⟨hstep, hsee⟩ := Lts.watch_eq_some.1 hs
  obtain rfl : o' = Seen.see s a o := hsee
  have hstep : step E s a = some s' := hstep
  cases step_move hstep with
  | click c ha hg hs' =>
    subst hs'
    cases c <;> exact ⟨fun _ h => (by cases h), fun h => (by cases h)⟩
  | edit b ha hg hs' =>
    subst hs'
    exact ⟨fun _ h => absurd (hg.symm.trans h) (by simp), fun h => absurd h (by simp [hg, GuiPc.exchanged])⟩
  | gui ha hgui =>
    subst ha
    exact exchanged_gui rfl hi (guiStep_move hgui)
  | worker w m pc d ha hr hm hs' =>
    have hne : a ≠ .gui := by rintro rfl; cases ha
    subst hs'
    exact ⟨hi.invalid, fun hg hv => (hi.last hg hv).trans (last_see hne).symm⟩

theorem sent_of_both {w : Worker} {rest : List Row} {lvl msg : CString} (hsus : (p.1.thread w).suspends = 0)
    (hpc : (p.1.thread w).pc = .args r rest (some lvl) (some msg)) :
    ∃ u, Lts.Reach (Lts.watch (step E) Seen.see) Lts.anyStep p u ∧ u.2.sent = p.2.sent ++ [(r, lvl, msg)] := by
  have hcall : Lts.watch (step E) Seen.see p (.work w) = some
      (p.1.setPc w (.send rest (.read lvl msg)), { p.2 with sent := p.2.sent ++ [(r, lvl, msg)] }) := by
    simp [Lts.watch, step, hsus, workerStep, hpc, Seen.see]
  exact ⟨_, .one (.work w) trivial hcall, rfl⟩

theorem sent_of_level {w : Worker} {rest : List Row} {lvl : CString} {msg : Option CString}
    (hsus : (p.1.thread w).suspends = 0) (hpc : (p.1.thread w).pc = .args r rest (some lvl) msg) :
    ∃ u, Lts.Reach (Lts.watch (step E) Seen.see) Lts.anyStep p u ∧
      u.2.sent = p.2.sent ++ [(r, lvl, msg.getD (p.1.members.strMsg r))] := by
  cases msg with
  | some msg => exact sent_of_both hsus hpc
  | none =>
    let v : State × Seen := (p.1.setPc w (.args r rest (some lvl) (some (p.1.members.strMsg r))), p.2)
    have hread : Lts.watch (step E) Seen.see p (.argMsg w) = some v := by
      simp [Lts.watch, step, hsus, argMsg, hpc, Seen.see, v]
    obtain ⟨u, hu, hsent⟩ := sent_of_both (E := E) (p := v) (by simpa [v, setPc_eq] using hsus)
      (show (v.1.thread w).pc = .args r rest (some lvl) (some (p.1.members.strMsg r)) by simp [v, setPc_eq])
    exact ⟨u, (Lts.Reach.one (.argMsg w) trivial hread).trans hu, hsent⟩

/-- A worker at its arguments, not suspended, sends what it has read and what the members then hold. -/
theorem exists_sent {w : Worker} {rest : List Row} {lvl msg : Option CString} (hsus : (p.1.thread w).suspends = 0)
    (hpc : (p.1.thread w).pc = .args r rest lvl msg) :
    ∃ u, Lts.Reach (Lts.watch (step E) Seen.see) Lts.anyStep p u ∧
      u.2.sent = p.2.sent ++ [(r, lvl.getD (p.1.members.strLevel r), msg.getD (p.1.members.strMsg r))] := by
  cases lvl with
  | some lvl => exact sent_of_level hsus hpc
  | none =>
    let v : State × Seen := (p.1.setPc w (.args r rest (some (p.1.members.strLevel r)) msg), p.2)
    have hread : Lts.watch (step E) Seen.see p (.argLevel w) = some v := by
      simp [Lts.watch, step, hsus, argLevel, hpc, Seen.see, v]
    obtain ⟨u, hu, hsent⟩ := sent_of_level (E := E) (p := v) (by simpa [v, setPc_eq] using hsus)
      (show (v.1.thread w).pc = .args r rest (some (p.1.members.strLevel r)) msg by simp [v, setPc_eq])
    exact ⟨u, (Lts.Reach.one (.argLevel w) trivial hread).trans hu, hsent⟩

/-- A worker that reads a row's text now, and has read no level but the one there, sends both. -/
theorem sent_of_argMsg {w : Worker} {rest : List Row} {lvl msg : Option CString} (hsus : (p.1.thread w).suspends = 0)
    (hpc : (p.1.thread w).pc = .args r rest lvl msg) (hlvl : ∀ l ∈ lvl, l = p.1.members.strLevel r)
    (hs : Lts.watch (step E) Seen.see p (.argMsg w) = some q) :
    ∃ u, Lts.Reach (Lts.watch (step E) Seen.see) Lts.anyStep q u ∧
      u.2.sent = p.2.sent ++ [(r, p.1.members.strLevel r, p.1.members.strMsg r)] := by
  obtain ⟨hstep, hsee⟩ := Lts.watch_eq_some.1 hs
  obtain rfl : msg = none := by
    cases msg with
    | none => rfl
    | some x => simp [step, argMsg, hpc] at hstep
  have hq : p.1.setPc w (.args r rest lvl (some (p.1.members.strMsg r))) = q.1 := by
    simpa [step, hsus, argMsg, hpc] using hstep
  have hsus' : (q.1.thread w).suspends = 0 := by rw [← hq]; simpa [setPc_eq] using hsus
  have hpc' : (q.1.thread w).pc = .args r rest lvl (some (p.1.members.strMsg r)) := by rw [← hq]; simp [setPc_eq]
  obtain ⟨u, hu, hsent⟩ := exists_sent (E := E) hsus' hpc'
  have hl : lvl.getD (q.1.members.strLevel r) = p.1.members.strLevel r := by
    rw [← hq]
    cases lvl with
    | none => rfl
    | some l => exact hlvl l rfl
  rw [hsee, hl] at hsent
  exact ⟨u, hu, hsent⟩

theorem args_of_read {pc : ThreadPc} {lvl msg : Option CString} (h : pc.read r = (lvl, msg))
    (hne : (lvl, msg) ≠ (none, none)) : ∃ rest, pc = .args r rest lvl msg := by
  cases pc with
  | args k rest l m =>
    rw [read_args] at h
    split at h
    · rename_i hk
      cases h
      exact ⟨rest, by rw [hk]⟩
    · exact absurd h.symm hne
  | _ => exact absurd h.symm hne

/-- The level and the text are neither the row's last exchanged ones nor those in the boxes. -/
def Mixes (p : State × Seen) (r : Row) (lvl msg : CString) : Prop :=
  (lvl, msg) ≠ p.2.last.row r ∧ (lvl, msg) ≠ (p.1.boxes.comboLevel r, p.1.boxes.editMsg r)

/-- A new level and a text that the exchange does not bring. -/
theorem mixes_of_level {m : Members} {b : Boxes} {hd : Handler} {fs : List Field} {msg : CString}
    (h : ReachedSeen E (RowsWhole E) m b p) (hc : p.1.created)
    (hg : p.1.gui = .exchange hd (.level r :: fs)) (hne : p.1.boxes.comboLevel r ≠ p.1.members.strLevel r)
    (hmsg : msg ≠ p.1.boxes.editMsg r) (hs : Lts.watch (step E) Seen.see p .gui = some q) :
    q.1.thread = p.1.thread ∧ q.2 = p.2 ∧ Mixes p r (q.1.members.strLevel r) msg := by
  obtain ⟨hstep, hsee⟩ := Lts.watch_eq_some.1 hs
  have hq : { p.1 with
      members := { p.1.members with strLevel := Function.update p.1.members.strLevel r (p.1.boxes.comboLevel r) }
      gui := .exchange hd fs } = q.1 := by
    simpa [step, guiStep, hg, exchangeField] using hstep
  have hlast : p.1.members.strLevel r = p.2.last.level r := by
    have hi := (basic_watched h).2
    rw [hg] at hi
    exact Torn.x_of_first (torn h hc r) ((phase_tornOf hg).trans (phase_level hi).1)
  rw [see_gui (by simp [hg])] at hsee
  refine ⟨by rw [← hq], hsee, fun he => hne ?_, fun he => hmsg (congrArg Prod.snd he)⟩
  have hl := congrArg Prod.fst he
  rw [← hq] at hl
  exact (Function.update_self r _ p.1.members.strLevel).symm.trans (hl.trans hlast.symm)

/-- A new text and a level that the exchange does not bring. -/
theorem mixes_of_msg {m : Members} {b : Boxes} {hd : Handler} {fs : List Field} {lvl : CString}
    (h : ReachedSeen E (RowsWhole E) m b p) (hc : p.1.created)
    (hg : p.1.gui = .exchange hd (.msg r :: fs)) (hne : p.1.boxes.editMsg r ≠ p.1.members.strMsg r)
    (hlvl : lvl ≠ p.1.boxes.comboLevel r) (hs : Lts.watch (step E) Seen.see p .gui = some q) :
    q.1.thread = p.1.thread ∧ q.2 = p.2 ∧ Mixes p r lvl (q.1.members.strMsg r) := by
  obtain ⟨hstep, hsee⟩ := Lts.watch_eq_some.1 hs
  have hq : { p.1 with
      members := { p.1.members with strMsg := Function.update p.1.members.strMsg r (p.1.boxes.editMsg r) }
      gui := .exchange hd fs } = q.1 := by
    simpa [step, guiStep, hg, exchangeField] using hstep
  have hlast : p.1.members.strMsg r = p.2.last.msg r := by
    have hi := (basic_watched h).2
    rw [hg] at hi
    exact Torn.y_of_second (torn h hc r) ((phase_tornOf hg).trans (phase_msg hi).1)
  rw [see_gui (by simp [hg])] at hsee
  refine ⟨by rw [← hq], hsee, fun he => hne ?_, fun he => hlvl (congrArg Prod.fst he)⟩
  have hm := congrArg Prod.snd he
  rw [← hq] at hm
  exact (Function.update_self r _ p.1.members.strMsg).symm.trans (hm.trans hlast.symm)

/-- **A step against it mixes two settings**, the count boxes being valid and no worker suspended: a worker may go on to
send a level and a text of a row that are neither its last exchanged ones nor those in the boxes.  (The row may still
have had them both in an older setting.) -/
theorem mixes_of_not_rowsWhole {m : Members} {b : Boxes}
    (h : ReachedSeen E (RowsWhole E) m b p)
    (hn : ¬ RowsWhole E p a) (hs : Lts.watch (step E) Seen.see p a = some q) (hv : CountsValid E p.1.boxes)
    (hsus : ∀ w, (p.1.thread w).suspends = 0) :
    ∃ u r lvl msg, Lts.Reach (Lts.watch (step E) Seen.see) Lts.anyStep q u ∧
      u.2.sent = p.2.sent ++ [(r, lvl, msg)] ∧ Mixes p r lvl msg := by
  cases a with
  | gui =>
    simp only [RowsWhole] at hn
    split at hn
    · rename_i w hg
      exact absurd (fun _ r => by rw [(exchanged_watched h).last (by rw [hg]; rfl) hv]) hn
    · rename_i hd r fs hg
      obtain ⟨hc, hn⟩ := Classical.not_imp.1 hn
      obtain ⟨hne, hno⟩ := Classical.not_imp.1 hn
      obtain ⟨w, hw⟩ := not_forall.1 (fun hall => hno ⟨hv, hall⟩)
      push Not at hw
      obtain ⟨hnone, msg, hmsg, hnmsg⟩ := hw
      obtain ⟨rest, hpc⟩ := args_of_read (Prod.ext hnone hmsg) (by simp)
      obtain ⟨ht, ho, hmix⟩ := mixes_of_level h hc hg hne hnmsg hs
      obtain ⟨u, hu, hsent⟩ := exists_sent (E := E) (p := q) (by rw [ht]; exact hsus w) (by rw [ht]; exact hpc)
      exact ⟨u, r, _, msg, hu, by rw [hsent, ho]; rfl, hmix⟩
    · rename_i hd r fs hg
      obtain ⟨hc, hn⟩ := Classical.not_imp.1 hn
      obtain ⟨hne, hno⟩ := Classical.not_imp.1 hn
      obtain ⟨w, hw⟩ := not_forall.1 (fun hall => hno ⟨hv, hall⟩)
      push Not at hw
      obtain ⟨hnone, lvl, hlvl, hnlvl⟩ := hw
      obtain ⟨rest, hpc⟩ := args_of_read (Prod.ext hlvl hnone) (by simp)
      obtain ⟨ht, ho, hmix⟩ := mixes_of_msg h hc hg hne hnlvl hs
      obtain ⟨u, hu, hsent⟩ := exists_sent (E := E) (p := q) (by rw [ht]; exact hsus w) (by rw [ht]; exact hpc)
      exact ⟨u, r, lvl, _, hu, by rw [hsent, ho]; rfl, hmix⟩
    · exact absurd trivial hn
  | argMsg w =>
    simp only [RowsWhole] at hn
    split at hn
    · rename_i r rest lvl msg hpc
      push Not at hn
      obtain ⟨hnl, hnm, hlvl⟩ := hn
      obtain ⟨u, hu, hsent⟩ := sent_of_argMsg (hsus w) hpc hlvl hs
      exact ⟨u, r, _, _, hu, hsent, fun he => hnl (congrArg Prod.fst he), fun he => hnm (congrArg Prod.snd he)⟩
    · exact absurd trivial hn
  | _ => exact absurd trivial hn

end LogMaker
