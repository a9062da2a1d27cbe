import LogMaker.Locks
import LogMaker.Lib.Cell
/-!
# SentLogs — the text of the sent-logs box

`callbackLog` copies the box, inserts its line in front and writes the text back, in a worker with a message for the copy
and another for the write; the mutex of the callback sink is held throughout.  `cellOf` sees nothing else of a state, and
every run is a run of a cell (`cell_step`), whose lines are those the mutex was taken for.
-/
namespace LogMaker

/-- What `callbackLog` writes for a line it is handed. -/
def insertText (line str : CString) : CString := line ++ ['\r', '\n'] ++ str

def SinkPc.phase (line : CString) : SinkPc → Cell.Phase CString CString
  | .enter | .get => .taken line
  | .got str => .copied line str
  | .set str => .changed str
  | .done => .written

def phaseAt (E : Env) : Option SendPc → Cell.Phase CString CString
  | some (.sink lvl line .callback _ c) => c.phase (payloadOf E lvl line)
  | _ => .free

/-- The box, with a thread at this position in the callback sink, or none there. -/
def boxAt (E : Env) (m : Mem) (q : Option SendPc) : Cell.State CString CString where
  cell := m.sentLogs
  log := m.delivered
  phase := phaseAt E q

def cellOf (E : Env) (s : State) : Cell.State CString CString := boxAt E s.mem ((s.mem.holder .callback).bind (pos s))

/-- A run of the box. -/
abbrev BoxReach : Cell.State CString CString → Cell.State CString CString → Prop :=
  Lts.Reach (Cell.step insertText) Lts.anyStep

variable {E : Env} {s s' : State} {a : Act} {t : Sender}

theorem phaseAt_of_owns : ∀ {q : Option SendPc}, q.bind SendPc.owns ≠ some .callback → phaseAt E q = .free
  | none, _ => rfl
  | some p, h => by
    cases p with
    | sink lvl line k rest c =>
      cases k with
      | callback => exact absurd rfl h
      | _ => rfl
    | _ => rfl

/-- If nobody else holds the mutex, the box is as this thread sees it. -/
theorem cellOf_eq (hh : Mutex.Held s.mem.holder (owns s))
    (hf : s.mem.holder .callback = some t ∨ s.mem.holder .callback = none) : cellOf E s = boxAt E s.mem (pos s t) := by
  unfold cellOf
  rcases hf with hf | hf
  · rw [hf, Option.bind_some]
  · have hfree := phaseAt_of_owns (E := E) (hh.free.1 hf t)
    unfold boxAt
    rw [hf, hfree]
    rfl

/-! ## A step is one of the cell's, or none -/

theorem phaseAt_nextSink (lvl line : CString) (ks : List Sink) : phaseAt E (some (nextSink lvl line ks)) = .free := by
  cases ks <;> rfl

theorem phaseAt_sink {lvl line : CString} {k : Sink} (hk : k ≠ .callback) (rest : List Sink) (c : SinkPc) :
    phaseAt E (some (.sink lvl line k rest c)) = .free :=
  phaseAt_of_owns (fun h => hk (Option.some.inj h))

/-- A step that leaves the box and the lines, and where the thread stands with the box. -/
theorem reach_boxAt {m m' : Mem} {p q : Option SendPc} (hs : m'.sentLogs = m.sentLogs)
    (hd : m'.delivered = m.delivered) (hp : phaseAt E q = phaseAt E p) :
    BoxReach (boxAt E m p) (boxAt E m' q) := by
  unfold boxAt
  rw [hs, hd, hp]
  exact .refl _

/-- Taking the mutex of a sink. -/
theorem take_cell {m : Mem} {lvl line : CString} {k : Sink} {rest : List Sink} {p : SendPc}
    (hp : phaseAt E (some p) = .free) : BoxReach (boxAt E m (some p))
      (boxAt E (m.take E t lvl line k) (some (.sink lvl line k rest .enter))) := by
  by_cases hk : k = .callback
  · subst hk
    exact .one (.take (payloadOf E lvl line)) trivial (Cell.step_take hp _)
  · exact reach_boxAt rfl (by simp [Mem.take, hk]) ((phaseAt_sink hk rest .enter).trans hp.symm)

/-- A step of the thread in the callback sink, or of one that may take its mutex. -/
theorem sendStep_cell {m m' : Mem} {p : SendPc} {q : Option SendPc} (hp : p.placed t = true)
    (h : sendStep E t m p = some (m', q)) :
    BoxReach (boxAt E m (some p)) (boxAt E m' q) := by
  have hchange : ∀ lvl line rest str, Cell.step insertText (boxAt E m (some (.sink lvl line .callback rest (.got str))))
      .change = some { boxAt E m (some (.sink lvl line .callback rest (.got str))) with
        phase := .changed (insertText (payloadOf E lvl line) str) } := fun _ _ _ _ => Cell.step_change rfl
  cases sendStep_move h with
  | make => exact reach_boxAt rfl rfl (phaseAt_nextSink ..)
  | take | wake => exact take_cell rfl
  | pass lvl line k rest hk =>
    exact reach_boxAt rfl rfl ((phaseAt_sink hk rest .done).trans (phaseAt_sink hk rest .enter).symm)
  | getText => exact .one .copy trivial (Cell.step_copy rfl)
  | setText lvl line k rest str =>
    obtain rfl : k = .callback := by simpa [SendPc.placed] using hp
    exact (Lts.Reach.one .change trivial (hchange lvl line rest str)).snoc .write trivial (Cell.step_write rfl)
  | askSet w lvl line k rest str =>
    obtain rfl : k = .callback := by simpa [SendPc.placed] using hp
    exact .one .change trivial (hchange lvl line rest str)
  | release lvl line k rest =>
    by_cases hk : k = .callback
    · subst hk
      refine .one .release trivial ((Cell.step_release rfl).trans ?_)
      rw [← phaseAt_nextSink (E := E) lvl line rest]
      rfl
    · exact reach_boxAt rfl rfl ((phaseAt_nextSink ..).trans (phaseAt_sink hk rest .done).symm)
  | _ => exact reach_boxAt rfl rfl rfl

theorem answerStep_owns {m m' : Mem} {p p' : SendPc} (hp : p.placed t = true)
    (h : answerStep m p = some (m', p')) : p.owns = some .callback := by
  cases answerStep_move h <;> exact congrArg some (of_decide_eq_true (Bool.and_eq_true_iff.1 hp).1)

theorem answerStep_cell {m m' : Mem} {p p' : SendPc} (hown : p.owns = some .callback)
    (h : answerStep m p = some (m', p')) :
    BoxReach (boxAt E m (some p)) (boxAt E m' (some p')) := by
  cases answerStep_move h with
  | get => cases hown; exact .one .copy trivial (Cell.step_copy rfl)
  | set => cases hown; exact .one .write trivial (Cell.step_write rfl)

/-- A step of a thread while another one holds the mutex. -/
theorem sendStep_others {m m' : Mem} {p : SendPc} {q : Option SendPc} (hp : p.placed t = true)
    (hown : p.owns ≠ some .callback) (hheld : m.holder .callback ≠ none) (h : sendStep E t m p = some (m', q)) :
    m'.sentLogs = m.sentLogs ∧ m'.delivered = m.delivered ∧ m'.holder .callback = m.holder .callback := by
  have htake : ∀ lvl line k, m.holder k = none → (m.take E t lvl line k).delivered = m.delivered ∧
      (m.take E t lvl line k).holder .callback = m.holder .callback := by
    intro lvl line k hk
    have hne : k ≠ .callback := fun hc => hheld (hc ▸ hk)
    exact ⟨by simp [Mem.take, hne], Function.update_of_ne (Ne.symm hne) ..⟩
  cases sendStep_move h with
  | take lvl line k rest hk | wake lvl line k rest hk => exact ⟨rfl, htake lvl line k hk⟩
  | setText lvl line k rest str =>
    obtain rfl : k = .callback := by simpa [SendPc.placed] using hp
    exact absurd rfl hown
  | release lvl line k rest =>
    have hne : k ≠ .callback := fun hc => hown (hc ▸ rfl)
    exact ⟨rfl, rfl, Function.update_of_ne (Ne.symm hne) ..⟩
  | _ => exact ⟨rfl, rfl, rfl⟩

/-- What a thread's step leaves of the mutex, if the thread holds it or nobody does. -/
theorem sendStep_holder {m m' : Mem} {p : SendPc} {q : Option SendPc}
    (hf : m.holder .callback = some t ∨ m.holder .callback = none) (h : sendStep E t m p = some (m', q)) :
    m'.holder .callback = some t ∨ m'.holder .callback = none := by
  rcases sendStep_locks h with ⟨hm, -⟩ | ⟨k, -, -, hm, -⟩ | ⟨k, -, hm, -⟩
  · rwa [hm]
  · rw [hm]
    by_cases hk : k = .callback
    · subst hk; exact .inl (Function.update_self ..)
    · rwa [Function.update_of_ne (Ne.symm hk)]
  · rw [hm]
    by_cases hk : k = .callback
    · subst hk; exact .inr (Function.update_self ..)
    · rwa [Function.update_of_ne (Ne.symm hk)]

/-- What the box needs of a state: each sink's mutex is held by the thread in it. -/
structure Locked (s : State) : Prop where
  basic : Basic s
  held : Mutex.Held s.mem.holder (owns s)
  placed : Placed s

theorem locked_step (hi : Locked s) (h : step E s a = some s') : Locked s' :=
  ⟨basic_step hi.basic h, held_step hi.basic hi.held h, placed_step hi.basic hi.placed h⟩

/-- A step of one thread, the box being as that thread sees it before and after. -/
theorem cellOf_thread (hi : Locked s) (hi' : Locked s') {p : SendPc} {q : Option SendPc} (hp : pos s t = some p)
    (hpos : pos s' = Function.update (pos s) t q)
    (hf : s.mem.holder .callback = some t ∨ s.mem.holder .callback = none)
    (hf' : s'.mem.holder .callback = some t ∨ s'.mem.holder .callback = none)
    (h : BoxReach (boxAt E s.mem (some p)) (boxAt E s'.mem q)) :
    BoxReach (cellOf E s) (cellOf E s') := by
  rw [cellOf_eq hi.held hf, cellOf_eq hi'.held hf', hp, hpos, Function.update_self]
  exact h

/-- A step that leaves the box, the lines, the mutex, and its holder where it stands. -/
theorem cellOf_same (hs : s'.mem.sentLogs = s.mem.sentLogs) (hd : s'.mem.delivered = s.mem.delivered)
    (hh : s'.mem.holder .callback = s.mem.holder .callback)
    (hp : ∀ t, s.mem.holder .callback = some t → pos s' t = pos s t) : cellOf E s' = cellOf E s := by
  unfold cellOf boxAt
  rw [hs, hd, hh]
  cases hk : s.mem.holder .callback with
  | none => rfl
  | some t => simp [hp t hk]

/-- **Every step is a run of the cell.** -/
theorem cell_step (hi : Locked s) (h : step E s a = some s') :
    BoxReach (cellOf E s) (cellOf E s') := by
  have hi' := locked_step hi h
  cases step_sender hi.basic.ptrInv h with
  | send t p q ha hp hs hpos =>
    by_cases hf : s.mem.holder .callback = some t ∨ s.mem.holder .callback = none
    · exact cellOf_thread hi hi' hp hpos hf (sendStep_holder hf hs) (sendStep_cell (hi.placed t p hp) hs)
    · -- another thread holds the mutex, and is left where it is
      obtain ⟨hft, hfn⟩ := not_or.1 hf
      have hown : p.owns ≠ some .callback := fun ho => hft ((hi.held _ _).2 (by simp [owns, hp, ho]))
      obtain ⟨hsent, hdel, hhold⟩ := sendStep_others (hi.placed t p hp) hown hfn hs
      have hsame : cellOf E s' = cellOf E s := cellOf_same hsent hdel hhold (fun u hu => by
        rw [hpos, Function.update_of_ne (fun hut => hft (by rw [← hut]; exact hu))])
      rw [hsame]
      exact .refl _
  | call t lvl msg ha hp hm hpos =>
    have hsame : cellOf E s' = cellOf E s := cellOf_same (by rw [hm]) (by rw [hm]) (by rw [hm]) (fun u hu => by
      have hne : u ≠ t := by
        rintro rfl
        have ho := (hi.held _ _).1 hu
        rw [owns, hp] at ho
        cases ho
      rw [hpos, Function.update_of_ne hne])
    rw [hsame]
    exact .refl _
  | answer w p p' ha hg hp hs hpos =>
    have hown := answerStep_owns (hi.placed _ p hp) hs
    have hf : s.mem.holder .callback = some (.worker w) := (hi.held _ _).2 (by rw [owns, hp]; exact hown)
    have hf' : s'.mem.holder .callback = some (.worker w) := by rw [(answerStep_locks hs).1]; exact hf
    exact cellOf_thread hi hi' hp hpos (.inl hf) (.inl hf') (answerStep_cell hown hs)
  | rest hm hpos =>
    obtain ⟨str, hm⟩ := hm
    have hsame : cellOf E s' = cellOf E s :=
      cellOf_same (by rw [hm]) (by rw [hm]) (by rw [hm]) (fun u _ => by rw [hpos])
    rw [hsame]
    exact .refl _

/-! ## The text of the box -/

/-- The dialog at its start, whatever the sent-logs box holds. -/
def State.opened (m : Members) (b : Boxes) (str : CString) : State :=
  { State.init m b with mem := { (State.init m b).mem with sentLogs := str } }

theorem locked_opened (m : Members) (b : Boxes) (str : CString) : Locked (State.opened m b str) where
  basic := ⟨rfl, rfl, fun _ _ => rfl, fun _ h => by cases h⟩
  held := fun _ t => by cases t <;> exact ⟨fun h => (by cases h), fun h => (by cases h)⟩
  placed := fun t p hp => by cases t <;> cases hp

/-- The lines newest first, each followed by CR LF, before the text `str`. -/
def boxText (ls : List CString) (str : CString) : CString := (ls.reverse.map (· ++ ['\r', '\n'])).flatten ++ str

theorem updates_insertText (str : CString) (ls : List CString) :
    Cell.updates insertText str ls = boxText ls str := by
  induction ls using List.reverseRecOn with
  | nil => rfl
  | append_singleton ls l ih =>
    rw [Cell.updates_snoc, ih]
    simp [boxText, insertText]

/-- A call of `callbackLog` in progress. -/
def SendPc.calling : SendPc → Bool
  | .sink _ _ _ _ .get | .sink _ _ _ _ (.got _) | .sink _ _ _ _ (.set _) => true
  | _ => false

/-- In the callback sink, about to call `callbackLog`. -/
def SendPc.entering : SendPc → Bool
  | .sink _ _ .callback _ .enter => true
  | _ => false

/-- The lines handed to `callbackLog` so far, in the order the mutex of its sink was acquired: those it was acquired for,
but for the last one while its thread has still to make the call. -/
def handed (s : State) : List CString :=
  if ∃ t, (pos s t).any SendPc.entering = true then s.mem.delivered.dropLast else s.mem.delivered

theorem applied_cellOf (hi : Locked s) (hn : ∀ t, (pos s t).any SendPc.calling = false) :
    (cellOf E s).applied = handed s := by
  have hfree : (∀ t, s.mem.holder .callback = some t → (pos s t).any SendPc.entering = false) →
      ¬ ∃ t, (pos s t).any SendPc.entering = true := by
    rintro hno ⟨t, ht⟩
    have hown : owns s t = some .callback := by
      unfold owns
      cases hp : pos s t with
      | none => rw [hp] at ht; cases ht
      | some p =>
        rw [hp] at ht
        cases p with
        | sink lvl line k rest c =>
          cases k with
          | callback => rfl
          | _ => cases ht
        | _ => cases ht
    rw [hno t ((hi.held _ _).2 hown)] at ht
    cases ht
  unfold handed
  cases hk : s.mem.holder .callback with
  | none =>
    rw [if_neg (hfree (fun t ht => by rw [hk] at ht; cases ht))]
    simp [cellOf, hk, boxAt, phaseAt, Cell.State.applied]
  | some t =>
    have hone : ∀ u, s.mem.holder .callback = some u → u = t := fun u hu => by
      rw [hk] at hu
      exact (Option.some.inj hu).symm
    obtain ⟨p, hp, hown⟩ := Option.bind_eq_some_iff.1 ((hi.held _ _).1 hk)
    have hnt := hn t
    rw [hp] at hnt
    cases p <;> cases hown
    rename_i lvl line rest c
    have hcell : cellOf E s = boxAt E s.mem (some (.sink lvl line .callback rest c)) := by
      rw [cellOf_eq hi.held (.inl hk), hp]
    rw [hcell]
    cases c with
    | enter =>
      rw [if_pos ⟨t, by rw [hp]; rfl⟩]
      rfl
    | get | got | set => cases hnt
    | done =>
      rw [if_neg (hfree (fun u hu => by rw [hone u hu, hp]; rfl))]
      rfl

/-- **The box loses and doubles nothing**: with no call of `callbackLog` in progress it holds every line handed to
`callbackLog`, newest first and each followed by CR LF, before the text it had at first. -/
theorem reached_sentLogs {m : Members} {b : Boxes} {str : CString}
    (h : Lts.Reach (step E) Lts.anyStep (State.opened m b str) s)
    (hn : ∀ t, (pos s t).any SendPc.calling = false) : s.mem.sentLogs = boxText (handed s) str := by
  have hi : ∀ u, Lts.Reach (step E) Lts.anyStep (State.opened m b str) u → Locked u := fun u hu =>
    hu.inv (locked_opened m b str) (fun _ _ _ _ hi _ hs => locked_step hi hs)
  have hcell : BoxReach (cellOf E (State.opened m b str)) (cellOf E s) :=
    h.map (cellOf E) (fun u a v hu _ hs => cell_step (hi u hu) hs)
  have heq := Cell.cell_eq hcell
  rw [updates_insertText, applied_cellOf (hi s h) hn] at heq
  exact heq

/-- A line of a worker, and in front of it one of the other worker, into a box with text. -/
theorem reached_sentLogs_two : ∃ s, Lts.Reach (step spdEnv) Lts.anyStep
    (State.opened (initMsgs 41) (initMsgs 41).shown "old".toList) s ∧
    (handed s).length = 2 ∧ s.mem.sentLogs = boxText (handed s) "old".toList := by
  obtain ⟨s, hr, hlen, hn⟩ := Lts.exists_steps_of_runIf (step spdEnv) Lts.anyStep
    (fun s => (handed s).length = 2 ∧ ∀ t, (pos s t).any SendPc.calling = false)
    (State.opened (initMsgs 41) (initMsgs 41).shown "old".toList)
    (checkClick ++ toRead .sendThread ++ throughSinks .sendThread ++ toRead .sendThread2 ++ throughSinks .sendThread2)
    (by decide +kernel)
  exact ⟨s, ⟨_, hr⟩, hlen, reached_sentLogs ⟨_, hr⟩ hn⟩

end LogMaker
