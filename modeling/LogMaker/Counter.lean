import LogMaker.Life
import LogMaker.Lib.Ticket
/-!
# Counter — the numbers the three senders take from `g_nSendCnt`

A send is a read of `g_nSendCnt`, a later write of the value plus one, the call of `makeMsgBuf`, and the call of
`toSpdLog`: the four steps of a ticket.  `ticketOf` sees nothing else of a state, and every run is a run of tickets
(`reach_ticket`).  While no sender reads between another one's read and write, what holds of tickets then holds of the
numbers sent.
-/
namespace LogMaker

/-- Where a send stands with its number. -/
def SendPc.slot : SendPc → Ticket.Slot 32
  | .read _ _ => .idle
  | .write _ _ n => .reading n
  | .make _ _ n => .held n
  | .lock _ _ _ _ | .wait _ _ _ _ | .sink _ _ _ _ _ | .ret _ _ => .passed
  | .sleep => .idle

def slotOf : Option SendPc → Ticket.Slot 32
  | none => .idle
  | some p => p.slot

def ticketOf (s : State) : Ticket.State Sender 32 where
  cnt := s.mem.cnt
  slot := fun t => slotOf (pos s t)
  nums := s.mem.nums
  finished := s.mem.logged.length

def SendPc.reads : SendPc → Bool
  | .read _ _ => true
  | _ => false

/-- Between the read and the write. -/
def SendPc.torn : SendPc → Bool
  | .write _ _ _ => true
  | _ => false

/-- No sender reads the counter between another one's read and write of it. -/
def IncrAlone (s : State) (a : Act) : Prop :=
  ∀ t, a.sender? = some t → (pos s t).any SendPc.reads = true → ∀ u, (pos s u).any SendPc.torn = false

instance (s : State) (a : Act) : Decidable (IncrAlone s a) := by unfold IncrAlone; infer_instance

theorem slotOf_update (f : Sender → Option SendPc) (t : Sender) (q : Option SendPc) :
    (fun u => slotOf (Function.update f t q u)) = Function.update (fun u => slotOf (f u)) t (slotOf q) := by
  funext u
  by_cases hu : u = t
  · subst hu; simp
  · simp [hu]

theorem slotOf_eq_reading {q : Option SendPc} {n : UINT} (h : slotOf q = .reading n) : q.any SendPc.torn = true := by
  cases q with
  | none => cases h
  | some p => cases p <;> first | rfl | cases h

theorem ticketOf_same {s s' : State} (hc : s'.mem.cnt = s.mem.cnt) (hn : s'.mem.nums = s.mem.nums)
    (hl : s'.mem.logged = s.mem.logged) (hp : ∀ t, slotOf (pos s' t) = slotOf (pos s t)) : ticketOf s' = ticketOf s := by
  unfold ticketOf
  rw [hc, hn, hl, funext hp]

theorem slot_nextSink (lvl line : CString) (ks : List Sink) : (nextSink lvl line ks).slot = .passed := by
  cases ks <;> rfl

def SendPc.inSinks : SendPc → Bool
  | .lock _ _ _ _ | .wait _ _ _ _ | .sink _ _ _ _ _ => true
  | _ => false

theorem sendStep_inSinks {E : Env} {t : Sender} {m m' : Mem} {p : SendPc} {q : Option SendPc} (hp : p.inSinks = true)
    (h : sendStep E t m p = some (m', q)) :
    m'.cnt = m.cnt ∧ m'.nums = m.nums ∧ m'.logged = m.logged ∧ slotOf q = .passed := by
  cases sendStep_move h with
  | read | write | make | ret | sleep => cases hp
  | release => exact ⟨rfl, rfl, rfl, slot_nextSink ..⟩
  | _ => exact ⟨rfl, rfl, rfl, rfl⟩

theorem ticketOf_send {s s' : State} {t : Sender} {q : Option SendPc} (hpos : pos s' = Function.update (pos s) t q) :
    ticketOf s' = { ticketOf s with
      cnt := s'.mem.cnt
      slot := Function.update (ticketOf s).slot t (slotOf q)
      nums := s'.mem.nums
      finished := s'.mem.logged.length } := by
  unfold ticketOf
  rw [hpos, slotOf_update]

/-- The read of a send. -/
theorem ticketOf_read {E : Env} {s s' : State} {t : Sender} {lvl msg : CString} {q : Option SendPc}
    (hs : sendStep E t s.mem (.read lvl msg) = some (s'.mem, q)) (hpos : pos s' = Function.update (pos s) t q) :
    ticketOf s' = { ticketOf s with slot := Function.update (ticketOf s).slot t (.reading (ticketOf s).cnt) } := by
  obtain ⟨hm, rfl⟩ : s.mem = s'.mem ∧ some (.write lvl msg s.mem.cnt) = q := by simpa [sendStep] using hs
  rw [ticketOf_send hpos, ← hm]
  rfl

/-- A step of a send is a step of its ticket, or none. -/
theorem sendStep_ticket {E : Env} {s s' : State} {t : Sender} {p : SendPc} {q : Option SendPc} (hp : pos s t = some p)
    (hs : sendStep E t s.mem p = some (s'.mem, q)) (hpos : pos s' = Function.update (pos s) t q)
    {Q : Ticket.State Sender 32 → Ticket.Act Sender → Prop}
    (hQ : ∀ b, (∀ u, b = .read u → u = t ∧ p.reads = true) → Q (ticketOf s) b) :
    Lts.Reach Ticket.step Q (ticketOf s) (ticketOf s') := by
  have hslot : (ticketOf s).slot t = p.slot := by simp [ticketOf, hp, slotOf]
  have hnew := ticketOf_send hpos
  -- the steps between the sinks keep the slot
  have hstay : s'.mem.cnt = s.mem.cnt → s'.mem.nums = s.mem.nums → s'.mem.logged = s.mem.logged → slotOf q = p.slot →
      Lts.Reach Ticket.step Q (ticketOf s) (ticketOf s') := by
    intro hc hn hl hq
    rw [hnew, hc, hn, hl, hq, ← hslot, Function.update_eq_self]
    exact .refl _
  cases p with
  | read lvl msg =>
    refine .one (.read t) (hQ _ (fun u hu => by cases hu; exact ⟨rfl, rfl⟩)) ?_
    rw [Ticket.step_read hslot, ticketOf_read hs hpos]
  | write lvl msg n =>
    obtain ⟨hm, rfl⟩ : { s.mem with cnt := n + 1 } = s'.mem ∧ some (.make lvl msg n) = q := by simpa [sendStep] using hs
    refine .one (.write t) (hQ _ (fun u hu => by cases hu)) ?_
    rw [Ticket.step_write hslot, hnew, ← hm]
    rfl
  | make lvl msg n =>
    obtain ⟨hm, rfl⟩ : { s.mem with nums := s.mem.nums ++ [n] } = s'.mem ∧
        some (nextSink lvl (makeMsgBuf msg n) E.sinks) = q := by simpa [sendStep] using hs
    refine .one (.pass t) (hQ _ (fun u hu => by cases hu)) ?_
    rw [Ticket.step_pass hslot, hnew, ← hm]
    simp [slotOf, slot_nextSink, ticketOf]
  | ret lvl line =>
    obtain ⟨hm, rfl⟩ : { s.mem with logged := s.mem.logged ++ [toSpdLog lvl line] } = s'.mem ∧ some .sleep = q := by
      simpa [sendStep] using hs
    refine .one (.finish t) (hQ _ (fun u hu => by cases hu)) ?_
    rw [Ticket.step_finish hslot, hnew, ← hm]
    simp [slotOf, SendPc.slot, ticketOf]
  | sleep =>
    obtain ⟨hm, rfl⟩ : s.mem = s'.mem ∧ none = q := by simpa [sendStep] using hs
    exact hstay (by rw [hm]) (by rw [hm]) (by rw [hm]) rfl
  | lock _ _ _ _ | wait _ _ _ _ | sink _ _ _ _ _ =>
    obtain ⟨hc, hn, hl, hq⟩ := sendStep_inSinks rfl hs
    exact hstay hc hn hl hq

theorem answerStep_same {m m' : Mem} {p p' : SendPc} (h : answerStep m p = some (m', p')) :
    m'.cnt = m.cnt ∧ m'.nums = m.nums ∧ m'.logged = m.logged ∧ p.slot = .passed ∧ p'.slot = .passed := by
  cases answerStep_move h <;> exact ⟨rfl, rfl, rfl, rfl, rfl⟩

/-- **A step is a run of tickets**, of none or a few; a guard of the step that says enough of a read is one of these. -/
theorem ticket_step {E : Env} {s s' : State} {a : Act} (hb : Basic s) (h : step E s a = some s')
    {Q : Ticket.State Sender 32 → Ticket.Act Sender → Prop}
    (hQ : ∀ t b, a = t.act → (∀ x, b = .read x → x = t ∧ (pos s t).any SendPc.reads = true) → Q (ticketOf s) b) :
    Lts.Reach Ticket.step Q (ticketOf s) (ticketOf s') := by
  cases step_sender hb.ptrInv h with
  | send t p q hact hp hs hpos =>
    exact sendStep_ticket hp hs hpos (fun b hb => hQ t b hact (by rw [hp]; exact hb))
  | call t lvl msg hact hp hm hpos =>
    have hc : s'.mem.cnt = s.mem.cnt := by rw [hm]
    rw [ticketOf_same hc (by rw [hm]) (by rw [hm])]
    · exact .refl _
    · intro x
      rw [hpos]
      by_cases hx : x = t
      · subst hx; rw [Function.update_self, hp]; rfl
      · rw [Function.update_of_ne hx]
  | answer w p p' hact hg hp hs hpos =>
    obtain ⟨hc, hn, hl, hpold, hpnew⟩ := answerStep_same hs
    rw [ticketOf_same hc hn hl]
    · exact .refl _
    · intro x
      rw [hpos]
      by_cases hx : x = .worker w
      · subst hx; rw [Function.update_self, hp]; exact hpnew.trans hpold.symm
      · rw [Function.update_of_ne hx]
  | rest hm hpos =>
    obtain ⟨str, hm⟩ := hm
    have hc : s'.mem.cnt = s.mem.cnt := by rw [hm]
    rw [ticketOf_same hc (by rw [hm]) (by rw [hm]) (fun x => by rw [hpos])]
    exact .refl _

/-- **A run is a run of tickets**; a guard of the runs that says enough of the reads is one of the tickets. -/
theorem reach_ticket {E : Env} {P : State → Act → Prop} {Q : Ticket.State Sender 32 → Ticket.Act Sender → Prop}
    (hPQ : ∀ u t b, P u t.act → (∀ x, b = .read x → x = t ∧ (pos u t).any SendPc.reads = true) → Q (ticketOf u) b)
    {m : Members} {b : Boxes} {s : State} (h : Reached E P m b s) :
    Lts.Reach Ticket.step Q Ticket.State.init (ticketOf s) := by
  have hinit : ticketOf (State.init m b) = Ticket.State.init := by
    unfold ticketOf
    congr 1
    funext t
    cases t <;> rfl
  rw [← hinit]
  exact h.map ticketOf (fun u a v hu ha hv => ticket_step (basic hu) hv (fun t b hact hb => hPQ u t b (hact ▸ ha) hb))

theorem ticketInv {E : Env} {m : Members} {b : Boxes} {s : State} (h : Reached E IncrAlone m b s) :
    Ticket.Inv (ticketOf s) := by
  refine Ticket.inv (reach_ticket (fun u t b ha hb => ?_) h)
  cases b with
  | read x =>
    obtain ⟨rfl, hread⟩ := hb x rfl
    intro y n hy
    have htorn := ha x (sender?_act x) hread y
    rw [slotOf_eq_reading hy] at htorn
    cases htorn
  | _ => trivial

/-! ## The numbers sent -/

/-- The numbers of the sends so far: those passed to `makeMsgBuf`, and those taken by a send that has not come to it. -/
def State.taken (s : State) : Multiset UINT := (s.mem.nums : Multiset UINT) + ∑ t, (slotOf (pos s t)).number

/-- **Every message has its own number**: the `N` numbers taken are `0 .. N - 1`, each once; and with no send in
progress these are the ones passed to `makeMsgBuf`, and the counter is at `N`. -/
def Numbered (s : State) : Prop :=
  s.taken.map BitVec.toNat = Multiset.range s.taken.card ∧
  ((∀ t, pos s t = none) → s.taken = s.mem.nums ∧ s.mem.cnt = BitVec.ofNat 32 s.taken.card)

/-- **While every read of the counter is alone, the numbers sent are in order.** -/
theorem reached_numbered {E : Env} {m : Members} {b : Boxes} {s : State} (h : Reached E IncrAlone m b s)
    (hN : s.taken.card ≤ 2 ^ 32) : Numbered s := by
  have hi := ticketInv h
  have htaken : s.taken = Ticket.firstNumbers 32 s.taken.card := hi.taken
  refine ⟨?_, fun hn => ?_⟩
  · conv => lhs; rw [htaken]
    exact Ticket.toNat_firstNumbers hN
  · have hslot : ∀ t, (ticketOf s).slot t = .idle := fun t => by simp [ticketOf, hn t, slotOf]
    have hopen : ∑ t, ((ticketOf s).slot t).open = 0 := Finset.sum_eq_zero (fun t _ => by rw [hslot t]; rfl)
    have htorn : ∑ t, ((ticketOf s).slot t).torn = 0 := Finset.sum_eq_zero (fun t _ => by rw [hslot t]; rfl)
    have hcard : s.taken.card = (ticketOf s).finished := by
      have := hi.count
      rwa [hopen, htorn] at this
    constructor
    · unfold State.taken
      rw [Finset.sum_eq_zero (fun t _ => by rw [hn t]; rfl), add_zero]
    · have hcnt := hi.cnt
      rw [hopen, Nat.add_zero, ← hcard] at hcnt
      exact hcnt

theorem nodup_of_numbered {s : State} (h : Numbered s) : s.taken.Nodup :=
  Multiset.Nodup.of_map _ (by rw [h.1]; exact Multiset.nodup_range _)

/-- **The first read that is not alone** takes a number a second time. -/
theorem not_numbered_of_not_alone {E : Env} {m : Members} {b : Boxes} {s s' : State} {a : Act}
    (h : Reached E IncrAlone m b s) (hn : ¬ IncrAlone s a) (hs : step E s a = some s') : ¬ Numbered s' := by
  obtain ⟨t, ha, hread, u, htorn⟩ : ∃ t, a.sender? = some t ∧ (pos s t).any SendPc.reads = true ∧
      ∃ u, (pos s u).any SendPc.torn ≠ false := by
    by_contra hno
    push Not at hno
    exact hn hno
  obtain rfl := act_of_sender ha
  obtain ⟨lvl, msg, hp⟩ : ∃ lvl msg, pos s t = some (.read lvl msg) := by
    cases hp : pos s t with
    | none => rw [hp] at hread; cases hread
    | some p => rw [hp] at hread; cases p <;> first | exact ⟨_, _, rfl⟩ | cases hread
  obtain ⟨n, hu⟩ : ∃ n, (ticketOf s).slot u = .reading n := by
    unfold ticketOf
    cases hq : pos s u with
    | none => rw [hq] at htorn; exact absurd rfl htorn
    | some p => rw [hq] at htorn; cases p <;> first | exact ⟨_, by simp only [hq]; rfl⟩ | exact absurd rfl htorn
  obtain ⟨q, hsend, hpos⟩ := act_in_send hp hs
  have hidle : (ticketOf s).slot t = .idle := by simp [ticketOf, hp, slotOf, SendPc.slot]
  intro hnum
  refine Ticket.not_nodup_of_read (ticketInv h) hu hidle ?_
  rw [← ticketOf_read hsend hpos]
  exact nodup_of_numbered hnum

theorem reached_numbered_inTurn : ∃ s, Reached spdEnv IncrAlone (initMsgs 41) (initMsgs 41).shown s ∧
    s.mem.nums = [0, 1] ∧ Numbered s := by
  obtain ⟨s, hr, hnums, hcard⟩ := exists_reached IncrAlone (fun s => s.mem.nums = [0, 1] ∧ s.taken.card ≤ 2 ^ 32)
    (checkClick ++ toRead .sendThread ++ List.replicate 3 (.work .sendThread) ++ toRead .sendThread2 ++
      List.replicate 3 (.work .sendThread2)) (by decide +kernel)
  exact ⟨s, hr, hnums, reached_numbered hr hcard⟩

/-- Both workers read 0 before either writes. -/
theorem not_numbered_bothRead : ∃ s, Reached spdEnv Lts.anyStep (initMsgs 41) (initMsgs 41).shown s ∧
    s.mem.nums = [0, 0] ∧ s.taken.card ≤ 2 ^ 32 ∧ ¬ Numbered s := by
  obtain ⟨s, hr, hnums, hcard⟩ := exists_reached Lts.anyStep (fun s => s.mem.nums = [0, 0] ∧ s.taken.card ≤ 2 ^ 32)
    (checkClick ++ toRead .sendThread ++ toRead .sendThread2 ++ [.work .sendThread, .work .sendThread2] ++
      [.work .sendThread, .work .sendThread2] ++ [.work .sendThread, .work .sendThread2]) (by decide +kernel)
  refine ⟨s, hr, hnums, hcard, fun hn => ?_⟩
  have hsub : (s.mem.nums : Multiset UINT).Nodup :=
    Multiset.nodup_of_le (Multiset.le_add_right _ _) (nodup_of_numbered hn)
  rw [hnums] at hsub
  exact absurd hsub (by decide)

end LogMaker
