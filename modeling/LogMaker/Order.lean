import LogMaker.Locks
import LogMaker.Lib.Ledger
/-!
# Order — the lines of each thread, at each sink

A line is made in `sendLogMsg1`, enters the sinks of the logger one after another, each under its mutex, and is logged
when `toSpdLog` returns.  `Passed` is a history of it: the lines made, the lines that have entered each sink, and those
whose call has returned, each with the thread it is of.  Whatever the interleaving, each of these has the lines of one
thread in the order the thread made them, none lost and none twice, and is behind by at most the line the thread is
sending (`reached_inOrder`).  Lines of different threads may enter two sinks in different orders.
-/
namespace LogMaker

open Lts (entriesOf)

variable {E : Env} {s s' : State} {a : Act} {t u : Sender}

/-- A level's name and a line. -/
abbrev Line := CString × CString

/-- What a line passes: the entry of a sink, and the return of its call. -/
inductive Stage where
  | enter (k : Sink)
  | ret
  deriving DecidableEq

/-- How often a line with these sinks before it will pass a stage. -/
def Stage.times : Stage → List Sink → Nat
  | .enter k, ks => ks.count k
  | .ret, _ => 1

/-- The line a thread is sending, as often as it is still to pass the stage. -/
def SendPc.ahead (st : Stage) : SendPc → List Line
  | .lock lvl line k rest | .wait lvl line k rest => List.replicate (st.times (k :: rest)) (lvl, line)
  | .sink lvl line _ rest _ => List.replicate (st.times rest) (lvl, line)
  | .ret lvl line => List.replicate (st.times []) (lvl, line)
  | _ => []

def ahead (st : Stage) (q : Option SendPc) : List Line := q.elim [] (SendPc.ahead st)

structure Passed where
  made : List (Sender × Line)
  passed : Stage → List (Sender × Line)

def Passed.none : Passed := ⟨[], fun _ => []⟩

def Passed.pass (o : Passed) (st : Stage) (x : Sender × Line) : Passed :=
  { o with passed := Function.update o.passed st (o.passed st ++ [x]) }

/-- What a step of thread `t` at a position of `sendLogMsg1` shows. -/
def Passed.send (t : Sender) (m : Mem) (p : SendPc) (o : Passed) : Passed := match p with
  | .make lvl msg n => { o with made := o.made ++ [(t, lvl, makeMsgBuf msg n)] }
  | .lock lvl line k _ | .wait lvl line k _ => if m.holder k = .none then o.pass (.enter k) (t, lvl, line) else o
  | .ret lvl line => o.pass .ret (t, lvl, line)
  | _ => o

def Passed.see (s : State) (a : Act) (o : Passed) : Passed :=
  match a.sender?.bind (fun t => (pos s t).map (t, ·)) with
  | some (t, p) => o.send t s.mem p
  | .none => o

/-- What a stage should have had of a thread's lines. -/
def Passed.asked (E : Env) (t : Sender) (st : Stage) (o : Passed) : List Line :=
  (entriesOf t o.made).flatMap (List.replicate (st.times E.sinks))

def Passed.done (t : Sender) (st : Stage) (o : Passed) : List Line := entriesOf t (o.passed st)

theorem ahead_nextSink (st : Stage) (lvl line : CString) (ks : List Sink) :
    (nextSink lvl line ks).ahead st = List.replicate (st.times ks) (lvl, line) := by
  cases ks <;> rfl

theorem done_pass (t : Sender) (st : Stage) (o : Passed) (x : Line) :
    (o.pass st (t, x)).done t st = o.done t st ++ [x] := by
  simp only [Passed.done, Passed.pass, Function.update_self, Lts.entriesOf_own]

theorem done_pass_other {st st' : Stage} (h : st' ≠ st) (t : Sender) (o : Passed) (x : Sender × Line) :
    (o.pass st' x).done t st = o.done t st := by
  simp only [Passed.done, Passed.pass, Function.update_of_ne (Ne.symm h)]

theorem done_send_other (h : u ≠ t) (m : Mem) (p : SendPc) (st : Stage) (o : Passed) :
    (o.send u m p).done t st = o.done t st ∧ (o.send u m p).asked E t st = o.asked E t st := by
  have hpass : ∀ (st' : Stage) (x : Line), (o.pass st' (u, x)).done t st = o.done t st := by
    intro st' x
    by_cases hs : st' = st
    · subst hs
      simp only [Passed.done, Passed.pass, Function.update_self, Lts.entriesOf_other h]
    · exact done_pass_other hs t o _
  cases p with
  | make lvl msg n =>
    refine ⟨rfl, ?_⟩
    simp only [Passed.asked, Passed.send, Lts.entriesOf_other h]
  | lock lvl line k rest | wait lvl line k rest =>
    simp only [Passed.send]
    split
    · exact ⟨hpass _ _, rfl⟩
    · exact ⟨rfl, rfl⟩
  | ret lvl line => exact ⟨hpass _ _, rfl⟩
  | _ => exact ⟨rfl, rfl⟩

theorem times_cons {st : Stage} {k : Sink} (h : Stage.enter k ≠ st) (ks : List Sink) :
    st.times (k :: ks) = st.times ks := by
  cases st with
  | enter j =>
    have hk : k ≠ j := fun hkj => h (by rw [hkj])
    exact List.count_cons_of_ne hk
  | ret => rfl

/-- What ties a stage's history to where the threads stand. -/
def StageMoves (E : Env) (t : Sender) (st : Stage) (s : State) (o : Passed) (s' : State) (o' : Passed) : Prop :=
  Lts.Moves (Passed.done t st) (Passed.asked E t st) (fun s => ahead st (pos s t)) s o s' o'

/-- A thread takes the mutex of the next sink: its line enters there. -/
theorem stage_take {p : SendPc} {lvl line : CString} {k : Sink} {rest : List Sink} (st : Stage) (o : Passed)
    (hp : pos s t = some p) (hold : p.ahead st = List.replicate (st.times (k :: rest)) (lvl, line))
    (hpos : pos s' t = some (.sink lvl line k rest .enter)) :
    StageMoves E t st s o s' (o.pass (.enter k) (t, lvl, line)) := by
  have hl : ahead st (pos s t) = List.replicate (st.times (k :: rest)) (lvl, line) := by rw [hp]; exact hold
  have hr : ahead st (pos s' t) = List.replicate (st.times rest) (lvl, line) := by rw [hpos]; rfl
  by_cases hst : Stage.enter k = st
  · subst hst
    apply Lts.Moves.one (lvl, line)
    · exact done_pass ..
    · rfl
    · rw [hl, hr, ← List.replicate_succ]
      simp [Stage.times]
  · apply Lts.Moves.keep
    · exact done_pass_other hst ..
    · rfl
    · rw [hl, hr, times_cons hst]

/-- The balance of a step of the thread itself, at one stage. -/
theorem stage_send {p : SendPc} {q : Option SendPc} (hp : pos s t = some p)
    (hs : sendStep E t s.mem p = some (s'.mem, q)) (hpos : pos s' t = q) (st : Stage) (o : Passed) :
    StageMoves E t st s o s' (o.send t s.mem p) := by
  have hkeep : p.ahead st = ahead st q → o.send t s.mem p = o → StageMoves E t st s o s' (o.send t s.mem p) := by
    intro hl ho
    rw [ho]
    exact .keep rfl rfl (by rw [hp, hpos, ← hl]; rfl)
  generalize hm : s'.mem = m' at hs
  cases sendStep_move hs with
  | make lvl msg n =>
    apply Lts.Moves.ask
    · rfl
    · rw [hp]; rfl
    · rw [hpos]
      simp only [ahead, Option.elim_some, ahead_nextSink, Passed.asked, Passed.send, Lts.entriesOf_own,
        List.flatMap_append, List.flatMap_singleton]
  | take lvl line k rest hk | wake lvl line k rest hk =>
    have htake := stage_take (E := E) st o hp rfl hpos
    simpa only [Passed.send, if_pos hk] using htake
  | block lvl line k rest hk => exact hkeep rfl (by simp only [Passed.send, if_neg hk])
  | release lvl line k rest =>
    refine hkeep ?_ rfl
    simp only [ahead, Option.elim_some, ahead_nextSink]
    rfl
  | ret lvl line =>
    by_cases hst : Stage.ret = st
    · subst hst
      apply Lts.Moves.one (lvl, line)
      · exact done_pass ..
      · rfl
      · rw [hp, hpos]; rfl
    · apply Lts.Moves.keep
      · exact done_pass_other hst ..
      · rfl
      · rw [hp, hpos]
        cases st with
        | enter j => rfl
        | ret => exact absurd rfl hst
  | _ => exact hkeep rfl rfl

theorem answerStep_stages {m m' : Mem} {p p' : SendPc} (h : answerStep m p = some (m', p')) :
    m'.delivered = m.delivered ∧ m'.logged = m.logged ∧ ∀ st, ahead st (some p') = ahead st (some p) := by
  cases answerStep_move h <;> exact ⟨rfl, rfl, fun _ => rfl⟩

/-- What a step shows: one of a thread in `sendLogMsg1`, or nothing, leaving the lines on their way where they are. -/
theorem see_cases (hb : Basic s) (h : step E s a = some s') (o : Passed) :
    (∃ t p q, pos s t = some p ∧ sendStep E t s.mem p = some (s'.mem, q) ∧ pos s' = Function.update (pos s) t q ∧
      o.see s a = o.send t s.mem p) ∨
    (o.see s a = o ∧ s'.mem.delivered = s.mem.delivered ∧ s'.mem.logged = s.mem.logged ∧
      ∀ t st, ahead st (pos s' t) = ahead st (pos s t)) := by
  have hother : ∀ (t : Sender) (q : Option SendPc), pos s' = Function.update (pos s) t q →
      (∀ st, ahead st q = ahead st (pos s t)) → ∀ u st, ahead st (pos s' u) = ahead st (pos s u) := by
    intro t q hpos hq u st
    rw [hpos]
    by_cases hu : u = t
    · subst hu; rw [Function.update_self, hq]
    · rw [Function.update_of_ne hu]
  cases hx : a.sender?.bind (fun t => (pos s t).map (t, ·)) with
  | some x =>
    obtain ⟨t, ht, hmap⟩ := Option.bind_eq_some_iff.1 hx
    obtain ⟨p, hp, hxp⟩ := Option.map_eq_some_iff.1 hmap
    subst hxp
    obtain rfl := act_of_sender ht
    obtain ⟨q, hs, hpos⟩ := act_in_send hp h
    exact .inl ⟨t, p, q, hp, hs, hpos, by simp only [Passed.see, hx]⟩
  | none =>
    have ho : o.see s a = o := by simp only [Passed.see, hx]
    right
    cases step_sender hb.ptrInv h with
    | send t p q ha hp hs hpos => subst ha; simp [sender?_act, hp] at hx
    | call t lvl msg ha hp hm hpos =>
      exact ⟨ho, by rw [hm], by rw [hm], hother t _ hpos (fun st => by rw [hp]; rfl)⟩
    | answer w p p' ha hg hp hs hpos =>
      obtain ⟨hd, hl, hahead⟩ := answerStep_stages hs
      exact ⟨ho, hd, hl, hother _ _ hpos (fun st => by rw [hp]; exact hahead st)⟩
    | rest hm hpos =>
      obtain ⟨str, hm⟩ := hm
      exact ⟨ho, by rw [hm], by rw [hm], fun t st => by rw [hpos]⟩

theorem stage_step (hb : Basic s) (h : step E s a = some s') (t : Sender) (st : Stage) (o : Passed) :
    StageMoves E t st s o s' (o.see s a) := by
  rcases see_cases hb h o with ⟨u, p, q, hp, hs, hpos, ho⟩ | ⟨ho, -, -, hl⟩
  · rw [ho]
    by_cases hu : u = t
    · subst hu
      exact stage_send hp hs (by rw [hpos, Function.update_self]) st o
    · obtain ⟨hd, hx⟩ := done_send_other (E := E) hu s.mem p st o
      exact .keep hd hx (by rw [hpos, Function.update_of_ne (Ne.symm hu)])
  · rw [ho]
    exact .keep rfl rfl (hl t st)

/-- What the callback sink was handed, and what has been logged, as the two histories of `Mem` have them. -/
structure Passed.Kept (E : Env) (m : Mem) (o : Passed) : Prop where
  delivered : m.delivered = (o.passed (.enter .callback)).map (fun x => payloadOf E x.2.1 x.2.2)
  logged : m.logged = (o.passed .ret).map (fun x => toSpdLog x.2.1 x.2.2)

theorem kept_take {m : Mem} {o : Passed} (hk : o.Kept E m) (t : Sender) (lvl line : CString) (k : Sink) :
    (o.pass (.enter k) (t, lvl, line)).Kept E (m.take E t lvl line k) := by
  refine ⟨?_, ?_⟩
  · by_cases hkc : k = .callback
    · subst hkc
      simp [Mem.take, Passed.pass, hk.delivered]
    · have hne : Stage.enter .callback ≠ .enter k := fun h => hkc (by cases h; rfl)
      simp only [Mem.take, if_neg hkc, Passed.pass, Function.update_of_ne hne, hk.delivered]
  · exact hk.logged

theorem kept_send {m m' : Mem} {p : SendPc} {q : Option SendPc} (hs : sendStep E t m p = some (m', q)) {o : Passed}
    (hk : o.Kept E m) : (o.send t m p).Kept E m' := by
  cases sendStep_move hs with
  | take lvl line k rest hfree | wake lvl line k rest hfree =>
    simpa only [Passed.send, if_pos hfree] using kept_take hk t lvl line k
  | block lvl line k rest hheld => simpa only [Passed.send, if_neg hheld] using hk
  | ret lvl line =>
    refine ⟨hk.delivered, ?_⟩
    simp [Passed.send, Passed.pass, hk.logged]
  | _ => exact ⟨hk.delivered, hk.logged⟩

theorem kept_passed_step (hb : Basic s) (h : step E s a = some s') {o : Passed} (hk : o.Kept E s.mem) :
    (o.see s a).Kept E s'.mem := by
  rcases see_cases hb h o with ⟨u, p, q, hp, hs, hpos, ho⟩ | ⟨ho, hd, hl, -⟩
  · rw [ho]
    exact kept_send hs hk
  · rw [ho]
    exact ⟨hd.trans hk.delivered, hl.trans hk.logged⟩

/-! ## The sinks ahead -/

/-- The sinks a line has still to enter. -/
def SendPc.before : SendPc → List Sink
  | .lock _ _ k rest | .wait _ _ k rest => k :: rest
  | .sink _ _ _ rest _ => rest
  | _ => []

/-- A line has still to enter the last of the logger's sinks. -/
def SinksLeft (E : Env) (s : State) : Prop := ∀ t p, pos s t = some p → p.before <:+ E.sinks

theorem before_nextSink (lvl line : CString) (ks : List Sink) : (nextSink lvl line ks).before = ks := by
  cases ks <;> rfl

theorem sendStep_before {m m' : Mem} {p q : SendPc} (h : sendStep E t m p = some (m', some q))
    (hp : p.before <:+ E.sinks) : q.before <:+ E.sinks := by
  cases sendStep_move h with
  | make => rw [before_nextSink]
  | release => rw [before_nextSink]; exact hp
  | take lvl line k rest | wake lvl line k rest => exact (List.suffix_cons k rest).trans hp
  | _ => exact hp

theorem answerStep_before {m m' : Mem} {p p' : SendPc} (h : answerStep m p = some (m', p')) : p'.before = p.before := by
  cases answerStep_move h <;> rfl

theorem sinksLeft_step (hb : Basic s) (hi : SinksLeft E s) (h : step E s a = some s') : SinksLeft E s' := by
  intro t q hq
  cases step_pos hb.ptrInv h t with
  | send p r ha hp hs hpos =>
    rw [hq] at hpos
    subst hpos
    exact sendStep_before hs (hi t p hp)
  | call lvl msg ha hp hpos =>
    rw [hq] at hpos
    cases hpos
    exact List.nil_suffix
  | answer p p' hg hp hs hpos =>
    rw [hq] at hpos
    cases hpos
    rw [answerStep_before hs]
    exact hi t p hp
  | same hpos => exact hi t q (hpos ▸ hq)

theorem sinksLeft {P : State → Act → Prop} {m : Members} {b : Boxes} (h : Reached E P m b s) : SinksLeft E s :=
  h.inv (fun t p hp => by cases t <;> cases hp) (fun _ _ _ hu hi _ hs => sinksLeft_step (basic hu) hi hs)

/-- A sink that is in the logger once is before a line at most once. -/
theorem length_ahead_le (hi : SinksLeft E s) (hnd : E.sinks.Nodup) (t : Sender) (k : Sink) :
    (ahead (.enter k) (pos s t)).length ≤ 1 := by
  cases hp : pos s t with
  | none => exact Nat.zero_le 1
  | some p =>
    have hcount : p.before.count k ≤ 1 := List.nodup_iff_count_le_one.1 (hnd.sublist (hi t p hp).sublist) k
    cases p with
    | lock | wait | sink => simpa [ahead, SendPc.ahead, SendPc.before, Stage.times] using hcount
    | _ => exact Nat.zero_le 1

section
variable {m : Members} {b : Boxes} {Q : State × Passed → Act → Prop} {p : State × Passed}

/-- What has passed a stage and what is ahead of it is what was made. -/
theorem passed_append_ahead (h : ReachedWith E Passed.see .none Q m b p) (t : Sender) (st : Stage) :
    entriesOf t (p.2.passed st) ++ ahead st (pos p.1 t) =
      (entriesOf t p.2.made).flatMap (List.replicate (st.times E.sinks)) := by
  refine h.balance (Passed.done t st) (Passed.asked E t st) (fun s => ahead st (pos s t)) ?_ (fun u a v hu hs => ?_)
  · cases t <;> rfl
  · exact stage_step (basic hu.of_watch) hs t st u.2

theorem entered_append_ahead (h : ReachedWith E Passed.see .none Q m b p) (hnd : E.sinks.Nodup) (t : Sender) {k : Sink}
    (hk : k ∈ E.sinks) :
    entriesOf t (p.2.passed (.enter k)) ++ ahead (.enter k) (pos p.1 t) = entriesOf t p.2.made := by
  have hone : (Stage.enter k).times E.sinks = 1 := List.count_eq_one_of_mem hnd hk
  rw [passed_append_ahead h t (.enter k), hone]
  exact List.flatMap_singleton' _

/-- **The lines of a thread pass every stage in the order it made them**: at each sink, and at the return of their
calls, a thread's lines are those it has made, in order and each as often as the logger has the sink, but for the line
it is sending; and the log box's history and the finished calls are these lines.  So where every sink is in the logger
once, a sink is never more than one line of a thread behind, and not at all while the thread is in no send. -/
theorem reached_inOrder (h : ReachedWith E Passed.see .none Q m b p) :
    (∀ t st, entriesOf t (p.2.passed st) ++ ahead st (pos p.1 t) =
      (entriesOf t p.2.made).flatMap (List.replicate (st.times E.sinks))) ∧
    p.1.mem.delivered = (p.2.passed (.enter .callback)).map (fun x => payloadOf E x.2.1 x.2.2) ∧
    p.1.mem.logged = (p.2.passed .ret).map (fun x => toSpdLog x.2.1 x.2.2) ∧
    (E.sinks.Nodup → ∀ t, ∀ k ∈ E.sinks,
      entriesOf t (p.2.passed (.enter k)) <+: entriesOf t p.2.made ∧
      (entriesOf t p.2.made).length ≤ (entriesOf t (p.2.passed (.enter k))).length + 1 ∧
      (pos p.1 t = .none → entriesOf t (p.2.passed (.enter k)) = entriesOf t p.2.made)) := by
  have hkept : p.2.Kept E p.1.mem := by
    refine h.inv (I := fun p => p.2.Kept E p.1.mem) ⟨rfl, rfl⟩ (fun u a v hu hi _ huv => ?_)
    obtain ⟨hs, ho⟩ := Lts.watch_eq_some.1 huv
    rw [ho]
    exact kept_passed_step (basic hu.of_watch) hs hi
  refine ⟨passed_append_ahead h, hkept.delivered, hkept.logged, fun hnd t k hk => ?_⟩
  have hmade := entered_append_ahead h hnd t hk
  have hlen := length_ahead_le (sinksLeft h.of_watch) hnd t k
  refine ⟨⟨_, hmade⟩, ?_, fun hnone => ?_⟩
  · rw [← hmade, List.length_append]
    omega
  · rw [← hmade, hnone]
    exact (List.append_nil _).symm

end

/-- `sendThread2` overtakes `sendThread` between two sinks: the console has their lines in the other order than the file
will, each thread's own being in order at both. -/
theorem reached_inOrder_overtaken : ∃ p : State × Passed,
    ReachedWith spdEnv Passed.see .none Lts.anyStep (initMsgs 41) (initMsgs 41).shown p ∧
    ((p.2.passed (.enter .console)).map Prod.fst = [.worker .sendThread, .worker .sendThread2] ∧
      (p.2.passed (.enter .file)).map Prod.fst = [.worker .sendThread2]) ∧
    ∀ t, ∀ k ∈ spdEnv.sinks, entriesOf t (p.2.passed (.enter k)) <+: entriesOf t p.2.made ∧
      (entriesOf t p.2.made).length ≤ (entriesOf t (p.2.passed (.enter k))).length + 1 ∧
      (pos p.1 t = .none → entriesOf t (p.2.passed (.enter k)) = entriesOf t p.2.made) := by
  obtain ⟨p, hp, hF⟩ := exists_reachedWith Passed.see .none
    (fun p => (p.2.passed (.enter .console)).map Prod.fst = [.worker .sendThread, .worker .sendThread2] ∧
      (p.2.passed (.enter .file)).map Prod.fst = [.worker .sendThread2])
    (checkClick ++ toRead .sendThread ++ List.replicate 6 (.work .sendThread) ++ toRead .sendThread2 ++
      List.replicate 7 (.work .sendThread2)) (by decide +kernel)
  exact ⟨p, hp, hF, (reached_inOrder hp).2.2.2 (by decide)⟩

end LogMaker
