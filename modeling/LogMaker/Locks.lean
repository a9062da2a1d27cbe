import LogMaker.Senders
import LogMaker.Life
import LogMaker.Lib.Mutex
/-!
# Locks — which thread holds the mutex of which sink

A thread holds the mutex of the sink it is in, and no other (`held`).  In the callback sink a worker may be blocked in a
message to the GUI thread; nowhere else does a thread in a sink wait (`placed`).
-/
namespace LogMaker

def SendPc.owns : SendPc → Option Sink
  | .sink _ _ k _ _ => some k
  | _ => none

def owns (s : State) (t : Sender) : Option Sink := (pos s t).bind SendPc.owns

/-- What a thread may do in a sink: messages are sent only in the callback sink, and only by workers. -/
def SendPc.placed (t : Sender) : SendPc → Bool
  | .sink _ _ k _ .get | .sink _ _ k _ (.set _) => k = .callback && t ≠ .gui
  | .sink _ _ k _ (.got _) => k = .callback
  | _ => true

theorem owns_nextSink (lvl line : CString) (ks : List Sink) : (nextSink lvl line ks).owns = none := by
  cases ks <;> rfl

theorem placed_nextSink (t : Sender) (lvl line : CString) (ks : List Sink) : (nextSink lvl line ks).placed t = true := by
  cases ks <;> rfl

/-- What a step of a send does to the mutexes: none, a free one taken, or the one held released. -/
theorem sendStep_locks {E : Env} {t : Sender} {m m' : Mem} {p : SendPc} {q : Option SendPc}
    (h : sendStep E t m p = some (m', q)) :
    (m'.holder = m.holder ∧ q.bind SendPc.owns = p.owns) ∨
    (∃ k, m.holder k = none ∧ p.owns = none ∧ m'.holder = Function.update m.holder k (some t) ∧
      q.bind SendPc.owns = some k) ∨
    (∃ k, p.owns = some k ∧ m'.holder = Function.update m.holder k none ∧ q.bind SendPc.owns = none) := by
  cases sendStep_move h with
  | make => exact .inl ⟨rfl, owns_nextSink ..⟩
  | take lvl line k rest hk | wake lvl line k rest hk => exact .inr (.inl ⟨k, hk, rfl, rfl, rfl⟩)
  | release lvl line k rest => exact .inr (.inr ⟨k, rfl, rfl, owns_nextSink ..⟩)
  | _ => exact .inl ⟨rfl, rfl⟩

theorem answerStep_locks {m m' : Mem} {p p' : SendPc} (h : answerStep m p = some (m', p')) :
    m'.holder = m.holder ∧ p'.owns = p.owns := by
  cases answerStep_move h <;> exact ⟨rfl, rfl⟩

theorem owns_update (s : State) (t : Sender) (q : Option SendPc) :
    (fun u => (Function.update (pos s) t q u).bind SendPc.owns) = Function.update (owns s) t (q.bind SendPc.owns) := by
  funext u
  by_cases hu : u = t
  · subst hu; simp
  · simp [hu, owns]

theorem held_step {E : Env} {s s' : State} {a : Act} (hb : Basic s) (hi : Mutex.Held s.mem.holder (owns s))
    (h : step E s a = some s') : Mutex.Held s'.mem.holder (owns s') := by
  cases step_sender hb.ptrInv h with
  | send t p q ha hp hs hpos =>
    have hold : owns s t = p.owns := by simp [owns, hp]
    have hnew : owns s' = Function.update (owns s) t (q.bind SendPc.owns) := by
      rw [← owns_update, ← hpos]; rfl
    rw [hnew]
    rcases sendStep_locks hs with ⟨hm, hq⟩ | ⟨k, hk, hpn, hm, hq⟩ | ⟨k, hpk, hm, hq⟩
    · rw [hm]; exact hi.keep (hq.trans hold.symm)
    · rw [hm, hq]; exact hi.take hk (hold.trans hpn)
    · rw [hm, hq]; exact hi.release (hold.trans hpk)
  | call t lvl msg ha hp hm hpos =>
    have hnew : owns s' = Function.update (owns s) t none := by
      rw [← show (some (SendPc.read lvl msg)).bind SendPc.owns = none from rfl, ← owns_update, ← hpos]; rfl
    rw [hm, hnew]
    exact hi.keep (by simp [owns, hp])
  | answer w p p' ha hg hp hs hpos =>
    obtain ⟨hm, hq⟩ := answerStep_locks hs
    have hnew : owns s' = Function.update (owns s) (.worker w) p'.owns := by
      rw [← show (some p').bind SendPc.owns = p'.owns from rfl, ← owns_update, ← hpos]; rfl
    rw [hm, hnew]
    exact hi.keep (by simp [owns, hp, hq])
  | rest hm hpos =>
    obtain ⟨str, hm⟩ := hm
    have hnew : owns s' = owns s := by unfold owns; rw [hpos]
    rw [hm, hnew]
    exact hi

/-- **A thread holds the mutex of the sink it is in.** -/
theorem held {E : Env} {P : State → Act → Prop} {m : Members} {b : Boxes} {s : State} (h : Reached E P m b s) :
    Mutex.Held s.mem.holder (owns s) :=
  h.inv (fun k t => by cases t <;> exact ⟨fun h => (by cases h), fun h => (by cases h)⟩)
    (fun _ _ _ hu hi _ hs => held_step (basic hu) hi hs)

theorem sendStep_placed {E : Env} {t : Sender} {m m' : Mem} {p q : SendPc} (hp : p.placed t = true)
    (h : sendStep E t m p = some (m', some q)) : q.placed t = true := by
  cases sendStep_move h with
  | make | release => exact placed_nextSink ..
  | askSet w lvl line k rest str => simpa [SendPc.placed] using hp
  | _ => rfl

theorem answerStep_placed {t : Sender} {m m' : Mem} {p p' : SendPc} (hp : p.placed t = true)
    (h : answerStep m p = some (m', p')) : p'.placed t = true := by
  cases answerStep_move h with
  | get lvl line k rest => exact (Bool.and_eq_true_iff.1 hp).1
  | set => rfl

def Placed (s : State) : Prop := ∀ t p, pos s t = some p → p.placed t = true

theorem placed_step {E : Env} {s s' : State} {a : Act} (hb : Basic s) (hi : Placed s) (h : step E s a = some s') :
    Placed s' := by
  intro t q hq
  cases step_pos hb.ptrInv h t with
  | send p _ ha hp hs hpos =>
    rw [hq] at hpos
    subst hpos
    exact sendStep_placed (hi t p hp) hs
  | call lvl msg ha hp hpos =>
    rw [hq] at hpos
    cases hpos
    rfl
  | answer p p' hg hp hs hpos =>
    rw [hq] at hpos
    cases hpos
    exact answerStep_placed (hi t p hp) hs
  | same hpos => exact hi t q (hpos ▸ hq)

theorem placed {E : Env} {P : State → Act → Prop} {m : Members} {b : Boxes} {s : State} (h : Reached E P m b s) :
    Placed s :=
  h.inv (fun t p hp => by cases t <;> cases hp) (fun _ _ _ hu hi _ hs => placed_step (basic hu) hi hs)

end LogMaker
