import LogMaker.Lib.Lts
import Mathlib.Algebra.BigOperators.Group.Finset.Piecewise
import Mathlib.Data.Multiset.Range
/-!
# Ticket — threads numbering their work from one plain counter

Any number of threads take numbers from a counter of `w` bits: a `read`, and later a `write` of the value plus one.
A thread then hands its number on (`pass`) and finishes the work it numbered (`finish`).  While no thread reads between
another one's read and write (`Alone`), the numbers taken are `0, 1, 2, …`, each once (`inv`), and the counter is the
work finished plus the work numbered and not finished (`cnt_eq`).
-/
namespace Ticket

/-- Where a thread stands with its number. -/
inductive Slot (w : Nat) where
  | idle
  | reading (n : BitVec w)
  | held (n : BitVec w)
  | passed

inductive Act (T : Type) where
  | read (t : T)
  | write (t : T)
  | pass (t : T)
  | finish (t : T)

structure State (T : Type) (w : Nat) where
  cnt : BitVec w
  slot : T → Slot w
  nums : List (BitVec w)
  finished : Nat

variable {T : Type} [DecidableEq T] {w : Nat}

def step (s : State T w) : Act T → Option (State T w)
  | .read t => match s.slot t with
    | .idle => some { s with slot := Function.update s.slot t (.reading s.cnt) }
    | _ => none
  | .write t => match s.slot t with
    | .reading n => some { s with cnt := n + 1, slot := Function.update s.slot t (.held n) }
    | _ => none
  | .pass t => match s.slot t with
    | .held n => some { s with slot := Function.update s.slot t .passed, nums := s.nums ++ [n] }
    | _ => none
  | .finish t => match s.slot t with
    | .passed => some { s with slot := Function.update s.slot t .idle, finished := s.finished + 1 }
    | _ => none

theorem step_read {s : State T w} {t : T} (h : s.slot t = .idle) :
    step s (.read t) = some { s with slot := Function.update s.slot t (.reading s.cnt) } := by simp [step, h]

theorem step_write {s : State T w} {t : T} {n : BitVec w} (h : s.slot t = .reading n) :
    step s (.write t) = some { s with cnt := n + 1, slot := Function.update s.slot t (.held n) } := by simp [step, h]

theorem step_pass {s : State T w} {t : T} {n : BitVec w} (h : s.slot t = .held n) :
    step s (.pass t) = some { s with slot := Function.update s.slot t .passed, nums := s.nums ++ [n] } := by simp [step, h]

theorem step_finish {s : State T w} {t : T} (h : s.slot t = .passed) :
    step s (.finish t) = some { s with slot := Function.update s.slot t .idle, finished := s.finished + 1 } := by
  simp [step, h]

/-- What each action needs of its thread, and what it does. -/
inductive Move (s : State T w) : Act T → State T w → Prop where
  | read (t : T) (ht : s.slot t = .idle) : Move s (.read t) { s with slot := Function.update s.slot t (.reading s.cnt) }
  | write (t : T) (n : BitVec w) (ht : s.slot t = .reading n) :
      Move s (.write t) { s with cnt := n + 1, slot := Function.update s.slot t (.held n) }
  | pass (t : T) (n : BitVec w) (ht : s.slot t = .held n) :
      Move s (.pass t) { s with slot := Function.update s.slot t .passed, nums := s.nums ++ [n] }
  | finish (t : T) (ht : s.slot t = .passed) :
      Move s (.finish t) { s with slot := Function.update s.slot t .idle, finished := s.finished + 1 }

theorem step_move {s s' : State T w} {a : Act T} (h : step s a = some s') : Move s a s' := by
  cases a with
  | read t | write t | pass t | finish t =>
    simp only [step] at h
    split at h
    · cases h
      constructor
      assumption
    · cases h

def State.init : State T w := { cnt := 0, slot := fun _ => .idle, nums := [], finished := 0 }

/-- No thread reads while another is between its read and its write. -/
def Alone (s : State T w) : Act T → Prop
  | .read _ => ∀ u n, s.slot u ≠ .reading n
  | _ => True

/-- The number a thread took and has not handed on. -/
def Slot.number : Slot w → Multiset (BitVec w)
  | .reading n | .held n => {n}
  | _ => 0

/-- Whether a thread's work is counted and not finished. -/
def Slot.open : Slot w → Nat
  | .held _ | .passed => 1
  | _ => 0

def Slot.torn : Slot w → Nat
  | .reading _ => 1
  | _ => 0

@[simp] theorem number_idle : (Slot.idle : Slot w).number = 0 := rfl
@[simp] theorem number_reading (n : BitVec w) : (Slot.reading n).number = {n} := rfl
@[simp] theorem number_held (n : BitVec w) : (Slot.held n).number = {n} := rfl
@[simp] theorem number_passed : (Slot.passed : Slot w).number = 0 := rfl
@[simp] theorem open_idle : (Slot.idle : Slot w).open = 0 := rfl
@[simp] theorem open_reading (n : BitVec w) : (Slot.reading n).open = 0 := rfl
@[simp] theorem open_held (n : BitVec w) : (Slot.held n).open = 1 := rfl
@[simp] theorem open_passed : (Slot.passed : Slot w).open = 1 := rfl
@[simp] theorem torn_idle : (Slot.idle : Slot w).torn = 0 := rfl
@[simp] theorem torn_reading (n : BitVec w) : (Slot.reading n).torn = 1 := rfl
@[simp] theorem torn_held (n : BitVec w) : (Slot.held n).torn = 0 := rfl
@[simp] theorem torn_passed : (Slot.passed : Slot w).torn = 0 := rfl

def firstNumbers (w n : Nat) : Multiset (BitVec w) := (Multiset.range n).map (BitVec.ofNat w)

variable [Fintype T]

/-- The numbers taken so far, handed on or not. -/
def State.taken (s : State T w) : Multiset (BitVec w) := (s.nums : Multiset (BitVec w)) + ∑ t, (s.slot t).number

/-- What holds while every read is alone: the numbers taken are the first ones, the counter is the number of finished
reads, and a thread between its read and its write is the only one and has the counter's value. -/
structure Inv (s : State T w) : Prop where
  taken : s.taken = firstNumbers w s.taken.card
  count : s.taken.card = s.finished + ∑ t, (s.slot t).open + ∑ t, (s.slot t).torn
  cnt : s.cnt = BitVec.ofNat w (s.finished + ∑ t, (s.slot t).open)
  reading : ∀ t n, s.slot t = .reading n → n = s.cnt ∧ ∀ u m, s.slot u = .reading m → u = t

theorem sum_update {M : Type} [AddCommMonoid M] (f : Slot w → M) (slot : T → Slot w) (t : T) (x : Slot w) :
    f (slot t) + ∑ u, f (Function.update slot t x u) = f x + ∑ u, f (slot u) := by
  have h : ∀ u, f (Function.update slot t x u) = Function.update (fun u => f (slot u)) t (f x) u := by
    intro u
    by_cases hu : u = t
    · subst hu; simp
    · simp [hu]
  simp only [h]
  rw [Finset.sum_update_of_mem (Finset.mem_univ t), ← Finset.add_sum_erase _ _ (Finset.mem_univ t)]
  rw [Finset.sdiff_singleton_eq_erase]
  exact add_left_comm _ _ _

omit [DecidableEq T] in
theorem sum_torn_eq_zero {slot : T → Slot w} (h : ∀ t n, slot t ≠ .reading n) : ∑ t, (slot t).torn = 0 := by
  apply Finset.sum_eq_zero
  intro t _
  cases ht : slot t with
  | reading n => exact absurd ht (h t n)
  | _ => rfl

theorem firstNumbers_succ (w n : Nat) : firstNumbers w (n + 1) = {BitVec.ofNat w n} + firstNumbers w n := by
  unfold firstNumbers
  rw [Multiset.range_succ, Multiset.map_cons, Multiset.singleton_add]

omit [DecidableEq T] in
theorem inv_init : Inv (State.init : State T w) := by
  have ht : (State.init : State T w).taken = 0 := by simp [State.taken, State.init]
  refine ⟨?_, ?_, ?_, ?_⟩
  · rw [ht]; rfl
  · rw [ht]; simp [State.init]
  · simp [State.init]
  · intro t n h; cases h

/-! ## The numbers taken, step by step -/

theorem taken_read {s : State T w} {t : T} (ht : s.slot t = .idle) :
    State.taken { s with slot := Function.update s.slot t (.reading s.cnt) } = {s.cnt} + s.taken := by
  have hn := sum_update Slot.number s.slot t (.reading s.cnt)
  rw [ht, number_idle, zero_add, number_reading] at hn
  unfold State.taken
  rw [hn, add_left_comm]

theorem taken_write {s : State T w} {t : T} {n : BitVec w} (ht : s.slot t = .reading n) :
    State.taken { s with cnt := n + 1, slot := Function.update s.slot t (.held n) } = s.taken := by
  have hn := sum_update Slot.number s.slot t (.held n)
  rw [ht, number_reading, number_held] at hn
  unfold State.taken
  rw [add_left_cancel hn]

theorem taken_pass {s : State T w} {t : T} {n : BitVec w} (ht : s.slot t = .held n) :
    State.taken { s with slot := Function.update s.slot t .passed, nums := s.nums ++ [n] } = s.taken := by
  have hn := sum_update Slot.number s.slot t .passed
  rw [ht, number_held, number_passed, zero_add] at hn
  unfold State.taken
  rw [← hn, ← Multiset.coe_add, add_assoc]
  rfl

theorem taken_finish {s : State T w} {t : T} (ht : s.slot t = .passed) :
    State.taken { s with slot := Function.update s.slot t .idle, finished := s.finished + 1 } = s.taken := by
  have hn := sum_update Slot.number s.slot t .idle
  rw [ht, number_passed, number_idle, zero_add, zero_add] at hn
  unfold State.taken
  rw [hn]

omit [Fintype T] in
/-- A thread that is reading after another one's slot has changed was reading before. -/
theorem reading_of_update {slot : T → Slot w} {t u : T} {x : Slot w} {m : BitVec w} (hx : x.torn = 0)
    (h : Function.update slot t x u = .reading m) : slot u = .reading m ∧ u ≠ t := by
  by_cases hut : u = t
  · subst hut
    rw [Function.update_self] at h
    rw [h] at hx
    cases hx
  · rw [Function.update_of_ne hut] at h
    exact ⟨h, hut⟩

/-! ## While every read is alone -/

theorem inv_read {s : State T w} {t : T} (h : Inv s) (ha : Alone s (.read t)) (ht : s.slot t = .idle) :
    Inv { s with slot := Function.update s.slot t (.reading s.cnt) } := by
  have ho : ∑ u, (Function.update s.slot t (.reading s.cnt) u).open = ∑ u, (s.slot u).open := by
    simpa [ht] using sum_update Slot.open s.slot t (.reading s.cnt)
  have hr : ∑ u, (Function.update s.slot t (.reading s.cnt) u).torn = 1 + ∑ u, (s.slot u).torn := by
    simpa [ht] using sum_update Slot.torn s.slot t (.reading s.cnt)
  have hz := sum_torn_eq_zero ha
  have hcard := h.count
  rw [hz, Nat.add_zero] at hcard
  refine ⟨?_, ?_, ?_, ?_⟩
  · rw [taken_read ht, Multiset.card_add, Multiset.card_singleton, Nat.add_comm, firstNumbers_succ, ← h.taken, h.cnt,
      hcard]
  · rw [taken_read ht, Multiset.card_add, Multiset.card_singleton]
    simp only [ho, hr, hz]
    omega
  · simp only [ho]; exact h.cnt
  · intro u n hu
    by_cases hut : u = t
    · subst hut
      simp only [Function.update_self, Slot.reading.injEq] at hu
      refine ⟨hu.symm, fun v m hv => ?_⟩
      by_cases hvu : v = u
      · exact hvu
      · simp only [Function.update_of_ne hvu] at hv
        exact absurd hv (ha v m)
    · simp only [Function.update_of_ne hut] at hu
      exact absurd hu (ha u n)

theorem inv_write {s : State T w} {t : T} {n : BitVec w} (h : Inv s) (ht : s.slot t = .reading n) :
    Inv { s with cnt := n + 1, slot := Function.update s.slot t (.held n) } := by
  have ho : ∑ u, (Function.update s.slot t (.held n) u).open = 1 + ∑ u, (s.slot u).open := by
    simpa [ht] using sum_update Slot.open s.slot t (.held n)
  have hr : 1 + ∑ u, (Function.update s.slot t (.held n) u).torn = ∑ u, (s.slot u).torn := by
    simpa [ht] using sum_update Slot.torn s.slot t (.held n)
  have hcard := h.count
  obtain ⟨hcnt, huniq⟩ := h.reading t n ht
  refine ⟨?_, ?_, ?_, ?_⟩
  · rw [taken_write ht]; exact h.taken
  · rw [taken_write ht]; simp only [ho]; omega
  · simp only [ho]
    rw [hcnt, h.cnt, Nat.add_comm 1, ← Nat.add_assoc, BitVec.ofNat_add (_ + _) 1]
    rfl
  · intro u m hu
    obtain ⟨hold, hut⟩ := reading_of_update rfl hu
    exact absurd (huniq u m hold) hut

theorem inv_pass {s : State T w} {t : T} {n : BitVec w} (h : Inv s) (ht : s.slot t = .held n) :
    Inv { s with slot := Function.update s.slot t .passed, nums := s.nums ++ [n] } := by
  have ho : ∑ u, (Function.update s.slot t .passed u).open = ∑ u, (s.slot u).open := by
    simpa [ht] using sum_update Slot.open s.slot t .passed
  have hr : ∑ u, (Function.update s.slot t .passed u).torn = ∑ u, (s.slot u).torn := by
    simpa [ht] using sum_update Slot.torn s.slot t .passed
  have hcard := h.count
  refine ⟨?_, ?_, ?_, ?_⟩
  · rw [taken_pass ht]; exact h.taken
  · rw [taken_pass ht]; simp only [hr]; omega
  · have hcnt := h.cnt
    rw [← ho] at hcnt
    exact hcnt
  · intro u m hu
    obtain ⟨hold, -⟩ := reading_of_update rfl hu
    obtain ⟨hm, huniq⟩ := h.reading u m hold
    exact ⟨hm, fun v k hv => huniq v k (reading_of_update rfl hv).1⟩

theorem inv_finish {s : State T w} {t : T} (h : Inv s) (ht : s.slot t = .passed) :
    Inv { s with slot := Function.update s.slot t .idle, finished := s.finished + 1 } := by
  have ho : 1 + ∑ u, (Function.update s.slot t .idle u).open = ∑ u, (s.slot u).open := by
    simpa [ht] using sum_update Slot.open s.slot t .idle
  have hr : ∑ u, (Function.update s.slot t .idle u).torn = ∑ u, (s.slot u).torn := by
    simpa [ht] using sum_update Slot.torn s.slot t .idle
  have hcard := h.count
  refine ⟨?_, ?_, ?_, ?_⟩
  · rw [taken_finish ht]; exact h.taken
  · rw [taken_finish ht]; simp only [hr]; omega
  · have hcnt := h.cnt
    rw [← ho, ← Nat.add_assoc] at hcnt
    exact hcnt
  · intro u m hu
    obtain ⟨hold, -⟩ := reading_of_update rfl hu
    obtain ⟨hm, huniq⟩ := h.reading u m hold
    exact ⟨hm, fun v k hv => huniq v k (reading_of_update rfl hv).1⟩

theorem inv_step {s s' : State T w} {a : Act T} (h : Inv s) (ha : Alone s a) (hs : step s a = some s') : Inv s' := by
  cases step_move hs with
  | read t ht => exact inv_read h ha ht
  | write t n ht => exact inv_write h ht
  | pass t n ht => exact inv_pass h ht
  | finish t ht => exact inv_finish h ht

/-- **While every read is alone**, the invariant holds. -/
theorem inv {s : State T w} (h : Lts.Reach step Alone State.init s) : Inv s :=
  h.inv inv_init (fun _ _ _ _ hi ha hs => inv_step hi ha hs)

/-- A read that is not alone takes a number a second time. -/
theorem not_nodup_of_read {s : State T w} {t u : T} {n : BitVec w} (h : Inv s) (hu : s.slot u = .reading n)
    (ht : s.slot t = .idle) :
    ¬ (State.taken { s with slot := Function.update s.slot t (.reading s.cnt) }).Nodup := by
  rw [taken_read ht, Multiset.singleton_add, Multiset.nodup_cons]
  rintro ⟨hnew, -⟩
  apply hnew
  have hn : s.cnt ∈ (s.slot u).number := by rw [hu, (h.reading u n hu).1]; exact Multiset.mem_singleton_self _
  exact Multiset.mem_add.2 (.inr (Multiset.mem_sum.2 ⟨u, Finset.mem_univ u, hn⟩))

theorem toNat_succ_le (n : BitVec w) : (n + 1).toNat ≤ n.toNat + 1 := by
  rw [BitVec.toNat_add]
  have hmod := Nat.mod_le (n.toNat + (1 : BitVec w).toNat) (2 ^ w)
  have hone : (1 : BitVec w).toNat ≤ 1 := by
    rw [BitVec.ofNat_eq_ofNat, BitVec.toNat_ofNat]
    exact Nat.mod_le _ _
  omega

/-- In any run the counter is at most the numbers taken, and so is what a read number will be written back as. -/
theorem cnt_le_card {s : State T w} (h : Lts.Reach step Lts.anyStep State.init s) :
    s.cnt.toNat ≤ s.taken.card ∧ ∀ t n, s.slot t = .reading n → n.toNat + 1 ≤ s.taken.card := by
  refine h.inv (I := fun s => s.cnt.toNat ≤ s.taken.card ∧ ∀ t n, s.slot t = .reading n → n.toNat + 1 ≤ s.taken.card)
    ⟨by simp [State.init], fun _ _ hr => by cases hr⟩ (fun u a v _ hi _ hs => ?_)
  obtain ⟨hcnt, hread⟩ := hi
  cases step_move hs with
  | read t ht =>
    rw [taken_read ht, Multiset.card_add, Multiset.card_singleton]
    refine ⟨Nat.le_add_left_of_le hcnt, fun x n hx => ?_⟩
    by_cases hxt : x = t
    · subst hxt
      simp only [Function.update_self, Slot.reading.injEq] at hx
      subst hx
      omega
    · simp only [Function.update_of_ne hxt] at hx
      have hold := hread x n hx
      omega
  | write t n ht =>
    rw [taken_write ht]
    exact ⟨(toNat_succ_le n).trans (hread t n ht), fun x m hx => hread x m (reading_of_update rfl hx).1⟩
  | pass t n ht =>
    rw [taken_pass ht]
    exact ⟨hcnt, fun x m hx => hread x m (reading_of_update rfl hx).1⟩
  | finish t ht =>
    rw [taken_finish ht]
    exact ⟨hcnt, fun x m hx => hread x m (reading_of_update rfl hx).1⟩

/-- No number is given back. -/
theorem taken_mono {s s' : State T w} (h : Lts.Reach step Lts.anyStep s s') : s.taken.card ≤ s'.taken.card := by
  refine h.inv (I := fun u => s.taken.card ≤ u.taken.card) (Nat.le_refl _) (fun u a v _ hi _ hs => ?_)
  cases step_move hs with
  | read t ht =>
    rw [taken_read ht, Multiset.card_add]
    exact Nat.le_add_left_of_le hi
  | write t n ht => rwa [taken_write ht]
  | pass t n ht => rwa [taken_pass ht]
  | finish t ht => rwa [taken_finish ht]

theorem toNat_firstNumbers {n : Nat} (hn : n ≤ 2 ^ w) : (firstNumbers w n).map BitVec.toNat = Multiset.range n := by
  unfold firstNumbers
  rw [Multiset.map_map]
  conv => rhs; rw [← Multiset.map_id (Multiset.range n)]
  apply Multiset.map_congr rfl
  intro i hi
  have hlt := Nat.lt_of_lt_of_le (Multiset.mem_range.1 hi) hn
  simp only [Function.comp_apply, BitVec.toNat_ofNat, id_eq]
  exact Nat.mod_eq_of_lt hlt

end Ticket
