import LogMaker.Lib.Recent
/-!
# CircularQ — spdlog's `circular_q`

The queue behind the logger's backtrace: a vector of `max_items_` cells of which one stays free, with the positions of
the first item and of the first free cell.  `size_t` is a natural number where it stays below the length of a vector and
a 64-bit word where it may wrap.  Reading and popping the front of an empty queue are undefined, so these take a proof
that it is not empty.

`items` is what the queue holds, oldest first.  Every run of pushes and pops is one of `Recent` (`run_recent`).
-/
namespace LogMaker
namespace Spdlog

/-- `circular_q<T>`. -/
structure CircularQ (α : Type) where
  maxItems : Nat
  head : Nat
  tail : Nat
  overrunCounter : BitVec 64
  v : Vector α maxItems
  head_le : head ≤ maxItems - 1
  tail_le : tail ≤ maxItems - 1

namespace CircularQ

variable {α : Type}

/-- The default constructor: disabled, with no cells. -/
def disabled : CircularQ α := ⟨0, 0, 0, 0, Vector.emptyWithCapacity 0, Nat.le_refl 0, Nat.le_refl 0⟩

/-- `circular_q(max_items)`: one cell more than asked for; of the largest `size_t` none, since the sum wraps. -/
def ofMaxItems [Inhabited α] (maxItems : BitVec 64) : CircularQ α where
  maxItems := (maxItems + 1).toNat
  head := 0
  tail := 0
  overrunCounter := 0
  v := Vector.replicate _ default
  head_le := Nat.zero_le _
  tail_le := Nat.zero_le _

/-- `copy_moveable`: the queue takes over `other`, which is left disabled. -/
def copyMoveable (other : CircularQ α) : CircularQ α × CircularQ α := (other, disabled)

def pushBack (q : CircularQ α) (item : α) : CircularQ α :=
  if h : 0 < q.maxItems then
    have htail : q.tail < q.maxItems := Nat.lt_of_le_of_lt q.tail_le (Nat.sub_one_lt_of_lt h)
    have hmod : ∀ i, i % q.maxItems ≤ q.maxItems - 1 := fun i => Nat.le_sub_one_of_lt (Nat.mod_lt i h)
    let v := q.v.set q.tail item htail
    let tail := (q.tail + 1) % q.maxItems
    -- the oldest item is overrun
    if tail = q.head then
      { q with
        v := v
        tail := tail
        head := (q.head + 1) % q.maxItems
        overrunCounter := q.overrunCounter + 1
        head_le := hmod _
        tail_le := hmod _ }
    else { q with v := v, tail := tail, tail_le := hmod _ }
  else q

def size (q : CircularQ α) : Nat :=
  if q.head ≤ q.tail then q.tail - q.head else q.maxItems - (q.head - q.tail)

def isEmpty (q : CircularQ α) : Bool := q.tail = q.head

def isFull (q : CircularQ α) : Bool :=
  if 0 < q.maxItems then (q.tail + 1) % q.maxItems = q.head else false

theorem size_le (q : CircularQ α) : q.size ≤ q.maxItems - 1 := by
  have h1 := q.head_le
  have h2 := q.tail_le
  unfold size
  split <;> omega

/-- `at(i)`, within its `assert(i < size())`. -/
def itemAt (q : CircularQ α) (i : Nat) (h : i < q.size) : α :=
  have hm : (q.head + i) % q.maxItems < q.maxItems := Nat.mod_lt _ (by have := q.size_le; omega)
  q.v[(q.head + i) % q.maxItems]

theorem size_pos {q : CircularQ α} (h : q.isEmpty = false) : 0 < q.size := by
  have hne : q.tail ≠ q.head := of_decide_eq_false h
  have h1 := q.head_le
  have h2 := q.tail_le
  unfold size
  split <;> omega

def front (q : CircularQ α) (h : q.isEmpty = false) : α :=
  have hm : q.head < q.maxItems := by have := q.head_le; have := q.size_le; have := size_pos h; omega
  q.v[q.head]

def popFront (q : CircularQ α) (h : q.isEmpty = false) : CircularQ α where
  maxItems := q.maxItems
  head := (q.head + 1) % q.maxItems
  tail := q.tail
  overrunCounter := q.overrunCounter
  v := q.v
  head_le := Nat.le_sub_one_of_lt (Nat.mod_lt _ (by have := q.size_le; have := size_pos h; omega))
  tail_le := q.tail_le

def resetOverrunCounter (q : CircularQ α) : CircularQ α := { q with overrunCounter := 0 }

theorem succ_mod_eq {t m : Nat} (h : t ≤ m - 1) (hm : 0 < m) : (t + 1) % m = if t + 1 < m then t + 1 else 0 := by
  split
  · rename_i h
    exact Nat.mod_eq_of_lt h
  · rw [show t + 1 = m by omega, Nat.mod_self]

/-- The cells from one position up to another, around the end. -/
def span (m h t : Nat) : Nat := if h ≤ t then t - h else m - (h - t)

theorem size_popFront (q : CircularQ α) (h : q.isEmpty = false) : (q.popFront h).size + 1 = q.size := by
  have h1 := q.head_le
  have h2 := q.tail_le
  have hne : q.tail ≠ q.head := of_decide_eq_false h
  show span q.maxItems ((q.head + 1) % q.maxItems) q.tail + 1 = span q.maxItems q.head q.tail
  rw [succ_mod_eq h1 (by omega)]
  unfold span
  split <;> split <;> split <;> omega

/-! ## What it holds -/

def items (q : CircularQ α) : List α := List.ofFn (fun i : Fin q.size => q.itemAt i i.isLt)

/-- The cells from the head on hold the entries, one after another. -/
def Holds (q : CircularQ α) (l : List α) : Prop :=
  l.length = q.size ∧ ∀ i (h : i < l.length), q.v[(q.head + i) % q.maxItems]? = some l[i]

theorem holds_items (q : CircularQ α) : q.Holds q.items := by
  refine ⟨List.length_ofFn, fun i h => ?_⟩
  have hi : i < q.size := by rwa [items, List.length_ofFn] at h
  have hm : (q.head + i) % q.maxItems < q.maxItems := Nat.mod_lt _ (by have := q.size_le; omega)
  rw [Vector.getElem?_eq_getElem hm]
  simp [items, itemAt]

theorem Holds.items_eq {q : CircularQ α} {l : List α} (h : q.Holds l) : q.items = l := by
  have hq := q.holds_items
  apply List.ext_getElem (hq.1.trans h.1.symm)
  intro i hi hi'
  exact Option.some.inj ((hq.2 i hi).symm.trans (h.2 i hi'))

theorem length_items (q : CircularQ α) : q.items.length = q.size := q.holds_items.1

theorem isEmpty_iff (q : CircularQ α) : q.isEmpty = true ↔ q.items = [] := by
  have h1 := q.head_le
  have h2 := q.tail_le
  rw [← List.length_eq_zero_iff, length_items]
  unfold isEmpty size
  rw [decide_eq_true_iff]
  split <;> omega

/-- The place of the `i`-th entry. -/
theorem slot_eq (q : CircularQ α) (hm : 0 < q.maxItems) {i : Nat} (hi : i ≤ q.maxItems) :
    (q.head + i) % q.maxItems = if q.head + i < q.maxItems then q.head + i else q.head + i - q.maxItems := by
  have h1 := q.head_le
  split
  · rename_i h
    exact Nat.mod_eq_of_lt h
  · rename_i h
    rw [Nat.mod_eq_sub_mod (by omega), Nat.mod_eq_of_lt (by omega)]

theorem isFull_iff (q : CircularQ α) : q.isFull = true ↔ 0 < q.maxItems ∧ q.items.length = q.maxItems - 1 := by
  have h1 := q.head_le
  have h2 := q.tail_le
  rw [length_items]
  unfold isFull size
  split
  · rename_i hm
    rw [decide_eq_true_iff, succ_mod_eq h2 hm]
    split <;> split <;> omega
  · rename_i hm
    exact ⟨fun h => (by cases h), fun h => absurd h.1 hm⟩

/-- The next free cell is one further, or the head follows it. -/
theorem span_push {m h t : Nat} (hh : h ≤ m - 1) (ht : t ≤ m - 1) (hm : 0 < m) :
    ((t + 1) % m ≠ h → span m h ((t + 1) % m) = span m h t + 1) ∧
    ((t + 1) % m = h → span m h t = m - 1 ∧ span m ((h + 1) % m) h = m - 1) := by
  rw [succ_mod_eq ht hm, succ_mod_eq hh hm]
  unfold span
  constructor
  · intro hne
    by_cases hw : t + 1 < m
    · rw [if_pos hw] at hne ⊢
      split <;> split <;> omega
    · rw [if_neg hw] at hne ⊢
      split <;> split <;> omega
  · intro heq
    constructor
    · split at heq <;> split <;> omega
    · split at heq <;> split <;> split <;> omega

/-- The entries with the new one behind them, in the vector that the push has written. -/
theorem cell_push (q : CircularQ α) (x : α) (hm : 0 < q.maxItems) (htail : q.tail < q.maxItems) {i : Nat}
    (hi : i < (q.items ++ [x]).length) :
    (q.v.set q.tail x htail)[(q.head + i) % q.maxItems]? = some (q.items ++ [x])[i] := by
  obtain ⟨hlen, hcell⟩ := q.holds_items
  have h1 := q.head_le
  have hsize := q.size_le
  rw [List.length_append, List.length_singleton, hlen] at hi
  have hslot := q.slot_eq hm (show i ≤ q.maxItems by omega)
  have hlt : (q.head + i) % q.maxItems < q.maxItems := Nat.mod_lt _ hm
  by_cases hlast : i < q.size
  · have hne : q.tail ≠ (q.head + i) % q.maxItems := by
      rw [hslot]
      unfold size at hlast
      split at hlast <;> split <;> omega
    rw [Vector.getElem?_eq_getElem hlt, Vector.getElem_set_ne _ hlt hne, ← Vector.getElem?_eq_getElem hlt,
      hcell i (hlen ▸ hlast), List.getElem_append_left (hlen ▸ hlast)]
  · have hi' : i = q.items.length := by omega
    have htl : (q.head + i) % q.maxItems = q.tail := by
      rw [hslot]
      have hs : i = q.size := by omega
      unfold size at hs
      split at hs <;> split <;> omega
    subst hi'
    simp only [htl, List.getElem_concat_length]
    rw [Vector.getElem?_eq_getElem htail, Vector.getElem_set_self]

theorem tail_lt (q : CircularQ α) (hm : 0 < q.maxItems) : q.tail < q.maxItems :=
  Nat.lt_of_le_of_lt q.tail_le (Nat.sub_one_lt_of_lt hm)

/-- A push that overruns the oldest entry. -/
theorem pushBack_overrun (q : CircularQ α) (x : α) (hm : 0 < q.maxItems) (hf : (q.tail + 1) % q.maxItems = q.head) :
    (q.pushBack x).Holds ((q.items ++ [x]).drop 1) ∧ (q.pushBack x).overrunCounter = q.overrunCounter + 1 := by
  obtain ⟨hs, hs'⟩ := (span_push q.head_le q.tail_le hm).2 hf
  have hs : q.size = q.maxItems - 1 := hs
  have hlen : (q.items ++ [x]).length = q.size + 1 := by rw [List.length_append, List.length_singleton, q.length_items]
  unfold pushBack
  rw [dif_pos hm]
  dsimp only
  rw [if_pos hf]
  refine ⟨⟨?_, fun i hi => ?_⟩, rfl⟩
  · rw [List.length_drop, hlen, hs]
    show q.maxItems - 1 + 1 - 1 = span q.maxItems ((q.head + 1) % q.maxItems) ((q.tail + 1) % q.maxItems)
    rw [hf, hs']
    rfl
  · have hi' : 1 + i < (q.items ++ [x]).length := by rw [List.length_drop] at hi; omega
    rw [List.getElem_drop, ← q.cell_push x hm (q.tail_lt hm) hi']
    dsimp only
    rw [Nat.mod_add_mod, Nat.add_assoc]

/-- A push into a free cell. -/
theorem pushBack_room (q : CircularQ α) (x : α) (hm : 0 < q.maxItems) (hf : (q.tail + 1) % q.maxItems ≠ q.head) :
    (q.pushBack x).Holds (q.items ++ [x]) ∧ (q.pushBack x).overrunCounter = q.overrunCounter := by
  have hroom := (span_push q.head_le q.tail_le hm).1 hf
  have hlen : (q.items ++ [x]).length = q.size + 1 := by rw [List.length_append, List.length_singleton, q.length_items]
  unfold pushBack
  rw [dif_pos hm]
  dsimp only
  rw [if_neg hf]
  exact ⟨⟨hlen.trans hroom.symm, fun i hi => q.cell_push x hm (q.tail_lt hm) hi⟩, rfl⟩

/-- **A push keeps the last entries**, and counts one overrun when there was no room. -/
theorem pushBack_holds (q : CircularQ α) (x : α) : (q.pushBack x).Holds ((q.items ++ [x]).rtake (q.maxItems - 1)) ∧
    (q.pushBack x).overrunCounter = if q.isFull then q.overrunCounter + 1 else q.overrunCounter := by
  have hlen : (q.items ++ [x]).length = q.items.length + 1 := by rw [List.length_append, List.length_singleton]
  have hle : q.items.length ≤ q.maxItems - 1 := q.length_items ▸ q.size_le
  by_cases hm : 0 < q.maxItems
  · have hfull : q.isFull = decide ((q.tail + 1) % q.maxItems = q.head) := by rw [isFull, if_pos hm]
    by_cases hf : (q.tail + 1) % q.maxItems = q.head
    · rw [decide_eq_true hf] at hfull
      have hdrop : (q.items ++ [x]).rtake (q.maxItems - 1) = (q.items ++ [x]).drop 1 := by
        unfold List.rtake
        rw [hlen, (q.isFull_iff.1 hfull).2, Nat.add_sub_cancel_left]
      rw [hdrop, hfull]
      exact q.pushBack_overrun x hm hf
    · rw [decide_eq_false hf] at hfull
      have hroom : q.items.length ≠ q.maxItems - 1 := fun hl => by
        rw [q.isFull_iff.2 ⟨hm, hl⟩] at hfull
        cases hfull
      rw [Recent.rtake_of_length_le (by omega), hfull]
      exact q.pushBack_room x hm hf
  · have hfull : q.isFull = false := by rw [isFull, if_neg hm]
    have hnil : q.items = [] := List.length_eq_zero_iff.1 (by omega)
    unfold pushBack
    rw [dif_neg hm, hfull, show q.maxItems - 1 = 0 by omega, List.rtake_zero, ← hnil]
    exact ⟨q.holds_items, rfl⟩

theorem items_pushBack (q : CircularQ α) (x : α) : (q.pushBack x).items = (q.items ++ [x]).rtake (q.maxItems - 1) :=
  (q.pushBack_holds x).1.items_eq

theorem maxItems_pushBack (q : CircularQ α) (x : α) : (q.pushBack x).maxItems = q.maxItems := by
  unfold pushBack
  split
  · dsimp only
    split <;> rfl
  · rfl

/-- The front is the first entry, and a pop leaves the others. -/
theorem popFront_holds (q : CircularQ α) (h : q.isEmpty = false) : q.items = q.front h :: (q.popFront h).items := by
  have hpos := size_pos h
  have hsize := q.size_le
  have hm : 0 < q.maxItems := by omega
  obtain ⟨hlen, hcell⟩ := q.holds_items
  have hspan := q.size_popFront h
  obtain ⟨x, l, hl⟩ := List.exists_cons_of_length_pos (hlen.symm ▸ hpos)
  have hfront : q.front h = x := by
    have h0 := hcell 0 (hlen.symm ▸ hpos)
    have hhead : q.head < q.maxItems := Nat.lt_of_le_of_lt q.head_le (Nat.sub_one_lt_of_lt hm)
    rw [Nat.add_zero, Nat.mod_eq_of_lt hhead, Vector.getElem?_eq_getElem hhead] at h0
    have hpos' : 0 < q.items.length := hlen.symm ▸ hpos
    have hx : q.items[0] = x := by simp only [hl, List.getElem_cons_zero]
    rw [hx] at h0
    exact Option.some.inj h0
  have hrest : (q.popFront h).Holds l := by
    have hl1 : l.length + 1 = q.size := by rw [← hlen, hl, List.length_cons]
    refine ⟨by omega, fun i hi => ?_⟩
    have hi' : 1 + i < q.items.length := by omega
    have hc := hcell (1 + i) hi'
    have hx : q.items[1 + i] = l[i] := by simp only [hl, Nat.add_comm 1 i, List.getElem_cons_succ]
    rw [hx, ← Nat.add_assoc] at hc
    rw [← hc]
    show q.v[((q.head + 1) % q.maxItems + i) % q.maxItems]? = _
    rw [Nat.mod_add_mod]
  rw [hl, hfront, hrest.items_eq]

/-! ## Runs -/

/-- One call; an empty queue is not popped. -/
def step (q : CircularQ α) : Recent.Op α → CircularQ α
  | .push x => q.pushBack x
  | .pop => if h : q.isEmpty = false then q.popFront h else q
  | .recount => q.resetOverrunCounter

/-- The queue holds what is recent, and has counted what is lost. -/
structure Refines {n : Nat} (q : CircularQ α) (r : Recent α n) : Prop where
  maxItems : q.maxItems - 1 = n
  items : q.items = r.items
  overruns : 0 < q.maxItems → q.overrunCounter = BitVec.ofNat 64 r.lost

theorem refines_step {n : Nat} {q : CircularQ α} {r : Recent α n} (h : q.Refines r) (o : Recent.Op α) :
    (q.step o).Refines (r.step o) := by
  cases o with
  | push x =>
    refine ⟨by rw [← h.maxItems]; exact congrArg (· - 1) (q.maxItems_pushBack x), ?_, fun hm => ?_⟩
    · show (q.pushBack x).items = (r.items ++ [x]).rtake n
      rw [items_pushBack, h.items, h.maxItems]
    · have hm' : 0 < q.maxItems := by rwa [← q.maxItems_pushBack x]
      show (q.pushBack x).overrunCounter = BitVec.ofNat 64 (if r.items.length = n then r.lost + 1 else r.lost)
      rw [(q.pushBack_holds x).2, h.overruns hm']
      by_cases hf : q.isFull = true
      · have hlen : r.items.length = n := by rw [← h.items, ← h.maxItems]; exact (q.isFull_iff.1 hf).2
        rw [if_pos hf, if_pos hlen, BitVec.ofNat_add]
        rfl
      · have hlen : ¬ r.items.length = n := by
          rw [← h.items, ← h.maxItems]
          exact fun hl => hf (q.isFull_iff.2 ⟨hm', hl⟩)
        rw [if_neg hf, if_neg hlen]
  | pop =>
    show CircularQ.Refines (if he : q.isEmpty = false then q.popFront he else q) r.pop
    by_cases he : q.isEmpty = false
    · rw [dif_pos he]
      refine ⟨h.maxItems, ?_, h.overruns⟩
      show (q.popFront he).items = r.items.tail
      rw [← h.items, q.popFront_holds he, List.tail_cons]
    · rw [dif_neg he]
      have hnil : q.items = [] := q.isEmpty_iff.1 (by simpa using he)
      refine ⟨h.maxItems, ?_, h.overruns⟩
      show q.items = r.items.tail
      rw [← h.items, hnil]
      rfl
  | recount => exact ⟨h.maxItems, h.items, fun _ => rfl⟩

theorem maxItems_step (q : CircularQ α) (o : Recent.Op α) : (q.step o).maxItems = q.maxItems := by
  cases o with
  | push x => exact q.maxItems_pushBack x
  | pop =>
    unfold step
    dsimp only
    split <;> rfl
  | recount => rfl

theorem refines_run {n : Nat} (ops : List (Recent.Op α)) : ∀ (q : CircularQ α) (r : Recent α n), q.Refines r →
    (ops.foldl step q).Refines (ops.foldl Recent.step r) ∧ (ops.foldl step q).maxItems = q.maxItems := by
  induction ops with
  | nil => intro q r h; exact ⟨h, rfl⟩
  | cons o ops ih =>
    intro q r h
    obtain ⟨hrun, hmax⟩ := ih (q.step o) (r.step o) (refines_step h o)
    exact ⟨hrun, hmax.trans (q.maxItems_step o)⟩

theorem items_ofMaxItems [Inhabited α] (n : BitVec 64) : (ofMaxItems n : CircularQ α).items = [] := by
  rw [← List.length_eq_zero_iff, length_items]
  rfl

theorem toNat_succ {n : BitVec 64} (h : n ≠ BitVec.allOnes 64) : (n + 1).toNat = n.toNat + 1 := by
  have hlt := n.isLt
  have hne : n.toNat ≠ 2 ^ 64 - 1 := fun he => h (BitVec.eq_of_toNat_eq (by rw [he, BitVec.toNat_allOnes]))
  rw [BitVec.toNat_add, show (1 : BitVec 64).toNat = 1 from rfl]
  omega

/-- The capacity asked for, but of the largest `size_t` none. -/
theorem toNat_succ_sub_one (n : BitVec 64) : (n + 1).toNat - 1 = if n = BitVec.allOnes 64 then 0 else n.toNat := by
  split
  · rename_i h
    rw [h]
    rfl
  · rename_i h
    rw [toNat_succ h, Nat.add_sub_cancel]

/-- **Every run of the queue is one of the last entries**: what it holds, oldest first, its size, its entries by index
and whether it is empty or full are those of the sequence of pushes and pops; and unless the capacity is the largest
`size_t`, when the queue holds nothing, the overrun counter is, modulo 2^64, the number of entries lost since it was
reset. -/
theorem run_recent [Inhabited α] (n : BitVec 64) (ops : List (Recent.Op α)) :
    let q := ops.foldl step (ofMaxItems n)
    let r := ops.foldl Recent.step (Recent.empty : Recent α ((n + 1).toNat - 1))
    q.items = r.items ∧ q.size = r.items.length ∧ (∀ i h, r.items[i]? = some (q.itemAt i h)) ∧
    (q.isEmpty = true ↔ r.items = []) ∧
    (n ≠ BitVec.allOnes 64 → (n + 1).toNat - 1 = n.toNat ∧ (q.isFull = true ↔ r.items.length = n.toNat) ∧
      q.overrunCounter = BitVec.ofNat 64 r.lost) := by
  intro q r
  have h0 : (ofMaxItems n : CircularQ α).Refines (Recent.empty : Recent α ((n + 1).toNat - 1)) :=
    ⟨rfl, items_ofMaxItems n, fun _ => rfl⟩
  obtain ⟨hq, hmax⟩ := refines_run ops (ofMaxItems n) Recent.empty h0
  have hitems : q.items = r.items := hq.items
  have hcap : q.maxItems - 1 = (n + 1).toNat - 1 := hq.maxItems
  refine ⟨hitems, by rw [← hitems, length_items], fun i hi => ?_, by rw [← hitems]; exact q.isEmpty_iff, fun hn => ?_⟩
  · rw [← hitems]
    have hi' : i < q.items.length := by rwa [length_items]
    rw [List.getElem?_eq_getElem hi']
    simp [items]
  · have hsucc := toNat_succ hn
    have hpos : 0 < q.maxItems := by
      have hm : q.maxItems = (n + 1).toNat := hmax
      omega
    refine ⟨by omega, ?_, hq.overruns hpos⟩
    rw [isFull_iff, hitems, hcap]
    exact ⟨fun h => by omega, fun h => ⟨hpos, by omega⟩⟩

end CircularQ

end Spdlog
end LogMaker
