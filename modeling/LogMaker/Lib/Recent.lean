import Mathlib.Data.List.DropRight
/-!
# Recent — the last entries of a sequence, at most so many

`Recent α n` holds the last entries of what was pushed and not popped, oldest first, at most `n` of them, and how many
were lost to make room.  After any pushes the entries are the last `n` of the old ones and the new (`items_pushes`).
-/

structure Recent (α : Type) (n : Nat) where
  items : List α
  lost : Nat
  length_le : items.length ≤ n

namespace Recent

variable {α : Type} {n : Nat}

theorem length_rtake (l : List α) (n : Nat) : (l.rtake n).length = min n l.length := by
  unfold List.rtake
  rw [List.length_drop]
  omega

theorem rtake_of_length_le {l : List α} (h : l.length ≤ n) : l.rtake n = l := by
  unfold List.rtake
  rw [Nat.sub_eq_zero_of_le h, List.drop_zero]

/-- What is lost early is lost late. -/
theorem rtake_append_rtake (l ys : List α) : (l.rtake n ++ ys).rtake n = (l ++ ys).rtake n := by
  have hmin : min (n - ys.length) n = n - ys.length := Nat.min_eq_left (Nat.sub_le ..)
  simp only [List.rtake_eq_reverse_take_reverse, List.reverse_append, List.reverse_reverse, List.take_append,
    List.length_reverse, List.take_take, hmin]

def empty : Recent α n := ⟨[], 0, Nat.zero_le n⟩

def push (r : Recent α n) (x : α) : Recent α n where
  items := (r.items ++ [x]).rtake n
  lost := if r.items.length = n then r.lost + 1 else r.lost
  length_le := by
    rw [length_rtake]
    exact Nat.min_le_left ..

/-- The oldest entry is taken. -/
def pop (r : Recent α n) : Recent α n where
  items := r.items.tail
  lost := r.lost
  length_le := by
    have h := r.length_le
    rw [List.length_tail]
    omega

/-- The oldest entries are taken, so many. -/
def dropFirst (r : Recent α n) (j : Nat) : Recent α n where
  items := r.items.drop j
  lost := r.lost
  length_le := by
    have h := r.length_le
    rw [List.length_drop]
    omega

theorem dropFirst_pop (r : Recent α n) (j : Nat) : r.pop.dropFirst j = r.dropFirst (j + 1) := by
  unfold dropFirst pop
  simp only [List.drop_tail]

theorem dropFirst_all (r : Recent α n) {j : Nat} (h : r.items.length ≤ j) :
    r.dropFirst j = ⟨[], r.lost, Nat.zero_le n⟩ := by
  unfold dropFirst
  simp only [List.drop_of_length_le h]

/-- **The last entries are kept**, whatever was kept before. -/
theorem items_pushes (xs : List α) : ∀ r : Recent α n, (xs.foldl push r).items = (r.items ++ xs).rtake n := by
  induction xs with
  | nil =>
    intro r
    rw [List.append_nil, rtake_of_length_le r.length_le]
    rfl
  | cons x xs ih =>
    intro r
    rw [List.foldl_cons, ih]
    show ((r.items ++ [x]).rtake n ++ xs).rtake n = _
    rw [rtake_append_rtake, List.append_assoc, List.singleton_append]

inductive Op (α : Type) where
  | push (x : α)
  | pop
  | recount

/-- One operation; `recount` forgets how many were lost. -/
def step (r : Recent α n) : Op α → Recent α n
  | .push x => r.push x
  | .pop => r.pop
  | .recount => { r with lost := 0 }

end Recent
