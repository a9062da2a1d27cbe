import Mathlib.Data.List.Forall2
import Mathlib.Data.List.Infix
import Mathlib.Logic.Function.Basic
/-!
# Shelf — a row of texts, written at one end and moved up

A shelf is a row of texts, the newest at place 0.  Among the places up to `n` a text may be moved up into an empty
place, or cut to a beginning of itself (`Moves`).  Where every text is put together from pieces, no such move makes a
piece twice, changes the order of the pieces or puts a piece into two places: from the oldest place to the newest the
pieces are some of those there were, each whole or cut (`Moves.kept`).
-/
namespace Shelf

variable {α β : Type}

inductive Moves (n : Nat) (T : Nat → List α) : (Nat → List α) → Prop
  | refl : Moves n T T
  | cut {U : Nat → List α} {i : Nat} {t : List α} (h : Moves n T U) (hi : i ≤ n) (ht : t <+: U i) :
    Moves n T (Function.update U i t)
  | up {U : Nat → List α} {i : Nat} (h : Moves n T U) (hi : i < n) (he : U (i + 1) = []) :
    Moves n T (Function.update (Function.update U i []) (i + 1) (U i))

theorem Moves.trans {n : Nat} {T U V : Nat → List α} (h : Moves n T U) (h' : Moves n U V) : Moves n T V := by
  induction h' with
  | refl => exact h
  | cut _ hi ht ih => exact ih.cut hi ht
  | up _ hi he ih => exact ih.up hi he

/-- **What holds of every beginning of a text that it holds of** is kept. -/
theorem Moves.all {n : Nat} {T U : Nat → List α} {P : List α → Prop} (h : Moves n T U) (hnil : P [])
    (hcut : ∀ t u, t <+: u → P u → P t) (hT : ∀ i ≤ n, P (T i)) : ∀ i ≤ n, P (U i) := by
  induction h with
  | refl => exact hT
  | @cut U i t _ hi ht ih =>
    intro j hj
    rcases eq_or_ne j i with rfl | hne
    · rw [Function.update_self]
      exact hcut t _ ht (ih j hj)
    · rw [Function.update_of_ne hne]
      exact ih j hj
  | @up U i _ hi _ ih =>
    intro j hj
    rcases eq_or_ne j (i + 1) with rfl | hne
    · rw [Function.update_self]
      exact ih i (Nat.le_of_lt hi)
    · rw [Function.update_of_ne hne]
      rcases eq_or_ne j i with rfl | hne
      · rw [Function.update_self]
        exact hnil
      · rw [Function.update_of_ne hne]
        exact ih j hj

/-- The newest text is only ever cut. -/
theorem Moves.newest {n : Nat} {T U : Nat → List α} (h : Moves n T U) : U 0 <+: T 0 := by
  induction h with
  | refl => exact List.prefix_refl _
  | @cut U i t _ _ ht ih =>
    rcases eq_or_ne 0 i with rfl | hne
    · rw [Function.update_self]
      exact ht.trans ih
    · rw [Function.update_of_ne hne]
      exact ih
  | @up U i _ _ _ ih =>
    rw [Function.update_of_ne (Nat.succ_ne_zero i).symm]
    rcases eq_or_ne 0 i with rfl | hne
    · rw [Function.update_self]
      exact List.nil_prefix
    · rw [Function.update_of_ne hne]
      exact ih

/-! ## Pieces -/

/-- Some of the pieces in their order, each whole or cut. -/
abbrev Kept : List (List α) → List (List α) → Prop := List.SublistForall₂ (· <+: ·)

theorem Kept.refl (ps : List (List α)) : Kept ps ps := refl_of (List.SublistForall₂ (· <+: ·)) ps

theorem Kept.trans {ps qs rs : List (List α)} (h : Kept ps qs) (h' : Kept qs rs) : Kept ps rs :=
  trans_of (List.SublistForall₂ (· <+: ·)) h h'

theorem Kept.append {ps qs ps' qs' : List (List α)} (h : Kept ps qs) (h' : Kept ps' qs') :
    Kept (ps ++ ps') (qs ++ qs') := by
  obtain ⟨l, hl, hs⟩ := List.sublistForall₂_iff.1 h
  obtain ⟨l', hl', hs'⟩ := List.sublistForall₂_iff.1 h'
  exact List.sublistForall₂_iff.2 ⟨l ++ l', List.rel_append hl hl', hs.append hs'⟩

theorem Kept.more {ps qs : List (List α)} (h : Kept ps qs) (rs : List (List α)) : Kept ps (qs ++ rs) := by
  have hrs := h.append (.nil : Kept [] rs)
  rwa [List.append_nil] at hrs

theorem kept_append_left (ps qs : List (List α)) : Kept qs (ps ++ qs) := by
  have hps : Kept [] ps := .nil
  exact hps.append (Kept.refl qs)

/-- A beginning of what pieces make is made of the first of them, the last one cut. -/
theorem exists_kept_of_prefix {t : List α} {ps : List (List α)} (h : t <+: ps.flatten) :
    ∃ qs : List (List α), qs.flatten = t ∧ Kept qs ps := by
  induction ps generalizing t with
  | nil => exact ⟨[], (List.prefix_nil.1 h).symm, .nil⟩
  | cons p ps ih =>
    rw [List.flatten_cons] at h
    rcases List.prefix_or_prefix_of_prefix h (List.prefix_append p _) with htp | ⟨r, rfl⟩
    · exact ⟨[t], by rw [List.flatten_singleton], .cons htp .nil⟩
    · obtain ⟨qs, hqs, hk⟩ := ih ((List.prefix_append_right_inj p).1 h)
      exact ⟨p :: qs, by rw [List.flatten_cons, hqs], .cons (List.prefix_refl p) hk⟩

/-- From the place `n` down to the newest. -/
def stack (S : Nat → List β) : Nat → List β
  | 0 => S 0
  | n + 1 => S (n + 1) ++ stack S n

/-- Below the place `n`. -/
def below (S : Nat → List β) : Nat → List β
  | 0 => []
  | n + 1 => stack S n

theorem stack_eq (S : Nat → List β) (n : Nat) : stack S n = S n ++ below S n := by
  cases n with
  | zero => exact (List.append_nil _).symm
  | succ n => rfl

theorem stack_update_of_lt (S : Nat → List β) {n i : Nat} (h : n < i) (ps : List β) :
    stack (Function.update S i ps) n = stack S n := by
  induction n with
  | zero => exact Function.update_of_ne (Nat.ne_of_lt h) ..
  | succ n ih =>
    unfold stack
    rw [ih (Nat.lt_of_succ_lt h), Function.update_of_ne (Nat.ne_of_lt h)]

theorem stack_update_self (S : Nat → List β) (n : Nat) (ps : List β) :
    stack (Function.update S n ps) n = ps ++ below S n := by
  rw [stack_eq, Function.update_self]
  congr 1
  cases n with
  | zero => rfl
  | succ n => exact stack_update_of_lt S (Nat.lt_succ_self n) ps

theorem stack_update_kept (S : Nat → List (List α)) {n i : Nat} (h : i ≤ n) {ps : List (List α)} (hk : Kept ps (S i)) :
    Kept (stack (Function.update S i ps) n) (stack S n) := by
  induction n with
  | zero =>
    obtain rfl := Nat.le_zero.1 h
    rw [stack_update_self, stack_eq]
    exact hk.append (Kept.refl _)
  | succ n ih =>
    rcases Nat.le_succ_iff.1 h with h | rfl
    · unfold stack
      rw [Function.update_of_ne (Nat.ne_of_gt (Nat.lt_succ_of_le h))]
      exact (Kept.refl _).append (ih h)
    · rw [stack_update_self, stack_eq]
      exact hk.append (Kept.refl _)

theorem stack_up_kept (S : Nat → List (List α)) {n i : Nat} (h : i < n) :
    Kept (stack (Function.update (Function.update S i []) (i + 1) (S i)) n) (stack S n) := by
  induction n with
  | zero => exact absurd h (Nat.not_lt_zero i)
  | succ n ih =>
    rcases Nat.lt_succ_iff_lt_or_eq.1 h with h | rfl
    · unfold stack
      rw [Function.update_of_ne (by omega), Function.update_of_ne (by omega)]
      exact (Kept.refl _).append (ih h)
    · rw [stack_update_self, below, stack_update_self, List.nil_append, ← stack_eq]
      exact kept_append_left ..

/-- The texts are made of these pieces. -/
def Made (T : Nat → List α) (S : Nat → List (List α)) : Prop := ∀ i, (S i).flatten = T i

/-- **Whatever is moved and cut, the pieces are some of those there were, in their order.** -/
theorem Moves.kept {n : Nat} {T U : Nat → List α} (h : Moves n T U) {S : Nat → List (List α)} (hS : Made T S) :
    ∃ R, Made U R ∧ Kept (stack R n) (stack S n) := by
  induction h with
  | refl => exact ⟨S, hS, Kept.refl _⟩
  | @cut U i t _ hi ht ih =>
    obtain ⟨R, hR, hk⟩ := ih
    obtain ⟨ps, rfl, hps⟩ := exists_kept_of_prefix ((hR i).symm ▸ ht)
    refine ⟨Function.update R i ps, ?_, (stack_update_kept R hi hps).trans hk⟩
    intro j
    rcases eq_or_ne j i with rfl | hne
    · rw [Function.update_self, Function.update_self]
    · rw [Function.update_of_ne hne, Function.update_of_ne hne, hR j]
  | @up U i _ hi _ ih =>
    obtain ⟨R, hR, hk⟩ := ih
    refine ⟨Function.update (Function.update R i []) (i + 1) (R i), ?_, (stack_up_kept R hi).trans hk⟩
    intro j
    rcases eq_or_ne j (i + 1) with rfl | hne
    · rw [Function.update_self, Function.update_self, hR i]
    · rw [Function.update_of_ne hne, Function.update_of_ne hne]
      rcases eq_or_ne j i with rfl | hne
      · rw [Function.update_self, Function.update_self, List.flatten_nil]
      · rw [Function.update_of_ne hne, Function.update_of_ne hne, hR j]

/-- A piece is written at the newest place. -/
theorem Made.write {T : Nat → List α} {S : Nat → List (List α)} (h : Made T S) (p : List α) :
    Made (Function.update T 0 (T 0 ++ p)) (Function.update S 0 (S 0 ++ [p])) := by
  intro j
  rcases eq_or_ne j 0 with rfl | hne
  · rw [Function.update_self, Function.update_self, List.flatten_append, List.flatten_singleton, h 0]
  · rw [Function.update_of_ne hne, Function.update_of_ne hne, h j]

theorem stack_write (S : Nat → List β) (ps : List β) (n : Nat) :
    stack (Function.update S 0 (S 0 ++ ps)) n = stack S n ++ ps := by
  induction n with
  | zero => exact Function.update_self ..
  | succ n ih =>
    unfold stack
    rw [ih, Function.update_of_ne (Nat.succ_ne_zero n), List.append_assoc]

end Shelf
