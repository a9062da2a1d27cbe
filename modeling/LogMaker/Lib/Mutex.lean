import Mathlib.Logic.Function.Basic
/-!
# Mutex — who holds which lock

A table of locks says who holds each of them; a thread's position says which lock it holds, at most one at a time.
`Held holder owns` says that the two agree, and it is kept by taking a free lock, by releasing one, and by a step that
changes neither.
-/
namespace Mutex

variable {L T : Type} [DecidableEq L] [DecidableEq T] {holder : L → Option T} {owns : T → Option L}

/-- The table and the threads' positions agree. -/
def Held (holder : L → Option T) (owns : T → Option L) : Prop := ∀ l t, holder l = some t ↔ owns t = some l

omit [DecidableEq L] [DecidableEq T] in
theorem Held.free (h : Held holder owns) {l : L} : holder l = none ↔ ∀ t, owns t ≠ some l := by
  constructor
  · intro hl t ht
    rw [(h l t).2 ht] at hl
    cases hl
  · intro hn
    cases hl : holder l with
    | none => rfl
    | some t => exact absurd ((h l t).1 hl) (hn t)

/-- **A thread that holds nothing takes a free lock.** -/
theorem Held.take (h : Held holder owns) {l : L} {t : T} (hl : holder l = none) (ht : owns t = none) :
    Held (Function.update holder l (some t)) (Function.update owns t (some l)) := by
  intro l' t'
  by_cases hl' : l' = l
  · subst hl'
    by_cases ht' : t' = t
    · subst ht'; simp
    · simp [Function.update_of_ne ht', h.free.1 hl t', Ne.symm ht']
  · by_cases ht' : t' = t
    · subst ht'; simp [Function.update_of_ne hl', h l' t', ht, Ne.symm hl']
    · simp [Function.update_of_ne hl', Function.update_of_ne ht', h l' t']

/-- **A thread releases the lock it holds.** -/
theorem Held.release (h : Held holder owns) {l : L} {t : T} (ht : owns t = some l) :
    Held (Function.update holder l none) (Function.update owns t none) := by
  intro l' t'
  by_cases hl' : l' = l
  · subst hl'
    by_cases ht' : t' = t
    · subst ht'; simp
    · have hne : owns t' ≠ some l' := by
        intro ho
        have hh := (h l' t').2 ho
        rw [(h l' t).2 ht] at hh
        exact ht' (Option.some.inj hh).symm
      simp [Function.update_of_ne ht', hne]
  · by_cases ht' : t' = t
    · subst ht'; simp [Function.update_of_ne hl', h l' t', ht, Ne.symm hl']
    · simp [Function.update_of_ne hl', Function.update_of_ne ht', h l' t']

omit [DecidableEq L] in
theorem Held.keep (h : Held holder owns) {t : T} {o : Option L} (ho : o = owns t) :
    Held holder (Function.update owns t o) := by
  rwa [ho, Function.update_eq_self]

end Mutex
