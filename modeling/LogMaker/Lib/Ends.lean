import Mathlib.Data.List.Basic
/-!
# Ends — where a program with a state and exceptions ends

`Ends x s Q E`: started in the state `s`, the program `x` returns a value and leaves a state for which `Q` holds, or
throws and leaves a state for which `E` holds.  An exception keeps the state it was thrown in.
-/

variable {ε σ α β : Type}

def Ends (x : EStateM ε σ α) (s : σ) (Q : α → σ → Prop) (E : ε → σ → Prop) : Prop :=
  match x s with
  | .ok a t => Q a t
  | .error e t => E e t

variable {x : EStateM ε σ α} {s : σ} {Q Q' : α → σ → Prop} {E E' : ε → σ → Prop}

theorem Ends.mono (h : Ends x s Q E) (hQ : ∀ a t, Q a t → Q' a t) (hE : ∀ e t, E e t → E' e t) : Ends x s Q' E' := by
  unfold Ends at h ⊢
  match x s, h with
  | .ok a t, h => exact hQ a t h
  | .error e t, h => exact hE e t h

theorem Ends.and (h : Ends x s Q E) (h' : Ends x s Q' E') :
    Ends x s (fun a t => Q a t ∧ Q' a t) (fun e t => E e t ∧ E' e t) := by
  unfold Ends at h h' ⊢
  match x s, h, h' with
  | .ok a t, h, h' => exact ⟨h, h'⟩
  | .error e t, h, h' => exact ⟨h, h'⟩

/-- Where it ends is what running it gives. -/
theorem ends_run (x : EStateM ε σ α) (s : σ) :
    Ends x s (fun a t => x s = .ok a t) (fun e t => x s = .error e t) := by
  unfold Ends
  cases x s <;> rfl

theorem Ends.returned {a : α} {t : σ} (h : Ends x s Q E) (hx : x s = .ok a t) : Q a t := by
  unfold Ends at h
  rw [hx] at h
  exact h

/-- A sequence that returns has returned from its first part. -/
theorem returned_of_bind {f : α → EStateM ε σ β} {b : β} {u : σ} (h : (x >>= f) s = .ok b u) :
    ∃ a t, x s = .ok a t ∧ f a t = .ok b u := by
  have h : (match x s with | .ok a t => f a t | .error e t => .error e t) = .ok b u := h
  cases hx : x s with
  | ok a t =>
    rw [hx] at h
    exact ⟨a, t, rfl, h⟩
  | error e t =>
    rw [hx] at h
    cases h

instance [∀ a t, Decidable (Q a t)] [∀ e t, Decidable (E e t)] : Decidable (Ends x s Q E) :=
  match h : x s with
  | .ok a t => decidable_of_iff (Q a t) (by unfold Ends; rw [h])
  | .error e t => decidable_of_iff (E e t) (by unfold Ends; rw [h])

theorem ends_pure {a : α} (h : Q a s) : Ends (pure a) s Q E := h

theorem ends_throw {e : ε} (h : E e s) : Ends (throw e : EStateM ε σ α) s Q E := h

theorem ends_get {Q : σ → σ → Prop} (h : Q s s) : Ends get s Q E := h

theorem ends_modify {f : σ → σ} {Q : PUnit → σ → Prop} (h : Q ⟨⟩ (f s)) : Ends (modify f) s Q E := h

theorem ends_bind {f : α → EStateM ε σ β} {Q : β → σ → Prop} (h : Ends x s (fun a t => Ends (f a) t Q E) E) :
    Ends (x >>= f) s Q E := by
  unfold Ends at h
  show (match EStateM.bind x f s with | .ok a t => Q a t | .error e t => E e t)
  unfold EStateM.bind
  match x s, h with
  | .ok a t, h => exact h
  | .error e t, h => exact h

/-- **The rule of sequence**, with what holds between the two. -/
theorem Ends.bind {f : α → EStateM ε σ β} {R : β → σ → Prop} (h : Ends x s Q E) (hf : ∀ a t, Q a t → Ends (f a) t R E) :
    Ends (x >>= f) s R E :=
  ends_bind (h.mono hf (fun _ _ => id))

/-- The same where the first one never throws. -/
theorem Ends.next {f : α → EStateM ε σ β} {R : β → σ → Prop} (h : Ends x s Q (fun _ _ => False))
    (hf : ∀ a t, Q a t → Ends (f a) t R E) : Ends (x >>= f) s R E :=
  (h.mono (fun _ _ => id) (fun _ _ => False.elim)).bind hf

-- From here on it is opened by these rules: to reduce it is to run the program.
attribute [irreducible] Ends
