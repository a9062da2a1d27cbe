import Mathlib.Data.List.Induction
import Mathlib.Data.Nat.Init
/-!
# Lts — guarded runs of a labelled step function

A system is a partial function `step : σ → α → Option σ`: what one action does in one state, `none` where the action is
not enabled.  A guard `P : σ → α → Prop` is a condition on a state and the action about to be taken there.
`Reach step P s t` says that some run leads from `s` to `t` with every step meeting the guard; `Reach.inv` is the
induction every invariant uses, `Reach.map` carries runs over to a more abstract system, and `Reach.of_rank` turns a
rank that can always be lowered into a run that gets there.  `watch` carries a history of the run along with the state.
-/
namespace Lts

variable {σ α : Type}

/-- The run of the actions, every step checked against the guard: `none` where one is refused or not enabled. -/
def runIf (step : σ → α → Option σ) (p : σ → α → Bool) : σ → List α → Option σ
  | s, [] => some s
  | s, a :: as => if p s a then (step s a).bind (fun t => runIf step p t as) else none

/-- The actions lead from the first state to the second, every step meeting the guard. -/
def Steps (step : σ → α → Option σ) (P : σ → α → Prop) : σ → List α → σ → Prop
  | s, [], t => s = t
  | s, a :: as, t => P s a ∧ ∃ u, step s a = some u ∧ Steps step P u as t

def Reach (step : σ → α → Option σ) (P : σ → α → Prop) (s t : σ) : Prop := ∃ as, Steps step P s as t

def anyStep : σ → α → Prop := fun _ _ => True

variable {step : σ → α → Option σ} {P Q : σ → α → Prop}

theorem steps_append : ∀ (as bs : List α) (s u : σ),
    Steps step P s (as ++ bs) u ↔ ∃ t, Steps step P s as t ∧ Steps step P t bs u
  | [], bs, s, u => by simp [Steps]
  | a :: as, bs, s, u => by
    simp only [List.cons_append, Steps, steps_append as bs]
    constructor
    · rintro ⟨hp, v, hv, t, ht, hu⟩
      exact ⟨t, ⟨hp, v, hv, ht⟩, hu⟩
    · rintro ⟨t, ⟨hp, v, hv, ht⟩, hu⟩
      exact ⟨hp, v, hv, t, ht, hu⟩

theorem steps_single (s : σ) (a : α) (t : σ) : Steps step P s [a] t ↔ P s a ∧ step s a = some t := by
  simp [Steps]

theorem Steps.unique : ∀ (as : List α) (s t t' : σ), Steps step P s as t → Steps step Q s as t' → t = t'
  | [], _, _, _, h, h' => h.symm.trans h'
  | _ :: as, _, t, t', ⟨_, u, hu, h⟩, ⟨_, u', hu', h'⟩ => by
    rw [hu] at hu'
    cases hu'
    exact Steps.unique as u t t' h h'

/-- **A property that a run's first state has and every step keeps holds at its end**; the step may use the actions
taken so far and that the state before it was reached. -/
theorem Steps.inv {s : σ} {I : List α → σ → Prop} (h0 : I [] s)
    (hstep : ∀ as u a v, Steps step P s as u → I as u → P u a → step u a = some v → I (as ++ [a]) v) :
    ∀ (as : List α) (t : σ), Steps step P s as t → I as t := by
  intro as
  induction as using List.reverseRecOn with
  | nil => intro t h; cases h; exact h0
  | append_singleton as a ih =>
    intro t h
    obtain ⟨u, hu, hut⟩ := (steps_append as [a] s t).1 h
    obtain ⟨hp, ht⟩ := (steps_single u a t).1 hut
    exact hstep as u a t hu (ih u hu) hp ht

theorem Steps.mono (hPQ : ∀ s a, P s a → Q s a) : ∀ (as : List α) (s t : σ), Steps step P s as t → Steps step Q s as t
  | [], _, _, h => h
  | _ :: as, s, t, ⟨hp, u, hu, h⟩ => ⟨hPQ s _ hp, u, hu, Steps.mono hPQ as u t h⟩

namespace Reach

theorem refl (s : σ) : Reach step P s s := ⟨[], rfl⟩

theorem one {s t : σ} (a : α) (hp : P s a) (h : step s a = some t) : Reach step P s t := ⟨[a], hp, t, h, rfl⟩

theorem trans {s t u : σ} (h₁ : Reach step P s t) (h₂ : Reach step P t u) : Reach step P s u := by
  obtain ⟨as, ha⟩ := h₁
  obtain ⟨bs, hb⟩ := h₂
  exact ⟨as ++ bs, (steps_append as bs s u).2 ⟨t, ha, hb⟩⟩

theorem snoc {s t u : σ} (h : Reach step P s t) (a : α) (hp : P t a) (hu : step t a = some u) : Reach step P s u :=
  h.trans (one a hp hu)

theorem mono {s t : σ} (hPQ : ∀ s a, P s a → Q s a) (h : Reach step P s t) : Reach step Q s t := by
  obtain ⟨as, ha⟩ := h
  exact ⟨as, ha.mono hPQ⟩

theorem any {s t : σ} (h : Reach step P s t) : Reach step anyStep s t := h.mono (fun _ _ _ => trivial)

/-- **The invariant rule**: what holds at the start and is kept by every guarded step from a reached state holds in
every reached state. -/
theorem inv {s t : σ} {I : σ → Prop} (h : Reach step P s t) (h0 : I s)
    (hstep : ∀ u a v, Reach step P s u → I u → P u a → step u a = some v → I v) : I t := by
  obtain ⟨as, ha⟩ := h
  exact Steps.inv (I := fun _ u => I u) h0 (fun bs u a v hu hi hp hv => hstep u a v ⟨bs, hu⟩ hi hp hv) as t ha

/-- **Refinement carries runs over**: if every guarded step is matched by a run of the abstract system between the
images, so is every guarded run. -/
theorem map {τ β : Type} {step' : τ → β → Option τ} {Q' : τ → β → Prop} {s t : σ} (f : σ → τ)
    (h : Reach step P s t)
    (hstep : ∀ u a v, Reach step P s u → P u a → step u a = some v → Reach step' Q' (f u) (f v)) :
    Reach step' Q' (f s) (f t) :=
  h.inv (I := fun u => Reach step' Q' (f s) (f u)) (refl _)
    (fun u a v hu hi hp hv => hi.trans (hstep u a v hu hp hv))

/-- **A rank that can always be lowered leads to the goal.** -/
theorem of_rank {I F : σ → Prop} (rank : σ → Nat)
    (h : ∀ s, I s → ¬ F s → ∃ t, Reach step P s t ∧ I t ∧ rank t < rank s) (s : σ) (hs : I s) :
    ∃ t, Reach step P s t ∧ I t ∧ F t := by
  induction hn : rank s using Nat.strongRecOn generalizing s with
  | _ n ih =>
    by_cases hF : F s
    · exact ⟨s, refl s, hs, hF⟩
    · obtain ⟨t, hst, ht, hlt⟩ := h s hs hF
      obtain ⟨u, htu, hu, hFu⟩ := ih (rank t) (hn ▸ hlt) t ht rfl
      exact ⟨u, hst.trans htu, hu, hFu⟩

end Reach

/-- **Runs that lower a rank end**: where an invariant holds whose every step lowers the rank, a run is no longer than
the rank it starts with. -/
theorem Steps.length_add_rank_le {I : σ → Prop} (rank : σ → Nat)
    (h : ∀ u a v, I u → step u a = some v → I v ∧ rank v < rank u) :
    ∀ (as : List α) (s t : σ), I s → Steps step P s as t → I t ∧ as.length + rank t ≤ rank s
  | [], s, t, hs, hst => by
    cases hst
    exact ⟨hs, Nat.le_of_eq (Nat.zero_add _)⟩
  | a :: as, s, t, hs, ⟨_, u, hu, hut⟩ => by
    obtain ⟨hiu, hlt⟩ := h s a u hs hu
    obtain ⟨hit, hle⟩ := Steps.length_add_rank_le rank h as u t hiu hut
    refine ⟨hit, ?_⟩
    rw [List.length_cons]
    omega

/-! ## Histories -/

/-- A system with a history of its runs: `see` adds to it what a step from a state shows. -/
def watch {ω : Type} (step : σ → α → Option σ) (see : σ → α → ω → ω) (p : σ × ω) (a : α) : Option (σ × ω) :=
  (step p.1 a).map (fun t => (t, see p.1 a p.2))

theorem watch_eq_some {ω : Type} {see : σ → α → ω → ω} {p q : σ × ω} {a : α} :
    watch step see p a = some q ↔ step p.1 a = some q.1 ∧ q.2 = see p.1 a p.2 := by
  obtain ⟨t, o⟩ := q
  simp [watch, eq_comm (a := o)]

/-- **A run with a history is a run.** -/
theorem Reach.of_watch {ω : Type} {see : σ → α → ω → ω} {Q : σ × ω → α → Prop} {p q : σ × ω}
    (h : Reach (watch step see) Q p q) : Reach step anyStep p.1 q.1 :=
  h.map Prod.fst (fun _ a _ _ _ hv => one a trivial (watch_eq_some.1 hv).1)

instance (s : σ) (a : α) : Decidable (anyStep s a) := isTrue trivial

theorem steps_of_runIf [∀ s a, Decidable (P s a)] : ∀ (as : List α) (s t : σ),
    runIf step (fun s a => decide (P s a)) s as = some t → Steps step P s as t
  | [], s, t, h => by
    cases h
    rfl
  | a :: as, s, t, h => by
    unfold runIf at h
    split at h
    · rename_i hp
      obtain ⟨u, hu, hut⟩ := Option.bind_eq_some_iff.1 h
      exact ⟨of_decide_eq_true hp, u, hu, steps_of_runIf as u t hut⟩
    · cases h

/-- **A run found by evaluation**: the guarded run of the actions ends in a state that passes the test. -/
theorem exists_steps_of_runIf (step : σ → α → Option σ) (P : σ → α → Prop) [∀ s a, Decidable (P s a)] (F : σ → Prop)
    [DecidablePred F] (s : σ) (as : List α)
    (h : (runIf step (fun s a => decide (P s a)) s as).any (fun t => decide (F t)) = true) :
    ∃ t, Steps step P s as t ∧ F t := by
  cases ht : runIf step (fun s a => decide (P s a)) s as with
  | none => simp [ht] at h
  | some t => exact ⟨t, steps_of_runIf as s t ht, by simpa [ht] using h⟩

/-- A run found by evaluation, and one that goes on from where it ends. -/
theorem exists_steps_append_of_runIf (step : σ → α → Option σ) (P : σ → α → Prop) [∀ s a, Decidable (P s a)]
    (F G : σ → Prop) [DecidablePred F] [DecidablePred G] (s : σ) (as bs : List α)
    (h : (runIf step (fun s a => decide (P s a)) s as).any (fun t => decide (F t)) = true)
    (h' : (runIf step (fun s a => decide (P s a)) s (as ++ bs)).any (fun t => decide (G t)) = true) :
    ∃ t u, Steps step P s as t ∧ F t ∧ Steps step P t bs u ∧ G u := by
  obtain ⟨t, ht, hF⟩ := exists_steps_of_runIf step P F s as h
  obtain ⟨u, hu, hG⟩ := exists_steps_of_runIf step P G s (as ++ bs) h'
  obtain ⟨t', ht', hu'⟩ := (steps_append as bs s u).1 hu
  cases Steps.unique as s t t' ht ht'
  exact ⟨t, u, ht, hF, hu', hG⟩

end Lts
