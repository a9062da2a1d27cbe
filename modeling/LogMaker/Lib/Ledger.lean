import LogMaker.Lib.Lts
/-!
# Ledger — what a run was asked for, what it has done, and what it has left

A history of a run keeps two lists: what the run was `asked` for, in order, and what it has `done` of it.  Each state
says by itself what it has `left`.  If a step moves entries from `left` to `done` at the front and appends what is
asked at the back, then at every state of every run the two lists balance (`Reach.balance`): nothing is done that was
not asked for, nothing twice and nothing out of order, and what is not done is what is left.
-/
namespace Lts

variable {σ α ω ε : Type} {step : σ → α → Option σ} {see : σ → α → ω → ω} {Q : σ × ω → α → Prop}

/-- One step's entries balance: `d` is done by it, `q` asked. -/
def Moves (done asked : ω → List ε) (left : σ → List ε) (u : σ) (o : ω) (v : σ) (o' : ω) : Prop :=
  ∃ d q, done o' = done o ++ d ∧ asked o' = asked o ++ q ∧ left u ++ q = d ++ left v

/-- A step that does nothing and is asked nothing leaves what is left. -/
theorem Moves.keep {done asked : ω → List ε} {left : σ → List ε} {u v : σ} {o o' : ω} (hd : done o' = done o)
    (hq : asked o' = asked o) (hl : left v = left u) : Moves done asked left u o v o' :=
  ⟨[], [], by rw [hd, List.append_nil], by rw [hq, List.append_nil], by rw [hl, List.append_nil, List.nil_append]⟩

/-- The next entry is done. -/
theorem Moves.one {done asked : ω → List ε} {left : σ → List ε} {u v : σ} {o o' : ω} (x : ε)
    (hd : done o' = done o ++ [x]) (hq : asked o' = asked o) (hl : left u = x :: left v) :
    Moves done asked left u o v o' :=
  ⟨[x], [], hd, by rw [hq, List.append_nil], by rw [hl, List.append_nil, List.singleton_append]⟩

/-- Entries are asked for, none being left. -/
theorem Moves.ask {done asked : ω → List ε} {left : σ → List ε} {u v : σ} {o o' : ω} (hd : done o' = done o)
    (hu : left u = []) (hq : asked o' = asked o ++ left v) : Moves done asked left u o v o' :=
  ⟨[], left v, by rw [hd, List.append_nil], hq, by rw [hu]⟩

/-- **The balance of a run**: what is done and what is left are what was asked for, in order. -/
theorem Reach.balance {p q : σ × ω} (h : Reach (watch step see) Q p q) (done asked : ω → List ε) (left : σ → List ε)
    (h0 : done p.2 ++ left p.1 = asked p.2)
    (hstep : ∀ u a v, Reach (watch step see) Q p u → step u.1 a = some v →
      Moves done asked left u.1 u.2 v (see u.1 a u.2)) :
    done q.2 ++ left q.1 = asked q.2 := by
  refine h.inv (I := fun p => done p.2 ++ left p.1 = asked p.2) h0 (fun u a v hu hi _ huv => ?_)
  obtain ⟨hs, ho⟩ := watch_eq_some.1 huv
  obtain ⟨d, x, hd, hx, hl⟩ := hstep u a v.1 hu hs
  rw [ho, hd, hx, List.append_assoc, ← hl, ← List.append_assoc, hi]

/-! ## Several parties in one history -/

variable {κ : Type} [DecidableEq κ]

/-- The entries of one party. -/
def entriesOf (t : κ) (l : List (κ × ε)) : List ε := l.filterMap (fun x => if x.1 = t then some x.2 else none)

theorem entriesOf_append (t : κ) (l₁ l₂ : List (κ × ε)) :
    entriesOf t (l₁ ++ l₂) = entriesOf t l₁ ++ entriesOf t l₂ := List.filterMap_append ..

theorem entriesOf_own (t : κ) (l : List (κ × ε)) (x : ε) : entriesOf t (l ++ [(t, x)]) = entriesOf t l ++ [x] := by
  rw [entriesOf_append]
  simp [entriesOf]

theorem entriesOf_other {t u : κ} (h : u ≠ t) (l : List (κ × ε)) (x : ε) :
    entriesOf t (l ++ [(u, x)]) = entriesOf t l := by
  rw [entriesOf_append]
  simp [entriesOf, h]

end Lts
