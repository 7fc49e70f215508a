import Mathlib.Logic.Relation

/-! Labelled transition systems: reachable states, guarded runs and the rules for invariants
of a state and of a pair of an earlier and a later state. -/
namespace Lib
variable {σ α β : Type*}

structure Transition (σ α : Type*) where
  init : σ → Prop
  step : σ → α → σ → Prop

namespace Transition
variable (T : Transition σ α)

inductive Reachable : σ → Prop
  | init {s : σ} (h : T.init s) : Reachable s
  | step {s t : σ} {a : α} (hs : Reachable s) (h : T.step s a t) : Reachable t

/-- The runs all of whose steps meet a condition on the state before the step. -/
def restrict (guard : σ → α → Prop) : Transition σ α where
  init := T.init
  step s a t := T.step s a t ∧ guard s a

theorem Reachable.of_restrict {T : Transition σ α} {guard : σ → α → Prop} {s : σ}
    (h : (T.restrict guard).Reachable s) : T.Reachable s := by
  induction h with
  | init h => exact .init h
  | step _ h ih => exact .step ih h.1

theorem Reachable.restrict_imp {T : Transition σ α} {guard guard' : σ → α → Prop} {s : σ}
    (himp : ∀ s a, guard s a → guard' s a) (h : (T.restrict guard).Reachable s) :
    (T.restrict guard').Reachable s := by
  induction h with
  | init h => exact .init h
  | step _ h ih => exact .step ih ⟨h.1, himp _ _ h.2⟩

theorem invariant {P : σ → Prop} (hinit : ∀ s, T.init s → P s)
    (hstep : ∀ s a t, P s → T.step s a t → P t) {s : σ} (h : T.Reachable s) : P s := by
  induction h with
  | init h => exact hinit _ h
  | step _ h ih => exact hstep _ _ _ ih h

def Next (s t : σ) : Prop := ∃ a, T.step s a t

/-- `t` is reached from `s` by finitely many steps. -/
def Later : σ → σ → Prop := Relation.ReflTransGen T.Next

theorem Reachable.later {T : Transition σ α} {s t : σ} (hs : T.Reachable s) (h : T.Later s t) :
    T.Reachable t := by
  induction h with
  | refl => exact hs
  | tail _ h ih => obtain ⟨a, ha⟩ := h; exact .step ih ha

/-- Two-state rule: a reflexive transitive relation that every step from a reachable state
respects holds between any reachable state and any later one. -/
theorem later_rel {R : σ → σ → Prop} (hrefl : ∀ s, R s s)
    (htrans : ∀ s t u, R s t → R t u → R s u)
    (hstep : ∀ s a t, T.Reachable s → T.step s a t → R s t)
    {s t : σ} (hs : T.Reachable s) (h : T.Later s t) : R s t := by
  induction h with
  | refl => exact hrefl s
  | tail hst h ih =>
    obtain ⟨a, ha⟩ := h
    exact htrans _ _ _ ih (hstep _ _ _ (hs.later hst) ha)

/-- Origin rule: a row of a reachable state was brought in by one step and kept since. -/
theorem Reachable.origin {T : Transition σ α} {ρ : Type*} {R : σ → ρ → Prop} {K : ρ → ρ → Prop}
    {New : α → ρ → Prop} (hrefl : ∀ x, K x x) (htrans : ∀ x y z, K x y → K y z → K x z)
    (hinit : ∀ s x, T.init s → ¬ R s x)
    (hstep : ∀ s a t, T.Reachable s → T.step s a t → ∀ y, R t y →
      (∃ x, R s x ∧ K x y) ∨ New a y)
    {t : σ} (h : T.Reachable t) {y : ρ} (hy : R t y) :
    ∃ s a u x, T.Reachable s ∧ T.step s a u ∧ (¬ ∃ z, R s z ∧ K z x) ∧ R u x ∧ New a x ∧
      T.Later u t ∧ K x y := by
  induction h generalizing y with
  | init h => exact absurd hy (hinit _ _ h)
  | @step s t a hs h ih =>
    by_cases hold : ∃ x, R s x ∧ K x y
    · obtain ⟨x, hx, hk⟩ := hold
      obtain ⟨s', a', u, z, hs', hstep', hfresh, hz, hnew, hlater, hk'⟩ := ih hx
      exact ⟨s', a', u, z, hs', hstep', hfresh, hz, hnew, hlater.tail ⟨a, h⟩, htrans _ _ _ hk' hk⟩
    · have hnew := (hstep s a t hs h y hy).resolve_left hold
      exact ⟨s, a, t, y, hs, h, hold, hy, hnew, .refl, hrefl y⟩

/-- The system with a record that each step extends, and that no step reads. -/
def recorded (start : β) (extend : σ → α → σ → β → β) : Transition (σ × β) α where
  init s := T.init s.1 ∧ s.2 = start
  step s a t := T.step s.1 a t.1 ∧ t.2 = extend s.1 a t.1 s.2

theorem Reachable.recorded {T : Transition σ α} (start : β) (extend : σ → α → σ → β → β) {s : σ}
    (h : T.Reachable s) : ∃ b, (T.recorded start extend).Reachable (s, b) := by
  induction h with
  | init h => exact ⟨start, .init ⟨h, rfl⟩⟩
  | @step s t a _ h ih =>
    obtain ⟨b, hb⟩ := ih
    exact ⟨extend s a t b, .step hb ⟨h, rfl⟩⟩

end Transition
end Lib
