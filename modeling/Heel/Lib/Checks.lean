import Mathlib.Data.List.Forall2
import Mathlib.Data.List.Induction

/-! Sequences of checks that refuse with a reason: `Except` as straight-line code. -/
namespace Lib.Checks
universe u v
variable {ε : Type u} {α β σ : Type v}

/-- Refuse with `e` unless `c` holds. -/
def require (c : Prop) [Decidable c] (e : ε) : Except ε PUnit.{v+1} :=
  if c then .ok ⟨⟩ else .error e

example : (do require (1 < 2) "no"; pure 1 : Except String ℕ) = .ok 1 := by
  simp [require, bind, Except.bind, pure, Except.pure]

@[simp] theorem require_ok (c : Prop) [Decidable c] (e : ε) (u : PUnit.{v+1}) :
    require c e = .ok u ↔ c := by
  unfold require
  split <;> simp_all

@[simp] theorem bind_ok (x : Except ε α) (f : α → Except ε β) (b : β) :
    (x >>= f) = .ok b ↔ ∃ a, x = .ok a ∧ f a = .ok b := by
  cases x with
  | error e => simp [bind, Except.bind]
  | ok a => simp [bind, Except.bind]

theorem bind_of_ok {x : Except ε α} {a : α} (h : x = .ok a) (f : α → Except ε β) :
    (x >>= f) = f a := by
  rw [h]
  rfl

theorem passed {c : Prop} [Decidable c] {e : ε} (h : c) : require c e = .ok PUnit.unit.{v+1} :=
  (require_ok c e _).mpr h

theorem fst_ok {x : Except ε (α × β)} {a : α} (h : Prod.fst <$> x = .ok a) :
    ∃ b, x = .ok (a, b) := by
  cases x with
  | error e => cases h
  | ok p =>
    cases h
    exact ⟨p.2, rfl⟩

theorem snd_ok {x : Except ε (α × β)} {b : β} (h : Prod.snd <$> x = .ok b) :
    ∃ a, x = .ok (a, b) := by
  cases x with
  | error e => cases h
  | ok p =>
    cases h
    exact ⟨p.1, rfl⟩

def accepts : Except ε α → Bool
  | .ok _ => true
  | .error _ => false

theorem accepts_iff (x : Except ε α) : accepts x = true ↔ ∃ a, x = .ok a := by
  cases x <;> simp [accepts]

@[simp] theorem accepts_ok (a : α) : accepts (.ok a : Except ε α) = true := rfl

@[simp] theorem accepts_error (e : ε) : accepts (.error e : Except ε α) = false := rfl

/-- Did the computation return a value that passes a test? -/
def answers (q : α → Bool) : Except ε α → Bool
  | .ok a => q a
  | .error _ => false

theorem answers_iff {q : α → Bool} {x : Except ε α} :
    answers q x = true ↔ ∃ a, x = .ok a ∧ q a = true := by
  cases x <;> simp [answers]

/-- The computation returns a value with `Q`, or it refuses with a reason of `E`. -/
def Ends (x : Except ε α) (Q : α → Prop) (E : ε → Prop) : Prop :=
  (∀ a, x = .ok a → Q a) ∧ ∀ e, x = .error e → E e

section Ends
variable {x : Except ε α} {Q Q' : α → Prop} {E E' : ε → Prop} {R : β → Prop}

theorem ends_ok {a : α} (h : Q a) : Ends (.ok a : Except ε α) Q E :=
  ⟨fun _ heq => Except.ok.inj heq ▸ h, fun _ heq => absurd heq (by simp)⟩

theorem ends_error {e : ε} (h : E e) : Ends (.error e : Except ε α) Q E :=
  ⟨fun _ heq => absurd heq (by simp), fun _ heq => Except.error.inj heq ▸ h⟩

theorem Ends.bind {f : α → Except ε β} (h : Ends x Q E) (hf : ∀ a, Q a → Ends (f a) R E) :
    Ends (x >>= f) R E := by
  cases x with
  | ok a => exact hf a (h.1 a rfl)
  | error e => exact ends_error (h.2 e rfl)

theorem Ends.conseq (h : Ends x Q E) (hQ : ∀ a, Q a → Q' a) (hE : ∀ e, E e → E' e) :
    Ends x Q' E' :=
  ⟨fun a ha => hQ a (h.1 a ha), fun e he => hE e (h.2 e he)⟩

theorem ends_require {c : Prop} [Decidable c] {e : ε} (h : ¬ c → E e) :
    Ends (require.{u, v} c e) (fun _ => c) E := by
  by_cases hc : c
  · rw [require, if_pos hc]
    exact ends_ok hc
  · rw [require, if_neg hc]
    exact ends_error (h hc)

end Ends

/-- A check of every element passes exactly when each element passes it. -/
theorem forM_ok {f : α → Except ε PUnit} {xs : List α} :
    xs.forM f = .ok ⟨⟩ ↔ ∀ x ∈ xs, f x = .ok ⟨⟩ := by
  induction xs with
  | nil => simp [List.forM_eq_forM, pure, Except.pure]
  | cons x rest ih =>
    rw [List.forM_eq_forM] at ih ⊢
    rw [List.forM_cons, bind_ok, List.forall_mem_cons, ← ih]
    exact ⟨fun ⟨_, hx, hrest⟩ => ⟨hx, hrest⟩, fun ⟨hx, hrest⟩ => ⟨⟨⟩, hx, hrest⟩⟩

/-- A map of checks answers exactly the list of the elements' answers. -/
theorem mapM_ok {f : α → Except ε β} {xs : List α} {ys : List β} :
    xs.mapM f = .ok ys ↔ List.Forall₂ (fun x y => f x = .ok y) xs ys := by
  induction xs generalizing ys with
  | nil => simp [pure, Except.pure, eq_comm]
  | cons x rest ih =>
    rw [List.mapM_cons, bind_ok, List.forall₂_cons_left_iff]
    constructor
    · rintro ⟨y, hy, h⟩
      simp only [bind_ok, pure, Except.pure, Except.ok.injEq] at h
      obtain ⟨tail, htail, rfl⟩ := h
      exact ⟨y, tail, hy, ih.mp htail, rfl⟩
    · rintro ⟨y, tail, hy, htail, rfl⟩
      refine ⟨y, hy, ?_⟩
      simp only [bind_ok]
      exact ⟨tail, ih.mpr htail, rfl⟩

/-- A fold over a list extended by one element runs the last step on the state before it. -/
theorem foldlM_concat_ok (f : σ → α → Except ε σ) (s t : σ) (xs : List α) (x : α) :
    (xs ++ [x]).foldlM f s = .ok t ↔ ∃ m, xs.foldlM f s = .ok m ∧ f m x = .ok t := by
  rw [List.foldlM_append, bind_ok]
  simp

/-- The fold's invariant rule: what holds of the start and is kept by each step. -/
theorem foldlM_invariant (f : σ → α → Except ε σ) (P : List α → σ → Prop)
    (hstep : ∀ xs s x t, P xs s → f s x = .ok t → P (xs ++ [x]) t)
    (xs : List α) (s t : σ) (h0 : P [] s) (h : xs.foldlM f s = .ok t) : P xs t := by
  induction xs using List.reverseRecOn generalizing t with
  | nil =>
    simp only [List.foldlM_nil, pure, Except.pure, Except.ok.injEq] at h
    exact h ▸ h0
  | append_singleton xs x ih =>
    obtain ⟨m, hm, hx⟩ := (foldlM_concat_ok f s t xs x).mp h
    exact hstep xs m x t (ih m hm) hx

/-- The fold's invariant rule, where a step may use which element of the list it is at. -/
theorem foldlM_prefix (f : σ → α → Except ε σ) (P : List α → σ → Prop) {items : List α}
    (hstep : ∀ pre x post s t, items = pre ++ x :: post → P pre s → f s x = .ok t →
      P (pre ++ [x]) t)
    {s t : σ} (h0 : P [] s) (h : items.foldlM f s = .ok t) : P items t := by
  have hprefix : items <+: items → P items t := by
    refine foldlM_invariant f (fun pre s => pre <+: items → P pre s) ?_ items s t (fun _ => h0) h
    intro pre s x t ih hx hpre
    obtain ⟨post, hpost⟩ := hpre
    rw [List.append_assoc, List.singleton_append] at hpost
    exact hstep pre x post s t hpost.symm (ih ⟨x :: post, hpost⟩) hx
  exact hprefix (List.prefix_refl items)

end Lib.Checks
