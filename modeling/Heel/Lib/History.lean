import Mathlib.Data.List.Basic

/-! Histories: lists of events, the newest last, and what holds of every event and those
before it. -/
namespace Lib.History
variable {ε β : Type*} {P Q : List ε → ε → Prop} {h : List ε} {e : ε}

/-- Every event stands in the relation to the events before it. -/
def Each (P : List ε → ε → Prop) (h : List ε) : Prop :=
  ∀ before e after, h = before ++ e :: after → P before e

theorem each_nil : Each P [] := by
  intro before e after h
  simp at h

theorem each_concat : Each P (h ++ [e]) ↔ Each P h ∧ P h e := by
  constructor
  · intro hall
    refine ⟨fun before x after hx => hall before x (after ++ [e]) (by simp [hx]), ?_⟩
    exact hall h e [] rfl
  · rintro ⟨hold, hnew⟩ before x after hx
    rcases List.eq_nil_or_concat after with rfl | ⟨rest, y, rfl⟩
    · obtain ⟨rfl, hxe⟩ := List.append_inj' hx rfl
      cases hxe
      exact hnew
    · have hsplit : h ++ [e] = (before ++ x :: rest) ++ [y] := by simpa using hx
      exact hold before x rest (List.append_inj' hsplit rfl).1

def newest (f : ε → Option β) (h : List ε) : Option β := h.reverse.findSome? f

theorem newest_concat (f : ε → Option β) : newest f (h ++ [e]) = (f e).or (newest f h) := by
  unfold newest
  rw [List.reverse_append, List.reverse_singleton, List.singleton_append, List.findSome?_cons]
  cases f e <;> rfl

end Lib.History
