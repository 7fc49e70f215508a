import Heel.Lib.JsonOrder
import Heel.Lib.JsonScan

/-! A reader that refuses a key which comes twice: each object of what it reads has
distinct keys. -/
namespace Lib.JsonText
open Lib.Checks
variable {ε : Type} {h : Hooks ε}

/-- A constant is a value of distinct keys, and an object is made of some of its pairs, with
distinct keys. -/
structure Hooks.Distinct (h : Hooks ε) : Prop where
  constant : ∀ {name v}, h.constant name = .ok v → Keyed v
  pairs : ∀ {ps fields}, h.pairs ps = .ok fields →
    (fields.map Prod.fst).Nodup ∧ ∀ p ∈ fields, p ∈ ps

theorem distinct_uniquePairs {duplicate : ε} {ps fields : List (Text × Value)}
    (h : uniquePairs duplicate ps = .ok fields) :
    (fields.map Prod.fst).Nodup ∧ ∀ p ∈ fields, p ∈ ps := by
  unfold uniquePairs at h
  split at h
  · next hnodup =>
    rw [Except.ok.injEq] at h
    subst h
    exact ⟨hnodup, fun _ hp => hp⟩
  · cases h

theorem keyed_literals : ∀ name ∈ literals, Keyed name.2 := by
  simp [literals, Keyed]

theorem keyed_scanNumber {cs r : Text} {v : Value}
    (hv : (scanNumber cs : Except (Fault ε) (Value × Text)) = .ok (v, r)) : Keyed v := by
  unfold scanNumber at hv
  split at hv
  · cases hv
  split at hv
  · cases hv
    trivial
  split at hv
  · cases hv
  · cases hv
    trivial

theorem keyed_scanAtom (hkeys : h.Distinct) {cs r : Text} {v : Value}
    (hv : scanAtom h cs = .ok (v, r)) : Keyed v := by
  unfold scanAtom at hv
  split at hv
  · next name value hliteral =>
    cases hv
    exact keyed_literals _ (List.mem_of_find?_eq_some hliteral)
  split at hv
  · simp only [bind_ok, raising_ok, pure, Except.pure, Except.ok.injEq, Prod.mk.injEq] at hv
    obtain ⟨value, hvalue, rfl, -⟩ := hv
    exact hkeys.constant hvalue
  · exact keyed_scanNumber hv

/-- What the readings of a value, of the rest of an object and of the rest of an array answer. -/
structure KeyedAt (h : Hooks ε) (n : ℕ) : Prop where
  value : ∀ {d cs v r}, scanValue h n d cs = .ok (v, r) → Keyed v
  members : ∀ {d done cs v r}, (∀ p ∈ done, Keyed p.2) →
    scanMembers h n d done cs = .ok (v, r) → Keyed v
  elements : ∀ {d done cs v r}, (∀ v ∈ done, Keyed v) →
    scanElements h n d done cs = .ok (v, r) → Keyed v

theorem keyed_pairs (hkeys : h.Distinct) {ps fields : List (Text × Value)}
    (hps : ∀ p ∈ ps, Keyed p.2) (hfields : h.pairs ps = .ok fields) : Keyed (.obj fields) := by
  obtain ⟨hnodup, hmem⟩ := hkeys.pairs hfields
  rw [Keyed, keyedFields_iff]
  exact ⟨hnodup, fun p hp => hps p (hmem p hp)⟩

theorem keyed_scanValue (hkeys : h.Distinct) {n : ℕ} (ih : KeyedAt h n) {d : ℕ} {cs r : Text}
    {v : Value} (hv : scanValue h (n + 1) d cs = .ok (v, r)) : Keyed v := by
  unfold scanValue at hv
  split at hv
  · simp only [bind_ok, pure, Except.pure, Except.ok.injEq, Prod.mk.injEq] at hv
    obtain ⟨⟨s, r'⟩, -, rfl, -⟩ := hv
    trivial
  split at hv
  · split at hv
    · cases hv
    split at hv
    · simp only [bind_ok, raising_ok, pure, Except.pure, Except.ok.injEq, Prod.mk.injEq] at hv
      obtain ⟨fields, hfields, rfl, -⟩ := hv
      exact keyed_pairs hkeys (by simp) hfields
    · exact ih.members (by simp) hv
  split at hv
  · split at hv
    · cases hv
    split at hv
    · cases hv
      trivial
    · exact ih.elements (by simp) hv
  · exact keyed_scanAtom hkeys hv

theorem keyed_scanMembers (hkeys : h.Distinct) {n : ℕ} (ih : KeyedAt h n) {d : ℕ}
    {done : List (Text × Value)} {cs r : Text} {v : Value} (hdone : ∀ p ∈ done, Keyed p.2)
    (hv : scanMembers h (n + 1) d done cs = .ok (v, r)) : Keyed v := by
  unfold scanMembers at hv
  simp only [bind_ok] at hv
  obtain ⟨⟨key, r₁⟩, -, hv⟩ := hv
  split at hv
  · simp only [bind_ok] at hv
    obtain ⟨⟨value, r₂⟩, hvalue, hv⟩ := hv
    have hnext : ∀ p ∈ done ++ [(key, value)], Keyed p.2 := by
      intro p hp
      rw [List.mem_append, List.mem_singleton] at hp
      rcases hp with hp | rfl
      · exact hdone p hp
      · exact ih.value hvalue
    dsimp only at hv
    split at hv
    · exact ih.members hnext hv
    split at hv
    · simp only [bind_ok, raising_ok, pure, Except.pure, Except.ok.injEq, Prod.mk.injEq] at hv
      obtain ⟨fields, hfields, rfl, -⟩ := hv
      exact keyed_pairs hkeys hnext hfields
    · cases hv
  · cases hv

theorem keyed_scanElements {n : ℕ} (ih : KeyedAt h n) {d : ℕ} {done : List Value} {cs r : Text}
    {v : Value} (hdone : ∀ v ∈ done, Keyed v)
    (hv : scanElements h (n + 1) d done cs = .ok (v, r)) : Keyed v := by
  unfold scanElements at hv
  simp only [bind_ok] at hv
  obtain ⟨⟨value, r₁⟩, hvalue, hv⟩ := hv
  have hnext : ∀ v ∈ done ++ [value], Keyed v := by
    intro v hv
    rw [List.mem_append, List.mem_singleton] at hv
    rcases hv with hv | rfl
    · exact hdone v hv
    · exact ih.value hvalue
  dsimp only at hv
  split at hv
  · exact ih.elements hnext hv
  split at hv
  · cases hv
    rw [Keyed, keyedItems_iff]
    exact hnext
  · cases hv

theorem keyedAt (hkeys : h.Distinct) (n : ℕ) : KeyedAt h n := by
  induction n with
  | zero =>
    constructor
    · intro d cs v r hv
      cases hv
    · intro d done cs v r _ hv
      cases hv
    · intro d done cs v r _ hv
      cases hv
  | succ n ih =>
    exact ⟨keyed_scanValue hkeys ih, keyed_scanMembers hkeys ih, keyed_scanElements ih⟩

theorem loads_keyed (hkeys : h.Distinct) {d : ℕ} {text : Text} {v : Value}
    (hv : loads h d text = .ok v) : Keyed v := by
  unfold loads at hv
  split at hv
  · cases hv
  simp only [bind_ok] at hv
  obtain ⟨⟨value, r⟩, hvalue, hv⟩ := hv
  split at hv
  · cases hv
    exact (keyedAt hkeys _).value hvalue
  · cases hv

end Lib.JsonText
