import Mathlib.Order.Lattice
import Mathlib.Tactic.Tauto

/-! A register that is set by numbered messages: a message is looked at once, and it sets the
register if it is newer than what is there and may follow it. When the last value depends on the
order of delivery. -/
namespace Lib

structure Feed (μ κ γ ι : Type*) where
  key : μ → κ
  value : μ → γ
  version : γ → ι
  follows : γ → γ → Bool

structure Register (κ γ : Type*) where
  value : Option γ
  seen : List κ

namespace Feed
variable {μ κ γ ι : Type*} [DecidableEq κ] [LinearOrder ι]
variable {F : Feed μ κ γ ι} {s : Register κ γ} {m n : μ} {ms : List μ}

def Admits (F : Feed μ κ γ ι) (s : Register κ γ) (m : μ) : Prop :=
  ∀ c ∈ s.value, F.version c < F.version (F.value m) ∧ F.follows c (F.value m)

instance : Decidable (F.Admits s m) :=
  inferInstanceAs (Decidable (∀ c ∈ s.value, _))

def deliver (F : Feed μ κ γ ι) (s : Register κ γ) (m : μ) : Register κ γ :=
  if F.key m ∈ s.seen then s
  else ⟨if F.Admits s m then some (F.value m) else s.value, s.seen ++ [F.key m]⟩

def deliverAll (F : Feed μ κ γ ι) (s : Register κ γ) (ms : List μ) : Register κ γ :=
  ms.foldl F.deliver s

def AllSet (F : Feed μ κ γ ι) (s : Register κ γ) : List μ → Prop
  | [] => True
  | m :: ms => F.key m ∉ s.seen ∧ F.Admits s m ∧ F.AllSet (F.deliver s m) ms

theorem deliverAll_cons : F.deliverAll s (m :: ms) = F.deliverAll (F.deliver s m) ms := rfl

theorem deliverAll_append {xs ys : List μ} :
    F.deliverAll s (xs ++ ys) = F.deliverAll (F.deliverAll s xs) ys :=
  List.foldl_append

theorem deliverAll_concat : F.deliverAll s (ms ++ [m]) = F.deliver (F.deliverAll s ms) m :=
  deliverAll_append

theorem deliver_seen (h : F.key m ∈ s.seen) : F.deliver s m = s := if_pos h

theorem deliver_set (hnew : F.key m ∉ s.seen) (h : F.Admits s m) :
    F.deliver s m = ⟨some (F.value m), s.seen ++ [F.key m]⟩ := by
  rw [deliver, if_neg hnew, if_pos h]

theorem deliver_refused (hnew : F.key m ∉ s.seen) (h : ¬ F.Admits s m) :
    F.deliver s m = ⟨s.value, s.seen ++ [F.key m]⟩ := by
  rw [deliver, if_neg hnew, if_neg h]

theorem mem_seen_deliver {k : κ} : k ∈ (F.deliver s m).seen ↔ k ∈ s.seen ∨ k = F.key m := by
  by_cases hm : F.key m ∈ s.seen
  · rw [deliver_seen hm]
    exact ⟨.inl, fun h => h.elim id fun h => h ▸ hm⟩
  · rw [deliver, if_neg hm]
    simp

theorem deliver_value : (F.deliver s m).value = s.value ∨
    F.Admits s m ∧ (F.deliver s m).value = some (F.value m) := by
  by_cases hm : F.key m ∈ s.seen
  · exact .inl (by rw [deliver_seen hm])
  · by_cases h : F.Admits s m
    · exact .inr ⟨h, by rw [deliver_set hm h]⟩
    · exact .inl (by rw [deliver_refused hm h])

theorem allSet_append {xs ys : List μ} :
    F.AllSet s (xs ++ ys) ↔ F.AllSet s xs ∧ F.AllSet (F.deliverAll s xs) ys := by
  induction xs generalizing s with
  | nil => simp [AllSet, deliverAll]
  | cons m xs ih =>
    simp only [List.cons_append, AllSet, ih, and_assoc]
    rfl

theorem AllSet.ahead (h : F.AllSet s ms) (hm : m ∈ ms) :
    F.key m ∉ s.seen ∧ ∀ c ∈ s.value, F.version c < F.version (F.value m) := by
  induction ms generalizing s with
  | nil => cases hm
  | cons k ms ih =>
    obtain ⟨hnew, hadmits, hrest⟩ := h
    rcases List.mem_cons.mp hm with rfl | hm
    · exact ⟨hnew, fun c hc => (hadmits c hc).1⟩
    · obtain ⟨hseen, hnewer⟩ := ih hrest hm
      rw [deliver_set hnew hadmits] at hnewer
      refine ⟨fun hold => hseen (mem_seen_deliver.mpr (.inl hold)), fun c hc => ?_⟩
      exact (hadmits c hc).1.trans (hnewer _ rfl)

/-- The register after a message of a run in which every message sets it. -/
theorem AllSet.at {xs ys : List μ} (h : F.AllSet s (xs ++ m :: ys)) :
    (F.deliverAll s (xs ++ [m])).value = some (F.value m) ∧
      F.AllSet (F.deliverAll s (xs ++ [m])) ys := by
  obtain ⟨-, hnew, hadmits, hrest⟩ := allSet_append.mp h
  rw [deliverAll_concat]
  exact ⟨by rw [deliver_set hnew hadmits], hrest⟩

theorem AllSet.lt_last (h : F.AllSet s (ms ++ [n])) (hm : m ∈ ms) :
    F.key n ≠ F.key m ∧ F.version (F.value m) < F.version (F.value n) := by
  obtain ⟨xs, ys, rfl⟩ := List.append_of_mem hm
  rw [List.append_assoc] at h
  obtain ⟨-, hnew, hadmits, hrest⟩ := allSet_append.mp h
  obtain ⟨hseen, hnewer⟩ :=
    AllSet.ahead hrest (List.mem_append_right ys (List.mem_singleton.mpr rfl))
  rw [deliver_set hnew hadmits] at hnewer
  exact ⟨fun hid => hseen (mem_seen_deliver.mpr (.inr hid)), hnewer _ rfl⟩

/-- The last message is still to be looked at, and may set the register. -/
structure Awaits (F : Feed μ κ γ ι) (n : μ) (s : Register κ γ) : Prop where
  unseen : F.key n ∉ s.seen
  admits : F.Admits s n

/-- The last message was looked at and is not what is there. -/
structure Misses (F : Feed μ κ γ ι) (n : μ) (s : Register κ γ) : Prop where
  seen : F.key n ∈ s.seen
  other : ∀ c ∈ s.value, F.version c ≠ F.version (F.value n)

/-- A message that the last one may follow. -/
structure Before (F : Feed μ κ γ ι) (n m : μ) : Prop where
  key : F.key n ≠ F.key m
  older : F.version (F.value m) < F.version (F.value n)
  follows : F.follows (F.value m) (F.value n)

theorem Awaits.deliver (h : F.Awaits n s) (hm : m = n ∨ F.Before n m) :
    (m ≠ n ∧ F.Awaits n (F.deliver s m)) ∨ (F.deliver s m).value = some (F.value n) := by
  rcases hm with rfl | hbefore
  · exact .inr (by rw [deliver_set h.unseen h.admits])
  · refine .inl ⟨fun heq => hbefore.key (by rw [heq]), fun hseen => ?_, fun c hc => ?_⟩
    · exact (mem_seen_deliver.mp hseen).elim h.unseen hbefore.key
    · rcases deliver_value (F := F) (s := s) (m := m) with hsame | ⟨-, hset⟩
      · exact h.admits c (hsame ▸ hc)
      · obtain rfl : F.value m = c := Option.some.inj (hset.symm.trans hc)
        exact ⟨hbefore.older, hbefore.follows⟩

theorem value_deliver_newest (h : s.value = some (F.value n))
    (hm : F.version (F.value m) ≤ F.version (F.value n)) :
    (F.deliver s m).value = some (F.value n) := by
  rcases deliver_value (F := F) (s := s) (m := m) with hsame | ⟨hadmits, -⟩
  · exact hsame.trans h
  · exact absurd (hadmits _ h).1 hm.not_gt

theorem value_deliverAll_newest (h : s.value = some (F.value n))
    (hms : ∀ m ∈ ms, F.version (F.value m) ≤ F.version (F.value n)) :
    (F.deliverAll s ms).value = some (F.value n) := by
  induction ms generalizing s with
  | nil => exact h
  | cons m ms ih =>
    rw [deliverAll_cons]
    exact ih (value_deliver_newest h (hms m (.head _))) fun k hk => hms k (.tail _ hk)

theorem Awaits.deliverAll (h : F.Awaits n s) (hn : n ∈ ms)
    (hms : ∀ m ∈ ms, m = n ∨ F.Before n m) :
    (F.deliverAll s ms).value = some (F.value n) := by
  induction ms generalizing s with
  | nil => cases hn
  | cons m ms ih =>
    have hrest : ∀ k ∈ ms, k = n ∨ F.Before n k := fun k hk => hms k (.tail _ hk)
    rcases h.deliver (hms m (.head _)) with ⟨hne, hawaits⟩ | hset
    · exact ih hawaits ((List.mem_cons.mp hn).resolve_left hne.symm) hrest
    · rw [deliverAll_cons]
      refine value_deliverAll_newest hset fun k hk => ?_
      rcases hrest k hk with rfl | hbefore
      · exact le_rfl
      · exact hbefore.older.le

theorem Misses.deliver (h : F.Misses n s)
    (hm : m = n ∨ F.version (F.value m) < F.version (F.value n)) : F.Misses n (F.deliver s m) := by
  rcases hm with rfl | hlt
  · rw [deliver_seen h.seen]
    exact h
  · refine ⟨mem_seen_deliver.mpr (.inl h.seen), fun c hc => ?_⟩
    rcases deliver_value (F := F) (s := s) (m := m) with hsame | ⟨-, hset⟩
    · exact h.other c (hsame ▸ hc)
    · obtain rfl : F.value m = c := Option.some.inj (hset.symm.trans hc)
      exact hlt.ne

theorem Misses.deliverAll (h : F.Misses n s)
    (hms : ∀ m ∈ ms, m = n ∨ F.version (F.value m) < F.version (F.value n)) :
    F.Misses n (F.deliverAll s ms) := by
  induction ms generalizing s with
  | nil => exact h
  | cons m ms ih => exact ih (h.deliver (hms m (.head _))) fun k hk => hms k (.tail _ hk)

/-- A message that may not follow what is there is missed for good. -/
theorem misses_of_refused {c : γ} (hc : s.value = some c) (hnew : F.key n ∉ s.seen)
    (hlt : F.version c < F.version (F.value n)) (h : ¬ F.follows c (F.value n)) :
    F.Misses n (F.deliver s n) := by
  rw [deliver_refused hnew fun hadmits => h (hadmits c hc).2]
  refine ⟨by simp, fun d hd => ?_⟩
  obtain rfl : c = d := Option.some.inj (hc.symm.trans hd)
  exact hlt.ne

/-- The order of delivery does not matter if and only if the newest message may follow whatever can
be there when it arrives. -/
theorem converges_iff (h : F.AllSet s (ms ++ [n])) :
    (∀ ds, (∀ m, m ∈ ds ↔ m ∈ ms ++ [n]) → (F.deliverAll s ds).value = some (F.value n)) ↔
    (∀ c ∈ s.value, F.follows c (F.value n)) ∧ ∀ m ∈ ms, F.follows (F.value m) (F.value n) := by
  have hlast : n ∈ ms ++ [n] := List.mem_append_right _ (List.mem_singleton.mpr rfl)
  have hahead := h.ahead hlast
  constructor
  · intro hall
    -- in no run that is cut before the newest message is it missed
    have hmissed : ∀ xs ys, ms = xs ++ ys → ¬ F.Misses n (F.deliver (F.deliverAll s xs) n) := by
      rintro xs ys rfl hmisses
      have holder : ∀ m ∈ ys, m = n ∨ F.version (F.value m) < F.version (F.value n) :=
        fun m hm => .inr (h.lt_last (List.mem_append_right _ hm)).2
      have hend := hmisses.deliverAll holder
      have hvalue := hall (xs ++ n :: ys) fun m => by
        simp only [List.mem_append, List.mem_cons, List.not_mem_nil, or_false]
        tauto
      rw [deliverAll_append] at hvalue
      exact hend.other _ hvalue rfl
    refine ⟨fun c hc => by_contra fun hnot => ?_, fun m hm => by_contra fun hnot => ?_⟩
    · exact hmissed [] ms rfl (misses_of_refused hc hahead.1 (hahead.2 c hc) hnot)
    · obtain ⟨xs, ys, rfl⟩ := List.append_of_mem hm
      rw [List.append_assoc] at h
      obtain ⟨hvalue, hrest⟩ := h.at
      obtain ⟨hnew, hnewer⟩ := hrest.ahead (List.mem_append_right _ (List.mem_singleton.mpr rfl))
      exact hmissed (xs ++ [m]) ys (by simp) (misses_of_refused hvalue hnew (hnewer _ hvalue) hnot)
  · rintro ⟨hstart, hmessages⟩ ds hds
    have hawaits : F.Awaits n s := ⟨hahead.1, fun c hc => ⟨hahead.2 c hc, hstart c hc⟩⟩
    refine hawaits.deliverAll ((hds n).mpr hlast) fun m hm => ?_
    rcases List.mem_append.mp ((hds m).mp hm) with hm | hm
    · obtain ⟨hkey, hlt⟩ := h.lt_last hm
      exact .inr ⟨hkey, hlt, hmessages m hm⟩
    · exact .inl (List.mem_singleton.mp hm)

end Feed
end Lib
