import Heel.Lib.Table
import Mathlib.Data.List.Induction

/-! Dictionaries as lists of entries in the order of insertion: an assignment puts a value in the
place of an old one of the same key, so of several the last value stays. -/
namespace Lib.Dict
variable {κ α : Type*} [DecidableEq κ]

/-- `d[key] = value`. -/
def assign (d : List (κ × α)) (entry : κ × α) : List (κ × α) :=
  Table.upsert (fun p => p.1 = entry.1) (fun p => (p.1, entry.2)) entry d

/-- The dictionary of the assignments of a list, one after the other. -/
def ofList (entries : List (κ × α)) : List (κ × α) := entries.foldl assign []

theorem mem_assign {d : List (κ × α)} {entry e : κ × α} :
    e ∈ assign d entry ↔ e = entry ∨ e.1 ≠ entry.1 ∧ e ∈ d := by
  obtain ⟨key, value⟩ := e
  obtain ⟨key', value'⟩ := entry
  unfold assign Table.upsert
  split
  · next hany =>
    rw [List.any_eq_true] at hany
    obtain ⟨old, hold, hkey⟩ := hany
    rw [decide_eq_true_eq] at hkey
    rw [Table.mem_update]
    constructor
    · rintro ⟨o, ho, h⟩
      by_cases hsame : o.1 = key'
      · rw [if_pos (decide_eq_true hsame)] at h
        exact .inl (h.trans (Prod.ext hsame rfl))
      · rw [if_neg (by simpa using hsame)] at h
        exact .inr ⟨h ▸ hsame, h ▸ ho⟩
    · rintro (h | ⟨hne, h⟩)
      · refine ⟨old, hold, ?_⟩
        rw [if_pos (decide_eq_true hkey), h]
        exact Prod.ext hkey.symm rfl
      · exact ⟨_, h, by rw [if_neg (by simpa using hne)]⟩
  · next hnone =>
    rw [List.mem_append, List.mem_singleton]
    constructor
    · rintro (h | h)
      · refine .inr ⟨fun hsame => hnone ?_, h⟩
        exact List.any_eq_true.mpr ⟨_, h, decide_eq_true hsame⟩
      · exact .inl h
    · rintro (h | ⟨-, h⟩)
      · exact .inr h
      · exact .inl h

theorem mem_ofList {entries : List (κ × α)} {e : κ × α} :
    e ∈ ofList entries ↔
      ∃ before after, entries = before ++ e :: after ∧ ∀ p ∈ after, p.1 ≠ e.1 := by
  induction entries using List.reverseRecOn with
  | nil =>
    simp [ofList]
  | append_singleton entries entry ih =>
    rw [ofList, List.foldl_append, List.foldl_cons, List.foldl_nil, ← ofList, mem_assign, ih]
    constructor
    · rintro (rfl | ⟨hne, before, after, rfl, hlast⟩)
      · exact ⟨entries, [], rfl, by simp⟩
      · refine ⟨before, after ++ [entry], by simp, ?_⟩
        intro p hp
        rw [List.mem_append, List.mem_singleton] at hp
        rcases hp with hp | rfl
        · exact hlast p hp
        · exact hne.symm
    · rintro ⟨before, after, h, hlast⟩
      induction after using List.reverseRecOn with
      | nil =>
        exact .inl (List.singleton_inj.mp (List.append_inj' h rfl).2.symm)
      | append_singleton after last _ =>
        rw [← List.cons_append, ← List.append_assoc] at h
        obtain ⟨hinit, hsame⟩ := List.append_inj' h rfl
        rw [List.singleton_inj] at hsame
        refine .inr ⟨(hlast entry (by simp [hsame])).symm, before, after, hinit, fun p hp =>
          hlast p ?_⟩
        exact List.mem_append_left _ hp

theorem eq_of_key {entries : List (κ × α)} {e e' : κ × α} (h : e ∈ ofList entries)
    (h' : e' ∈ ofList entries) (hkey : e.1 = e'.1) : e = e' := by
  induction entries using List.reverseRecOn with
  | nil => cases h
  | append_singleton entries entry ih =>
    rw [ofList, List.foldl_append, List.foldl_cons, List.foldl_nil, ← ofList, mem_assign] at h h'
    rcases h with rfl | ⟨hne, h⟩
    · rcases h' with rfl | ⟨hne', -⟩
      · rfl
      · exact absurd hkey.symm hne'
    · rcases h' with rfl | ⟨-, h'⟩
      · exact absurd hkey hne
      · exact ih h h'

theorem keys_nodup (entries : List (κ × α)) : ((ofList entries).map Prod.fst).Nodup := by
  induction entries using List.reverseRecOn with
  | nil => exact List.nodup_nil
  | append_singleton entries entry ih =>
    rw [ofList, List.foldl_append, List.foldl_cons, List.foldl_nil, ← ofList]
    unfold assign Table.upsert
    split
    · rw [Table.map_update]
      · exact ih
      · intro r hr
        rfl
    · next hnone =>
      rw [List.map_append, List.nodup_append]
      refine ⟨ih, List.nodup_singleton _, ?_⟩
      intro key hkey key' hkey' hsame
      rw [List.map_singleton, List.mem_singleton] at hkey'
      obtain ⟨e, he, rfl⟩ := List.mem_map.mp hkey
      exact hnone (List.any_eq_true.mpr ⟨e, he, decide_eq_true (hsame.trans hkey')⟩)

/-- Every key that was assigned has an entry, with the last value. -/
theorem exists_last {entries : List (κ × α)} {e : κ × α} (h : e ∈ entries) :
    ∃ last ∈ ofList entries, last.1 = e.1 := by
  induction entries using List.reverseRecOn with
  | nil => cases h
  | append_singleton entries entry ih =>
    rw [List.mem_append, List.mem_singleton] at h
    rw [ofList, List.foldl_append, List.foldl_cons, List.foldl_nil, ← ofList]
    by_cases hsame : e.1 = entry.1
    · exact ⟨entry, mem_assign.mpr (.inl rfl), hsame.symm⟩
    · obtain ⟨last, hlast, hkey⟩ := ih (h.resolve_right fun h => hsame (h ▸ rfl))
      exact ⟨last, mem_assign.mpr (.inr ⟨hkey ▸ hsame, hlast⟩), hkey⟩

end Lib.Dict
