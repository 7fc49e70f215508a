import Mathlib.Data.List.Dedup
import Heel.Lib.Literal
import Heel.Lib.Table
import Heel.Runner.Redaction

/-! Which keys name a secret. The words of a key are joined in the order in which a set of them is
enumerated, which another run of the program may choose differently; here for which keys that order
decides nothing. -/
namespace Heel.Redaction
open Lib Lib.JsonText Lib.Checks Heel.Content Heel.PlanDifferential

/-- An order of enumeration of sets: every element once. -/
def Enumerates (arrange : List Text → List Text) : Prop := ∀ parts, (arrange parts).Perm parts

/-- The words of a key in their order: the runs of letters and digits of the separated, casefolded
text. -/
def wordsOf (casefold : Text → Text) (key : Text) : List Text :=
  ((casefold (separated key)).splitOnP fun c => !(isUpper c || isLower c || isDigit c)).filter
    fun part => part ≠ []

variable {casefold : Text → Text} {arrange : List Text → List Text} {key : Text}

theorem secretKey_eq : secretKey ⟨casefold, arrange⟩ key =
    ((wordsOf casefold key).dedup.any secretParts.contains ||
      secretCompacts.contains (arrange (wordsOf casefold key).dedup).flatten) := rfl

/-- Two names with the same letters are one: their lengths and the letter `h` tell them apart. -/
theorem name_by_letters : ∀ a ∈ secretCompacts, ∀ b ∈ secretCompacts,
    a.length = b.length → a.count 0x68 = b.count 0x68 → a = b := by
  simp only [secretCompacts, Literal.points_codes]
  decide +kernel

/-- No name is left as it is when its first two words change places. -/
theorem swapped_self : ∀ name ∈ secretCompacts, ∀ i < name.length + 1, ∀ j < name.length + 1,
    (name.drop i).take j ++ name.take i ++ (name.drop i).drop j = name →
      name.take i = [] ∨ (name.drop i).take j = [] ∨ name.take i = (name.drop i).take j := by
  simp only [secretCompacts, Literal.points_codes]
  decide +kernel

theorem swapped_name : ∀ name ∈ secretCompacts, ∀ i < name.length + 1, ∀ j < name.length + 1,
    (name.drop i).take j ++ name.take i ++ (name.drop i).drop j ∈ secretCompacts →
      name.take i = [] ∨ (name.drop i).take j = [] ∨ name.take i = (name.drop i).take j := by
  intro name hname i hi j hj hswap
  have hperm : ((name.drop i).take j ++ name.take i ++ (name.drop i).drop j).Perm name := by
    calc
      ((name.drop i).take j ++ name.take i ++ (name.drop i).drop j).Perm
          (name.take i ++ (name.drop i).take j ++ (name.drop i).drop j) :=
        List.perm_append_comm.append_right _
      _ = name := by rw [List.append_assoc, List.take_append_drop, List.take_append_drop]
  exact swapped_self name hname i hi j hj
    (name_by_letters _ hswap _ hname hperm.length_eq (hperm.count_eq _))

theorem rotated_name : ∀ name ∈ secretCompacts, ∀ i < name.length, 0 < i →
    name.drop i ++ name.take i ≠ name := by
  simp only [secretCompacts, Literal.points_codes]
  decide +kernel

theorem swap_words {x y rest : Text} (hx : x ≠ []) (hy : y ≠ []) (hne : x ≠ y)
    (h : x ++ (y ++ rest) ∈ secretCompacts) : y ++ (x ++ rest) ∉ secretCompacts := by
  intro hswap
  have hfinite := swapped_name _ h x.length (by rw [List.length_append]; omega) y.length
    (by rw [List.length_append, List.length_append]; omega)
  rw [List.take_left, List.drop_left, List.take_left, List.drop_left, List.append_assoc] at hfinite
  cases hfinite hswap with
  | inl h => exact hx h
  | inr h =>
    cases h with
    | inl h => exact hy h
    | inr h => exact hne h

theorem repeated_word {x : Text} (hx : x ≠ []) {n : ℕ}
    (h : (List.replicate n x).flatten ∈ secretCompacts) : n = 1 := by
  match n, h with
  | 0, h =>
    have hnil : ([] : Text) ∈ secretCompacts := h
    exact absurd hnil (by decide)
  | 1, _ => rfl
  | n + 2, h =>
    exfalso
    have hcomm : (List.replicate (n + 1) x).flatten ++ x =
        x ++ (List.replicate (n + 1) x).flatten := by
      have hright := congrArg List.flatten (List.replicate_succ' (n := n + 1) (a := x))
      have hleft := congrArg List.flatten (List.replicate_succ (n := n + 1) (a := x))
      rw [List.flatten_append, List.flatten_singleton] at hright
      rw [List.flatten_cons] at hleft
      exact hright.symm.trans hleft
    have hpos : 0 < x.length := List.length_pos_iff.mpr hx
    rw [List.replicate_succ, List.flatten_cons] at h
    apply rotated_name _ h x.length _ hpos
    · rw [List.drop_left, List.take_left, hcomm]
    · rw [List.length_append, List.replicate_succ, List.flatten_cons, List.length_append]
      omega

/-- What becomes of the value of a key: the redactor replaces it, and a walk does not enter it. -/
structure Hidden (W : Words) (key : Text) : Prop where
  secret : secretKey W key = true
  replaced : ∀ (plain : Text → Except Raised (Text × ℕ)) (levels visited : ℕ)
    (fields : List (Text × Value)) (out : Safe Value),
    safeJson W plain (levels + 1) visited (.obj fields) = .ok out →
      ∃ news, out.value = .obj news ∧ (key ∈ fields.map Prod.fst → (key, .str marker) ∈ news) ∧
        ∀ new ∈ news, new.1 = key → new.2 = .str marker
  unvisited : ∀ (top : Pending) (fields : List (Text × Value)), top.node = .obj fields →
    ∀ child ∈ top.children W, ∃ field ∈ fields, field.1 ≠ key ∧
      child = ⟨field.2, fieldPath top.path field.1, top.depth + 1⟩

/-- A key is classified by its words only: the order of enumeration does not matter, and the value
of a key whose words spell a name is hidden. -/
structure ClassifiedByWords (casefold : Text → Text) (key : Text) : Prop where
  anyOrder : ∀ a b, Enumerates a → Enumerates b →
    secretKey ⟨casefold, a⟩ key = secretKey ⟨casefold, b⟩ key
  named : (wordsOf casefold key).flatten ∈ secretCompacts →
    ∀ arrange, Enumerates arrange → Hidden ⟨casefold, arrange⟩ key

/-- A word of the key is a secret by itself, or there is one word at most, or the words spell no
name: neither as they stand nor each once, in whatever order. -/
def Settled (words : List Text) : Prop :=
  (∃ word ∈ words, word ∈ secretParts) ∨ words.dedup.length ≤ 1 ∨
    words.flatten ∉ secretCompacts ∧
      ∀ order : List Text, order.Perm words.dedup → order.flatten ∉ secretCompacts

theorem secretKey_iff : secretKey ⟨casefold, arrange⟩ key = true ↔
    (∃ word ∈ wordsOf casefold key, word ∈ secretParts) ∨
      (arrange (wordsOf casefold key).dedup).flatten ∈ secretCompacts := by
  rw [secretKey_eq, Bool.or_eq_true, List.any_eq_true, List.contains_iff_mem]
  simp only [List.mem_dedup, List.contains_iff_mem]

theorem hidden_of_secretKey {W : Words} (h : secretKey W key = true) : Hidden W key := by
  refine ⟨h, ?_, ?_⟩
  · intro plain levels visited fields out hout
    obtain ⟨news, hnews, hall⟩ := safeJson_obj hout
    refine ⟨news, hnews, fun hkey => ?_, fun new hnew hname => ?_⟩
    · obtain ⟨field, hfield, rfl⟩ := List.mem_map.mp hkey
      obtain ⟨new, hnew, hname, hvalue⟩ :=
        Table.exists_right hall (mem_sortedFields.mpr hfield)
      rw [if_pos h] at hvalue
      rw [← hname, ← hvalue]
      exact hnew
    · obtain ⟨field, -, hsame, hvalue⟩ := Table.exists_left hall hnew
      rw [← hsame, hname, if_pos h] at hvalue
      exact hvalue
  · intro top fields hnode child hchild
    simp only [Pending.children, hnode, List.mem_reverse, List.mem_map, List.mem_filter] at hchild
    obtain ⟨field, ⟨hfield, hplain⟩, rfl⟩ := hchild
    refine ⟨field, hfield, ?_, rfl⟩
    rintro rfl
    rw [h] at hplain
    cases hplain

theorem wordsOf_ne_nil {word : Text} (h : word ∈ wordsOf casefold key) : word ≠ [] := by
  have hkept := (List.mem_filter.mp h).2
  simpa using hkept

/-- An enumeration that puts one list in an order of our choice. -/
def arrangeAs (words order : List Text) (parts : List Text) : List Text :=
  if parts = words then order else parts

theorem arrangeAs_enumerates {words order : List Text} (h : order.Perm words) :
    Enumerates (arrangeAs words order) := by
  intro parts
  unfold arrangeAs
  split
  · rename_i heq
    rw [heq]
    exact h
  · exact .refl parts

theorem Settled.classified (h : Settled (wordsOf casefold key)) :
    ClassifiedByWords casefold key := by
  by_cases hpart : ∃ word ∈ wordsOf casefold key, word ∈ secretParts
  · have hsecret : ∀ arrange, secretKey ⟨casefold, arrange⟩ key = true :=
      fun _ => secretKey_iff.mpr (.inl hpart)
    exact ⟨fun a b _ _ => (hsecret a).trans (hsecret b).symm,
      fun _ arrange _ => hidden_of_secretKey (hsecret arrange)⟩
  have hname : ∀ arrange, secretKey ⟨casefold, arrange⟩ key = true ↔
      (arrange (wordsOf casefold key).dedup).flatten ∈ secretCompacts :=
    fun _ => secretKey_iff.trans (or_iff_right hpart)
  cases h.resolve_left hpart with
  | inl hone =>
    -- One word, which every order enumerates the same way.
    have hsame : ∀ arrange, Enumerates arrange →
        arrange (wordsOf casefold key).dedup = (wordsOf casefold key).dedup := by
      intro arrange harrange
      have hperm := harrange (wordsOf casefold key).dedup
      match hwords : (wordsOf casefold key).dedup, hone with
      | [], _ => exact List.perm_nil.mp (hwords ▸ hperm)
      | [word], _ => exact List.perm_singleton.mp (hwords ▸ hperm)
    refine ⟨fun a b ha hb => ?_, fun hcompact arrange harrange => hidden_of_secretKey ?_⟩
    · rw [Bool.eq_iff_iff, hname, hname, hsame a ha, hsame b hb]
    · rw [hname, hsame arrange harrange]
      match hwords : (wordsOf casefold key).dedup, hone with
      | [], _ =>
        rw [List.dedup_eq_nil] at hwords
        rw [hwords] at hcompact
        exact hcompact
      | [word], _ =>
        have hall : ∀ w ∈ wordsOf casefold key, w = word := by
          intro w hw
          rw [← List.mem_dedup, hwords] at hw
          exact List.mem_singleton.mp hw
        have hin : word ∈ wordsOf casefold key := by
          rw [← List.mem_dedup, hwords]
          exact List.mem_singleton_self word
        have hrepeat := List.eq_replicate_of_mem hall
        rw [hrepeat] at hcompact
        have hlength := repeated_word (wordsOf_ne_nil hin) hcompact
        rw [hlength] at hcompact
        exact hcompact
  | inr hnone =>
    obtain ⟨hwords, horders⟩ := hnone
    have hnever : ∀ arrange, Enumerates arrange → secretKey ⟨casefold, arrange⟩ key = false := by
      intro arrange harrange
      rw [← Bool.not_eq_true, hname]
      exact horders _ (harrange _)
    exact ⟨fun a b ha hb => (hnever a ha).trans (hnever b hb).symm,
      fun hcompact => absurd hcompact hwords⟩

/-- Where two words or more spell a name in some order, another order of them does not. -/
theorem ClassifiedByWords.unnamed (h : ClassifiedByWords casefold key)
    (hpart : ¬ ∃ word ∈ wordsOf casefold key, word ∈ secretParts)
    (htwo : 1 < (wordsOf casefold key).dedup.length) {order : List Text}
    (horder : order.Perm (wordsOf casefold key).dedup) : order.flatten ∉ secretCompacts := by
  intro hcompact
  have hlength := horder.length_eq
  match order, hlength with
  | [], hlength => rw [← hlength, List.length_nil] at htwo; omega
  | [_], hlength => rw [← hlength, List.length_singleton] at htwo; omega
  | x :: y :: rest, _ =>
    have hnodup : (x :: y :: rest).Nodup := horder.nodup_iff.mpr (List.nodup_dedup _)
    have hin : ∀ word ∈ x :: y :: rest, word ≠ [] := by
      intro word hword
      have hwords : word ∈ wordsOf casefold key := List.mem_dedup.mp (horder.subset hword)
      exact wordsOf_ne_nil hwords
    have hne : x ≠ y := by
      rintro rfl
      exact (List.nodup_cons.mp hnodup).1 (.head _)
    have hswap : (y :: x :: rest).Perm (wordsOf casefold key).dedup :=
      (List.Perm.swap x y rest).trans horder
    have hsame := h.anyOrder _ _ (arrangeAs_enumerates horder) (arrangeAs_enumerates hswap)
    rw [Bool.eq_iff_iff, secretKey_iff, secretKey_iff, or_iff_right hpart, or_iff_right hpart,
      arrangeAs, if_pos rfl, arrangeAs, if_pos rfl] at hsame
    have hswapped := hsame.mp hcompact
    simp only [List.flatten_cons] at hcompact hswapped
    exact swap_words (hin x (.head _)) (hin y (.tail _ (.head _))) hne hcompact hswapped

theorem ClassifiedByWords.settled (h : ClassifiedByWords casefold key) :
    Settled (wordsOf casefold key) := by
  by_cases hpart : ∃ word ∈ wordsOf casefold key, word ∈ secretParts
  · exact .inl hpart
  by_cases hone : (wordsOf casefold key).dedup.length ≤ 1
  · exact .inr (.inl hone)
  have hunnamed : ∀ order : List Text, order.Perm (wordsOf casefold key).dedup →
      order.flatten ∉ secretCompacts := fun _ horder => h.unnamed hpart (by omega) horder
  refine .inr (.inr ⟨fun hcompact => ?_, hunnamed⟩)
  have hid : Enumerates id := fun parts => .refl parts
  have hsecret := (h.named hcompact id hid).secret
  rw [secretKey_iff, or_iff_right hpart] at hsecret
  exact hunnamed _ (.refl _) hsecret

/-- Exactly the keys the redactor classifies by their words. -/
theorem classified_by_words (casefold : Text → Text) (key : Text) :
    ClassifiedByWords casefold key ↔ Settled (wordsOf casefold key) :=
  ⟨ClassifiedByWords.settled, Settled.classified⟩

/-- `str.casefold` of ASCII. -/
def asciiFold (text : Text) : Text := text.map fun c => if isUpper c then c + 0x20 else c

/-- The words of `api_key` are `api` and `key`, and a set of them may be enumerated as
`key`, `api`. -/
theorem classified_by_words_reversed : ¬ ClassifiedByWords asciiFold (points "api_key") := by
  intro h
  have hreverse : Enumerates List.reverse := List.reverse_perm
  have hsame := h.anyOrder id List.reverse (fun parts => .refl parts) hreverse
  exact absurd hsame (by decide +kernel)

end Heel.Redaction
