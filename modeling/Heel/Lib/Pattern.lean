import Mathlib.Data.List.Basic
import Mathlib.Data.List.Infix
import Mathlib.Tactic.Common

/-! Regular patterns as a backtracking matcher reads them: the remainders that a match leaves, in
the order in which they are tried, the words that a pattern spells, and the replacement of every
match from the left. -/
namespace Lib

inductive Pattern (α : Type) where
  | empty
  | one (p : α → Bool)
  | seq (a b : Pattern α)
  | alt (a b : Pattern α)
  | plus (p : α → Bool)

namespace Pattern
variable {α β : Type}

/-- What a run of elements of a class may leave, the longest run first. -/
def runs (p : α → Bool) : List α → List (List α)
  | [] => []
  | c :: r => if p c then runs p r ++ [r] else []

def rests : Pattern α → List α → List (List α)
  | empty, s => [s]
  | one _, [] => []
  | one p, c :: r => if p c then [r] else []
  | seq a b, s => (a.rests s).flatMap b.rests
  | alt a b, s => a.rests s ++ b.rests s
  | plus p, s => runs p s

def fullmatch (a : Pattern α) (s : List α) : Bool := (a.rests s).any List.isEmpty

def Spells : Pattern α → List α → Prop
  | empty, w => w = []
  | one p, w => ∃ c, p c = true ∧ w = [c]
  | seq a b, w => ∃ u v, a.Spells u ∧ b.Spells v ∧ w = u ++ v
  | alt a b, w => a.Spells w ∨ b.Spells w
  | plus p, w => w ≠ [] ∧ ∀ c ∈ w, p c = true

example : (plus fun c => c = 0).rests [0, 0] = [[], [0]] := by simp [rests, runs]

example : (alt (one fun c => c = 0) empty).Spells ([] : List ℕ) := by simp [Spells]

theorem mem_runs {p : α → Bool} {s r : List α} :
    r ∈ runs p s ↔ ∃ w, (w ≠ [] ∧ ∀ c ∈ w, p c = true) ∧ s = w ++ r := by
  induction s with
  | nil =>
    simp only [runs, List.not_mem_nil, false_iff, not_exists, not_and]
    rintro w ⟨hne, -⟩ heq
    exact hne (List.append_eq_nil_iff.mp heq.symm).1
  | cons c s ih =>
    simp only [runs]
    split
    · next hc =>
      rw [List.mem_append, ih, List.mem_singleton]
      constructor
      · rintro (⟨w, ⟨hne, hw⟩, rfl⟩ | rfl)
        · exact ⟨c :: w, ⟨by simp, by simpa [hc] using hw⟩, rfl⟩
        · exact ⟨[c], ⟨by simp, by simp [hc]⟩, rfl⟩
      · rintro ⟨w, ⟨hne, hw⟩, heq⟩
        cases w with
        | nil => exact absurd rfl hne
        | cons d w =>
          simp only [List.cons_append, List.cons.injEq] at heq
          obtain ⟨rfl, rfl⟩ := heq
          cases w with
          | nil => exact Or.inr rfl
          | cons e w => exact Or.inl ⟨e :: w, ⟨by simp, fun x hx => hw x (.tail _ hx)⟩, rfl⟩
    · next hc =>
      simp only [List.not_mem_nil, false_iff, not_exists, not_and]
      rintro w ⟨hne, hw⟩ heq
      cases w with
      | nil => exact hne rfl
      | cons d w =>
        simp only [List.cons_append, List.cons.injEq] at heq
        exact hc (heq.1 ▸ hw d (.head _))

/-- A matcher leaves exactly what follows the words of its pattern. -/
theorem mem_rests {a : Pattern α} {s r : List α} :
    r ∈ a.rests s ↔ ∃ w, a.Spells w ∧ s = w ++ r := by
  induction a generalizing s r with
  | empty => simp [rests, Spells, eq_comm]
  | one p =>
    cases s with
    | nil =>
      simp only [rests, Spells, List.not_mem_nil, false_iff, not_exists, not_and]
      rintro w ⟨c, -, rfl⟩ heq
      cases heq
    | cons c s =>
      simp only [rests, Spells]
      split
      · next hc =>
        rw [List.mem_singleton]
        constructor
        · rintro rfl
          exact ⟨[c], ⟨c, hc, rfl⟩, rfl⟩
        · rintro ⟨w, ⟨d, -, rfl⟩, heq⟩
          simp only [List.cons_append, List.nil_append, List.cons.injEq] at heq
          exact heq.2.symm
      · next hc =>
        simp only [List.not_mem_nil, false_iff, not_exists, not_and]
        rintro w ⟨d, hd, rfl⟩ heq
        simp only [List.cons_append, List.nil_append, List.cons.injEq] at heq
        exact hc (heq.1 ▸ hd)
  | seq a b iha ihb =>
    simp only [rests, Spells, List.mem_flatMap, iha, ihb]
    constructor
    · rintro ⟨_, ⟨u, hu, rfl⟩, v, hv, rfl⟩
      exact ⟨u ++ v, ⟨u, v, hu, hv, rfl⟩, by rw [List.append_assoc]⟩
    · rintro ⟨_, ⟨u, v, hu, hv, rfl⟩, rfl⟩
      exact ⟨v ++ r, ⟨u, hu, by rw [List.append_assoc]⟩, v, hv, rfl⟩
  | alt a b iha ihb =>
    simp only [rests, Spells, List.mem_append, iha, ihb, or_and_right, exists_or]
  | plus p => exact mem_runs

theorem fullmatch_iff {a : Pattern α} {s : List α} : a.fullmatch s = true ↔ a.Spells s := by
  simp only [fullmatch, List.any_eq_true, List.isEmpty_iff, exists_eq_right]
  rw [mem_rests]
  simp

/-- Every word of the pattern has an element. -/
def Nonempty (a : Pattern α) : Prop := ¬ a.Spells []

theorem rests_shorter {a : Pattern α} (ha : a.Nonempty) {s r : List α} (h : r ∈ a.rests s) :
    r.length < s.length := by
  obtain ⟨w, hw, rfl⟩ := mem_rests.mp h
  cases w with
  | nil => exact absurd hw ha
  | cons c w =>
    rw [List.length_append, List.length_cons]
    omega

def sequence (parts : List (Pattern α)) : Pattern α := parts.foldr seq empty

/-- The first of the choices, or one of the others. -/
def choice (first : Pattern α) (others : List (Pattern α)) : Pattern α :=
  match others with
  | [] => first
  | a :: others => alt first (choice a others)

def word [DecidableEq α] (w : List α) : Pattern α := sequence (w.map fun c => one fun d => d = c)

theorem spells_sequence_nil {w : List α} : (sequence ([] : List (Pattern α))).Spells w ↔ w = [] :=
  Iff.rfl

theorem spells_sequence_cons {a : Pattern α} {parts : List (Pattern α)} {w : List α} :
    (sequence (a :: parts)).Spells w ↔ ∃ u v, a.Spells u ∧ (sequence parts).Spells v ∧ w = u ++ v :=
  Iff.rfl

theorem spells_choice {first : Pattern α} {others : List (Pattern α)} {w : List α} :
    (choice first others).Spells w ↔ ∃ a ∈ first :: others, a.Spells w := by
  induction others generalizing first with
  | nil => simp [choice]
  | cons a others ih =>
    simp only [choice, Spells, ih]
    simp

theorem spells_word [DecidableEq α] {w v : List α} : (word w).Spells v ↔ v = w := by
  induction w generalizing v with
  | nil => exact spells_sequence_nil
  | cons c w ih =>
    unfold word at ih ⊢
    rw [List.map_cons, spells_sequence_cons]
    simp only [Spells, decide_eq_true_eq, ih]
    constructor
    · rintro ⟨u, x, ⟨d, rfl, rfl⟩, rfl, rfl⟩
      rfl
    · rintro rfl
      exact ⟨[c], w, ⟨c, rfl, rfl⟩, rfl, rfl⟩

theorem spells_sequence_flatten {parts : List (Pattern α)} {words : List (List α)}
    (h : List.Forall₂ Spells parts words) : (sequence parts).Spells words.flatten := by
  induction h with
  | nil => exact spells_sequence_nil.mpr rfl
  | cons ha _ ih => exact spells_sequence_cons.mpr ⟨_, _, ha, ih, rfl⟩

/-- Every match from the left becomes `put`; `skip` elements of the last match are still to be
passed over. After an empty match one element is copied. -/
def sub (a : Pattern α) (put : List α) : ℕ → List α → List α
  | _, [] => if (a.rests []).isEmpty then [] else put
  | skip + 1, _ :: r => sub a put skip r
  | 0, c :: r =>
    match (a.rests (c :: r)).head? with
    | none => c :: sub a put 0 r
    | some rest =>
      if rest.length = r.length + 1 then put ++ c :: sub a put 0 r
      else put ++ sub a put (r.length - rest.length) r

example : sub (word [0]) [] 0 [0, 1, 0] = [1] := by simp [sub, word, sequence, rests]

theorem mem_sub {a : Pattern α} {put : List α} {skip : ℕ} {s : List α} {c : α}
    (h : c ∈ sub a put skip s) : c ∈ put ∨ c ∈ s.drop skip := by
  induction s generalizing skip with
  | nil =>
    cases skip <;>
    · unfold sub at h
      split at h
      · cases h
      · exact Or.inl h
  | cons d s ih =>
    cases skip with
    | succ skip => exact ih h
    | zero =>
      unfold sub at h
      rw [List.drop_zero, List.mem_cons]
      split at h
      · cases h with
        | head => exact Or.inr (Or.inl rfl)
        | tail _ h => exact (ih h).imp id Or.inr
      · split at h
        · rw [List.mem_append, List.mem_cons] at h
          obtain h | rfl | h := h
          · exact Or.inl h
          · exact Or.inr (Or.inl rfl)
          · exact (ih h).imp id Or.inr
        · rw [List.mem_append] at h
          cases h with
          | inl h => exact Or.inl h
          | inr h => exact (ih h).imp id fun h => Or.inr (List.mem_of_mem_drop h)

theorem sub_takes {a : Pattern α} (ha : a.Nonempty) (put : List α) {c : α} {r rest : List α}
    (h : (a.rests (c :: r)).head? = some rest) :
    ∃ skip, sub a put 0 (c :: r) = put ++ sub a put skip r := by
  have hshort := rests_shorter ha (List.mem_of_mem_head? h)
  rw [List.length_cons] at hshort
  refine ⟨r.length - rest.length, ?_⟩
  simp only [sub, h]
  rw [if_neg (by omega)]

theorem sub_copies {a : Pattern α} {put : List α} {c : α} {r : List α}
    (h : (a.rests (c :: r)).head? = none) : sub a put 0 (c :: r) = c :: sub a put 0 r := by
  simp only [sub, h]

/-- The elements of `w` are told from each other and from everything around them. -/
structure Marked (put pre w post : List α) : Prop where
  nodup : w.Nodup
  put : ∀ c ∈ w, c ∉ put
  pre : ∀ c ∈ w, c ∉ pre
  post : ∀ c ∈ w, c ∉ post

/-- An element that a match begins with is gone, where it is the only one of its kind. -/
theorem not_mem_sub {a : Pattern α} (ha : a.Nonempty) {put r rest : List α} {c : α} (hput : c ∉ put)
    (hr : c ∉ r) (h : (a.rests (c :: r)).head? = some rest) : c ∉ sub a put 0 (c :: r) := by
  obtain ⟨skip, hsub⟩ := sub_takes ha put h
  rw [hsub, List.mem_append, not_or]
  refine ⟨hput, fun hc => ?_⟩
  cases mem_sub hc with
  | inl hc => exact hput hc
  | inr hc => exact hr (List.mem_of_mem_drop hc)

/-- From its first element on, a block is copied as it is or loses an element. -/
theorem sub_block {a : Pattern α} (ha : a.Nonempty) {put w post : List α}
    (hw : Marked put [] w post) :
    (∃ c ∈ w, c ∉ sub a put 0 (w ++ post)) ∨
      sub a put 0 (w ++ post) = w ++ sub a put 0 post ∧ (w ≠ [] → ¬ a.Spells w) := by
  induction w with
  | nil => exact Or.inr ⟨rfl, fun h => absurd rfl h⟩
  | cons c w ih =>
    obtain ⟨hcw, hnodup⟩ := List.nodup_cons.mp hw.nodup
    have hrest : Marked put [] w post :=
      ⟨hnodup, fun d hd => hw.put d (.tail _ hd), fun d _ => List.not_mem_nil,
        fun d hd => hw.post d (.tail _ hd)⟩
    have hc : c ∉ w ++ post := by
      rw [List.mem_append, not_or]
      exact ⟨hcw, hw.post c (.head _)⟩
    cases hhead : (a.rests (c :: (w ++ post))).head? with
    | some rest =>
      exact Or.inl ⟨c, .head _, not_mem_sub ha (hw.put c (.head _)) hc hhead⟩
    | none =>
      rw [List.cons_append, sub_copies hhead]
      cases ih hrest with
      | inl hgone =>
        obtain ⟨d, hd, hnot⟩ := hgone
        refine Or.inl ⟨d, .tail _ hd, ?_⟩
        rw [List.mem_cons, not_or]
        refine ⟨?_, hnot⟩
        rintro rfl
        exact hcw hd
      | inr hkept =>
        refine Or.inr ⟨by rw [hkept.1]; rfl, fun _ hspells => ?_⟩
        have hmem : post ∈ a.rests (c :: (w ++ post)) := mem_rests.mpr ⟨c :: w, hspells, rfl⟩
        rw [List.head?_eq_none_iff.mp hhead] at hmem
        cases hmem

/-- One pass leaves a block as it is, among what the pass copies or puts, or takes an element of it;
a word of the pattern is not left. -/
theorem sub_pass {a : Pattern α} (ha : a.Nonempty) {put pre w post : List α} {n : ℕ}
    (hne : w ≠ []) (hw : Marked put pre w post) :
    (∃ c ∈ w, c ∉ sub a put n (pre ++ (w ++ post))) ∨
      ¬ a.Spells w ∧ ∃ pre' post', sub a put n (pre ++ (w ++ post)) = pre' ++ (w ++ post') ∧
        Marked put pre' w post' := by
  induction pre generalizing n with
  | nil =>
    rw [List.nil_append]
    cases n with
    | zero =>
      cases sub_block ha hw with
      | inl hgone => exact Or.inl hgone
      | inr hkept =>
        refine Or.inr ⟨hkept.2 hne, [], _, hkept.1, hw.nodup, hw.put, hw.pre, fun c hc h => ?_⟩
        exact (mem_sub h).elim (hw.put c hc) (hw.post c hc)
    | succ n =>
      cases w with
      | nil => exact absurd rfl hne
      | cons c w =>
        refine Or.inl ⟨c, .head _, fun h => ?_⟩
        have hmem := (mem_sub h).resolve_left (hw.put c (.head _))
        have hmem := List.mem_of_mem_drop (show c ∈ (w ++ post).drop n from hmem)
        rw [List.mem_append] at hmem
        cases hmem with
        | inl hmem => exact (List.nodup_cons.mp hw.nodup).1 hmem
        | inr hmem => exact hw.post c (.head _) hmem
  | cons d pre ih =>
    have hrest : Marked put pre w post :=
      ⟨hw.nodup, hw.put, fun c hc h => hw.pre c hc (.tail _ h), hw.post⟩
    have hd : ∀ c ∈ w, c ≠ d := by
      rintro c hc rfl
      exact hw.pre c hc (.head _)
    -- What a pass writes before it reaches the block holds nothing of the block.
    have written : ∀ front : List α, (∀ c ∈ w, c ∉ front) → ∀ k,
        sub a put n (d :: pre ++ (w ++ post)) = front ++ sub a put k (pre ++ (w ++ post)) →
        (∃ c ∈ w, c ∉ sub a put n (d :: pre ++ (w ++ post))) ∨
          ¬ a.Spells w ∧ ∃ pre' post', sub a put n (d :: pre ++ (w ++ post)) =
            pre' ++ (w ++ post') ∧ Marked put pre' w post' := by
      intro front hfront k heq
      rw [heq]
      cases ih (n := k) hrest with
      | inl hgone =>
        obtain ⟨c, hc, hnot⟩ := hgone
        refine Or.inl ⟨c, hc, ?_⟩
        rw [List.mem_append, not_or]
        exact ⟨hfront c hc, hnot⟩
      | inr hkept =>
        obtain ⟨hspells, pre', post', hsub, hmarked⟩ := hkept
        refine Or.inr ⟨hspells, front ++ pre', post', by rw [hsub, List.append_assoc],
          hmarked.nodup,
          hmarked.put, fun c hc h => ?_, hmarked.post⟩
        rw [List.mem_append] at h
        exact h.elim (hfront c hc) (hmarked.pre c hc)
    cases n with
    | succ n => exact written [] (fun c _ => List.not_mem_nil) n rfl
    | zero =>
      cases hhead : (a.rests (d :: (pre ++ (w ++ post)))).head? with
      | none =>
        apply written [d] _ 0 (sub_copies hhead)
        intro c hc h
        exact hd c hc (List.mem_singleton.mp h)
      | some rest =>
        obtain ⟨k, hsub⟩ := sub_takes ha put hhead
        exact written put hw.put k hsub

def subAll (patterns : List (Pattern α)) (put s : List α) : List α :=
  patterns.foldl (fun s a => sub a put 0 s) s

theorem mem_subAll {patterns : List (Pattern α)} {put s : List α} {c : α}
    (h : c ∈ subAll patterns put s) : c ∈ put ∨ c ∈ s := by
  induction patterns generalizing s with
  | nil => exact Or.inr h
  | cons a patterns ih =>
    cases ih h with
    | inl h => exact Or.inl h
    | inr h => exact mem_sub h

/-- A word of one of the patterns loses an element, where every pattern before it is of words that
are not empty. -/
theorem subAll_takes {before after : List (Pattern α)} {a : Pattern α} {put pre w post : List α}
    (hbefore : ∀ b ∈ a :: before, b.Nonempty) (hw : Marked put pre w post) (hspells : a.Spells w) :
    ∃ c ∈ w, c ∉ subAll (before ++ a :: after) put (pre ++ (w ++ post)) := by
  have hne : w ≠ [] := by
    rintro rfl
    exact hbefore a (.head _) hspells
  have gone : ∀ (patterns : List (Pattern α)) (s : List α), (∃ c ∈ w, c ∉ s) →
      ∃ c ∈ w, c ∉ subAll patterns put s := by
    rintro patterns s ⟨c, hc, hnot⟩
    exact ⟨c, hc, fun h => (mem_subAll h).elim (hw.put c hc) hnot⟩
  induction before generalizing pre post with
  | nil =>
    apply gone after (sub a put 0 (pre ++ (w ++ post)))
    exact (sub_pass (hbefore a (.head _)) hne hw).resolve_right fun h => h.1 hspells
  | cons b before ih =>
    have hb := hbefore b (.tail _ (.head _))
    rw [List.cons_append]
    show ∃ c ∈ w, c ∉ subAll (before ++ a :: after) put (sub b put 0 (pre ++ (w ++ post)))
    cases sub_pass (n := 0) hb hne hw with
    | inl hgone => exact gone _ _ hgone
    | inr hkept =>
      obtain ⟨-, pre', post', hsub, hmarked⟩ := hkept
      rw [hsub]
      apply ih _ hmarked
      intro e he
      apply hbefore
      cases he with
      | head => exact .head _
      | tail _ he => exact .tail _ (.tail _ he)

theorem sub_skip {a : Pattern α} {put : List α} {skip : ℕ} {s : List α} (h : skip ≤ s.length) :
    sub a put skip s = sub a put 0 (s.drop skip) := by
  induction s generalizing skip with
  | nil =>
    rw [List.length_nil] at h
    rw [Nat.le_zero.mp h]
    rfl
  | cons c s ih =>
    cases skip with
    | zero => rfl
    | succ skip =>
      rw [List.length_cons] at h
      exact ih (by omega)

theorem mem_rests_word [DecidableEq α] {w s r : List α} : r ∈ (word w).rests s ↔ s = w ++ r := by
  rw [mem_rests]
  simp [spells_word]

theorem sub_word_match [DecidableEq α] {w put r : List α} (hw : w ≠ []) :
    sub (word w) put 0 (w ++ r) = put ++ sub (word w) put 0 r := by
  cases w with
  | nil => exact absurd rfl hw
  | cons c w =>
    have hmem : r ∈ (word (c :: w)).rests (c :: (w ++ r)) := mem_rests_word.mpr rfl
    cases hhead : ((word (c :: w)).rests (c :: (w ++ r))).head? with
    | none =>
      rw [List.head?_eq_none_iff.mp hhead] at hmem
      cases hmem
    | some rest =>
      have hrest : rest = r :=
        (List.append_cancel_left (mem_rests_word.mp (List.mem_of_mem_head? hhead))).symm
      subst hrest
      rw [List.cons_append]
      simp only [sub, hhead]
      rw [if_neg (by rw [List.length_append]; omega), sub_skip (by rw [List.length_append]; omega),
        List.length_append, Nat.add_sub_cancel, List.drop_left]

theorem sub_word_copy [DecidableEq α] {w put r : List α} {c : α} (h : ¬ w <+: c :: r) :
    sub (word w) put 0 (c :: r) = c :: sub (word w) put 0 r := by
  apply sub_copies
  rw [List.head?_eq_none_iff, List.eq_nil_iff_forall_not_mem]
  intro rest hrest
  exact h ⟨rest, (mem_rests_word.mp hrest).symm⟩

theorem sub_word_plain [DecidableEq α] {c : α} {w put u r : List α} (h : c ∉ u) :
    sub (word (c :: w)) put 0 (u ++ r) = u ++ sub (word (c :: w)) put 0 r := by
  induction u with
  | nil => rfl
  | cons d u ih =>
    rw [List.mem_cons, not_or] at h
    rw [List.cons_append, sub_word_copy, ih h.2]
    · rfl
    · rintro ⟨rest, heq⟩
      exact h.1 (List.cons.inj heq).1

/-- A replacement of pieces is the pieces replaced, where each is replaced whatever follows it. -/
theorem sub_flatMap {τ : Type} {a : Pattern α} (ha : a.Nonempty) {put : List α} {f g : τ → List α}
    {ts : List τ} (h : ∀ t ∈ ts, ∀ r, sub a put 0 (f t ++ r) = g t ++ sub a put 0 r) :
    sub a put 0 (ts.flatMap f) = ts.flatMap g := by
  induction ts with
  | nil =>
    have hnil : a.rests [] = [] := by
      rw [List.eq_nil_iff_forall_not_mem]
      intro rest hrest
      exact absurd (rests_shorter ha hrest) (Nat.not_lt_zero _)
    simp [sub, hnil]
  | cons t ts ih =>
    rw [List.flatMap_cons, List.flatMap_cons, h t (.head _), ih fun t ht => h t (.tail _ ht)]

theorem nonempty_word [DecidableEq α] {w : List α} (hw : w ≠ []) : (word w).Nonempty := by
  intro h
  exact hw (spells_word.mp h).symm

/-- The pattern of elements that are looked at through `f`. -/
def comap (f : β → α) : Pattern α → Pattern β
  | empty => empty
  | one p => one (p ∘ f)
  | seq a b => seq (a.comap f) (b.comap f)
  | alt a b => alt (a.comap f) (b.comap f)
  | plus p => plus (p ∘ f)

theorem map_runs (f : β → α) (p : α → Bool) (s : List β) :
    (runs (p ∘ f) s).map (List.map f) = runs p (s.map f) := by
  induction s with
  | nil => rfl
  | cons c s ih =>
    simp only [runs, List.map_cons, Function.comp_apply]
    split
    · rw [List.map_append, ih]
      rfl
    · rfl

theorem map_rests (f : β → α) (a : Pattern α) (s : List β) :
    ((a.comap f).rests s).map (List.map f) = a.rests (s.map f) := by
  induction a generalizing s with
  | empty => rfl
  | one p =>
    cases s with
    | nil => rfl
    | cons c s =>
      simp only [comap, rests, List.map_cons, Function.comp_apply]
      split
      · rfl
      · rfl
  | seq a b iha ihb =>
    simp only [comap, rests]
    rw [← iha, List.map_flatMap, List.flatMap_map]
    exact List.flatMap_congr fun r _ => ihb r
  | alt a b iha ihb =>
    simp only [comap, rests, List.map_append, iha, ihb]
  | plus p => exact map_runs f p s

theorem spells_comap {f : β → α} {a : Pattern α} {w : List β} :
    (a.comap f).Spells w ↔ a.Spells (w.map f) := by
  rw [← fullmatch_iff, ← fullmatch_iff]
  unfold fullmatch
  rw [← map_rests]
  simp [List.any_map, Function.comp_def]

theorem nonempty_comap {f : β → α} {a : Pattern α} : (a.comap f).Nonempty ↔ a.Nonempty := by
  unfold Nonempty
  rw [spells_comap, List.map_nil]

/-- A replacement looks at elements only through what the pattern sees. -/
theorem map_sub (f : β → α) (a : Pattern α) (put : List β) (skip : ℕ) (s : List β) :
    (sub (a.comap f) put skip s).map f = sub a (put.map f) skip (s.map f) := by
  induction s generalizing skip with
  | nil =>
    have hrests := map_rests f a []
    cases skip <;>
    · simp only [List.map_nil, sub]
      rw [List.map_nil] at hrests
      rw [← hrests, List.isEmpty_map]
      split
      · rfl
      · rfl
  | cons c s ih =>
    cases skip with
    | succ skip => exact ih skip
    | zero =>
      have hrests := map_rests f a (c :: s)
      rw [List.map_cons] at hrests
      simp only [List.map_cons, sub]
      rw [← hrests, List.head?_map]
      cases ((a.comap f).rests (c :: s)).head? with
      | none =>
        simp only [Option.map_none, List.map_cons]
        rw [ih]
      | some rest =>
        simp only [Option.map_some, List.length_map]
        split
        · rw [List.map_append, List.map_cons, ih]
        · rw [List.map_append, ih]

theorem map_subAll (f : β → α) (patterns : List (Pattern α)) (put s : List β) :
    (subAll (patterns.map (comap f)) put s).map f = subAll patterns (put.map f) (s.map f) := by
  induction patterns generalizing s with
  | nil => rfl
  | cons a patterns ih =>
    simp only [subAll, List.map_cons, List.foldl_cons] at ih ⊢
    rw [ih, map_sub]

end Pattern

end Lib
