import Heel.Runner.PlanPaths

/-! Both walks against their recursive specification, and that the order of the keys of an object
does not matter to it. -/
namespace Heel.PlanDifferential
open Lib Lib.JsonText Heel.Content
variable {W : Words}

/-- One value is another with the fields of its objects in another order, at any depth. -/
inductive Reordered : Value → Value → Prop where
  | refl (v) : Reordered v v
  | trans {u v w} (h : Reordered u v) (h' : Reordered v w) : Reordered u w
  | fields {fields others} (h : fields.Perm others) : Reordered (.obj fields) (.obj others)
  | child {pre post key v w} (h : Reordered v w) :
    Reordered (.obj (pre ++ (key, v) :: post)) (.obj (pre ++ (key, w) :: post))
  | item {pre post v w} (h : Reordered v w) :
    Reordered (.arr (pre ++ v :: post)) (.arr (pre ++ w :: post))

theorem Reordered.truthy_eq {v w : Value} (h : Reordered v w) : truthy v = truthy w := by
  induction h with
  | refl v => rfl
  | trans _ _ ih ih' => rw [ih, ih']
  | fields h => simp only [truthy, h.isEmpty_eq]
  | @child pre post key v w h ih =>
    cases pre with
    | nil => rfl
    | cons entry pre => rfl
  | @item pre post v w h ih =>
    cases pre with
    | nil => rfl
    | cons child pre => rfl

theorem Reordered.visited_eq {v w : Value} (h : Reordered v w) : visited W v = visited W w := by
  induction h with
  | refl v => rfl
  | trans _ _ ih ih' => rw [ih, ih']
  | fields h =>
    simp only [visited, visitedFields_eq]
    rw [((h.filter _).map _).sum_eq]
  | @child pre post key v w h ih =>
    simp only [visited, visitedFields_eq, List.filter_append, List.filter_cons, List.map_append,
      List.sum_append]
    split
    · simp only [List.map_cons, List.sum_cons, ih]
    · rfl
  | item h ih =>
    simp only [visited, visitedItems_eq, List.map_append, List.map_cons, List.sum_append,
      List.sum_cons, ih]

theorem Reordered.height_le {v w : Value} (h : Reordered v w) {m : ℕ} :
    height W v ≤ m ↔ height W w ≤ m := by
  induction h generalizing m with
  | refl v => rfl
  | trans _ _ ih ih' => rw [ih, ih']
  | fields h => simp only [height, heightFields_le, h.mem_iff]
  | @child pre post key v w h ih =>
    have hsucc : height W v + 1 ≤ m ↔ height W w + 1 ≤ m := by
      cases m with
      | zero => omega
      | succ m =>
        have := @ih m
        omega
    simp only [height, heightFields_le, List.mem_append, List.mem_cons, or_imp, forall_and,
      Prod.mk.injEq, and_imp]
    apply and_congr_right
    intro _
    apply and_congr_left
    intro _
    constructor
    · rintro hall k c rfl rfl hopen
      exact hsucc.mp (hall _ _ rfl rfl hopen)
    · rintro hall k c rfl rfl hopen
      exact hsucc.mpr (hall _ _ rfl rfl hopen)
  | @item pre post v w h ih =>
    have hsucc : height W v + 1 ≤ m ↔ height W w + 1 ≤ m := by
      cases m with
      | zero => omega
      | succ m =>
        have := @ih m
        omega
    simp only [height, heightItems_le, List.mem_append, List.mem_cons, or_imp, forall_and,
      forall_eq, hsucc]

/-- Replacing a field by one with the same places changes no place of the object. -/
theorem mem_replaced {pre post : List (Text × Value)} {key : Text} {v w : Value}
    {P : Text → Value → Prop} (h : P key v ↔ P key w) :
    (∃ k c, (k, c) ∈ pre ++ (key, v) :: post ∧ P k c) ↔
      ∃ k c, (k, c) ∈ pre ++ (key, w) :: post ∧ P k c := by
  simp only [List.mem_append, List.mem_cons, or_and_right, exists_or, Prod.mk.injEq, and_assoc,
    exists_and_left, exists_eq_left, h]

theorem Reordered.keyPath {v w : Value} (h : Reordered v w) (p : Path) :
    KeyPath W v p ↔ KeyPath W w p := by
  induction h generalizing p with
  | refl v => rfl
  | trans _ _ ih ih' => rw [ih, ih']
  | fields h => simp only [keyPath_obj, h.mem_iff]
  | child h ih =>
    rw [keyPath_obj, keyPath_obj]
    apply or_congr
    · exact mem_replaced Iff.rfl
    · apply mem_replaced
      simp only [ih]
  | item h ih =>
    simp only [keyPath_arr, List.mem_append, List.mem_cons, or_and_right, exists_or,
      exists_eq_left, ih]

theorem Reordered.truthyPath {v w : Value} (h : Reordered v w) (p : Path) :
    TruthyPath W v p ↔ TruthyPath W w p := by
  induction h generalizing p with
  | refl v => rfl
  | trans _ _ ih ih' => rw [ih, ih']
  | fields h => simp only [truthyPath_obj, h.mem_iff]
  | child h ih =>
    rw [truthyPath_obj, truthyPath_obj]
    apply or_congr
    · apply mem_replaced
      rw [h.truthy_eq]
    · apply mem_replaced
      simp only [ih]
  | item h ih =>
    simp only [truthyPath_arr, List.mem_append, List.mem_cons, or_and_right, exists_or,
      exists_eq_left, ih, h.truthy_eq]

theorem TruthyPath.keyPath {v : Value} {p : Path} (h : TruthyPath W v p) : KeyPath W v p := by
  induction h with
  | field h hopen ht => exact .field h
  | within h hopen rest ih => exact .within h hopen ih
  | element h ht => exact .element
  | inside h rest ih => exact .inside h ih

theorem walk_error {found : Value → Text → List Text} {n : ℕ} {stack : List Pending}
    {paths : List Text} {e : Raised} (h : walk W found n stack paths = .error e) :
    e = .bodyTooComplex := by
  induction n generalizing stack paths with
  | zero =>
    cases stack with
    | nil => cases h
    | cons top stack =>
      cases h
      rfl
  | succ n ih =>
    cases stack with
    | nil => cases h
    | cons top stack =>
      simp only [walk] at h
      split at h
      · cases h
        rfl
      · exact ih h

theorem walk_error_iff {found : Value → Text → List Text} {value : Value} :
    walk W found maxKeyPathNodes [⟨value, root, 0⟩] [] = .error .bodyTooComplex ↔
      maxKeyPathNodes < visited W value ∨ maxKeyPathDepth < height W value := by
  have hok : (∃ result, walk W found maxKeyPathNodes [⟨value, root, 0⟩] [] = .ok result) ↔
      visited W value ≤ maxKeyPathNodes ∧ height W value ≤ maxKeyPathDepth := by
    simp [walk_ok_iff, visitedAll]
  cases hwalk : walk W found maxKeyPathNodes [⟨value, root, 0⟩] [] with
  | ok result =>
    have := hok.mp ⟨result, hwalk⟩
    simp only [reduceCtorEq, false_iff]
    omega
  | error e =>
    have hnot := fun hb => hok.mpr hb
    simp only [walk_error hwalk, true_iff]
    simp only [hwalk, reduceCtorEq, exists_false, imp_false] at hnot
    omega

/-- `paths` are the names of the places of `value` that `rel` gives. -/
def Names (rel : Value → Path → Prop) (value : Value) (paths : List Text) : Prop :=
  ∀ name, name ∈ paths ↔ ∃ p, rel value p ∧ render root p = name

/-- Both walks name exactly the places of their specification, one name for a place; they raise
exactly when a value is too large or too deep, in whatever order its keys come. -/
theorem walks_specified (W : Words) (value : Value) :
    (∀ paths, keyPaths W value = .ok paths → Names (KeyPath W) value paths) ∧
    (∀ paths, materialPaths W value = .ok paths → Names (TruthyPath W) value paths) ∧
    (∀ keys material, keyPaths W value = .ok keys → materialPaths W value = .ok material →
      material ⊆ keys) ∧
    (∀ p q : Path, render root p = render root q → p = q) ∧
    (keyPaths W value = .error .bodyTooComplex ↔
      maxKeyPathNodes < visited W value ∨ maxKeyPathDepth < height W value) ∧
    (materialPaths W value = .error .bodyTooComplex ↔
      maxKeyPathNodes < visited W value ∨ maxKeyPathDepth < height W value) ∧
    (∀ e, keyPaths W value = .error e ∨ materialPaths W value = .error e → e = .bodyTooComplex) ∧
    ∀ other, Reordered value other →
      visited W other = visited W value ∧
      (keyPaths W other = .error .bodyTooComplex ↔ keyPaths W value = .error .bodyTooComplex) ∧
      (materialPaths W other = .error .bodyTooComplex ↔
        materialPaths W value = .error .bodyTooComplex) ∧
      (∀ p, KeyPath W other p ↔ KeyPath W value p) ∧
      ∀ p, TruthyPath W other p ↔ TruthyPath W value p := by
  refine ⟨fun paths h => keyPaths_mem h, fun paths h => materialPaths_mem h, ?_,
    fun p q => render_inj, walk_error_iff, walk_error_iff, ?_, ?_⟩
  · intro keys material hkeys hmaterial name hname
    obtain ⟨p, hp, rfl⟩ := (materialPaths_mem hmaterial name).mp hname
    exact (keyPaths_mem hkeys _).mpr ⟨p, hp.keyPath, rfl⟩
  · intro e h
    cases h with
    | inl h => exact walk_error h
    | inr h => exact walk_error h
  · intro other h
    have hbound : (maxKeyPathNodes < visited W other ∨ maxKeyPathDepth < height W other) ↔
        (maxKeyPathNodes < visited W value ∨ maxKeyPathDepth < height W value) := by
      have := h.height_le (W := W) (m := maxKeyPathDepth)
      rw [h.visited_eq]
      omega
    refine ⟨h.visited_eq.symm, ?_, ?_, fun p => (h.keyPath p).symm, fun p => (h.truthyPath p).symm⟩
    · unfold keyPaths
      rw [walk_error_iff, walk_error_iff, hbound]
    · unfold materialPaths
      rw [walk_error_iff, walk_error_iff, hbound]

end Heel.PlanDifferential
