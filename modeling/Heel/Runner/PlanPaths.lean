import Heel.Runner.PlanVerdict

/-! What the walks compute: the places of a body as a relation, their rendering, which names each
place by one text, and the bound under which a walk ends. -/
namespace Heel.PlanDifferential
open Lib Lib.JsonText Lib.Checks Heel.Content
variable {W : Words}

inductive Segment where
  | key (name : Text)
  | element
  deriving DecidableEq, Repr

abbrev Path := List Segment

/-- `p` is the path of a key or of the elements of an array in `v`; a key that names a secret is a
path, what it holds is not looked at. -/
inductive KeyPath (W : Words) : Value → Path → Prop where
  | field {fields key child} (h : (key, child) ∈ fields) : KeyPath W (.obj fields) [.key key]
  | within {fields key child p} (h : (key, child) ∈ fields) (hopen : secretKey W key = false)
    (rest : KeyPath W child p) : KeyPath W (.obj fields) (.key key :: p)
  | element {items} : KeyPath W (.arr items) [.element]
  | inside {items child p} (h : child ∈ items) (rest : KeyPath W child p) :
    KeyPath W (.arr items) (.element :: p)

/-- `p` is the path of a truthy value in `v`, not at or below a key that names a secret. -/
inductive TruthyPath (W : Words) : Value → Path → Prop where
  | field {fields key child} (h : (key, child) ∈ fields) (hopen : secretKey W key = false)
    (ht : truthy child = true) : TruthyPath W (.obj fields) [.key key]
  | within {fields key child p} (h : (key, child) ∈ fields) (hopen : secretKey W key = false)
    (rest : TruthyPath W child p) : TruthyPath W (.obj fields) (.key key :: p)
  | element {items child} (h : child ∈ items) (ht : truthy child = true) :
    TruthyPath W (.arr items) [.element]
  | inside {items child p} (h : child ∈ items) (rest : TruthyPath W child p) :
    TruthyPath W (.arr items) (.element :: p)

def Segment.render : Segment → Text
  | .key name => period :: pathSegment name
  | .element => [openBracket, closeBracket]

def render (path : Text) (p : Path) : Text := path ++ p.flatMap Segment.render

@[simp] theorem render_nil (path : Text) : render path [] = path := by simp [render]

theorem render_key (path key : Text) (p : Path) :
    render path (.key key :: p) = render (fieldPath path key) p := by
  simp [render, fieldPath, Segment.render]

theorem render_element (path : Text) (p : Path) :
    render path (.element :: p) = render (elementPath path) p := by
  simp [render, elementPath, Segment.render]

/-- What follows a rendered key: nothing, or the next segment. -/
def Follows (r : Text) : Prop := r = [] ∨ r.head? = some period ∨ r.head? = some openBracket

theorem follows_flatMap (p : Path) : Follows (p.flatMap Segment.render) := by
  cases p with
  | nil => exact Or.inl rfl
  | cons s p =>
    cases s with
    | key name => exact Or.inr (Or.inl rfl)
    | element => exact Or.inr (Or.inr rfl)

theorem pathSegment_cons (c : ℕ) (key : Text) :
    pathSegment (c :: key) =
      (if metacharacters.contains c then [backslash, c] else [c]) ++ pathSegment key := by
  simp [pathSegment]

theorem follows_ne_segment {r s : Text} (hr : Follows r) (c : ℕ) (key : Text) :
    r ≠ pathSegment (c :: key) ++ s := by
  intro heq
  rw [pathSegment_cons] at heq
  have hhead : r.head? = some backslash ∨
      metacharacters.contains c = false ∧ r.head? = some c := by
    by_cases hc : metacharacters.contains c
    · rw [if_pos hc] at heq
      exact Or.inl (by rw [heq]; rfl)
    · rw [if_neg hc] at heq
      exact Or.inr ⟨by simpa using hc, by rw [heq]; rfl⟩
  rcases hr with rfl | hr | hr
  · simp at hhead
  · rw [hr] at hhead
    rcases hhead with h | ⟨hc, h⟩
    · exact absurd h (by decide)
    · cases h
      exact absurd hc (by decide)
  · rw [hr] at hhead
    rcases hhead with h | ⟨hc, h⟩
    · exact absurd h (by decide)
    · cases h
      exact absurd hc (by decide)

theorem pathSegment_inj {a b r s : Text} (hr : Follows r) (hs : Follows s)
    (h : pathSegment a ++ r = pathSegment b ++ s) : a = b ∧ r = s := by
  induction a generalizing b with
  | nil =>
    cases b with
    | nil => exact ⟨rfl, h⟩
    | cons d b => exact absurd h (follows_ne_segment hr d b)
  | cons c a ih =>
    cases b with
    | nil => exact absurd h.symm (follows_ne_segment hs c a)
    | cons d b =>
      have hslash : metacharacters.contains backslash = true := by decide
      rw [pathSegment_cons, pathSegment_cons] at h
      by_cases hc : metacharacters.contains c <;> by_cases hd : metacharacters.contains d
      · simp only [if_pos hc, if_pos hd, List.cons_append, List.nil_append, List.cons.injEq,
          true_and] at h
        obtain ⟨rfl, hrest⟩ := ih h.2
        exact ⟨by rw [h.1], hrest⟩
      · simp only [if_pos hc, if_neg hd, List.cons_append, List.nil_append, List.cons.injEq] at h
        exact absurd (h.1 ▸ hslash) hd
      · simp only [if_neg hc, if_pos hd, List.cons_append, List.nil_append, List.cons.injEq] at h
        exact absurd (h.1 ▸ hslash) hc
      · simp only [if_neg hc, if_neg hd, List.cons_append, List.nil_append, List.cons.injEq] at h
        obtain ⟨rfl, hrest⟩ := ih h.2
        exact ⟨by rw [h.1], hrest⟩

theorem flatMap_render_inj {p q : Path}
    (h : p.flatMap Segment.render = q.flatMap Segment.render) : p = q := by
  induction p generalizing q with
  | nil =>
    cases q with
    | nil => rfl
    | cons s q => cases s <;> cases h
  | cons s p ih =>
    cases q with
    | nil => cases s <;> cases h
    | cons t q =>
      simp only [List.flatMap_cons] at h
      cases s with
      | key a =>
        cases t with
        | key b =>
          simp only [Segment.render, List.cons_append, List.cons.injEq, true_and] at h
          obtain ⟨rfl, hrest⟩ := pathSegment_inj (follows_flatMap p) (follows_flatMap q) h
          rw [ih hrest]
        | element => exact absurd (List.cons.inj h).1 (by decide)
      | element =>
        cases t with
        | key b => exact absurd (List.cons.inj h).1 (by decide)
        | element =>
          simp only [Segment.render, List.cons_append, List.nil_append, List.cons.injEq,
            true_and] at h
          rw [ih h]

theorem render_inj {path : Text} {p q : Path} (h : render path p = render path q) : p = q :=
  flatMap_render_inj (List.append_cancel_left h)

/-- The places of `rel` in a node: what a visit finds, and the places in what it pushes. -/
def Visits (W : Words) (found : Value → Text → List Text) (rel : Value → Path → Prop) : Prop :=
  ∀ (top : Pending) (q : Text), (∃ p, rel top.node p ∧ render top.path p = q) ↔
    q ∈ found top.node top.path ∨
      ∃ child ∈ top.children W, ∃ p, rel child.node p ∧ render child.path p = q

theorem walk_mem {found : Value → Text → List Text} {rel : Value → Path → Prop}
    (visits : Visits W found rel) {n : ℕ} {stack : List Pending} {paths result : List Text}
    (h : walk W found n stack paths = .ok result) (q : Text) :
    q ∈ result ↔ q ∈ paths ∨ ∃ top ∈ stack, ∃ p, rel top.node p ∧ render top.path p = q := by
  induction n generalizing stack paths with
  | zero =>
    cases stack with
    | nil =>
      cases h
      simp
    | cons top stack => cases h
  | succ n ih =>
    cases stack with
    | nil =>
      cases h
      simp
    | cons top stack =>
      simp only [walk] at h
      split at h
      · cases h
      · rw [ih h]
        simp only [List.mem_append, List.mem_cons, or_and_right, exists_or, exists_eq_left,
          visits top q, or_assoc]

theorem keyPath_obj {fields : List (Text × Value)} {p : Path} :
    KeyPath W (.obj fields) p ↔ (∃ key child, (key, child) ∈ fields ∧ p = [.key key]) ∨
      ∃ key child, (key, child) ∈ fields ∧ secretKey W key = false ∧
        ∃ q, KeyPath W child q ∧ p = .key key :: q := by
  constructor
  · intro h
    cases h with
    | field h => exact Or.inl ⟨_, _, h, rfl⟩
    | within h hopen rest => exact Or.inr ⟨_, _, h, hopen, _, rest, rfl⟩
  · rintro (⟨key, child, h, rfl⟩ | ⟨key, child, h, hopen, q, rest, rfl⟩)
    · exact .field h
    · exact .within h hopen rest

theorem keyPath_arr {items : List Value} {p : Path} :
    KeyPath W (.arr items) p ↔ p = [.element] ∨
      ∃ child ∈ items, ∃ q, KeyPath W child q ∧ p = .element :: q := by
  constructor
  · intro h
    cases h with
    | element => exact Or.inl rfl
    | inside h rest => exact Or.inr ⟨_, h, _, rest, rfl⟩
  · rintro (rfl | ⟨child, h, q, rest, rfl⟩)
    · exact .element
    · exact .inside h rest

theorem truthyPath_obj {fields : List (Text × Value)} {p : Path} :
    TruthyPath W (.obj fields) p ↔
      (∃ key child, (key, child) ∈ fields ∧ secretKey W key = false ∧ truthy child = true ∧
        p = [.key key]) ∨
      ∃ key child, (key, child) ∈ fields ∧ secretKey W key = false ∧
        ∃ q, TruthyPath W child q ∧ p = .key key :: q := by
  constructor
  · intro h
    cases h with
    | field h hopen ht => exact Or.inl ⟨_, _, h, hopen, ht, rfl⟩
    | within h hopen rest => exact Or.inr ⟨_, _, h, hopen, _, rest, rfl⟩
  · rintro (⟨key, child, h, hopen, ht, rfl⟩ | ⟨key, child, h, hopen, q, rest, rfl⟩)
    · exact .field h hopen ht
    · exact .within h hopen rest

theorem truthyPath_arr {items : List Value} {p : Path} :
    TruthyPath W (.arr items) p ↔ (∃ child ∈ items, truthy child = true ∧ p = [.element]) ∨
      ∃ child ∈ items, ∃ q, TruthyPath W child q ∧ p = .element :: q := by
  constructor
  · intro h
    cases h with
    | element h ht => exact Or.inl ⟨_, h, ht, rfl⟩
    | inside h rest => exact Or.inr ⟨_, h, _, rest, rfl⟩
  · rintro (⟨child, h, ht, rfl⟩ | ⟨child, h, q, rest, rfl⟩)
    · exact .element h ht
    · exact .inside h rest

theorem mem_children_obj {fields : List (Text × Value)} {path : Text} {depth : ℕ}
    {child : Pending} :
    child ∈ Pending.children W ⟨.obj fields, path, depth⟩ ↔
      ∃ key value, (key, value) ∈ fields ∧ secretKey W key = false ∧
        child = ⟨value, fieldPath path key, depth + 1⟩ := by
  simp only [Pending.children, List.mem_reverse, List.mem_map, List.mem_filter, Bool.not_eq_true',
    Prod.exists]
  constructor
  · rintro ⟨key, value, ⟨h, hopen⟩, rfl⟩
    exact ⟨key, value, h, hopen, rfl⟩
  · rintro ⟨key, value, h, hopen, rfl⟩
    exact ⟨key, value, ⟨h, hopen⟩, rfl⟩

theorem mem_children_arr {items : List Value} {path : Text} {depth : ℕ} {child : Pending} :
    child ∈ Pending.children W ⟨.arr items, path, depth⟩ ↔
      ∃ value ∈ items, child = ⟨value, elementPath path, depth + 1⟩ := by
  simp [Pending.children, eq_comm]

/-- The places of an object are those of its keys and those in what its open keys hold. -/
theorem visits_obj {rel : Value → Path → Prop} {found : List Text} {here : Path → Prop}
    {fields : List (Text × Value)} {path : Text} {depth : ℕ}
    (hrel : ∀ p, rel (.obj fields) p ↔ here p ∨ ∃ key child, (key, child) ∈ fields ∧
      secretKey W key = false ∧ ∃ q, rel child q ∧ p = .key key :: q)
    (hfound : ∀ q, (∃ p, here p ∧ render path p = q) ↔ q ∈ found) (q : Text) :
    (∃ p, rel (.obj fields) p ∧ render path p = q) ↔ q ∈ found ∨
      ∃ child ∈ Pending.children W ⟨.obj fields, path, depth⟩,
        ∃ p, rel child.node p ∧ render child.path p = q := by
  simp only [hrel, mem_children_obj, ← hfound]
  constructor
  · rintro ⟨p, hp | ⟨key, child, h, hopen, r, hr, rfl⟩, rfl⟩
    · exact Or.inl ⟨p, hp, rfl⟩
    · exact Or.inr ⟨_, ⟨key, child, h, hopen, rfl⟩, r, hr, (render_key path key r).symm⟩
  · rintro (⟨p, hp, rfl⟩ | ⟨_, ⟨key, child, h, hopen, rfl⟩, r, hr, rfl⟩)
    · exact ⟨p, Or.inl hp, rfl⟩
    · exact ⟨_, Or.inr ⟨key, child, h, hopen, r, hr, rfl⟩, render_key path key r⟩

theorem visits_arr {rel : Value → Path → Prop} {found : List Text} {here : Path → Prop}
    {items : List Value} {path : Text} {depth : ℕ}
    (hrel : ∀ p, rel (.arr items) p ↔ here p ∨ ∃ child ∈ items, ∃ q, rel child q ∧
      p = .element :: q)
    (hfound : ∀ q, (∃ p, here p ∧ render path p = q) ↔ q ∈ found) (q : Text) :
    (∃ p, rel (.arr items) p ∧ render path p = q) ↔ q ∈ found ∨
      ∃ child ∈ Pending.children W ⟨.arr items, path, depth⟩,
        ∃ p, rel child.node p ∧ render child.path p = q := by
  simp only [hrel, mem_children_arr, ← hfound]
  constructor
  · rintro ⟨p, hp | ⟨child, h, r, hr, rfl⟩, rfl⟩
    · exact Or.inl ⟨p, hp, rfl⟩
    · exact Or.inr ⟨_, ⟨child, h, rfl⟩, r, hr, (render_element path r).symm⟩
  · rintro (⟨p, hp, rfl⟩ | ⟨_, ⟨child, h, rfl⟩, r, hr, rfl⟩)
    · exact ⟨p, Or.inl hp, rfl⟩
    · exact ⟨_, Or.inr ⟨child, h, r, hr, rfl⟩, render_element path r⟩

theorem keys_visits : Visits W keysFound (KeyPath W) := by
  rintro ⟨node, path, depth⟩ q
  cases node with
  | obj fields =>
    apply visits_obj (fun p => keyPath_obj)
    intro q
    simp only [keysFound, List.mem_map, Prod.exists]
    constructor
    · rintro ⟨_, ⟨key, child, h, rfl⟩, rfl⟩
      exact ⟨key, child, h, by rw [render_key, render_nil]⟩
    · rintro ⟨key, child, h, rfl⟩
      exact ⟨_, ⟨key, child, h, rfl⟩, by rw [render_key, render_nil]⟩
  | arr items =>
    apply visits_arr (fun p => keyPath_arr)
    intro q
    simp [keysFound, render_element, eq_comm]
  | _ =>
    simp only [keysFound, Pending.children, List.not_mem_nil, false_and, exists_false, or_false,
      iff_false]
    rintro ⟨p, hp, -⟩
    cases hp

theorem material_visits : Visits W (materialFound W) (TruthyPath W) := by
  rintro ⟨node, path, depth⟩ q
  cases node with
  | obj fields =>
    apply visits_obj (fun p => truthyPath_obj)
    intro q
    simp only [materialFound, List.mem_map, List.mem_filter, Bool.and_eq_true, Bool.not_eq_true',
      Prod.exists]
    constructor
    · rintro ⟨_, ⟨key, child, h, hopen, ht, rfl⟩, rfl⟩
      exact ⟨key, child, ⟨h, hopen, ht⟩, by rw [render_key, render_nil]⟩
    · rintro ⟨key, child, ⟨h, hopen, ht⟩, rfl⟩
      exact ⟨_, ⟨key, child, h, hopen, ht, rfl⟩, by rw [render_key, render_nil]⟩
  | arr items =>
    apply visits_arr (fun p => truthyPath_arr)
    intro q
    simp only [materialFound]
    constructor
    · rintro ⟨_, ⟨child, h, ht, rfl⟩, rfl⟩
      rw [if_pos (List.any_eq_true.mpr ⟨child, h, ht⟩)]
      simp [render_element]
    · intro hq
      split at hq
      · next hany =>
        obtain ⟨child, h, ht⟩ := List.any_eq_true.mp hany
        refine ⟨_, ⟨child, h, ht, rfl⟩, ?_⟩
        rw [render_element, render_nil]
        exact (List.mem_singleton.mp hq).symm
      · cases hq
  | _ =>
    simp only [materialFound, Pending.children, List.not_mem_nil, false_and, exists_false, or_false,
      iff_false]
    rintro ⟨p, hp, -⟩
    cases hp

theorem keyPaths_mem {value : Value} {paths : List Text} (h : keyPaths W value = .ok paths)
    (q : Text) : q ∈ paths ↔ ∃ p, KeyPath W value p ∧ render root p = q := by
  rw [walk_mem keys_visits h]
  simp

theorem materialPaths_mem {value : Value} {paths : List Text}
    (h : materialPaths W value = .ok paths) (q : Text) :
    q ∈ paths ↔ ∃ p, TruthyPath W value p ∧ render root p = q := by
  rw [walk_mem material_visits h]
  simp

/-- One set of rendered paths covers another exactly when the places of one body are places of the
other. -/
theorem covers_iff {rel : Value → Path → Prop} {a b : Value} {as bs : List Text}
    (ha : ∀ q, q ∈ as ↔ ∃ p, rel a p ∧ render root p = q)
    (hb : ∀ q, q ∈ bs ↔ ∃ p, rel b p ∧ render root p = q) :
    covers as bs = true ↔ ∀ p, rel b p → rel a p := by
  simp only [covers, List.all_eq_true, List.contains_iff_mem]
  constructor
  · intro hall p hp
    obtain ⟨r, hr, heq⟩ := (ha _).mp (hall _ ((hb _).mpr ⟨p, hp, rfl⟩))
    exact render_inj heq ▸ hr
  · intro hall q hq
    obtain ⟨p, hp, rfl⟩ := (hb q).mp hq
    exact (ha _).mpr ⟨p, hall p hp, rfl⟩

mutual
/-- The nodes of a body that are looked at. -/
def visited (W : Words) : Value → ℕ
  | .arr items => visitedItems W items + 1
  | .obj fields => visitedFields W fields + 1
  | _ => 1

def visitedItems (W : Words) : List Value → ℕ
  | [] => 0
  | child :: items => visited W child + visitedItems W items

def visitedFields (W : Words) : List (Text × Value) → ℕ
  | [] => 0
  | (key, child) :: fields =>
    (if secretKey W key then 0 else visited W child) + visitedFields W fields
end

mutual
/-- How deep the nodes that are looked at lie. -/
def height (W : Words) : Value → ℕ
  | .arr items => heightItems W items
  | .obj fields => heightFields W fields
  | _ => 0

def heightItems (W : Words) : List Value → ℕ
  | [] => 0
  | child :: items => max (height W child + 1) (heightItems W items)

def heightFields (W : Words) : List (Text × Value) → ℕ
  | [] => 0
  | (key, child) :: fields =>
    max (if secretKey W key then 0 else height W child + 1) (heightFields W fields)
end

def WithinBounds (W : Words) (value : Value) : Prop :=
  visited W value ≤ maxKeyPathNodes ∧ height W value ≤ maxKeyPathDepth

def visitedAll (W : Words) (stack : List Pending) : ℕ :=
  (stack.map fun top => visited W top.node).sum

theorem visitedItems_eq (items : List Value) :
    visitedItems W items = (items.map (visited W)).sum := by
  induction items with
  | nil => rfl
  | cons child items ih => simp [visitedItems, ih]

theorem visitedFields_eq (fields : List (Text × Value)) :
    visitedFields W fields =
      ((fields.filter fun (key, _) => !secretKey W key).map fun (_, child) =>
      visited W child).sum := by
  induction fields with
  | nil => rfl
  | cons entry fields ih =>
    obtain ⟨key, child⟩ := entry
    by_cases hsecret : secretKey W key = true
    · simp [visitedFields, hsecret, ih]
    · simp [visitedFields, hsecret, ih]

theorem visitedAll_append (a b : List Pending) :
    visitedAll W (a ++ b) = visitedAll W a + visitedAll W b := by
  simp [visitedAll]

theorem visited_node (top : Pending) : visited W top.node = visitedAll W (top.children W) + 1 := by
  obtain ⟨node, path, depth⟩ := top
  cases node with
  | obj fields =>
    simp [visited, visitedAll, Pending.children, visitedFields_eq, List.map_reverse,
      Function.comp_def]
  | arr items =>
    simp [visited, visitedAll, Pending.children, visitedItems_eq, List.map_reverse,
      Function.comp_def]
  | _ => rfl

theorem heightItems_le {items : List Value} {m : ℕ} :
    heightItems W items ≤ m ↔ ∀ child ∈ items, height W child + 1 ≤ m := by
  induction items with
  | nil => simp [heightItems]
  | cons child items ih => simp [heightItems, ih]

theorem heightFields_le {fields : List (Text × Value)} {m : ℕ} :
    heightFields W fields ≤ m ↔ ∀ key child, (key, child) ∈ fields → secretKey W key = false →
      height W child + 1 ≤ m := by
  induction fields with
  | nil => simp [heightFields]
  | cons entry fields ih =>
    obtain ⟨key, child⟩ := entry
    simp only [heightFields, max_le_iff, ih, List.mem_cons, Prod.mk.injEq]
    constructor
    · rintro ⟨hhead, hrest⟩ k c (⟨rfl, rfl⟩ | h) hopen
      · simpa [hopen] using hhead
      · exact hrest k c h hopen
    · intro hall
      refine ⟨?_, fun k c h hopen => hall k c (Or.inr h) hopen⟩
      split
      · omega
      · next hopen => exact hall key child (Or.inl ⟨rfl, rfl⟩) (by simpa using hopen)

theorem height_node (top : Pending) {m : ℕ} : top.depth + height W top.node ≤ m ↔
    top.depth ≤ m ∧ ∀ child ∈ top.children W, child.depth + height W child.node ≤ m := by
  obtain ⟨node, path, depth⟩ := top
  have hsplit : ∀ h, depth + h ≤ m ↔ depth ≤ m ∧ h ≤ m - depth := by
    intro h
    omega
  cases node with
  | obj fields =>
    simp only [height, hsplit, heightFields_le, mem_children_obj]
    apply and_congr_right
    intro hdepth
    constructor
    · rintro hall _ ⟨key, child, h, hopen, rfl⟩
      have := hall key child h hopen
      dsimp only
      omega
    · intro hall key child h hopen
      have := hall _ ⟨key, child, h, hopen, rfl⟩
      dsimp only at this
      omega
  | arr items =>
    simp only [height, hsplit, heightItems_le, mem_children_arr]
    apply and_congr_right
    intro hdepth
    constructor
    · rintro hall _ ⟨child, h, rfl⟩
      have := hall child h
      dsimp only
      omega
    · intro hall child h
      have := hall _ ⟨child, h, rfl⟩
      dsimp only at this
      omega
  | _ => simp [height, Pending.children]

/-- A walk ends exactly when what is pending fits the nodes that may be visited and the depth. -/
theorem walk_ok_iff {found : Value → Text → List Text} {n : ℕ} {stack : List Pending}
    {paths : List Text} : (∃ result, walk W found n stack paths = .ok result) ↔
      visitedAll W stack ≤ n ∧ ∀ top ∈ stack, top.depth + height W top.node ≤ maxKeyPathDepth := by
  induction n generalizing stack paths with
  | zero =>
    cases stack with
    | nil => simp [walk, visitedAll]
    | cons top stack =>
      have := visited_node (W := W) top
      simp [walk, visitedAll]
      omega
  | succ n ih =>
    cases stack with
    | nil => simp [walk, visitedAll]
    | cons top stack =>
      have hnode := visited_node (W := W) top
      have hcount : visitedAll W (top :: stack) = visited W top.node + visitedAll W stack := by
        simp [visitedAll]
      simp only [walk]
      rw [List.forall_mem_cons, height_node top, hcount, hnode]
      split
      · next hdeep =>
        simp only [reduceCtorEq, exists_false, false_iff]
        omega
      · next hdeep =>
        rw [ih, visitedAll_append, List.forall_mem_append]
        have hdepth : top.depth ≤ maxKeyPathDepth := by omega
        simp only [hdepth, true_and]
        apply and_congr_left'
        omega

theorem keyPaths_ok_iff (value : Value) :
    (∃ paths, keyPaths W value = .ok paths) ↔ WithinBounds W value := by
  simp [keyPaths, walk_ok_iff, visitedAll, WithinBounds]

theorem materialPaths_ok_iff (value : Value) :
    (∃ paths, materialPaths W value = .ok paths) ↔ WithinBounds W value := by
  simp [materialPaths, walk_ok_iff, visitedAll, WithinBounds]

end Heel.PlanDifferential
