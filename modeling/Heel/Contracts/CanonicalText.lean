import Heel.Contracts.OperationalRun

/-! Canonical JSON text is uniquely readable: a value's text says where it ends, so equal texts
come from equal members. -/
namespace Heel
open Lib.Checks
namespace Json

/-- The character an escape stands for, and the rest of the text. -/
def unescape : List Char → Option (Char × List Char)
  | '\\' :: 'n' :: r => some ('\n', r)
  | '\\' :: 'r' :: r => some ('\r', r)
  | '\\' :: 't' :: r => some ('\t', r)
  | '\\' :: 'f' :: r => some (Char.ofNat 0x0c, r)
  | '\\' :: 'b' :: r => some (Char.ofNat 0x08, r)
  | '\\' :: 'u' :: '0' :: '0' :: a :: b :: r =>
    some (Char.ofNat (16 * "0123456789abcdef".toList.idxOf a +
      "0123456789abcdef".toList.idxOf b), r)
  | '\\' :: c :: r => some (c, r)
  | c :: r => some (c, r)
  | [] => none

theorem hexDigit_idxOf : ∀ n < 16, "0123456789abcdef".toList.idxOf (hexDigit n) = n := by
  decide

theorem unescape_escapeChar (c : Char) (r : List Char) :
    unescape (escapeChar c ++ r) = some (c, r) := by
  have branch : ∀ {p : Prop} [Decidable p] {x y : List Char},
      (p → unescape (x ++ r) = some (c, r)) → (¬ p → unescape (y ++ r) = some (c, r)) →
      unescape ((if p then x else y) ++ r) = some (c, r) :=
    fun hx hy => iteInduction (motive := fun text => unescape (text ++ r) = some (c, r)) hx hy
  unfold escapeChar
  refine branch (fun h => by subst h; rfl) fun h1 => branch (fun h => by subst h; rfl) fun h2 =>
    branch (fun h => by subst h; rfl) fun _ => branch (fun h => by subst h; rfl) fun _ =>
    branch (fun h => by subst h; rfl) fun _ => branch (fun h => ?_) fun _ =>
        branch (fun h => ?_) fun _ =>
    branch (fun h => ?_) fun h => ?_
  · have hc : c = Char.ofNat 0x0c := by rw [← h, Char.ofNat_toNat]
    subst hc; rfl
  · have hc : c = Char.ofNat 0x08 := by rw [← h, Char.ofNat_toNat]
    subst hc; rfl
  · have hhi : c.toNat / 16 < 16 := by omega
    have hlo : c.toNat % 16 < 16 := by omega
    have hsum : 16 * (c.toNat / 16) + c.toNat % 16 = c.toNat := by omega
    simp only [List.cons_append, List.nil_append, unescape, hexDigit_idxOf _ hhi,
      hexDigit_idxOf _ hlo, hsum, Char.ofNat_toNat]
  · simp only [List.cons_append, List.nil_append]
    unfold unescape
    split <;> simp_all

theorem escapeChar_head (c : Char) : (escapeChar c).head? ≠ some '"' ∧ escapeChar c ≠ [] := by
  have hslash : ∀ text : List Char, ('\\' :: text).head? ≠ some '"' ∧ '\\' :: text ≠ [] :=
    fun text => ⟨by simp, List.cons_ne_nil _ _⟩
  have branch : ∀ {p : Prop} [Decidable p] {text y : List Char},
      (¬ p → y.head? ≠ some '"' ∧ y ≠ []) → (if p then '\\' :: text else y).head? ≠ some '"' ∧
        (if p then '\\' :: text else y) ≠ [] := fun hy =>
    iteInduction (motive := fun t => t.head? ≠ some '"' ∧ t ≠ []) (fun _ => hslash _) hy
  unfold escapeChar
  refine branch fun hquote => branch fun _ => branch fun _ => branch fun _ => branch fun _ =>
    branch fun _ => branch fun _ => branch fun _ => ?_
  simpa using hquote

theorem quote_unique {s t : String} {r r' : List Char} (h : quote s ++ r = quote t ++ r') :
    s = t ∧ r = r' := by
  have hbody : ∀ xs ys : List Char, xs.flatMap escapeChar ++ '"' :: r =
      ys.flatMap escapeChar ++ '"' :: r' → xs = ys ∧ r = r' := by
    intro xs
    induction xs with
    | nil =>
      intro ys h
      cases ys with
      | nil => exact ⟨rfl, by simpa using h⟩
      | cons y ys =>
        obtain ⟨hhead, hne⟩ := escapeChar_head y
        obtain ⟨c, rest, hc⟩ := List.exists_cons_of_ne_nil hne
        rw [hc] at hhead
        simp only [List.flatMap_nil, List.nil_append, List.flatMap_cons, hc, List.cons_append,
          List.cons.injEq] at h
        exact absurd (congrArg some h.1.symm) hhead
    | cons x xs ih =>
      intro ys h
      cases ys with
      | nil =>
        obtain ⟨hhead, hne⟩ := escapeChar_head x
        obtain ⟨c, rest, hc⟩ := List.exists_cons_of_ne_nil hne
        rw [hc] at hhead
        simp only [List.flatMap_nil, List.nil_append, List.flatMap_cons, hc, List.cons_append,
          List.cons.injEq] at h
        exact absurd (congrArg some h.1) hhead
      | cons y ys =>
        have hread := congrArg unescape h
        simp only [List.flatMap_cons, List.append_assoc, unescape_escapeChar, Option.some.injEq,
          Prod.mk.injEq] at hread
        obtain ⟨hxs, hr⟩ := ih ys hread.2
        exact ⟨by rw [hread.1, hxs], hr⟩
  simp only [quote, List.cons_append, List.append_assoc, List.nil_append, List.cons.injEq,
    true_and] at h
  obtain ⟨hs, hr⟩ := hbody _ _ h
  exact ⟨String.toList_inj.mp hs, hr⟩

/-- What may follow a value: nothing, a comma or a closing bracket. -/
def Ends (r : List Char) : Prop := ∀ c, r.head? = some c → c = ',' ∨ c = ']' ∨ c = '}'

theorem Ends.nil : Ends [] := by simp [Ends]

theorem Ends.cons {c : Char} (h : c = ',' ∨ c = ']' ∨ c = '}') (r : List Char) : Ends (c :: r) := by
  simpa [Ends] using h

theorem Ends.noDigit {r : List Char} (h : Ends r) : r.takeWhile Char.isDigit = [] := by
  cases r with
  | nil => rfl
  | cons c r => rcases h c rfl with h | h | h <;> subst h <;> rfl

theorem toDigits_unique {n m : Nat} {r r' : List Char} (hr : Ends r) (hr' : Ends r')
    (h : Nat.toDigits 10 n ++ r = Nat.toDigits 10 m ++ r') : n = m ∧ r = r' := by
  have hdigits : ∀ (k : Nat), ∀ c ∈ Nat.toDigits 10 k, c.isDigit = true :=
    fun k c hc => Nat.isDigit_of_mem_toDigits (by omega) (by omega) hc
  have htake := congrArg (List.takeWhile Char.isDigit) h
  rw [List.takeWhile_append_of_pos (hdigits n), List.takeWhile_append_of_pos (hdigits m),
    hr.noDigit, hr'.noDigit, List.append_nil, List.append_nil] at htake
  have hnm : n = m := by
    rw [← Nat.ofDigitChars_ten_toDigits (n := n), htake, Nat.ofDigitChars_ten_toDigits]
  subst hnm
  exact ⟨rfl, List.append_cancel_left h⟩

def startsNumber (c : Char) : Bool := c.isDigit || c = '-'

theorem toDigits_head (n : Nat) : ∃ c rest, Nat.toDigits 10 n = c :: rest ∧ c.isDigit = true := by
  obtain ⟨c, rest, hc⟩ := List.exists_cons_of_ne_nil (Nat.toDigits_ne_nil (n := n) (b := 10))
  exact ⟨c, rest, hc, Nat.isDigit_of_mem_toDigits (n := n) (b := 10) (by omega) (by omega)
    (by simp [hc])⟩

theorem intChars_unique {n m : Int} {r r' : List Char} (hr : Ends r) (hr' : Ends r')
    (h : intChars n ++ r = intChars m ++ r') : n = m ∧ r = r' := by
  have hminus : ∀ (k : Nat) (xs ys : List Char), Nat.toDigits 10 k ++ xs ≠ '-' :: ys := by
    intro k xs ys heq
    obtain ⟨c, rest, hc, hd⟩ := toDigits_head k
    rw [hc, List.cons_append, List.cons.injEq] at heq
    rw [heq.1] at hd
    exact absurd hd (by decide)
  cases n with
  | ofNat n =>
    cases m with
    | ofNat m =>
      obtain ⟨hnm, hrr⟩ := toDigits_unique hr hr' h
      exact ⟨by rw [hnm], hrr⟩
    | negSucc m => exact absurd h (hminus _ _ _)
  | negSucc n =>
    cases m with
    | ofNat m => exact absurd h.symm (hminus _ _ _)
    | negSucc m =>
      simp only [intChars, List.cons_append, List.cons.injEq, true_and] at h
      obtain ⟨hnm, hrr⟩ := toDigits_unique hr hr' h
      exact ⟨by rw [Nat.succ.inj hnm], hrr⟩

/-- An element's text ends where it ends, among the elements `Q` allows. -/
def Readable {α : Type} (e : α → List Char) (Q : α → Prop) (x : α) : Prop :=
  ∀ y r r', Q y → Ends r → Ends r' → e x ++ r = e y ++ r' → x = y ∧ r = r'

theorem intercalate_unique {α : Type} (e : α → List Char) (Q : α → Prop) {close : Char}
    (hclose : close = ']' ∨ close = '}')
    (hhead : ∀ a, Q a → ∃ c rest, e a = c :: rest ∧ c ≠ close)
    (xs ys : List α) (r r' : List Char) (hxs : ∀ x ∈ xs, Q x ∧ Readable e Q x)
    (hys : ∀ y ∈ ys, Q y)
    (h : [','].intercalate (xs.map e) ++ close :: r = [','].intercalate (ys.map e) ++ close :: r') :
    xs = ys ∧ r = r' := by
  have hend : ∀ s : List Char, Ends (close :: s) := fun s => Ends.cons (.inr hclose) s
  have hcomma : ∀ s : List Char, Ends (',' :: s) := fun s => Ends.cons (.inl rfl) s
  have hne : close ≠ ',' := by rcases hclose with h | h <;> subst h <;> decide
  induction xs generalizing ys with
  | nil =>
    cases ys with
    | nil => exact ⟨rfl, by simpa using h⟩
    | cons y ys =>
      obtain ⟨c, rest, hc, hcl⟩ := hhead y (hys y (by simp))
      cases ys with
      | nil => simp [hc, Ne.symm hcl] at h
      | cons z zs => simp [hc, Ne.symm hcl, List.intercalate_cons_cons] at h
  | cons x xs ih =>
    obtain ⟨hqx, hread⟩ := hxs x (by simp)
    cases ys with
    | nil =>
      obtain ⟨c, rest, hc, hcl⟩ := hhead x hqx
      cases xs with
      | nil => simp [hc, hcl] at h
      | cons z zs => simp [hc, hcl, List.intercalate_cons_cons] at h
    | cons y ys =>
      have hqy := hys y (by simp)
      cases xs with
      | nil =>
        cases ys with
        | nil =>
          simp only [List.map_cons, List.map_nil, List.intercalate_singleton] at h
          obtain ⟨hxy, hrr⟩ := hread y _ _ hqy (hend r) (hend r') h
          simp only [List.cons.injEq, true_and] at hrr
          exact ⟨by rw [hxy], hrr⟩
        | cons z zs =>
          simp only [List.map_cons, List.map_nil, List.intercalate_singleton,
            List.intercalate_cons_cons, List.append_assoc, List.cons_append,
            List.nil_append] at h
          obtain ⟨-, hrr⟩ := hread y _ _ hqy (hend r) (hcomma _) h
          simp only [List.cons.injEq] at hrr
          exact absurd hrr.1 hne
      | cons z zs =>
        cases ys with
        | nil =>
          simp only [List.map_cons, List.map_nil, List.intercalate_singleton,
            List.intercalate_cons_cons, List.append_assoc, List.cons_append,
            List.nil_append] at h
          obtain ⟨-, hrr⟩ := hread y _ _ hqy (hcomma _) (hend r') h
          simp only [List.cons.injEq] at hrr
          exact absurd hrr.1.symm hne
        | cons w ws =>
          simp only [List.map_cons, List.intercalate_cons_cons, List.append_assoc,
            List.cons_append, List.nil_append] at h
          obtain ⟨hxy, hrr⟩ := hread y _ _ hqy (hcomma _) (hcomma _) h
          simp only [List.cons.injEq, true_and] at hrr
          obtain ⟨htail, hrest⟩ := ih (w :: ws) (fun x hx => hxs x (List.mem_cons_of_mem _ hx))
            (fun y hy => hys y (List.mem_cons_of_mem _ hy)) (by simpa using hrr)
          exact ⟨by rw [hxy, htail], hrest⟩

/-- Which kind of value a first character opens. -/
def leadKind (c : Char) : Nat :=
  if c = 'n' then 0 else if c = 't' then 1 else if c = 'f' then 2 else if c = '"' then 3
  else if c = '[' then 4 else if c = '{' then 5 else if startsNumber c then 6 else 7

def kind : Json → Nat
  | .null => 0
  | .bool true => 1
  | .bool false => 2
  | .str _ => 3
  | .arr _ => 4
  | .obj _ => 5
  | .int _ => 6

theorem leadKind_digit {c : Char} (h : c.isDigit = true) : leadKind c = 6 := by
  have hne : ∀ d : Char, d.isDigit = false → c ≠ d := by
    rintro d hd rfl
    rw [h] at hd
    cases hd
  unfold leadKind
  rw [if_neg (hne _ (by decide)), if_neg (hne _ (by decide)), if_neg (hne _ (by decide)),
    if_neg (hne _ (by decide)), if_neg (hne _ (by decide)), if_neg (hne _ (by decide)),
    if_pos (by simp [startsNumber, h])]

theorem dumps_head (v : Json) : ∃ c rest, dumps v = c :: rest ∧ leadKind c = kind v := by
  cases v with
  | null => exact ⟨_, _, by rw [dumps], rfl⟩
  | bool b => cases b <;> exact ⟨_, _, by rw [dumps], rfl⟩
  | int n =>
    cases n with
    | ofNat n =>
      obtain ⟨c, rest, hc, hd⟩ := toDigits_head n
      exact ⟨c, rest, by rw [dumps, intChars, hc], leadKind_digit hd⟩
    | negSucc n => exact ⟨'-', _, by rw [dumps, intChars], rfl⟩
  | str s => exact ⟨'"', _, by rw [dumps, quote], rfl⟩
  | arr items => exact ⟨'[', _, by rw [dumps], rfl⟩
  | obj fields => exact ⟨'{', _, by rw [dumps], rfl⟩

theorem kind_eq {v w : Json} {r r' : List Char} (h : dumps v ++ r = dumps w ++ r') :
    kind v = kind w := by
  obtain ⟨c, rest, hc, hk⟩ := dumps_head v
  obtain ⟨d, rest', hd, hk'⟩ := dumps_head w
  rw [hc, hd, List.cons_append, List.cons_append, List.cons.injEq] at h
  rw [← hk, ← hk', h.1]

def IsText (t : List Char) : Prop := ∃ w, t = dumps w

def member (p : String × List Char) : List Char := quote p.1 ++ ':' :: p.2

theorem IsText.head {t : List Char} (h : IsText t) {close : Char} (hclose : leadKind close = 7) :
    ∃ c rest, t = c :: rest ∧ c ≠ close := by
  obtain ⟨w, rfl⟩ := h
  obtain ⟨c, rest, hc, hk⟩ := dumps_head w
  refine ⟨c, rest, hc, ?_⟩
  rintro rfl
  have hlt : kind w < 7 := by
    cases w with
    | bool b => cases b <;> simp [kind]
    | _ => simp [kind]
  omega

theorem member_readable {p : String × List Char} (h : Readable id IsText p.2) :
    Readable member (fun q => IsText q.2) p := by
  intro q r r' hq hr hr' heq
  simp only [member, List.append_assoc, List.cons_append] at heq
  obtain ⟨hkey, hrest⟩ := quote_unique heq
  simp only [List.cons.injEq, true_and] at hrest
  obtain ⟨htext, hrr⟩ := h q.2 r r' hq hr hr' hrest
  exact ⟨Prod.ext hkey htext, hrr⟩

/-- The members of an object, in the order its text has them. -/
def sortedMembers (fields : List (String × Json)) : List (String × List Char) :=
  (dumpsFields fields).insertionSort keyLe

theorem mem_sortedMembers {fields : List (String × Json)} {p : String × List Char} :
    p ∈ sortedMembers fields ↔ ∃ q ∈ fields, p = (q.1, dumps q.2) := by
  rw [sortedMembers, List.mem_insertionSort, dumpsFields_map, List.mem_map]
  constructor
  · rintro ⟨q, hq, rfl⟩
    exact ⟨q, hq, rfl⟩
  · rintro ⟨q, hq, rfl⟩
    exact ⟨q, hq, rfl⟩

theorem dumps_arr (items : List Json) : dumps (.arr items) =
    '[' :: ([','].intercalate ((items.map dumps).map id) ++ [']']) := by
  rw [dumps, dumpsItems_map, List.map_id]

theorem dumps_obj (fields : List (String × Json)) : dumps (.obj fields) =
    '{' :: ([','].intercalate ((sortedMembers fields).map member) ++ ['}']) := by
  rw [dumps]
  rfl

theorem arr_readable {items : List Json}
    (h : ∀ item ∈ items, Readable id IsText (dumps item)) :
    Readable id IsText (dumps (.arr items)) := by
  rintro t r r' ⟨w, rfl⟩ - - heq
  simp only [id_eq] at heq
  cases w with
  | arr items' =>
    simp only [dumps_arr, List.cons_append, List.append_assoc, List.nil_append, List.cons.injEq,
      true_and] at heq
    obtain ⟨htexts, hrr⟩ := intercalate_unique id IsText (.inl rfl)
      (fun a ha => ha.head (by decide)) (items.map dumps) (items'.map dumps) r r'
      (by
        intro x hx
        obtain ⟨item, hitem, rfl⟩ := List.mem_map.mp hx
        exact ⟨⟨item, rfl⟩, h item hitem⟩)
      (by
        intro y hy
        obtain ⟨item, -, rfl⟩ := List.mem_map.mp hy
        exact ⟨item, rfl⟩) heq
    exact ⟨by rw [dumps_arr, dumps_arr, htexts], hrr⟩
  | bool b => cases b <;> cases kind_eq heq
  | _ => cases kind_eq heq

theorem obj_readable {fields : List (String × Json)}
    (h : ∀ p ∈ fields, Readable id IsText (dumps p.2)) :
    Readable id IsText (dumps (.obj fields)) := by
  rintro t r r' ⟨w, rfl⟩ - - heq
  simp only [id_eq] at heq
  cases w with
  | obj fields' =>
    simp only [dumps_obj, List.cons_append, List.append_assoc, List.nil_append, List.cons.injEq,
      true_and] at heq
    obtain ⟨htexts, hrr⟩ := intercalate_unique member (fun q => IsText q.2) (.inr rfl)
      (fun a _ => ⟨'"', _, rfl, by decide⟩) (sortedMembers fields) (sortedMembers fields') r r'
      (by
        intro x hx
        obtain ⟨q, hq, rfl⟩ := mem_sortedMembers.mp hx
        exact ⟨⟨q.2, rfl⟩, member_readable (h q hq)⟩)
      (by
        intro y hy
        obtain ⟨q, -, rfl⟩ := mem_sortedMembers.mp hy
        exact ⟨q.2, rfl⟩) heq
    exact ⟨by rw [dumps_obj, dumps_obj, htexts], hrr⟩
  | bool b => cases b <;> cases kind_eq heq
  | _ => cases kind_eq heq

mutual
theorem readable : ∀ v : Json, Readable id IsText (dumps v)
  | .null => by
    rintro t r r' ⟨w, rfl⟩ - - heq
    simp only [id_eq] at heq
    cases w with
    | null => exact ⟨rfl, by simpa [dumps] using heq⟩
    | bool b => cases b <;> cases kind_eq heq
    | _ => cases kind_eq heq
  | .bool a => by
    rintro t r r' ⟨w, rfl⟩ - - heq
    simp only [id_eq] at heq
    cases w with
    | bool b => cases a <;> cases b <;> first | exact ⟨rfl, by simpa [dumps] using heq⟩ |
        cases kind_eq heq
    | _ => cases a <;> cases kind_eq heq
  | .int n => by
    rintro t r r' ⟨w, rfl⟩ hr hr' heq
    simp only [id_eq] at heq
    cases w with
    | int m =>
      simp only [dumps] at heq ⊢
      obtain ⟨hnm, hrr⟩ := intChars_unique hr hr' heq
      exact ⟨by rw [hnm], hrr⟩
    | bool b => cases b <;> cases kind_eq heq
    | _ => cases kind_eq heq
  | .str s => by
    rintro t r r' ⟨w, rfl⟩ - - heq
    simp only [id_eq] at heq
    cases w with
    | str s' =>
      simp only [dumps] at heq ⊢
      obtain ⟨hs, hrr⟩ := quote_unique heq
      exact ⟨by rw [hs], hrr⟩
    | bool b => cases b <;> cases kind_eq heq
    | _ => cases kind_eq heq
  | .arr items => arr_readable (readableItems items)
  | .obj fields => obj_readable (readableFields fields)

theorem readableItems : ∀ items : List Json, ∀ v ∈ items, Readable id IsText (dumps v)
  | [] => by simp
  | item :: rest => by
    have hitem := readable item
    have hrest := readableItems rest
    intro v hv
    rcases List.mem_cons.mp hv with rfl | hv
    · exact hitem
    · exact hrest v hv

theorem readableFields : ∀ fields : List (String × Json),
    ∀ p ∈ fields, Readable id IsText (dumps p.2)
  | [] => by simp
  | (_, item) :: rest => by
    have hitem := readable item
    have hrest := readableFields rest
    intro p hp
    rcases List.mem_cons.mp hp with rfl | hp
    · exact hitem
    · exact hrest p hp
end

theorem sortedMembers_eq {fields fields' : List (String × Json)}
    (h : dumps (.obj fields) = dumps (.obj fields')) :
    sortedMembers fields = sortedMembers fields' := by
  simp only [dumps_obj, List.cons.injEq, true_and] at h
  refine (intercalate_unique member (fun q => IsText q.2) (.inr rfl)
    (fun a _ => ⟨'"', _, rfl, by decide⟩) _ _ [] [] ?_ ?_ h).1
  · intro x hx
    obtain ⟨q, hq, rfl⟩ := mem_sortedMembers.mp hx
    exact ⟨⟨q.2, rfl⟩, member_readable (readable q.2)⟩
  · intro y hy
    obtain ⟨q, -, rfl⟩ := mem_sortedMembers.mp hy
    exact ⟨q.2, rfl⟩

theorem intChars_inj {n m : Int} (h : intChars n = intChars m) : n = m :=
  (intChars_unique Ends.nil Ends.nil (by rw [h])).1

section Normalized
variable {P : Platform} {depth : Nat}

/-- Normalisation keeps what is done and gives each field its member. -/
theorem normalizeFields_mem {fields done out : List (String × Json)}
    (h : normalizeFields P depth done fields = .ok out) :
    (∀ p ∈ done, p ∈ out) ∧
      ∀ p ∈ fields, ∃ value, normalize P depth p.2 = .ok value ∧ (P.nfc p.1, value) ∈ out := by
  induction fields generalizing done with
  | nil =>
    simp only [normalizeFields, pure, Except.pure, Except.ok.injEq] at h
    subst h
    exact ⟨fun p hp => hp, by simp⟩
  | cons field rest ih =>
    obtain ⟨key, item⟩ := field
    simp only [normalizeFields, normalizeText, bind_ok, require_ok, exists_const, pure,
      Except.pure, Except.ok.injEq] at h
    obtain ⟨-, key', ⟨-, -, rfl⟩, -, value, hvalue, h⟩ := h
    obtain ⟨hdone, hrest⟩ := ih h
    refine ⟨fun p hp => hdone p (List.mem_append_left _ hp), ?_⟩
    intro p hp
    rcases List.mem_cons.mp hp with rfl | hp
    · exact ⟨value, hvalue, hdone _ (List.mem_append_right _ (by simp))⟩
    · exact hrest p hp

theorem normalizeFields_nodup {fields done out : List (String × Json)}
    (hd : (done.map Prod.fst).Nodup) (h : normalizeFields P depth done fields = .ok out) :
    (out.map Prod.fst).Nodup := by
  induction fields generalizing done with
  | nil =>
    simp only [normalizeFields, pure, Except.pure, Except.ok.injEq] at h
    exact h ▸ hd
  | cons field rest ih =>
    obtain ⟨key, item⟩ := field
    simp only [normalizeFields, bind_ok, require_ok, exists_const] at h
    obtain ⟨-, key', -, hnew, value, -, h⟩ := h
    refine ih ?_ h
    rw [List.map_append, List.nodup_append]
    refine ⟨hd, by simp, ?_⟩
    intro a ha b hb hab
    simp only [List.map_cons, List.map_nil, List.mem_singleton] at hb
    exact hnew (hb ▸ hab ▸ ha)

theorem member_text {fields fields' out out' : List (String × Json)} {key : String} {a b : Json}
    (h : normalizeFields P depth [] fields = .ok out)
    (h' : normalizeFields P depth [] fields' = .ok out')
    (htext : dumps (.obj out) = dumps (.obj out')) (ha : (key, a) ∈ fields)
    (hb : (key, b) ∈ fields') :
    ∃ a' b', normalize P depth a = .ok a' ∧ normalize P depth b = .ok b' ∧ dumps a' = dumps b' := by
  obtain ⟨a', hna, hina⟩ := (normalizeFields_mem h).2 _ ha
  obtain ⟨b', hnb, hinb⟩ := (normalizeFields_mem h').2 _ hb
  refine ⟨a', b', hna, hnb, ?_⟩
  have hmem : (P.nfc key, dumps a') ∈ sortedMembers out' := by
    rw [← sortedMembers_eq htext]
    exact mem_sortedMembers.mpr ⟨_, hina, rfl⟩
  obtain ⟨q, hq, heq⟩ := mem_sortedMembers.mp hmem
  simp only [Prod.mk.injEq] at heq
  have hsame : q = (P.nfc key, b') :=
    List.inj_on_of_nodup_map (normalizeFields_nodup (by simp) h') hq hinb heq.1.symm
  rw [heq.2, hsame]

theorem normalize_obj_ok {fields : List (String × Json)} {out : Json}
    (h : normalize P depth (.obj fields) = .ok out) :
    ∃ out', normalizeFields P (depth+1) [] fields = .ok out' ∧ out = .obj out' := by
  simp only [normalize, bind_ok, require_ok, exists_const, pure, Except.pure,
    Except.ok.injEq] at h
  obtain ⟨-, out', hout, rfl⟩ := h
  exact ⟨out', hout, rfl⟩

theorem normalize_int_ok {n : Int} {out : Json} (h : normalize P depth (.int n) = .ok out) :
    out = .int n := by
  simp only [normalize, bind_ok, require_ok, exists_const, pure, Except.pure,
    Except.ok.injEq] at h
  exact h.2.2.symm

theorem member_int {fields fields' out out' : List (String × Json)} {k : String} {n m : Int}
    (h : normalizeFields P depth [] fields = .ok out)
    (h' : normalizeFields P depth [] fields' = .ok out')
    (htext : dumps (.obj out) = dumps (.obj out')) (hn : (k, .int n) ∈ fields)
    (hm : (k, .int m) ∈ fields') : n = m := by
  obtain ⟨a, b, ha, hb, hab⟩ := member_text h h' htext hn hm
  rw [normalize_int_ok ha, normalize_int_ok hb, dumps, dumps] at hab
  exact intChars_inj hab

/-- Texts of one key have one normal form in objects of one text. -/
theorem member_str {fields fields' out out' : List (String × Json)} {k s t : String}
    (h : normalizeFields P depth [] fields = .ok out)
    (h' : normalizeFields P depth [] fields' = .ok out')
    (htext : dumps (.obj out) = dumps (.obj out')) (hs : (k, .str s) ∈ fields)
    (ht : (k, .str t) ∈ fields') : P.nfc s = P.nfc t := by
  have hnormal : ∀ (u : String) (v : Json), normalize P depth (.str u) = .ok v →
      v = .str (P.nfc u) := by
    intro u v hv
    simp only [normalize, normalizeText, bind_ok, require_ok, exists_const, pure, Except.pure,
      Except.ok.injEq] at hv
    obtain ⟨-, w, ⟨-, -, rfl⟩, rfl⟩ := hv
    rfl
  obtain ⟨a, b, ha, hb, hab⟩ := member_text h h' htext hs ht
  rw [hnormal s a ha, hnormal t b hb, dumps, dumps] at hab
  have hquote : quote (P.nfc s) ++ [] = quote (P.nfc t) ++ [] := by rw [hab]
  exact (quote_unique hquote).1

theorem normalizeItems_ok {items outs : List Json} (h : normalizeItems P depth items = .ok outs) :
    List.Forall₂ (fun v w => normalize P depth v = .ok w) items outs := by
  induction items generalizing outs with
  | nil =>
    cases h
    exact .nil
  | cons item rest ih =>
    simp only [normalizeItems, bind_ok, pure, Except.pure, Except.ok.injEq] at h
    obtain ⟨head, hhead, tail, htail, rfl⟩ := h
    exact .cons hhead (ih htail)

end Normalized
end Json

namespace OperationalRun
open Json

theorem counter_member (c : RunCounters) (f : Containment.CounterField) :
    (f.name, Json.int (c.toCounters.get f)) ∈
      (Containment.CounterField.all.map fun f => (f.name, Json.int (c.toCounters.get f))) ++
        [("remaining_requests", .int c.remainingRequests),
          ("remaining_wall_ms", .int c.remainingWallMs)] := by
  refine List.mem_append_left _ (List.mem_map_of_mem ?_)
  cases f <;> decide

/-- Projections of one canonical text report the same progress counters. -/
theorem counters_of_text {P : Platform} {v w : OperationalRun} {bytes : List Char}
    (hv : canonicalBytes P v.unsigned = .ok bytes) (hw : canonicalBytes P w.unsigned = .ok bytes)
    (f : Containment.CounterField) :
    v.counters.toCounters.get f = w.counters.toCounters.get f := by
  have hparts : ∀ u : OperationalRun, canonicalBytes P u.unsigned = .ok bytes →
      ∃ out, normalizeFields P 1 [] u.unsignedFields = .ok out ∧ dumps (.obj out) = bytes := by
    intro u hu
    unfold canonicalBytes at hu
    split at hu
    · rename_i normalized hn
      cases hu
      obtain ⟨out, hout, rfl⟩ := normalize_obj_ok hn
      exact ⟨out, hout, rfl⟩
    · cases hu
  obtain ⟨out, hout, htext⟩ := hparts v hv
  obtain ⟨out', hout', htext'⟩ := hparts w hw
  have hin : ∀ u : OperationalRun, ("counters", countersJson u.counters) ∈ u.unsignedFields := by
    intro u
    simp [unsignedFields]
  obtain ⟨a, b, ha, hb, hab⟩ := member_text hout hout' (htext.trans htext'.symm) (hin v) (hin w)
  obtain ⟨fa, hfa, rfl⟩ := normalize_obj_ok ha
  obtain ⟨fb, hfb, rfl⟩ := normalize_obj_ok hb
  exact member_int hfa hfb hab (counter_member v.counters f) (counter_member w.counters f)

end OperationalRun
end Heel
