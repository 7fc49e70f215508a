import Heel.Lib.JsonText
import Heel.Lib.Sorting

/-! The canonical text of a JSON value: `json.dumps` with sorted keys, no spaces and no ASCII
escapes, the text of a float being a parameter. The text of a flat object, and of an array of texts,
is read in one way only. -/
namespace Lib.JsonText

/-- A digit of `%04x`. -/
def hexPoint (n : ℕ) : ℕ := if n < 10 then 0x30 + n else 0x57 + n

def escaped (c : ℕ) : Text :=
  if c = quoteMark then [backslash, quoteMark]
  else if c = backslash then [backslash, backslash]
  else if c = 0x0a then [backslash, 'n'.toNat]
  else if c = 0x0d then [backslash, 'r'.toNat]
  else if c = 0x09 then [backslash, 't'.toNat]
  else if c = 0x0c then [backslash, 'f'.toNat]
  else if c = 0x08 then [backslash, 'b'.toNat]
  else if c < 0x20 then [backslash, 'u'.toNat, zero, zero, hexPoint (c / 16), hexPoint (c % 16)]
  else [c]

def quoted (s : Text) : Text := quoteMark :: (s.flatMap escaped ++ [quoteMark])

def intText : ℤ → Text
  | .ofNat n => (Nat.toDigits 10 n).map Char.toNat
  | .negSucc n => minus :: (Nat.toDigits 10 (n + 1)).map Char.toNat

def memberText (p : Text × Text) : Text := quoted p.1 ++ colon :: p.2

mutual
/-- `json.dumps(value, sort_keys=True, separators=(",", ":"), ensure_ascii=False)`. -/
def dumps (float : Binary64 → Text) : Value → Text
  | .null => points "null"
  | .bool true => points "true"
  | .bool false => points "false"
  | .int n => intText n
  | .float x => float x
  | .str s => quoted s
  | .arr items => openBracket :: ([comma].intercalate (dumpsItems float items) ++ [closeBracket])
  | .obj fields => openBrace :: ([comma].intercalate
      ((sortBy Prod.fst (dumpsFields float fields)).map memberText) ++ [closeBrace])

def dumpsItems (float : Binary64 → Text) : List Value → List Text
  | [] => []
  | item :: rest => dumps float item :: dumpsItems float rest

def dumpsFields (float : Binary64 → Text) : List (Text × Value) → List (Text × Text)
  | [] => []
  | (key, item) :: rest => (key, dumps float item) :: dumpsFields float rest
end

variable {float : Binary64 → Text}

theorem dumpsItems_map (items : List Value) : dumpsItems float items = items.map (dumps float) := by
  induction items with
  | nil => rfl
  | cons item rest ih => rw [dumpsItems, ih, List.map_cons]

theorem dumpsFields_map (fields : List (Text × Value)) :
    dumpsFields float fields = fields.map fun p => (p.1, dumps float p.2) := by
  induction fields with
  | nil => rfl
  | cons field rest ih => rw [dumpsFields, ih, List.map_cons]

/-- A code is read off the front of a text in one way. -/
def Readable {α : Type} (code : α → Text) : Prop :=
  ∀ a b r r', code a ++ r = code b ++ r' → a = b ∧ r = r'

/-- The point an escape stands for, and what follows it. -/
def readPoint : Text → Option (ℕ × Text)
  | [] => none
  | c :: r =>
    if c = backslash then
      match r with
      | [] => none
      | e :: r =>
        if e = 'u'.toNat then
          match r with
          | w :: x :: y :: z :: r => (hexUnit w x y z).map fun unit => (unit, r)
          | _ => none
        else (escapeOf e).map fun unit => (unit, r)
    else some (c, r)

theorem readPoint_control : ∀ c < 0x20, ∀ d ∈ [hexPoint (c / 16)], ∀ e ∈ [hexPoint (c % 16)],
    hexUnit zero zero d e = some c := by
  decide

theorem readPoint_escaped (c : ℕ) (r : Text) : readPoint (escaped c ++ r) = some (c, r) := by
  unfold escaped
  split
  · rename_i h
    rw [h]
    rfl
  split
  · rename_i h
    rw [h]
    rfl
  split
  · rename_i h
    rw [h]
    rfl
  split
  · rename_i h
    rw [h]
    rfl
  split
  · rename_i h
    rw [h]
    rfl
  split
  · rename_i h
    rw [h]
    rfl
  split
  · rename_i h
    rw [h]
    rfl
  split
  · rename_i h
    have hhex := readPoint_control c h _ (.head _) _ (.head _)
    show (hexUnit zero zero (hexPoint (c / 16)) (hexPoint (c % 16))).map _ = _
    rw [hhex]
    rfl
  · rename_i hquote hslash _ _ _ _ _ _
    rw [List.singleton_append, readPoint.eq_def]
    dsimp only
    rw [if_neg hslash]

theorem escaped_readable : Readable escaped := by
  intro c d r r' h
  have hread := congrArg readPoint h
  rw [readPoint_escaped, readPoint_escaped, Option.some.injEq, Prod.mk.injEq] at hread
  exact hread

theorem escaped_head (c : ℕ) (r : Text) : (escaped c ++ r).head? ≠ some quoteMark := by
  have hslash : ∀ text : Text, (backslash :: text ++ r).head? ≠ some quoteMark := by
    intro text h
    rw [List.cons_append, List.head?_cons, Option.some.injEq] at h
    exact absurd h (by decide)
  unfold escaped
  refine iteInduction (motive := fun text => (text ++ r).head? ≠ some quoteMark)
    (fun _ => hslash _) fun hquote => ?_
  iterate 7
    refine iteInduction (motive := fun text => (text ++ r).head? ≠ some quoteMark)
      (fun _ => hslash _) fun _ => ?_
  simpa using hquote

theorem quoted_readable : Readable quoted := by
  intro s t r r' h
  unfold quoted at h
  simp only [List.cons_append, List.cons.injEq, true_and, List.append_assoc, List.nil_append] at h
  induction s generalizing t with
  | nil =>
    cases t with
    | nil =>
      simp only [List.flatMap_nil, List.nil_append, List.cons.injEq, true_and] at h
      exact ⟨rfl, h⟩
    | cons d t =>
      rw [List.flatMap_nil, List.nil_append, List.flatMap_cons, List.append_assoc] at h
      have hhead := congrArg List.head? h
      exact absurd hhead.symm (escaped_head d _)
  | cons c s ih =>
    cases t with
    | nil =>
      rw [List.flatMap_nil, List.nil_append, List.flatMap_cons, List.append_assoc] at h
      have hhead := congrArg List.head? h
      exact absurd hhead (escaped_head c _)
    | cons d t =>
      rw [List.flatMap_cons, List.flatMap_cons, List.append_assoc, List.append_assoc] at h
      obtain ⟨rfl, hrest⟩ := escaped_readable c d _ _ h
      obtain ⟨rfl, hr⟩ := ih _ hrest
      exact ⟨rfl, hr⟩

section Intercalate
variable {α : Type} {code : α → Text} {close : ℕ}

theorem intercalate_last (a : α) (r : Text) :
    [comma].intercalate ([a].map code) ++ close :: r = code a ++ close :: r := by
  simp [List.intercalate]

theorem intercalate_next (a b : α) (xs : List α) (r : Text) :
    [comma].intercalate ((a :: b :: xs).map code) ++ close :: r =
      code a ++ comma :: ([comma].intercalate ((b :: xs).map code) ++ close :: r) := by
  simp [List.intercalate]

/-- What follows the first of some codes opens with a comma or with the bracket. -/
theorem intercalate_front (a : α) (xs : List α) (r : Text) : ∃ rest,
    [comma].intercalate ((a :: xs).map code) ++ close :: r = code a ++ rest := by
  cases xs with
  | nil => exact ⟨_, intercalate_last a r⟩
  | cons b xs => exact ⟨_, intercalate_next a b xs r⟩

/-- Codes that a comma parts and a bracket ends are read in one way. -/
theorem intercalate_readable (hclose : close ≠ comma)
    (hcode : Readable code) (hhead : ∀ a r, (code a ++ r).head? ≠ some close) {xs ys : List α}
    {r r' : Text} (h : [comma].intercalate (xs.map code) ++ close :: r =
      [comma].intercalate (ys.map code) ++ close :: r') : xs = ys ∧ r = r' := by
  induction xs generalizing ys with
  | nil =>
    cases ys with
    | nil =>
      simp only [List.map_nil, List.intercalate_nil, List.nil_append, List.cons.injEq,
        true_and] at h
      exact ⟨rfl, h⟩
    | cons b ys =>
      obtain ⟨rest, hrest⟩ := intercalate_front b ys r'
      rw [hrest] at h
      have hfirst := congrArg List.head? h
      exact absurd hfirst.symm (hhead b _)
  | cons a xs ih =>
    cases ys with
    | nil =>
      obtain ⟨rest, hrest⟩ := intercalate_front a xs r
      rw [hrest] at h
      have hfirst := congrArg List.head? h
      exact absurd hfirst (hhead a _)
    | cons b ys =>
      cases xs with
      | nil =>
        rw [intercalate_last] at h
        cases ys with
        | nil =>
          rw [intercalate_last] at h
          obtain ⟨rfl, hrest⟩ := hcode a b _ _ h
          simp only [List.cons.injEq, true_and] at hrest
          exact ⟨rfl, hrest⟩
        | cons b' ys =>
          rw [intercalate_next] at h
          obtain ⟨rfl, hrest⟩ := hcode a b _ _ h
          simp only [List.cons.injEq] at hrest
          exact absurd hrest.1 hclose
      | cons a' xs =>
        rw [intercalate_next] at h
        cases ys with
        | nil =>
          rw [intercalate_last] at h
          obtain ⟨rfl, hrest⟩ := hcode a b _ _ h
          simp only [List.cons.injEq] at hrest
          exact absurd hrest.1.symm hclose
        | cons b' ys =>
          rw [intercalate_next] at h
          obtain ⟨rfl, hrest⟩ := hcode a b _ _ h
          simp only [List.cons.injEq, true_and] at hrest
          obtain ⟨hsame, hr⟩ := ih hrest
          exact ⟨by rw [hsame], hr⟩

end Intercalate

inductive Scalar where
  | text (s : Text)
  | flag (b : Bool)
  deriving DecidableEq, Repr

def Scalar.value : Scalar → Value
  | .text s => .str s
  | .flag b => .bool b

abbrev Flat := List (Text × Scalar)

def Flat.value (r : Flat) : Value := .obj (r.map fun p => (p.1, p.2.value))

theorem dumps_bool (b : Bool) : dumps float (.bool b) =
    if b then [0x74, 0x72, 0x75, 0x65] else [0x66, 0x61, 0x6c, 0x73, 0x65] := by
  cases b
  · exact (show points "false" = [0x66, 0x61, 0x6c, 0x73, 0x65] by decide +kernel)
  · exact (show points "true" = [0x74, 0x72, 0x75, 0x65] by decide +kernel)

theorem scalar_readable : Readable fun a : Scalar => dumps float a.value := by
  intro a b r r' h
  cases a with
  | text s =>
    cases b with
    | text t =>
      simp only [Scalar.value, dumps] at h
      obtain ⟨rfl, hr⟩ := quoted_readable s t r r' h
      exact ⟨rfl, hr⟩
    | flag b => cases b <;> simp [Scalar.value, dumps_bool, dumps, quoted, quoteMark] at h
  | flag a =>
    cases b with
    | text t => cases a <;> simp [Scalar.value, dumps_bool, dumps, quoted, quoteMark] at h
    | flag b => cases a <;> cases b <;> simp_all [Scalar.value, dumps_bool]

theorem flatMember_readable :
    Readable fun p : Text × Scalar => memberText (p.1, dumps float p.2.value) := by
  intro p q r r' h
  simp only [memberText, List.append_assoc, List.cons_append] at h
  obtain ⟨hkey, hrest⟩ := quoted_readable _ _ _ _ h
  simp only [List.cons.injEq, true_and] at hrest
  obtain ⟨hvalue, hr⟩ := scalar_readable _ _ _ _ hrest
  exact ⟨Prod.ext hkey hvalue, hr⟩

theorem dumps_flat (r : Flat) : dumps float (Flat.value r) = openBrace :: ([comma].intercalate
    ((sortBy Prod.fst r).map fun p => memberText (p.1, dumps float p.2.value)) ++
      [closeBrace]) := by
  have hsort : sortBy Prod.fst (r.map fun p => (p.1, dumps float p.2.value)) =
      (sortBy Prod.fst r).map fun p => (p.1, dumps float p.2.value) :=
    (map_sortBy fun _ _ => rfl).symm
  rw [Flat.value, dumps, dumpsFields_map, List.map_map]
  simp only [Function.comp_def]
  rw [hsort, List.map_map]
  rfl

theorem flat_perm {r r' : Flat} (h : dumps float (Flat.value r) = dumps float (Flat.value r')) :
    r.Perm r' := by
  rw [dumps_flat, dumps_flat, List.cons.injEq] at h
  have hsorted := (intercalate_readable (show closeBrace ≠ comma by decide) flatMember_readable
    (fun p r => by simp [memberText, quoted, closeBrace, quoteMark]) h.2).1
  exact (sortBy_perm Prod.fst r).symm.trans (hsorted ▸ sortBy_perm Prod.fst r')

theorem texts_unique {xs ys : List Text}
    (h : dumps float (.arr (xs.map .str)) = dumps float (.arr (ys.map .str))) : xs = ys := by
  rw [dumps, dumps, dumpsItems_map, dumpsItems_map, List.map_map, List.map_map,
    List.cons.injEq] at h
  have hquoted : ∀ zs : List Text, zs.map (dumps float ∘ Value.str) = zs.map quoted :=
    fun zs => List.map_congr_left fun z _ => by rw [Function.comp_apply, dumps]
  rw [hquoted, hquoted] at h
  exact (intercalate_readable (show closeBracket ≠ comma by decide) quoted_readable
    (fun p r => by simp [quoted, closeBracket, quoteMark]) h.2).1

end Lib.JsonText
