import Heel.Lib.JsonText
import Heel.Lib.Pattern
import Mathlib.Data.List.Dedup
import Mathlib.Data.List.Lex
import Mathlib.Order.Defs.LinearOrder

/-! The patterns of registered secrets and the attempt store that replaces their matches
(`plan_differential.py`): every JSON spelling of a secret is a word of its pattern, and no body
keeps an occurrence of one whole. -/
namespace Heel.PlanDifferential
open Lib Lib.JsonText Lib.Pattern

def minRedactableSecretBytes : ℕ := 8

def utf8 (s : List Char) : List UInt8 := s.flatMap String.utf8EncodeChar

def codes (s : List Char) : Text := s.map Char.toNat

def redacted : List UInt8 := utf8 "[REDACTED:secret]".toList

/-- A character and the letter of its short escape. -/
def jsonShortEscapes : List (Char × Char) :=
  [('"', '"'), ('\\', '\\'), ('/', '/'), (Char.ofNat 0x08, 'b'), (Char.ofNat 0x0c, 'f'),
    ('\n', 'n'), ('\r', 'r'), ('\t', 't')]

/-- The four digits of `04x`. -/
def hexDigits (unit : ℕ) : List ℕ :=
  [unit / 0x1000 % 16, unit / 0x100 % 16, unit / 0x10 % 16, unit % 16]

def digitPattern (v : ℕ) : Pattern UInt8 :=
  if v < 10 then one fun b => b = UInt8.ofNat (0x30 + v)
  else one fun b => b = UInt8.ofNat (0x57 + v) || b = UInt8.ofNat (0x37 + v)

/-- One UTF-16 unit written as a `\u` escape. -/
def unitEscape (unit : ℕ) : Pattern UInt8 :=
  sequence (word (utf8 ['\\', 'u']) :: (hexDigits unit).map digitPattern)

def unitsOf (code : ℕ) : List ℕ :=
  if 0xffff < code then [0xd800 + (code - 0x10000) / 0x400, 0xdc00 + (code - 0x10000) % 0x400]
  else [code]

def characterPattern (c : Char) : Pattern UInt8 :=
  choice (word (utf8 [c])) (sequence ((unitsOf c.toNat).map unitEscape) ::
    ((jsonShortEscapes.lookup c).map fun letter => word (utf8 ['\\', letter])).toList)

def secretPattern (text : List Char) : Pattern UInt8 := sequence (text.map characterPattern)

/-- The longest first, then in the order of the code points. -/
def secretOrder (a b : List Char) : Bool :=
  b.length < a.length || (a.length = b.length && decide (codes a ≤ codes b))

def secretPatterns (secrets : List (List Char)) : List (Pattern UInt8) :=
  (secrets.dedup.mergeSort secretOrder).map secretPattern

theorem utf8_cons (c : Char) (s : List Char) : utf8 (c :: s) = utf8 [c] ++ utf8 s := by
  simp [utf8]

theorem utf8_append (s t : List Char) : utf8 (s ++ t) = utf8 s ++ utf8 t := by
  simp [utf8]

theorem utf8_ascii {c : Char} (h : c.toNat < 0x80) : utf8 [c] = [UInt8.ofNat c.toNat] := by
  have hsize : c.utf8Size = 1 := by
    rw [Char.utf8Size_eq_one_iff, UInt32.le_iff_toNat_le]
    have hval : c.toNat = c.val.toNat := rfl
    have hbound : (127 : UInt32).toNat = 127 := rfl
    omega
  simp only [utf8, List.flatMap_cons, List.flatMap_nil, List.append_nil]
  rw [String.utf8EncodeChar_eq_singleton hsize]
  rfl

/-- The characters inside a string literal and the units that they write. -/
inductive Spelling : List Char → List (Bool × ℕ) → Prop where
  | nil : Spelling [] []
  | raw {c t units} (rest : Spelling t units) : Spelling (c :: t) ((false, c.toNat) :: units)
  | short {e t unit units} (h : escapeOf e.toNat = some unit) (rest : Spelling t units) :
    Spelling ('\\' :: e :: t) ((false, unit) :: units)
  | escaped {a b c d t unit units} (h : hexUnit a.toNat b.toNat c.toNat d.toNat = some unit)
    (rest : Spelling t units) : Spelling ('\\' :: 'u' :: a :: b :: c :: d :: t)
    ((true, unit) :: units)

theorem hexUnit_quote (a b c : ℕ) : hexUnit a b c quoteMark = none := by
  unfold hexUnit
  cases hexValue a <;> cases hexValue b <;> cases hexValue c <;> rfl

theorem codes_cons (c : Char) (t : List Char) : codes (c :: t) = c.toNat :: codes t := rfl

/-- The inside of a literal, read up to the quote that closes it. -/
theorem scanUnits_spelling {t : List Char} {units : List (Bool × ℕ)}
    (h : scanUnits (codes t ++ [quoteMark]) = some (units, [])) : Spelling t units := by
  induction hn : t.length using Nat.strong_induction_on generalizing t units with
  | _ n ih =>
    cases t with
    | nil =>
      simp only [codes, List.map_nil, List.nil_append, scanUnits, if_true, Option.some.injEq,
        Prod.mk.injEq, and_true] at h
      exact h ▸ .nil
    | cons c t =>
      subst hn
      rw [codes_cons, List.cons_append, scanUnits.eq_def] at h
      dsimp only at h
      split at h
      · simp only [Option.some.injEq, Prod.mk.injEq, List.append_eq_nil_iff, List.cons_ne_nil,
          and_false] at h
      split at h
      · next hc =>
        have hc : c = '\\' := Char.toNat_inj.mp hc
        subst hc
        cases t with
        | nil => simp [codes, scanUnits, quoteMark, escapeOf] at h
        | cons e t =>
          rw [codes_cons, List.cons_append] at h
          dsimp only at h
          split at h
          · next he =>
            have he : e = 'u' := Char.toNat_inj.mp he
            subst he
            match t with
            | [] => simp [codes] at h
            | [_] => simp [codes] at h
            | [_, _] => simp [codes] at h
            | [a, b, c] => simp [codes, hexUnit_quote] at h
            | a :: b :: c :: d :: t =>
              simp only [codes_cons, List.cons_append] at h
              simp only [Option.bind_eq_bind, Option.bind_eq_some_iff, Prod.exists, pure,
                Option.some.injEq, Prod.mk.injEq] at h
              obtain ⟨unit, hunit, units', r, hrest, rfl, rfl⟩ := h
              have hlt : t.length < ('\\' :: 'u' :: a :: b :: c :: d :: t).length := by
                simp only [List.length_cons]
                omega
              exact .escaped hunit (ih _ hlt hrest rfl)
          · simp only [Option.bind_eq_bind, Option.bind_eq_some_iff, Prod.exists, pure,
              Option.some.injEq, Prod.mk.injEq] at h
            obtain ⟨unit, hunit, units', r, hrest, rfl, rfl⟩ := h
            have hlt : t.length < ('\\' :: e :: t).length := by
              simp only [List.length_cons]
              omega
            exact .short hunit (ih _ hlt hrest rfl)
      split at h
      · cases h
      · simp only [Option.bind_eq_bind, Option.bind_eq_some_iff, Prod.exists, pure,
          Option.some.injEq, Prod.mk.injEq] at h
        obtain ⟨units', r, hrest, rfl, rfl⟩ := h
        exact .raw (ih _ (by simp) hrest rfl)

theorem hexValue_digit {a : Char} {v : ℕ} (h : hexValue a.toNat = some v) :
    v < 16 ∧ (digitPattern v).Spells (utf8 [a]) := by
  have hrange : (v < 10 ∧ a.toNat = 0x30 + v) ∨
      (10 ≤ v ∧ v < 16 ∧ (a.toNat = 0x57 + v ∨ a.toNat = 0x37 + v)) := by
    unfold hexValue isDigit at h
    split at h
    · next hdigit =>
      simp only [Bool.and_eq_true, decide_eq_true_eq, Option.some.injEq] at hdigit h
      omega
    split at h
    · simp only [Option.some.injEq] at h
      omega
    split at h
    · simp only [Option.some.injEq] at h
      omega
    · cases h
  have hascii : a.toNat < 0x80 := by omega
  rw [utf8_ascii hascii]
  cases hrange with
  | inl hsmall =>
    refine ⟨by omega, ?_⟩
    unfold digitPattern
    rw [if_pos hsmall.1, hsmall.2]
    exact ⟨_, by simp, rfl⟩
  | inr hlarge =>
    obtain ⟨hten, hlt, hcase⟩ := hlarge
    refine ⟨hlt, ?_⟩
    unfold digitPattern
    rw [if_neg (by omega)]
    refine ⟨_, ?_, rfl⟩
    cases hcase with
    | inl heq => simp [heq]
    | inr heq => simp [heq]

theorem hexUnit_digits {a b c d unit : ℕ} (h : hexUnit a b c d = some unit) :
    ∃ w x y z, hexValue a = some w ∧ hexValue b = some x ∧ hexValue c = some y ∧
      hexValue d = some z ∧ unit = ((w * 16 + x) * 16 + y) * 16 + z := by
  unfold hexUnit at h
  simp only [Option.bind_eq_bind, Option.bind_eq_some_iff, pure, Option.some.injEq] at h
  obtain ⟨w, hw, x, hx, y, hy, z, hz, rfl⟩ := h
  exact ⟨w, x, y, z, hw, hx, hy, hz, rfl⟩

theorem unitEscape_spells {a b c d : Char} {unit : ℕ}
    (h : hexUnit a.toNat b.toNat c.toNat d.toNat = some unit) :
    unit ≤ 0xffff ∧ (unitEscape unit).Spells (utf8 ['\\', 'u', a, b, c, d]) := by
  obtain ⟨w, x, y, z, hw, hx, hy, hz, rfl⟩ := hexUnit_digits h
  obtain ⟨hwlt, hw⟩ := hexValue_digit hw
  obtain ⟨hxlt, hx⟩ := hexValue_digit hx
  obtain ⟨hylt, hy⟩ := hexValue_digit hy
  obtain ⟨hzlt, hz⟩ := hexValue_digit hz
  refine ⟨by omega, ?_⟩
  have hdigits : hexDigits (((w * 16 + x) * 16 + y) * 16 + z) = [w, x, y, z] := by
    simp only [hexDigits, List.cons.injEq, and_true]
    omega
  have hutf8 : utf8 ['\\', 'u', a, b, c, d] =
      [utf8 ['\\', 'u'], utf8 [a], utf8 [b], utf8 [c], utf8 [d]].flatten := by
    simp [utf8]
  unfold unitEscape
  rw [hdigits, hutf8]
  apply spells_sequence_flatten
  exact .cons (spells_word.mpr rfl) (.cons hw (.cons hx (.cons hy (.cons hz .nil))))

theorem escapeOf_short {e c : Char} (h : escapeOf e.toNat = some c.toNat) :
    jsonShortEscapes.lookup c = some e := by
  have letter : ∀ d : Char, e.toNat = d.toNat → e = d := fun d hd => Char.toNat_inj.mp hd
  have meaning : ∀ d : Char, d.toNat = c.toNat → c = d := fun d hd => Char.toNat_inj.mp hd.symm
  unfold escapeOf at h
  split at h
  · next hsame =>
    have hc := meaning e (Option.some.inj h)
    subst hc
    obtain h | h | h := hsame
    · rw [letter '"' h]
      rfl
    · rw [letter '\\' h]
      rfl
    · rw [letter '/' h]
      rfl
  split at h
  · next he =>
    rw [letter 'b' he, meaning (Char.ofNat 0x08) (Option.some.inj h)]
    rfl
  split at h
  · next he =>
    rw [letter 'f' he, meaning (Char.ofNat 0x0c) (Option.some.inj h)]
    rfl
  split at h
  · next he =>
    rw [letter 'n' he, meaning '\n' (Option.some.inj h)]
    rfl
  split at h
  · next he =>
    rw [letter 'r' he, meaning '\r' (Option.some.inj h)]
    rfl
  split at h
  · next he =>
    rw [letter 't' he, meaning '\t' (Option.some.inj h)]
    rfl
  · cases h

theorem characterPattern_raw (c : Char) : (characterPattern c).Spells (utf8 [c]) :=
  spells_choice.mpr ⟨_, .head _, spells_word.mpr rfl⟩

theorem characterPattern_short {c e : Char} (h : escapeOf e.toNat = some c.toNat) :
    (characterPattern c).Spells (utf8 ['\\', e]) := by
  apply spells_choice.mpr
  rw [escapeOf_short h]
  exact ⟨word (utf8 ['\\', e]), by simp, spells_word.mpr rfl⟩

theorem characterPattern_units {c : Char} {w : List UInt8}
    (h : (sequence ((unitsOf c.toNat).map unitEscape)).Spells w) : (characterPattern c).Spells w :=
  spells_choice.mpr ⟨_, .tail _ (.head _), h⟩

theorem spells_sequence_one {α : Type} {a : Pattern α} {w : List α} (h : a.Spells w) :
    (sequence [a]).Spells w :=
  spells_sequence_cons.mpr ⟨w, [], h, rfl, by simp⟩

/-- An escaped unit is a point of its own, or the first of a pair. -/
theorem joinPairs_escaped {unit code : ℕ} {units : List (Bool × ℕ)} {text : Text}
    (h : joinPairs ((true, unit) :: units) = code :: text) :
    (code = unit ∧ joinPairs units = text) ∨
      ∃ low others, units = (true, low) :: others ∧ isHigh unit = true ∧ isLow low = true ∧
        code = 0x10000 + (unit - 0xd800) * 0x400 + (low - 0xdc00) ∧ joinPairs others = text := by
  match units with
  | [] =>
    simp only [joinPairs, List.cons.injEq] at h
    exact Or.inl ⟨h.1.symm, h.2⟩
  | (false, low) :: others =>
    simp only [joinPairs, List.cons.injEq] at h
    exact Or.inl ⟨h.1.symm, h.2⟩
  | (true, low) :: others =>
    rw [joinPairs] at h
    split at h
    · next hpair =>
      simp only [List.cons.injEq] at h
      exact Or.inr ⟨low, others, rfl, hpair.1, hpair.2, h.1.symm, h.2⟩
    · simp only [List.cons.injEq] at h
      exact Or.inl ⟨h.1.symm, h.2⟩

theorem unitsOf_pair {high low : ℕ} (hhigh : isHigh high = true) (hlow : isLow low = true) :
    unitsOf (0x10000 + (high - 0xd800) * 0x400 + (low - 0xdc00)) = [high, low] := by
  simp only [isHigh, isLow, Bool.and_eq_true, decide_eq_true_eq] at hhigh hlow
  unfold unitsOf
  rw [if_pos (by omega)]
  simp only [List.cons.injEq, and_true]
  omega

theorem Spelling.secretPattern {s t : List Char} {units : List (Bool × ℕ)} (h : Spelling t units)
    (hjoin : joinPairs units = codes s) : (secretPattern s).Spells (utf8 t) := by
  induction s generalizing t units with
  | nil =>
    cases h with
    | nil => exact spells_sequence_nil.mpr rfl
    | raw => cases hjoin
    | short => cases hjoin
    | @escaped _ _ _ _ _ unit units _ _ =>
      match units with
      | [] => cases hjoin
      | (false, _) :: _ => cases hjoin
      | (true, _) :: _ =>
        rw [joinPairs] at hjoin
        split at hjoin <;> cases hjoin
  | cons c s ih =>
    have here : ∀ {u v : List Char}, (characterPattern c).Spells (utf8 u) →
        (PlanDifferential.secretPattern s).Spells (utf8 v) →
        (PlanDifferential.secretPattern (c :: s)).Spells (utf8 (u ++ v)) := by
      intro u v hu hv
      rw [utf8_append]
      exact spells_sequence_cons.mpr ⟨_, _, hu, hv, rfl⟩
    cases h with
    | nil => cases hjoin
    | @raw d t units rest =>
      simp only [joinPairs, codes_cons, List.cons.injEq] at hjoin
      obtain ⟨hd, hjoin⟩ := hjoin
      have hd : d = c := Char.toNat_inj.mp hd
      subst hd
      exact here (u := [d]) (characterPattern_raw d) (ih rest hjoin)
    | @short e t unit units he rest =>
      simp only [joinPairs, codes_cons, List.cons.injEq] at hjoin
      obtain ⟨rfl, hjoin⟩ := hjoin
      exact here (u := ['\\', e]) (characterPattern_short he) (ih rest hjoin)
    | @escaped a b d e t unit units hunit rest =>
      obtain ⟨hbound, hspells⟩ := unitEscape_spells hunit
      rw [codes_cons] at hjoin
      cases joinPairs_escaped hjoin with
      | inl hsingle =>
        obtain ⟨hc, hjoin⟩ := hsingle
        apply here (u := ['\\', 'u', a, b, d, e]) _ (ih rest hjoin)
        apply characterPattern_units
        rw [hc, unitsOf, if_neg (by omega)]
        exact spells_sequence_one hspells
      | inr hpair =>
        obtain ⟨low, others, rfl, hhigh, hlow, hc, hjoin⟩ := hpair
        cases rest with
        | @escaped a' b' d' e' t _ _ hunit' rest =>
          apply here (u := ['\\', 'u', a, b, d, e] ++ ['\\', 'u', a', b', d', e']) _ (ih rest hjoin)
          apply characterPattern_units
          rw [hc, unitsOf_pair hhigh hlow, utf8_append]
          exact spells_sequence_cons.mpr
            ⟨_, _, hspells, spells_sequence_one (unitEscape_spells hunit').2, rfl⟩

/-- `t` stands inside a JSON string literal that is read as `s`. -/
def JsonSpelling (s t : List Char) : Prop :=
  scanText (codes t ++ [quoteMark]) = some (codes s, [])

theorem JsonSpelling.spells {s t : List Char} (h : JsonSpelling s t) :
    (secretPattern s).Spells (utf8 t) := by
  unfold JsonSpelling scanText at h
  obtain ⟨⟨units, r⟩, hscan, heq⟩ := Option.map_eq_some_iff.mp h
  simp only [Prod.mk.injEq] at heq
  obtain ⟨hjoin, rfl⟩ := heq
  exact (scanUnits_spelling hscan).secretPattern hjoin

theorem characterPattern_nonempty (c : Char) : (characterPattern c).Nonempty := by
  intro h
  obtain ⟨a, ha, hspells⟩ := spells_choice.mp h
  simp only [List.mem_cons, Option.mem_toList, Option.map_eq_some_iff] at ha
  obtain rfl | rfl | ⟨letter, -, rfl⟩ := ha
  · have hnil := spells_word.mp hspells
    simp only [utf8, List.flatMap_cons, List.flatMap_nil, List.append_nil] at hnil
    exact String.utf8EncodeChar_ne_nil hnil.symm
  · have hunit : ∀ (unit : ℕ) (units : List ℕ),
        ¬ (sequence ((unit :: units).map unitEscape)).Spells [] := by
      intro unit units hunits
      obtain ⟨u, v, hu, -, heq⟩ := spells_sequence_cons.mp hunits
      rw [(List.append_eq_nil_iff.mp heq.symm).1] at hu
      obtain ⟨u', v', hu', -, heq'⟩ := spells_sequence_cons.mp hu
      rw [(List.append_eq_nil_iff.mp heq'.symm).1] at hu'
      exact absurd (spells_word.mp hu') (by decide)
    unfold unitsOf at hspells
    split at hspells
    · exact hunit _ _ hspells
    · exact hunit _ _ hspells
  · have hnil := spells_word.mp hspells
    rw [utf8_cons] at hnil
    exact absurd (List.append_eq_nil_iff.mp hnil.symm).1 (by decide)

theorem secretPattern_nonempty {s : List Char} (h : s ≠ []) : (secretPattern s).Nonempty := by
  cases s with
  | nil => exact absurd rfl h
  | cons c s =>
    intro hspells
    obtain ⟨u, v, hu, -, heq⟩ := spells_sequence_cons.mp hspells
    rw [(List.append_eq_nil_iff.mp heq.symm).1] at hu
    exact characterPattern_nonempty c hu

theorem secretPattern_raw (s : List Char) : (secretPattern s).Spells (utf8 s) := by
  induction s with
  | nil => exact spells_sequence_nil.mpr rfl
  | cons c s ih =>
    rw [utf8_cons]
    exact spells_sequence_cons.mpr ⟨_, _, characterPattern_raw c, ih, rfl⟩

/-- A credential that `_register` lets into the store. -/
abbrev Redactable := { value : List UInt8 // minRedactableSecretBytes ≤ value.length }

/-- `_RedactingRunnerStore`: the registered secrets and their compiled patterns. -/
structure RedactingRunnerStore where
  secrets : List (List Char)
  patterns : List (Pattern UInt8)
  compiled : patterns = secretPatterns secrets
  redactable : ∀ s ∈ secrets, minRedactableSecretBytes ≤ (utf8 s).length

namespace RedactingRunnerStore

def clearSecrets : RedactingRunnerStore := 
  ⟨[], [], by simp [secretPatterns], fun _ h => absurd h List.not_mem_nil⟩

def decodeUtf8 (value : List UInt8) : Option (List Char) :=
  (String.fromUTF8? value.toByteArray).map String.toList

theorem decodeUtf8_utf8 {value : List UInt8} {s : List Char} (h : decodeUtf8 value = some s) :
    utf8 s = value := by
  unfold decodeUtf8 String.fromUTF8? at h
  split at h
  · simp only [Option.map_some, Option.some.injEq] at h
    subst h
    have hbytes := String.utf8Encode_toList (b := ⟨value.toByteArray, by assumption⟩)
    exact List.toByteArray_inj.mp hbytes
  · cases h

def registerSecret (store : RedactingRunnerStore) (value : Redactable) :
    Option RedactingRunnerStore :=
  match h : decodeUtf8 value.val with
  | none => none
  | some s => some ⟨s :: store.secrets, secretPatterns (s :: store.secrets), rfl, by
      intro other hother
      cases hother with
      | head => rw [decodeUtf8_utf8 h]; exact value.property
      | tail _ hother => exact store.redactable other hother⟩

/-- `_register` of the vault, once it has the values of a credential. -/
def register (store : RedactingRunnerStore) (values : List (List UInt8)) :
    Option RedactingRunnerStore :=
  if values = [] then none
  else do
    let values ← values.mapM fun value =>
      if h : minRedactableSecretBytes ≤ value.length then some (⟨value, h⟩ : Redactable) else none
    values.foldlM registerSecret store

def redact (store : RedactingRunnerStore) (value : List UInt8) : List UInt8 :=
  subAll store.patterns redacted value

def traced (start : ℕ) (body : List UInt8) : List (UInt8 × Option ℕ) :=
  (body.zipIdx start).map fun (byte, place) => (byte, some place)

/-- What `redact` does to bytes that keep their place; the marker has none. -/
def redactTraced (store : RedactingRunnerStore) (value : List UInt8) : List (UInt8 × Option ℕ) :=
  subAll (store.patterns.map (comap Prod.fst)) (redacted.map fun byte => (byte, none))
    (traced 0 value)

theorem map_traced (start : ℕ) (body : List UInt8) : (traced start body).map Prod.fst = body := by
  simp [traced, Function.comp_def, List.zipIdx_map_fst]

theorem map_redactTraced (store : RedactingRunnerStore) (value : List UInt8) :
    (store.redactTraced value).map Prod.fst = store.redact value := by
  unfold redactTraced redact
  rw [map_subAll, map_traced, List.map_map]
  simp [Function.comp_def]

theorem traced_append (start : ℕ) (a b : List UInt8) :
    traced start (a ++ b) = traced start a ++ traced (start + a.length) b := by
  simp [traced, List.zipIdx_append]

theorem mem_traced {start : ℕ} {body : List UInt8} {c : UInt8 × Option ℕ}
    (h : c ∈ traced start body) :
    ∃ place, c.2 = some place ∧ start ≤ place ∧ place < start + body.length := by
  unfold traced at h
  obtain ⟨⟨byte, place⟩, hmem, rfl⟩ := List.mem_map.mp h
  have := List.mem_zipIdx hmem
  exact ⟨place, rfl, this.1, this.2.1⟩

theorem traced_place {start : ℕ} {body : List UInt8} {c d : UInt8 × Option ℕ}
    (hc : c ∈ traced start body) (hd : d ∈ traced start body) (h : c.2 = d.2) : c = d := by
  obtain ⟨⟨b, place⟩, hb, rfl⟩ := List.mem_map.mp hc
  obtain ⟨⟨b', place'⟩, hb', rfl⟩ := List.mem_map.mp hd
  simp only [Option.some.injEq] at h
  subst h
  rw [(List.mem_zipIdx hb).2.2, (List.mem_zipIdx hb').2.2]

theorem nodup_traced (start : ℕ) (body : List UInt8) : (traced start body).Nodup := by
  induction body generalizing start with
  | nil => exact List.nodup_nil
  | cons b body ih =>
    have hcons : traced start (b :: body) = (b, some start) :: traced (start + 1) body := rfl
    rw [hcons, List.nodup_cons]
    refine ⟨fun hmem => ?_, ih (start + 1)⟩
    obtain ⟨place, hplace, hle, -⟩ := mem_traced hmem
    cases hplace
    omega

theorem marked_traced (put : List UInt8) (pre w post : List UInt8) :
    Marked (put.map fun byte => (byte, none)) (traced 0 pre) (traced pre.length w)
      (traced (pre.length + w.length) post) := by
  refine ⟨nodup_traced _ w, fun c hc hput => ?_, fun c hc hpre => ?_, fun c hc hpost => ?_⟩
  · obtain ⟨place, hplace, -⟩ := mem_traced hc
    obtain ⟨byte, -, rfl⟩ := List.mem_map.mp hput
    cases hplace
  · obtain ⟨place, hplace, hle, -⟩ := mem_traced hc
    obtain ⟨other, hother, -, hlt⟩ := mem_traced hpre
    rw [hplace] at hother
    cases hother
    omega
  · obtain ⟨place, hplace, -, hlt⟩ := mem_traced hc
    obtain ⟨other, hother, hle, -⟩ := mem_traced hpost
    rw [hplace] at hother
    cases hother
    omega

theorem ne_nil_of_mem {store : RedactingRunnerStore} {s : List Char} (h : s ∈ store.secrets) :
    s ≠ [] := by
  rintro rfl
  exact absurd (store.redactable [] h) (by decide)

/-- An occurrence of a word of a registered secret loses one of its bytes. -/
theorem redactTraced_takes {store : RedactingRunnerStore} {s : List Char} {pre w post : List UInt8}
    (hs : s ∈ store.secrets) (hspells : (secretPattern s).Spells w) :
    ∃ place, pre.length ≤ place ∧ place < pre.length + w.length ∧
      ∀ byte, (byte, some place) ∉ store.redactTraced (pre ++ (w ++ post)) := by
  have hmem : s ∈ store.secrets.dedup.mergeSort secretOrder :=
    List.mem_mergeSort.mpr (List.mem_dedup.mpr hs)
  obtain ⟨before, after, hsplit⟩ := List.append_of_mem hmem
  have hpatterns : store.patterns.map (comap Prod.fst) =
      (before.map fun t => (secretPattern t).comap Prod.fst) ++
        (secretPattern s).comap Prod.fst ::
          (after.map fun t => (secretPattern t).comap (Prod.fst : UInt8 × Option ℕ → UInt8)) := by
    rw [store.compiled, secretPatterns, hsplit]
    simp [Function.comp_def]
  have hnonempty : ∀ t ∈ s :: before, t ≠ [] := by
    intro t ht
    have hsorted : t ∈ store.secrets.dedup.mergeSort secretOrder := by
      rw [hsplit]
      simp only [List.mem_cons, List.mem_append] at ht ⊢
      exact ht.elim (fun h => Or.inr (Or.inl h)) Or.inl
    rw [List.mem_mergeSort, List.mem_dedup] at hsorted
    exact ne_nil_of_mem hsorted
  have hall : ∀ b ∈ (secretPattern s).comap (Prod.fst : UInt8 × Option ℕ → UInt8) ::
      before.map fun t => (secretPattern t).comap Prod.fst, b.Nonempty := by
    intro b hb
    simp only [List.mem_cons, List.mem_map] at hb
    obtain rfl | ⟨t, ht, rfl⟩ := hb
    · exact nonempty_comap.mpr (secretPattern_nonempty (hnonempty s (.head _)))
    · exact nonempty_comap.mpr (secretPattern_nonempty (hnonempty t (.tail _ ht)))
  have hbytes : ((secretPattern s).comap Prod.fst).Spells (traced pre.length w) := by
    rw [spells_comap, map_traced]
    exact hspells
  have hbody : traced 0 (pre ++ (w ++ post)) = traced 0 pre ++
      (traced pre.length w ++ traced (pre.length + w.length) post) := by
    rw [traced_append, traced_append, Nat.zero_add]
  have htakes : ∃ c ∈ traced pre.length w, c ∉ store.redactTraced (pre ++ (w ++ post)) := by
    unfold redactTraced
    rw [hpatterns, hbody]
    exact subAll_takes hall (marked_traced redacted pre w post) hbytes
  obtain ⟨c, hc, hgone⟩ := htakes
  obtain ⟨place, hplace, hle, hlt⟩ := mem_traced hc
  refine ⟨place, hle, hlt, fun byte hbyte => hgone ?_⟩
  -- A byte that is left at this place is the byte of the body there, and so `c` itself.
  have horigin := (mem_subAll hbyte).resolve_left fun hput => by
    obtain ⟨_, -, heq⟩ := List.mem_map.mp hput
    cases heq
  have hcbody : c ∈ traced 0 (pre ++ (w ++ post)) := by
    rw [hbody]
    exact List.mem_append_right _ (List.mem_append_left _ hc)
  rw [traced_place hcbody horigin hplace]
  exact hbyte

end RedactingRunnerStore

/-- The pattern of a secret matches each of its JSON spellings and its own bytes; in a body that the
store has redacted, no such occurrence of a registered secret has all of its bytes. -/
theorem secret_spellings_redacted (s : List Char) :
    (∀ t, JsonSpelling s t → (secretPattern s).fullmatch (utf8 t) = true) ∧
    (secretPattern s).fullmatch (utf8 s) = true ∧
    ∀ (store : RedactingRunnerStore) (t : List Char) (pre post : List UInt8), s ∈ store.secrets →
      (JsonSpelling s t ∨ t = s) →
      (store.redactTraced (pre ++ (utf8 t ++ post))).map Prod.fst =
        store.redact (pre ++ (utf8 t ++ post)) ∧
      ∃ place, pre.length ≤ place ∧ place < pre.length + (utf8 t).length ∧
        ∀ byte, (byte, some place) ∉ store.redactTraced (pre ++ (utf8 t ++ post)) := by
  refine ⟨fun t ht => fullmatch_iff.mpr ht.spells, fullmatch_iff.mpr (secretPattern_raw s), ?_⟩
  intro store t pre post hs ht
  refine ⟨store.map_redactTraced _, ?_⟩
  apply RedactingRunnerStore.redactTraced_takes hs
  cases ht with
  | inl ht => exact ht.spells
  | inr ht =>
    rw [ht]
    exact secretPattern_raw s

example : (secretPattern "/\u00e9".toList).fullmatch (utf8 "\\/\\u00E9".toList) = true := by decide

end Heel.PlanDifferential
