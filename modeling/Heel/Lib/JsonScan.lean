import Heel.Lib.Checks
import Heel.Lib.JsonText
import Mathlib.Data.List.TakeWhile

/-! What a reading of `json.loads` says about the text: two readings of one text give one value, and
a text that is read holds no control point but white space. From the second, the bytes of such a
text in UTF-8 are taken for UTF-8. -/
namespace Lib.JsonText
open Lib.Checks
variable {ε ε' : Type}

/-! ### Two readings -/

/-- Hooks that never give two different answers. -/
structure Hooks.Agree (h : Hooks ε) (h' : Hooks ε') : Prop where
  constant : ∀ {name v w}, h.constant name = .ok v → h'.constant name = .ok w → v = w
  pairs : ∀ {ps v w}, h.pairs ps = .ok v → h'.pairs ps = .ok w → v = w

@[simp] theorem raising_ok {α : Type} (x : Except ε α) (a : α) : raising x = .ok a ↔ x = .ok a := by
  cases x <;> simp [raising]

section Agree
variable {h : Hooks ε} {h' : Hooks ε'}

theorem scanString_agree {cs : Text} {a b : Text × Text}
    (ha : scanString cs = (.ok a : Except (Fault ε) _))
    (hb : scanString cs = (.ok b : Except (Fault ε') _)) : a = b := by
  cases cs with
  | nil => cases ha
  | cons c r =>
    simp only [scanString] at ha hb
    split at ha
    · next hc =>
      rw [if_pos hc] at hb
      cases hread : scanText r with
      | none => simp [hread] at ha
      | some answer =>
        simp only [hread, Except.ok.injEq] at ha hb
        exact ha.symm.trans hb
    · cases ha

theorem scanNumber_agree {cs : Text} {a b : Value × Text}
    (ha : scanNumber cs = (.ok a : Except (Fault ε) _))
    (hb : scanNumber cs = (.ok b : Except (Fault ε') _)) : a = b := by
  unfold scanNumber at ha hb
  cases htoken : scanToken cs with
  | none => simp [htoken] at ha
  | some token =>
    simp only [htoken] at ha hb
    split at ha
    · next hfloat =>
      rw [if_pos hfloat] at hb
      exact Except.ok.inj (ha.symm.trans (by simpa using hb))
    · next hfloat =>
      rw [if_neg hfloat] at hb
      split at ha
      · cases ha
      · next hdigits =>
        rw [if_neg hdigits] at hb
        exact Except.ok.inj (ha.symm.trans (by simpa using hb))

theorem scanAtom_agree (agree : h.Agree h') {cs : Text} {a b : Value × Text}
    (ha : scanAtom h cs = .ok a) (hb : scanAtom h' cs = .ok b) : a = b := by
  unfold scanAtom at ha hb
  cases hliteral : literals.find? fun name => name.1 <+: cs with
  | some name =>
    simp only [hliteral, Except.ok.injEq] at ha hb
    exact ha.symm.trans hb
  | none =>
    simp only [hliteral] at ha hb
    cases hconstant : constants.find? fun name => name <+: cs with
    | none =>
      simp only [hconstant] at ha hb
      exact scanNumber_agree ha hb
    | some name =>
      simp only [hconstant, bind_ok, raising_ok, pure, Except.pure, Except.ok.injEq] at ha hb
      obtain ⟨v, hv, ha⟩ := ha
      obtain ⟨w, hw, hb⟩ := hb
      rw [agree.constant hv hw] at ha
      exact ha.symm.trans hb

/-- What two readings of a value, of the rest of an object and of the rest of an array have in
common. -/
structure AgreeAt (h : Hooks ε) (h' : Hooks ε') (n : ℕ) : Prop where
  value : ∀ {d d' cs a b}, scanValue h n d cs = .ok a → scanValue h' n d' cs = .ok b → a = b
  members : ∀ {d d' done cs a b},
    scanMembers h n d done cs = .ok a → scanMembers h' n d' done cs = .ok b → a = b
  elements : ∀ {d d' done cs a b},
    scanElements h n d done cs = .ok a → scanElements h' n d' done cs = .ok b → a = b

theorem scanValue_agree (agree : h.Agree h') {n : ℕ} (ih : AgreeAt h h' n) {d d' : ℕ} {cs : Text}
    {a b : Value × Text} (ha : scanValue h (n + 1) d cs = .ok a)
    (hb : scanValue h' (n + 1) d' cs = .ok b) : a = b := by
  unfold scanValue at ha hb
  by_cases hquote : cs.head? = some quoteMark
  · simp only [hquote, if_true, bind_ok, pure, Except.pure, Except.ok.injEq] at ha hb
    obtain ⟨s, hs, ha⟩ := ha
    obtain ⟨t, ht, hb⟩ := hb
    rw [scanString_agree hs ht] at ha
    exact ha.symm.trans hb
  rw [if_neg hquote] at ha hb
  by_cases hbrace : cs.head? = some openBrace
  · rw [if_pos hbrace] at ha hb
    by_cases hclose : (skip cs.tail).head? = some closeBrace
    · simp only [hclose, if_true] at ha hb
      split at ha
      · cases ha
      split at hb
      · cases hb
      simp only [bind_ok, raising_ok, pure, Except.pure, Except.ok.injEq] at ha hb
      obtain ⟨v, hv, ha⟩ := ha
      obtain ⟨w, hw, hb⟩ := hb
      rw [agree.pairs hv hw] at ha
      exact ha.symm.trans hb
    · simp only [if_neg hclose] at ha hb
      split at ha
      · cases ha
      split at hb
      · cases hb
      exact ih.members ha hb
  rw [if_neg hbrace] at ha hb
  by_cases hbracket : cs.head? = some openBracket
  · rw [if_pos hbracket] at ha hb
    split at ha
    · cases ha
    split at hb
    · cases hb
    by_cases hclose : (skip cs.tail).head? = some closeBracket
    · simp only [hclose, if_true, pure, Except.pure, Except.ok.injEq] at ha hb
      exact ha.symm.trans hb
    · rw [if_neg hclose] at ha hb
      exact ih.elements ha hb
  · rw [if_neg hbracket] at ha hb
    exact scanAtom_agree agree ha hb

theorem scanMembers_agree (agree : h.Agree h') {n : ℕ} (ih : AgreeAt h h' n) {d d' : ℕ}
    {done : List (Text × Value)} {cs : Text} {a b : Value × Text}
    (ha : scanMembers h (n + 1) d done cs = .ok a)
    (hb : scanMembers h' (n + 1) d' done cs = .ok b) : a = b := by
  unfold scanMembers at ha hb
  simp only [bind_ok] at ha hb
  obtain ⟨⟨key, r⟩, hkey, ha⟩ := ha
  obtain ⟨answer, hkey', hb⟩ := hb
  cases scanString_agree hkey hkey'
  split at ha
  · next hcolon =>
    simp only [if_pos hcolon, bind_ok] at ha hb
    obtain ⟨⟨value, rest⟩, hvalue, ha⟩ := ha
    obtain ⟨answer, hvalue', hb⟩ := hb
    cases ih.value hvalue hvalue'
    dsimp only at ha hb
    split at ha
    · next hcomma =>
      rw [if_pos hcomma] at hb
      exact ih.members ha hb
    · next hcomma =>
      rw [if_neg hcomma] at hb
      split at ha
      · next hclose =>
        simp only [if_pos hclose, bind_ok, raising_ok, pure, Except.pure, Except.ok.injEq] at ha hb
        obtain ⟨v, hv, ha⟩ := ha
        obtain ⟨w, hw, hb⟩ := hb
        rw [agree.pairs hv hw] at ha
        exact ha.symm.trans hb
      · cases ha
  · cases ha

theorem scanElements_agree {n : ℕ} (ih : AgreeAt h h' n) {d d' : ℕ} {done : List Value} {cs : Text}
    {a b : Value × Text} (ha : scanElements h (n + 1) d done cs = .ok a)
    (hb : scanElements h' (n + 1) d' done cs = .ok b) : a = b := by
  unfold scanElements at ha hb
  simp only [bind_ok] at ha hb
  obtain ⟨⟨value, rest⟩, hvalue, ha⟩ := ha
  obtain ⟨answer, hvalue', hb⟩ := hb
  cases ih.value hvalue hvalue'
  dsimp only at ha hb
  split at ha
  · next hcomma =>
    rw [if_pos hcomma] at hb
    exact ih.elements ha hb
  · next hcomma =>
    rw [if_neg hcomma] at hb
    split at ha
    · next hclose =>
      simp only [if_pos hclose, pure, Except.pure, Except.ok.injEq] at ha hb
      exact ha.symm.trans hb
    · cases ha

theorem agreeAt (agree : h.Agree h') (n : ℕ) : AgreeAt h h' n := by
  induction n with
  | zero =>
    constructor
    · intro d d' cs a b ha
      cases ha
    · intro d d' done cs a b ha
      cases ha
    · intro d d' done cs a b ha
      cases ha
  | succ n ih =>
    exact ⟨scanValue_agree agree ih, scanMembers_agree agree ih, scanElements_agree ih⟩

/-- Two readings of one text that both give a value give the same one. -/
theorem loads_agree (agree : h.Agree h') {d d' : ℕ} {text : Text} {v w : Value}
    (hv : loads h d text = .ok v) (hw : loads h' d' text = .ok w) : v = w := by
  unfold loads at hv hw
  split at hv
  · cases hv
  next hmark =>
    simp only [if_neg hmark, bind_ok] at hv hw
    obtain ⟨⟨value, r⟩, hvalue, hv⟩ := hv
    obtain ⟨answer, hvalue', hw⟩ := hw
    cases (agreeAt agree _).value hvalue hvalue'
    dsimp only at hv hw
    split at hv
    · next hr =>
      simp only [if_pos hr, pure, Except.pure, Except.ok.injEq] at hv hw
      exact hv.symm.trans hw
    · cases hv

end Agree

/-! ### What is passed over -/

/-- A point that a text may hold as it is: no control point but white space. -/
def Legible (c : ℕ) : Prop := isSpace c = true ∨ 0x20 ≤ c

/-- `r` is what was left of `cs` after legible points. -/
def Reads (cs r : Text) : Prop := ∃ used, cs = used ++ r ∧ ∀ c ∈ used, Legible c

theorem Reads.refl (cs : Text) : Reads cs cs := ⟨[], rfl, by simp⟩

theorem Reads.trans {cs r s : Text} (h : Reads cs r) (h' : Reads r s) : Reads cs s := by
  obtain ⟨used, rfl, hused⟩ := h
  obtain ⟨more, rfl, hmore⟩ := h'
  refine ⟨used ++ more, (List.append_assoc ..).symm, ?_⟩
  intro c hc
  rcases List.mem_append.mp hc with hc | hc
  · exact hused c hc
  · exact hmore c hc

theorem Reads.cons {c : ℕ} {r s : Text} (hc : Legible c) (h : Reads r s) : Reads (c :: r) s :=
  Reads.trans ⟨[c], rfl, by simpa using hc⟩ h

theorem Reads.legible {cs : Text} (h : Reads cs []) : ∀ c ∈ cs, Legible c := by
  obtain ⟨used, rfl, hused⟩ := h
  simpa using hused

theorem legible_of_head {cs : Text} {c : ℕ} (hc : Legible c) (h : cs.head? = some c) :
    Reads cs cs.tail := by
  cases cs with
  | nil => cases h
  | cons d r =>
    cases h
    exact (Reads.refl r).cons hc

theorem legible_of_isDigit {c : ℕ} (h : isDigit c = true) : Legible c := by
  simp only [isDigit, Bool.and_eq_true, decide_eq_true_eq] at h
  exact Or.inr (by omega)

theorem legible_of_hexValue {c v : ℕ} (h : hexValue c = some v) : Legible c := by
  unfold hexValue at h
  split at h
  · next hc => exact legible_of_isDigit hc
  split at h
  · exact Or.inr (by omega)
  split at h
  · exact Or.inr (by omega)
  · cases h

theorem legible_of_escapeOf {c v : ℕ} (h : escapeOf c = some v) : Legible c := by
  apply Or.inr
  by_contra hlow
  have hlow : c < 0x20 := by omega
  have hnone : ∀ e < 0x20, escapeOf e = none := by decide
  rw [hnone c hlow] at h
  cases h

theorem reads_skip (cs : Text) : Reads cs (skip cs) := by
  refine ⟨cs.takeWhile isSpace, (List.takeWhile_append_dropWhile ..).symm, ?_⟩
  intro c hc
  exact Or.inl (List.mem_takeWhile_imp hc)

theorem reads_takeWhile (cs : Text) : Reads cs (cs.drop (cs.takeWhile isDigit).length) := by
  refine ⟨cs.takeWhile isDigit, (List.prefix_iff_eq_append.mp (List.takeWhile_prefix _)).symm, ?_⟩
  intro c hc
  exact legible_of_isDigit (List.mem_takeWhile_imp hc)

theorem reads_prefix {name cs : Text} (hname : ∀ c ∈ name, Legible c) (h : name <+: cs) :
    Reads cs (cs.drop name.length) :=
  ⟨name, (List.prefix_iff_eq_append.mp h).symm, hname⟩

theorem legible_backslash : Legible backslash := Or.inr (by decide)

theorem hexUnit_legible {w x y z unit : ℕ} (h : hexUnit w x y z = some unit) :
    Legible w ∧ Legible x ∧ Legible y ∧ Legible z := by
  simp only [hexUnit, bind, Option.bind_eq_some_iff] at h
  obtain ⟨_, hw, _, hx, _, hy, _, hz, _⟩ := h
  exact ⟨legible_of_hexValue hw, legible_of_hexValue hx, legible_of_hexValue hy,
    legible_of_hexValue hz⟩

theorem reads_scanUnits {cs r : Text} {units : List (Bool × ℕ)}
    (h : scanUnits cs = some (units, r)) : Reads cs r := by
  induction cs using scanUnits.induct generalizing units r with
  | case1 => cases h
  | case2 rest =>
    unfold scanUnits at h
    simp only [if_true, Option.some.injEq, Prod.mk.injEq] at h
    rw [← h.2]
    exact (Reads.refl rest).cons (Or.inr (by decide))
  | case3 hne =>
    unfold scanUnits at h
    simp only [if_neg hne, if_true] at h
    cases h
  | case4 w x y z rest hne ih =>
    unfold scanUnits at h
    simp only [if_neg hne, if_true, bind, Option.bind_eq_some_iff, pure,
      Option.some.injEq, Prod.mk.injEq] at h
    obtain ⟨unit, hunit, ⟨more, s⟩, hmore, -, rfl⟩ := h
    obtain ⟨hw, hx, hy, hz⟩ := hexUnit_legible hunit
    exact (((((ih hmore).cons hz).cons hy).cons hx).cons hw |>.cons (Or.inr (by decide))).cons
      legible_backslash
  | case5 rest hshort hne =>
    unfold scanUnits at h
    simp only [if_neg hne, if_true] at h
    cases h
  | case6 e rest hu hne ih =>
    unfold scanUnits at h
    simp only [if_neg hne, if_true, if_neg hu, bind, Option.bind_eq_some_iff, pure,
      Option.some.injEq, Prod.mk.injEq] at h
    obtain ⟨unit, hunit, ⟨more, s⟩, hmore, -, rfl⟩ := h
    exact ((ih hmore).cons (legible_of_escapeOf hunit)).cons legible_backslash
  | case7 c rest hquote hslash hlow =>
    unfold scanUnits at h
    simp only [if_neg hquote, if_neg hslash, if_pos hlow] at h
    cases h
  | case8 c rest hquote hslash hlow ih =>
    unfold scanUnits at h
    simp only [if_neg hquote, if_neg hslash, if_neg hlow, bind,
      Option.bind_eq_some_iff, pure, Option.some.injEq, Prod.mk.injEq] at h
    obtain ⟨⟨more, s⟩, hmore, -, rfl⟩ := h
    exact (ih hmore).cons (Or.inr (by omega))

theorem reads_scanString {cs r : Text} {s : Text}
    (h : scanString cs = (.ok (s, r) : Except (Fault ε) _)) : Reads cs r := by
  cases cs with
  | nil => cases h
  | cons c rest =>
    simp only [scanString] at h
    split at h
    · next hc =>
      cases hunits : scanUnits rest with
      | none => simp [scanText, hunits] at h
      | some answer =>
        simp only [scanText, hunits, Option.map_some, Except.ok.injEq, Prod.mk.injEq] at h
        rw [← h.2]
        exact (reads_scanUnits hunits).cons (hc ▸ Or.inr (by decide))
    · cases h

theorem reads_scanFraction (cs : Text) : Reads cs (scanFraction cs).2 := by
  cases cs with
  | nil => exact Reads.refl _
  | cons c r =>
    simp only [scanFraction]
    split
    · next hc => exact (reads_takeWhile r).cons (hc.1 ▸ Or.inr (by decide))
    · exact Reads.refl _

theorem reads_unsigned (cs : Text) : Reads cs (if cs.head? = some minus then cs.tail else cs) := by
  split
  · next hminus => exact legible_of_head (Or.inr (by decide)) hminus
  · exact Reads.refl _

theorem reads_sign (cs : Text) :
    Reads cs (if cs.head? = some minus ∨ cs.head? = some '+'.toNat then cs.tail else cs) := by
  split
  · next hsign =>
    rcases hsign with hsign | hsign
    · exact legible_of_head (Or.inr (by decide)) hsign
    · exact legible_of_head (Or.inr (by decide)) hsign
  · exact Reads.refl _

theorem reads_scanExponent (cs : Text) : Reads cs (scanExponent cs).2 := by
  cases cs with
  | nil => exact Reads.refl _
  | cons c r =>
    have hsign := reads_sign r
    simp only [scanExponent]
    generalize (if r.head? = some minus ∨ r.head? = some '+'.toNat then r.tail else r) = unsigned
      at hsign ⊢
    split
    · next hc =>
      have hletter : Legible c := by
        rcases hc.1 with rfl | rfl <;> exact Or.inr (by decide)
      exact (hsign.trans (reads_takeWhile unsigned)).cons hletter
    · exact Reads.refl _

theorem takeWhile_head {cs : Text} {d : ℕ} (h : (cs.takeWhile isDigit).head? = some d) :
    cs.head? = some d ∧ isDigit d = true := by
  cases cs with
  | nil => cases h
  | cons c r =>
    by_cases hc : isDigit c = true
    · simp only [List.takeWhile_cons, hc, if_true, List.head?_cons, Option.some.injEq] at h
      exact ⟨congrArg some h, h ▸ hc⟩
    · simp [hc] at h

theorem reads_whole (cs : Text) :
    Reads cs (cs.drop (if (cs.takeWhile isDigit).head? = some zero then [zero]
      else cs.takeWhile isDigit).length) := by
  split
  · next hzero =>
    obtain ⟨hhead, hdigit⟩ := takeWhile_head hzero
    have htail := legible_of_head (legible_of_isDigit hdigit) hhead
    simpa using htail
  · exact reads_takeWhile cs

theorem reads_scanToken {cs r : Text} {t : NumberToken} (h : scanToken cs = some (t, r)) :
    Reads cs r := by
  have hminus := reads_unsigned cs
  simp only [scanToken] at h
  generalize (if cs.head? = some minus then cs.tail else cs) = unsigned at hminus h
  have hwhole := reads_whole unsigned
  generalize (if (unsigned.takeWhile isDigit).head? = some zero then [zero]
    else unsigned.takeWhile isDigit) = whole at hwhole h
  split at h
  · cases h
  · simp only [Option.some.injEq, Prod.mk.injEq] at h
    rw [← h.2]
    exact ((hminus.trans hwhole).trans (reads_scanFraction _)).trans (reads_scanExponent _)

theorem reads_scanNumber {cs r : Text} {v : Value}
    (h : scanNumber cs = (.ok (v, r) : Except (Fault ε) _)) : Reads cs r := by
  unfold scanNumber at h
  cases htoken : scanToken cs with
  | none => simp [htoken] at h
  | some answer =>
    simp only [htoken] at h
    have hreads := reads_scanToken htoken
    split at h
    · simp only [Except.ok.injEq, Prod.mk.injEq] at h
      exact h.2 ▸ hreads
    split at h
    · cases h
    · simp only [Except.ok.injEq, Prod.mk.injEq] at h
      exact h.2 ▸ hreads

theorem legible_literals : ∀ name ∈ literals, ∀ c ∈ name.1, 0x20 ≤ c := by decide +kernel

theorem legible_constants : ∀ name ∈ constants, ∀ c ∈ name, 0x20 ≤ c := by decide +kernel

section Reader
variable {h : Hooks ε}

theorem reads_scanAtom {cs r : Text} {v : Value} (hv : scanAtom h cs = .ok (v, r)) :
    Reads cs r := by
  unfold scanAtom at hv
  cases hliteral : literals.find? fun name => name.1 <+: cs with
  | some name =>
    simp only [hliteral, Except.ok.injEq, Prod.mk.injEq] at hv
    have hprefix : name.1 <+: cs := by simpa using List.find?_some hliteral
    rw [← hv.2]
    exact reads_prefix
      (fun c hc => Or.inr (legible_literals name (List.mem_of_find?_eq_some hliteral)
      c hc)) hprefix
  | none =>
    simp only [hliteral] at hv
    cases hconstant : constants.find? fun name => name <+: cs with
    | none =>
      simp only [hconstant] at hv
      exact reads_scanNumber hv
    | some name =>
      simp only [hconstant, bind_ok, pure, Except.pure, Except.ok.injEq, Prod.mk.injEq] at hv
      obtain ⟨_, -, -, hr⟩ := hv
      have hprefix : name <+: cs := by simpa using List.find?_some hconstant
      rw [← hr]
      exact reads_prefix (fun c hc => Or.inr (legible_constants name
        (List.mem_of_find?_eq_some hconstant) c hc)) hprefix

/-- What is passed over by the readings of a value, of the rest of an object and of the rest of an
array. -/
structure ReadsAt (h : Hooks ε) (n : ℕ) : Prop where
  value : ∀ {d cs v r}, scanValue h n d cs = .ok (v, r) → Reads cs r
  members : ∀ {d done cs v r}, scanMembers h n d done cs = .ok (v, r) → Reads cs r
  elements : ∀ {d done cs v r}, scanElements h n d done cs = .ok (v, r) → Reads cs r

theorem reads_skip_head {cs : Text} {c : ℕ} (hc : 0x20 ≤ c) (h : (skip cs).head? = some c) :
    Reads cs (skip cs).tail :=
  (reads_skip cs).trans (legible_of_head (Or.inr hc) h)

theorem reads_scanValue {n : ℕ} (ih : ReadsAt h n) {d : ℕ} {cs r : Text} {v : Value}
    (hv : scanValue h (n + 1) d cs = .ok (v, r)) : Reads cs r := by
  unfold scanValue at hv
  split at hv
  · simp only [bind_ok, pure, Except.pure, Except.ok.injEq, Prod.mk.injEq] at hv
    obtain ⟨⟨s, r'⟩, hs, -, hr⟩ := hv
    exact hr ▸ reads_scanString hs
  split at hv
  · next hbrace =>
    have hopen := legible_of_head (Or.inr (by decide)) hbrace
    split at hv
    · cases hv
    split at hv
    · next hclose =>
      simp only [bind_ok, pure, Except.pure, Except.ok.injEq, Prod.mk.injEq] at hv
      obtain ⟨_, -, -, hr⟩ := hv
      exact hr ▸ hopen.trans (reads_skip_head (by decide) hclose)
    · exact (hopen.trans (reads_skip _)).trans (ih.members hv)
  split at hv
  · next hbracket =>
    have hopen := legible_of_head (Or.inr (by decide)) hbracket
    split at hv
    · cases hv
    split at hv
    · next hclose =>
      simp only [pure, Except.pure, Except.ok.injEq, Prod.mk.injEq] at hv
      exact hv.2 ▸ hopen.trans (reads_skip_head (by decide) hclose)
    · exact (hopen.trans (reads_skip _)).trans (ih.elements hv)
  · exact reads_scanAtom hv

theorem reads_scanMembers {n : ℕ} (ih : ReadsAt h n) {d : ℕ} {done : List (Text × Value)}
    {cs r : Text} {v : Value} (hv : scanMembers h (n + 1) d done cs = .ok (v, r)) : Reads cs r := by
  unfold scanMembers at hv
  simp only [bind_ok] at hv
  obtain ⟨⟨key, r₁⟩, hkey, hv⟩ := hv
  split at hv
  · next hcolon =>
    simp only [bind_ok] at hv
    obtain ⟨⟨value, r₂⟩, hvalue, hv⟩ := hv
    have hread : Reads cs r₂ :=
      ((reads_scanString hkey).trans (reads_skip_head (by decide) hcolon)).trans
        ((reads_skip _).trans (ih.value hvalue))
    dsimp only at hv
    split at hv
    · next hcomma =>
      exact (hread.trans (reads_skip_head (by decide) hcomma)).trans
        ((reads_skip _).trans (ih.members hv))
    split at hv
    · next hclose =>
      simp only [bind_ok, pure, Except.pure, Except.ok.injEq, Prod.mk.injEq] at hv
      obtain ⟨_, -, -, hr⟩ := hv
      exact hr ▸ hread.trans (reads_skip_head (by decide) hclose)
    · cases hv
  · cases hv

theorem reads_scanElements {n : ℕ} (ih : ReadsAt h n) {d : ℕ} {done : List Value} {cs r : Text}
    {v : Value} (hv : scanElements h (n + 1) d done cs = .ok (v, r)) : Reads cs r := by
  unfold scanElements at hv
  simp only [bind_ok] at hv
  obtain ⟨⟨value, r₁⟩, hvalue, hv⟩ := hv
  have hread : Reads cs r₁ := ih.value hvalue
  dsimp only at hv
  split at hv
  · next hcomma =>
    exact (hread.trans (reads_skip_head (by decide) hcomma)).trans
      ((reads_skip _).trans (ih.elements hv))
  split at hv
  · next hclose =>
    simp only [pure, Except.pure, Except.ok.injEq, Prod.mk.injEq] at hv
    exact hv.2 ▸ hread.trans (reads_skip_head (by decide) hclose)
  · cases hv

theorem readsAt (h : Hooks ε) (n : ℕ) : ReadsAt h n := by
  induction n with
  | zero =>
    constructor
    · intro d cs v r hv
      cases hv
    · intro d done cs v r hv
      cases hv
    · intro d done cs v r hv
      cases hv
  | succ n ih => exact ⟨reads_scanValue ih, reads_scanMembers ih, reads_scanElements ih⟩

/-- A text that is read is legible, and does not start with a mark. -/
theorem loads_legible {d : ℕ} {text : Text} {v : Value} (hv : loads h d text = .ok v) :
    text.head? ≠ some byteOrderMark ∧ ∀ c ∈ text, Legible c := by
  unfold loads at hv
  split at hv
  · cases hv
  next hmark =>
    simp only [bind_ok] at hv
    obtain ⟨⟨value, r⟩, hvalue, hv⟩ := hv
    split at hv
    · next hr =>
      have hend : Reads r [] := hr ▸ reads_skip r
      exact ⟨hmark, (((reads_skip text).trans ((readsAt h _).value hvalue)).trans hend).legible⟩
    · cases hv

end Reader

/-! ### Bytes -/

theorem continuation_some {b : UInt8} {y : ℕ} (h : continuation b = some y) :
    b.toNat = 0x80 + y ∧ y < 0x40 := by
  unfold continuation at h
  split at h
  · simp only [Option.some.injEq] at h
    omega
  · cases h

/-- What `utf8Decode` reads, one point at a time. -/
inductive Utf8 (surrogates : Bool) : List UInt8 → Text → Prop where
  | nil : Utf8 surrogates [] []
  | one {a r text} (ha : a.toNat < 0x80) (rest : Utf8 surrogates r text) :
    Utf8 surrogates (a :: r) (a.toNat :: text)
  | two {a b r text y} (ha : 0xc2 ≤ a.toNat ∧ a.toNat < 0xe0) (hy : continuation b = some y)
    (rest : Utf8 surrogates r text) :
    Utf8 surrogates (a :: b :: r) (((a.toNat - 0xc0) * 0x40 + y) :: text)
  | three {a b c r text y z point} (ha : 0xe0 ≤ a.toNat ∧ a.toNat < 0xf0)
    (hy : continuation b = some y) (hz : continuation c = some z)
    (hpoint : point = ((a.toNat - 0xe0) * 0x40 + y) * 0x40 + z)
    (hin : 0x800 ≤ point ∧ (surrogates = true ∨ ¬ (0xd800 ≤ point ∧ point < 0xe000)))
    (rest : Utf8 surrogates r text) : Utf8 surrogates (a :: b :: c :: r) (point :: text)
  | four {a b c d r text y z w point} (ha : 0xf0 ≤ a.toNat ∧ a.toNat < 0xf5)
    (hy : continuation b = some y) (hz : continuation c = some z) (hw : continuation d = some w)
    (hpoint : point = (((a.toNat - 0xf0) * 0x40 + y) * 0x40 + z) * 0x40 + w)
    (hin : 0x10000 ≤ point ∧ point < 0x110000)
    (rest : Utf8 surrogates r text) : Utf8 surrogates (a :: b :: c :: d :: r) (point :: text)

theorem utf8_of_decode {surrogates : Bool} {bytes : List UInt8} {text : Text}
    (h : utf8Decode surrogates bytes = some text) : Utf8 surrogates bytes text := by
  induction bytes using utf8Decode.induct generalizing text with
  | case1 =>
    cases h
    exact .nil
  | case2 a r ha ih =>
    unfold utf8Decode at h
    simp only [if_pos ha, bind, Option.bind_eq_some_iff, pure, Option.some.injEq] at h
    obtain ⟨cs, hcs, rfl⟩ := h
    exact .one ha (ih hcs)
  | case3 a ha =>
    unfold utf8Decode at h
    simp only [if_neg ha] at h
    cases h
  | case4 a ha b r htwo ih =>
    unfold utf8Decode at h
    simp only [if_neg ha, if_pos htwo, bind, Option.bind_eq_some_iff, pure,
      Option.some.injEq] at h
    obtain ⟨y, hy, cs, hcs, rfl⟩ := h
    exact .two htwo hy (ih hcs)
  | case5 a ha b htwo =>
    unfold utf8Decode at h
    simp only [if_neg ha, if_neg htwo] at h
    cases h
  | case6 a ha b htwo c r hthree ih =>
    unfold utf8Decode at h
    simp only [if_neg ha, if_neg htwo, if_pos hthree, bind, Option.bind_eq_some_iff, pure] at h
    obtain ⟨y, hy, z, hz, cs, hcs, h⟩ := h
    split at h
    · next hin =>
      cases h
      exact .three hthree hy hz rfl hin (ih hcs)
    · cases h
  | case7 a ha b htwo c hthree =>
    unfold utf8Decode at h
    simp only [if_neg ha, if_neg htwo, if_neg hthree] at h
    cases h
  | case8 a ha b htwo c hthree d r hfour ih =>
    unfold utf8Decode at h
    simp only [if_neg ha, if_neg htwo, if_neg hthree, if_pos hfour, bind, Option.bind_eq_some_iff,
      pure] at h
    obtain ⟨y, hy, z, hz, w, hw, cs, hcs, h⟩ := h
    split at h
    · next hin =>
      cases h
      exact .four hfour hy hz hw rfl hin (ih hcs)
    · cases h
  | case9 a ha b htwo c hthree d r hfour =>
    unfold utf8Decode at h
    simp only [if_neg ha, if_neg htwo, if_neg hthree, if_neg hfour] at h
    cases h

theorem decode_of_utf8 {surrogates : Bool} {bytes : List UInt8} {text : Text}
    (h : Utf8 surrogates bytes text) : utf8Decode surrogates bytes = some text := by
  induction h with
  | nil => rfl
  | one ha rest ih =>
    unfold utf8Decode
    simp only [if_pos ha, ih]
    rfl
  | two ha hy rest ih =>
    unfold utf8Decode
    rw [if_neg (by omega)]
    simp only [if_pos ha, hy, ih]
    rfl
  | three ha hy hz hpoint hin rest ih =>
    subst hpoint
    unfold utf8Decode
    rw [if_neg (by omega)]
    dsimp only
    rw [if_neg (by omega)]
    simp only [if_pos ha, hy, hz, ih, bind, Option.bind_some, if_pos hin]
    rfl
  | four ha hy hz hw hpoint hin rest ih =>
    subst hpoint
    unfold utf8Decode
    rw [if_neg (by omega)]
    dsimp only
    rw [if_neg (by omega), if_neg (by omega)]
    simp only [if_pos ha, hy, hz, hw, ih, bind, Option.bind_some, if_pos hin]
    rfl

theorem Utf8.surrogates {bytes : List UInt8} {text : Text} (h : Utf8 false bytes text) :
    Utf8 true bytes text := by
  induction h with
  | nil => exact .nil
  | one ha rest ih => exact .one ha ih
  | two ha hy rest ih => exact .two ha hy ih
  | three ha hy hz hpoint hin rest ih => exact .three ha hy hz hpoint ⟨hin.1, Or.inl rfl⟩ ih
  | four ha hy hz hw hpoint hin rest ih => exact .four ha hy hz hw hpoint hin ih

theorem zero_ne_of_le {b : UInt8} (h : 0x80 ≤ b.toNat) : (0 : UInt8) ≠ b := by
  rintro rfl
  exact absurd h (by decide)

theorem zero_ne_of_continuation {b : UInt8} {y : ℕ} (h : continuation b = some y) :
    (0 : UInt8) ≠ b := zero_ne_of_le (by have := continuation_some h; omega)

theorem Utf8.zero_mem {surrogates : Bool} {bytes : List UInt8} {text : Text}
    (h : Utf8 surrogates bytes text) (hzero : (0 : UInt8) ∈ bytes) : 0 ∈ text := by
  induction h with
  | nil => cases hzero
  | one ha rest ih =>
    rcases List.mem_cons.mp hzero with h | h
    · exact List.mem_cons.mpr (Or.inl (by rw [← h]; rfl))
    · exact List.mem_cons_of_mem _ (ih h)
  | two ha hy rest ih =>
    have ha := zero_ne_of_le (le_trans (by decide) ha.1)
    simp only [List.mem_cons, ha, zero_ne_of_continuation hy, false_or] at hzero
    exact List.mem_cons_of_mem _ (ih hzero)
  | three ha hy hz hpoint hin rest ih =>
    have ha := zero_ne_of_le (le_trans (by decide) ha.1)
    simp only [List.mem_cons, ha, zero_ne_of_continuation hy, zero_ne_of_continuation hz,
      false_or] at hzero
    exact List.mem_cons_of_mem _ (ih hzero)
  | four ha hy hz hw hpoint hin rest ih =>
    have ha := zero_ne_of_le (le_trans (by decide) ha.1)
    simp only [List.mem_cons, ha, zero_ne_of_continuation hy, zero_ne_of_continuation hz,
      zero_ne_of_continuation hw, false_or] at hzero
    exact List.mem_cons_of_mem _ (ih hzero)

theorem Utf8.head_lt {surrogates : Bool} {a : UInt8} {r : List UInt8} {text : Text}
    (h : Utf8 surrogates (a :: r) text) : a.toNat < 0xf5 := by
  cases h with
  | one ha rest => omega
  | two ha hy rest => omega
  | three ha hy hz hpoint hin rest => omega
  | four ha hy hz hw hpoint hin rest => omega

theorem Utf8.mark {surrogates : Bool} {r : List UInt8} {text : Text}
    (h : Utf8 surrogates (0xef :: 0xbb :: 0xbf :: r) text) :
    text.head? = some byteOrderMark := by
  cases h with
  | one ha rest => exact absurd ha (by decide)
  | two ha hy rest => exact absurd ha (by decide)
  | three ha hy hz hpoint hin rest =>
    have hy := (continuation_some hy).1
    have hz := (continuation_some hz).1
    rw [show UInt8.toNat 0xbb = 0xbb from rfl] at hy
    rw [show UInt8.toNat 0xbf = 0xbf from rfl] at hz
    rw [show UInt8.toNat 0xef = 0xef from rfl] at hpoint
    simp only [List.head?_cons, byteOrderMark, Option.some.injEq]
    omega
  | four ha hy hz hw hpoint hin rest => exact absurd ha (by decide)

/-- Bytes of a text without the null point and without a mark are taken for UTF-8. -/
theorem Utf8.detect {surrogates : Bool} {bytes : List UInt8} {text : Text}
    (h : Utf8 surrogates bytes text) (hzero : 0 ∉ text) (hmark : text.head? ≠ some byteOrderMark) :
    detectEncoding bytes = .utf8 := by
  have hbytes : ∀ b ∈ bytes, b ≠ 0 := by
    rintro b hb rfl
    exact hzero (h.zero_mem hb)
  have hlarge : ∀ (a : UInt8) (p : List UInt8), 0xf5 ≤ a.toNat → ¬ (a :: p) <+: bytes := by
    rintro a p ha ⟨r, rfl⟩
    have := h.head_lt
    omega
  unfold detectEncoding
  rw [if_neg, if_neg (hlarge _ _ (by decide)), if_neg (hlarge _ _ (by decide)),
    if_neg (hlarge _ _ (by decide)), if_neg]
  · split
    · next a b c d r =>
      simp [hbytes a (by simp), hbytes b (by simp)]
    · next a b =>
      simp [hbytes a (by simp), hbytes b (by simp)]
    · rfl
  · rintro ⟨r, rfl⟩
    exact hmark h.mark
  · rintro ⟨r, rfl⟩
    exact hbytes 0 (by simp) rfl

/-- A text decoded strictly that is read, and its bytes read as they are detected, give
one value. -/
theorem loadsBytes_agree {h : Hooks ε} {h' : Hooks ε'} (agree : h.Agree h') {d d' : ℕ}
    {bytes : List UInt8} {text : Text} {v w : Value} (htext : utf8Decode false bytes = some text)
    (hv : loads h d text = .ok v) (hw : loadsBytes h' d' bytes = .ok w) : v = w := by
  obtain ⟨hmark, hlegible⟩ := loads_legible hv
  have hutf8 := utf8_of_decode htext
  have hzero : 0 ∉ text := by
    intro hmem
    rcases hlegible 0 hmem with h | h
    · exact absurd h (by decide)
    · exact absurd h (by decide)
  unfold loadsBytes decodeDetected at hw
  simp only [hutf8.detect hzero hmark, decode_of_utf8 hutf8.surrogates] at hw
  exact loads_agree agree hv hw

end Lib.JsonText
