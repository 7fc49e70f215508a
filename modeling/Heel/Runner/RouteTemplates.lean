import Heel.Runner.HttpTransport
import Mathlib.Data.List.Basic
import Mathlib.Data.List.Count
import Mathlib.Data.List.TakeWhile

/-! Templates as lists of characters and placeholders: what `normalize_route_template` accepts is
written so in one way, replacing names fills placeholders, and the pattern of a template matches
what fills it. -/
namespace Heel.Routes
open Lib Lib.JsonText Lib.Checks Transport

/-- A name that the placeholder pattern reads. -/
structure NameOk (name : Text) : Prop where
  start : ∃ c rest, name = c :: rest ∧ nameStart c = true
  chars : ∀ c ∈ name, nameRest c = true
  short : name.length ≤ 64

theorem nameRest_ne {c d : ℕ} (hc : nameRest c = true) (hd : nameRest d = false) : c ≠ d := by
  rintro rfl
  rw [hc] at hd
  cases hd

theorem NameOk.not_mem {name : Text} (h : NameOk name) {d : ℕ} (hd : nameRest d = false) :
    d ∉ name := by
  intro hmem
  exact nameRest_ne (h.chars d hmem) hd rfl

theorem placeholderAt_some {s name rest : Text} (h : placeholderAt s = some (name, rest)) :
    s = name ++ closeBrace :: rest ∧ NameOk name := by
  cases s with
  | nil => cases h
  | cons c r =>
    unfold placeholderAt at h
    dsimp only at h
    split at h
    · next hguard =>
      simp only [Bool.and_eq_true, decide_eq_true_eq] at hguard
      obtain ⟨⟨hstart, hlength⟩, hclose⟩ := hguard
      simp only [Option.some.injEq, Prod.mk.injEq] at h
      obtain ⟨rfl, rfl⟩ := h
      have hrest : r.dropWhile nameRest = closeBrace :: (r.dropWhile nameRest).tail := by
        cases hdrop : r.dropWhile nameRest with
        | nil => simp [hdrop] at hclose
        | cons d rest =>
          rw [hdrop] at hclose
          cases hclose
          rfl
      refine ⟨?_, ⟨c, _, rfl, hstart⟩, ?_, hlength⟩
      · rw [← hrest, List.cons_append, List.takeWhile_append_dropWhile]
      · intro d hd
        cases hd with
        | head =>
          unfold nameRest
          rw [hstart, Bool.true_or]
        | tail _ hd => exact List.mem_takeWhile_imp hd
    · cases h

theorem placeholderAt_name {name rest : Text} (h : NameOk name) :
    placeholderAt (name ++ closeBrace :: rest) = some (name, rest) := by
  obtain ⟨c, tail, rfl, hstart⟩ := h.start
  have hchars : ∀ d ∈ tail, nameRest d = true := fun d hd => h.chars d (.tail _ hd)
  have hclose : nameRest closeBrace = false := by decide
  have htake : (tail ++ closeBrace :: rest).takeWhile nameRest = tail := by
    rw [List.takeWhile_append_of_pos hchars, List.takeWhile_cons, hclose]
    simp
  have hdrop : (tail ++ closeBrace :: rest).dropWhile nameRest = closeBrace :: rest := by
    rw [List.dropWhile_append_of_pos hchars, List.dropWhile_cons, hclose]
    simp
  have hshort : (c :: tail).length ≤ 64 := h.short
  simp only [placeholderAt, List.cons_append, htake, hdrop, hstart, List.head?_cons, List.tail_cons,
    hshort, decide_true, Bool.and_self, if_true]

def Token.text : Token → Text
  | .char c => [c]
  | .hole name => placeholder name

def untoken (ts : List Token) : Text := ts.flatMap Token.text

theorem untoken_tokens (skip : ℕ) (s : Text) : untoken (tokens skip s) = s.drop skip := by
  induction s generalizing skip with
  | nil => cases skip <;> rfl
  | cons c s ih =>
    cases skip with
    | succ skip => exact ih skip
    | zero =>
      have hcopy : untoken (.char c :: tokens 0 s) = c :: s := by
        show c :: untoken (tokens 0 s) = c :: s
        rw [ih, List.drop_zero]
      unfold tokens
      split
      · next hopen =>
        split
        · next name rest hname =>
          show placeholder name ++ untoken (tokens (name.length + 1) s) = c :: s
          rw [ih, (placeholderAt_some hname).1, hopen]
          simp [placeholder, List.drop_append]
        · exact hcopy
      · exact hcopy

theorem mem_tokens_name {skip : ℕ} {s name : Text} (h : .hole name ∈ tokens skip s) :
    NameOk name := by
  induction s generalizing skip with
  | nil => cases skip <;> cases h
  | cons c s ih =>
    cases skip with
    | succ skip => exact ih h
    | zero =>
      unfold tokens at h
      split at h
      · split at h
        · next hname =>
          cases h with
          | head => exact (placeholderAt_some hname).2
          | tail _ h => exact ih h
        · cases h with
          | tail _ h => exact ih h
      · cases h with
        | tail _ h => exact ih h

/-- A character that is no brace, or a placeholder with a name. -/
def Token.Clean : Token → Prop
  | .char c => c ≠ openBrace ∧ c ≠ closeBrace
  | .hole name => NameOk name

/-- A brace is a character of its own or stands in a placeholder. -/
theorem count_brace {brace : ℕ} (hbrace : brace = openBrace ∨ brace = closeBrace) {ts : List Token}
    (hnames : ∀ name, .hole name ∈ ts → NameOk name) :
    (untoken ts).count brace = ts.count (.char brace) + (ts.filterMap Token.name?).length := by
  have hrest : nameRest brace = false := by
    cases hbrace with
    | inl h =>
      rw [h]
      decide
    | inr h =>
      rw [h]
      decide
  induction ts with
  | nil => rfl
  | cons t ts ih =>
    have ih := ih fun name hname => hnames name (.tail _ hname)
    have hcons : untoken (t :: ts) = t.text ++ untoken ts := rfl
    rw [hcons, List.count_append, ih, List.count_cons, List.filterMap_cons]
    cases t with
    | char c =>
      simp only [Token.text, Token.name?, List.count_singleton, beq_iff_eq, Token.char.injEq]
      omega
    | hole name =>
      have hname : name.count brace = 0 :=
        List.count_eq_zero.mpr ((hnames name (.head _)).not_mem hrest)
      have hone : (placeholder name).count brace = 1 := by
        unfold placeholder
        cases hbrace with
        | inl h =>
          subst h
          rw [List.cons_append, List.count_cons_self, List.count_append, hname]
          decide
        | inr h =>
          subst h
          rw [List.cons_append, List.count_cons, List.count_append, hname]
          decide
      simp only [Token.text, Token.name?, hone, List.length_cons, beq_iff_eq, reduceCtorEq,
        if_false]
      omega

theorem tokens_clean {s : Text} (hopen : s.count openBrace = (placeholdersOf s).length)
    (hclose : s.count closeBrace = (placeholdersOf s).length) : ∀ t ∈ tokens 0 s, t.Clean := by
  have hnames : ∀ name, .hole name ∈ tokens 0 s → NameOk name := fun name h => mem_tokens_name h
  have hs : untoken (tokens 0 s) = s := untoken_tokens 0 s
  have none : ∀ brace, (brace = openBrace ∨ brace = closeBrace) →
      s.count brace = (placeholdersOf s).length → Token.char brace ∉ tokens 0 s := by
    intro brace hbrace hcount
    have hall := count_brace hbrace hnames
    rw [hs] at hall
    unfold placeholdersOf at hcount
    exact List.count_eq_zero.mp (by omega)
  intro t ht
  cases t with
  | char c =>
    constructor
    · rintro rfl
      exact none _ (Or.inl rfl) hopen ht
    · rintro rfl
      exact none _ (Or.inr rfl) hclose ht
  | hole name => exact hnames name ht

theorem placeholder_eq {name other r rest : Text} (hname : NameOk name) (hother : NameOk other)
    (h : placeholder name ++ rest = placeholder other ++ r) : name = other := by
  have hclose : nameRest closeBrace = false := by decide
  have take : ∀ {n x : Text}, NameOk n → (n ++ closeBrace :: x).takeWhile nameRest = n := by
    intro n x hn
    rw [List.takeWhile_append_of_pos hn.chars, List.takeWhile_cons, hclose]
    simp
  simp only [placeholder, List.cons_append, List.append_assoc, List.cons.injEq, true_and,
    List.nil_append] at h
  rw [← take hname, h, take hother]

def Token.fill (name value : Text) : Token → List Token
  | .char c => [.char c]
  | .hole other => if other = name then value.map .char else [.hole other]

theorem untoken_chars (value : Text) : untoken (value.map .char) = value := by
  induction value with
  | nil => rfl
  | cons c value ih =>
    show c :: untoken (value.map .char) = c :: value
    rw [ih]

theorem not_mem_placeholder {name : Text} (h : NameOk name) : openBrace ∉ name ++ [closeBrace] := by
  rw [List.mem_append, not_or]
  exact ⟨h.not_mem (by decide), by decide⟩

theorem replaceAll_untoken {name value : Text} (hname : NameOk name) {ts : List Token}
    (hts : ∀ t ∈ ts, t.Clean) :
    replaceAll (placeholder name) value (untoken ts) =
        untoken (ts.flatMap (Token.fill name value)) := by
  have hne : placeholder name ≠ [] := by
    unfold placeholder
    exact List.cons_ne_nil _ _
  unfold replaceAll untoken
  rw [List.flatMap_assoc]
  apply Pattern.sub_flatMap (Pattern.nonempty_word hne)
  intro t ht r
  have hclean := hts t ht
  cases t with
  | char c =>
    have hc : openBrace ∉ [c] := by
      rw [List.mem_singleton]
      exact fun h => hclean.1 h.symm
    exact Pattern.sub_word_plain hc
  | hole other =>
    have hother : NameOk other := hclean
    simp only [Token.text, Token.fill]
    split
    · next heq =>
      rw [heq, Pattern.sub_word_match hne]
      rw [show (value.map Token.char).flatMap Token.text = value from untoken_chars value]
    · next hdiffer =>
      have hcopy : ¬ placeholder name <+: openBrace :: (other ++ [closeBrace] ++ r) := by
        rintro ⟨rest, heq⟩
        exact hdiffer (placeholder_eq hname hother heq).symm
      have hplain := not_mem_placeholder hother
      simp only [List.flatMap_cons, List.flatMap_nil, List.append_nil, Token.text]
      unfold placeholder at hcopy ⊢
      rw [List.cons_append, List.cons_append, List.cons_append] at *
      rw [Pattern.sub_word_copy hcopy, Pattern.sub_word_plain hplain]
      rfl

theorem fill_clean {name value : Text} (hvalue : ∀ c ∈ value, c ≠ openBrace ∧ c ≠ closeBrace)
    {ts : List Token} (hts : ∀ t ∈ ts, t.Clean) :
    ∀ t ∈ ts.flatMap (Token.fill name value), t.Clean := by
  intro t ht
  obtain ⟨u, hu, ht⟩ := List.mem_flatMap.mp ht
  cases u with
  | char c =>
    rw [List.mem_singleton.mp ht]
    exact hts _ hu
  | hole other =>
    simp only [Token.fill] at ht
    split at ht
    · obtain ⟨c, hc, rfl⟩ := List.mem_map.mp ht
      exact hvalue c hc
    · rw [List.mem_singleton.mp ht]
      exact hts _ hu

def Token.fillAll (bound : List (Text × Text)) (names : List Text) : Token → List Token
  | .char c => [.char c]
  | .hole name => if name ∈ names then (valueOf bound name).map .char else [.hole name]

theorem flatMap_chars (bound : List (Text × Text)) (names : List Text) (value : Text) :
    (value.map Token.char).flatMap (Token.fillAll bound names) = value.map .char := by
  induction value with
  | nil => rfl
  | cons c value ih =>
    rw [List.map_cons, List.flatMap_cons, ih]
    rfl

theorem replaceNames_untoken {bound : List (Text × Text)} {names : List Text} {ts : List Token}
    (hnames : ∀ name ∈ names, NameOk name)
    (hvalues : ∀ name ∈ names, ∀ c ∈ valueOf bound name, c ≠ openBrace ∧ c ≠ closeBrace)
    (hts : ∀ t ∈ ts, t.Clean) :
    replaceNames bound names (untoken ts) = untoken (ts.flatMap (Token.fillAll bound names)) := by
  induction names generalizing ts with
  | nil =>
    have hid : ∀ t ∈ ts, Token.fillAll bound [] t = [t] := by
      intro t _
      cases t <;> rfl
    rw [List.flatMap_congr hid]
    simp [replaceNames]
  | cons name names ih =>
    have hstep : replaceNames bound (name :: names) (untoken ts) =
        replaceNames bound names
        (replaceAll (placeholder name) (valueOf bound name) (untoken ts)) := rfl
    rw [hstep, replaceAll_untoken (hnames name (.head _)) hts,
      ih (fun n hn => hnames n (.tail _ hn)) (fun n hn => hvalues n (.tail _ hn))
        (fill_clean (hvalues name (.head _)) hts), List.flatMap_assoc]
    congr 1
    apply List.flatMap_congr
    intro t _
    cases t with
    | char c => rfl
    | hole other =>
      simp only [Token.fill]
      split
      · next heq =>
        rw [flatMap_chars, heq]
        simp [Token.fillAll]
      · next hdiffer => simp [Token.fillAll, hdiffer]

/-- The simultaneous substitution of values for the placeholders of a template. -/
def Token.put (bound : List (Text × Text)) : Token → Text
  | .char c => [c]
  | .hole name => valueOf bound name

def substitute (bound : List (Text × Text)) (ts : List Token) : Text := ts.flatMap (Token.put bound)

theorem replaceNames_substitute {bound : List (Text × Text)} {names : List Text} {ts : List Token}
    (hnames : ∀ name ∈ names, NameOk name)
    (hvalues : ∀ name ∈ names, ∀ c ∈ valueOf bound name, c ≠ openBrace ∧ c ≠ closeBrace)
    (hts : ∀ t ∈ ts, t.Clean) (hall : ∀ name, .hole name ∈ ts → name ∈ names) :
    replaceNames bound names (untoken ts) = substitute bound ts := by
  rw [replaceNames_untoken hnames hvalues hts]
  unfold untoken substitute
  rw [List.flatMap_assoc]
  apply List.flatMap_congr
  intro t ht
  cases t with
  | char c => rfl
  | hole name =>
    simp only [Token.fillAll, if_pos (hall name ht)]
    exact untoken_chars (valueOf bound name)

theorem regexSpecial_plain {c : ℕ} (h : nameRest c = true) : regexSpecial.contains c = false := by
  have hall : ∀ d ∈ regexSpecial, nameRest d = false := by decide
  cases hc : regexSpecial.contains c with
  | false => rfl
  | true =>
    rw [hall c (List.contains_iff_mem.mp hc)] at h
    cases h

theorem escape_cons (c : ℕ) (s : Text) : escape (c :: s) = escape [c] ++ escape s := by
  simp [escape]

theorem escape_append (a b : Text) : escape (a ++ b) = escape a ++ escape b := by
  simp [escape]

theorem escape_name {name : Text} (h : ∀ c ∈ name, nameRest c = true) : escape name = name := by
  induction name with
  | nil => rfl
  | cons c name ih =>
    rw [escape_cons, ih fun d hd => h d (.tail _ hd)]
    have hc := regexSpecial_plain (h c (.head _))
    simp only [escape, List.flatMap_cons, List.flatMap_nil, List.append_nil, hc, Bool.false_eq_true,
      if_false, List.cons_append, List.nil_append]

/-- The pieces of the pattern text: after escaping, and after each of the two replacements. -/
def escaped (afterOpen afterClose : Text) : Token → Text
  | .char c => escape [c]
  | .hole name => afterOpen ++ name ++ afterClose

theorem escape_untoken {ts : List Token} (hts : ∀ t ∈ ts, t.Clean) :
    escape (untoken ts) = ts.flatMap (escaped [backslash, openBrace] [backslash, closeBrace]) := by
  induction ts with
  | nil => rfl
  | cons t ts ih =>
    have hcons : untoken (t :: ts) = t.text ++ untoken ts := rfl
    rw [hcons, escape_append, ih fun u hu => hts u (.tail _ hu), List.flatMap_cons]
    congr 1
    have hclean := hts t (.head _)
    cases t with
    | char c => rfl
    | hole name =>
      have hname : NameOk name := hclean
      simp only [Token.text, placeholder, List.cons_append]
      rw [escape_cons, escape_append, escape_name hname.chars]
      rfl

/-- A template without backslashes, in whose pattern text no escape but those of braces is
replaced. -/
def NoBackslash (ts : List Token) : Prop := .char backslash ∉ ts

theorem sub_escape_char {brace c : ℕ} {put r : Text} (hbrace : c ≠ brace) (hc : c ≠ backslash) :
    (Pattern.word [backslash, brace]).sub put 0 (escape [c] ++ r) =
      escape [c] ++ (Pattern.word [backslash, brace]).sub put 0 r := by
  have hplain : (Pattern.word [backslash, brace]).sub put 0 ([c] ++ r) =
      [c] ++ (Pattern.word [backslash, brace]).sub put 0 r := by
    apply Pattern.sub_word_plain
    rw [List.mem_singleton]
    exact hc.symm
  unfold escape
  rw [List.flatMap_singleton]
  split
  · have hcopy : ¬ [backslash, brace] <+: backslash :: ([c] ++ r) := by
      rintro ⟨rest, heq⟩
      simp only [List.cons_append, List.nil_append, List.cons.injEq, true_and] at heq
      exact hbrace heq.1.symm
    rw [List.cons_append, Pattern.sub_word_copy hcopy, hplain]
    rfl
  · exact hplain

theorem openReplaced {ts : List Token} (hts : ∀ t ∈ ts, t.Clean) (hno : NoBackslash ts) :
    replaceAll [backslash, openBrace] [openBrace]
        (ts.flatMap (escaped [backslash, openBrace] [backslash, closeBrace])) =
      ts.flatMap (escaped [openBrace] [backslash, closeBrace]) := by
  unfold replaceAll
  apply Pattern.sub_flatMap (Pattern.nonempty_word (by simp))
  intro t ht r
  have hclean := hts t ht
  cases t with
  | char c =>
    apply sub_escape_char hclean.1
    rintro rfl
    exact hno ht
  | hole name =>
    have hname : NameOk name := hclean
    have hplain : backslash ∉ name := hname.not_mem (by decide)
    have hcopy : ¬ [backslash, openBrace] <+: backslash :: ([closeBrace] ++ r) := by
      rintro ⟨rest, heq⟩
      simp only [List.cons_append, List.nil_append, List.cons.injEq, true_and] at heq
      exact absurd heq.1 (by decide)
    simp only [escaped, List.append_assoc]
    rw [Pattern.sub_word_match (by simp), Pattern.sub_word_plain hplain]
    rw [show [backslash, closeBrace] ++ r = backslash :: ([closeBrace] ++ r) from rfl,
      Pattern.sub_word_copy hcopy, Pattern.sub_word_plain (by decide)]
    rfl

theorem closeReplaced {ts : List Token} (hts : ∀ t ∈ ts, t.Clean) (hno : NoBackslash ts) :
    replaceAll [backslash, closeBrace] [closeBrace]
        (ts.flatMap (escaped [openBrace] [backslash, closeBrace])) =
      ts.flatMap (escaped [openBrace] [closeBrace]) := by
  unfold replaceAll
  apply Pattern.sub_flatMap (Pattern.nonempty_word (by simp))
  intro t ht r
  have hclean := hts t ht
  cases t with
  | char c =>
    apply sub_escape_char hclean.2
    rintro rfl
    exact hno ht
  | hole name =>
    have hname : NameOk name := hclean
    have hplain : backslash ∉ [openBrace] ++ name := by
      rw [List.mem_append, not_or]
      exact ⟨by decide, hname.not_mem (by decide)⟩
    simp only [escaped, List.append_assoc]
    rw [← List.append_assoc, Pattern.sub_word_plain hplain, Pattern.sub_word_match (by simp)]
    rw [List.append_assoc]

theorem tokens_skip {skip : ℕ} {s : Text} (h : skip ≤ s.length) :
    tokens skip s = tokens 0 (s.drop skip) := by
  induction s generalizing skip with
  | nil =>
    rw [Nat.le_zero.mp h]
    rfl
  | cons c s ih =>
    cases skip with
    | zero => rfl
    | succ skip =>
      rw [List.length_cons] at h
      exact ih (by omega)

theorem tokens_plain {u r : Text} (h : openBrace ∉ u) :
    tokens 0 (u ++ r) = u.map .char ++ tokens 0 r := by
  induction u with
  | nil => rfl
  | cons c u ih =>
    rw [List.mem_cons, not_or] at h
    rw [List.cons_append, tokens, if_neg fun hc => h.1 hc.symm, ih h.2]
    rfl

theorem tokens_placeholder {name r : Text} (h : NameOk name) :
    tokens 0 (placeholder name ++ r) = .hole name :: tokens 0 r := by
  have hread : placeholderAt (name ++ [closeBrace] ++ r) = some (name, r) := by
    rw [List.append_assoc]
    exact placeholderAt_name h
  unfold placeholder
  rw [List.cons_append, List.cons_append, tokens, if_pos rfl, hread]
  dsimp only
  have hlength : name.length + 1 = (name ++ [closeBrace]).length := by
    rw [List.length_append, List.length_singleton]
  have hle : (name ++ [closeBrace]).length ≤ (name ++ [closeBrace] ++ r).length := by
    simp only [List.length_append]
    omega
  rw [hlength, tokens_skip hle,
    List.drop_left]

/-- What a token becomes in the pattern text. -/
def Token.evidence : Token → Text
  | .char c => escape [c]
  | .hole _ => segmentClass

theorem evidencePattern_untoken {ts : List Token} (hts : ∀ t ∈ ts, t.Clean) (hno : NoBackslash ts) :
    evidencePattern (untoken ts) = ts.flatMap Token.evidence := by
  unfold evidencePattern
  rw [escape_untoken hts, openReplaced hts hno, closeReplaced hts hno]
  dsimp only
  clear hno
  induction ts with
  | nil => rfl
  | cons t ts ih =>
    have ih := ih fun u hu => hts u (.tail _ hu)
    have hclean := hts t (.head _)
    rw [List.flatMap_cons, List.flatMap_cons]
    cases t with
    | char c =>
      have hplain : openBrace ∉ escape [c] := by
        unfold escape
        rw [List.flatMap_singleton]
        split
        · simp only [List.mem_cons, List.not_mem_nil, or_false, not_or]
          exact ⟨by decide, fun h => hclean.1 h.symm⟩
        · exact fun h => hclean.1 (List.mem_singleton.mp h).symm
      simp only [escaped, Token.evidence]
      rw [tokens_plain hplain, List.flatMap_append, ih, List.flatMap_map]
      simp
    | hole name =>
      have htext : escaped [openBrace] [closeBrace] (.hole name) = placeholder name := rfl
      rw [htext, tokens_placeholder hclean, List.flatMap_cons, ih]
      rfl

def Token.pattern : Token → Pattern ℕ
  | .char c => .one fun d => d = c
  | .hole _ => .plus fun d => d ≠ slash

theorem compile_char (c : ℕ) (r : Text) :
    compile (escape [c] ++ r) = (compile r).map fun a => .seq (Token.pattern (.char c)) a := by
  unfold escape
  rw [List.flatMap_singleton]
  split
  · next hspecial =>
    rw [List.cons_append, List.cons_append, List.nil_append, compile.eq_def]
    simp only [if_true, hspecial, Token.pattern]
  · next hplain =>
    have hbackslash : c ≠ backslash := by
      rintro rfl
      exact hplain (by decide)
    have hbracket : c ≠ openBracket := by
      rintro rfl
      exact hplain (by decide)
    rw [List.cons_append, List.nil_append, compile.eq_def]
    simp only [if_neg hbackslash, if_neg hbracket, if_neg hplain, Token.pattern]

theorem compile_segment (r : Text) :
    compile (segmentClass ++ r) = (compile r).map fun a => .seq (.plus fun d => d ≠ slash) a := by
  have htext : segmentClass ++ r = openBracket :: 0x5e :: 0x2f :: 0x5d :: 0x2b :: r := rfl
  rw [htext, compile.eq_def]
  have hbracket : openBracket ≠ backslash := by decide
  simp only [if_neg hbracket, if_true]

theorem compile_evidence (ts : List Token) :
    compile (ts.flatMap Token.evidence) = some (Pattern.sequence (ts.map Token.pattern)) := by
  induction ts with
  | nil =>
    rw [compile.eq_def]
    rfl
  | cons t ts ih =>
    rw [List.flatMap_cons, List.map_cons]
    cases t with
    | char c =>
      simp only [Token.evidence]
      rw [compile_char, ih]
      rfl
    | hole name =>
      simp only [Token.evidence]
      rw [compile_segment, ih]
      rfl

theorem matches_substitute (bound : List (Text × Text)) {ts : List Token}
    (hts : ∀ t ∈ ts, t.Clean) (hno : NoBackslash ts)
    (hvalues : ∀ name, .hole name ∈ ts → valueOf bound name ≠ [] ∧ slash ∉ valueOf bound name) :
    matchesEvidenceTemplate (substitute bound ts) (untoken ts) = true := by
  unfold matchesEvidenceTemplate
  rw [evidencePattern_untoken hts hno, compile_evidence]
  dsimp only
  rw [Pattern.fullmatch_iff]
  clear hts hno
  induction ts with
  | nil => exact Pattern.spells_sequence_nil.mpr rfl
  | cons t ts ih =>
    rw [List.map_cons]
    apply Pattern.spells_sequence_cons.mpr
    refine ⟨t.put bound, substitute bound ts, ?_, ih fun n hn => hvalues n (.tail _ hn), rfl⟩
    cases t with
    | char c => exact ⟨c, by simp, rfl⟩
    | hole name =>
      obtain ⟨hne, hslash⟩ := hvalues name (.head _)
      refine ⟨hne, fun c hc => ?_⟩
      simp only [decide_eq_true_eq]
      rintro rfl
      exact hslash hc

theorem count_slash {bound : List (Text × Text)} {ts : List Token} (hts : ∀ t ∈ ts, t.Clean)
    (hvalues : ∀ name, .hole name ∈ ts → slash ∉ valueOf bound name) :
    (substitute bound ts).count slash = (untoken ts).count slash := by
  induction ts with
  | nil => rfl
  | cons t ts ih =>
    have ih := ih (fun u hu => hts u (.tail _ hu)) fun n hn => hvalues n (.tail _ hn)
    have hput : substitute bound (t :: ts) = t.put bound ++ substitute bound ts := rfl
    have htext : untoken (t :: ts) = t.text ++ untoken ts := rfl
    rw [hput, htext, List.count_append, List.count_append, ih]
    congr 1
    cases t with
    | char c => rfl
    | hole name =>
      have hname : NameOk name := hts _ (.head _)
      have hplain : slash ∉ placeholder name := by
        unfold placeholder
        rw [List.cons_append, List.mem_cons, List.mem_append, not_or, not_or]
        exact ⟨by decide, hname.not_mem (by decide), by decide⟩
      simp only [Token.put, Token.text]
      rw [List.count_eq_zero.mpr (hvalues name (.head _)), List.count_eq_zero.mpr hplain]

end Heel.Routes
