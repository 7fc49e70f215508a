import Heel.Lib.Pieces
import Heel.Lib.Url

/-! Requests of HTTP/1.1 without a body: the grammar of their bytes, in which a request is told by
its bytes and the first empty line is at the end. -/
namespace Lib.Http
open JsonText Url

def cr : ℕ := 0x0d
def lf : ℕ := 0x0a
def space : ℕ := 0x20
def crlf : Text := [cr, lf]

def isAlnum (c : ℕ) : Bool := isLower c || isUpper c || isDigit c

/-- `tchar`. -/
def tokenPoint (c : ℕ) : Bool := isAlnum c || (points "!#$%&'*+-.^_`|~").contains c

def isToken (s : Text) : Bool := s ≠ [] && s.all tokenPoint

def blank (c : ℕ) : Bool := c = space || c = 0x09

def visible (c : ℕ) : Bool := 0x21 ≤ c && c ≤ 0x7e

/-- A value with no white space at its ends. -/
def isValue (s : Text) : Bool :=
  (s.all fun c => visible c || blank c || (0x80 ≤ c && c ≤ 0xff)) && !s.head?.any blank &&
    !s.getLast?.any blank

/-- `pchar`, but for a percent sign. -/
def pathPoint (c : ℕ) : Bool := isAlnum c || (points "-._~!$&'()*+,;=:@").contains c

/-- `origin-form` without a query and without escapes. -/
def OriginForm (target : Text) : Prop :=
  target.head? = some slash ∧ ∀ c ∈ target, c = slash ∨ pathPoint c = true

def VisibleForm (target : Text) : Prop :=
  target.head? = some slash ∧ ∀ c ∈ target, visible c = true

structure Request where
  method : Text
  target : Text
  fields : List (Text × Text)
  deriving DecidableEq, Repr

def requestLine (r : Request) : Text :=
  r.method ++ space :: (r.target ++ space :: points "HTTP/1.1")

def FieldLine (field : Text × Text) (line : Text) : Prop :=
  isToken field.1 = true ∧ isValue field.2 = true ∧ ∃ left right : Text,
    (∀ c ∈ left, blank c = true) ∧ (∀ c ∈ right, blank c = true) ∧
      line = field.1 ++ colon :: (left ++ field.2 ++ right)

def message (lines : List Text) : Text := lines.flatMap (· ++ crlf) ++ crlf

def bodyFields : List Text := ["content-length", "transfer-encoding"].map points

/-- The bytes are those of a request whose target has a form, and which has no body. -/
structure IsRequest (form : Text → Prop) (r : Request) (bytes : Text) : Prop where
  method : isToken r.method = true
  target : form r.target
  bodiless : ∀ field ∈ r.fields, lower field.1 ∉ bodyFields
  spelled : ∃ lines, List.Forall₂ FieldLine r.fields lines ∧
    bytes = message (requestLine r :: lines)

theorem IsRequest.imp {form form' : Text → Prop} {r : Request} {bytes : Text}
    (h : IsRequest form r bytes) (hform : ∀ target, form target → form' target) :
    IsRequest form' r bytes :=
  ⟨h.method, hform _ h.target, h.bodiless, h.spelled⟩

/-- A line that is not empty and has no return. -/
def Whole (line : Text) : Prop := line ≠ [] ∧ cr ∉ line

theorem message_cons (line : Text) (lines : List Text) :
    message (line :: lines) = line ++ cr :: (lf :: message lines) := by
  simp [message, crlf]

theorem message_closed (line : Text) (lines : List Text) :
    ∃ start, message (line :: lines) = start ++ (crlf ++ crlf) := by
  induction lines generalizing line with
  | nil => exact ⟨line, by simp [message]⟩
  | cons line' lines ih =>
    obtain ⟨start, hstart⟩ := ih line'
    exact ⟨line ++ cr :: lf :: start, by rw [message_cons, hstart]; simp⟩

theorem Whole.message_ne {line : Text} {lines : List Text} (h : Whole line) {rest : Text} :
    message (line :: lines) ≠ cr :: rest := by
  intro heq
  rw [message_cons] at heq
  cases line with
  | nil => exact h.1 rfl
  | cons c line => exact h.2 ((List.cons.inj heq).1 ▸ List.mem_cons_self)

theorem message_unique {lines lines' : List Text} (h : ∀ line ∈ lines, Whole line)
    (h' : ∀ line ∈ lines', Whole line) (heq : message lines = message lines') : lines = lines' := by
  induction lines generalizing lines' with
  | nil =>
    cases lines' with
    | nil => rfl
    | cons line lines' => exact absurd heq.symm (h' line List.mem_cons_self).message_ne
  | cons line lines ih =>
    cases lines' with
    | nil => exact absurd heq (h line List.mem_cons_self).message_ne
    | cons line' lines' =>
      rw [message_cons, message_cons] at heq
      obtain ⟨rfl, hrest⟩ := first_unique (h line List.mem_cons_self).2
        (h' line' List.mem_cons_self).2 heq
      rw [ih (fun l hl => h l (List.mem_cons_of_mem _ hl))
        (fun l hl => h' l (List.mem_cons_of_mem _ hl)) (List.cons.inj hrest).2]

theorem message_ends {lines : List Text} (h : ∀ line ∈ lines, Whole line) {start rest : Text}
    (heq : message lines = start ++ (crlf ++ (crlf ++ rest))) : rest = [] := by
  induction lines generalizing start with
  | nil =>
    have hlength := congrArg List.length heq
    simp [message, crlf] at hlength
    omega
  | cons line lines ih =>
    have hwhole := h line List.mem_cons_self
    rw [message_cons] at heq
    have hpre : line <+: start := by
      have hline : (line ++ cr :: (lf :: message lines)).takeWhile (· ≠ cr) = line := by
        have hpass : ∀ c ∈ line, decide (c ≠ cr) = true := by
          intro c hc
          rw [decide_eq_true_eq]
          rintro rfl
          exact hwhole.2 hc
        rw [List.takeWhile_append_of_pos hpass]
        simp
      have hstart : (start ++ (crlf ++ (crlf ++ rest))).takeWhile (· ≠ cr) <+: start := by
        rw [List.takeWhile_append]
        split
        · simp [crlf]
        · exact List.takeWhile_prefix _
      rwa [← heq, hline] at hstart
    obtain ⟨start, rfl⟩ := hpre
    rw [List.append_assoc, List.append_cancel_left_eq] at heq
    have hlines := fun l hl => h l (List.mem_cons_of_mem line hl)
    match start, heq with
    | [], heq =>
      have hnext : message lines = cr :: lf :: rest := (List.cons.inj (List.cons.inj heq).2).2
      cases lines with
      | nil => exact (List.cons.inj (List.cons.inj hnext).2).2.symm
      | cons line' lines => exact absurd hnext (hlines line' List.mem_cons_self).message_ne
    | [c], heq => exact absurd (List.cons.inj (List.cons.inj heq).2).1 (by decide)
    | c :: c' :: start, heq => exact ih hlines (List.cons.inj (List.cons.inj heq).2).2

def trim (s : Text) : Text := ((s.dropWhile blank).reverse.dropWhile blank).reverse

theorem dropWhile_head {s : Text} (h : s.head?.any blank = false) : s.dropWhile blank = s := by
  cases s with
  | nil => rfl
  | cons c s => exact List.dropWhile_cons_of_neg (by simpa using h)

theorem trim_eq {left right value : Text} (hleft : ∀ c ∈ left, blank c = true)
    (hright : ∀ c ∈ right, blank c = true) (h : isValue value = true) :
    trim (left ++ value ++ right) = value := by
  simp only [isValue, Bool.and_eq_true, Bool.not_eq_true'] at h
  obtain ⟨⟨-, hhead⟩, hlast⟩ := h
  have hback : value.reverse.dropWhile blank = value.reverse := by
    apply dropWhile_head
    rwa [List.head?_reverse]
  have hblank : ∀ c ∈ right.reverse, blank c = true := fun c hc => hright c (List.mem_reverse.mp hc)
  rw [trim, List.append_assoc, List.dropWhile_append_of_pos hleft]
  cases value with
  | nil =>
    rw [List.nil_append, List.dropWhile_eq_nil_iff.mpr hright]
    rfl
  | cons c value =>
    have hfront : (c :: value ++ right).dropWhile blank = c :: value ++ right :=
      List.dropWhile_cons_of_neg (by simpa using hhead)
    rw [hfront, List.reverse_append, List.dropWhile_append_of_pos hblank, hback,
      List.reverse_reverse]

theorem not_mem_token {c : ℕ} {s : Text} (h : isToken s = true) (hc : tokenPoint c = false) :
    c ∉ s := by
  intro hmem
  rw [isToken, Bool.and_eq_true, List.all_eq_true] at h
  rw [h.2 c hmem] at hc
  cases hc

theorem fieldLine_unique {field field' : Text × Text} {line : Text} (h : FieldLine field line)
    (h' : FieldLine field' line) : field = field' := by
  obtain ⟨hname, hvalue, left, right, hleft, hright, rfl⟩ := h
  obtain ⟨hname', hvalue', left', right', hleft', hright', heq⟩ := h'
  obtain ⟨hfirst, hrest⟩ := first_unique (not_mem_token hname (by decide))
    (not_mem_token hname' (by decide)) heq
  have htrim := congrArg trim hrest
  rw [trim_eq hleft hright hvalue, trim_eq hleft' hright' hvalue'] at htrim
  exact Prod.ext hfirst htrim

theorem fields_unique {fields fields' : List (Text × Text)} {lines : List Text}
    (h : List.Forall₂ FieldLine fields lines) (h' : List.Forall₂ FieldLine fields' lines) :
    fields = fields' := by
  induction h generalizing fields' with
  | nil =>
    cases h'
    rfl
  | cons hline _ ih =>
    cases h' with
    | cons hline' hrest' => rw [fieldLine_unique hline hline', ih hrest']

theorem whole_fieldLine {field : Text × Text} {line : Text} (h : FieldLine field line) :
    Whole line := by
  obtain ⟨hname, hvalue, left, right, hleft, hright, rfl⟩ := h
  have hcr : ∀ {s : Text}, (∀ c ∈ s, blank c = true) → cr ∉ s := fun hs hmem =>
    absurd (hs cr hmem) (by decide)
  have hvalue : cr ∉ field.2 := by
    intro hmem
    simp only [isValue, Bool.and_eq_true, List.all_eq_true] at hvalue
    exact absurd (hvalue.1.1 cr hmem) (by decide)
  refine ⟨by simp, ?_⟩
  rw [List.mem_append, List.mem_cons, List.mem_append, List.mem_append]
  rintro (hmem | hmem | (hmem | hmem) | hmem)
  · exact not_mem_token hname (by decide) hmem
  · exact absurd hmem (by decide)
  · exact hcr hleft hmem
  · exact hvalue hmem
  · exact hcr hright hmem

theorem whole_fieldLines {fields : List (Text × Text)} {lines : List Text}
    (h : List.Forall₂ FieldLine fields lines) : ∀ line ∈ lines, Whole line := by
  induction h with
  | nil => simp
  | cons hline _ ih => exact List.forall_mem_cons.mpr ⟨whole_fieldLine hline, ih⟩

theorem whole_requestLine {r : Request} (hmethod : isToken r.method = true)
    (htarget : VisibleForm r.target) : Whole (requestLine r) := by
  refine ⟨by simp [requestLine], ?_⟩
  rw [requestLine, List.mem_append, List.mem_cons, List.mem_append, List.mem_cons]
  rintro (hmem | hmem | hmem | hmem | hmem)
  · exact not_mem_token hmethod (by decide) hmem
  · exact absurd hmem (by decide)
  · exact absurd (htarget.2 cr hmem) (by decide)
  · exact absurd hmem (by decide)
  · exact absurd hmem (by decide)

theorem IsRequest.whole {r : Request} {bytes : Text} (h : IsRequest VisibleForm r bytes) :
    ∃ lines, List.Forall₂ FieldLine r.fields lines ∧ bytes = message (requestLine r :: lines) ∧
      ∀ line ∈ requestLine r :: lines, Whole line := by
  obtain ⟨lines, hlines, hbytes⟩ := h.spelled
  exact ⟨lines, hlines, hbytes,
    List.forall_mem_cons.mpr ⟨whole_requestLine h.method h.target, whole_fieldLines hlines⟩⟩

theorem IsRequest.unique {r r' : Request} {bytes : Text} (h : IsRequest VisibleForm r bytes)
    (h' : IsRequest VisibleForm r' bytes) : r = r' := by
  obtain ⟨lines, hlines, rfl, hwhole⟩ := h.whole
  obtain ⟨lines', hlines', hbytes, hwhole'⟩ := h'.whole
  obtain ⟨hline, rfl⟩ := List.cons.inj (message_unique hwhole hwhole' hbytes)
  have hvisible : ∀ {s : Text}, VisibleForm s → space ∉ s := fun hs hmem =>
    absurd (hs.2 space hmem) (by decide)
  obtain ⟨hmethod, hrest⟩ := first_unique (not_mem_token h.method (by decide))
    (not_mem_token h'.method (by decide)) hline
  obtain ⟨htarget, -⟩ := first_unique (hvisible h.target) (hvisible h'.target) hrest
  have hfields := fields_unique hlines hlines'
  cases r
  cases r'
  simp_all

theorem IsRequest.ends {r : Request} {bytes start rest : Text} (h : IsRequest VisibleForm r bytes)
    (heq : bytes = start ++ (crlf ++ (crlf ++ rest))) : rest = [] := by
  obtain ⟨lines, -, rfl, hwhole⟩ := h.whole
  exact message_ends hwhole heq

theorem IsRequest.closed {form : Text → Prop} {r : Request} {bytes : Text}
    (h : IsRequest form r bytes) : ∃ start, bytes = start ++ (crlf ++ crlf) := by
  obtain ⟨lines, -, rfl⟩ := h.spelled
  exact message_closed _ lines

theorem OriginForm.visible {target : Text} (h : OriginForm target) : VisibleForm target := by
  have hmarks : ∀ c ∈ points "-._~!$&'()*+,;=:@", Http.visible c = true := by decide
  refine ⟨h.1, fun c hc => ?_⟩
  rcases h.2 c hc with rfl | hpoint
  · decide
  · simp only [pathPoint, isAlnum, isLower, isUpper, isDigit, Bool.or_eq_true, Bool.and_eq_true,
      decide_eq_true_eq, List.contains_iff_mem] at hpoint
    rcases hpoint with halnum | hmark
    · simp only [Http.visible, Bool.and_eq_true, decide_eq_true_eq]
      omega
    · exact hmarks c hmark

end Lib.Http
