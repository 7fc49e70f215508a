import Heel.Lib.JsonText
import Mathlib.Data.List.TakeWhile

/-! `urlsplit` of the module `urllib.parse` of Python, for a URL of ASCII points. -/
namespace Lib.Url
open JsonText

def isLower (c : ℕ) : Bool := 0x61 ≤ c && c ≤ 0x7a
def isUpper (c : ℕ) : Bool := 0x41 ≤ c && c ≤ 0x5a
def isHex (c : ℕ) : Bool := isDigit c || (0x61 ≤ c && c ≤ 0x66) || (0x41 ≤ c && c ≤ 0x46)

/-- `lower` of ASCII points. -/
def lower (cs : Text) : Text := cs.map fun c => if isUpper c then c + 0x20 else c

/-- What stands before the first point of a kind. -/
def before (c : ℕ) (cs : Text) : Text := cs.takeWhile (· ≠ c)

def after (c : ℕ) (cs : Text) : Text := (cs.dropWhile (· ≠ c)).tail

def slash : ℕ := '/'.toNat
def mark : ℕ := '?'.toNat
def hash : ℕ := '#'.toNat
def at' : ℕ := '@'.toNat
def percent : ℕ := '%'.toNat

structure Split where
  scheme : Text
  netloc : Text
  path : Text
  query : Text
  fragment : Text
  deriving DecidableEq, Repr

/-- What the standard library decides elsewhere: whether a text is an IPv6 address, and whether text
may stand around a bracketed host, as it could before Python 3.13.2. -/
structure Python where
  isIpv6 : Text → Bool
  surround : Bool

def schemePoint (c : ℕ) : Bool :=
  isLower c || isUpper c || isDigit c || c = '+'.toNat || c = minus || c = period

/-- The scheme in small letters, and what follows its colon. -/
def splitScheme (url : Text) : Text × Text :=
  let scheme := before colon url
  if colon ∈ url ∧ (scheme.head?.any fun c => isLower c || isUpper c) ∧ scheme.all schemePoint then
    (lower scheme, after colon url)
  else ([], url)

def ipvFuture (hostname : Text) : Bool :=
  let digits := hostname.tail.takeWhile isHex
  let rest := hostname.tail.drop digits.length
  digits ≠ [] && rest.head? = some period && rest.tail ≠ [] && rest.tail.all (· ≠ 0x0a)

variable (python : Python)

def bracketedHost (hostname : Text) : Bool :=
  if hostname.head? = some 'v'.toNat then ipvFuture hostname else python.isIpv6 hostname

def hostAndPort (netloc : Text) : Text := (netloc.reverse.takeWhile (· ≠ at')).reverse

/-- `_check_bracketed_netloc`, for a location with both brackets; before it, the first bracketed
text was checked alone. -/
def bracketedNetloc (netloc : Text) : Bool :=
  let hostinfo := hostAndPort netloc
  if python.surround then bracketedHost python (before closeBracket (after openBracket netloc))
  else if openBracket ∈ hostinfo then
    let bracketed := after openBracket hostinfo
    let port := after closeBracket bracketed
    before openBracket hostinfo = [] && (port = [] || port.head? = some colon) &&
      bracketedHost python (before closeBracket bracketed)
  else bracketedHost python (before colon hostinfo)

/-- A point that does not end the location. -/
def locationPoint (c : ℕ) : Bool := c ≠ slash && c ≠ mark && c ≠ hash

/-- `urlsplit`; none where it raises `ValueError`. -/
def urlsplit (url : Text) : Option Split :=
  let url := (url.dropWhile (· ≤ 0x20)).filter fun c => c ≠ 0x09 && c ≠ 0x0a && c ≠ 0x0d
  let (scheme, url) := splitScheme url
  let located := [slash, slash] <+: url
  let netloc := if located then (url.drop 2).takeWhile locationPoint else []
  let url := if located then url.drop (2 + netloc.length) else url
  if (openBracket ∈ netloc ↔ closeBracket ∈ netloc) ∧
      (openBracket ∈ netloc → bracketedNetloc python netloc = true) then
    let unmarked := before hash url
    some ⟨scheme, netloc, before mark unmarked, after mark unmarked, after hash url⟩
  else none

namespace Split
variable (s : Split)

def hasUser : Bool := s.netloc.contains at'

/-- `_hostinfo`: the host and the port. -/
def hostInfo : Text × Text :=
  let hostinfo := hostAndPort s.netloc
  if openBracket ∈ hostinfo then
    let bracketed := after openBracket hostinfo
    (before closeBracket bracketed, after colon (after closeBracket bracketed))
  else (before colon hostinfo, after colon hostinfo)

/-- The text of the port, none where it is empty. -/
def portText : Option Text := if s.hostInfo.2 = [] then none else some s.hostInfo.2

/-- The host in small letters up to its zone, none where it is empty. -/
def hostname : Option Text :=
  let host := s.hostInfo.1
  if host = [] then none
  else some (lower (before percent host) ++ host.drop (before percent host).length)

end Split
theorem mem_before {c x : ℕ} {cs : Text} (h : x ∈ before c cs) : x ∈ cs :=
  (List.takeWhile_prefix _).subset h

theorem mem_after {c x : ℕ} {cs : Text} (h : x ∈ after c cs) : x ∈ cs :=
  (List.dropWhile_suffix _).subset (List.mem_of_mem_tail h)

theorem before_of_not_mem {c : ℕ} {cs : Text} (h : c ∉ cs) : before c cs = cs := by
  apply List.takeWhile_eq_self_iff.mpr
  intro x hx
  simpa using fun hsame : x = c => h (hsame ▸ hx)

theorem after_of_not_mem {c : ℕ} {cs : Text} (h : c ∉ cs) : after c cs = [] := by
  have hall : cs.dropWhile (· ≠ c) = [] := by
    rw [List.dropWhile_eq_nil_iff]
    intro x hx
    simpa using fun hsame : x = c => h (hsame ▸ hx)
  rw [after, hall]
  rfl

/-- A separator that is there parts what is before it from what is after. -/
theorem before_after {c : ℕ} {cs : Text} (h : c ∈ cs) : cs = before c cs ++ c :: after c cs := by
  induction cs with
  | nil => cases h
  | cons x cs ih =>
    by_cases hx : x = c
    · subst hx
      simp [before, after]
    · have hc : c ∈ cs := (List.mem_cons.mp h).resolve_left fun hsame => hx hsame.symm
      have hrest := ih hc
      simp only [before, after] at hrest ⊢
      rw [List.takeWhile_cons_of_pos (by simpa using hx), List.dropWhile_cons_of_pos
        (by simpa using hx),
        List.cons_append, ← hrest]

theorem mem_parts {c x : ℕ} {cs : Text} (hx : x ∈ cs) (hne : x ≠ c) :
    x ∈ before c cs ∨ x ∈ after c cs := by
  by_cases hc : c ∈ cs
  · rw [before_after hc, List.mem_append, List.mem_cons] at hx
    exact hx.imp_right fun h => h.resolve_left hne
  · exact .inl (by rwa [before_of_not_mem hc])

/-- A URL that is a location alone has nothing after it but bare marks. -/
theorem mem_tail {x : ℕ} {tail : Text} (hx : x ∈ tail) (hpath : before mark (before hash tail) = [])
    (hquery : after mark (before hash tail) = []) (hfragment : after hash tail = []) :
    x = mark ∨ x = hash := by
  by_contra hneither
  rw [not_or] at hneither
  rcases mem_parts hx hneither.2 with h | h
  · rcases mem_parts h hneither.1 with h | h
    · rw [hpath] at h
      cases h
    · rw [hquery] at h
      cases h
  · rw [hfragment] at h
    cases h

theorem hostAndPort_of_not_mem {netloc : Text} (h : at' ∉ netloc) :
    hostAndPort netloc = netloc := by
  have hall : netloc.reverse.takeWhile (· ≠ at') = netloc.reverse := by
    apply List.takeWhile_eq_self_iff.mpr
    intro x hx
    simpa using fun hsame : x = at' => h (hsame ▸ List.mem_reverse.mp hx)
  rw [hostAndPort, hall, List.reverse_reverse]

theorem lower_lower (cs : Text) : lower (lower cs) = lower cs := by
  rw [lower, lower, List.map_map]
  apply List.map_congr_left
  intro c _
  have hsmall : isUpper (if isUpper c then c + 0x20 else c) = false := by
    by_cases hc : isUpper c = true
    · rw [if_pos hc]
      simp only [isUpper, Bool.and_eq_true, decide_eq_true_eq] at hc
      simp only [isUpper, Bool.and_eq_false_iff, decide_eq_false_iff_not]
      omega
    · rw [if_neg hc]
      simpa using hc
  rw [Function.comp_apply, hsmall]
  rfl

theorem mem_lower {c : ℕ} {cs : Text} (h : c ∈ cs) (hc : isUpper c = false) : c ∈ lower cs :=
  List.mem_map.mpr ⟨c, h, by rw [hc]; rfl⟩

/-- A URL of the scheme HTTPS with a location, all of its points visible. -/
theorem urlsplit_https {netloc tail : Text} (hvisible : ∀ c ∈ netloc ++ tail, 0x20 < c)
    (hnetloc : ∀ c ∈ netloc, locationPoint c = true)
    (htail : ∀ c, tail.head? = some c → locationPoint c = false) :
    urlsplit python (points "https://" ++ (netloc ++ tail)) =
      if (openBracket ∈ netloc ↔ closeBracket ∈ netloc) ∧
          (openBracket ∈ netloc → bracketedNetloc python netloc = true) then
        some ⟨points "https", netloc, before mark (before hash tail), after mark (before hash tail),
          after hash tail⟩
      else none := by
  have hall : ∀ c ∈ points "https://" ++ (netloc ++ tail), 0x20 < c := by
    intro c hc
    have hscheme : ∀ c ∈ points "https://", 0x20 < c := by decide
    rcases List.mem_append.mp hc with hc | hc
    · exact hscheme c hc
    · exact hvisible c hc
  have hstart : (points "https://" ++ (netloc ++ tail)).dropWhile (· ≤ 0x20) =
      points "https://" ++ (netloc ++ tail) := rfl
  have hkept : (points "https://" ++ (netloc ++ tail)).filter
      (fun c => c ≠ 0x09 && c ≠ 0x0a && c ≠ 0x0d) = points "https://" ++ (netloc ++ tail) := by
    apply List.filter_eq_self.mpr
    intro c hc
    have hlow := hall c hc
    simp only [Bool.and_eq_true, decide_eq_true_eq]
    omega
  have hscheme : splitScheme (points "https://" ++ (netloc ++ tail)) =
      (points "https", slash :: slash :: (netloc ++ tail)) := by
    have hcolon : colon ∈ points "https://" ++ (netloc ++ tail) :=
      List.mem_append_left _ (by decide)
    have hbefore : before colon (points "https://" ++ (netloc ++ tail)) = points "https" := rfl
    rw [splitScheme, hbefore, if_pos ⟨hcolon, by decide, by decide⟩]
    rfl
  have hlocated : [slash, slash] <+: slash :: slash :: (netloc ++ tail) := ⟨netloc ++ tail, rfl⟩
  have hlocation : (netloc ++ tail).takeWhile locationPoint = netloc := by
    rw [List.takeWhile_append_of_pos hnetloc]
    cases tail with
    | nil => simp
    | cons c tail => simp [htail c rfl]
  have hdropped : ∀ n, (slash :: slash :: (netloc ++ tail)).drop (2 + n) =
      (netloc ++ tail).drop n := by
    intro n
    rw [Nat.add_comm]
    rfl
  have hstripped : (slash :: slash :: (netloc ++ tail)).drop 2 = netloc ++ tail := rfl
  simp only [urlsplit, hstart, hkept, hscheme, if_pos hlocated, hstripped, hlocation, hdropped,
    List.drop_left]

theorem exists_location (rest : Text) : ∃ netloc tail, rest = netloc ++ tail ∧
    (∀ c ∈ netloc, locationPoint c = true) ∧
      ∀ c, tail.head? = some c → locationPoint c = false := by
  refine ⟨rest.takeWhile locationPoint, rest.dropWhile locationPoint,
    List.takeWhile_append_dropWhile.symm, fun c hc => List.mem_takeWhile_imp hc, fun c hc => ?_⟩
  have hnot := List.head?_dropWhile_not locationPoint rest
  rw [hc] at hnot
  simpa using hnot

theorem Split.host_eq {s : Split} (hat : at' ∉ s.netloc) (hcolon : colon ∉ s.netloc) :
    s.hostInfo.1 = if openBracket ∈ s.netloc then before closeBracket (after openBracket s.netloc)
      else s.netloc := by
  rw [Split.hostInfo, hostAndPort_of_not_mem hat]
  split
  · rfl
  · exact before_of_not_mem hcolon

theorem Split.port_eq {s : Split} (hat : at' ∉ s.netloc) (hcolon : colon ∉ s.netloc) :
    s.portText = none := by
  have hport : s.hostInfo.2 = [] := by
    rw [Split.hostInfo, hostAndPort_of_not_mem hat]
    split
    · exact after_of_not_mem fun h => hcolon (mem_after (mem_after h))
    · exact after_of_not_mem hcolon
  rw [Split.portText, if_pos hport]

theorem Split.hostname_eq {s : Split} (hpercent : percent ∉ s.hostInfo.1) :
    s.hostname = if s.hostInfo.1 = [] then none else some (lower s.hostInfo.1) := by
  simp only [Split.hostname, before_of_not_mem hpercent, List.drop_length, List.append_nil]

end Lib.Url
