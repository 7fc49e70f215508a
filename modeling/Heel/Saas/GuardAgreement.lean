import Heel.Lib.Pieces
import Heel.Runner.TargetGuard

/-! The guards of the Cloud and of the runner draw one line over names and over addresses, and the
contract of both accepts what they make of a name. -/
namespace Heel.NetworkGuard
open Lib Lib.Checks Lib.IpAddress Lib.JsonText Lib.Url

variable {host : Host} {origin r hostname name : Text}

/-! ### What an accepted origin is -/

/-- An origin that is a location of one host, whose name `urlsplit` answers. -/
structure Located (host : Host) (origin hostname : Text) : Prop where
  clean : ∀ c ∈ origin, c ≤ 127 ∧ isBlank c = false ∧ 0x20 ≤ c
  prefixed : scheme <+: origin
  percent : percent ∉ origin
  parsed : ∃ parsed, urlsplit host.python origin = some parsed ∧ parsed.scheme = points "https" ∧
    parsed.netloc ≠ [] ∧ parsed.path = [] ∧ parsed.query = [] ∧ parsed.fragment = [] ∧
    parsed.hasUser = false ∧ colon ∉ parsed.netloc ∧ parsed.portText = none ∧
    parsed.hostname = some hostname

/-- A name in small letters that is public. -/
structure Public (host : Host) (name : Text) : Prop where
  undotted : name.getLast? ≠ some period
  short : name.length ≤ 253
  labels : ∀ label ∈ name.splitOn period, label ≠ [] ∧ label.length ≤ 63 ∧
    label.head? ≠ some hyphen ∧ label.getLast? ≠ some hyphen
  several : 2 ≤ (name.splitOn period).length
  chars : ∀ c ∈ name, hostnameChar c = true
  special : name ∉ specialNames ∧ ∀ suffix ∈ specialSuffixes, ¬ suffix <:+ name
  plain : ¬ points "xn--" <+: name ∧ ¬ points ".xn--" <:+: name
  root : (name.splitOn period).getLastD [] ≠ points "arpa" ∧
    host.zone.member ((name.splitOn period).getLastD []) = true

theorem located_iff {parsed : Split} (hsplit : urlsplit host.python origin = some parsed)
    (hname : parsed.hostname = some hostname) :
    Located host origin hostname ↔
      (¬ origin.any fun c => 127 < c || isBlank c || c < 0x20) ∧ scheme <+: origin ∧
        Url.percent ∉ origin ∧ (parsed.scheme = points "https" ∧ parsed.netloc ≠ [] ∧
          parsed.path = [] ∧ parsed.query = [] ∧ parsed.fragment = []) ∧
        (parsed.hasUser = false ∧ colon ∉ parsed.netloc) ∧ parsed.portText = none := by
  have hclean : (¬ origin.any fun c => 127 < c || isBlank c || c < 0x20) ↔
      ∀ c ∈ origin, c ≤ 127 ∧ isBlank c = false ∧ 0x20 ≤ c := by
    simp [not_or, and_assoc]
  rw [hclean]
  constructor
  · rintro ⟨hclean, hscheme, hpercent, parsed', hsplit', h₁, h₂, h₃, h₄, h₅, h₆, h₇, h₈, -⟩
    rw [hsplit, Option.some.injEq] at hsplit'
    subst hsplit'
    exact ⟨hclean, hscheme, hpercent, ⟨h₁, h₂, h₃, h₄, h₅⟩, ⟨h₆, h₇⟩, h₈⟩
  · rintro ⟨hclean, hscheme, hpercent, ⟨h₁, h₂, h₃, h₄, h₅⟩, ⟨h₆, h₇⟩, h₈⟩
    exact ⟨hclean, hscheme, hpercent, parsed, hsplit, h₁, h₂, h₃, h₄, h₅, h₆, h₇, h₈, hname⟩

theorem public_iff : Public host name ↔
    (¬ (name.getLast? = some period ∨ 253 < name.length ∨
        ((name.splitOn period).any fun label => label = [] || 63 < label.length) ∨
        (name.splitOn period).length < 2 ∨ ¬ name.all hostnameChar)) ∧
    (¬ (name.splitOn period).any fun label =>
      label.head? = some hyphen || label.getLast? = some hyphen) ∧
    (¬ (name ∈ specialNames ∨ (specialSuffixes.any fun suffix => suffix <:+ name) ∨
        points "xn--" <+: name ∨ points ".xn--" <:+: name)) ∧
    ¬ ((name.splitOn period).getLastD [] = points "arpa" ∨
      host.zone.member ((name.splitOn period).getLastD []) = false) := by
  simp only [List.any_eq_true, List.all_eq_true, not_or, not_exists, not_and, Bool.or_eq_true,
    decide_eq_true_eq, not_not, not_lt, Bool.not_eq_false]
  constructor
  · intro h
    exact ⟨⟨h.undotted, h.short, fun l hl => ⟨(h.labels l hl).1, (h.labels l hl).2.1⟩, h.several,
      h.chars⟩, fun l hl => (h.labels l hl).2.2, ⟨h.special.1, h.special.2, h.plain⟩, h.root⟩
  · rintro ⟨⟨hundotted, hshort, hlabels, hseveral, hchars⟩, hedges, ⟨hspecial, hsuffixes, hplain⟩,
      hroot⟩
    exact ⟨hundotted, hshort, fun l hl => ⟨(hlabels l hl).1, (hlabels l hl).2, hedges l hl⟩,
      hseveral, hchars, ⟨hspecial, hsuffixes⟩, hplain, hroot⟩

theorem verified_iff : normalizeVerifiedOrigin host origin = .ok r ↔
    ∃ hostname, Located host origin hostname ∧ (host.ipAddress hostname).isNone = true ∧
      Public host (lower hostname) ∧ r = scheme ++ lower hostname := by
  have hinfix : scheme <+: origin → points "://" <:+: origin := fun h =>
    (List.IsInfix.trans ⟨points "https", [], by decide⟩ h.isInfix)
  constructor
  · intro h
    simp only [normalizeVerifiedOrigin, bind_ok, require_ok, splitOrigin] at h
    obtain ⟨-, -, -, hclean, -, ⟨hscheme, -, hpercent⟩, parsed, hparsed, -, hwhole,
      -, huser, -, hport,
      h⟩ := h
    cases hsplit : urlsplit host.python origin with
    | none => rw [hsplit] at hparsed; cases hparsed
    | some split =>
      rw [hsplit] at hparsed
      cases hparsed
      cases hname : parsed.hostname with
      | none => rw [hname] at h; cases h
      | some hostname =>
        simp only [hname, bind_ok, require_ok] at h
        obtain ⟨-, hip, -, hdns, -, hedges, -, hspecial, -, hroot, hr⟩ := h
        refine ⟨hostname, ?_, hip, public_iff.mpr ⟨hdns, hedges, hspecial, hroot⟩, ?_⟩
        · exact (located_iff hsplit hname).mpr ⟨hclean, hscheme, hpercent, hwhole, huser, hport⟩
        · cases hr
          rfl
  · rintro ⟨hostname, hlocated, hip, hpublic, rfl⟩
    obtain ⟨parsed, hsplit, -, -, -, -, -, -, -, -, hname⟩ := hlocated.parsed
    obtain ⟨hclean, hscheme, hpercent, hwhole, huser, hport⟩ :=
      (located_iff hsplit hname).mp hlocated
    obtain ⟨hdns, hedges, hspecial, hroot⟩ := public_iff.mp hpublic
    have hne : origin ≠ [] := by
      rintro rfl
      exact absurd hscheme (by decide)
    simp only [normalizeVerifiedOrigin, bind_ok, require_ok, splitOrigin]
    refine ⟨⟨⟩, hne, ⟨⟩, hclean, ⟨⟩, ⟨hscheme, hinfix hscheme, hpercent⟩, parsed, ?_,
      ⟨⟩, hwhole, ⟨⟩,
      huser, ⟨⟩, hport, ?_⟩
    · rw [hsplit]
    · simp only [hname, bind_ok, require_ok]
      exact ⟨⟨⟩, hip, ⟨⟩, hdns, ⟨⟩, hedges, ⟨⟩, hspecial, ⟨⟩, hroot, rfl⟩

/-- The runner asks for the same, and for an origin without a backslash. -/
theorem target_iff : Runner.normalizeTargetOrigin host origin = .ok r ↔ backslash ∉ origin ∧
    ∃ hostname, Located host origin hostname ∧ (host.ipAddress hostname).isNone = true ∧
      Public host (lower hostname) ∧ r = scheme ++ lower hostname := by
  have hinfix : scheme <+: origin → points "//" <:+: origin := fun h =>
    (List.IsInfix.trans ⟨points "https:", [], by decide⟩ h.isInfix)
  constructor
  · intro h
    simp only [Runner.normalizeTargetOrigin, bind_ok, require_ok, Runner.splitOrigin] at h
    obtain ⟨-, -, -, hclean, -, ⟨hscheme, -, hpercent, hback⟩, parsed, hparsed, -, hwhole,
      -, huser, -,
      hport, h⟩ := h
    cases hsplit : urlsplit host.python origin with
    | none => rw [hsplit] at hparsed; cases hparsed
    | some split =>
      rw [hsplit] at hparsed
      cases hparsed
      cases hname : parsed.hostname with
      | none => rw [hname] at h; cases h
      | some hostname =>
        simp only [hname, bind_ok, require_ok] at h
        obtain ⟨-, hip, -, hall, hr⟩ := h
        simp only [not_or] at hall
        obtain ⟨hdot, hlong, hfew, hchars, hlabels, hedges, hspecial, hsuffixes,
          hxn, hdotted, harpa,
          hroot⟩ := hall
        refine ⟨hback, hostname, ?_, hip, public_iff.mpr ⟨?_, hedges, ?_, ?_⟩, ?_⟩
        · exact (located_iff hsplit hname).mpr ⟨hclean, hscheme, hpercent, hwhole, huser, hport⟩
        · simp only [not_or]
          exact ⟨hdot, hlong, hlabels, hfew, hchars⟩
        · simp only [not_or]
          exact ⟨hspecial, hsuffixes, hxn, hdotted⟩
        · simp only [not_or]
          exact ⟨harpa, hroot⟩
        · cases hr
          rfl
  · rintro ⟨hback, hostname, hlocated, hip, hpublic, rfl⟩
    obtain ⟨parsed, hsplit, -, -, -, -, -, -, -, -, hname⟩ := hlocated.parsed
    obtain ⟨hclean, hscheme, hpercent, hwhole, huser, hport⟩ :=
      (located_iff hsplit hname).mp hlocated
    obtain ⟨hdns, hedges, hspecial, hroot⟩ := public_iff.mp hpublic
    have hne : origin ≠ [] := by
      rintro rfl
      exact absurd hscheme (by decide)
    simp only [not_or] at hdns hspecial hroot
    simp only [Runner.normalizeTargetOrigin, bind_ok, require_ok, Runner.splitOrigin]
    refine ⟨⟨⟩, hne, ⟨⟩, hclean, ⟨⟩, ⟨hscheme, hinfix hscheme, hpercent, hback⟩,
      parsed, ?_, ⟨⟩, hwhole,
      ⟨⟩, huser, ⟨⟩, hport, ?_⟩
    · rw [hsplit]
    · simp only [hname, bind_ok, require_ok, not_or]
      exact ⟨⟨⟩, hip, ⟨⟩,
        ⟨hdns.1, hdns.2.1, hdns.2.2.2.1, hdns.2.2.2.2, hdns.2.2.1, hedges, hspecial.1,
        hspecial.2.1, hspecial.2.2.1, hspecial.2.2.2, hroot.1, hroot.2⟩, rfl⟩

/-! ### The location -/

theorem lower_of_named {h₀ : Text}
    (h : (if h₀ = [] then none else some (lower h₀)) = some hostname) :
    hostname = lower h₀ := by
  split at h
  · cases h
  · exact (Option.some.inj h).symm

/-- The parts of an accepted origin: its location, bare marks, and the host of the location. -/
theorem Located.parts (h : Located host origin hostname) : ∃ netloc tail h₀,
    origin = scheme ++ (netloc ++ tail) ∧ (∀ c ∈ tail, c = mark ∨ c = hash) ∧
      at' ∉ netloc ∧ colon ∉ netloc ∧ hostname = lower h₀ ∧
      (openBracket ∉ netloc ∧ h₀ = netloc ∨
        openBracket ∈ netloc ∧ closeBracket ∈ netloc ∧ bracketedNetloc host.python netloc = true ∧
          h₀ = before closeBracket (after openBracket netloc)) := by
  obtain ⟨rest, rfl⟩ := h.prefixed
  obtain ⟨parsed, hsplit, -, -, hpath, hquery, hfragment, huser, hcolon, -, hname⟩ := h.parsed
  have hvisible : ∀ c ∈ rest, 0x20 < c := by
    intro c hc
    obtain ⟨-, hblank, hlow⟩ := h.clean c (List.mem_append_right _ hc)
    have hspace : c ≠ 0x20 := by
      rintro rfl
      simp [isBlank] at hblank
    omega
  obtain ⟨netloc, tail, rfl, hnetloc, htail⟩ := exists_location rest
  rw [scheme, urlsplit_https _ hvisible hnetloc htail] at hsplit
  split at hsplit
  · next hbrackets =>
    rw [Option.some.injEq] at hsplit
    subst hsplit
    dsimp only at hpath hquery hfragment hcolon
    have hat : at' ∉ netloc := by simpa [Split.hasUser] using huser
    have hpercent : Url.percent ∉ netloc := fun hmem =>
      h.percent (List.mem_append_right _ (List.mem_append_left _ hmem))
    have hhost := @Split.host_eq ⟨points "https", netloc, before mark (before Url.hash tail),
      after mark (before Url.hash tail), after Url.hash tail⟩ hat hcolon
    dsimp only at hhost
    have hzone : Url.percent ∉ (if openBracket ∈ netloc then
        before closeBracket (after openBracket netloc) else netloc) := by
      split
      · exact fun hmem => hpercent (mem_after (mem_before hmem))
      · exact hpercent
    rw [Split.hostname_eq (hhost ▸ hzone), hhost] at hname
    refine ⟨netloc, tail, if openBracket ∈ netloc then before closeBracket
      (after openBracket netloc)
      else netloc, rfl, fun c hc => mem_tail hc hpath hquery hfragment, hat, hcolon, ?_, ?_⟩
    · exact lower_of_named hname
    · by_cases hopen : openBracket ∈ netloc
      · rw [if_pos hopen]
        exact .inr ⟨hopen, hbrackets.1.mp hopen, hbrackets.2 hopen, rfl⟩
      · rw [if_neg hopen]
        exact .inl ⟨hopen, rfl⟩
  · cases hsplit

theorem bracketed_parts {netloc : Text} (hsurround : host.surround = false) (hat : at' ∉ netloc)
    (hcolon : colon ∉ netloc) (hopen : openBracket ∈ netloc) (hclose : closeBracket ∈ netloc)
    (h : bracketedNetloc host.python netloc = true) :
    netloc = openBracket :: (before closeBracket (after openBracket netloc) ++ [closeBracket]) := by
  have hsurround : host.python.surround = false := hsurround
  simp only [bracketedNetloc, hsurround, hostAndPort_of_not_mem hat, if_pos hopen,
    Bool.false_eq_true, if_false, Bool.and_eq_true, Bool.or_eq_true, decide_eq_true_eq] at h
  obtain ⟨⟨hbefore, hport⟩, -⟩ := h
  have hparts := before_after hopen
  rw [hbefore, List.nil_append] at hparts
  have hclose : closeBracket ∈ after openBracket netloc := by
    rw [hparts, List.mem_cons] at hclose
    exact hclose.resolve_left (by decide)
  have hport : after closeBracket (after openBracket netloc) = [] := by
    rcases hport with hport | hport
    · exact hport
    · have hmem : colon ∈ after closeBracket (after openBracket netloc) :=
        List.mem_of_mem_head? hport
      exact absurd (mem_after (mem_after hmem)) hcolon
  have hinner := before_after hclose
  rw [hport] at hinner
  rw [← hinner]
  exact hparts

theorem no_backslash (hsurround : host.surround = false) (h : Located host origin hostname)
    (hpublic : Public host (lower hostname)) : backslash ∉ origin := by
  obtain ⟨netloc, tail, h₀, rfl, htail, hat, hcolon, rfl, hnetloc⟩ := h.parts
  have hhost : backslash ∉ h₀ := by
    intro hmem
    have hlower := mem_lower (mem_lower hmem (by decide)) (by decide)
    exact absurd (hpublic.chars _ hlower) (by decide)
  have hlocation : backslash ∉ netloc := by
    rcases hnetloc with ⟨-, rfl⟩ | ⟨hopen, hclose, hbrackets, rfl⟩
    · exact hhost
    · rw [bracketed_parts hsurround hat hcolon hopen hclose hbrackets, List.mem_cons,
        List.mem_append,
        List.mem_singleton]
      rintro (hmem | hmem | hmem)
      · exact absurd hmem (by decide)
      · exact hhost hmem
      · exact absurd hmem (by decide)
  rw [List.mem_append, List.mem_append]
  rintro (hmem | hmem | hmem)
  · exact absurd hmem (by decide)
  · exact hlocation hmem
  · rcases htail _ hmem with hsame | hsame <;> exact absurd hsame (by decide)

/-! ### The name that is answered -/

theorem hostnameChar_plain {c : ℕ} (h : hostnameChar c = true) :
    c ≤ 127 ∧ isBlank c = false ∧ 0x20 < c ∧ isUpper c = false ∧ locationPoint c = true ∧
      c ≠ Url.percent ∧ c ≠ at' ∧ c ≠ colon ∧ c ≠ openBracket ∧ c ≠ closeBracket := by
  have hrange : c = 0x2d ∨ c = 0x2e ∨ 0x30 ≤ c ∧ c ≤ 0x39 ∨ 0x61 ≤ c ∧ c ≤ 0x7a := by
    simp only [hostnameChar, isLower, isDigit, Bool.or_eq_true, Bool.and_eq_true,
      decide_eq_true_eq] at h
    rcases h with (h | rfl) | rfl
    · omega
    · exact .inl rfl
    · exact .inr (.inl rfl)
  have hsmall : c < 0x7b := by omega
  have hall : ∀ c < 0x7b, (c = 0x2d ∨ c = 0x2e ∨ 0x30 ≤ c ∧ c ≤ 0x39 ∨ 0x61 ≤ c ∧ c ≤ 0x7a) →
      c ≤ 127 ∧ isBlank c = false ∧ 0x20 < c ∧ isUpper c = false ∧ locationPoint c = true ∧
        c ≠ Url.percent ∧ c ≠ at' ∧ c ≠ colon ∧ c ≠ openBracket ∧ c ≠ closeBracket := by
    decide
  exact hall c hsmall hrange

theorem lower_eq {cs : Text} (h : ∀ c ∈ cs, isUpper c = false) : lower cs = cs := by
  apply (List.map_congr_left fun c hc => ?_).trans (List.map_id cs)
  rw [h c hc]
  rfl

theorem located_self (h : Public host name) : Located host (scheme ++ name) name := by
  have hplain := fun c hc => hostnameChar_plain (h.chars c hc)
  have hscheme : ∀ c ∈ scheme, c ≤ 127 ∧ isBlank c = false ∧ 0x20 ≤ c ∧ c ≠ Url.percent := by
    decide
  have hsplit := @urlsplit_https host.python name []
    (by simpa using fun c hc => (hplain c hc).2.2.1)
    (fun c hc => (hplain c hc).2.2.2.2.1) (by simp)
  have hopen : openBracket ∉ name := fun hmem => (hplain _ hmem).2.2.2.2.2.2.2.2.1 rfl
  have hclose : closeBracket ∉ name := fun hmem => (hplain _ hmem).2.2.2.2.2.2.2.2.2 rfl
  have hat : at' ∉ name := fun hmem => (hplain _ hmem).2.2.2.2.2.2.1 rfl
  have hcolon : colon ∉ name := fun hmem => (hplain _ hmem).2.2.2.2.2.2.2.1 rfl
  have hpercent : Url.percent ∉ name := fun hmem => (hplain _ hmem).2.2.2.2.2.1 rfl
  have hne : name ≠ [] := by
    rintro rfl
    exact absurd h.several (by decide)
  rw [List.append_nil, if_pos ⟨by simp [hopen, hclose], fun hmem => absurd hmem hopen⟩] at hsplit
  refine ⟨fun c hc => ?_, ⟨name, rfl⟩, ?_, _, hsplit, rfl, hne, rfl, rfl, rfl, ?_, hcolon,
    Split.port_eq hat hcolon, ?_⟩
  · rcases List.mem_append.mp hc with hc | hc
    · exact ⟨(hscheme c hc).1, (hscheme c hc).2.1, (hscheme c hc).2.2.1⟩
    · exact ⟨(hplain c hc).1, (hplain c hc).2.1, (hplain c hc).2.2.1.le⟩
  · intro hmem
    rcases List.mem_append.mp hmem with hmem | hmem
    · exact (hscheme _ hmem).2.2.2 rfl
    · exact hpercent hmem
  · simpa [Split.hasUser] using hat
  · have hhost := @Split.host_eq ⟨points "https", name, [], [], []⟩ hat hcolon
    rw [if_neg hopen] at hhost
    have hnamed := @Split.hostname_eq ⟨points "https", name, [], [], []⟩ (hhost ▸ hpercent)
    rw [hhost, if_neg hne, lower_eq fun c hc => (hplain c hc).2.2.2.1] at hnamed
    exact hnamed

theorem Located.lower_hostname (h : Located host origin hostname) : lower hostname = hostname := by
  obtain ⟨-, -, h₀, -, -, -, -, rfl, -⟩ := h.parts
  exact lower_lower h₀

theorem verified_self (h : normalizeVerifiedOrigin host origin = .ok r) : ∃ name,
    r = scheme ++ name ∧ Public host name ∧ normalizeVerifiedOrigin host r = .ok r ∧
      Runner.normalizeTargetOrigin host r = .ok r := by
  obtain ⟨name, hlocated, hip, hpublic, rfl⟩ := verified_iff.mp h
  have hlower := hlocated.lower_hostname
  rw [hlower] at hpublic
  have hself := located_self hpublic
  have hanswer : ∃ name', Located host (scheme ++ name) name' ∧
      (host.ipAddress name').isNone = true ∧
      Public host (lower name') ∧ scheme ++ name = scheme ++ lower name' :=
    ⟨name, hself, hip, hlower.symm ▸ hpublic, by rw [hlower]⟩
  rw [hlower]
  refine ⟨name, rfl, hpublic, verified_iff.mpr hanswer, target_iff.mpr ⟨?_, hanswer⟩⟩
  intro hmem
  rcases List.mem_append.mp hmem with hmem | hmem
  · exact absurd hmem (by decide)
  · exact absurd (hpublic.chars _ hmem) (by decide)

/-! ### The contract -/

theorem isLabel_of_public (h : Public host name) {label : Text}
    (hlabel : label ∈ name.splitOn period) :
    Contract.isLabel label = true := by
  obtain ⟨hne, hlong, hhead, hlast⟩ := h.labels label hlabel
  have hchar : ∀ c ∈ label, isLower c = true ∨ isDigit c = true ∨ c = hyphen := by
    intro c hc
    obtain ⟨hmem, hdot⟩ := of_mem_piece hlabel hc
    have hall := h.chars c hmem
    simp only [hostnameChar, Bool.or_eq_true, decide_eq_true_eq] at hall
    rcases hall with ((hlow | hdigit) | hhyphen) | hperiod
    · exact .inl hlow
    · exact .inr (.inl hdigit)
    · exact .inr (.inr hhyphen)
    · exact absurd hperiod hdot
  have hedge : ∀ c ∈ label, some c ≠ some hyphen → (isLower c || isDigit c) = true := by
    intro c hc hne
    rw [Bool.or_eq_true]
    rcases hchar c hc with hlow | hdigit | rfl
    · exact .inl hlow
    · exact .inr hdigit
    · exact absurd rfl hne
  have hfirst : label.head?.any (fun c => isLower c || isDigit c) = true := by
    cases hc : label.head? with
    | none => exact absurd (List.head?_eq_none_iff.mp hc) hne
    | some c => exact hedge c (List.mem_of_mem_head? hc) (hc ▸ hhead)
  have hend : label.getLast?.any (fun c => isLower c || isDigit c) = true := by
    cases hc : label.getLast? with
    | none => exact absurd (List.getLast?_eq_none_iff.mp hc) hne
    | some c => exact hedge c (List.mem_of_mem_getLast? hc) (hc ▸ hlast)
  simp only [Contract.isLabel, Bool.and_eq_true, decide_eq_true_eq, List.all_eq_true,
    Bool.or_eq_true]
  refine ⟨⟨⟨hlong, hfirst⟩, hend⟩, fun c hc => ?_⟩
  rcases hchar c hc with hlow | hdigit | hhyphen
  · exact .inl (.inl hlow)
  · exact .inl (.inr hdigit)
  · exact .inr hhyphen

theorem Public.root_label (h : Public host name) : ∃ before last, name = before ++ period :: last ∧
    name.splitOn period = before.splitOn period ++ [last] ∧ host.zone.member last = true := by
  obtain ⟨before, last, hname, hpieces⟩ := splitOn_last (mem_of_splitOn h.several)
  refine ⟨before, last, hname, hpieces, ?_⟩
  have hroot := h.root.2
  rwa [hpieces, List.getLastD_concat] at hroot

theorem isDns_of_public (h : Public host name) : Contract.isDns name = true := by
  obtain ⟨before, last, hname, hpieces, hroot⟩ := h.root_label
  have hspelled : 2 ≤ last.length ∧ last.length ≤ 63 ∧ last.all isLower = true := by
    refine (host.zone.spelled last hroot).resolve_left fun ⟨rest, hrest⟩ => h.plain.2 ?_
    refine ⟨before, rest, ?_⟩
    rw [hname, ← hrest, List.append_assoc]
    rfl
  have hlong : 1 ≤ name.length := by
    rw [hname, List.length_append, List.length_cons]
    omega
  have hlabels : (name.splitOn period).dropLast.all Contract.isLabel = true := by
    rw [List.all_eq_true]
    intro label hlabel
    exact isLabel_of_public h (List.dropLast_subset _ hlabel)
  have hlast : (name.splitOn period).getLastD [] = last := by
    rw [hpieces, List.getLastD_concat]
  simp only [Contract.isDns, hlast, Bool.and_eq_true, decide_eq_true_eq]
  exact ⟨⟨⟨⟨⟨⟨hlong, h.short⟩, h.several⟩, hlabels⟩, hspelled.1⟩, hspelled.2.1⟩, hspelled.2.2⟩

theorem Public.head_ne (h : Public host name) : name.head? ≠ some hyphen := by
  obtain ⟨first, rest, hname, hpieces⟩ := splitOn_first (mem_of_splitOn h.several)
  obtain ⟨hne, -, hhead, -⟩ := h.labels first (hpieces ▸ List.mem_cons_self)
  rw [hname]
  cases first with
  | nil => exact absurd rfl hne
  | cons c first => exact hhead

theorem not_forbidden (h : Public host name) : ∀ suffix ∈ Contract.forbidden,
    ¬ suffix <:+ name := by
  have hsplit : Contract.forbidden = points "localhost" :: Contract.forbidden.tail := rfl
  have hrest : ∀ suffix ∈ Contract.forbidden.tail, suffix ∈ specialSuffixes := by decide +kernel
  intro suffix hsuffix hend
  rw [hsplit, List.mem_cons] at hsuffix
  rcases hsuffix with rfl | hsuffix
  · obtain ⟨before, last, hname, -, hroot⟩ := h.root_label
    rw [hname] at hend
    exact host.zone.remote last hroot (suffix_piece (by decide) hend)
  · exact h.special.2 suffix (hrest suffix hsuffix) hend

theorem environment_of_public (h : Public host name) :
    Contract.environmentOrigin (scheme ++ name) = .ok (scheme ++ name) := by
  have hplain := fun c hc => hostnameChar_plain (h.chars c hc)
  have hname : lower name = name := lower_eq fun c hc => (hplain c hc).2.2.2.1
  have hlower : lower (scheme ++ name) = scheme ++ name := by
    apply lower_eq
    intro c hc
    have hscheme : ∀ c ∈ scheme, isUpper c = false := by decide
    rcases List.mem_append.mp hc with hc | hc
    · exact hscheme c hc
    · exact (hplain c hc).2.2.2.1
  have hsize : ((scheme ++ name).map Routes.utf8Size).sum ≤ 1024 := by
    have hones : (scheme ++ name).map Routes.utf8Size = (scheme ++ name).map fun _ => 1 := by
      apply List.map_congr_left
      intro c hc
      have hscheme : ∀ c ∈ scheme, c < 0x80 := by decide
      have hsmall : c < 0x80 := by
        rcases List.mem_append.mp hc with hc | hc
        · exact hscheme c hc
        · exact Nat.lt_succ_of_le (hplain c hc).1
      rw [Routes.utf8Size, if_pos hsmall]
    have hlength : scheme.length = 8 := rfl
    have hshort := h.short
    rw [hones, List.map_const', List.sum_replicate_nat, List.length_append]
    omega
  have hforbidden : ¬ (Contract.forbidden.any fun suffix =>
      lower name = suffix || suffix <:+ lower name) = true := by
    rw [List.any_eq_true, hname]
    rintro ⟨suffix, hsuffix, hmatch⟩
    rw [Bool.or_eq_true, decide_eq_true_eq, decide_eq_true_eq] at hmatch
    rcases hmatch with rfl | hend
    · exact not_forbidden h _ hsuffix List.suffix_rfl
    · exact not_forbidden h suffix hsuffix hend
  have hvalid : Contract.validHostname name = true := by
    simp only [Contract.validHostname, Bool.and_eq_true, decide_eq_true_eq, Bool.not_eq_true']
    exact ⟨⟨isDns_of_public h, h.head_ne⟩, by simpa using hforbidden⟩
  have hne : name ≠ [] := by
    rintro rfl
    exact absurd h.several (by decide)
  simp only [Contract.environmentOrigin, bind_ok, require_ok]
  refine ⟨⟨⟩, hsize, ⟨⟩, by simp [scheme, points], ⟨⟩, ⟨⟨name, rfl⟩, ?_⟩, rfl⟩
  rw [List.drop_left]
  exact ⟨hne, List.all_eq_true.mpr h.chars, hlower.symm, hvalid⟩

/-! ### Addresses -/

structure Outside (a : Address) : Prop where
  isGlobal : a.isGlobal = true
  unmapped : a.ipv4Mapped = none
  notPrivate : a.isPrivate = false
  notLoopback : a.isLoopback = false
  notLinkLocal : a.isLinkLocal = false
  notMulticast : a.isMulticast = false
  notReserved : a.version = .four → a.isReserved = false
  notDenied : among denyCorpus a = false

theorem outside_of_public {a : Address} (h : isPublicAddress a = true) : Outside a := by
  simp only [isPublicAddress, Bool.not_eq_true', Bool.or_eq_false_iff, Bool.not_eq_false',
    Bool.and_eq_false_iff, decide_eq_false_iff_not] at h
  obtain ⟨⟨hglobal, hmapped⟩, hdenied⟩ := h
  have hunmapped : a.ipv4Mapped = none := by
    rcases hmapped with hfour | hnone
    · rw [Address.ipv4Mapped, if_neg]
      intro hcontains
      rw [Network.contains, Bool.and_eq_true, decide_eq_true_eq] at hcontains
      exact hfour hcontains.1
    · simpa using hnone
  have hplain := Address.plain_of_unmapped hunmapped
  have hnone : ∀ networks ⊆ denyCorpus, among networks a.plain = false := by
    intro networks hsubset
    rw [hplain]
    by_contra hamong
    rw [among_of_subset hsubset (by simpa using hamong)] at hdenied
    cases hdenied
  refine ⟨hglobal, hunmapped, Address.not_private hglobal, hnone _ ?_, hnone _ ?_, hnone _ ?_, ?_,
    hdenied⟩
  · simp [loopbackNetworks, denyCorpus]
  · simp [linkLocalNetworks, denyCorpus]
  · simp [multicastNetworks, denyCorpus]
  · intro hfour
    have hreserved := hnone reservedNetworks4 (by simp [reservedNetworks4, denyCorpus])
    rw [among, List.any_eq_false] at hreserved
    have hsix : ∀ n ∈ reservedNetworks6, n.version = .six := by simp [reservedNetworks6, v6]
    rw [Address.isReserved, among, List.any_eq_false]
    intro n hn
    rcases List.mem_append.mp hn with hn | hn
    · exact hreserved n hn
    · rw [hplain, Network.contains, hfour, hsix n hn]
      simp

theorem asIp_agree {answer : Answer} {a : Address} :
    asIp host answer = .ok a ↔ Runner.asIp host answer = .ok a := by
  cases answer with
  | address b => simp [asIp, Runner.asIp]
  | text t =>
    simp only [asIp, Runner.asIp]
    cases host.ipAddress t <;> simp
  | bytes b =>
    simp only [asIp, Runner.asIp]
    split
    · generalize host.ipAddress _ = found
      cases found <;> simp
    · simp
  | other => simp [asIp, Runner.asIp]

theorem parsed_agree {answers : List Answer} {parsed : List Address} :
    answers.mapM (asIp host) = .ok parsed ↔ answers.mapM (Runner.asIp host) = .ok parsed := by
  rw [mapM_ok, mapM_ok]
  constructor
  · exact List.Forall₂.imp fun _ _ => asIp_agree.mp
  · exact List.Forall₂.imp fun _ _ => asIp_agree.mpr

theorem selected_iff {answers : List Answer} {as : List Address} :
    selectSafeAddresses host answers = .ok as ↔ ∃ parsed, answers.mapM (asIp host) = .ok parsed ∧
      parsed ≠ [] ∧ parsed.length ≤ 16 ∧ (∀ a ∈ parsed, isPublicAddress a = true) ∧
      as = byKey parsed := by
  have hforM : ∀ parsed : List Address, (parsed.forM fun a =>
      require (isPublicAddress a = true) (GuardError.unsafeAnswer a)) = .ok ⟨⟩ ↔
      ∀ a ∈ parsed, isPublicAddress a = true := by
    intro parsed
    rw [forM_ok]
    simp only [require_ok]
  simp only [selectSafeAddresses, bind_ok, require_ok, pure, Except.pure, Except.ok.injEq]
  constructor
  · rintro ⟨parsed, hparsed, -, hne, -, hmost, ⟨⟩, hall, rfl⟩
    exact ⟨parsed, hparsed, hne, hmost, (hforM parsed).mp hall, rfl⟩
  · rintro ⟨parsed, hparsed, hne, hmost, hall, rfl⟩
    exact ⟨parsed, hparsed, ⟨⟩, hne, ⟨⟩, hmost, ⟨⟩, (hforM parsed).mpr hall, rfl⟩

theorem select_agree {answers : List Answer} {as : List Address} :
    selectSafeAddresses host answers = .ok as ↔
      Runner.selectPublicAddresses host answers = .ok as := by
  have hpublic : ∀ parsed : List Address, (parsed.any fun a => !Runner.isPublic a) = false ↔
      ∀ a ∈ parsed, isPublicAddress a = true := by
    intro parsed
    simp only [List.any_eq_false, Bool.not_eq_true', Bool.not_eq_false]
    exact Iff.rfl
  rw [selected_iff]
  simp only [Runner.selectPublicAddresses, bind_ok, require_ok, pure, Except.pure, Except.ok.injEq,
    not_or, Bool.not_eq_true, not_lt, hpublic]
  constructor
  · rintro ⟨parsed, hparsed, hne, hmost, hall, rfl⟩
    exact ⟨parsed, parsed_agree.mp hparsed, ⟨⟩, ⟨hne, hmost, hall⟩, rfl⟩
  · rintro ⟨parsed, hparsed, -, ⟨hne, hmost, hall⟩, rfl⟩
    exact ⟨parsed, parsed_agree.mpr hparsed, hne, hmost, hall, rfl⟩

/-! ### The order of the addresses -/

theorem mem_byKey {as : List Address} {a : Address} (h : a ∈ byKey as) : a ∈ as := by
  rw [byKey, List.mem_map] at h
  obtain ⟨entry, hentry, rfl⟩ := h
  rw [mem_sortBy, Dict.mem_ofList] at hentry
  obtain ⟨before, after, hall, -⟩ := hentry
  have hmem : entry ∈ as.map fun a => (a.key, a) := by
    rw [hall]
    exact List.mem_append_right _ List.mem_cons_self
  obtain ⟨b, hb, rfl⟩ := List.mem_map.mp hmem
  exact hb

theorem keys_byKey (as : List Address) :
    (byKey as).map Address.key =
    (sortBy Prod.fst (Dict.ofList (as.map fun a => (a.key, a)))).map Prod.fst := by
  rw [byKey, List.map_map]
  apply List.map_congr_left
  intro entry hentry
  rw [mem_sortBy, Dict.mem_ofList] at hentry
  obtain ⟨before, after, hall, -⟩ := hentry
  have hmem : entry ∈ as.map fun a => (a.key, a) := by
    rw [hall]
    exact List.mem_append_right _ List.mem_cons_self
  obtain ⟨b, hb, rfl⟩ := List.mem_map.mp hmem
  rfl

/-- The keys are in order, each once, and are those of the addresses. -/
theorem byKey_sorted (as : List Address) : ((byKey as).map Address.key).Pairwise (· < ·) := by
  rw [keys_byKey]
  have hsorted := sortBy_pairwise Prod.fst (Dict.ofList (as.map fun a => (a.key, a)))
  have hnodup : ((sortBy Prod.fst (Dict.ofList (as.map fun a => (a.key, a)))).map Prod.fst).Nodup :=
    ((sortBy_perm _ _).map Prod.fst).nodup_iff.mpr (Dict.keys_nodup _)
  have hle := List.pairwise_map.mpr hsorted
  exact (hle.and hnodup).imp fun h => lt_of_le_of_ne h.1 h.2

theorem mem_keys_byKey {as : List Address} {k : ℕ ×ₗ ℕ} :
    k ∈ (byKey as).map Address.key ↔ k ∈ as.map Address.key := by
  constructor
  · intro h
    obtain ⟨a, ha, rfl⟩ := List.mem_map.mp h
    exact List.mem_map.mpr ⟨a, mem_byKey ha, rfl⟩
  · intro h
    obtain ⟨a, ha, rfl⟩ := List.mem_map.mp h
    obtain ⟨last, hlast, hkey⟩ := Dict.exists_last (List.mem_map.mpr ⟨a, ha, rfl⟩ :
      (a.key, a) ∈ as.map fun a => (a.key, a))
    rw [keys_byKey]
    exact List.mem_map.mpr ⟨last, mem_sortBy.mpr hlast, hkey⟩

/-! ### The two guards -/

/-- The guards accept the same origins, with the same answer, of those without a backslash, and of
all where no text may stand around a bracketed host; an answer is answered for itself and is an
origin for the contract; and the guards accept the same addresses, in order, each once, none of
which is refused by any list. -/
theorem guards_agree (host : Host) :
    (∀ origin r, host.surround = false ∨ backslash ∉ origin →
      (normalizeVerifiedOrigin host origin = .ok r ↔
        Runner.normalizeTargetOrigin host origin = .ok r)) ∧
    (∀ origin r, normalizeVerifiedOrigin host origin = .ok r ∨
        Runner.normalizeTargetOrigin host origin = .ok r →
      normalizeVerifiedOrigin host r = .ok r ∧ Runner.normalizeTargetOrigin host r = .ok r ∧
        Contract.environmentOrigin r = .ok r) ∧
    (∀ answers as, selectSafeAddresses host answers = .ok as ↔
      Runner.selectPublicAddresses host answers = .ok as) ∧
    ∀ answers as, selectSafeAddresses host answers = .ok as →
      (as.map Address.key).Pairwise (· < ·) ∧ (∀ a ∈ as, Outside a) ∧
        ∀ k, k ∈ as.map Address.key ↔
          ∃ answer ∈ answers, ∃ a, asIp host answer = .ok a ∧ a.key = k := by
  refine ⟨fun origin r hback => ?_, fun origin r hr => ?_, fun _ _ => select_agree,
    fun answers as h => ?_⟩
  · rw [verified_iff, target_iff]
    constructor
    · rintro ⟨name, hlocated, hrest⟩
      refine ⟨?_, name, hlocated, hrest⟩
      rcases hback with hsurround | hback
      · exact no_backslash hsurround hlocated hrest.2.1
      · exact hback
    · exact And.right
  · have hverified : normalizeVerifiedOrigin host origin = .ok r := by
      rcases hr with hr | hr
      · exact hr
      · exact verified_iff.mpr (target_iff.mp hr).2
    obtain ⟨name, rfl, hpublic, hself, hself'⟩ := verified_self hverified
    exact ⟨hself, hself', environment_of_public hpublic⟩
  · obtain ⟨parsed, hparsed, -, -, hall, rfl⟩ := selected_iff.mp h
    refine ⟨byKey_sorted parsed, fun a ha => outside_of_public (hall a (mem_byKey ha)), fun k => ?_⟩
    rw [mem_keys_byKey, List.mem_map]
    have hmatch := mapM_ok.mp hparsed
    constructor
    · rintro ⟨a, ha, rfl⟩
      obtain ⟨answer, hanswer, hip⟩ := Table.exists_left hmatch ha
      exact ⟨answer, hanswer, a, hip, rfl⟩
    · rintro ⟨answer, hanswer, a, hip, rfl⟩
      obtain ⟨b, hb, hip'⟩ := Table.exists_right hmatch hanswer
      rw [hip, Except.ok.injEq] at hip'
      exact ⟨b, hb, by rw [hip']⟩

/-! ### Where the line is drawn -/

namespace Sample

def zone : RootZone where
  member name := name = points "com"
  spelled name h := by
    rw [decide_eq_true_eq] at h
    subst h
    exact .inr (by decide)
  remote name h := by
    rw [decide_eq_true_eq] at h
    subst h
    decide

def python (surround : Bool) : Host := ⟨zone, fun _ => none, surround⟩

/-- `4000::1`. -/
def unassigned : Address := ⟨.six, 0x40000000000000000000000000000001, none, by decide⟩

theorem byKey_single (a : Address) : byKey [a] = [a] := by
  have hdict : Dict.ofList [(a.key, a)] = [(a.key, a)] := rfl
  rw [byKey, List.map_singleton, hdict, sortBy_of_pairwise (List.pairwise_singleton _ _)]
  rfl

theorem unassigned_selected :
    selectSafeAddresses (python false) [.address unassigned] = .ok [unassigned] := by
  refine selected_iff.mpr ⟨[unassigned], rfl, by simp, by decide, ?_, (byKey_single _).symm⟩
  rw [List.forall_mem_singleton]
  decide +kernel

def resolver : Address := ⟨.four, 0x08080808, none, by decide⟩

def mirror : Address := ⟨.four, 0x01010101, none, by decide⟩

/-- Answers of both versions, one of them twice. -/
def mixed : List Address := [unassigned, resolver, unassigned, mirror]

theorem byKey_mixed : byKey mixed = [mirror, resolver, unassigned] := by
  have hdict : (Dict.ofList (mixed.map fun a => (a.key, a))).Perm
      ([mirror, resolver, unassigned].map fun a => (a.key, a)) := by
    decide +kernel
  have hsorted : ([mirror, resolver, unassigned].map fun a => (a.key, a)).Pairwise
      fun a b => a.1 ≤ b.1 := by
    decide +kernel
  rw [byKey, sortBy_eq_of_perm (fun _ ha _ hb => Dict.eq_of_key ha hb) hdict,
    sortBy_of_pairwise hsorted]
  rfl

theorem mixed_selected :
    selectSafeAddresses (python false) (mixed.map .address) =
      .ok [mirror, resolver, unassigned] := by
  refine selected_iff.mpr ⟨mixed, rfl, by simp [mixed], by decide, ?_, byKey_mixed.symm⟩
  decide +kernel

end Sample

open Sample in
/-- A capital letter is accepted and answered in small, and the contract does not accept it; an
address that is reserved for the IETF is let through; and where text may stand around a bracketed
host, the guards differ on a backslash there. -/
theorem guards_differ :
    (normalizeVerifiedOrigin (python false) (points "https://A.com") =
      .ok (points "https://a.com") ∧
      Contract.environmentOrigin (points "https://A.com") = .error "unsafe origin") ∧
    (selectSafeAddresses (python false) [.address unassigned] = .ok [unassigned] ∧
      unassigned.isReserved = true) ∧
    normalizeVerifiedOrigin (python true) (points "https://\\[v1.com]") =
      .ok (points "https://v1.com") ∧
    Runner.normalizeTargetOrigin (python true) (points "https://\\[v1.com]") =
      .error .invalidOrigin := by
  refine ⟨⟨by decide +kernel, by decide +kernel⟩, ⟨unassigned_selected, by decide +kernel⟩,
    by decide +kernel, by decide +kernel⟩

open Sample in
theorem guards_agree_sample :
    Runner.normalizeTargetOrigin (python false) (points "https://A.com") =
      .ok (points "https://a.com") ∧
      Contract.environmentOrigin (points "https://a.com") = .ok (points "https://a.com") ∧
      Runner.selectPublicAddresses (python false) (mixed.map .address) =
        .ok [mirror, resolver, unassigned] ∧
      ([mirror, resolver, unassigned].map Address.key).Pairwise (· < ·) ∧
      ∀ a ∈ [mirror, resolver, unassigned], Outside a := by
  have hverified : normalizeVerifiedOrigin (python false) (points "https://A.com") =
      .ok (points "https://a.com") := by
    decide +kernel
  obtain ⟨horigins, hself, haddresses, hselected⟩ := guards_agree (python false)
  obtain ⟨hsorted, houtside, -⟩ := hselected _ _ mixed_selected
  exact ⟨(horigins _ _ (.inl rfl)).mp hverified, (hself _ _ (.inl hverified)).2.2,
    (haddresses _ _).mp mixed_selected, hsorted, houtside⟩

end Heel.NetworkGuard
