import Heel.Runner.RouteTemplates

/-! The route that `prepare_action` returns: the template with its placeholders filled, and when the
transport admits it. -/
namespace Heel.Routes
open Lib Lib.JsonText Lib.Checks Transport

/-- What is relied on of NFC: it keeps ASCII texts, and no slash comes or goes. -/
structure Nfc (nfc : Text → Text) : Prop where
  ascii : ∀ s, (∀ c ∈ s, c < 0x80) → nfc s = s
  slashes : ∀ s, (nfc s).count slash = s.count slash

/-- What `normalize_route_template` has checked of a route. -/
structure SafeRoute (route : Text) : Prop where
  head : route.head? = some slash
  size : (route.map utf8Size).sum ≤ 1024
  controls : ∀ c ∈ route, isControl c = false
  plain : ∀ c ∈ route, c ∉ points "%\\?#"
  slashes : hasDoubleSlash route = false
  dots : ∀ s ∈ (segments route).tail, s ∉ dotSegments
  opens : route.count openBrace = (placeholdersOf route).length
  closes : route.count closeBrace = (placeholdersOf route).length

theorem normalize_ok {nfc : Text → Text} {value route : Text} {names : List Text}
    (h : normalizeRouteTemplate nfc value = .ok (route, names)) :
    route = nfc value ∧ SafeRoute route ∧ names = (placeholdersOf route).mergeSort textOrder := by
  unfold normalizeRouteTemplate at h
  simp only [bind_ok, require_ok, pure, Except.pure, Except.ok.injEq, Prod.mk.injEq,
    Bool.and_eq_true, decide_eq_true_eq, Bool.not_eq_true', List.any_eq_false,
    List.contains_iff_mem] at h
  obtain ⟨_, hhead, _, -, _, ⟨⟨⟨hsize, hcontrols⟩, hplain⟩, hslashes⟩, _, hdots, _,
    ⟨⟨hopens, hcloses⟩, -⟩, rfl, rfl⟩ := h
  exact ⟨rfl, ⟨hhead, hsize, fun c hc => by simpa using hcontrols c hc, hplain, hslashes, hdots,
    hopens, hcloses⟩, rfl⟩

theorem SafeRoute.clean {route : Text} (h : SafeRoute route) : ∀ t ∈ tokens 0 route, t.Clean :=
  tokens_clean h.opens h.closes

theorem mem_untoken_char {c : ℕ} {ts : List Token} (h : .char c ∈ ts) : c ∈ untoken ts :=
  List.mem_flatMap.mpr ⟨_, h, .head _⟩

theorem SafeRoute.noBackslash {route : Text} (h : SafeRoute route) : NoBackslash
    (tokens 0 route) := by
  intro hmem
  have hroute := mem_untoken_char hmem
  rw [untoken_tokens, List.drop_zero] at hroute
  exact h.plain _ hroute (by decide)

theorem length_segments (route : Text) : (segments route).length = route.count slash + 1 := by
  unfold segments List.splitOn
  induction route with
  | nil => rfl
  | cons c route ih =>
    rw [List.splitOnP_cons_eq_if_modifyHead, List.count_cons]
    split
    · rw [List.length_cons, ih]
    · rw [List.length_modifyHead, ih]

theorem length_le_size (route : Text) : route.length ≤ (route.map utf8Size).sum := by
  induction route with
  | nil => exact le_refl 0
  | cons c route ih =>
    have hpos : 1 ≤ utf8Size c := by
      unfold utf8Size
      split
      · omega
      split
      · omega
      split <;> omega
    simp only [List.length_cons, List.map_cons, List.sum_cons]
    omega

theorem SafeRoute.noBraces {route : Text} (h : SafeRoute route)
    (hnone : placeholdersOf route = []) :
    openBrace ∉ route ∧ closeBrace ∉ route := by
  have hopens := h.opens
  have hcloses := h.closes
  rw [hnone] at hopens hcloses
  exact ⟨List.count_eq_zero.mp hopens, List.count_eq_zero.mp hcloses⟩

structure SegmentOk (value : Text) : Prop where
  nonempty : value ≠ []
  chars : ∀ c ∈ value, fixtureCharacter c = true

theorem fixtureCharacter_visible {c : ℕ} (h : fixtureCharacter c = true) :
    visible c = true ∧ c ≠ slash ∧ c ≠ openBrace ∧ c ≠ closeBrace := by
  have hrange : c < 0x7f := by
    unfold fixtureCharacter isLetter isDigit at h
    simp only [Bool.or_eq_true, Bool.and_eq_true, decide_eq_true_eq, List.contains_iff_mem] at h
    obtain (h | h) | h := h
    · omega
    · omega
    · have hall : ∀ d ∈ points "._~:-", d < 0x7f := by decide
      exact hall c h
  have hall : ∀ d < 0x7f, fixtureCharacter d = true →
      visible d = true ∧ d ≠ slash ∧ d ≠ openBrace ∧ d ≠ closeBrace := by decide
  exact hall c hrange h

theorem boundValues_ok {bindings : List Binding} {acc bound : List (Text × Text)}
    (h : boundValues bindings acc = .ok bound) (hacc : ∀ p ∈ acc, SegmentOk p.2) :
    ∀ p ∈ bound, SegmentOk p.2 := by
  induction bindings generalizing acc with
  | nil =>
    cases h
    exact hacc
  | cons binding bindings ih =>
    simp only [boundValues, bind_ok, require_ok, Bool.and_eq_true] at h
    obtain ⟨_, ⟨hsegment, -⟩, _, -, h⟩ := h
    apply ih h
    intro p hp
    rw [List.mem_append, List.mem_singleton] at hp
    cases hp with
    | inl hp => exact hacc p hp
    | inr hp =>
      subst hp
      simp only [fixtureSegment, Bool.and_eq_true, decide_eq_true_eq, List.all_eq_true] at hsegment
      refine ⟨?_, hsegment.2⟩
      intro hempty
      dsimp only at hempty
      rw [hempty] at hsegment
      exact absurd hsegment.1.1 (by decide)

theorem mem_valueOf {bound : List (Text × Text)} {name : Text} (h : name ∈ bound.map Prod.fst) :
    (name, valueOf bound name) ∈ bound := by
  induction bound with
  | nil => cases h
  | cons p bound ih =>
    obtain ⟨other, value⟩ := p
    unfold valueOf
    rw [List.lookup_cons]
    cases hname : name == other with
    | true =>
      rw [beq_iff_eq] at hname
      subst hname
      exact .head _
    | false =>
      rw [List.map_cons, List.mem_cons] at h
      have hdiffer : name ≠ other := by simpa using hname
      exact .tail _ (ih (h.resolve_left hdiffer))

structure Prepared (nfc : Text → Text) (action : Action) (p : PreparedAction)
    (bound : List (Text × Text)) : Prop where
  adapter : ∃ adapter, exactAction action = .ok adapter ∧ p.adapterVersion = adapter.adapterVersion
  scenario : p.scenarioId = action.scenarioId
  method : p.method = action.method
  role : p.semanticAuthRole = action.semanticAuthRole
  effect : p.sideEffectClass = "read_only"
  profile : requireProfile p.semanticAuthRole p.authProfile = .ok ()
  template : SafeRoute (nfc action.routeTemplate)
  values : ∀ name ∈ placeholdersOf (nfc action.routeTemplate), SegmentOk (valueOf bound name)
  route : p.route = nfc (replaceNames bound
    ((placeholdersOf (nfc action.routeTemplate)).mergeSort textOrder) (nfc action.routeTemplate))
  safe : SafeRoute p.route
  filled : placeholdersOf p.route = []

theorem prepareAction_ok {nfc : Text → Text} {action : Action}
    {fixtureValues : Option (List (Text × Text))} {authProfile : Option String} {p : PreparedAction}
    (h : prepareAction nfc action fixtureValues authProfile = .ok p) :
    ∃ bound, boundValues action.fixtureBindings [] = .ok bound ∧ Prepared nfc action p bound := by
  unfold prepareAction at h
  simp only [bind_ok, Prod.exists, require_ok, pure, Except.pure, Except.ok.injEq] at h
  obtain ⟨adapter, hadapter, template, placeholders, htemplate, bound, hbound,
    _, hcover, _, -, route,
    remaining, hroute, _, hremaining, _, hprofile, _, hrole, rfl⟩ := h
  obtain ⟨rfl, hsafe, rfl⟩ := normalize_ok htemplate
  obtain ⟨hroute, hsaferoute, hnames⟩ := normalize_ok hroute
  have hvalues := boundValues_ok hbound fun q hq => absurd hq List.not_mem_nil
  have hperm : (bound.map Prod.fst).Perm (placeholdersOf (nfc action.routeTemplate)) :=
    (List.mergeSort_perm _ textOrder).symm.trans (hcover ▸ List.mergeSort_perm _ textOrder)
  refine ⟨bound, hbound, ⟨adapter, hadapter, rfl⟩, rfl, rfl, rfl, rfl, hrole, hsafe, ?_, hroute,
    hsaferoute, ?_⟩
  · intro name hname
    exact hvalues _ (mem_valueOf (hperm.mem_iff.mpr hname))
  · have hempty := List.mergeSort_perm (placeholdersOf route) textOrder
    rw [← hnames, hremaining] at hempty
    exact List.nil_perm.mp hempty

theorem exactAction_ok {action : Action} {adapter : Adapter}
    (h : exactAction action = .ok adapter) :
    adapterOf action.scenarioId = some adapter ∧
      adapter.allowedMethods.contains action.method = true ∧
      adapter.semanticRoles.contains action.semanticAuthRole = true := by
  unfold exactAction at h
  split at h
  · cases h
  · next found hfound =>
    simp only [bind_ok, require_ok, pure, Except.pure, Except.ok.injEq] at h
    obtain ⟨_, -, _, -, _, -, _, hmethod, _, hrole, _, -, _, -, _, -, rfl⟩ := h
    exact ⟨hfound, hmethod, hrole⟩

theorem adapterOf_methods {scenarioId method : String} {adapter : Adapter}
    (h : adapterOf scenarioId = some adapter)
    (hmethod : adapter.allowedMethods.contains method = true) :
    ["GET", "HEAD"].contains method = true := by
  have hall : ∀ a ∈ catalog, ∀ m ∈ a.allowedMethods, ["GET", "HEAD"].contains m = true := by
    decide +kernel
  exact hall adapter (List.mem_of_find?_eq_some h) method (List.contains_iff_mem.mp hmethod)

theorem require_bind {α ε : Type} {c : Prop} [Decidable c] {e : ε} {f : PUnit → Except ε α} :
    (require c e >>= f) = if c then f ⟨⟩ else .error e := by
  unfold require
  split
  · rfl
  · rfl

/-- The transport takes the route of an action as it is, or refuses it. -/
theorem validRoute_cases (action : PreparedAction) :
    validRoute action = .ok action.route ∨ validRoute action =
    .error { code := .invalidRoute } := by
  unfold validRoute
  simp only [require_bind]
  split
  · split
    · exact Or.inr rfl
    · split
      · split
        · split
          · exact Or.inl rfl
          · exact Or.inr rfl
        · exact Or.inr rfl
      · exact Or.inr rfl
  · exact Or.inr rfl

theorem visible_iff {c : ℕ} (hcontrol : isControl c = false) :
    visible c = true ↔ c < 0x80 ∧ ¬ (c < 0x21 ∨ c = 0x7f) := by
  simp only [isControl, Bool.or_eq_false_iff, Bool.and_eq_false_iff,
    decide_eq_false_iff_not] at hcontrol
  simp only [visible, Bool.and_eq_true, decide_eq_true_eq]
  omega

theorem not_doubled_head {route : Text} (h : hasDoubleSlash route = false) :
    ¬ [slash, slash] <+: route := by
  intro hprefix
  unfold hasDoubleSlash at h
  simp only [decide_eq_false_iff_not] at h
  exact h hprefix.isInfix

section Prepared
variable {nfc : Text → Text} {action : Action} {p : PreparedAction} {bound : List (Text × Text)}

theorem Prepared.admitted_iff (h : Prepared nfc action p bound) :
    validRoute p = .ok p.route ↔ p.route.all visible = true := by
  obtain ⟨adapter, hadapter, hversion⟩ := h.adapter
  obtain ⟨hfound, hmethod, hrole⟩ := exactAction_ok hadapter
  rw [← h.scenario] at hfound
  rw [← h.method] at hmethod
  rw [← h.role] at hrole
  have hprofile : (p.semanticAuthRole = "anonymous" → p.authProfile = "anonymous") ∧
      (p.semanticAuthRole ≠ "anonymous" →
        ["bearer", "cookie_jar", "x_api_key"].contains p.authProfile = true) := by
    have hrequire := h.profile
    unfold requireProfile at hrequire
    split at hrequire
    · next hanonymous =>
        exact ⟨fun _ => (require_ok _ _ _).mp hrequire, fun hn => absurd hanonymous hn⟩
    · next hnot => exact ⟨fun ha => absurd ha hnot, fun _ => (require_ok _ _ _).mp hrequire⟩
  have hbraces := h.safe.noBraces h.filled
  have hlength : p.route.length ≤ 2048 := by
    have := length_le_size p.route
    have := h.safe.size
    omega
  have hne : p.route ≠ [] := by
    intro hempty
    have := h.safe.head
    simp [hempty] at this
  have hmarks : ∀ c ∈ p.route, c ∉ points "%\\?#\x7b\x7d" := by
    intro c hc hmem
    have hsplit : points "%\\?#\x7b\x7d" = points "%\\?#" ++ [openBrace, closeBrace] := rfl
    rw [hsplit, List.mem_append] at hmem
    cases hmem with
    | inl hmem => exact h.safe.plain c hc hmem
    | inr hmem =>
      simp only [List.mem_cons, List.not_mem_nil, or_false] at hmem
      obtain rfl | rfl := hmem
      · exact hbraces.1 hc
      · exact hbraces.2 hc
  have hvisible : p.route.all visible = true ↔
      (∀ c ∈ p.route, c < 0x80) ∧ ∀ c ∈ p.route, ¬ (c < 0x21 ∨ c = 0x7f) := by
    rw [List.all_eq_true, ← forall₂_and]
    exact forall₂_congr fun c hc => visible_iff (h.safe.controls c hc)
  rw [hvisible]
  unfold validRoute
  simp only [bind_ok, require_ok, hfound, pure, Except.pure, Bool.and_eq_true, decide_eq_true_eq,
    Bool.not_eq_true', List.all_eq_true, List.any_eq_false, exists_const, Bool.or_eq_true]
  constructor
  · rintro ⟨-, -, hascii, ⟨-, hbytes⟩, -⟩
    exact ⟨hascii, hbytes⟩
  · rintro ⟨hascii, hbytes⟩
    refine ⟨adapterOf_methods hfound hmethod, ⟨⟨⟨⟨⟨hversion, hmethod⟩, hrole⟩, h.effect⟩,
      ?_⟩, ?_⟩, hascii,
      ⟨⟨⟨⟨⟨⟨⟨hne, hlength⟩, h.safe.head⟩, ?_⟩, ?_⟩, h.safe.slashes⟩, ?_⟩, hbytes⟩, trivial⟩
    · by_cases hanonymous : p.semanticAuthRole = "anonymous"
      · simp [hanonymous, hprofile.1 hanonymous]
      · simp [hanonymous]
    · by_cases hanonymous : p.semanticAuthRole = "anonymous"
      · simp [hanonymous]
      · rw [hprofile.2 hanonymous, Bool.not_true, Bool.and_false]
    · exact decide_eq_false (not_doubled_head h.safe.slashes)
    · intro c hc hmem
      exact hmarks c hc (List.contains_iff_mem.mp hmem)
    · intro s hs hmem
      exact h.safe.dots s hs (List.contains_iff_mem.mp hmem)

theorem Prepared.admission (h : Prepared nfc action p bound) :
    validRoute p = if p.route.all visible then .ok p.route else .error
    { code := .invalidRoute } := by
  split
  · next hvisible => exact h.admitted_iff.mpr hvisible
  · next hvisible =>
    cases validRoute_cases p with
    | inl hok => exact absurd (h.admitted_iff.mp hok) hvisible
    | inr herror => exact herror

theorem Prepared.value_ok (h : Prepared nfc action p bound) {name : Text}
    (hname : .hole name ∈ tokens 0 (nfc action.routeTemplate)) :
    SegmentOk (valueOf bound name) := by
  apply h.values
  exact List.mem_filterMap.mpr ⟨_, hname, rfl⟩

/-- In whatever order the names are replaced, the placeholders are filled at once. -/
theorem Prepared.replaced (h : Prepared nfc action p bound) {order : List Text}
    (horder : order.Perm (placeholdersOf (nfc action.routeTemplate))) :
    replaceNames bound order (nfc action.routeTemplate) =
      substitute bound (tokens 0 (nfc action.routeTemplate)) := by
  have htext : untoken (tokens 0 (nfc action.routeTemplate)) = nfc action.routeTemplate :=
    untoken_tokens 0 _
  have hfilled : replaceNames bound order (untoken (tokens 0 (nfc action.routeTemplate))) =
      substitute bound (tokens 0 (nfc action.routeTemplate)) := by
    apply replaceNames_substitute
    · intro name hname
      obtain ⟨t, ht, heq⟩ := List.mem_filterMap.mp (horder.mem_iff.mp hname)
      cases t with
      | char c => cases heq
      | hole other =>
        cases heq
        exact mem_tokens_name ht
    · intro name hname c hc
      have hvalue := (h.values name (horder.mem_iff.mp hname)).chars c hc
      exact (fixtureCharacter_visible hvalue).2.2
    · exact h.template.clean
    · intro name hname
      exact horder.mem_iff.mpr (List.mem_filterMap.mpr ⟨_, hname, rfl⟩)
  rwa [htext] at hfilled

theorem Prepared.route_eq (h : Prepared nfc action p bound) :
    p.route = nfc (substitute bound (tokens 0 (nfc action.routeTemplate))) := by
  rw [h.route, h.replaced (List.mergeSort_perm _ _)]

theorem Prepared.no_slash (h : Prepared nfc action p bound) {name : Text}
    (hname : .hole name ∈ tokens 0 (nfc action.routeTemplate)) : slash ∉ valueOf bound name := by
  intro hmem
  exact (fixtureCharacter_visible ((h.value_ok hname).chars slash hmem)).2.1 rfl

theorem Prepared.length_segments (h : Prepared nfc action p bound) (hnfc : Nfc nfc) :
    (segments p.route).length = (segments (nfc action.routeTemplate)).length := by
  have hcount := count_slash h.template.clean fun name hname => h.no_slash hname
  rw [Routes.length_segments, Routes.length_segments, h.route_eq, hnfc.slashes, hcount,
    untoken_tokens, List.drop_zero]

theorem Prepared.matched (h : Prepared nfc action p bound)
    (hnormal : nfc (substitute bound (tokens 0 (nfc action.routeTemplate))) =
      substitute bound (tokens 0 (nfc action.routeTemplate))) :
    matchesEvidenceTemplate p.route (nfc action.routeTemplate) = true := by
  have hmatch := matches_substitute bound h.template.clean h.template.noBackslash
    fun name hname => ⟨(h.value_ok hname).nonempty, h.no_slash hname⟩
  rwa [untoken_tokens, List.drop_zero, ← hnormal, ← h.route_eq] at hmatch

theorem Prepared.visible_filled (h : Prepared nfc action p bound)
    (hvisible : ∀ c ∈ nfc action.routeTemplate, visible c = true) :
    ∀ c ∈ substitute bound (tokens 0 (nfc action.routeTemplate)), visible c = true := by
  intro c hc
  obtain ⟨t, ht, hc⟩ := List.mem_flatMap.mp hc
  cases t with
  | char d =>
    rw [List.mem_singleton.mp hc]
    apply hvisible
    have hmem := mem_untoken_char ht
    rwa [untoken_tokens, List.drop_zero] at hmem
  | hole name => exact (fixtureCharacter_visible ((h.value_ok ht).chars c hc)).1

end Prepared

theorem mem_segments_dot {route : Text} (h : SafeRoute route) : ∀ s ∈ segments route,
    s ∉ dotSegments := by
  have hhead := h.head
  intro s hs
  cases route with
  | nil => cases hhead
  | cons c route =>
    have hc : c = slash := by simpa using hhead
    subst hc
    have hdots := h.dots
    unfold segments List.splitOn at hs hdots
    rw [List.splitOnP_cons_eq_if_modifyHead, if_pos (by simp)] at hs hdots
    cases hs with
    | head => decide
    | tail _ hs => exact hdots s hs

/-- The route of a prepared action is its template filled, as NFC leaves it: of as many segments,
with no dot segment and no character of a query, an escape or a placeholder; the transport admits it
exactly when it is visible ASCII. -/
theorem prepared_route (nfc : Text → Text) (hnfc : Nfc nfc) (action : Action)
    (fixtureValues : Option (List (Text × Text))) (authProfile : Option String) (p : PreparedAction)
    (h : prepareAction nfc action fixtureValues authProfile = .ok p) :
    ∃ bound filled, boundValues action.fixtureBindings [] = .ok bound ∧
      filled = substitute bound (tokens 0 (nfc action.routeTemplate)) ∧
      (∀ order : List Text, order.Perm (placeholdersOf (nfc action.routeTemplate)) →
        replaceNames bound order (nfc action.routeTemplate) = filled) ∧
      p.route = nfc filled ∧
      (segments p.route).length = (segments (nfc action.routeTemplate)).length ∧
      (∀ s ∈ segments p.route, s ∉ dotSegments) ∧
      (∀ c ∈ p.route, c ∉ points "?#%\\" ∧ c ≠ openBrace ∧ c ≠ closeBrace) ∧
      (nfc filled = filled → p.route = filled ∧
        matchesEvidenceTemplate p.route (nfc action.routeTemplate) = true) ∧
      (validRoute p =
        if p.route.all visible then .ok p.route else .error { code := .invalidRoute }) ∧
      ((∀ c ∈ nfc action.routeTemplate, visible c = true) →
        nfc filled = filled ∧ validRoute p = .ok p.route) := by
  obtain ⟨bound, hbound, prepared⟩ := prepareAction_ok h
  refine ⟨bound, _, hbound, rfl, fun order horder => prepared.replaced horder, prepared.route_eq,
    prepared.length_segments hnfc, mem_segments_dot prepared.safe, ?_, ?_, prepared.admission, ?_⟩
  · intro c hc
    have hbraces := prepared.safe.noBraces prepared.filled
    refine ⟨fun hmem => prepared.safe.plain c hc ?_, ?_, ?_⟩
    · have hsame : ∀ d ∈ points "?#%\\", d ∈ points "%\\?#" := by decide
      exact hsame c hmem
    · rintro rfl
      exact hbraces.1 hc
    · rintro rfl
      exact hbraces.2 hc
  · intro hnormal
    refine ⟨?_, prepared.matched hnormal⟩
    rw [prepared.route_eq, hnormal]
  · intro hvisible
    have hfilled := prepared.visible_filled hvisible
    have hnormal := hnfc.ascii _ fun c hc => by
      have hbounds := hfilled c hc
      simp only [visible, Bool.and_eq_true, decide_eq_true_eq] at hbounds
      omega
    refine ⟨hnormal, prepared.admitted_iff.mpr ?_⟩
    rw [List.all_eq_true, prepared.route_eq, hnormal]
    exact hfilled

section Sample

/-- NFC where the one mark above a letter is an acute accent above `e`. -/
def composeAcute : Text → Text
  | 0x65 :: 0x301 :: s => 0xe9 :: composeAcute s
  | c :: s => c :: composeAcute s
  | [] => []

def ownerRead (template : Text) (bindings : List Binding) : Action where
  ordinal := 0
  scenarioId := "object_ownership_read"
  adapterVersion := "1"
  method := "GET"
  routeTemplate := template
  fixtureBindings := bindings
  semanticAuthRole := "object_owner"
  authProfile := "bearer"
  assertionClass := "object_ownership"
  allowedStatusCodes := [200, 403, 404]
  allowedBodyShapes := ["absent", "json_object"]
  sideEffectClass := "read_only"

def preparedRead (route : Text) : PreparedAction :=
  ⟨"object_ownership_read", "1", "GET", route, "object_owner", "bearer", "read_only"⟩

/-- A template with a space is prepared and then refused; under an accent, a value is composed with
it and the route no longer matches its template. -/
theorem prepared_route_spaced :
    prepareAction composeAcute (ownerRead (points "/a b") []) none none =
        .ok (preparedRead (points "/a b")) ∧
      validRoute (preparedRead (points "/a b")) = .error { code := .invalidRoute } ∧
      prepareAction composeAcute
          (ownerRead (points "/\x7bid\x7d" ++ [0x301]) [⟨points "id", points "e"⟩]) none none =
        .ok (preparedRead [slash, 0xe9]) ∧
      substitute [(points "id", points "e")] (tokens 0 (points "/\x7bid\x7d" ++ [0x301])) ≠
        [slash, 0xe9] ∧
      matchesEvidenceTemplate [slash, 0xe9] (points "/\x7bid\x7d" ++ [0x301]) = false ∧
      validRoute (preparedRead [slash, 0xe9]) = .error { code := .invalidRoute } := by
  decide +kernel

theorem composeAcute_lawful : Nfc composeAcute := by
  constructor
  · intro s hs
    fun_induction composeAcute s with
    | case1 s _ => exact absurd (hs 0x301 (by simp)) (by decide)
    | case2 c s _ ih => rw [ih fun d hd => hs d (.tail _ hd)]
    | case3 => rfl
  · intro s
    fun_induction composeAcute s with
    | case1 s ih =>
      rw [List.count_cons_of_ne (by decide), List.count_cons_of_ne (by decide),
        List.count_cons_of_ne (by decide), ih]
    | case2 c s _ ih => rw [List.count_cons, List.count_cons, ih]
    | case3 => rfl

def itemRead : Action := ownerRead (points "/items/\x7bid\x7d") [⟨points "id", points "a:1"⟩]

def itemRoute : PreparedAction := preparedRead (points "/items/a:1")

theorem prepared_route_sample :
    ∃ bound filled, boundValues itemRead.fixtureBindings [] = .ok bound ∧
      filled = substitute bound (tokens 0 (composeAcute itemRead.routeTemplate)) ∧
      (∀ order : List Text, order.Perm (placeholdersOf (composeAcute itemRead.routeTemplate)) →
        replaceNames bound order (composeAcute itemRead.routeTemplate) = filled) ∧
      itemRoute.route = composeAcute filled ∧
      (segments itemRoute.route).length = (segments (composeAcute itemRead.routeTemplate)).length ∧
      (∀ s ∈ segments itemRoute.route, s ∉ dotSegments) ∧
      (∀ c ∈ itemRoute.route, c ∉ points "?#%\\" ∧ c ≠ openBrace ∧ c ≠ closeBrace) ∧
      (composeAcute filled = filled → itemRoute.route = filled ∧
        matchesEvidenceTemplate itemRoute.route (composeAcute itemRead.routeTemplate) = true) ∧
      (validRoute itemRoute =
        if itemRoute.route.all visible then .ok itemRoute.route
        else .error { code := .invalidRoute }) ∧
      ((∀ c ∈ composeAcute itemRead.routeTemplate, visible c = true) →
        composeAcute filled = filled ∧ validRoute itemRoute = .ok itemRoute.route) :=
  prepared_route composeAcute composeAcute_lawful itemRead none none itemRoute (by decide +kernel)

end Sample

end Heel.Routes
