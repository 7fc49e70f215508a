import Heel.Lib.Http
import Heel.Runner.HttpTransport
import Heel.Saas.GuardAgreement

/-! The bytes that `TargetHTTPSClient.request` writes: one request of HTTP/1.1 for each action,
route and credential that is admitted, and another one for any other. -/
namespace Heel.Transport
open Lib Lib.JsonText Lib.Checks Lib.Url Lib.Http Routes

/-- A client is pinned to the host of an origin that the guard has accepted. -/
structure Client where
  host : NetworkGuard.Host
  hostname : Text
  accepted : ∃ origin, NetworkGuard.Runner.normalizeTargetOrigin host origin =
    .ok (NetworkGuard.scheme ++ hostname)

/-- What is written before the head of a credential, and after it. -/
def requestBytes (client : Client) (method : String) (route auth : Text) : Text :=
  points method ++ points " " ++ route ++ points " HTTP/1.1\r\n" ++ points "Host: " ++
    client.hostname ++ points "\r\n" ++ points "Accept: application/json\r\n" ++
    points "Accept-Encoding: identity\r\n" ++
      points "Connection: close\r\n" ++ auth ++ points "\r\n"

/-- The bytes of `request` for an action and a credential that are admitted. -/
def written (client : Client) (action : PreparedAction) (credential : Credential) :
    Except TransportFailure Text := do
  let route ← validRoute action
  let auth ← credentialHeader action.authProfile credential
  return requestBytes client action.method route auth

def equalsSign : ℕ := '='.toNat
def semicolon : ℕ := ';'.toNat

def cookieText (cookie : Text × Option Text) : Text :=
  cookie.1 ++ equalsSign :: cookie.2.getD []

def cookieOrder (cookies : List (Text × Option Text)) : List (Text × Option Text) :=
  cookies.mergeSort fun a b => textOrder a.1 b.1

def credentialFields (profile : String) : Credential → List (Text × Text)
  | .none => []
  | .text value =>
    if profile = "bearer" then [(points "Authorization", points "Bearer " ++ value)]
    else [(points "X-API-Key", value)]
  | .jar cookies =>
    [(points "Cookie", (points "; ").intercalate ((cookieOrder cookies).map cookieText))]
  | .other => []

/-- The request that an action and a credential stand for. -/
def requestOf (client : Client) (action : PreparedAction) (credential : Credential) : Request where
  method := points action.method
  target := action.route
  fields := [(points "Host", client.hostname), (points "Accept", points "application/json"),
    (points "Accept-Encoding", points "identity"), (points "Connection", points "close")] ++
    credentialFields action.authProfile credential

/-- A credential that is no other: the cookies of a jar are a dictionary. -/
def Credential.Same : Credential → Credential → Prop
  | .none, .none => True
  | .text value, .text value' => value = value'
  | .jar cookies, .jar cookies' => cookies.Perm cookies'
  | .other, .other => True
  | _, _ => False

variable {client : Client} {action : PreparedAction} {credential : Credential}
  {route auth bytes : Text}

theorem validRoute_ok (h : validRoute action = .ok route) :
    (action.method = "GET" ∨ action.method = "HEAD") ∧ action.route = route ∧
    VisibleForm route := by
  simp only [validRoute, bind_ok, require_ok] at h
  obtain ⟨-, hmethod, h⟩ := h
  split at h
  · cases h
  · simp only [bind_ok, require_ok, pure, Except.pure, Except.ok.injEq] at h
    obtain ⟨-, -, -, hascii, -, hshape, rfl⟩ := h
    have hmethod : action.method = "GET" ∨ action.method = "HEAD" := by simpa using hmethod
    refine ⟨hmethod, rfl, ?_, fun c hc => ?_⟩
    · simp only [Bool.and_eq_true, decide_eq_true_eq] at hshape
      exact hshape.1.1.1.1.1.2
    · have hlow := List.all_eq_true.mp hascii c hc
      simp only [Bool.and_eq_true, Bool.not_eq_true', List.any_eq_false] at hshape
      have hcontrol := hshape.2 c hc
      simp only [Bool.or_eq_true, decide_eq_true_eq, not_or] at hlow hcontrol
      simp only [Http.visible, Bool.and_eq_true, decide_eq_true_eq]
      omega

/-- A cookie that is admitted: its name is a token without an equals sign, its value is visible. -/
structure CookieOk (cookie : Text × Option Text) : Prop where
  text : ∃ value, cookie.2 = some value
  name : isToken cookie.1 = true
  plain : equalsSign ∉ cookie.1 ∧ semicolon ∉ cookieText cookie
  visible : ∀ c ∈ cookieText cookie, Http.visible c = true
  ne : cookieText cookie ≠ []

theorem visible_token {c : ℕ} (h : tokenPoint c = true) : Http.visible c = true := by
  have hmarks : ∀ c ∈ points "!#$%&'*+-.^_`|~", Http.visible c = true := by decide
  simp only [tokenPoint, isAlnum, isLower, isUpper, isDigit, Bool.or_eq_true, Bool.and_eq_true,
    decide_eq_true_eq, List.contains_iff_mem] at h
  rcases h with halnum | hmark
  · simp only [Http.visible, Bool.and_eq_true, decide_eq_true_eq]
    omega
  · exact hmarks c hmark

theorem token_cookieName {name : Text} (h : cookieName name = true) : isToken name = true := by
  simp only [cookieName, Bool.and_eq_true, decide_eq_true_eq, List.all_eq_true] at h
  obtain ⟨⟨hpos, -⟩, hall⟩ := h
  rw [isToken, Bool.and_eq_true, decide_eq_true_eq, List.all_eq_true]
  refine ⟨List.ne_nil_of_length_pos hpos, fun c hc => ?_⟩
  have hpoint := hall c hc
  simp only [tokenPoint, isAlnum, isLetter, isLower, isUpper, Bool.or_eq_true] at hpoint ⊢
  tauto

theorem cookieOk {name value : Text} (hname : cookieName name = true)
    (hvalue : cookieValue value = true) :
    CookieOk (name, some value) := by
  have htoken := token_cookieName hname
  simp only [cookieValue, Bool.and_eq_true, decide_eq_true_eq, List.all_eq_true] at hvalue
  obtain ⟨-, hpoints⟩ := hvalue
  have hvisible : ∀ c ∈ value, Http.visible c = true := fun c hc => (hpoints c hc).1
  have hsemicolon : semicolon ∉ value := fun hmem => absurd (hpoints _ hmem).2 (by decide)
  refine ⟨⟨value, rfl⟩, htoken, ⟨not_mem_token htoken (by decide), ?_⟩, fun c hc => ?_, by
    simp [cookieText]⟩
  · rw [cookieText, List.mem_append, List.mem_cons]
    rintro (hmem | hmem | hmem)
    · exact not_mem_token htoken (by decide) hmem
    · exact absurd hmem (by decide)
    · exact hsemicolon hmem
  · rw [cookieText, List.mem_append, List.mem_cons] at hc
    rw [isToken, Bool.and_eq_true, List.all_eq_true] at htoken
    rcases hc with hc | rfl | hc
    · exact visible_token (htoken.2 c hc)
    · decide
    · exact hvisible c hc

theorem cookies_ok {cookies : List (Text × Option Text)} {pairs : List Text}
    (h : cookies.mapM (fun (name, value) => match value with
      | some value =>
        if cookieName name && cookieValue value then
          (.ok (name ++ equalsSign :: value) : Except TransportFailure Text)
        else .error { code := .invalidAuth }
      | none => .error { code := .invalidAuth }) = .ok pairs) :
    pairs = cookies.map cookieText ∧ ∀ cookie ∈ cookies, CookieOk cookie := by
  rw [mapM_ok] at h
  induction h with
  | nil => exact ⟨rfl, by simp⟩
  | @cons cookie pair rest pairs hpair _ ih =>
    obtain ⟨rfl, hrest⟩ := ih
    obtain ⟨name, value⟩ := cookie
    cases value with
    | none => cases hpair
    | some value =>
      dsimp only at hpair
      split at hpair
      · next hok =>
        cases hpair
        rw [Bool.and_eq_true] at hok
        exact ⟨rfl, List.forall_mem_cons.mpr ⟨cookieOk hok.1 hok.2, hrest⟩⟩
      · cases hpair

/-- A line of a field as the transport writes it. -/
def fieldText (field : Text × Text) : Text := field.1 ++ points ": " ++ field.2 ++ crlf

/-- What is admitted of a credential, and the fields that it is written as. -/
structure Admitted (profile : String) (credential : Credential) (auth : Text) : Prop where
  text : auth = (credentialFields profile credential).flatMap fieldText
  fields : ∀ field ∈ credentialFields profile credential, isToken field.1 = true ∧
    isValue field.2 = true ∧ lower field.1 ∉ bodyFields ∧ ∀ c ∈ field.2, c = space ∨
    Http.visible c = true
  cookies : ∀ cookies, credential = .jar cookies → ∀ cookie ∈ cookieOrder cookies, CookieOk cookie
  known : credential ≠ .other

theorem isValue_of_visible {s : Text} (h : ∀ c ∈ s, c = space ∨ Http.visible c = true)
    (hhead : ∀ c, s.head? = some c → Http.visible c = true)
    (hlast : ∀ c, s.getLast? = some c → Http.visible c = true) : isValue s = true := by
  have hblank : ∀ c, Http.visible c = true → blank c = false := by
    intro c hc
    rw [Bool.eq_false_iff, blank, ne_eq, Bool.or_eq_true, decide_eq_true_eq, decide_eq_true_eq]
    rintro (rfl | rfl) <;> exact absurd hc (by decide)
  rw [isValue, Bool.and_eq_true, Bool.and_eq_true, List.all_eq_true, Bool.not_eq_true',
    Bool.not_eq_true']
  refine ⟨⟨fun c hc => ?_, ?_⟩, ?_⟩
  · rcases h c hc with rfl | hvisible
    · decide
    · rw [hvisible]
      rfl
  · cases hc : s.head? with
    | none => rfl
    | some c => exact hblank c (hhead c hc)
  · cases hc : s.getLast? with
    | none => rfl
    | some c => exact hblank c (hlast c hc)

theorem token_ok {header value : Text} {invalid : TransportFailure}
    (h : credentialHeader.token header value invalid = .ok auth) :
    auth = header ++ value ++ crlf ∧ value ≠ [] ∧ ∀ c ∈ value, Http.visible c = true := by
  simp only [credentialHeader.token, bind_ok, require_ok, pure, Except.pure, Except.ok.injEq,
    Bool.and_eq_true, decide_eq_true_eq, List.all_eq_true] at h
  obtain ⟨-, ⟨⟨hne, -⟩, hvisible⟩, rfl⟩ := h
  exact ⟨rfl, hne, hvisible⟩

theorem last_append {α : Type} {xs ys : List α} {c : α} (hne : ys ≠ [])
    (h : (xs ++ ys).getLast? = some c) : c ∈ ys := by
  rw [List.getLast?_append_of_ne_nil _ hne] at h
  exact List.mem_of_mem_getLast? h

theorem isValue_bearer {value : Text} (hne : value ≠ []) (h : ∀ c ∈ value, Http.visible c = true) :
    (∀ c ∈ points "Bearer " ++ value, c = space ∨ Http.visible c = true) ∧
      isValue (points "Bearer " ++ value) = true := by
  have hpoints : ∀ c ∈ points "Bearer ", c = space ∨ Http.visible c = true := by decide
  have hall : ∀ c ∈ points "Bearer " ++ value, c = space ∨ Http.visible c = true := by
    intro c hc
    rcases List.mem_append.mp hc with hc | hc
    · exact hpoints c hc
    · exact .inr (h c hc)
  refine ⟨hall, isValue_of_visible hall (fun c hc => ?_) fun c hc => h c (last_append hne hc)⟩
  cases hc
  decide

theorem isValue_cookies {cookies : List (Text × Option Text)} (hne : cookies ≠ [])
    (h : ∀ cookie ∈ cookies, CookieOk cookie) :
    (∀ c ∈ (points "; ").intercalate (cookies.map cookieText), c = space ∨ Http.visible c = true) ∧
      isValue ((points "; ").intercalate (cookies.map cookieText)) = true := by
  have hpoints : ∀ c ∈ points "; ", c = space ∨ Http.visible c = true := by decide
  have hall : ∀ c ∈ (points "; ").intercalate (cookies.map cookieText),
      c = space ∨ Http.visible c = true := by
    intro c hc
    rcases of_mem_intercalate hc with hc | ⟨t, ht, hc⟩
    · exact hpoints c hc
    · obtain ⟨cookie, hcookie, rfl⟩ := List.mem_map.mp ht
      exact .inr ((h cookie hcookie).visible c hc)
  have hends : ∀ cookies : List (Text × Option Text), cookies ≠ [] →
      (∀ cookie ∈ cookies, CookieOk cookie) →
      (∀ c, ((points "; ").intercalate (cookies.map cookieText)).head? = some c →
        Http.visible c = true) ∧
      ∀ c, ((points "; ").intercalate (cookies.map cookieText)).getLast? = some c →
        Http.visible c = true := by
    intro cookies hne h
    induction cookies with
    | nil => exact absurd rfl hne
    | cons cookie cookies ih =>
      have hcookie := h cookie List.mem_cons_self
      cases cookies with
      | nil =>
        rw [List.map_singleton, List.intercalate_singleton]
        exact ⟨fun c hc => hcookie.visible c (List.mem_of_mem_head? hc),
          fun c hc => hcookie.visible c (List.mem_of_mem_getLast? hc)⟩
      | cons cookie' cookies =>
        obtain ⟨hhead, hlast⟩ := ih (by simp) fun c hc => h c (List.mem_cons_of_mem _ hc)
        have hmore : (points "; ").intercalate ((cookie' :: cookies).map cookieText) ≠ [] := by
          have hfirst := (h cookie' (by simp)).ne
          rw [List.map_cons]
          cases hrest : cookies.map cookieText with
          | nil => rwa [List.intercalate_singleton]
          | cons t texts => simp [List.intercalate_cons_cons, hfirst]
        rw [List.map_cons, List.map_cons, List.intercalate_cons_cons, ← List.map_cons] at *
        refine ⟨fun c hc => ?_, fun c hc => ?_⟩
        · rw [List.append_assoc, List.head?_append_of_ne_nil _ hcookie.ne] at hc
          exact hcookie.visible c (List.mem_of_mem_head? hc)
        · rw [List.getLast?_append_of_ne_nil _ hmore] at hc
          exact hlast c hc
  obtain ⟨hhead, hlast⟩ := hends cookies hne h
  exact ⟨hall, isValue_of_visible hall hhead hlast⟩

theorem credentialHeader_ok {profile : String}
    (h : credentialHeader profile credential = .ok auth) :
    Admitted profile credential auth := by
  unfold credentialHeader at h
  dsimp only at h
  split at h
  · cases h
    exact ⟨rfl, by simp [credentialFields], by simp, by simp⟩
  · next value =>
    obtain ⟨rfl, hne, hvisible⟩ := token_ok h
    obtain ⟨hall, hvalue⟩ := isValue_bearer hne hvisible
    have hname : isToken (points "Authorization") = true ∧
        lower (points "Authorization") ∉ bodyFields := by
      decide
    refine ⟨?_, ?_, by simp, by simp⟩
    · simp [credentialFields, fieldText, points]
    · intro field hfield
      cases List.mem_singleton.mp hfield
      exact ⟨hname.1, hvalue, hname.2, hall⟩
  · next value =>
    obtain ⟨rfl, hne, hvisible⟩ := token_ok h
    have hname : isToken (points "X-API-Key") = true ∧ lower (points "X-API-Key") ∉ bodyFields := by
      decide
    refine ⟨?_, ?_, by simp, by simp⟩
    · simp [credentialFields, fieldText, points]
    · intro field hfield
      cases List.mem_singleton.mp hfield
      exact ⟨hname.1, isValue_of_visible (fun c hc => .inr (hvisible c hc))
        (fun c hc => hvisible c (List.mem_of_mem_head? hc))
        (fun c hc => hvisible c (List.mem_of_mem_getLast? hc)), hname.2,
        fun c hc => .inr (hvisible c hc)⟩
  · next cookies =>
    simp only [bind_ok, require_ok, pure, Except.pure, Except.ok.injEq] at h
    obtain ⟨-, hsome, pairs, hpairs, -, -, rfl⟩ := h
    have hne : cookies ≠ [] := by
      rw [Bool.and_eq_true, decide_eq_true_eq] at hsome
      exact hsome.1
    obtain ⟨rfl, hok⟩ := cookies_ok hpairs
    have hsorted : cookieOrder cookies ≠ [] := by
      rw [← List.length_pos_iff, cookieOrder, List.length_mergeSort, List.length_pos_iff]
      exact hne
    obtain ⟨hall, hvalue⟩ := isValue_cookies hsorted hok
    have hname : isToken (points "Cookie") = true ∧ lower (points "Cookie") ∉ bodyFields := by
      decide
    refine ⟨?_, ?_, ?_, by simp⟩
    · simp [credentialFields, fieldText, points, cookieOrder, crlf, cr, lf]
    · intro field hfield
      cases List.mem_singleton.mp hfield
      exact ⟨hname.1, hvalue, hname.2, hall⟩
    · intro cookies' hsame
      cases hsame
      exact hok
  · cases h

def fieldLine (field : Text × Text) : Text := field.1 ++ points ": " ++ field.2

theorem message_fields (line : Text) (fields : List (Text × Text)) :
    message (line :: fields.map fieldLine) = line ++ crlf ++ fields.flatMap fieldText ++ crlf := by
  rw [message, List.flatMap_cons, List.flatMap_map]
  rfl

theorem requestBytes_eq (hroute : action.route = route)
    (h : Admitted action.authProfile credential auth) :
    requestBytes client action.method route auth = message
      (requestLine (requestOf client action credential) ::
        (requestOf client action credential).fields.map fieldLine) := by
  rw [message_fields, h.text]
  simp [requestBytes, requestOf, requestLine, hroute, fieldText, points, crlf, cr, lf, space]

theorem Client.visible (client : Client) : client.hostname ≠ [] ∧
    ∀ c ∈ client.hostname, Http.visible c = true := by
  obtain ⟨origin, horigin⟩ := client.accepted
  have hverified := NetworkGuard.verified_iff.mpr (NetworkGuard.target_iff.mp horigin).2
  obtain ⟨name, hname, hpublic, -⟩ := NetworkGuard.verified_self hverified
  rw [List.append_cancel_left_eq] at hname
  rw [hname]
  constructor
  · rintro rfl
    exact absurd hpublic.several (by decide)
  · intro c hc
    have hplain := NetworkGuard.hostnameChar_plain (hpublic.chars c hc)
    simp only [Http.visible, Bool.and_eq_true, decide_eq_true_eq]
    have hrange : ∀ c ≤ 127, NetworkGuard.hostnameChar c = true → 0x21 ≤ c ∧ c ≤ 0x7e := by decide
    exact hrange c hplain.1 (hpublic.chars c hc)

theorem written_ok (h : written client action credential = .ok bytes) : ∃ route auth,
    validRoute action = .ok route ∧ Admitted action.authProfile credential auth ∧
      bytes = requestBytes client action.method route auth := by
  simp only [written, bind_ok, pure, Except.pure, Except.ok.injEq] at h
  obtain ⟨route, hroute, auth, hauth, rfl⟩ := h
  exact ⟨route, auth, hroute, credentialHeader_ok hauth, rfl⟩

theorem written_request {form : Text → Prop} (h : written client action credential = .ok bytes)
    (hform : form action.route) : IsRequest form (requestOf client action credential) bytes := by
  obtain ⟨route, auth, hroute, hauth, hbytes⟩ := written_ok h
  obtain ⟨hmethod, hsame, -⟩ := validRoute_ok hroute
  obtain ⟨-, hhost⟩ := client.visible
  have hhostname : isValue client.hostname = true :=
    isValue_of_visible (fun c hc => .inr (hhost c hc))
    (fun c hc => hhost c (List.mem_of_mem_head? hc))
    (fun c hc => hhost c (List.mem_of_mem_getLast? hc))
  have hfixed : ∀ field ∈ [(points "Accept", points "application/json"),
      (points "Accept-Encoding", points "identity"), (points "Connection", points "close")],
      isToken field.1 = true ∧ isValue field.2 = true ∧ lower field.1 ∉ bodyFields := by decide
  have hhead : isToken (points "Host") = true ∧ lower (points "Host") ∉ bodyFields := by decide
  have hfields : ∀ field ∈ (requestOf client action credential).fields, isToken field.1 = true ∧
      isValue field.2 = true ∧ lower field.1 ∉ bodyFields := by
    intro field hfield
    rw [requestOf, List.cons_append, List.mem_cons, List.mem_append] at hfield
    rcases hfield with rfl | hfield | hfield
    · exact ⟨hhead.1, hhostname, hhead.2⟩
    · exact hfixed field hfield
    · obtain ⟨hname, hvalue, hbody, -⟩ := hauth.fields field hfield
      exact ⟨hname, hvalue, hbody⟩
  refine ⟨?_, hform, fun field hfield => (hfields field hfield).2.2, _, ?_,
    hbytes.trans (requestBytes_eq hsame hauth)⟩
  · have hmethods : isToken (points "GET") = true ∧ isToken (points "HEAD") = true := by decide
    rcases hmethod with hmethod | hmethod <;> rw [requestOf, hmethod]
    · exact hmethods.1
    · exact hmethods.2
  · rw [List.forall₂_map_right_iff, List.forall₂_same]
    intro field hfield
    obtain ⟨hname, hvalue, -⟩ := hfields field hfield
    refine ⟨hname, hvalue, [space], [], by simp [blank], by simp, ?_⟩
    rw [fieldLine, List.append_assoc, List.append_nil]
    rfl

theorem cookieText_inj {cookie cookie' : Text × Option Text} (h : CookieOk cookie)
    (h' : CookieOk cookie') (heq : cookieText cookie = cookieText cookie') : cookie = cookie' := by
  obtain ⟨value, hvalue⟩ := h.text
  obtain ⟨value', hvalue'⟩ := h'.text
  rw [cookieText, cookieText, hvalue, hvalue', Option.getD_some, Option.getD_some] at heq
  obtain ⟨hname, htext⟩ := first_unique h.plain.1 h'.plain.1 heq
  exact Prod.ext hname (by rw [hvalue, hvalue', htext])

theorem cookies_inj {cookies cookies' : List (Text × Option Text)}
    (h : ∀ cookie ∈ cookies, CookieOk cookie) (h' : ∀ cookie ∈ cookies', CookieOk cookie)
    (heq : cookies.map cookieText = cookies'.map cookieText) : cookies = cookies' := by
  induction cookies generalizing cookies' with
  | nil => exact (List.map_eq_nil_iff.mp heq.symm).symm
  | cons cookie cookies ih =>
    cases cookies' with
    | nil => cases heq
    | cons cookie' cookies' =>
      rw [List.map_cons, List.map_cons, List.cons.injEq] at heq
      rw [cookieText_inj (h cookie List.mem_cons_self) (h' cookie' List.mem_cons_self) heq.1,
        ih (fun c hc => h c (List.mem_cons_of_mem _ hc))
          (fun c hc => h' c (List.mem_cons_of_mem _ hc)) heq.2]

theorem credential_same {profile profile' : String} {credential' : Credential} {auth' : Text}
    (h : Admitted profile credential auth) (h' : Admitted profile' credential' auth')
    (heq : credentialFields profile credential = credentialFields profile' credential') :
    credential.Same credential' := by
  have htoken : ∀ {profile : String} {value : Text}, ∃ name value', (name = points "Authorization" ∧
      value' = points "Bearer " ++ value ∨ name = points "X-API-Key" ∧ value' = value) ∧
      credentialFields profile (.text value) = [(name, value')] := by
    intro profile value
    simp only [credentialFields]
    split
    · exact ⟨_, _, .inl ⟨rfl, rfl⟩, rfl⟩
    · exact ⟨_, _, .inr ⟨rfl, rfl⟩, rfl⟩
  cases credential with
  | none =>
    cases credential' with
    | none => trivial
    | text value' =>
      obtain ⟨name, value, -, hfields⟩ := @htoken profile' value'
      rw [hfields] at heq
      cases heq
    | jar cookies' => cases heq
    | other => exact absurd rfl h'.known
  | text value =>
    obtain ⟨name, shown, hshown, hfields⟩ := @htoken profile value
    rw [hfields] at heq
    cases credential' with
    | none => cases heq
    | text value' =>
      obtain ⟨name', shown', hshown', hfields'⟩ := @htoken profile' value'
      rw [hfields', List.cons.injEq, Prod.mk.injEq] at heq
      obtain ⟨⟨rfl, rfl⟩, -⟩ := heq
      rcases hshown with ⟨rfl, rfl⟩ | ⟨rfl, rfl⟩ <;> rcases hshown' with ⟨hname, hvalue⟩ |
        ⟨hname, hvalue⟩
      · exact List.append_cancel_left hvalue
      · exact absurd hname (by decide)
      · exact absurd hname (by decide)
      · exact hvalue
    | jar cookies' =>
      rw [credentialFields, List.cons.injEq, Prod.mk.injEq] at heq
      rcases hshown with ⟨rfl, -⟩ | ⟨rfl, -⟩ <;> exact absurd heq.1.1 (by decide)
    | other => exact absurd rfl h'.known
  | jar cookies =>
    cases credential' with
    | none => cases heq
    | text value' =>
      obtain ⟨name, shown, hshown, hfields⟩ := @htoken profile' value'
      rw [hfields, credentialFields, List.cons.injEq, Prod.mk.injEq] at heq
      rcases hshown with ⟨rfl, -⟩ | ⟨rfl, -⟩ <;> exact absurd heq.1.1 (by decide)
    | jar cookies' =>
      rw [credentialFields, credentialFields, List.cons.injEq, Prod.mk.injEq] at heq
      have hok := h.cookies cookies rfl
      have hok' := h'.cookies cookies' rfl
      have hpieces : ∀ {cookies : List (Text × Option Text)},
          (∀ cookie ∈ cookies, CookieOk cookie) →
          ∀ t ∈ cookies.map cookieText, t ≠ [] ∧ semicolon ∉ t := by
        intro cookies hok t ht
        obtain ⟨cookie, hcookie, rfl⟩ := List.mem_map.mp ht
        exact ⟨(hok cookie hcookie).ne, (hok cookie hcookie).plain.2⟩
      have hsorted := cookies_inj hok hok'
        (joined_unique (c := semicolon) (hpieces hok) (hpieces hok') heq.1.2)
      have hperm : (cookieOrder cookies).Perm cookies := List.mergeSort_perm _ _
      have hperm' : (cookieOrder cookies').Perm cookies' := List.mergeSort_perm _ _
      exact hperm.symm.trans (hsorted ▸ hperm')
    | other => exact absurd rfl h'.known
  | other => exact absurd rfl h.known

/-- The bytes that are written are those of one request, with the method of the action, its route as
the target, the pinned host, at most one head of a credential and no body; the first empty line is
at the end; and no other action, route or credential of the client has these bytes. -/
theorem one_request (h : written client action credential = .ok bytes) :
    IsRequest VisibleForm (requestOf client action credential) bytes ∧
    (∀ r, IsRequest VisibleForm r bytes → r = requestOf client action credential) ∧
    ((∀ c ∈ action.route, c = Url.slash ∨ pathPoint c = true) →
      IsRequest OriginForm (requestOf client action credential) bytes) ∧
    (credentialFields action.authProfile credential).length ≤ 1 ∧
    (∃ start, bytes = start ++ (crlf ++ crlf)) ∧
    (∀ start rest, bytes = start ++ (crlf ++ (crlf ++ rest)) → rest = []) ∧
    (∀ c ∈ action.route, Http.visible c = true) ∧
    (∀ field ∈ credentialFields action.authProfile credential, ∀ c ∈ field.2,
      c = space ∨ Http.visible c = true) ∧
    ∀ action' credential', written client action' credential' = .ok bytes →
      action'.method = action.method ∧ action'.route = action.route ∧
      credential.Same credential' := by
  obtain ⟨route, auth, hroute, hauth, -⟩ := written_ok h
  obtain ⟨hmethod, rfl, hvisible⟩ := validRoute_ok hroute
  have hrequest := written_request h hvisible
  refine ⟨hrequest, fun r hr => hr.unique hrequest, fun hpath => written_request h
    ⟨hvisible.1, hpath⟩,
    ?_, hrequest.closed, fun _ _ => hrequest.ends, hvisible.2, fun field hfield =>
      (hauth.fields field hfield).2.2.2, fun action' credential' h' => ?_⟩
  · cases credential with
    | text value =>
      simp only [credentialFields]
      split <;> simp
    | _ => simp [credentialFields]
  · obtain ⟨route', auth', hroute', hauth', -⟩ := written_ok h'
    obtain ⟨hmethod', rfl, hvisible'⟩ := validRoute_ok hroute'
    have hsame := (written_request h' hvisible').unique hrequest
    rw [requestOf, requestOf, Request.mk.injEq, List.append_cancel_left_eq] at hsame
    obtain ⟨hmethods, hroutes, hfields⟩ := hsame
    refine ⟨?_, hroutes, credential_same hauth hauth' hfields.symm⟩
    have happart : points "GET" ≠ points "HEAD" := by decide
    rcases hmethod with hmethod | hmethod <;> rcases hmethod' with hmethod' | hmethod' <;>
      rw [hmethod, hmethod'] at hmethods ⊢
    · exact absurd hmethods.symm happart
    · exact absurd hmethods happart

namespace Sample

theorem sample_accepted : NetworkGuard.Runner.normalizeTargetOrigin
    (NetworkGuard.Sample.python false)
    (points "https://a.com") = .ok (NetworkGuard.scheme ++ points "a.com") := by
  decide +kernel

def pinned : Client := ⟨NetworkGuard.Sample.python false, points "a.com", _, sample_accepted⟩

/-- A read of the given route without a credential. -/
def read (route : Text) : PreparedAction where
  scenarioId := "anonymous_authenticated_read"
  adapterVersion := "1"
  method := "GET"
  route := route
  semanticAuthRole := "anonymous"
  authProfile := "anonymous"
  sideEffectClass := "read_only"

example : pinned.hostname = points "a.com" := by decide +kernel

theorem read_written : written pinned (read (points "/|")) .none =
    .ok (requestBytes pinned "GET" (points "/|") []) := by
  have hroute : validRoute (read (points "/|")) = .ok (points "/|") := by decide +kernel
  rw [written, hroute]
  rfl

def accountRead : PreparedAction :=
  { read (points "/a") with semanticAuthRole := "authenticated", authProfile := "bearer" }

theorem accountRead_written : written pinned accountRead (.text (points "t1")) =
    .ok (requestBytes pinned "GET" (points "/a") (points "Authorization: Bearer t1\r\n")) := by
  have hroute : validRoute accountRead = .ok (points "/a") := by decide +kernel
  have hauth : credentialHeader accountRead.authProfile (.text (points "t1")) =
      .ok (points "Authorization: Bearer t1\r\n") := by decide +kernel
  rw [written, hroute, hauth]
  rfl

end Sample

open Sample in
/-- A bar is admitted in a route, and stands in no target of the grammar. -/
theorem bar_in_target : ∃ bytes, written pinned (read (points "/|")) .none = .ok bytes ∧
    ¬ ∃ r, IsRequest OriginForm r bytes := by
  refine ⟨_, read_written, fun ⟨r, hr⟩ => ?_⟩
  have hrequest := @written_request _ _ _ _ VisibleForm read_written ⟨rfl, by decide⟩
  have hsame := (hr.imp fun _ => OriginForm.visible).unique hrequest
  have htarget := hr.target.2 '|'.toNat (by rw [hsame]; decide)
  exact absurd htarget (by decide)

open Sample in
/-- The request of a token has one head of it, and no other token gives these bytes. -/
theorem one_request_sample : ∃ bytes,
    written pinned accountRead (.text (points "t1")) = .ok bytes ∧
    IsRequest OriginForm (requestOf pinned accountRead (.text (points "t1"))) bytes ∧
    (∃ start, bytes = start ++ (crlf ++ crlf)) ∧
    (∀ start rest, bytes = start ++ (crlf ++ (crlf ++ rest)) → rest = []) ∧
    written pinned accountRead (.text (points "t2")) ≠ .ok bytes := by
  obtain ⟨-, -, horigin, -, hclosed, hends, -, -, hunique⟩ := one_request accountRead_written
  refine ⟨_, accountRead_written, horigin (by decide), hclosed, hends, fun h => ?_⟩
  obtain ⟨-, -, hsame⟩ := hunique _ _ h
  exact absurd hsame (by decide : points "t1" ≠ points "t2")

end Heel.Transport
