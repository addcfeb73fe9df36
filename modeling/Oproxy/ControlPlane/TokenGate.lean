import Oproxy.ControlPlane.Auth

/-!
# The admin token gate

Where a token is configured, the two layers together let a request through to a handler only if its path is public
or it carries the token.  Neither layer gives this alone: the authentication layer exempts absolute-form requests
to other hosts, and the dispatch layer lets the setup endpoints through for every host.
-/

namespace Oproxy

open Auth

/-- The pair of a query which `find_map` stops at: the first one with the key `token` or `admin_token`. -/
def FirstTokenPair (query token : Str) : Prop :=
  ∃ before pair after, Str.split '&' query = before ++ pair :: after ∧
    (pair = ("token=" : Str) ++ token ∨ pair = ("admin_token=" : Str) ++ token) ∧
    ∀ p ∈ before, ∀ key ∈ (["token", "admin_token"].map String.toList : List Str), p ≠ key ∧ ∀ v, p ≠ key ++ '=' :: v

/-- The request carries `token` in one of the four places where it is looked for. -/
inductive CarriesToken (req : AdminRequest) (token : Str) : Prop where
  | header (value : Str) (h : req.headers.getStr "x-oproxy-admin-token" = some value) (hv : value.trim = token)
  | bearer (value : Str) (h : req.headers.getStr "authorization" = some (("Bearer " : Str) ++ value))
      (hv : value.trim = token)
  | cookie (cookies cookie value : Str) (h : req.headers.getStr "cookie" = some cookies)
      (hmem : cookie ∈ Str.split ';' cookies) (hc : cookie.trim = ("oproxy_admin_token=" : Str) ++ value)
      (hv : value.trim = token)
  | query (query : Str) (h : req.uri.query = some query) (hq : FirstTokenPair query token)

namespace Auth

private theorem pair_key_value {pair key value : Str} (h : (Str.splitOnce '=' pair).getD (pair, []) = (key, value)) :
    (pair = key ∧ value = [] ∧ '=' ∉ pair) ∨ (pair = key ++ '=' :: value ∧ '=' ∉ key) := by
  cases hs : Str.splitOnce '=' pair with
  | none =>
    rw [hs] at h
    obtain ⟨rfl, rfl⟩ := Prod.mk.inj h
    exact Or.inl ⟨rfl, rfl, Str.splitOnce_eq_none.1 hs⟩
  | some p =>
    rw [hs] at h
    simp only [Option.getD_some] at h
    rw [h] at hs
    exact Or.inr (Str.splitOnce_eq_some.1 hs)

private theorem pair_of_key {key : Str} (hkey : '=' ∉ key) {pair : Str} (h : pair = key ∨ ∃ v, pair = key ++ '=' :: v) :
    ((Str.splitOnce '=' pair).getD (pair, [])).1 = key := by
  rcases h with rfl | ⟨v, rfl⟩
  · rw [Str.splitOnce_eq_none.2 hkey]
    rfl
  · rw [Str.splitOnce_append hkey]
    rfl

private theorem append_key {key keyEquals : Str} (h : keyEquals = key ++ ['=']) (value : Str) :
    key ++ '=' :: value = keyEquals ++ value := by
  rw [h, List.append_assoc]
  rfl

theorem firstTokenPair_of_queryAdminToken {query token : Str} (hne : token ≠ [])
    (h : queryAdminToken (some query) = some token) : FirstTokenPair query token := by
  unfold queryAdminToken at h
  simp only [Option.bind_some] at h
  obtain ⟨before, pair, after, hsplit, hpair, hbefore⟩ := List.findSome?_eq_some_iff.1 h
  refine ⟨before, pair, after, hsplit, ?_, ?_⟩
  · cases hkv : (Str.splitOnce '=' pair).getD (pair, []) with
    | mk key value =>
      rw [hkv] at hpair
      obtain ⟨hkey, hvalue⟩ := Option.ite_none_right_eq_some.1 hpair
      cases hvalue
      rcases pair_key_value hkv with ⟨-, hnil, -⟩ | ⟨rfl, -⟩
      · exact absurd hnil hne
      · rcases hkey with rfl | rfl
        · exact Or.inl (append_key (by decide) _)
        · exact Or.inr (append_key (by decide) _)
  · intro p hp key hkey
    have hnone := hbefore p hp
    have hnot : ((Str.splitOnce '=' p).getD (p, [])).1 ≠ key := by
      intro heq
      simp only [heq] at hnone
      simp only [List.map_cons, List.map_nil, List.mem_cons, List.not_mem_nil, or_false] at hkey
      rw [if_pos hkey] at hnone
      cases hnone
    have hfree : '=' ∉ key := by
      simp only [List.map_cons, List.map_nil, List.mem_cons, List.not_mem_nil, or_false] at hkey
      rcases hkey with rfl | rfl <;> decide
    constructor
    · intro heq
      exact hnot (pair_of_key hfree (Or.inl heq))
    · intro v heq
      exact hnot (pair_of_key hfree (Or.inr ⟨v, heq⟩))

theorem carriesToken_of_header {req : AdminRequest} {token : Str}
    (h : requestHasHeaderAdminToken req token = true) : CarriesToken req token := by
  unfold requestHasHeaderAdminToken tokenMatches at h
  rw [Bool.or_eq_true, Option.any_eq_true, Option.any_eq_true] at h
  rcases h with ⟨value, hvalue, heq⟩ | ⟨value, hvalue, heq⟩
  · exact .header value hvalue (by simpa using heq)
  · obtain ⟨text, htext, hprefix⟩ := Option.bind_eq_some_iff.1 hvalue
    rw [Str.stripPrefix_eq_some] at hprefix
    exact .bearer value (by rw [htext, hprefix]) (by simpa using heq)

theorem carriesToken_of_requestHasAdminToken {req : AdminRequest} {token : Str} (hne : token ≠ [])
    (h : requestHasAdminToken req token = true) : CarriesToken req token := by
  unfold requestHasAdminToken at h
  rw [Bool.or_eq_true, Bool.or_eq_true, Option.any_eq_true, Option.any_eq_true] at h
  rcases h with (h | ⟨cookies, hcookies, h⟩) | ⟨value, hvalue, h⟩
  · exact carriesToken_of_header h
  · unfold cookieHasAdminToken at h
    obtain ⟨cookie, hmem, h⟩ := List.any_eq_true.1 h
    cases hs : Str.splitOnce '=' cookie.trim with
    | none =>
      rw [hs, Bool.and_eq_true, beq_iff_eq] at h
      cases h.1
    | some p =>
      obtain ⟨name, value⟩ := p
      rw [hs] at h
      simp only [Option.getD_some, tokenMatches, Bool.and_eq_true, beq_iff_eq] at h
      obtain ⟨rfl, htoken⟩ := h
      have hcookie := (Str.splitOnce_eq_some.1 hs).1
      have hkey : ("oproxy_admin_token=" : Str) = ("oproxy_admin_token" : Str) ++ ['='] := by decide
      rw [append_key hkey] at hcookie
      exact .cookie cookies cookie value hcookies hmem hcookie htoken
  · have heq : value = token := by simpa [tokenMatches] using h
    subst heq
    cases hquery : req.uri.query with
    | none =>
      rw [hquery] at hvalue
      cases hvalue
    | some query =>
      rw [hquery] at hvalue
      exact .query query hquery (firstTokenPair_of_queryAdminToken hne hvalue)

theorem configuredAdminToken_eq_some {config : Config} {text : Str} (h : config.adminToken = some text)
    (hne : text.trim ≠ []) : configuredAdminToken config = some text.trim := by
  simp [configuredAdminToken, h, Option.filter, hne]

/-- Behind the dispatch layer the exemption for other hosts applies to public paths only. -/
theorem isPublicPath_of_exempt {lan : Option Str} {config : Config} {req : AdminRequest}
    (hd : proxyDispatchLayer lan config req = true)
    (hx : (isPublicPath req.uri.path || (req.uri.scheme.isSome && !isAdminHost lan config req)) = true) :
    isPublicPath req.uri.path = true := by
  rw [Bool.or_eq_true] at hx
  rcases hx with hx | hx
  · exact hx
  · rw [Bool.and_eq_true, Bool.not_eq_true'] at hx
    obtain ⟨hscheme, hadmin⟩ := hx
    -- such a request did not pass as one to a setup endpoint, as it has a scheme
    unfold proxyDispatchLayer at hd
    rw [hadmin, Bool.false_or] at hd
    unfold isPublicSetupEndpoint at hd
    rw [if_pos hscheme] at hd
    cases hd

/-- A handler runs for a request to a path that is not public only if the request carries the configured token. -/
theorem carriesToken_of_handled (parse : Str → Option Url) (lan : Option Str) {config : Config} {text : Str}
    (htoken : config.adminToken = some text) (hne : text.trim ≠ []) (req : AdminRequest)
    {handler : Router.Handler} {setCookie : Option Str}
    (h : controlPlane parse lan config req = .handled handler setCookie) (hpath : isPublicPath req.uri.path = false) :
    CarriesToken req text.trim := by
  unfold controlPlane at h
  split at h
  case isFalse => cases h
  case isTrue hd =>
  have hexempt : (isPublicPath req.uri.path || (req.uri.scheme.isSome && !isAdminHost lan config req)) = false := by
    rw [Bool.eq_false_iff]
    intro hx
    rw [isPublicPath_of_exempt hd hx] at hpath
    cases hpath
  have hnext : ∃ cookie, adminAuthLayer parse lan config req = .next cookie := by
    cases hdecision : adminAuthLayer parse lan config req with
    | next cookie => exact ⟨cookie, rfl⟩
    | forbidden => rw [hdecision] at h; cases h
    | redirect location => rw [hdecision] at h; cases h
    | unauthorized => rw [hdecision] at h; cases h
  obtain ⟨cookie, hnext⟩ := hnext
  unfold adminAuthLayer at hnext
  simp only [hexempt, Bool.false_eq_true, if_false, configuredAdminToken_eq_some htoken hne] at hnext
  split at hnext
  · cases hnext
  · split at hnext
    · rename_i hhas
      exact carriesToken_of_requestHasAdminToken hne hhas
    · split at hnext <;> cases hnext

/-- A listing of the sessions with the token in the header. -/
private def tokenRequest : AdminRequest where
  method := "GET"
  uri := sessionsUri
  headers := [("host", Str.toUtf8 "localhost:8080"), ("x-oproxy-admin-token", Str.toUtf8 "secret")]
  peerIp := some (.v4 127 0 0 1)

private def tokenConfig : Config := ⟨8080, "127.0.0.1", false, some "secret"⟩

theorem carriesToken_of_handled_header : CarriesToken tokenRequest (Str.trim "secret") :=
  carriesToken_of_handled (fun _ => none) none (show tokenConfig.adminToken = some ("secret" : Str) from rfl)
    (by decide) tokenRequest
    (show controlPlane (fun _ => none) none tokenConfig tokenRequest =
      .handled (.route "/admin/sessions" "GET") none by decide +kernel)
    (by decide)

end Auth

end Oproxy
