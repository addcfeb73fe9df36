import Oproxy.ControlPlane.Login
import Oproxy.Lib.Cookies

/-!
# The cookies of the sign-in

A client keeps the token of a `Set-Cookie` field and sends it back.  `adminTokenCookie` makes cookies of characters only
which come back as they are; `postLogin` checks nothing.
-/

namespace Oproxy

namespace Login

open Http

/-- A client which keeps this cookie and sends it back is let in. -/
def SignsIn (expected setCookie : Str) : Prop :=
  ∃ cookie, Cookie.ofSetCookie setCookie = some cookie ∧
    ∀ req : AdminRequest, req.headers.get "cookie" = some cookie.text.toUtf8 →
      Auth.requestHasAdminToken req expected = true

/-- Under this configuration a client is let in with every cookie that it is given. -/
structure CookiesSignIn (config : Config) : Prop where
  login : ∀ form location setCookie expected, postLogin config form = .signedIn location setCookie →
    Auth.configuredAdminToken config = some expected → SignsIn expected setCookie
  query : ∀ parse lan req setCookie expected,
    Auth.adminAuthLayer parse lan config req = .next (some setCookie) →
    Auth.configuredAdminToken config = some expected → SignsIn expected setCookie

/-- The condition on a token: either it may not stand in a field at all, and no cookie is set, or it has neither a
semicolon nor a character outside visible ASCII. -/
def Keepable (token : Str) : Prop :=
  token.all isFieldChar = true → token.all isVisibleChar = true ∧ ';' ∉ token

/-! ### What a client keeps, and what it is let in with -/

/-- What a client keeps of a cookie for a token. -/
theorem ofSetCookie_token (token attributes : Str) :
    Cookie.ofSetCookie (("oproxy_admin_token=" : Str) ++ token ++ ';' :: attributes) =
      some ⟨"oproxy_admin_token", trimBlanks (token.takeWhile (· ≠ ';'))⟩ := by
  have hname : ("oproxy_admin_token=" : Str) = ("oproxy_admin_token" : Str) ++ ['='] := by decide
  rw [hname, List.append_assoc, List.append_assoc]
  exact Cookie.ofSetCookie_append (by decide) (by decide) (by decide) (by decide) token attributes

/-- Nobody is let in with a cookie where the token has a semicolon. -/
theorem semicolon_not_mem_of_cookie {cookies expected : Str}
    (h : Auth.cookieHasAdminToken cookies expected = true) : ';' ∉ expected := by
  unfold Auth.cookieHasAdminToken at h
  obtain ⟨cookie, hcookie, h⟩ := List.any_eq_true.1 h
  have hfree : ';' ∉ cookie.trim := fun hmem => Str.not_mem_of_mem_split hcookie ((Str.trim_sublist _).subset hmem)
  cases hpair : Str.splitOnce '=' cookie.trim with
  | none =>
    rw [hpair] at h
    cases h
  | some pair =>
    obtain ⟨name, value⟩ := pair
    rw [hpair] at h
    simp only [Option.getD_some, Auth.tokenMatches, Bool.and_eq_true, beq_iff_eq] at h
    rw [← h.2]
    intro hmem
    rw [(Str.splitOnce_eq_some.1 hpair).1] at hfree
    exact hfree (List.mem_append_right _ (List.mem_cons_of_mem _ ((Str.trim_sublist _).subset hmem)))

/-- The pair of the token lets in, if it can be read. -/
theorem cookieHasAdminToken_token {token : Str} (hfree : ';' ∉ token) (htrim : token.trim = token) (hne : token ≠ []) :
    Auth.cookieHasAdminToken (("oproxy_admin_token" : Str) ++ '=' :: token) token = true := by
  have hsplit : Str.split ';' (("oproxy_admin_token" : Str) ++ '=' :: token) =
      [("oproxy_admin_token" : Str) ++ '=' :: token] := by
    apply List.splitOn_eq_singleton
    rw [List.mem_append, List.mem_cons]
    rintro (h | h | h)
    · exact absurd h (by decide)
    · exact absurd h (by decide)
    · exact hfree h
  have hwhole : Str.trim (("oproxy_admin_token" : Str) ++ '=' :: token) =
      ("oproxy_admin_token" : Str) ++ '=' :: token := by
    apply Str.trim_eq_self
    · rintro c ⟨⟩
      decide
    · intro c hc
      obtain ⟨rest, last, hlast⟩ : ∃ rest last, token = rest ++ [last] :=
        ⟨_, _, (List.dropLast_concat_getLast hne).symm⟩
      rw [hlast, ← List.cons_append, ← List.append_assoc, List.getLast?_concat] at hc
      refine Str.isWhitespace_of_getLast_trim (s := token) ?_
      rw [htrim, hlast, List.getLast?_concat]
      exact hc
  unfold Auth.cookieHasAdminToken
  rw [hsplit, List.any_cons, List.any_nil, Bool.or_false, hwhole, Str.splitOnce_append (by decide)]
  simp only [Option.getD_some, Auth.tokenMatches, htrim, beq_self_eq_true, Bool.and_self]

/-- A request with nothing but a cookie. -/
def cookieRequest (text : Str) : AdminRequest where
  method := "GET"
  uri := { Http.Uri.root with rawPathAndQuery := "/admin/config", path_start := by decide }
  headers := [("cookie", text.toUtf8)]
  peerIp := none

theorem get_cookieRequest (text : Str) : (cookieRequest text).headers.get "cookie" = some text.toUtf8 := rfl

theorem requestHasAdminToken_cookieRequest (text expected : Str) :
    Auth.requestHasAdminToken (cookieRequest text) expected = true ↔
      text.all isVisibleChar = true ∧ Auth.cookieHasAdminToken text expected = true := by
  have hcookie : (cookieRequest text).headers.getStr "cookie" =
      if text.all isVisibleChar then some text else none := HeaderValue.toStr_toUtf8 text
  have hheader : Auth.requestHasHeaderAdminToken (cookieRequest text) expected = false := rfl
  have hquery : Auth.queryAdminToken (cookieRequest text).uri.query = none := rfl
  unfold Auth.requestHasAdminToken
  rw [hcookie, hheader, hquery, Bool.false_or]
  by_cases hvisible : text.all isVisibleChar = true
  · simp [hvisible]
  · simp [hvisible]

theorem trimBlanks_token {token : Str} (hfree : ';' ∉ token) (htrim : token.trim = token) :
    trimBlanks (token.takeWhile (· ≠ ';')) = token := by
  have hwhole : token.takeWhile (· ≠ ';') = token := by
    rw [List.takeWhile_eq_self_iff]
    rintro c hc
    rw [decide_eq_true_eq]
    rintro rfl
    exact hfree hc
  rw [hwhole, ← htrim, trimBlanks_trim]

/-- The cookie for a token lets in exactly if its characters are visible ASCII without a semicolon. -/
theorem signsIn_token_iff {token : Str} (htrim : token.trim = token) (hne : token ≠ []) (attributes : Str) :
    SignsIn token (("oproxy_admin_token=" : Str) ++ token ++ ';' :: attributes) ↔
      token.all isVisibleChar = true ∧ ';' ∉ token := by
  have hall : (("oproxy_admin_token" : Str) ++ '=' :: token).all isVisibleChar = token.all isVisibleChar := by
    rw [List.all_append, List.all_cons]
    rfl
  unfold SignsIn
  constructor
  · rintro ⟨cookie, hcookie, h⟩
    rw [ofSetCookie_token] at hcookie
    obtain rfl := Option.some.inj hcookie
    have hlet := h _ (get_cookieRequest _)
    rw [requestHasAdminToken_cookieRequest] at hlet
    obtain ⟨hvisible, hlet⟩ := hlet
    have hfree := semicolon_not_mem_of_cookie hlet
    rw [trimBlanks_token hfree htrim, Cookie.text, hall] at hvisible
    exact ⟨hvisible, hfree⟩
  · rintro ⟨hvisible, hfree⟩
    refine ⟨_, ofSetCookie_token token attributes, ?_⟩
    rw [trimBlanks_token hfree htrim]
    intro req hreq
    have hread : req.headers.getStr "cookie" = some (("oproxy_admin_token" : Str) ++ '=' :: token) := by
      unfold Headers.getStr
      rw [hreq, Option.bind_some, Cookie.text, HeaderValue.toStr_toUtf8, hall, if_pos hvisible]
    unfold Auth.requestHasAdminToken
    rw [hread, Option.any_some, cookieHasAdminToken_token hfree htrim hne, Bool.or_true, Bool.true_or]

/-! ### The two cookies -/

/-- A cookie of the authentication layer is one for the configured token, and has cookie octets only. -/
theorem adminAuthLayer_setCookie {parse : Str → Option Url} {lan : Option Str} {config : Config} {req : AdminRequest}
    {setCookie : Str} (h : Auth.adminAuthLayer parse lan config req = .next (some setCookie)) :
    ∃ token, Auth.configuredAdminToken config = some token ∧ Auth.adminTokenCookie token = some setCookie := by
  unfold Auth.adminAuthLayer at h
  dsimp only at h
  split at h
  · cases h
  · split at h
    · cases h
    · split at h
      · cases h
      · rename_i token htoken
        split at h
        · split at h
          · exact ⟨token, htoken, Auth.Decision.next.inj h⟩
          · cases h
        · split at h <;> cases h

theorem configuredAdminToken_trim {config : Config} {token : Str} (h : Auth.configuredAdminToken config = some token) :
    token.trim = token ∧ token ≠ [] := by
  obtain ⟨hmap, hne⟩ := Option.filter_eq_some_iff.1 h
  obtain ⟨text, -, rfl⟩ := Option.map_eq_some_iff.1 hmap
  exact ⟨Str.trim_trim text, by simpa using hne⟩

/-- What both cookies have in common. -/
theorem signsIn_iff {config : Config} {token : Str} (h : Auth.configuredAdminToken config = some token) :
    SignsIn token (("oproxy_admin_token=" : Str) ++ token ++ ("; HttpOnly; SameSite=Strict; Path=/" : Str)) ↔
      token.all isVisibleChar = true ∧ ';' ∉ token := by
  have hattributes : ("; HttpOnly; SameSite=Strict; Path=/" : Str) =
      ';' :: (" HttpOnly; SameSite=Strict; Path=/" : Str) := by decide
  obtain ⟨htrim, hne⟩ := configuredAdminToken_trim h
  rw [hattributes]
  exact signsIn_token_iff htrim hne _

theorem isVisibleAscii_of_isCookieOctet {b : UInt8} (h : Auth.isCookieOctet b = true) : isVisibleAscii b = true := by
  unfold Auth.isCookieOctet at h
  unfold isVisibleAscii
  simp only [Bool.or_eq_true, Bool.and_eq_true, decide_eq_true_eq, beq_iff_eq] at h ⊢
  omega

/-- A token of cookie octets comes back. -/
theorem visible_of_adminTokenCookie {token setCookie : Str} (h : Auth.adminTokenCookie token = some setCookie) :
    setCookie = ("oproxy_admin_token=" : Str) ++ token ++ ("; HttpOnly; SameSite=Strict; Path=/" : Str) ∧
      token.all isVisibleChar = true ∧ ';' ∉ token := by
  obtain ⟨hoctets, heq⟩ := Option.ite_none_right_eq_some.1 h
  refine ⟨(Option.some.inj heq).symm, ?_, ?_⟩
  · rw [← all_toUtf8 all_isVisibleAscii_utf8EncodeChar, List.all_eq_true]
    rw [List.all_eq_true] at hoctets
    exact fun b hb => isVisibleAscii_of_isCookieOctet (hoctets b hb)
  · intro hmem
    have hbyte : (0x3b : UInt8) ∈ token.toUtf8 := List.mem_flatMap.2 ⟨';', hmem, by decide⟩
    exact absurd (List.all_eq_true.1 hoctets _ hbyte) (by decide)

/-- Every client is let in with the cookies that it is given exactly where the configured token is keepable. -/
theorem cookiesSignIn_iff (config : Config) :
    CookiesSignIn config ↔ ∀ token, Auth.configuredAdminToken config = some token → Keepable token := by
  constructor
  · intro h token htoken hfield
    have hform : Auth.configuredAdminToken config = some (LoginForm.mk token none).token.trim := by
      rw [htoken, (configuredAdminToken_trim htoken).1]
    have hnext : (sanitizeNext "/").all isFieldChar = true := by decide
    have hanswer := postLogin_of_token hform hnext (by rw [(configuredAdminToken_trim htoken).1]; exact hfield)
    rw [(configuredAdminToken_trim htoken).1] at hanswer
    exact (signsIn_iff htoken).1 (h.login _ _ _ token hanswer htoken)
  · intro h
    constructor
    · intro form location setCookie expected hanswer hexpected
      obtain ⟨htoken, -, rfl, -, hfields⟩ := postLogin_signedIn hanswer
      obtain rfl := Option.some.inj (htoken.symm.trans hexpected)
      rw [List.all_append, List.all_append, Bool.and_eq_true, Bool.and_eq_true] at hfields
      exact (signsIn_iff hexpected).2 (h _ hexpected hfields.1.2)
    · intro parse lan req setCookie expected hanswer hexpected
      obtain ⟨token, htoken, hcookie⟩ := adminAuthLayer_setCookie hanswer
      obtain rfl := Option.some.inj (htoken.symm.trans hexpected)
      obtain ⟨rfl, hkept⟩ := visible_of_adminTokenCookie hcookie
      exact (signsIn_iff hexpected).2 hkept

/-- A proxy with the token `a;b`. -/
def semicolonConfig : Config where
  port := 8080
  bindHost := "127.0.0.1"
  allowRemoteAdmin := false
  adminToken := some "a;b"

/-- The client keeps the token `a`. -/
theorem not_cookiesSignIn : ¬ ∀ config, CookiesSignIn config := by
  intro h
  have hanswer : postLogin semicolonConfig ⟨"a;b", none⟩ =
      .signedIn "/" "oproxy_admin_token=a;b; HttpOnly; SameSite=Strict; Path=/" := by decide
  have hlet := (h semicolonConfig).login _ _ _ "a;b" hanswer rfl
  obtain ⟨cookie, hcookie, hlet⟩ := hlet
  have hkept : Cookie.ofSetCookie "oproxy_admin_token=a;b; HttpOnly; SameSite=Strict; Path=/" =
      some ⟨"oproxy_admin_token", "a"⟩ := by decide
  obtain rfl := Option.some.inj (hkept.symm.trans hcookie)
  have hnot := hlet _ (get_cookieRequest _)
  exact absurd hnot (by decide)

end Login

end Oproxy
