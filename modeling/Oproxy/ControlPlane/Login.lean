import Oproxy.ControlPlane.Mutations
import Oproxy.Lib.Json

/-!
# The sign-in page (`control_plane/login.rs`)

`getLogin` renders the form, with the page that was asked for in a hidden field; `postLogin` checks the token and sends
the browser there with a cookie.
-/

namespace Oproxy

namespace Login

/-- The open-redirect guard. -/
def sanitizeNext (next : Str) : Str :=
  if Str.startsWith next "/" && !Str.startsWith next "//" && !Str.startsWith next "/login" then next else "/"

def htmlEscape (s : Str) : Str :=
  s.flatMap fun c =>
    if c = '&' then "&amp;"
    else if c = '<' then "&lt;"
    else if c = '>' then "&gt;"
    else if c = Json.quoteMark then "&quot;"
    else if c = '\'' then "&#x27;"
    else [c]

/-! ### The page -/

/-- The template up to the place of the error. -/
def loginHead : Str :=
  ["<!doctype html>",
   "<html lang=\"en\">",
   "<head>",
   "  <meta charset=\"utf-8\">",
   "  <meta name=\"viewport\" content=\"width=device-width,initial-scale=1\">",
   "  <title>Sign in — oproxy</title>",
   "  <style>",
   "    :root \x7b color-scheme: dark; \x7d",
   "    *, *::before, *::after \x7b box-sizing: border-box; margin: 0; padding: 0; \x7d",
   "    body \x7b",
   "      font-family: -apple-system, BlinkMacSystemFont, 'Segoe UI', system-ui, sans-serif;",
   "      background: #0f1117; color: #e2e8f0;",
   "      min-height: 100vh; display: flex; align-items: center; justify-content: center;",
   "    \x7d",
   "    .card \x7b",
   "      background: #1a1f2e; border: 1px solid #2d3348;",
   "      border-radius: 12px; padding: 2.5rem 2rem; width: 100%; max-width: 360px;",
   "      box-shadow: 0 8px 32px rgb(0 0 0 / .4);",
   "    \x7d",
   "    .logo \x7b display: flex; align-items: center; gap: .6rem; margin-bottom: 2rem; \x7d",
   "    .logo-mark \x7b",
   "      width: 34px; height: 34px; border-radius: 8px;",
   "      background: linear-gradient(135deg, #6366f1, #8b5cf6);",
   "      display: flex; align-items: center; justify-content: center;",
   "      font-weight: 700; font-size: 13px; color: #fff; letter-spacing: -.5px;",
   "      flex-shrink: 0;",
   "    \x7d",
   "    .logo h1 \x7b font-size: 1.1rem; font-weight: 600; color: #f1f5f9; \x7d",
   "    .logo .sub \x7b font-size: .8rem; color: #64748b; margin-top: 1px; \x7d",
   "    label \x7b display: block; font-size: .8rem; color: #94a3b8; margin-bottom: .4rem; letter-spacing: .02em; \x7d",
   "    input[type=password] \x7b",
   "      width: 100%; padding: .6rem .75rem;",
   "      background: #0f1117; border: 1px solid #2d3348; border-radius: 6px;",
   "      color: #e2e8f0; font-size: .9rem; outline: none; margin-bottom: 1rem;",
   "      transition: border-color .15s, box-shadow .15s;",
   "    \x7d",
   "    input[type=password]:focus \x7b",
   "      border-color: #6366f1;",
   "      box-shadow: 0 0 0 3px rgb(99 102 241 / .18);",
   "    \x7d",
   "    button[type=submit] \x7b",
   "      width: 100%; padding: .65rem; background: #6366f1;",
   "      border: none; border-radius: 6px; color: #fff; font-size: .9rem;",
   "      font-weight: 500; cursor: pointer; transition: background .15s;",
   "    \x7d",
   "    button[type=submit]:hover \x7b background: #4f51c8; \x7d",
   "    button[type=submit]:active \x7b background: #4345b0; \x7d",
   "    .error \x7b",
   "      background: rgb(127 29 29 / .25); border: 1px solid rgb(185 28 28 / .5);",
   "      border-radius: 6px; padding: .6rem .75rem; color: #fca5a5;",
   "      font-size: .85rem; margin-bottom: 1rem;",
   "    \x7d",
   "    .hint \x7b",
   "      font-size: .75rem; color: #475569; margin-top: .9rem; text-align: center;",
   "      line-height: 1.5;",
   "    \x7d",
   "    .hint code \x7b",
   "      background: #0f1117; border: 1px solid #1e293b;",
   "      border-radius: 4px; padding: 1px 5px; font-size: .8em; color: #94a3b8;",
   "    \x7d",
   "  </style>",
   "</head>",
   "<body>",
   "  <div class=\"card\">",
   "    <div class=\"logo\">",
   "      <div class=\"logo-mark\">op</div>",
   "      <div>",
   "        <h1>oproxy</h1>",
   "        <div class=\"sub\">Sign in to continue</div>",
   "      </div>",
   "    </div>",
   "    "].map String.toList |> List.intercalate ['\n']

/-- The template from there to the place of the page that was asked for. -/
def loginFields : Str :=
  ["",
   "    <form method=\"POST\" action=\"/login\">",
   "      <input type=\"hidden\" name=\"next\" value=\""].map String.toList |> List.intercalate ['\n']

def loginFoot : Str :=
  ["\">",
   "      <label for=\"token\">Admin token</label>",
   "      <input type=\"password\" id=\"token\" name=\"token\"",
   "             autocomplete=\"current-password\" placeholder=\"Paste your token\" autofocus>",
   "      <button type=\"submit\">Sign in</button>",
   "    </form>",
   "    <p class=\"hint\">",
   "      Token is configured via <code>OPROXY_ADMIN_TOKEN</code> at startup.",
   "    </p>",
   "  </div>",
   "</body>",
   "</html>"].map String.toList |> List.intercalate ['\n']

def loginTemplate : Str :=
  loginHead ++ ("\x7b\x7bERROR\x7d\x7d" : Str) ++ loginFields ++ ("\x7b\x7bNEXT\x7d\x7d" : Str) ++ loginFoot

/-- A name or a value of a form: plus signs are spaces, and bytes which are no UTF-8 are replaced. -/
def formDecode (s : Str) : Str :=
  Utf8.decodeLossy (Mutations.Http.percentDecode (s.map fun c => if c = '+' then ' ' else c))

/-- The pairs of a query or of the body of a form. -/
def formPairs (text : Str) : List (Str × Str) :=
  ((Str.split '&' text).filter fun part => !part.isEmpty).map fun part =>
    let (name, value) := (Str.splitOnce '=' part).getD (part, [])
    (formDecode name, formDecode value)

/-- The value of a parameter, the last one where there are several. -/
def param (params : List (Str × Str)) (name : Str) : Option Str :=
  (params.reverse.find? fun p => p.1 == name).map Prod.snd

def getLogin (query : Option Str) : Str :=
  let params := formPairs (query.getD [])
  let rawNext := (param params "next").getD "/"
  let next := htmlEscape (sanitizeNext rawNext)
  let errorBlock : Str :=
    if (param params "error").isSome then "<div class=\"error\">Invalid token — please try again.</div>" else []
  Str.replace "\x7b\x7bERROR\x7d\x7d" errorBlock (Str.replace "\x7b\x7bNEXT\x7d\x7d" next loginTemplate)

/-! ### The form -/

structure LoginForm where
  token : Str
  next : Option Str

/-- The form in the body of a request; a field which is missing or given twice is an error. -/
def LoginForm.ofBody (body : Str) : Option LoginForm :=
  let params := formPairs body
  match params.filter fun p => p.1 == ("token" : Str), params.filter fun p => p.1 == ("next" : Str) with
  | [token], [] => some ⟨token.2, none⟩
  | [token], [next] => some ⟨token.2, some next.2⟩
  | _, _ => none

/-- The answer to the form.  A value that may not stand in a field makes the answer an internal server error. -/
inductive LoginAnswer where
  | signedIn (location setCookie : Str)
  | bounced (location : Str)
  | internalServerError
  deriving DecidableEq

def postLogin (config : Config) (form : LoginForm) : LoginAnswer :=
  let expected := (config.adminToken.map Str.trim).getD []
  let submitted := form.token.trim
  if !expected.isEmpty && Auth.tokenMatches submitted expected then
    let destination := sanitizeNext (form.next.getD "/")
    let cookie := ("oproxy_admin_token=" : Str) ++ submitted ++ ("; HttpOnly; SameSite=Strict; Path=/" : Str)
    if (Http.HeaderValue.ofStr destination).isSome && (Http.HeaderValue.ofStr cookie).isSome then
      .signedIn destination cookie
    else .internalServerError
  else
    let nextEncoded := Auth.encodeNextParam (sanitizeNext (form.next.getD "/"))
    .bounced (("/login?error=1&next=" : Str) ++ nextEncoded)

/-! ### Results of the guard -/

theorem sanitizeNext_eq (next : Str) :
    sanitizeNext next =
      if Str.startsWith next "/" ∧ Str.startsWith next "//" = false ∧ Str.startsWith next "/login" = false then next
      else "/" := by
  unfold sanitizeNext
  simp only [Bool.and_eq_true, Bool.not_eq_true', and_assoc]

/-- An accepted form: the token is the configured one, and all of the answer may stand in fields. -/
theorem postLogin_signedIn {config : Config} {form : LoginForm} {location setCookie : Str}
    (h : postLogin config form = .signedIn location setCookie) :
    Auth.configuredAdminToken config = some form.token.trim ∧ location = sanitizeNext (form.next.getD "/") ∧
      setCookie = ("oproxy_admin_token=" : Str) ++ form.token.trim ++ ("; HttpOnly; SameSite=Strict; Path=/" : Str) ∧
      location.all Http.isFieldChar = true ∧ setCookie.all Http.isFieldChar = true := by
  unfold postLogin at h
  dsimp only at h
  split at h
  · rename_i hmatch
    split at h
    · rename_i hfields
      obtain ⟨rfl, rfl⟩ := LoginAnswer.signedIn.inj h
      rw [Bool.and_eq_true, Bool.not_eq_true', List.isEmpty_eq_false_iff, Auth.tokenMatches, beq_iff_eq] at hmatch
      rw [Bool.and_eq_true, Http.HeaderValue.ofStr_eq, Http.HeaderValue.ofStr_eq, Option.isSome_ite,
        Option.isSome_ite] at hfields
      refine ⟨?_, rfl, rfl, hfields.1, hfields.2⟩
      cases hconfig : config.adminToken with
      | none =>
        rw [hconfig] at hmatch
        exact absurd rfl hmatch.1
      | some text =>
        rw [hconfig] at hmatch
        obtain ⟨hne, heq⟩ := hmatch
        simp only [Option.map_some, Option.getD_some] at hne heq
        rw [heq]
        simp [Auth.configuredAdminToken, hconfig, Option.filter, hne]
    · cases h
  · cases h

/-- The configured token is accepted. -/
theorem postLogin_of_token {config : Config} {form : LoginForm}
    (h : Auth.configuredAdminToken config = some form.token.trim)
    (hnext : (sanitizeNext (form.next.getD "/")).all Http.isFieldChar = true)
    (htoken : form.token.trim.all Http.isFieldChar = true) :
    postLogin config form = .signedIn (sanitizeNext (form.next.getD "/"))
      (("oproxy_admin_token=" : Str) ++ form.token.trim ++ ("; HttpOnly; SameSite=Strict; Path=/" : Str)) := by
  unfold Auth.configuredAdminToken at h
  obtain ⟨hmap, hne⟩ := Option.filter_eq_some_iff.1 h
  have hcookie : (("oproxy_admin_token=" : Str) ++ form.token.trim ++
      ("; HttpOnly; SameSite=Strict; Path=/" : Str)).all Http.isFieldChar = true := by
    rw [List.all_append, List.all_append, htoken]
    decide
  unfold postLogin
  dsimp only
  rw [hmap, Option.getD_some, if_pos, if_pos]
  · rw [Http.HeaderValue.ofStr_eq, Http.HeaderValue.ofStr_eq, if_pos hnext, if_pos hcookie]
    rfl
  · rw [hne, Auth.tokenMatches, beq_self_eq_true]
    rfl

end Login

end Oproxy
