import Oproxy.Lib.Regex
import Oproxy.Middleware.Context

/-!
# Locations (`middleware/matcher.rs`)

A `Location` is a set of optional conditions on the parts of a request; every rule type matches traffic through
one.  `MatchTarget` is the parsed view of a request or of a response's request that a location is matched against.
-/

namespace Oproxy

/-- How the free-form fields `host`, `path` and `query` are read. -/
inductive MatchMode where
  | glob | regex
  deriving DecidableEq

structure Location where
  protocol : Option Str
  host : Option Str
  port : Option Nat
  path : Option Str
  query : Option Str
  methods : List Str
  wireProtocol : Option Str
  applicationProtocol : Option Str
  bodyMode : Option Str
  mode : MatchMode
  deriving DecidableEq

/-- `Location::default()`, which matches everything. -/
def Location.default : Location where
  protocol := none
  host := none
  port := none
  path := none
  query := none
  methods := []
  wireProtocol := none
  applicationProtocol := none
  bodyMode := none
  mode := .glob

structure MatchTarget where
  protocol : Option Str
  method : Str
  host : Str
  port : Option Nat
  path : Str
  query : Str
  wireProtocol : Option Str
  applicationProtocol : Option Str
  bodyMode : Option Str
  deriving DecidableEq

namespace Matcher

def u16Max : Nat := 65535

/-- Split an authority into host and port, tolerating IPv6 brackets and authorities without a port. -/
def splitHostPort (authority : Str) : Str × Option Nat :=
  match Str.stripPrefix "[" authority with
  | some rest =>
    match Str.splitOnce ']' rest with
    | some (addr, after) =>
      ('[' :: (addr ++ [']']), (Str.stripPrefix ":" after).bind (Str.parseUnsigned u16Max))
    | none => (authority, none)
  | none =>
    match Str.rsplitOnce ':' authority with
    | some (host, port) =>
      if port.all Str.isAsciiDigit ∧ port ≠ [] then (host, Str.parseUnsigned u16Max port) else (authority, none)
    | none => (authority, none)

def splitPathQuery (pathQuery : Str) : Str × Str := (Str.splitOnce '?' pathQuery).getD (pathQuery, [])

/-- Decompose a request URI into protocol, authority, path and query; it may be in origin form or in absolute
form. -/
def parseUri (uri : Str) : Option Str × Option Str × Str × Str :=
  match Str.splitOnceStr "://" uri with
  | some (scheme, rest) =>
    let authority := rest.takeWhile (· ≠ '/')
    let pathQuery := if '/' ∈ rest then rest.dropWhile (· ≠ '/') else "/"
    (some scheme, some authority, splitPathQuery pathQuery)
  | none => (none, none, splitPathQuery uri)

theorem parseUri_scheme {scheme : Str} (h : ':' ∉ scheme) (rest : Str) :
    (parseUri (scheme ++ ("://" : Str) ++ rest)).1 = some scheme ∧
      (parseUri (scheme ++ ("://" : Str) ++ rest)).2.1 = some (rest.takeWhile (· ≠ '/')) := by
  have hsplit : Str.splitOnceStr "://" (scheme ++ ("://" : Str) ++ rest) = some (scheme, rest) :=
    Str.splitOnceStr_append h ['/', '/'] rest
  unfold parseUri
  rw [hsplit]
  exact ⟨rfl, rfl⟩

/-- The backtracking matcher: `star` is the position in the pattern of the last `*` passed, `mark` the position in
the value up to which it is taken to reach.  Each turn moves on in the pattern or moves `mark`, so that
`globMatch` gives it enough turns. -/
def globLoop (p v : Str) : Nat → (pi vi : Nat) → (star : Option Nat) → (mark : Nat) → Bool
  | 0, _, _, _, _ => false
  | turns + 1, pi, vi, star, mark =>
    match v[vi]? with
    | some c =>
      match p[pi]? with
      | some q =>
        if q = '?' ∨ q = c then globLoop p v turns (pi + 1) (vi + 1) star mark
        else if q = '*' then globLoop p v turns (pi + 1) vi (some pi) vi
        else
          match star with
          | some s => globLoop p v turns (s + 1) (mark + 1) star (mark + 1)
          | none => false
      | none =>
        match star with
        | some s => globLoop p v turns (s + 1) (mark + 1) star (mark + 1)
        | none => false
    | none => (p.drop pi).all (· = '*')

/-- Anchored wildcard match. -/
def globMatch (pattern value : Str) : Bool :=
  globLoop pattern value ((pattern.length + 1) * (value.length + 1) + 1) 0 0 none 0

end Matcher

open Matcher

namespace Location

variable (regex : RegexEngine)

/-- A free-form field against a value; a pattern which does not compile matches nothing. -/
def matchStr (l : Location) (pattern value : Str) : Bool :=
  match l.mode with
  | .glob => globMatch pattern value
  | .regex => (regex pattern).any fun r => r.isMatch value

/-- The compiled path pattern of a location in regex mode. -/
def compiledPathRegex (l : Location) : Option Regex :=
  match l.mode, l.path with
  | .regex, some (c :: path) => regex (c :: path)
  | _, _ => none

private def setField (field : Option Str) : Option Str := field.filter fun f => !f.isEmpty

def matchesToken (actual : Option Str) (expected : Str) : Bool :=
  actual.any fun value => value.eqIgnoreAsciiCase expected

/-- Whether every set condition matches. -/
def matchesTarget (l : Location) (target : MatchTarget) : Bool :=
  (setField l.protocol).all (matchesToken target.protocol) &&
    l.port.all (fun port => target.port == some port) &&
    (l.methods.isEmpty || l.methods.any fun m => m.eqIgnoreAsciiCase target.method) &&
    (setField l.wireProtocol).all (matchesToken target.wireProtocol) &&
    (setField l.applicationProtocol).all (matchesToken target.applicationProtocol) &&
    (setField l.bodyMode).all (matchesToken target.bodyMode) &&
    (setField l.host).all (fun host => l.matchStr regex host target.host) &&
    (setField l.path).all (fun path => l.matchStr regex path target.path) &&
    (setField l.query).all fun query => l.matchStr regex query target.query

end Location

namespace MatchTarget

def fromRequest (ctx : RequestContext) : MatchTarget :=
  let (protocol, uriHost, path, query) := parseUri ctx.uri
  let (host, port) := splitHostPort (uriHost.getD ctx.host)
  { protocol := protocol.orElse fun _ => ctx.destination.bind fun d => (parseUri d).1
    method := ctx.method
    host := host
    port := port
    path := path
    query := query
    wireProtocol := ctx.protocolContext.map fun p => p.downstream.matchValue
    applicationProtocol := ctx.protocolContext.map fun p => p.application.matchValue
    bodyMode := ctx.protocolContext.map fun p => p.bodyMode.matchValue }

def fromResponse (ctx : ResponseContext) : MatchTarget :=
  let (_, _, path, query) := parseUri ctx.requestUri
  let (host, port) := splitHostPort ctx.requestHost
  { protocol := none
    method := ctx.requestMethod
    host := host
    port := port
    path := path
    query := query
    wireProtocol := ctx.protocolContext.map fun p => p.downstream.matchValue
    applicationProtocol := ctx.protocolContext.map fun p => p.application.matchValue
    bodyMode := ctx.protocolContext.map fun p => p.bodyMode.matchValue }

/-- A URI in absolute form says all about where a request goes. -/
theorem fromRequest_congr {ctx ctx' : RequestContext} {scheme rest : Str} (hscheme : ':' ∉ scheme)
    (huri : ctx.uri = scheme ++ ("://" : Str) ++ rest) (huri' : ctx'.uri = ctx.uri)
    (hmethod : ctx'.method = ctx.method) (hprotocol : ctx'.protocolContext = ctx.protocolContext) :
    fromRequest ctx' = fromRequest ctx := by
  obtain ⟨h1, h2⟩ := parseUri_scheme hscheme rest
  unfold fromRequest
  rw [huri', hmethod, hprotocol, huri]
  simp only [h1, h2, Option.getD_some, Option.orElse_some]

end MatchTarget

/-! ### What a location made of a host alone matches -/

private theorem globLoop_self (p : Str) (turns i : Nat) (h : p.length < i + turns) (hi : i ≤ p.length) :
    Matcher.globLoop p p turns i i none 0 = true := by
  induction turns generalizing i with
  | zero => omega
  | succ turns ih =>
    unfold Matcher.globLoop
    by_cases hlt : i < p.length
    · rw [List.getElem?_eq_getElem hlt]
      simp only [or_true, if_true]
      exact ih (i + 1) (by omega) (by omega)
    · have heq : i = p.length := by omega
      rw [List.getElem?_eq_none (by omega), heq]
      simp

/-- Every text matches itself as a pattern, whatever wildcards it has. -/
theorem globMatch_self (p : Str) : Matcher.globMatch p p = true := by
  unfold Matcher.globMatch
  refine globLoop_self p _ 0 ?_ (Nat.zero_le _)
  have : p.length + 1 ≤ (p.length + 1) * (p.length + 1) := Nat.le_mul_of_pos_right _ (by omega)
  omega

theorem matchesTarget_host (regex : RegexEngine) (target : MatchTarget) (host : Str) :
    ({ Location.default with host := some host } : Location).matchesTarget regex target =
      (host.isEmpty || Matcher.globMatch host target.host) := by
  unfold Location.matchesTarget Location.matchStr
  cases host with
  | nil => simp [Location.default, Location.setField]
  | cons c host => simp [Location.default, Location.setField]

/-! ### What locations tell apart -/

namespace Location

/-- A location without a condition on the protocol. -/
def AnyProtocol (l : Location) : Prop := l.protocol.all List.isEmpty = true

/-- A pattern which matches one text only: the text with its special characters escaped, anchored at both ends. -/
def SinglesOut (regex : RegexEngine) (text : Str) : Prop :=
  ∃ pattern r, pattern ≠ [] ∧ regex pattern = some r ∧ ∀ value, r.isMatch value = true ↔ value = text

end Location

/-- Two targets are the same to every location that asks for no protocol. -/
structure MatchTarget.Agrees (a b : MatchTarget) : Prop where
  method : a.method.toAsciiLowercase = b.method.toAsciiLowercase
  host : a.host = b.host
  port : a.port = b.port
  path : a.path = b.path
  query : a.query = b.query
  wireProtocol : a.wireProtocol.map Str.toAsciiLowercase = b.wireProtocol.map Str.toAsciiLowercase
  applicationProtocol : a.applicationProtocol.map Str.toAsciiLowercase = b.applicationProtocol.map Str.toAsciiLowercase
  bodyMode : a.bodyMode.map Str.toAsciiLowercase = b.bodyMode.map Str.toAsciiLowercase

namespace Location

variable {regex : RegexEngine} {a b : MatchTarget}

theorem matchesToken_congr {actual actual' : Option Str}
    (h : actual.map Str.toAsciiLowercase = actual'.map Str.toAsciiLowercase) (expected : Str) :
    matchesToken actual expected = matchesToken actual' expected := by
  have hlower : ∀ o : Option Str, matchesToken o expected =
      (o.map Str.toAsciiLowercase).any fun value => value == expected.toAsciiLowercase := by
    intro o
    cases o <;> rfl
  rw [hlower, hlower, h]

theorem matchesTarget_congr (h : a.Agrees b) {l : Location} (hl : l.AnyProtocol) :
    l.matchesTarget regex a = l.matchesTarget regex b := by
  have hprotocol : setField l.protocol = none := by
    unfold AnyProtocol at hl
    unfold setField
    cases hp : l.protocol with
    | none => rfl
    | some p => simpa [hp] using hl
  have hmethods : (l.methods.any fun m => m.eqIgnoreAsciiCase a.method) =
      l.methods.any fun m => m.eqIgnoreAsciiCase b.method := by
    congr 1
    funext m
    unfold Str.eqIgnoreAsciiCase
    rw [h.method]
  unfold matchesTarget
  rw [hprotocol, hmethods, h.host, h.port, h.path, h.query, funext (matchesToken_congr h.wireProtocol),
    funext (matchesToken_congr h.applicationProtocol), funext (matchesToken_congr h.bodyMode)]
  rfl

theorem matchesTarget_port (target : MatchTarget) (port : Nat) :
    ({ Location.default with port := some port } : Location).matchesTarget regex target =
      (target.port == some port) := by
  simp [matchesTarget, Location.default, setField]

theorem matchesTarget_method (target : MatchTarget) (method : Str) :
    ({ Location.default with methods := [method] } : Location).matchesTarget regex target =
      method.eqIgnoreAsciiCase target.method := by
  simp [matchesTarget, Location.default, setField]

theorem matchesTarget_wireProtocol (target : MatchTarget) {token : Str} (h : token ≠ []) :
    ({ Location.default with wireProtocol := some token } : Location).matchesTarget regex target =
      matchesToken target.wireProtocol token := by
  simp [matchesTarget, Location.default, setField, h]

theorem matchesTarget_applicationProtocol (target : MatchTarget) {token : Str} (h : token ≠ []) :
    ({ Location.default with applicationProtocol := some token } : Location).matchesTarget regex target =
      matchesToken target.applicationProtocol token := by
  simp [matchesTarget, Location.default, setField, h]

theorem matchesTarget_bodyMode (target : MatchTarget) {token : Str} (h : token ≠ []) :
    ({ Location.default with bodyMode := some token } : Location).matchesTarget regex target =
      matchesToken target.bodyMode token := by
  simp [matchesTarget, Location.default, setField, h]

theorem matchesTarget_hostRegex (target : MatchTarget) {pattern : Str} (h : pattern ≠ []) :
    ({ Location.default with host := some pattern, mode := .regex } : Location).matchesTarget regex target =
      (regex pattern).any fun r => r.isMatch target.host := by
  simp [matchesTarget, Location.default, setField, matchStr, h]

/-- Tokens which no condition tells apart are the same up to their case. -/
private theorem token_eq {actual actual' : Option Str} (hne : actual ≠ some []) (hne' : actual' ≠ some [])
    (h : ∀ expected ≠ [], matchesToken actual expected = matchesToken actual' expected) :
    actual.map Str.toAsciiLowercase = actual'.map Str.toAsciiLowercase := by
  have hself : ∀ t : Str, matchesToken (some t) t = true := by
    intro t
    simp [matchesToken, Str.eqIgnoreAsciiCase]
  cases actual with
  | none =>
    cases actual' with
    | none => rfl
    | some t' =>
      have hsame := h t' (fun ht => hne' (by rw [ht]))
      rw [hself] at hsame
      cases hsame
  | some t =>
    have hsame := h t (fun ht => hne (by rw [ht]))
    rw [hself] at hsame
    cases actual' with
    | none => cases hsame
    | some t' =>
      have heq : t'.eqIgnoreAsciiCase t = true := hsame.symm
      rw [Option.map_some, Option.map_some, Str.eqIgnoreAsciiCase_iff.1 heq]

/-- Targets with the same path and query which no location tells apart agree in the rest. -/
theorem agrees_of_matchesTarget (hsingle : SinglesOut regex b.host) (hpath : a.path = b.path)
    (hquery : a.query = b.query)
    (hwire : a.wireProtocol ≠ some [] ∧ b.wireProtocol ≠ some [])
    (happlication : a.applicationProtocol ≠ some [] ∧ b.applicationProtocol ≠ some [])
    (hbody : a.bodyMode ≠ some [] ∧ b.bodyMode ≠ some [])
    (h : ∀ l : Location, l.AnyProtocol → l.matchesTarget regex a = l.matchesTarget regex b) : a.Agrees b := by
  refine ⟨?_, ?_, ?_, hpath, hquery, ?_, ?_, ?_⟩
  · have hmethod := h { Location.default with methods := [b.method] } rfl
    rw [matchesTarget_method, matchesTarget_method] at hmethod
    have hself : b.method.eqIgnoreAsciiCase b.method = true := Str.eqIgnoreAsciiCase_iff.2 rfl
    rw [hself] at hmethod
    exact (Str.eqIgnoreAsciiCase_iff.1 hmethod).symm
  · obtain ⟨pattern, r, hne, hcompiled, honly⟩ := hsingle
    have hhost := h { Location.default with host := some pattern, mode := .regex } rfl
    rw [matchesTarget_hostRegex a hne, matchesTarget_hostRegex b hne, hcompiled, Option.any_some, Option.any_some,
      (honly b.host).2 rfl] at hhost
    exact (honly a.host).1 hhost
  · have hport : ∀ port, (a.port == some port) = (b.port == some port) := by
      intro port
      rw [← matchesTarget_port a, ← matchesTarget_port b]
      exact h _ rfl
    cases hb : b.port with
    | some port =>
      have hsame := hport port
      rw [hb] at hsame
      simpa using hsame
    | none =>
      cases ha : a.port with
      | none => rfl
      | some port =>
        have hsame := hport port
        rw [ha, hb] at hsame
        simp at hsame
  · refine token_eq hwire.1 hwire.2 ?_
    intro expected hne
    rw [← matchesTarget_wireProtocol a hne, ← matchesTarget_wireProtocol b hne]
    exact h _ rfl
  · refine token_eq happlication.1 happlication.2 ?_
    intro expected hne
    rw [← matchesTarget_applicationProtocol a hne, ← matchesTarget_applicationProtocol b hne]
    exact h _ rfl
  · refine token_eq hbody.1 hbody.2 ?_
    intro expected hne
    rw [← matchesTarget_bodyMode a hne, ← matchesTarget_bodyMode b hne]
    exact h _ rfl

end Location

end Oproxy
