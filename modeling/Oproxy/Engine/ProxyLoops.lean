import Oproxy.ControlPlane.EgressLiterals
import Oproxy.Engine.Upstream

/-!
# Proxy loops (`core/engine/mod.rs`)

A URL which leads back to the proxy is refused by its text: the host as the URL has it is compared with four spellings,
and with what `bind_host` has before its first colon.
-/

namespace Oproxy

/-- A URL parser keeps the scheme of a text which names `http` or `https`. -/
def KeepsScheme (parse : Str → Option Url) : Prop :=
  ∀ text url, parse text = some url → Str.startsWith text "http://" = true ∨ Str.startsWith text "https://" = true →
    url.isWeb = true

/-! ### The proxy's own address -/

/-- The host is a literal of the loopback network of IPv4. -/
def IsLoopbackV4 (host : Str) : Prop := ∃ b c d, IpAddr.parseV4 host = some (.v4 127 b c d)

/-- An address without the brackets around it. -/
def unbracketed (text : Str) : Str := ((Str.stripPrefix "[" text).getD text).trimEndMatches ']'

/-- A host as a URL has it is the `bind_host`: the same name, or the same IPv6 address. -/
def NamesBindHost (bindHost host : Str) : Prop :=
  host = bindHost.toAsciiLowercase ∨
    ∃ text a, host = '[' :: (text ++ [']']) ∧ IpAddr.parseV6 text = some a ∧
      IpAddr.parseV6 (unbracketed bindHost) = some a

/-- The hosts under which the proxy is reached on its own port. -/
def IsOwnHost (bindHost host : Str) : Prop :=
  host = "localhost" ∨ IsLoopbackV4 host ∨ host = "[::1]" ∨ NamesBindHost bindHost host

/-- What the comparison takes for the host in `bind_host`. -/
def bindHostPart (bindHost : Str) : Str := (Str.trim (bindHost.takeWhile (· ≠ ':'))).toAsciiLowercase

/-- An IPv6 address which is not the wildcard, or a loopback address which is neither 127.0.0.1 nor in `bind_host`. -/
def Overlooked (bindHost host : Str) : Prop :=
  ':' ∈ host ∧ host ≠ "[::]" ∨ IsLoopbackV4 host ∧ host ≠ "127.0.0.1" ∧ host ≠ bindHostPart bindHost

/-- Lower case neither makes a colon nor takes one away. -/
theorem colon_mem_toAsciiLowercase {s : Str} : ':' ∈ s.toAsciiLowercase ↔ ':' ∈ s := by
  constructor
  · intro h
    obtain ⟨c, hc, hlower⟩ := List.mem_map.1 h
    rcases Str.toLower_cases c with hsame | ⟨hge, -, hshift⟩
    · rw [← hlower, hsame]
      exact hc
    · rw [hlower] at hshift
      have hcolon : (':' : Char).toNat = 58 := rfl
      omega
  · exact fun h => List.mem_map.2 ⟨':', h, rfl⟩

theorem colon_not_mem_bindHostPart (bindHost : Str) : ':' ∉ bindHostPart bindHost := by
  intro h
  have hmem := (Str.trim_sublist _).subset (colon_mem_toAsciiLowercase.1 h)
  exact absurd (List.mem_takeWhile_imp hmem) (by decide)

/-- Without a colon the `bind_host` is compared as it stands. -/
theorem bindHostPart_of_names {bindHost host : Str} (hshape : SpecialHost host) (hcolon : ':' ∉ host)
    (h : host = bindHost.toAsciiLowercase) : bindHostPart bindHost = host := by
  have hpart : bindHost.takeWhile (· ≠ ':') = bindHost := by
    rw [List.takeWhile_eq_self_iff]
    intro c hc
    refine decide_eq_true ?_
    rintro rfl
    rw [h, colon_mem_toAsciiLowercase] at hcolon
    exact hcolon hc
  unfold bindHostPart
  rw [hpart, ← Str.trim_toAsciiLowercase, ← h]
  apply Str.trim_eq_self
  · intro c hc
    rcases hshape with ⟨address, rfl, -⟩ | ⟨-, -, -, -, hspace⟩
    · cases hc
      decide
    · exact hspace c (List.mem_of_mem_head? hc)
  · intro c hc
    rcases hshape with ⟨address, rfl, -⟩ | ⟨-, -, -, -, hspace⟩
    · rw [← List.cons_append, List.getLast?_concat] at hc
      cases hc
      decide
    · exact hspace c (List.mem_of_getLast? hc)

theorem not_specialHost_loopback : ¬ SpecialHost "::1" := by
  rintro (⟨address, heq, -⟩ | ⟨-, hcolon, -⟩)
  · cases heq
  · exact hcolon (by decide)

namespace ProxyEngine

/-- The proxy listens on all addresses, and the host is one of them. -/
def KnowsLanHost (engine : ProxyEngine) (host : Str) : Prop :=
  (bindHostPart engine.bindHost = "0.0.0.0" ∨ bindHostPart engine.bindHost = "::" ∨
    bindHostPart engine.bindHost = "[::]") ∧ host ∈ engine.selfLanHosts

variable {engine : ProxyEngine} {parse : Str → Option Url}

theorem upstreamUrl_web (request : RequestContext) (uri : Http.Uri) (fallbackUri : Str) :
    Str.startsWith (upstreamUrl parse request uri fallbackUri) "http://" = true ∨
      Str.startsWith (upstreamUrl parse request uri fallbackUri) "https://" = true := by
  cases hdestination : request.destination with
  | none =>
    rw [upstreamUrl_of_destination_none hdestination, List.append_assoc]
    exact Or.inl (Str.startsWith_iff.2 ⟨_, rfl⟩)
  | some destination =>
    rw [upstreamUrl_of_destination hdestination]
    unfold Wire.destinationBase
    dsimp only
    split
    · rename_i hscheme
      rcases (Bool.or_eq_true _ _).mp hscheme with hhttp | hhttps
      · obtain ⟨rest, hrest⟩ := Str.startsWith_iff.1 hhttp
        rw [hrest, List.append_assoc]
        exact Or.inl (Str.startsWith_iff.2 ⟨_, rfl⟩)
      · obtain ⟨rest, hrest⟩ := Str.startsWith_iff.1 hhttps
        rw [hrest, List.append_assoc]
        exact Or.inr (Str.startsWith_iff.2 ⟨_, rfl⟩)
    · rw [List.append_assoc]
      exact Or.inl (Str.startsWith_iff.2 ⟨_, rfl⟩)

theorem portOrKnownDefault_of_web {url : Url} (hweb : url.isWeb = true) :
    url.portOrKnownDefault = some (url.port.getD (if url.scheme = ("https" : Str) then 443 else 80)) := by
  unfold Url.portOrKnownDefault
  cases url.port with
  | some port => rfl
  | none =>
    rcases Url.isWeb_iff.1 hweb with hscheme | hscheme <;> rw [hscheme] <;> decide

/-- Which hosts the comparison finds. -/
theorem isSelfProxy_iff {text host : Str} {url : Url} (hparse : parse text = some url) (hhost : url.hostStr = some host)
    (hweb : url.isWeb = true) (hlower : host.toAsciiLowercase = host) :
    engine.isSelfProxy parse text = true ↔ url.portOrKnownDefault = some engine.bindPort ∧
      (host ∈ ["localhost", "127.0.0.1", "::1", "0.0.0.0", "[::]"].map String.toList ∨
        host = bindHostPart engine.bindHost ∨ engine.KnowsLanHost host) := by
  unfold isSelfProxy KnowsLanHost bindHostPart
  rw [hparse, portOrKnownDefault_of_web hweb, Option.some_inj, Str.fst_splitOnce]
  simp only [Option.bind_some, hhost, Option.map_some, Option.any_some, hlower]
  simp only [ne_eq, List.map_cons, List.map_nil, List.contains_eq_mem, List.mem_cons, List.not_mem_nil, or_false,
    Bool.decide_or, Bool.or_eq_true, decide_eq_true_eq, decide_not, Bool.if_true_left, ite_not, Bool.if_false_right,
    Bool.and_eq_true, beq_iff_eq]

theorem refuses_iff (request : RequestContext) (uri : Http.Uri) (fallbackUri : Str) :
    (engine.prepareUpstream parse request uri fallbackUri).2 = .error loopRefusal ↔
      engine.isSelfProxy parse (upstreamUrl parse request uri fallbackUri) = true := by
  unfold prepareUpstream upstreamUrl
  dsimp only
  by_cases hself : engine.isSelfProxy parse (Wire.targetUrl parse request.destination request.host
      (Wire.upstreamPath uri fallbackUri) (Wire.sanitizeForwardedRequestHeaders request.headers)).1 = true
  · rw [if_pos hself]
    exact iff_of_true rfl hself
  · rw [if_neg hself]
    refine iff_of_false ?_ hself
    split
    · intro heq
      have hrefusal : (⟨400, "invalid HTTP method"⟩ : Refusal) = loopRefusal := Except.error.inj heq
      exact absurd hrefusal (by decide)
    · exact fun heq => by cases heq

/-- Loops to the proxy's own hosts are refused, and no URL with another port is taken for one. -/
def RefusesLoops (engine : ProxyEngine) (url : Url) (host : Str) (outcome : Except Refusal PreparedUpstream) : Prop :=
  (url.portOrKnownDefault = some engine.bindPort → IsOwnHost engine.bindHost host → outcome = .error loopRefusal) ∧
    (url.portOrKnownDefault ≠ some engine.bindPort → outcome ≠ .error loopRefusal)

theorem parseV4_localhost : IpAddr.parseV4 "localhost" = none := by decide

/-- The hosts which the comparison finds among those of the proxy. -/
theorem found_iff {host : Str} (hshape : SpecialHost host) (hown : IsOwnHost engine.bindHost host) :
    (host ∈ ["localhost", "127.0.0.1", "::1", "0.0.0.0", "[::]"].map String.toList ∨
        host = bindHostPart engine.bindHost ∨ engine.KnowsLanHost host) ↔
      (Overlooked engine.bindHost host → engine.KnowsLanHost host) := by
  -- with a colon the host is an IPv6 address in brackets
  by_cases hcolon : ':' ∈ host
  · -- of the known spellings only the wildcard is one which a URL has
    have hpart : host ≠ bindHostPart engine.bindHost := by
      rintro rfl
      exact colon_not_mem_bindHostPart engine.bindHost hcolon
    by_cases hwildcard : host = "[::]"
    · subst hwildcard
      refine iff_of_true (Or.inl (by decide)) ?_
      rintro (⟨-, hne⟩ | ⟨⟨b, c, d, hparse⟩, -⟩)
      · exact absurd rfl hne
      · have hnone : IpAddr.parseV4 "[::]" = none := by decide
        rw [hnone] at hparse
        cases hparse
    · have hoverlooked : Overlooked engine.bindHost host := Or.inl ⟨hcolon, hwildcard⟩
      have hknown : host ∉ ["localhost", "127.0.0.1", "::1", "0.0.0.0", "[::]"].map String.toList := by
        simp only [List.map_cons, List.map_nil, List.mem_cons, List.not_mem_nil, or_false]
        rintro (rfl | rfl | rfl | rfl | heq)
        · exact absurd hcolon (by decide)
        · exact absurd hcolon (by decide)
        · exact not_specialHost_loopback hshape
        · exact absurd hcolon (by decide)
        · exact hwildcard heq
      rw [imp_iff_right hoverlooked]
      simp only [hknown, hpart, false_or]
  · -- without a colon, by what makes the host the proxy's own
    rcases hown with hlocal | hloopback | hloopback | hnames
    · have hknown : host ∈ ["localhost", "127.0.0.1", "::1", "0.0.0.0", "[::]"].map String.toList := by
        rw [hlocal]
        decide
      refine iff_of_true (Or.inl hknown) ?_
      rintro (⟨hmem, -⟩ | ⟨⟨b, c, d, hparse⟩, -⟩)
      · exact absurd hmem hcolon
      · rw [hlocal, parseV4_localhost] at hparse
        cases hparse
    · -- of the loopback addresses one is known, besides the address which is bound
      by_cases hfound : host = "127.0.0.1" ∨ host = bindHostPart engine.bindHost
      · refine iff_of_true ?_ ?_
        · rcases hfound with rfl | hpart
          · exact Or.inl (by decide)
          · exact Or.inr (Or.inl hpart)
        · rintro (⟨hmem, -⟩ | ⟨-, hne, hpart⟩)
          · exact absurd hmem hcolon
          · exact absurd hfound (not_or.2 ⟨hne, hpart⟩)
      · obtain ⟨hne, hpart⟩ := not_or.1 hfound
        have hoverlooked : Overlooked engine.bindHost host := Or.inr ⟨hloopback, hne, hpart⟩
        have hknown : host ∉ ["localhost", "127.0.0.1", "::1", "0.0.0.0", "[::]"].map String.toList := by
          obtain ⟨b, c, d, hparse⟩ := hloopback
          simp only [List.map_cons, List.map_nil, List.mem_cons, List.not_mem_nil, or_false]
          rintro (rfl | heq | rfl | rfl | rfl)
          · rw [parseV4_localhost] at hparse
            cases hparse
          · exact hne heq
          · exact hcolon (by decide)
          · have hzero : IpAddr.parseV4 "0.0.0.0" = some (.v4 0 0 0 0) := by decide
            rw [hzero] at hparse
            cases hparse
          · exact hcolon (by decide)
        rw [imp_iff_right hoverlooked]
        simp only [hknown, hpart, false_or]
    · rw [hloopback] at hcolon
      exact absurd (by decide) hcolon
    · rcases hnames with hname | ⟨text, a, rfl, hparse, -⟩
      · have hpart := (bindHostPart_of_names hshape hcolon hname).symm
        refine iff_of_true (Or.inr (Or.inl hpart)) ?_
        rintro (⟨hmem, -⟩ | ⟨-, -, hne⟩)
        · exact absurd hmem hcolon
        · exact absurd hpart hne
      · have hmem := Egress.colon_mem_of_parseV6 hparse
        exact absurd (List.mem_cons_of_mem _ (List.mem_append_left _ hmem)) hcolon

/-- Loops are refused exactly where the URL has another port, or a host which is not overlooked. -/
theorem refusesLoops_iff (hparse : KeepsScheme parse) {request : RequestContext} {uri : Http.Uri} {fallbackUri : Str}
    {url : Url} (hurl : parse (upstreamUrl parse request uri fallbackUri) = some url) {host : Str}
    (hhost : url.hostStr = some host) :
    RefusesLoops engine url host (engine.prepareUpstream parse request uri fallbackUri).2 ↔
      (url.portOrKnownDefault = some engine.bindPort → IsOwnHost engine.bindHost host →
        Overlooked engine.bindHost host → engine.KnowsLanHost host) := by
  have hweb : url.isWeb = true := hparse _ _ hurl (upstreamUrl_web request uri fallbackUri)
  obtain ⟨host', hhost', hshape⟩ := url.host_shape (Url.isWeb_iff.1 hweb)
  obtain rfl : host = host' := Option.some_inj.1 (hhost.symm.trans hhost')
  have hlower : host.toAsciiLowercase = host := by
    rcases hshape with ⟨address, rfl, -, hlower⟩ | ⟨-, -, -, hlower, -⟩
    · show '['.toLower :: Str.toAsciiLowercase (address ++ [']']) = _
      unfold Str.toAsciiLowercase at hlower ⊢
      rw [List.map_append, hlower]
      rfl
    · exact hlower
  unfold RefusesLoops
  simp only [Ne, refuses_iff, isSelfProxy_iff hurl hhost hweb hlower]
  constructor
  · rintro ⟨hloops, -⟩ hport hown
    exact (found_iff hshape hown).1 (hloops hport hown).2
  · intro hfound
    refine ⟨fun hport hown => ⟨hport, (found_iff hshape hown).2 (hfound hport hown)⟩, fun hport hself => hport hself.1⟩

/-- The loopback address of IPv6 on the port of the proxy. -/
private def ownUrl : Url := .loopback

/-- The same by its name. -/
private def namedUrl : Url :=
  { Url.loopback with
    hostStr := some "localhost"
    host_shape := fun _ => ⟨"localhost", rfl, specialHost_of_isHostName (by decide)⟩ }

private def readOwnUrl (text : Str) : Option Url :=
  if text = ("http://[::1]:8080/" : Str) then some ownUrl
  else if text = ("http://localhost:8080/" : Str) then some namedUrl
  else none

private theorem readOwnUrl_keepsScheme : KeepsScheme readOwnUrl := by
  intro text url h _
  unfold readOwnUrl at h
  split at h
  · cases h
    decide
  · split at h
    · cases h
      decide
    · cases h

private def ownRequest : RequestContext :=
  { RequestContext.default with
    method := "GET"
    host := "[::1]:8080" }

private def namedRequest : RequestContext :=
  { RequestContext.default with
    method := "GET"
    host := "localhost:8080" }

private def ownUri : Http.Uri := .root

private def loopbackEngine : ProxyEngine := ⟨10485760, 524288, 8080, "::1", [], none⟩

private theorem not_overlooked_localhost (bindHost : Str) : ¬ Overlooked bindHost "localhost" := by
  rintro (⟨hcolon, -⟩ | ⟨⟨b, c, d, haddress⟩, -⟩)
  · revert hcolon
    decide
  · rw [parseV4_localhost] at haddress
    cases haddress

/-- A proxy under the name `localhost`, which is refused, and under its IPv6 address. -/
theorem refusesLoops_loopback :
    RefusesLoops loopbackEngine namedUrl "localhost"
        (loopbackEngine.prepareUpstream readOwnUrl namedRequest ownUri "/").2 ∧
      (RefusesLoops loopbackEngine ownUrl "[::1]"
          (loopbackEngine.prepareUpstream readOwnUrl ownRequest ownUri "/").2 ↔
        (ownUrl.portOrKnownDefault = some loopbackEngine.bindPort → IsOwnHost loopbackEngine.bindHost "[::1]" →
          Overlooked loopbackEngine.bindHost "[::1]" → loopbackEngine.KnowsLanHost "[::1]")) := by
  constructor
  · exact (refusesLoops_iff readOwnUrl_keepsScheme ((if_neg (by decide)).trans (if_pos (by decide))) rfl).2
      fun _ _ hoverlooked => absurd hoverlooked (not_overlooked_localhost _)
  · exact refusesLoops_iff readOwnUrl_keepsScheme (if_pos (by decide)) rfl

/-- The proxy at `[::1]:8080` sends a request for itself to itself. -/
theorem not_refusesLoops : ¬ ∀ (engine : ProxyEngine) (parse : Str → Option Url), KeepsScheme parse →
    ∀ (request : RequestContext) (uri : Http.Uri) (fallbackUri : Str) (url : Url) (host : Str),
      parse (upstreamUrl parse request uri fallbackUri) = some url → url.hostStr = some host →
        RefusesLoops engine url host (engine.prepareUpstream parse request uri fallbackUri).2 := by
  intro h
  have hloops := (h loopbackEngine readOwnUrl readOwnUrl_keepsScheme ownRequest ownUri "/" ownUrl "[::1]"
    (if_pos (by decide)) rfl).1 rfl (Or.inr (Or.inr (Or.inl rfl)))
  rw [refuses_iff] at hloops
  revert hloops
  decide

end ProxyEngine

end Oproxy
