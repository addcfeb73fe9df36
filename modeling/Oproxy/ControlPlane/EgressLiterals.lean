import Oproxy.ControlPlane.EgressPolicy

/-!
# Addresses in the URL (`security.rs`)

A host that is an address is judged as it stands, if it parses as one.  In a URL an IPv6 address is written in brackets,
and in brackets it does not parse.
-/

namespace Oproxy

/-- The IPv6 address into which an IPv4 address is mapped. -/
def IpAddr.mapped (a b c d : UInt8) : IpAddr :=
  ofGroups [0, 0, 0, 0, 0, 0xffff, 256 * a.toNat + b.toNat, 256 * c.toNat + d.toNat]

namespace Egress

/-- The addresses which an admin must not reach: those of the host itself, of its networks and of its groups. -/
inductive Protected : IpAddr → Prop where
  | loopback4 (b c d : UInt8) : Protected (.v4 127 b c d)
  | private10 (b c d : UInt8) : Protected (.v4 10 b c d)
  | private172 (b c d : UInt8) (h : 16 ≤ b ∧ b ≤ 31) : Protected (.v4 172 b c d)
  | private192 (c d : UInt8) : Protected (.v4 192 168 c d)
  | linkLocal4 (c d : UInt8) : Protected (.v4 169 254 c d)
  | multicast4 (a b c d : UInt8) (h : 224 ≤ a ∧ a ≤ 239) : Protected (.v4 a b c d)
  | broadcast : Protected (.v4 255 255 255 255)
  | unspecified4 : Protected (.v4 0 0 0 0)
  | shared (b c d : UInt8) (h : 64 ≤ b ∧ b ≤ 127) : Protected (.v4 100 b c d)
  | loopback6 : Protected (.v6 1)
  | unspecified6 : Protected (.v6 0)
  | uniqueLocal (bits : BitVec 128) (h : bits.extractLsb' 121 7 = 0x7e) : Protected (.v6 bits)
  | linkLocal6 (bits : BitVec 128) (h : bits.extractLsb' 118 10 = 0x3fa) : Protected (.v6 bits)
  | multicast6 (bits : BitVec 128) (h : bits.extractLsb' 120 8 = 0xff) : Protected (.v6 bits)
  | mapped (a b c d : UInt8) (h : Protected (.v4 a b c d)) : Protected (IpAddr.mapped a b c d)

/-- An IPv4 address which is to be protected is known to be. -/
theorem isProtected_of_v4 {a b c d : UInt8} (h : Protected (.v4 a b c d)) :
    isProtectedAdminEgressIp (.v4 a b c d) = true := by
  cases h with
  | loopback4 => simp [isProtectedAdminEgressIp]
  | private10 => simp [isProtectedAdminEgressIp]
  | private172 _ _ _ h => simp [isProtectedAdminEgressIp, h]
  | private192 => simp [isProtectedAdminEgressIp]
  | linkLocal4 => simp [isProtectedAdminEgressIp]
  | multicast4 _ _ _ _ h => simp [isProtectedAdminEgressIp, h]
  | broadcast => simp [isProtectedAdminEgressIp]
  | unspecified4 => simp [isProtectedAdminEgressIp]
  | shared _ _ _ h => simp [isProtectedAdminEgressIp, h]

/-- A host that is an address: an IPv4 address as it stands, or an IPv6 address in brackets. -/
inductive HostLiteral : Str → IpAddr → Prop where
  | v4 {host : Str} {ip : IpAddr} (h : IpAddr.parseV4 host = some ip) : HostLiteral host ip
  | v6 {text : Str} {ip : IpAddr} (h : IpAddr.parseV6 text = some ip) : HostLiteral ('[' :: (text ++ [']'])) ip

/-! ### What is in brackets does not parse -/

/-- The first part of a text begins as the text does. -/
theorem split_cons {c sep : Char} (h : c ≠ sep) (s : Str) :
    ∃ first rest, Str.split sep (c :: s) = (c :: first) :: rest := by
  unfold Str.split List.splitOn
  rw [List.splitOnP_cons_eq_if_modifyHead, if_neg (by simpa using h)]
  cases hsplit : List.splitOnP (· == sep) s with
  | nil => exact absurd hsplit (List.splitOnP_ne_nil _ _)
  | cons first rest => exact ⟨first, rest, rfl⟩

private theorem parseV4_bracket (s : Str) : IpAddr.parseV4 ('[' :: s) = none := by
  obtain ⟨first, rest, hsplit⟩ := split_cons (show '[' ≠ '.' by decide) s
  have hoctet : IpAddr.parseOctet ('[' :: first) = none := by
    unfold IpAddr.parseOctet
    have hdigit : Str.isAsciiDigit '[' = false := by decide
    simp [hdigit]
  unfold IpAddr.parseV4
  rw [hsplit, List.map_cons, hoctet]

private theorem parseGroup_bracket (s : Str) : IpAddr.parseGroup ('[' :: s) = none := by
  unfold IpAddr.parseGroup
  have hhex : IpAddr.hexDigit '[' = none := by decide
  simp [hhex]

private theorem groupsOf_bracket (last : Bool) (s : Str) : IpAddr.groupsOf last ('[' :: s) = none := by
  obtain ⟨first, rest, hsplit⟩ := split_cons (show '[' ≠ ':' by decide) s
  unfold IpAddr.groupsOf
  rw [hsplit]
  cases rest with
  | nil => simp [IpAddr.parseGroups, parseGroup_bracket, parseV4_bracket]
  | cons part parts => simp [IpAddr.parseGroups, parseGroup_bracket]

theorem eq_of_splitOnceStr {pat s a b : Str} (h : Str.splitOnceStr pat s = some (a, b)) : s = a ++ pat ++ b := by
  induction s generalizing a b with
  | nil =>
    unfold Str.splitOnceStr at h
    split at h
    · rename_i hpat
      cases h
      simp [List.isEmpty_iff.1 hpat]
    · cases h
  | cons c s ih =>
    unfold Str.splitOnceStr at h
    cases hstrip : Str.stripPrefix pat (c :: s) with
    | some rest =>
      rw [hstrip] at h
      cases h
      exact Str.stripPrefix_eq_some.1 hstrip
    | none =>
      rw [hstrip] at h
      obtain ⟨⟨before, after⟩, hrest, heq⟩ := Option.map_eq_some_iff.1 h
      cases heq
      rw [ih hrest]
      rfl

theorem length_parseGroups_singleton {last : Bool} {part : Str} {groups : List Nat}
    (h : IpAddr.parseGroups last [part] = some groups) : groups.length ≤ 2 := by
  unfold IpAddr.parseGroups at h
  split at h
  · cases h
    simp
  · split at h
    · cases h
      simp
    · cases h
  · cases h

/-- An IPv6 address has a colon. -/
theorem colon_mem_of_parseV6 {text : Str} {a : IpAddr} (h : IpAddr.parseV6 text = some a) : ':' ∈ text := by
  by_contra hcolon
  unfold IpAddr.parseV6 at h
  cases hsplit : Str.splitOnceStr "::" text with
  | some parts =>
    apply hcolon
    rw [eq_of_splitOnceStr hsplit]
    simp
  | none =>
    rw [hsplit] at h
    obtain ⟨groups, hgroups, -⟩ := Option.map_eq_some_iff.1 h
    obtain ⟨hgroups, hlength⟩ := Option.filter_eq_some_iff.1 hgroups
    unfold IpAddr.groupsOf at hgroups
    split at hgroups
    · cases hgroups
      cases hlength
    · have hsingle : Str.split ':' text = [text] := List.splitOnP_eq_singleton fun c hc => by
        simpa using fun heq : c = ':' => hcolon (heq ▸ hc)
      rw [hsingle] at hgroups
      have hshort := length_parseGroups_singleton hgroups
      have height : groups.length = 8 := eq_of_beq hlength
      omega

/-- No text that begins with a bracket is an address. -/
theorem parseV6_bracket (s : Str) : IpAddr.parseV6 ('[' :: s) = none := by
  unfold IpAddr.parseV6
  cases hsplit : Str.splitOnceStr "::" ('[' :: s) with
  | none => simp [groupsOf_bracket]
  | some parts =>
    obtain ⟨head, tail⟩ := parts
    have hhead : ∃ rest, head = '[' :: rest := by
      unfold Str.splitOnceStr at hsplit
      have hstrip : Str.stripPrefix "::" ('[' :: s) = none := by
        cases hstrip : Str.stripPrefix "::" ('[' :: s) with
        | none => rfl
        | some rest =>
          have happend := Str.stripPrefix_eq_some.1 hstrip
          cases happend
      rw [hstrip] at hsplit
      obtain ⟨p, -, hp⟩ := Option.map_eq_some_iff.1 hsplit
      exact ⟨p.1, (Prod.mk.inj hp).1.symm⟩
    obtain ⟨rest, rfl⟩ := hhead
    simp [groupsOf_bracket]

theorem parse_bracket (s : Str) : IpAddr.parse ('[' :: s) = none := by
  unfold IpAddr.parse
  rw [parseV4_bracket, parseV6_bracket]
  rfl

private theorem exists_v4_of_parseV4 {host : Str} {ip : IpAddr} (h : IpAddr.parseV4 host = some ip) :
    ∃ a b c d, ip = .v4 a b c d := by
  unfold IpAddr.parseV4 at h
  split at h
  · rename_i a b c d _
    exact ⟨a, b, c, d, (Option.some.inj h).symm⟩
  · cases h

/-- The check refuses a URL with a protected address exactly where the address is an IPv4 address as it stands, or where
the port of the URL is not known. -/
theorem refused_iff {resolve : Resolve} {url : Url} {host : Str} {ip : IpAddr} (hhost : url.hostStr = some host)
    (hliteral : HostLiteral host ip) (hprotected : Protected ip)
    (hfails : ∀ s port, resolve ('[' :: s) port = none) :
    (∃ blocked, enforceAdminEgressPolicy resolve url ⟨true⟩ = .error blocked) ↔
      IpAddr.parseV4 host = some ip ∨ url.portOrKnownDefault = none := by
  unfold enforceAdminEgressPolicy
  simp only [Bool.not_true, Bool.false_eq_true, if_false, hhost]
  cases hliteral with
  | v4 hv4 =>
    have hparse : IpAddr.parse host = some ip := by
      unfold IpAddr.parse
      rw [hv4]
      rfl
    have hknown : isProtectedAdminEgressIp ip = true := by
      obtain ⟨a, b, c, d, rfl⟩ := exists_v4_of_parseV4 hv4
      exact isProtected_of_v4 hprotected
    rw [hparse]
    simp only [hknown, if_true]
    exact iff_of_true ⟨_, rfl⟩ (Or.inl hv4)
  | v6 hv6 =>
    rw [parse_bracket, parseV4_bracket]
    simp only [reduceCtorEq, false_or]
    cases hport : url.portOrKnownDefault with
    | none => exact iff_of_true ⟨_, rfl⟩ rfl
    | some port =>
      simp only [hfails, reduceCtorEq, exists_false]

/-! ### The host itself, in both families -/

private def ipv4Url : Url :=
  { Url.loopback with
    hostStr := some "127.0.0.1"
    path := "/admin"
    host_shape := fun _ => ⟨"127.0.0.1", rfl, specialHost_of_isHostName rfl⟩ }

private def ipv6Url : Url := { Url.loopback with path := "/admin" }

theorem refused_iff_ipv4 :
    (∃ blocked, enforceAdminEgressPolicy (fun _ _ => none) ipv4Url ⟨true⟩ = .error blocked) ↔
      IpAddr.parseV4 "127.0.0.1" = some (.v4 127 0 0 1) ∨ ipv4Url.portOrKnownDefault = none :=
  refused_iff rfl (.v4 (by decide +kernel)) (.loopback4 0 0 1) fun _ _ => rfl

theorem not_refused :
    ¬ ∀ (resolve : Resolve) (url : Url) (host : Str) (ip : IpAddr), url.hostStr = some host → HostLiteral host ip →
      Protected ip → (∀ s port, resolve ('[' :: s) port = none) →
      ∃ blocked, enforceAdminEgressPolicy resolve url ⟨true⟩ = .error blocked := by
  intro h
  obtain ⟨blocked, hblocked⟩ := h (fun _ _ => none) ipv6Url "[::1]" (.v6 1) rfl
    (.v6 (show IpAddr.parseV6 "::1" = some (.v6 1) by decide +kernel)) .loopback6 fun _ _ => rfl
  have hpasses : enforceAdminEgressPolicy (fun _ _ => none) ipv6Url ⟨true⟩ = .ok () := by rfl
  rw [hpasses] at hblocked
  cases hblocked

end Egress

end Oproxy
