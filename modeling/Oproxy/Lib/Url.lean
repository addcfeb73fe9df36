import Oproxy.Lib.Text

/-!
# URLs

The values which a URL parser returns.  A `Url` carries what the URL standard promises of a parsed URL: the host of
an `http` or `https` URL is a lower-case name or a bracketed IPv6 address, and a port is kept only when it is not
the scheme's own.  The parser itself is a parameter wherever one is used.
-/

/-- A host as a parsed `http` or `https` URL has it. -/
def SpecialHost (host : Str) : Prop :=
  (∃ address : Str, host = '[' :: (address ++ [']']) ∧ ']' ∉ address ∧ address.toAsciiLowercase = address) ∨
    (host ≠ [] ∧ ':' ∉ host ∧ '[' ∉ host ∧ host.toAsciiLowercase = host ∧
      ∀ c ∈ host, Str.isWhitespace c = false)

/-- The port a scheme stands for. -/
def defaultPort (scheme : Str) : Option Nat :=
  if scheme = ("http" : Str) ∨ scheme = ("ws" : Str) then some 80
  else if scheme = ("https" : Str) ∨ scheme = ("wss" : Str) then some 443
  else if scheme = ("ftp" : Str) then some 21
  else none

structure Url where
  scheme : Str
  hostStr : Option Str
  port : Option Nat
  path : Str
  query : Option Str
  host_shape : scheme = ("http" : Str) ∨ scheme = ("https" : Str) → ∃ host, hostStr = some host ∧ SpecialHost host
  port_lt : ∀ p, port = some p → p ≤ 65535
  port_ne_default : ∀ p, port = some p → defaultPort scheme ≠ some p

/-- A name which may be the host of such a URL. -/
def isHostName (host : Str) : Bool :=
  !host.isEmpty && decide (':' ∉ host) && decide ('[' ∉ host) && host.toAsciiLowercase == host &&
    host.all fun c => !Str.isWhitespace c

theorem specialHost_of_isHostName {host : Str} (h : isHostName host = true) : SpecialHost host := by
  unfold isHostName at h
  simp only [Bool.and_eq_true, Bool.not_eq_true', List.isEmpty_eq_false_iff, decide_eq_true_eq,
    beq_iff_eq, List.all_eq_true] at h
  exact Or.inr ⟨h.1.1.1.1, h.1.1.1.2, h.1.1.2, h.1.2, h.2⟩

namespace Url

/-- A URL with the port of its scheme. -/
def ofHost (scheme host path : Str) (h : isHostName host = true) : Url where
  scheme := scheme
  hostStr := some host
  port := none
  path := path
  query := none
  host_shape _ := ⟨host, rfl, specialHost_of_isHostName h⟩
  port_lt _ hport := by cases hport
  port_ne_default _ hport := by cases hport

/-- `http://[::1]:8080/`. -/
def loopback : Url where
  scheme := "http"
  hostStr := some "[::1]"
  port := some 8080
  path := "/"
  query := none
  host_shape _ := ⟨"[::1]", rfl, Or.inl ⟨"::1", rfl, by decide, by decide⟩⟩
  port_lt := by decide
  port_ne_default := by decide

/-- The port the URL names, the scheme's own where it names none. -/
def portOrKnownDefault (u : Url) : Option Nat := u.port.orElse fun _ => defaultPort u.scheme

def isWeb (u : Url) : Bool := u.scheme == ("http" : Str) || u.scheme == ("https" : Str)

/-- The host and, when it is not the scheme's own, the port. -/
def authorityText (u : Url) : Str :=
  match u.port with
  | some port => u.hostStr.getD [] ++ ':' :: Str.ofNat port
  | none => u.hostStr.getD []

/-- The origin of the URL as a browser writes it. -/
def originText (u : Url) : Str := u.scheme ++ ("://" : Str) ++ u.authorityText

theorem isWeb_iff {u : Url} : u.isWeb = true ↔ u.scheme = ("http" : Str) ∨ u.scheme = ("https" : Str) := by
  simp [isWeb]

/-! ### The scheme and the port in the text of a URL -/

/-- The characters which end the authority. -/
def endsAuthority (c : Char) : Bool := c == '/' || c == '?' || c == '#'

/-- The authority at the start of what follows `://`. -/
def authorityIn (rest : Str) : Str := rest.takeWhile fun c => !endsAuthority c

/-- The text of the port in an authority; the colons of a bracketed address start none. -/
def portText (authority : Str) : Option Str :=
  ((Str.rsplitOnce ':' authority).map Prod.snd).filter fun port => ']' ∉ port

/-- The port an authority stands for: the scheme's own where it names none, and none where the text is no port. -/
def portIn (scheme authority : Str) : Option Nat :=
  match portText authority with
  | none => defaultPort scheme
  | some [] => defaultPort scheme
  | some port => if port.all Str.isAsciiDigit then Str.parseUnsigned 65535 port else none

def textSchemeAndPort (text : Str) : Option (Str × Option Nat) :=
  (Str.splitOnceStr "://" text).map fun (scheme, rest) => (scheme, portIn scheme (authorityIn rest))

theorem textSchemeAndPort_append {scheme : Str} (h : ':' ∉ scheme) (rest : Str) :
    textSchemeAndPort (scheme ++ ("://" : Str) ++ rest) = some (scheme, portIn scheme (authorityIn rest)) := by
  have hsplit : Str.splitOnceStr "://" (scheme ++ ("://" : Str) ++ rest) = some (scheme, rest) :=
    Str.splitOnceStr_append h ['/', '/'] rest
  unfold textSchemeAndPort
  rw [hsplit, Option.map_some]

theorem authorityIn_append {authority : Str} (h : ∀ c ∈ authority, endsAuthority c = false) (rest : Str) :
    authorityIn (authority ++ rest) = authority ++ authorityIn rest := by
  unfold authorityIn
  apply List.takeWhile_append_of_pos
  intro c hc
  rw [h c hc]
  rfl

theorem authorityIn_cons_end {c : Char} (h : endsAuthority c = true) (rest : Str) : authorityIn (c :: rest) = [] := by
  unfold authorityIn
  rw [List.takeWhile_cons_of_neg (by simp [h])]

theorem portText_append {port : Str} (hcolon : ':' ∉ port) (hbracket : ']' ∉ port) (host : Str) :
    portText (host ++ ':' :: port) = some port := by
  unfold portText
  rw [Str.rsplitOnce_append hcolon]
  simp [hbracket]

private theorem not_mem_ofNat {c : Char} (h : Str.isAsciiDigit c = false) (n : Nat) : c ∉ Str.ofNat n := by
  intro hc
  rw [Str.isAsciiDigit_of_mem_ofNat hc] at h
  cases h

/-- An authority with a port has that port. -/
theorem portIn_ofNat {port : Nat} (h : port ≤ 65535) (scheme host : Str) :
    portIn scheme (host ++ ':' :: Str.ofNat port) = some port := by
  have htext : portText (host ++ ':' :: Str.ofNat port) = some (Str.ofNat port) :=
    portText_append (not_mem_ofNat (by decide) port) (not_mem_ofNat (by decide) port) host
  have hdigits : (Str.ofNat port).all Str.isAsciiDigit = true :=
    List.all_eq_true.2 fun c hc => Str.isAsciiDigit_of_mem_ofNat hc
  unfold portIn
  rw [htext]
  split
  · rename_i heq
    cases heq
  · rename_i heq
    exact absurd (Option.some.inj heq) (Str.ofNat_ne_nil port)
  · rename_i heq
    rw [← Option.some.inj heq, if_pos hdigits, Str.parseUnsigned_ofNat h]

/-- A port with anything but digits behind it is none. -/
theorem portIn_ofNat_append {c : Char} (hdigit : Str.isAsciiDigit c = false) (hcolon : c ≠ ':') (hbracket : c ≠ ']')
    (port : Nat) (scheme host : Str) : portIn scheme (host ++ ':' :: (Str.ofNat port ++ [c])) = none := by
  have htext : portText (host ++ ':' :: (Str.ofNat port ++ [c])) = some (Str.ofNat port ++ [c]) := by
    apply portText_append
    · simp [not_mem_ofNat (c := ':') (by decide) port, Ne.symm hcolon]
    · simp [not_mem_ofNat (c := ']') (by decide) port, Ne.symm hbracket]
  unfold portIn
  rw [htext]
  split
  · rename_i heq
    cases heq
  · rename_i heq
    simp at heq
  · rename_i heq
    rw [← Option.some.inj heq]
    simp [hdigit]

end Url
