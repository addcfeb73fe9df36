import Oproxy.Lib.Normalize
import Oproxy.Transport.Socks5Handshake

/-!
# The grammar of the SOCKS5 handshake (`transport/socks5.rs`)

A greeting and a request are records with their encodings.  The handshake accepts exactly the streams which begin with
the encodings of such records.  The accepted target is written down twice: the tunnel puts an IPv6 address in brackets,
the interception does not.
-/

namespace Oproxy

namespace Socks5

structure Greeting where
  methods : Bytes
  length_lt : methods.length < 256

def Greeting.encode (greeting : Greeting) : Bytes :=
  5 :: UInt8.ofNat greeting.methods.length :: greeting.methods

inductive Address where
  | ipv4 (ip : Bytes) (length_eq : ip.length = 4)
  | domain (name : Str) (length_lt : name.toUtf8.length < 256)
  | ipv6 (ip : Bytes) (length_eq : ip.length = 16)

namespace Address

def addrType : Address → UInt8
  | ipv4 _ _ => 1
  | domain _ _ => 3
  | ipv6 _ _ => 4

def encode : Address → Bytes
  | ipv4 ip _ => ip
  | domain name _ => UInt8.ofNat name.toUtf8.length :: name.toUtf8
  | ipv6 ip _ => ip

def host : Address → Str
  | ipv4 ip _ => ipv4Text ip
  | domain name _ => name
  | ipv6 ip _ => ipv6Text ip

end Address

structure ConnectRequest where
  reserved : UInt8
  address : Address
  portHigh : UInt8
  portLow : UInt8

namespace ConnectRequest

def encode (request : ConnectRequest) : Bytes :=
  5 :: 1 :: request.reserved :: request.address.addrType ::
    (request.address.encode ++ [request.portHigh, request.portLow])

def target (request : ConnectRequest) : Socks5Target :=
  ⟨request.address.host, 256 * request.portHigh.toNat + request.portLow.toNat⟩

end ConnectRequest

/-- What is to be written in reply to a stream. -/
inductive Replies : Bytes → Bytes → Prop where
  | nothing {stream : Bytes} (h : ∀ (greeting : Greeting) rest, stream ≠ greeting.encode ++ rest) : Replies stream []
  | noMethod {greeting : Greeting} {rest : Bytes} (h : 0 ∉ greeting.methods) :
      Replies (greeting.encode ++ rest) [5, 0xff]
  | method {greeting : Greeting} {rest : Bytes} (h : 0 ∈ greeting.methods)
      (hcommand : ∀ command reserved addrType tail,
        rest = 5 :: command :: reserved :: addrType :: tail → command = 1) :
      Replies (greeting.encode ++ rest) [5, 0]
  | noCommand {greeting : Greeting} {command reserved addrType : UInt8} {tail : Bytes} (h : 0 ∈ greeting.methods)
      (hcommand : command ≠ 1) :
      Replies (greeting.encode ++ 5 :: command :: reserved :: addrType :: tail) ([5, 0] ++ commandNotSupported)

/-! ### Segments -/

section

variable {S T : Type} {read : Nat → S → Option (Bytes × S)} {read' : Nat → T → Option (Bytes × T)} {f : S → T}

/-- What is read of one stream is read of the other. -/
def SameReads (read : Nat → S → Option (Bytes × S)) (read' : Nat → T → Option (Bytes × T)) (f : S → T) : Prop :=
  ∀ n stream, (read n stream).map (Prod.map id f) = read' n (f stream)

theorem map_bind {ε α α' β β' : Type} {x : Except ε α} {x' : Except ε α'} {p : α → α'} (hx : x.map p = x')
    {k : α → Except ε β} {k' : α' → Except ε β'} {q : β → β'} (hk : ∀ a, (k a).map q = k' (p a)) :
    (x >>= k).map q = x' >>= k' := by
  subst hx
  cases x with
  | error e => rfl
  | ok a => exact hk a

theorem readExact_map (h : SameReads read read' f) (n : Nat) (stream : S) :
    (readExact read n stream).map (Prod.map id f) = readExact read' n (f stream) := by
  unfold readExact
  rw [← h n stream]
  cases read n stream with
  | none => rfl
  | some r => rfl

theorem readU8_map (h : SameReads read read' f) (stream : S) :
    (readU8 read stream).map (Prod.map id f) = readU8 read' (f stream) := by
  unfold readU8
  exact map_bind (readExact_map h 1 stream) fun _ => rfl

theorem greet_map (h : SameReads read read' f) (stream : S) :
    Prod.map (Except.map f) id (greet read stream) = greet read' (f stream) := by
  unfold greet
  rw [← readExact_map h 2 stream]
  cases readExact read 2 stream with
  | error e => rfl
  | ok r =>
    obtain ⟨buf, stream⟩ := r
    by_cases hversion : buf.getD 0 0 ≠ 5
    · simp only [Except.map, Prod.map, id, if_pos hversion]
    · simp only [Except.map, Prod.map, id, if_neg hversion]
      rw [← readExact_map h _ stream]
      cases readExact read (buf.getD 1 0).toNat stream with
      | error e => rfl
      | ok r =>
        obtain ⟨methods, stream⟩ := r
        by_cases hmethod : 0 ∉ methods
        · simp only [Except.map, Prod.map, id, if_pos hmethod]
        · simp only [Except.map, Prod.map, id, if_neg hmethod]

theorem readHost_map (h : SameReads read read' f) (addrType : UInt8) (stream : S) :
    (readHost read addrType stream).map (Prod.map id f) = readHost read' addrType (f stream) := by
  unfold readHost
  by_cases h4 : addrType = 1
  · rw [if_pos h4, if_pos h4]
    exact map_bind (readExact_map h 4 stream) fun _ => rfl
  rw [if_neg h4, if_neg h4]
  by_cases hdomain : addrType = 3
  · rw [if_pos hdomain, if_pos hdomain]
    refine map_bind (readU8_map h stream) ?_
    rintro ⟨length, stream⟩
    refine map_bind (readExact_map h length.toNat stream) ?_
    rintro ⟨name, stream⟩
    dsimp only [Prod.map, id]
    cases fromUtf8 name with
    | none => rfl
    | some host => rfl
  rw [if_neg hdomain, if_neg hdomain]
  by_cases h6 : addrType = 4
  · rw [if_pos h6, if_pos h6]
    exact map_bind (readExact_map h 16 stream) fun _ => rfl
  · rw [if_neg h6, if_neg h6]
    rfl

theorem readTarget_map (h : SameReads read read' f) (addrType : UInt8) (stream : S) :
    (readTarget read addrType stream).map (Prod.map id f) = readTarget read' addrType (f stream) := by
  unfold readTarget
  refine map_bind (readHost_map h addrType stream) ?_
  rintro ⟨host, stream⟩
  refine map_bind (readU8_map h stream) ?_
  rintro ⟨high, stream⟩
  exact map_bind (readU8_map h stream) fun _ => rfl

theorem readRequest_map (h : SameReads read read' f) (stream : S) :
    Prod.map (Except.map (Prod.map id f)) id (readRequest read stream) = readRequest read' (f stream) := by
  unfold readRequest
  rw [← readExact_map h 4 stream]
  cases readExact read 4 stream with
  | error e => rfl
  | ok r =>
    obtain ⟨hdr, stream⟩ := r
    by_cases hversion : hdr.getD 0 0 ≠ 5
    · simp only [Except.map, Prod.map, id, if_pos hversion]
    by_cases hcommand : hdr.getD 1 0 ≠ 1
    · simp only [Except.map, Prod.map, id, if_neg hversion, if_pos hcommand]
    · simp only [Except.map, Prod.map, id, if_neg hversion, if_neg hcommand]
      rw [← readTarget_map h]
      rfl

/-- The handshake depends on what the stream is, not on how it is cut. -/
theorem handshake_map (h : SameReads read read' f) (stream : S) :
    Prod.map (Except.map (Prod.map id f)) id (handshake read stream) = handshake read' (f stream) := by
  unfold handshake
  rw [← greet_map h stream]
  rcases greet read stream with ⟨_ | stream, written⟩
  · rfl
  · dsimp only [Except.map, Prod.map, id]
    rw [← readRequest_map h stream]
    rfl

end

/-! ### The whole stream -/

theorem readExact_eq_ok {n : Nat} {stream a rest : Bytes} :
    readExact Segments.takeExact n stream = .ok (a, rest) ↔ stream = a ++ rest ∧ a.length = n := by
  unfold readExact
  rw [← Segments.takeExact_eq_some]
  cases Segments.takeExact n stream with
  | none => simp
  | some r => simp

theorem readU8_eq_ok {stream rest : Bytes} {b : UInt8} :
    readU8 Segments.takeExact stream = .ok (b, rest) ↔ stream = b :: rest := by
  unfold readU8
  simp only [Normalize.bind_eq_ok, Prod.exists, readExact_eq_ok, List.length_eq_one_iff]
  constructor
  · rintro ⟨a, s, ⟨rfl, c, rfl⟩, heq⟩
    cases heq
    rfl
  · rintro rfl
    exact ⟨[b], rest, ⟨rfl, b, rfl⟩, rfl⟩

theorem fromUtf8_eq_some {bytes : Bytes} {text : Str} : fromUtf8 bytes = some text ↔ bytes = text.toUtf8 := by
  unfold fromUtf8
  dsimp only
  constructor
  · intro h
    split at h
    · rename_i hsame
      cases h
      exact hsame.symm
    · cases h
  · rintro rfl
    rw [Utf8.decodeLossy_toUtf8, if_pos rfl]

/-- The host is read exactly where the stream begins with an address of that type. -/
theorem readHost_eq_ok {addrType : UInt8} {stream rest : Bytes} {host : Str} :
    readHost Segments.takeExact addrType stream = .ok (host, rest) ↔
      ∃ address : Address, address.addrType = addrType ∧ stream = address.encode ++ rest ∧ address.host = host := by
  constructor
  · intro h
    unfold readHost at h
    split at h
    · rename_i htype
      simp only [Normalize.bind_eq_ok, Prod.exists, readExact_eq_ok] at h
      obtain ⟨ip, s, ⟨rfl, hlength⟩, heq⟩ := h
      cases heq
      exact ⟨.ipv4 ip hlength, htype.symm, rfl, rfl⟩
    split at h
    · rename_i htype
      simp only [Normalize.bind_eq_ok, Prod.exists, readExact_eq_ok, readU8_eq_ok] at h
      obtain ⟨length, s, rfl, bytes, s, ⟨rfl, hlength⟩, h⟩ := h
      cases hname : fromUtf8 bytes with
      | none =>
        rw [hname] at h
        cases h
      | some name =>
        rw [hname] at h
        have hbytes := fromUtf8_eq_some.1 hname
        subst hbytes
        cases h
        refine ⟨.domain host (hlength ▸ length.toNat_lt), htype.symm, ?_, rfl⟩
        show _ = UInt8.ofNat host.toUtf8.length :: host.toUtf8 ++ rest
        rw [hlength, UInt8.ofNat_toNat]
        rfl
    split at h
    · rename_i htype
      simp only [Normalize.bind_eq_ok, Prod.exists, readExact_eq_ok] at h
      obtain ⟨ip, s, ⟨rfl, hlength⟩, heq⟩ := h
      cases heq
      exact ⟨.ipv6 ip hlength, htype.symm, rfl, rfl⟩
    · cases h
  · rintro ⟨address, rfl, rfl, rfl⟩
    cases address with
    | ipv4 ip hlength =>
      show readHost Segments.takeExact 1 (ip ++ rest) = .ok (ipv4Text ip, rest)
      unfold readHost
      rw [if_pos rfl]
      exact Normalize.bind_eq_ok.2 ⟨(ip, rest), readExact_eq_ok.2 ⟨rfl, hlength⟩, rfl⟩
    | domain name hlength =>
      show readHost Segments.takeExact 3 (UInt8.ofNat name.toUtf8.length :: (name.toUtf8 ++ rest)) = .ok (name, rest)
      unfold readHost
      rw [if_neg (by decide), if_pos rfl]
      refine Normalize.bind_eq_ok.2 ⟨(UInt8.ofNat name.toUtf8.length, name.toUtf8 ++ rest), readU8_eq_ok.2 rfl, ?_⟩
      have hnat : (UInt8.ofNat name.toUtf8.length).toNat = name.toUtf8.length := UInt8.toNat_ofNat_of_lt hlength
      refine Normalize.bind_eq_ok.2 ⟨(name.toUtf8, rest), readExact_eq_ok.2 ⟨rfl, hnat.symm⟩, ?_⟩
      dsimp only
      rw [fromUtf8_eq_some.2 rfl]
      rfl
    | ipv6 ip hlength =>
      show readHost Segments.takeExact 4 (ip ++ rest) = .ok (ipv6Text ip, rest)
      unfold readHost
      rw [if_neg (by decide), if_neg (by decide), if_pos rfl]
      exact Normalize.bind_eq_ok.2 ⟨(ip, rest), readExact_eq_ok.2 ⟨rfl, hlength⟩, rfl⟩

theorem readTarget_eq_ok {addrType : UInt8} {stream rest : Bytes} {target : Socks5Target} :
    readTarget Segments.takeExact addrType stream = .ok (target, rest) ↔
      ∃ (address : Address) (high low : UInt8), address.addrType = addrType ∧
        stream = address.encode ++ high :: low :: rest ∧ target = ⟨address.host, 256 * high.toNat + low.toNat⟩ := by
  unfold readTarget
  simp only [Normalize.bind_eq_ok, Prod.exists, readHost_eq_ok, readU8_eq_ok]
  constructor
  · rintro ⟨host, s, ⟨address, htype, rfl, rfl⟩, high, s, rfl, low, s, rfl, heq⟩
    cases heq
    exact ⟨address, high, low, htype, rfl, rfl⟩
  · rintro ⟨address, high, low, htype, rfl, rfl⟩
    exact ⟨_, _, ⟨address, htype, rfl, rfl⟩, high, _, rfl, low, rest, rfl, rfl⟩

/-- A greeting is answered by its methods. -/
theorem greet_encode (greeting : Greeting) (rest : Bytes) :
    greet Segments.takeExact (greeting.encode ++ rest) =
      if 0 ∉ greeting.methods then (.error .noAcceptableMethod, [5, 0xff]) else (.ok rest, [5, 0]) := by
  have hhead : readExact Segments.takeExact 2 (greeting.encode ++ rest) =
      .ok ([5, UInt8.ofNat greeting.methods.length], greeting.methods ++ rest) := readExact_eq_ok.2 ⟨rfl, rfl⟩
  have hnat : (UInt8.ofNat greeting.methods.length).toNat = greeting.methods.length :=
    UInt8.toNat_ofNat_of_lt greeting.length_lt
  have hmethods : readExact Segments.takeExact (UInt8.ofNat greeting.methods.length).toNat (greeting.methods ++ rest) =
      .ok (greeting.methods, rest) := readExact_eq_ok.2 ⟨rfl, hnat.symm⟩
  unfold greet
  rw [hhead]
  simp only [List.getD_cons_zero, List.getD_cons_succ, ne_eq, not_true_eq_false, if_false]
  rw [hmethods]

/-- Without a greeting nothing is written. -/
theorem greet_of_not {stream : Bytes} (h : ∀ (greeting : Greeting) rest, stream ≠ greeting.encode ++ rest) :
    ∃ e, greet Segments.takeExact stream = (.error e, []) := by
  unfold greet
  cases hhead : readExact Segments.takeExact 2 stream with
  | error e => exact ⟨e, rfl⟩
  | ok r =>
    obtain ⟨buf, tail⟩ := r
    obtain ⟨rfl, hbuf⟩ := readExact_eq_ok.1 hhead
    obtain ⟨version, length, rfl⟩ := List.length_eq_two.1 hbuf
    simp only [List.getD_cons_zero, List.getD_cons_succ]
    by_cases hversion : version ≠ 5
    · exact ⟨_, if_pos hversion⟩
    rw [if_neg hversion]
    cases hmethods : readExact Segments.takeExact length.toNat tail with
    | error e => exact ⟨e, rfl⟩
    | ok r =>
      obtain ⟨methods, rest⟩ := r
      obtain ⟨rfl, hlength⟩ := readExact_eq_ok.1 hmethods
      have hlt : methods.length < 256 := hlength ▸ length.toNat_lt
      refine absurd ?_ (h ⟨methods, hlt⟩ rest)
      show _ = 5 :: UInt8.ofNat methods.length :: methods ++ rest
      rw [not_not.1 hversion, hlength, UInt8.ofNat_toNat]
      rfl

theorem readRequest_head (command reserved addrType : UInt8) (tail : Bytes) :
    readRequest Segments.takeExact (5 :: command :: reserved :: addrType :: tail) =
      if command ≠ 1 then (.error (.unsupportedCommand command), commandNotSupported)
      else (readTarget Segments.takeExact addrType tail, []) := by
  have hhead : readExact Segments.takeExact 4 (5 :: command :: reserved :: addrType :: tail) =
      .ok ([5, command, reserved, addrType], tail) := readExact_eq_ok.2 ⟨rfl, rfl⟩
  unfold readRequest
  rw [hhead]
  rfl

theorem readRequest_of_not {stream : Bytes}
    (h : ∀ command reserved addrType tail, stream ≠ 5 :: command :: reserved :: addrType :: tail) :
    ∃ e, readRequest Segments.takeExact stream = (.error e, []) := by
  unfold readRequest
  cases hhead : readExact Segments.takeExact 4 stream with
  | error e => exact ⟨e, rfl⟩
  | ok r =>
    obtain ⟨hdr, tail⟩ := r
    obtain ⟨rfl, hlength⟩ := readExact_eq_ok.1 hhead
    obtain ⟨version, command, reserved, addrType, rfl⟩ : ∃ a b c d, hdr = [a, b, c, d] := by
      rcases hdr with _ | ⟨a, _ | ⟨b, _ | ⟨c, _ | ⟨d, _ | ⟨_, _⟩⟩⟩⟩⟩ <;> simp at hlength
      exact ⟨a, b, c, d, rfl⟩
    by_cases hversion : version ≠ 5
    · exact ⟨.badVersion version, if_pos hversion⟩
    · exact absurd (by rw [not_not.1 hversion]; rfl) (h command reserved addrType tail)

/-- The handshake on the whole stream, where there is a greeting with the method. -/
theorem handshake_of_method {greeting : Greeting} (h : 0 ∈ greeting.methods) (rest : Bytes) :
    handshake Segments.takeExact (greeting.encode ++ rest) =
      ((readRequest Segments.takeExact rest).1, [5, 0] ++ (readRequest Segments.takeExact rest).2) := by
  unfold handshake
  rw [greet_encode, if_neg (not_not.2 h)]

theorem handshake_of_noMethod {greeting : Greeting} (h : 0 ∉ greeting.methods) (rest : Bytes) :
    handshake Segments.takeExact (greeting.encode ++ rest) = (.error .noAcceptableMethod, [5, 0xff]) := by
  unfold handshake
  rw [greet_encode, if_pos h]

theorem handshake_of_not {stream : Bytes} (h : ∀ (greeting : Greeting) rest, stream ≠ greeting.encode ++ rest) :
    ∃ e, handshake Segments.takeExact stream = (.error e, []) := by
  obtain ⟨e, hgreet⟩ := greet_of_not h
  unfold handshake
  rw [hgreet]
  exact ⟨e, rfl⟩

/-- A request is accepted exactly where the stream begins with one. -/
theorem readRequest_eq_ok {stream rest : Bytes} {target : Socks5Target} :
    (readRequest Segments.takeExact stream).1 = .ok (target, rest) ↔
      ∃ request : ConnectRequest, stream = request.encode ++ rest ∧ request.target = target := by
  constructor
  · intro h
    by_cases hhead : ∃ command reserved addrType tail, stream = 5 :: command :: reserved :: addrType :: tail
    · obtain ⟨command, reserved, addrType, tail, rfl⟩ := hhead
      rw [readRequest_head] at h
      by_cases hcommand : command ≠ 1
      · rw [if_pos hcommand] at h
        cases h
      · rw [if_neg hcommand] at h
        obtain ⟨address, high, low, rfl, rfl, rfl⟩ := readTarget_eq_ok.1 h
        refine ⟨⟨reserved, address, high, low⟩, ?_, rfl⟩
        rw [not_not.1 hcommand]
        simp [ConnectRequest.encode]
    · obtain ⟨e, herror⟩ := readRequest_of_not fun command reserved addrType tail heq =>
        hhead ⟨command, reserved, addrType, tail, heq⟩
      rw [herror] at h
      cases h
  · rintro ⟨request, rfl, rfl⟩
    have hencode : request.encode ++ rest = 5 :: 1 :: request.reserved :: request.address.addrType ::
        (request.address.encode ++ request.portHigh :: request.portLow :: rest) := by
      simp [ConnectRequest.encode]
    rw [hencode, readRequest_head, if_neg (by decide)]
    exact readTarget_eq_ok.2 ⟨request.address, request.portHigh, request.portLow, rfl, rfl, rfl⟩

/-- The handshake accepts exactly its grammar. -/
theorem handshake_eq_ok {stream rest : Bytes} {target : Socks5Target} :
    (handshake Segments.takeExact stream).1 = .ok (target, rest) ↔
      ∃ (greeting : Greeting) (request : ConnectRequest), 0 ∈ greeting.methods ∧
        stream = greeting.encode ++ (request.encode ++ rest) ∧ request.target = target := by
  constructor
  · intro h
    by_cases hgreeting : ∃ (greeting : Greeting) (tail : Bytes), stream = greeting.encode ++ tail
    · obtain ⟨greeting, tail, rfl⟩ := hgreeting
      by_cases hmethod : 0 ∈ greeting.methods
      · rw [handshake_of_method hmethod] at h
        obtain ⟨request, rfl, rfl⟩ := readRequest_eq_ok.1 h
        exact ⟨greeting, request, hmethod, rfl, rfl⟩
      · rw [handshake_of_noMethod hmethod] at h
        cases h
    · obtain ⟨e, herror⟩ := handshake_of_not fun greeting tail heq => hgreeting ⟨greeting, tail, heq⟩
      rw [herror] at h
      cases h
  · rintro ⟨greeting, request, hmethod, rfl, rfl⟩
    rw [handshake_of_method hmethod]
    exact readRequest_eq_ok.2 ⟨request, rfl, rfl⟩

/-- What is written is what is to be written. -/
theorem replies_handshake (stream : Bytes) : Replies stream (handshake Segments.takeExact stream).2 := by
  by_cases hgreeting : ∃ (greeting : Greeting) (tail : Bytes), stream = greeting.encode ++ tail
  · obtain ⟨greeting, tail, rfl⟩ := hgreeting
    by_cases hmethod : 0 ∈ greeting.methods
    · rw [handshake_of_method hmethod]
      by_cases hhead : ∃ command reserved addrType rest, tail = 5 :: command :: reserved :: addrType :: rest
      · obtain ⟨command, reserved, addrType, rest, rfl⟩ := hhead
        rw [readRequest_head]
        by_cases hcommand : command ≠ 1
        · rw [if_pos hcommand]
          exact .noCommand hmethod hcommand
        · rw [if_neg hcommand]
          refine .method hmethod fun command' reserved' addrType' rest' heq => ?_
          cases heq
          exact not_not.1 hcommand
      · have hnone : ∀ command reserved addrType rest, tail ≠ 5 :: command :: reserved :: addrType :: rest :=
          fun command reserved addrType rest heq => hhead ⟨command, reserved, addrType, rest, heq⟩
        obtain ⟨e, herror⟩ := readRequest_of_not hnone
        rw [herror]
        exact .method hmethod fun command reserved addrType rest heq =>
          absurd heq (hnone command reserved addrType rest)
    · rw [handshake_of_noMethod hmethod]
      exact .noMethod hmethod
  · have hnone : ∀ (greeting : Greeting) tail, stream ≠ greeting.encode ++ tail :=
      fun greeting tail heq => hgreeting ⟨greeting, tail, heq⟩
    obtain ⟨e, herror⟩ := handshake_of_not hnone
    rw [herror]
    exact .nothing hnone

/-! ### Authorities -/

/-- A character of a host name: ASCII, and no delimiter of a URL. -/
def isNameChar (c : Char) : Bool := '!' ≤ c && c ≤ '~' && !"#%/:<>?@[\\]^|".toList.contains c

def IsName (host : Str) : Prop := host ≠ [] ∧ host.all isNameChar = true

/-- A host with a port, as a text: the host is a name, or an IPv6 address in brackets. -/
inductive Denotes : Str → Str ⊕ IpAddr → Nat → Prop where
  | name {host : Str} {port : Nat} (h : IsName host) : Denotes (host ++ ':' :: Str.ofNat port) (.inl host) port
  | address {text : Str} {ip : IpAddr} {port : Nat} (h : IpAddr.parseV6 text = some ip) :
      Denotes ('[' :: (text ++ [']']) ++ ':' :: Str.ofNat port) (.inr ip) port

/-- The intercepted connection and the tunnel go to the same host and port. -/
def SameDial (target : Socks5Target) : Prop :=
  ∃ host port, Denotes (mitmAuthority target) host port ∧ Denotes (connectAddr target) host port

/-- The hosts of authorities: a name, or an IPv6 address in brackets. -/
def IsHost (host : Str) : Prop :=
  IsName host ∨ ∃ text, host = '[' :: (text ++ [']']) ∧ (IpAddr.parseV6 text).isSome

theorem colon_not_mem_of_isName {host : Str} (h : IsName host) : ':' ∉ host := fun hmem =>
  absurd (List.all_eq_true.1 h.2 ':' hmem) (by decide)

theorem colon_not_mem_ofNat (n : Nat) : ':' ∉ Str.ofNat n := fun hmem =>
  absurd (Str.isAsciiDigit_of_mem_ofNat hmem) (by decide)

/-- What is not an IPv6 address is dialled as it stands. -/
theorem connectAddr_of_parseV6 {target : Socks5Target} (h : IpAddr.parseV6 target.host = none) :
    connectAddr target = mitmAuthority target := by
  unfold connectAddr mitmAuthority
  rw [h]
  rfl

/-- The two authorities agree exactly where the host is one of an authority. -/
theorem sameDial_iff {target : Socks5Target} : SameDial target ↔ IsHost target.host := by
  unfold SameDial
  constructor
  · rintro ⟨host, port, hmitm, -⟩
    obtain ⟨text, htext⟩ : ∃ text, mitmAuthority target = text := ⟨_, rfl⟩
    rw [htext] at hmitm
    unfold mitmAuthority at htext
    cases hmitm with
    | @name name _ hname =>
      obtain ⟨heq, -⟩ := (List.append_cons_inj_of_notMem (colon_not_mem_of_isName hname)
        (colon_not_mem_ofNat port)).1 htext.symm
      exact Or.inl (heq ▸ hname)
    | @address text ip _ hip =>
      have hhost : target.host = '[' :: (text ++ [']']) := by
        have hlast := congrArg (Str.rsplitOnce ':') htext
        rw [Str.rsplitOnce_append (colon_not_mem_ofNat _), Str.rsplitOnce_append (colon_not_mem_ofNat _)] at hlast
        exact congrArg Prod.fst (Option.some.inj hlast)
      exact Or.inr ⟨text, hhost, by rw [hip]; rfl⟩
  · rintro (hname | ⟨text, hhost, haddress⟩)
    · have hparse : IpAddr.parseV6 target.host = none := by
        cases hparse : IpAddr.parseV6 target.host with
        | none => rfl
        | some a => exact absurd (Egress.colon_mem_of_parseV6 hparse) (colon_not_mem_of_isName hname)
      refine ⟨.inl target.host, target.port, .name hname, ?_⟩
      rw [connectAddr_of_parseV6 hparse]
      exact .name hname
    · obtain ⟨ip, hip⟩ := Option.isSome_iff_exists.1 haddress
      have hauthority : Denotes (mitmAuthority target) (.inr ip) target.port := by
        unfold mitmAuthority
        rw [hhost]
        exact .address hip
      refine ⟨.inr ip, target.port, hauthority, ?_⟩
      rw [connectAddr_of_parseV6 (hhost ▸ Egress.parseV6_bracket _)]
      exact hauthority

/-! ### The texts of addresses -/

theorem mem_toDigits {base n : Nat} (hbase : 1 < base) {c : Char} (h : c ∈ Nat.toDigits base n) :
    ∃ d < base, c = Nat.digitChar d := by
  induction n using Nat.strong_induction_on with
  | _ n ih =>
    rw [Nat.toDigits_eq_if hbase] at h
    split at h
    · rename_i hlt
      exact ⟨n, hlt, List.mem_singleton.1 h⟩
    · rename_i hle
      rcases List.mem_append.1 h with h | h
      · exact ih (n / base) (Nat.div_lt_self (by omega) hbase) h
      · exact ⟨n % base, Nat.mod_lt _ (by omega), List.mem_singleton.1 h⟩

theorem isNameChar_of_mem_toDigits {base n : Nat} (hbase : 1 < base) (hle : base ≤ 16) {c : Char}
    (h : c ∈ Nat.toDigits base n) : isNameChar c = true := by
  have hdigits : ∀ d < 16, isNameChar (Nat.digitChar d) = true := by decide
  obtain ⟨d, hlt, rfl⟩ := mem_toDigits hbase h
  exact hdigits d (by omega)

theorem isName_ipv4Text {ip : Bytes} (h : ip.length = 4) : IsName (ipv4Text ip) := by
  constructor
  · obtain ⟨a, rest, rfl⟩ := List.exists_cons_of_length_pos (show 0 < ip.length by omega)
    obtain ⟨b, rest, rfl⟩ := List.exists_cons_of_length_pos (show 0 < rest.length by simp at h; omega)
    unfold ipv4Text
    rw [List.map_cons, List.map_cons, List.intercalate_cons_cons]
    simp
  · refine List.all_eq_true.2 fun c hc => ?_
    rcases Str.mem_intercalate.1 hc with ⟨hdot, -⟩ | ⟨part, hpart, hc⟩
    · rw [List.mem_singleton.1 hdot]
      decide
    · obtain ⟨b, -, rfl⟩ := List.mem_map.1 hpart
      exact isNameChar_of_mem_toDigits (by decide) (by decide) hc

theorem bracket_not_mem_groupsText (groups : List Nat) : '[' ∉ groupsText groups := by
  intro h
  rcases Str.mem_intercalate.1 h with ⟨hcolon, -⟩ | ⟨part, hpart, hc⟩
  · exact absurd hcolon (by decide)
  · obtain ⟨group, -, rfl⟩ := List.mem_map.1 hpart
    exact absurd (isNameChar_of_mem_toDigits (by decide) (by decide) hc) (by decide)

theorem bracket_not_mem_ipv6Text (ip : Bytes) : '[' ∉ ipv6Text ip := by
  have hdouble : '[' ∉ ("::" : Str) := by decide
  unfold ipv6Text
  split
  · rintro h
    rcases List.mem_append.1 h with h | h
    · exact absurd h (by decide)
    · rcases Str.mem_intercalate.1 h with ⟨hdot, -⟩ | ⟨part, hpart, hc⟩
      · exact absurd hdot (by decide)
      · obtain ⟨b, -, rfl⟩ := List.mem_map.1 hpart
        exact absurd (Str.isAsciiDigit_of_mem_ofNat hc) (by decide)
  · dsimp only
    split
    · simp only [List.mem_append, hdouble, bracket_not_mem_groupsText, or_self, not_false_eq_true]
    · exact bracket_not_mem_groupsText _

/-- The text of an IPv6 address has a colon. -/
theorem colon_mem_ipv6Text {ip : Bytes} (h : ip.length = 16) : ':' ∈ ipv6Text ip := by
  unfold ipv6Text
  split
  · exact List.mem_append_left _ (by decide)
  · dsimp only
    split
    · exact List.mem_append_left _ (List.mem_append_right _ (by decide))
    · obtain ⟨a, b, c, d, rest, rfl⟩ : ∃ a b c d rest, ip = a :: b :: c :: d :: rest := by
        rcases ip with _ | ⟨a, _ | ⟨b, _ | ⟨c, _ | ⟨d, rest⟩⟩⟩⟩ <;> simp at h
        exact ⟨a, b, c, d, rest, rfl⟩
      unfold groupsText ipv6Groups ipv6Groups
      rw [List.map_cons, List.map_cons, List.intercalate_cons_cons]
      simp

/-- A domain which is a host of an authority, or an IPv4 address. -/
def Address.Dialable : Address → Prop
  | .ipv4 _ _ => True
  | .domain name _ => IsHost name
  | .ipv6 _ _ => False

theorem Address.dialable_iff (address : Address) : address.Dialable ↔ IsHost address.host := by
  cases address with
  | ipv4 ip hlength => exact iff_of_true trivial (Or.inl (isName_ipv4Text hlength))
  | domain name hlength => exact Iff.rfl
  | ipv6 ip hlength =>
    refine iff_of_false id ?_
    rintro (hname | ⟨text, heq, -⟩)
    · exact colon_not_mem_of_isName hname (colon_mem_ipv6Text hlength)
    · have hbracket := bracket_not_mem_ipv6Text ip
      change ipv6Text ip = _ at heq
      rw [heq] at hbracket
      exact hbracket List.mem_cons_self

/-! ### The handshake -/

/-- The handshake accepts its grammar, takes no more of the stream than that, replies as it is to, and an accepted
target is the same host for the interception and for the tunnel. -/
structure HandshakeCorrect (segments : List Bytes) : Prop where
  accepts : ∀ target rest,
    (∃ segments', (handshake Segments.readExact segments).1 = .ok (target, segments') ∧ segments'.flatten = rest) ↔
      ∃ (greeting : Greeting) (request : ConnectRequest), 0 ∈ greeting.methods ∧
        segments.flatten = greeting.encode ++ (request.encode ++ rest) ∧ request.target = target
  replies : Replies segments.flatten (handshake Segments.readExact segments).2
  dials : ∀ target segments', (handshake Segments.readExact segments).1 = .ok (target, segments') → SameDial target

theorem handshake_flatten (segments : List Bytes) :
    Prod.map (Except.map (Prod.map id List.flatten)) id (handshake Segments.readExact segments) =
      handshake Segments.takeExact segments.flatten :=
  handshake_map Segments.readExact_eq segments

theorem ok_flatten {segments : List Bytes} {target : Socks5Target} {rest : Bytes} :
    (∃ segments', (handshake Segments.readExact segments).1 = .ok (target, segments') ∧ segments'.flatten = rest) ↔
      (handshake Segments.takeExact segments.flatten).1 = .ok (target, rest) := by
  rw [← handshake_flatten]
  show _ ↔ Except.map (Prod.map id List.flatten) (handshake Segments.readExact segments).1 = _
  cases (handshake Segments.readExact segments).1 with
  | error e => simp [Except.map]
  | ok r =>
    obtain ⟨target', segments'⟩ := r
    simp only [Except.map, Prod.map, id, Except.ok.injEq, Prod.mk.injEq]
    constructor
    · rintro ⟨_, ⟨rfl, rfl⟩, rfl⟩
      exact ⟨rfl, rfl⟩
    · rintro ⟨rfl, rfl⟩
      exact ⟨segments', ⟨rfl, rfl⟩, rfl⟩

/-- The handshake is correct exactly where the request, if there is one, has no IPv6 address, and no domain other than
a host of an authority. -/
theorem HandshakeCorrect.dialable {segments : List Bytes} (h : HandshakeCorrect segments) {greeting : Greeting}
    {request : ConnectRequest} {rest : Bytes} (hmethod : 0 ∈ greeting.methods)
    (hstream : segments.flatten = greeting.encode ++ (request.encode ++ rest)) : request.address.Dialable := by
  obtain ⟨segments', hok, -⟩ := (h.accepts request.target rest).2 ⟨greeting, request, hmethod, hstream, rfl⟩
  exact request.address.dialable_iff.2 (sameDial_iff.1 (h.dials _ _ hok))

theorem handshakeCorrect_iff (segments : List Bytes) :
    HandshakeCorrect segments ↔ ∀ (greeting : Greeting) (request : ConnectRequest) (rest : Bytes),
      0 ∈ greeting.methods → segments.flatten = greeting.encode ++ (request.encode ++ rest) →
        request.address.Dialable := by
  have haccepts := fun target rest => (@ok_flatten segments target rest).trans handshake_eq_ok
  constructor
  · exact fun h greeting request rest hmethod hstream => h.dialable hmethod hstream
  · intro h
    refine ⟨haccepts, ?_, ?_⟩
    · have hreplies := replies_handshake segments.flatten
      rw [← handshake_flatten] at hreplies
      exact hreplies
    · intro target segments' hok
      obtain ⟨greeting, request, hmethod, hstream, rfl⟩ := (haccepts target _).1 ⟨segments', hok, rfl⟩
      exact sameDial_iff.2 (request.address.dialable_iff.1 (h greeting request _ hmethod hstream))

/-- A greeting, and a request for the loopback address of IPv6 at port 443. -/
private def loopbackSegments : List Bytes :=
  [[5, 1, 0], [5, 1, 0, 4, 0, 0, 0, 0, 0, 0, 0, 0, 0, 0, 0, 0, 0, 0, 0, 1, 1, 0xbb]]

theorem not_handshakeCorrect : ¬ ∀ segments, HandshakeCorrect segments := by
  intro h
  exact @HandshakeCorrect.dialable loopbackSegments (h loopbackSegments) ⟨[0], by decide⟩
    ⟨0, .ipv6 [0, 0, 0, 0, 0, 0, 0, 0, 0, 0, 0, 0, 0, 0, 0, 1] rfl, 1, 0xbb⟩ [] (by decide) rfl

end Socks5

end Oproxy
